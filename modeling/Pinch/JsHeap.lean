import Pinch.StateSpec
import Mathlib.Logic.Function.Basic
import Mathlib.Data.Nat.Notation

/-! Ordinary objects of JavaScript. A property that an object does not have itself is looked up in
its prototypes, and `__proto__` of `Object.prototype` is an accessor. -/

namespace Pinch

inductive JsValue
  | undefined
  | null
  | bool (value : Bool)
  | string (value : String)
  | object (ref : ℕ)
  deriving DecidableEq

def JsValue.truthy : JsValue → Bool
  | undefined | null => false
  | bool value => value
  | string value => value != ""
  | object _ => true

inductive JsProperty
  | data (value : JsValue)
  /-- The getter and setter of `__proto__`. -/
  | protoAccessor
  deriving DecidableEq

structure JsObject (ν : Type) where
  proto : Option ℕ
  props : String → Option JsProperty
  /-- What the object holds besides. -/
  content : Option ν := none

structure JsHeap (ν : Type) where
  objects : ℕ → JsObject ν
  /-- The next object to be made. -/
  size : ℕ

def objectPrototype : ℕ := 0

/-- The names of the properties of `Object.prototype`. -/
def inheritedNames : List String :=
  ["constructor", "__defineGetter__", "__defineSetter__", "hasOwnProperty", "__lookupGetter__",
    "__lookupSetter__", "isPrototypeOf", "propertyIsEnumerable", "toString", "valueOf", "__proto__",
    "toLocaleString"]

namespace JsHeap

variable {ν : Type}

/-- The property along the prototypes of `r`. A chain has no cycles, so it is no longer than the
number of objects. -/
def search (h : JsHeap ν) (key : String) : ℕ → ℕ → Option JsProperty
  | 0, _ => none
  | fuel + 1, r =>
    match (h.objects r).props key, (h.objects r).proto with
    | some p, _ => some p
    | none, some proto => h.search key fuel proto
    | none, none => none

def getProperty (h : JsHeap ν) (r : ℕ) (key : String) : JsValue :=
  match h.search key h.size r with
  | some (.data value) => value
  | some .protoAccessor =>
    match (h.objects r).proto with
    | some proto => .object proto
    | none => .null
  | none => .undefined

def update (h : JsHeap ν) (r : ℕ) (o : JsObject ν) : JsHeap ν :=
  { h with objects := Function.update h.objects r o }

/-- Defining an own property. -/
def put (h : JsHeap ν) (r : ℕ) (key : String) (value : JsValue) : JsHeap ν :=
  h.update r { h.objects r with
    props := Function.update (h.objects r).props key (some (.data value)) }

def inChain (h : JsHeap ν) (target : ℕ) : ℕ → ℕ → Bool
  | 0, _ => false
  | fuel + 1, r => r == target ||
    match (h.objects r).proto with
    | some proto => h.inChain target fuel proto
    | none => false

def setPrototype (h : JsHeap ν) (r : ℕ) (proto : Option ℕ) : Except String (JsHeap ν) :=
  if (h.objects r).proto = proto then .ok h
  else if r = objectPrototype then
    .error "Immutable prototype object 'Object.prototype' cannot have their prototype set"
  else if proto.any (h.inChain r h.size) then .error "Cyclic __proto__ value"
  else .ok (h.update r { h.objects r with proto := proto })

/-- An assignment calls the setter where there is one, and defines an own property elsewhere. -/
def setProperty (h : JsHeap ν) (r : ℕ) (key : String) (value : JsValue) :
    Except String (JsHeap ν) :=
  match h.search key h.size r with
  | some .protoAccessor =>
    match value with
    | .object proto => h.setPrototype r (some proto)
    | .null => h.setPrototype r none
    | _ => .ok h
  | _ => .ok (h.put r key value)

def alloc (h : JsHeap ν) (o : JsObject ν) : JsHeap ν :=
  { h.update h.size o with size := h.size + 1 }

end JsHeap

abbrev JsOp (ν : Type) := EStateM String (JsHeap ν)

namespace JsOp

variable {ν : Type}

def new (o : JsObject ν) : JsOp ν ℕ := do
  let h ← get
  set (h.alloc o)
  pure h.size

/-- Reading `value[key]`. A text or a boolean has the properties of `Object.prototype`. -/
def property (value : JsValue) (key : String) : JsOp ν JsValue := do
  let h ← get
  match value with
  | .object r => pure (h.getProperty r key)
  | .undefined => throw ("Cannot read properties of undefined (reading '" ++ key ++ "')")
  | .null => throw ("Cannot read properties of null (reading '" ++ key ++ "')")
  | .string _ | .bool _ => pure (h.getProperty objectPrototype key)

/-- Assigning to `value[key]`, in strict mode. -/
def assignProperty (value : JsValue) (key : String) (x : JsValue) : JsOp ν Unit := do
  let h ← get
  match value with
  | .object r =>
    match h.setProperty r key x with
    | .ok h' => set h'
    | .error e => throw e
  | .undefined => throw ("Cannot set properties of undefined (setting '" ++ key ++ "')")
  | .null => throw ("Cannot set properties of null (setting '" ++ key ++ "')")
  | .string s => throw ("Cannot create property '" ++ key ++ "' on string '" ++ s ++ "'")
  | .bool b => throw ("Cannot create property '" ++ key ++ "' on boolean '" ++ toString b ++ "'")

/-- `Object.assign(target, source)`. The object that wraps a text or a boolean is lost. -/
def objectAssign (target : JsValue) (source : List (String × JsValue)) : JsOp ν Unit :=
  match target with
  | .object _ => source.forM fun entry => assignProperty target entry.1 entry.2
  | .string _ | .bool _ => pure ()
  | .undefined | .null => throw "Cannot convert undefined or null to object"

end JsOp

/-! ### Objects whose only prototype is `Object.prototype` -/

namespace JsHeap

variable {ν : Type} {h : JsHeap ν} {r r' : ℕ} {key key' : String} {value : JsValue}

/-- `Object.prototype` has no properties but its own. -/
structure Pristine (h : JsHeap ν) : Prop where
  exists_ : objectPrototype < h.size
  proto : (h.objects objectPrototype).proto = none
  props : ∀ key, key ∉ inheritedNames → (h.objects objectPrototype).props key = none

structure Plain (h : JsHeap ν) (r : ℕ) : Prop where
  ne : r ≠ objectPrototype
  lt : r < h.size
  proto : (h.objects r).proto = some objectPrototype
  data : ∀ key, (h.objects r).props key ≠ some .protoAccessor

/-- The value of an own property. -/
def own (h : JsHeap ν) (r : ℕ) (key : String) : JsValue :=
  match (h.objects r).props key with
  | some (.data value) => value
  | _ => .undefined

theorem search_objectPrototype (hp : h.Pristine) (hkey : key ∉ inheritedNames) (fuel : ℕ) :
    h.search key fuel objectPrototype = none := by
  cases fuel with
  | zero => rfl
  | succ fuel => simp [search, hp.props key hkey, hp.proto]

theorem getProperty_objectPrototype (hp : h.Pristine) (hkey : key ∉ inheritedNames) :
    h.getProperty objectPrototype key = .undefined := by
  unfold getProperty
  rw [search_objectPrototype hp hkey]

theorem search_plain (hp : h.Pristine) (hr : h.Plain r) (hkey : key ∉ inheritedNames) :
    h.search key h.size r = (h.objects r).props key := by
  obtain ⟨fuel, hfuel⟩ : ∃ fuel, h.size = fuel + 1 :=
    ⟨h.size - 1, by have := hp.exists_; omega⟩
  rw [hfuel]
  cases hown : (h.objects r).props key with
  | none => simp [search, hown, hr.proto, search_objectPrototype hp hkey]
  | some p => simp [search, hown]

theorem getProperty_plain (hp : h.Pristine) (hr : h.Plain r) (hkey : key ∉ inheritedNames) :
    h.getProperty r key = h.own r key := by
  unfold getProperty own
  rw [search_plain hp hr hkey]
  cases hown : (h.objects r).props key with
  | none => rfl
  | some p =>
    cases p with
    | data value => rfl
    | protoAccessor => exact absurd hown (hr.data key)

theorem setProperty_plain (hp : h.Pristine) (hr : h.Plain r) (hkey : key ∉ inheritedNames)
    (value : JsValue) : h.setProperty r key value = .ok (h.put r key value) := by
  unfold setProperty
  rw [search_plain hp hr hkey]
  cases hown : (h.objects r).props key with
  | none => rfl
  | some p =>
    cases p with
    | data value => rfl
    | protoAccessor => exact absurd hown (hr.data key)

@[simp] theorem put_size : (h.put r key value).size = h.size := rfl

theorem put_objects_of_ne (hne : r' ≠ r) : (h.put r key value).objects r' = h.objects r' := by
  simp [put, update, hne]

@[simp] theorem put_proto (r' : ℕ) :
    ((h.put r key value).objects r').proto = (h.objects r').proto := by
  by_cases hr : r' = r
  · subst hr
    simp [put, update]
  · rw [put_objects_of_ne hr]

@[simp] theorem put_content (r' : ℕ) :
    ((h.put r key value).objects r').content = (h.objects r').content := by
  by_cases hr : r' = r
  · subst hr
    simp [put, update]
  · rw [put_objects_of_ne hr]

@[simp] theorem own_put : (h.put r key value).own r key = value := by
  simp [own, put, update]

theorem own_put_of_ne (hne : r' ≠ r ∨ key' ≠ key) :
    (h.put r key value).own r' key' = h.own r' key' := by
  by_cases hr : r' = r
  · subst hr
    have hkey : key' ≠ key := hne.resolve_left (not_not.2 rfl)
    simp [own, put, update, hkey]
  · simp only [own, put_objects_of_ne hr]

theorem Pristine.put (hp : h.Pristine) (hr : r ≠ objectPrototype) :
    (h.put r key value).Pristine := by
  refine ⟨hp.exists_, ?_, ?_⟩
  · rw [put_proto]
    exact hp.proto
  · rw [put_objects_of_ne hr.symm]
    exact hp.props

theorem Plain.put (hr : h.Plain r') : (h.put r key value).Plain r' := by
  refine ⟨hr.ne, hr.lt, by rw [put_proto, hr.proto], fun key' => ?_⟩
  by_cases hrr : r' = r
  · subst hrr
    by_cases hkey : key' = key
    · subst hkey
      simp [JsHeap.put, update]
    · simpa [JsHeap.put, update, hkey] using hr.data key'
  · rw [put_objects_of_ne hrr]
    exact hr.data key'

variable {o : JsObject ν}

@[simp] theorem alloc_objects_new : (h.alloc o).objects h.size = o := by
  simp [alloc, update]

theorem alloc_objects (hr : r < h.size) : (h.alloc o).objects r = h.objects r := by
  simp [alloc, update, Nat.ne_of_lt hr]

/-- Objects are made, and those that were there are as they were. -/
structure Grows (h h' : JsHeap ν) : Prop where
  size : h.size ≤ h'.size
  objects : ∀ r < h.size, h'.objects r = h.objects r

theorem Grows.refl (h : JsHeap ν) : Grows h h := ⟨Nat.le_refl _, fun _ _ => rfl⟩

theorem Grows.trans {h' h'' : JsHeap ν} (hg : Grows h h') (hg' : Grows h' h'') : Grows h h'' :=
  ⟨Nat.le_trans hg.size hg'.size, fun r hr =>
    (hg'.objects r (Nat.lt_of_lt_of_le hr hg.size)).trans (hg.objects r hr)⟩

theorem grows_alloc : Grows h (h.alloc o) := ⟨Nat.le_succ _, fun _ hr => alloc_objects hr⟩

theorem Pristine.grows {h' : JsHeap ν} (hp : h.Pristine) (hg : Grows h h') : h'.Pristine := by
  refine ⟨Nat.lt_of_lt_of_le hp.exists_ hg.size, ?_, ?_⟩
  · rw [hg.objects _ hp.exists_]
    exact hp.proto
  · rw [hg.objects _ hp.exists_]
    exact hp.props

theorem Plain.grows {h' : JsHeap ν} (hr : h.Plain r) (hg : Grows h h') : h'.Plain r := by
  refine ⟨hr.ne, Nat.lt_of_lt_of_le hr.lt hg.size, ?_, ?_⟩
  · rw [hg.objects r hr.lt]
    exact hr.proto
  · rw [hg.objects r hr.lt]
    exact hr.data

/-- Own properties, one after the other. -/
def putAll (h : JsHeap ν) (r : ℕ) (entries : List (String × JsValue)) : JsHeap ν :=
  entries.foldl (fun h entry => h.put r entry.1 entry.2) h

/-- What defining one property keeps, defining several keeps. -/
theorem putAll_induction {P : JsHeap ν → Prop} (hput : ∀ h key value, P h → P (h.put r key value))
    (hP : P h) (entries : List (String × JsValue)) : P (h.putAll r entries) := by
  induction entries generalizing h with
  | nil => exact hP
  | cons entry entries ih => exact ih (hput h entry.1 entry.2 hP)

variable {entries : List (String × JsValue)}

theorem putAll_objects_of_ne (hne : r' ≠ r) :
    (h.putAll r entries).objects r' = h.objects r' :=
  putAll_induction (P := fun t => t.objects r' = h.objects r')
    (fun _ _ _ ht => (put_objects_of_ne hne).trans ht) rfl entries

theorem putAll_content (r' : ℕ) :
    ((h.putAll r entries).objects r').content = (h.objects r').content :=
  putAll_induction (P := fun t => (t.objects r').content = (h.objects r').content)
    (fun _ _ _ ht => (put_content r').trans ht) rfl entries

theorem putAll_size : (h.putAll r entries).size = h.size :=
  putAll_induction (P := fun t => t.size = h.size) (fun _ _ _ ht => ht) rfl entries

theorem Pristine.putAll (hp : h.Pristine) (hr : r ≠ objectPrototype) :
    (h.putAll r entries).Pristine :=
  putAll_induction (P := JsHeap.Pristine) (fun _ _ _ ht => ht.put hr) hp entries

theorem Plain.putAll (hr : h.Plain r') : (h.putAll r entries).Plain r' :=
  putAll_induction (P := fun t => t.Plain r') (fun _ _ _ ht => ht.put) hr entries

end JsHeap

namespace JsOp

variable {ν : Type} {h : JsHeap ν} {r : ℕ} {key : String}

open JsHeap

theorem new_run (o : JsObject ν) (h : JsHeap ν) : (new o).run h = .ok h.size (h.alloc o) := rfl

theorem property_run (r : ℕ) (key : String) (h : JsHeap ν) :
    (property (.object r) key).run h = .ok (h.getProperty r key) h := rfl

theorem assignProperty_run (hp : h.Pristine) (hr : h.Plain r) (hkey : key ∉ inheritedNames)
    (value : JsValue) :
    (assignProperty (.object r) key value).run h = .ok () (h.put r key value) := by
  unfold assignProperty
  rw [EStateM.run_bind]
  simp only [EStateM.run_get, setProperty_plain hp hr hkey]
  rfl

theorem forM_assign_run {entries : List (String × JsValue)} (hp : h.Pristine) (hr : h.Plain r)
    (hkeys : ∀ entry ∈ entries, entry.1 ∉ inheritedNames) :
    (entries.forM fun entry => assignProperty (.object r) entry.1 entry.2).run h =
      .ok () (h.putAll r entries) := by
  induction entries generalizing h with
  | nil => rfl
  | cons entry entries ih =>
    show (assignProperty (.object r) entry.1 entry.2 >>= fun _ =>
      entries.forM fun entry => assignProperty (.object r) entry.1 entry.2).run h = _
    rw [EStateM.run_bind, assignProperty_run hp hr (hkeys entry (by simp))]
    exact ih (hp.put hr.ne) hr.put fun e he => hkeys e (by simp [he])

end JsOp

end Pinch
