import Pinch.SortedMap
import Pinch.StateSpec
import Pinch.Utf
import Mathlib.Algebra.Group.Nat.Defs
import Mathlib.Data.List.AList
import Mathlib.Order.Lex
import Mathlib.Data.List.Lex

/-! A key-value store of named buckets. Keys are byte strings and are kept in byte order; a
transaction that fails leaves nothing behind. -/

namespace Pinch

instance byteOrder : LinearOrder UInt8 where
  le_refl := UInt8.le_refl
  le_trans _ _ _ := UInt8.le_trans
  le_antisymm _ _ := UInt8.le_antisymm
  le_total := UInt8.le_total
  lt_iff_le_not_ge a b := by
    simp only [UInt8.le_iff_toNat_le, UInt8.lt_iff_toNat_lt]
    omega
  toDecidableLE := inferInstance
  toDecidableEq := inferInstance
  toDecidableLT := inferInstance

/-- The last `width` base-256 digits of a number, the highest first. -/
def bigEndian : ℕ → ℕ → Bytes
  | 0, _ => []
  | width + 1, n => UInt8.ofNat (n / 256 ^ width) :: bigEndian width (n % 256 ^ width)

@[simp]
theorem length_bigEndian (width n : ℕ) : (bigEndian width n).length = width := by
  induction width generalizing n with
  | zero => rfl
  | succ width ih => simp [bigEndian, ih]

theorem lt_iff_div_mod (n m d : ℕ) : n < m ↔ n / d < m / d ∨ n / d = m / d ∧ n % d < m % d := by
  have hn := Nat.div_add_mod n d
  have hm := Nat.div_add_mod m d
  constructor
  · intro hlt
    rcases Nat.lt_or_ge (n / d) (m / d) with h | h
    · exact .inl h
    · have heq : n / d = m / d := le_antisymm (Nat.div_le_div_right hlt.le) h
      rw [heq] at hn
      exact .inr ⟨heq, by omega⟩
  · rintro (h | ⟨heq, h⟩)
    · exact Nat.lt_of_div_lt_div h
    · rw [heq] at hn
      omega

theorem ofNat_lt_iff {a b : ℕ} (ha : a < 256) (hb : b < 256) :
    UInt8.ofNat a < UInt8.ofNat b ↔ a < b := by
  rw [UInt8.lt_iff_toNat_lt, UInt8.toNat_ofNat_of_lt' ha, UInt8.toNat_ofNat_of_lt' hb]

theorem ofNat_inj {a b : ℕ} (ha : a < 256) (hb : b < 256) :
    UInt8.ofNat a = UInt8.ofNat b ↔ a = b := by
  rw [← UInt8.toNat_inj, UInt8.toNat_ofNat_of_lt' ha, UInt8.toNat_ofNat_of_lt' hb]

/-- The byte order of numbers of one width is their order. -/
theorem bigEndian_lt_iff {width n m : ℕ} (hn : n < 256 ^ width) (hm : m < 256 ^ width) :
    bigEndian width n < bigEndian width m ↔ n < m := by
  induction width generalizing n m with
  | zero =>
    rw [Nat.pow_zero, Nat.lt_one_iff] at hn hm
    simp [hn, hm, bigEndian]
  | succ width ih =>
    have hpos : 0 < 256 ^ width := Nat.pow_pos (by decide)
    have hdigit : n / 256 ^ width < 256 :=
      Nat.div_lt_of_lt_mul (by rwa [Nat.pow_succ] at hn)
    have hdigit' : m / 256 ^ width < 256 :=
      Nat.div_lt_of_lt_mul (by rwa [Nat.pow_succ] at hm)
    rw [bigEndian, bigEndian, List.cons_lt_cons_iff, ofNat_lt_iff hdigit hdigit',
      ofNat_inj hdigit hdigit', ih (Nat.mod_lt _ hpos) (Nat.mod_lt _ hpos)]
    exact (lt_iff_div_mod n m _).symm

theorem bigEndian_inj {width n m : ℕ} (hn : n < 256 ^ width) (hm : m < 256 ^ width)
    (h : bigEndian width n = bigEndian width m) : n = m := by
  rcases Nat.lt_trichotomy n m with hlt | heq | hgt
  · exact absurd ((bigEndian_lt_iff hn hm).2 hlt) (h ▸ lt_irrefl _)
  · exact heq
  · exact absurd ((bigEndian_lt_iff hm hn).2 hgt) (h ▸ lt_irrefl _)

theorem append_lt_append_iff {a b c d : Bytes} (h : a.length = c.length) :
    a ++ b < c ++ d ↔ a < c ∨ a = c ∧ b < d := by
  induction a generalizing c with
  | nil =>
    obtain rfl : c = [] := List.eq_nil_of_length_eq_zero h.symm
    simp
  | cons x a ih =>
    cases c with
    | nil => simp at h
    | cons y c =>
      have hih := ih (c := c) (by simpa using h)
      rw [List.cons_append, List.cons_append, List.cons_lt_cons_iff, List.cons_lt_cons_iff, hih,
        List.cons.injEq]
      tauto

namespace Bolt

structure Bucket (ν : Type) where
  sequence : ℕ
  entries : SortedMap Bytes ν

/-- The buckets inside one bucket, by name. -/
abbrev Root (ν : Type) := AList (fun _ : String => Bucket ν)

/-- Code inside a transaction. -/
abbrev Tx (ε ν : Type) := EStateM ε (Root ν)

variable {ε ν α : Type}

def Bucket.empty : Bucket ν := ⟨0, .empty⟩

/-- A bucket that does not exist has no keys. -/
def Root.bucket (root : Root ν) (name : String) : Bucket ν := (root.lookup name).getD .empty

/-- A read-write transaction. What a failed one has written is rolled back. -/
def update (root : Root ν) (tx : Tx ε ν α) : Except ε α × Root ν :=
  match tx.run root with
  | .ok a root' => (.ok a, root')
  | .error e _ => (.error e, root)

/-- A read-only transaction. -/
def view (root : Root ν) (tx : Tx ε ν α) : Except ε α :=
  match tx.run root with
  | .ok a _ => .ok a
  | .error e _ => .error e

/-- A bucket needs a name. -/
def createBucketIfNotExists (nameRequired : ε) (name : String) : Tx ε ν Unit :=
  if name = "" then throw nameRequired
  else modify fun root => if name ∈ root then root else root.insert name .empty

/-- The number of keys in the bucket. -/
def keyN (name : String) : Tx ε ν ℕ := do
  return ((← get).bucket name).entries.size

def nextSequence (name : String) : Tx ε ν ℕ := do
  let b := (← get).bucket name
  modify fun root => root.insert name { b with sequence := b.sequence + 1 }
  return b.sequence + 1

def put (name : String) (key : Bytes) (value : ν) : Tx ε ν Unit :=
  modify fun root =>
    let b := root.bucket name
    root.insert name { b with entries := b.entries.put key value }

def delete (name : String) (key : Bytes) : Tx ε ν Unit :=
  modify fun root =>
    let b := root.bucket name
    root.insert name { b with entries := b.entries.erase key }

/-- A cursor walk that stops as soon as it has taken `n` of the entries. -/
def scan {β : Type} (f : α → Option β) : ℕ → List α → List β
  | 0, _ => []
  | _ + 1, [] => []
  | n + 1, x :: rest =>
    match f x with
    | none => scan f (n + 1) rest
    | some y => y :: scan f n rest

theorem scan_eq {β : Type} (f : α → Option β) (n : ℕ) (l : List α) :
    scan f n l = (l.filterMap f).take n := by
  induction l generalizing n with
  | nil => cases n <;> simp [scan]
  | cons x l ih =>
    cases n with
    | zero => simp [scan]
    | succ n =>
      cases hx : f x with
      | none => simp [scan, hx, ih]
      | some y => simp [scan, hx, ih]

section

variable {root : Root ν} {name a : String} {key : Bytes} {value : ν} {b : Bucket ν}

@[simp]
theorem bucket_insert_self : Root.bucket (root.insert name b) name = b := by
  simp [Root.bucket]

theorem bucket_insert_of_ne (h : a ≠ name) :
    Root.bucket (root.insert name b) a = root.bucket a := by
  simp [Root.bucket, AList.lookup_insert_ne h]

theorem bucket_of_not_mem (h : name ∉ root) : root.bucket name = .empty := by
  rw [Root.bucket, AList.lookup_eq_none.2 h]
  rfl

/-- A new bucket is as empty as none. -/
theorem bucket_create : Root.bucket (if name ∈ root then root else root.insert name .empty) a =
    root.bucket a := by
  split
  · rfl
  · rename_i hname
    by_cases ha : a = name
    · rw [ha, bucket_insert_self, bucket_of_not_mem hname]
    · exact bucket_insert_of_ne ha

theorem update_error {tx : Tx ε ν α} {e : ε} {root' : Root ν}
    (h : tx.run root = .error e root') : update root tx = (.error e, root) := by
  rw [update, h]

theorem update_ok {tx : Tx ε ν α} {x : α} {root' : Root ν} (h : tx.run root = .ok x root') :
    update root tx = (.ok x, root') := by
  rw [update, h]

theorem bucket_of_lookup (h : root.lookup name = some b) : root.bucket name = b := by
  rw [Root.bucket, h]
  rfl

/-- Deleting keys one by one changes one bucket. -/
theorem run_forM_delete (name : String) (ks : List Bytes) (root : Root ν) : ∃ root' : Root ν,
    (forM ks (delete name) : Tx ε ν Unit).run root = .ok () root' ∧
      root'.bucket name = { root.bucket name with
        entries := ks.foldl .erase (root.bucket name).entries } ∧
      ∀ a ≠ name, root'.bucket a = root.bucket a := by
  induction ks generalizing root with
  | nil => exact ⟨root, rfl, rfl, fun _ _ => rfl⟩
  | cons k ks ih =>
    obtain ⟨root', hrun, hself, hne⟩ := ih (root.insert name
      { root.bucket name with entries := (root.bucket name).entries.erase k })
    refine ⟨root', hrun, ?_, fun a ha => ?_⟩
    · rw [hself, bucket_insert_self]
      rfl
    · rw [hne a ha, bucket_insert_of_ne ha]

end

end Bolt

end Pinch
