import Mathlib.Data.List.Pairwise
import Mathlib.Data.List.Nodup
import Mathlib.Order.Lattice
import Mathlib.Tactic.Tauto

/-! Finite maps that list their entries in ascending order of the keys. Every
operation is described by its effect on membership. -/

namespace Pinch

structure SortedMap (κ ν : Type*) [LinearOrder κ] where
  entries : List (κ × ν)
  sorted : entries.Pairwise (fun x y => x.1 < y.1)

namespace SortedMap

variable {κ ν : Type*} [LinearOrder κ] {m : SortedMap κ ν} {k : κ} {v w : ν} {x : κ × ν}

instance : Membership (κ × ν) (SortedMap κ ν) := ⟨fun m x => x ∈ m.entries⟩

theorem mem_def : x ∈ m ↔ x ∈ m.entries := Iff.rfl

instance [DecidableEq ν] : Decidable (x ∈ m) := inferInstanceAs (Decidable (x ∈ m.entries))

def empty : SortedMap κ ν := ⟨[], .nil⟩

def size (m : SortedMap κ ν) : ℕ := m.entries.length

def get (m : SortedMap κ ν) (k : κ) : Option ν := (m.entries.find? fun x => x.1 = k).map Prod.snd

def filter (m : SortedMap κ ν) (p : κ × ν → Bool) : SortedMap κ ν :=
  ⟨m.entries.filter p, m.sorted.filter p⟩

def erase (m : SortedMap κ ν) (k : κ) : SortedMap κ ν := m.filter (fun x => x.1 ≠ k)

def put (m : SortedMap κ ν) (k : κ) (v : ν) : SortedMap κ ν where
  entries := m.entries.filter (fun x => x.1 < k) ++ (k, v) :: m.entries.filter (fun x => k < x.1)
  sorted := by
    have hlow : ∀ x ∈ m.entries.filter (fun x => x.1 < k), x.1 < k := by simp
    have hhigh : ∀ x ∈ m.entries.filter (fun x => k < x.1), k < x.1 := by simp
    refine List.pairwise_append.mpr ⟨m.sorted.filter _, ?_, ?_⟩
    · exact List.pairwise_cons.mpr ⟨hhigh, m.sorted.filter _⟩
    · intro x hx y hy
      rcases List.mem_cons.mp hy with rfl | hy
      · exact hlow x hx
      · exact (hlow x hx).trans (hhigh y hy)

@[simp]
theorem not_mem_empty : x ∉ (empty : SortedMap κ ν) := by
  simp [mem_def, empty]

@[simp]
theorem mem_filter {p : κ × ν → Bool} : x ∈ m.filter p ↔ x ∈ m ∧ p x = true := by
  simp [mem_def, filter]

@[simp]
theorem mem_erase : x ∈ m.erase k ↔ x ∈ m ∧ x.1 ≠ k := by
  simp [erase]

theorem entries_erase : (m.erase k).entries = m.entries.filter (fun x => x.1 ≠ k) := rfl

@[simp]
theorem mem_put : x ∈ m.put k v ↔ x = (k, v) ∨ (x ∈ m ∧ x.1 ≠ k) := by
  have hne : x.1 ≠ k ↔ x.1 < k ∨ k < x.1 := ne_iff_lt_or_gt
  simp only [mem_def, put, List.mem_append, List.mem_cons, List.mem_filter, decide_eq_true_eq, hne]
  tauto

theorem entries_put_of_lt (h : ∀ x ∈ m, x.1 < k) : (m.put k v).entries = m.entries ++ [(k, v)] := by
  have hlow : m.entries.filter (fun x => x.1 < k) = m.entries :=
    List.filter_eq_self.mpr fun x hx => by simpa using h x hx
  have hhigh : m.entries.filter (fun x => k < x.1) = [] :=
    List.filter_eq_nil_iff.mpr fun x hx => by simpa using (h x hx).le
  simp only [put, hlow, hhigh]

theorem nodup_keys (m : SortedMap κ ν) : (m.entries.map Prod.fst).Nodup :=
  List.pairwise_map.mpr (m.sorted.imp fun h => h.ne)

theorem eq_of_mem (hv : (k, v) ∈ m) (hw : (k, w) ∈ m) : v = w := by
  have heq := List.inj_on_of_nodup_map m.nodup_keys hv hw rfl
  exact congrArg Prod.snd heq

theorem get_eq_some : m.get k = some v ↔ (k, v) ∈ m := by
  unfold get
  constructor
  · intro h
    obtain ⟨⟨k', v'⟩, hfind, rfl⟩ := Option.map_eq_some_iff.1 h
    obtain rfl : k' = k := by simpa using List.find?_some hfind
    exact List.mem_of_find?_eq_some hfind
  · intro h
    cases hfind : m.entries.find? (fun x => x.1 = k) with
    | none => exact absurd (List.find?_eq_none.1 hfind (k, v) h) (by simp)
    | some x =>
      obtain ⟨k', w⟩ := x
      obtain rfl : k' = k := by simpa using List.find?_some hfind
      have hmem : (k', w) ∈ m := List.mem_of_find?_eq_some hfind
      simp [eq_of_mem hmem h]

theorem get_put_self : (m.put k v).get k = some v := get_eq_some.2 (mem_put.2 (.inl rfl))

theorem get_put_of_ne {k' : κ} (h : k' ≠ k) : (m.put k v).get k' = m.get k' :=
  Option.ext fun w => by simp [get_eq_some, h]

theorem get_erase_of_ne {k' : κ} (h : k' ≠ k) : (m.erase k).get k' = m.get k' :=
  Option.ext fun w => by simp [get_eq_some, h]

theorem get_erase_self : (m.erase k).get k = none :=
  Option.eq_none_iff_forall_ne_some.2 fun w hw => by simp [get_eq_some] at hw

theorem mem_foldl_erase {ks : List κ} : x ∈ ks.foldl erase m ↔ x ∈ m ∧ x.1 ∉ ks := by
  induction ks generalizing m with
  | nil => simp
  | cons k ks ih => simp [ih, and_assoc]

theorem size_erase_le (m : SortedMap κ ν) (k : κ) : (m.erase k).size ≤ m.size :=
  List.length_filter_le _ _

theorem size_foldl_erase_le (ks : List κ) : (ks.foldl erase m).size ≤ m.size := by
  induction ks generalizing m with
  | nil => exact le_rfl
  | cons k ks ih => exact ih.trans (size_erase_le m k)

theorem size_put_le (m : SortedMap κ ν) (k : κ) (v : ν) : (m.put k v).size ≤ m.size + 1 := by
  have hsplit : (m.entries.filter fun x => x.1 < k).length +
      (m.entries.filter fun x => k < x.1).length ≤ m.entries.length := by
    induction m.entries with
    | nil => exact le_rfl
    | cons x l ih =>
      rcases lt_trichotomy x.1 k with hlt | heq | hgt
      · simp [hlt, hlt.not_gt]
        omega
      · simp [heq]
        omega
      · simp [hgt, hgt.not_gt]
        omega
  simp only [put, size, List.length_append, List.length_cons]
  omega

theorem not_mem_of_size_eq_zero (h : m.size = 0) : x ∉ m := by
  simp [mem_def, List.eq_nil_of_length_eq_zero h]

end SortedMap

end Pinch
