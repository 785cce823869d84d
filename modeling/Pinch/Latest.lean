import Mathlib.Data.List.Sort
import Mathlib.Order.Lattice

/-! The latest few of a list: sorted by a key from the greatest down, cut to a number of entries,
and turned around. What is cut off is the small end. -/

namespace Pinch

variable {α τ : Type*} [LinearOrder τ] {key : α → τ} {l : List α} {k : ℕ} {x y : α}

/-- A way to sort by a key from the greatest down. The order of equal keys is left open. -/
structure Newest (key : α → τ) where
  run : List α → List α
  perm : ∀ l, (run l).Perm l
  desc : ∀ l, (run l).Pairwise fun x y => key y ≤ key x

namespace Newest

def stable (key : α → τ) : Newest key where
  run l := l.insertionSort fun x y => key y ≤ key x
  perm l := List.perm_insertionSort _ l
  desc l := by
    have : Std.Total fun x y => key y ≤ key x := ⟨fun x y => le_total (key y) (key x)⟩
    have : IsTrans α fun x y => key y ≤ key x := ⟨fun _ _ _ hxy hyz => le_trans hyz hxy⟩
    exact List.pairwise_insertionSort _ l

def latest (order : Newest key) (k : ℕ) (l : List α) : List α :=
  ((order.run l).take k).reverse

variable {order : Newest key}

theorem nodup_latest (h : l.Nodup) : (order.latest k l).Nodup :=
  List.nodup_reverse.2 (((order.perm l).nodup_iff.2 h).sublist (List.take_sublist k _))

theorem latest_asc : (order.latest k l).Pairwise fun x y => key x ≤ key y :=
  List.pairwise_reverse.2 ((order.desc l).sublist (List.take_sublist k _))

theorem latest_perm (h : l.length ≤ k) : (order.latest k l).Perm l := by
  have hlength : (order.run l).length ≤ k := by
    rw [(order.perm l).length_eq]
    exact h
  rw [latest, List.take_of_length_le hlength]
  exact (List.reverse_perm _).trans (order.perm l)

theorem length_latest_le : (order.latest k l).length ≤ k := by
  rw [latest, List.length_reverse]
  exact List.length_take_le k _

/-- The least entry is the first to be cut off. -/
theorem notMem_latest (hnodup : l.Nodup) (hlength : k < l.length)
    (hleast : ∀ y ∈ l, y ≠ x → key x < key y) : x ∉ order.latest k l := by
  intro hx
  have htake : x ∈ (order.run l).take k := List.mem_reverse.1 hx
  have hrest : (order.run l).drop k ≠ [] := by
    intro hnil
    have hle := List.drop_eq_nil_iff.1 hnil
    rw [(order.perm l).length_eq] at hle
    omega
  obtain ⟨y, hy⟩ := List.exists_mem_of_ne_nil _ hrest
  have hsplit := order.desc l
  rw [← List.take_append_drop k (order.run l), List.pairwise_append] at hsplit
  have hle : key y ≤ key x := hsplit.2.2 x htake y hy
  have hdistinct := (order.perm l).nodup_iff.2 hnodup
  rw [← List.take_append_drop k (order.run l), List.nodup_append] at hdistinct
  have hne : y ≠ x := (hdistinct.2.2 x htake y hy).symm
  have hmem : y ∈ l := (order.perm l).mem_iff.1 (List.mem_of_mem_drop hy)
  exact absurd (hleast y hmem hne) (not_lt.2 hle)

end Newest

end Pinch
