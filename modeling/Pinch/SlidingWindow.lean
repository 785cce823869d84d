import Mathlib.Data.List.Basic
import Mathlib.Order.Lattice

/-! Logs that forget what is old. A log is cut at a time that only grows, and so it still agrees
with the whole history about everything that is younger than the last cut. -/

namespace Pinch.SlidingWindow

variable {α τ : Type*} [LinearOrder τ] {time : α → τ} {s t : τ} {l history kept : List α} {x : α}

/-- The entries that are younger than `t`. -/
def after (time : α → τ) (t : τ) (l : List α) : List α := l.filter fun x => t < time x

theorem after_append (l m : List α) : after time t (l ++ m) = after time t l ++ after time t m :=
  List.filter_append l m

theorem after_after (h : s ≤ t) (l : List α) : after time t (after time s l) = after time t l := by
  rw [after, after, after, List.filter_filter]
  apply List.filter_congr
  intro x _
  by_cases hx : t < time x
  · simp [hx, lt_of_le_of_lt h hx]
  · simp [hx]

/-- The log still has everything that is younger than `t`. -/
def Covers (time : α → τ) (t : τ) (history kept : List α) : Prop :=
  after time t kept = after time t history

theorem Covers.push (h : Covers time t history kept) (x : α) :
    Covers time t (history ++ [x]) (kept ++ [x]) := by
  rw [Covers, after_append, after_append, h]

theorem Covers.prune (h : Covers time t history kept) (hst : s ≤ t) :
    Covers time t history (after time s kept) := by
  rw [Covers, after_after hst, h]

/-- A count of younger entries can be taken from the log. -/
theorem Covers.filter (h : Covers time t history kept) (hst : t ≤ s) (p : α → Prop)
    [DecidablePred p] :
    kept.filter (fun x => p x ∧ s < time x) = history.filter fun x => p x ∧ s < time x := by
  have hsplit (l : List α) :
      l.filter (fun x => p x ∧ s < time x) = (after time s (after time t l)).filter fun x => p x := by
    rw [after_after hst, after, List.filter_filter]
    apply List.filter_congr
    intro x _
    simp
  rw [hsplit, hsplit, h]

end Pinch.SlidingWindow
