import Mathlib.Data.List.Infix
import Mathlib.Data.List.NodupEquivFin
import Mathlib.Order.WellFounded

/-! Listings in order. A condition that stays true once it is true cuts a listing in two, and
a listing that only grows can be read page by page. -/

namespace Pinch.Listing

variable {α : Type*} {p q : α → Bool} {l m : List α} {x : α}

/-- What holds from some place on is the end of the list. -/
theorem filter_not_append_filter (h : l.Pairwise fun x y => p x = true → p y = true) :
    l.filter (!p ·) ++ l.filter p = l := by
  induction l with
  | nil => rfl
  | cons x l ih =>
    obtain ⟨hx, hl⟩ := List.pairwise_cons.1 h
    cases hp : p x with
    | false => simpa [hp] using ih hl
    | true =>
      have hnone : l.filter (!p ·) = [] := by
        rw [List.filter_eq_nil_iff]
        intro y hy
        simp [hx y hy hp]
      have hall := ih hl
      rw [hnone, List.nil_append] at hall
      simp [hp, hnone, hall]

/-- A range of a list in order is one piece of it. -/
theorem range_segment (hp : l.Pairwise fun x y => p x = true → p y = true)
    (hq : l.Pairwise fun x y => q y = true → q x = true) :
    l = l.filter (!p ·) ++ l.filter (fun x => p x && q x) ++ l.filter (fun x => p x && !q x) := by
  have hrest : (l.filter p).Pairwise fun x y => (!q x) = true → (!q y) = true := by
    refine (hq.sublist List.filter_sublist).imp fun hxy hx => ?_
    cases hy : q _ with
    | false => rfl
    | true => simp [hxy hy] at hx
  have hsplit := filter_not_append_filter hrest
  simp only [List.filter_filter, Bool.not_not] at hsplit
  rw [List.append_assoc]
  conv_lhs => rw [← filter_not_append_filter hp, ← hsplit]
  simp only [Bool.and_comm]

def page (n k : ℕ) (l : List α) : List α := (l.drop (k * n)).take n

theorem mem_page {n k : ℕ} :
    x ∈ page n k l ↔ ∃ i, k * n ≤ i ∧ i < (k + 1) * n ∧ l[i]? = some x := by
  rw [page, List.mem_iff_getElem?]
  constructor
  · rintro ⟨i, hi⟩
    rw [List.getElem?_take] at hi
    split at hi
    · rw [List.getElem?_drop] at hi
      exact ⟨k * n + i, by omega, by rw [Nat.add_mul]; omega, hi⟩
    · simp at hi
  · rintro ⟨i, hlow, hhigh, hi⟩
    rw [Nat.add_mul] at hhigh
    refine ⟨i - k * n, ?_⟩
    rw [List.getElem?_take_of_lt (by omega), List.getElem?_drop]
    rwa [Nat.add_sub_cancel' hlow]

/-- An entry that no page has shown so far lies behind the pages that were read. -/
theorem shown_or_ahead {L : ℕ → List α} {n last : ℕ} (hgrow : ∀ k < last, (L k).Sublist (L (k + 1)))
    (hx : x ∈ L 0) : ∀ k ≤ last, (∃ j < k, x ∈ page n j (L j)) ∨
      ∃ i, k * n ≤ i ∧ (L k)[i]? = some x := by
  intro k
  induction k with
  | zero =>
    obtain ⟨i, hi⟩ := List.mem_iff_getElem?.1 hx
    exact fun _ => .inr ⟨i, by omega, hi⟩
  | succ k ih =>
    intro hk
    rcases ih (by omega) with ⟨j, hj, hshown⟩ | ⟨i, hlow, hi⟩
    · exact .inl ⟨j, by omega, hshown⟩
    by_cases hhigh : i < (k + 1) * n
    · exact .inl ⟨k, by omega, mem_page.2 ⟨i, hlow, hhigh, hi⟩⟩
    · obtain ⟨f, hf⟩ := List.sublist_iff_exists_orderEmbedding_getElem?_eq.1 (hgrow k (by omega))
      -- an entry that is added before this one pushes it further back
      have hback : i ≤ f i := f.strictMono.le_apply
      exact .inr ⟨f i, by omega, by rw [← hf, hi]⟩

/-- Reading on until a page is not full, no entry of the first listing is missed, although entries
are added meanwhile. -/
theorem exists_page {L : ℕ → List α} {n last : ℕ} (hgrow : ∀ k < last, (L k).Sublist (L (k + 1)))
    (hshort : (page n last (L last)).length < n) (hx : x ∈ L 0) :
    ∃ k ≤ last, x ∈ page n k (L k) := by
  rcases shown_or_ahead hgrow hx last le_rfl with ⟨j, hj, hshown⟩ | ⟨i, hlow, hi⟩
  · exact ⟨j, by omega, hshown⟩
  · refine ⟨last, le_rfl, mem_page.2 ⟨i, hlow, ?_, hi⟩⟩
    have hlength : i < (L last).length := (List.getElem?_eq_some_iff.1 hi).1
    rw [page, List.length_take, List.length_drop] at hshort
    rw [Nat.add_mul]
    omega

end Pinch.Listing
