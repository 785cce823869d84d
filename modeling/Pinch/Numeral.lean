import Mathlib.Data.List.TakeWhile
import Mathlib.Data.Nat.Digits.Lemmas

/-! Numerals whose leading zeros count. A list of digits, the most significant one first, is
the same as the number of its leading zeros together with its value. -/

namespace Pinch.Numeral

variable {b z n : ℕ} {ds : List ℕ}

def zeros (ds : List ℕ) : ℕ := (ds.takeWhile (· = 0)).length

def value (b : ℕ) (ds : List ℕ) : ℕ := ds.foldl (fun n d => n * b + d) 0

def numeral (b z n : ℕ) : List ℕ := List.replicate z 0 ++ (Nat.digits b n).reverse

theorem value_eq_ofDigits (b : ℕ) (ds : List ℕ) : value b ds = Nat.ofDigits b ds.reverse := by
  rw [Nat.ofDigits_eq_foldr, List.foldr_reverse, value]
  simp only [Nat.cast_id, Nat.mul_comm, Nat.add_comm]

theorem replicate_zeros_append (ds : List ℕ) :
    List.replicate (zeros ds) 0 ++ ds.dropWhile (· = 0) = ds := by
  have hzeros : ds.takeWhile (· = 0) = List.replicate (zeros ds) 0 := by
    rw [List.eq_replicate_iff]
    exact ⟨rfl, fun d hd => by simpa using List.mem_takeWhile_imp hd⟩
  rw [← hzeros, List.takeWhile_append_dropWhile]

theorem value_replicate_append (b z : ℕ) (ds : List ℕ) :
    value b (List.replicate z 0 ++ ds) = value b ds := by
  induction z with
  | zero => rfl
  | succ z ih =>
    rw [List.replicate_succ, List.cons_append]
    simpa [value] using ih

theorem numeral_value (hb : 1 < b) (hds : ∀ d ∈ ds, d < b) :
    numeral b (zeros ds) (value b ds) = ds := by
  have hrest : ∀ d ∈ (ds.dropWhile (· = 0)).reverse, d < b := by
    intro d hd
    exact hds d ((List.dropWhile_sublist _).subset (List.mem_reverse.1 hd))
  have hhead : ∀ h : (ds.dropWhile (· = 0)).reverse ≠ [],
      (ds.dropWhile (· = 0)).reverse.getLast h ≠ 0 := by
    intro h
    rw [List.getLast_reverse]
    have hne : ds.dropWhile (· = 0) ≠ [] := by simpa using h
    simpa using List.head_dropWhile_not (fun d : ℕ => decide (d = 0)) hne
  have hvalue : value b ds = Nat.ofDigits b (ds.dropWhile (· = 0)).reverse := by
    rw [← value_eq_ofDigits, ← value_replicate_append b (zeros ds) (ds.dropWhile (· = 0)),
      replicate_zeros_append]
  rw [numeral, hvalue, Nat.digits_ofDigits b hb _ hrest hhead, List.reverse_reverse,
    replicate_zeros_append]

theorem value_numeral (b z n : ℕ) : value b (numeral b z n) = n := by
  rw [numeral, value_replicate_append, value_eq_ofDigits, List.reverse_reverse,
    Nat.ofDigits_digits]

theorem zeros_numeral (b z n : ℕ) : zeros (numeral b z n) = z := by
  have hnone : (Nat.digits b n).reverse.takeWhile (· = 0) = [] := by
    cases hrev : (Nat.digits b n).reverse with
    | nil => rfl
    | cons d ds =>
      have hne : Nat.digits b n ≠ [] := by
        intro h
        simp [h] at hrev
      have hd : d ≠ 0 := by
        have hlast : (Nat.digits b n).getLast? = some d := by
          rw [← List.head?_reverse, hrev, List.head?_cons]
        rw [List.getLast?_eq_some_getLast hne] at hlast
        rw [← Option.some.inj hlast]
        exact Nat.getLast_digit_ne_zero b (Nat.digits_ne_nil_iff_ne_zero.1 hne)
      simp [hd]
  rw [zeros, numeral, List.takeWhile_append_of_pos (by simp), hnone]
  simp

theorem numeral_lt (hb : 1 < b) : ∀ d ∈ numeral b z n, d < b := by
  intro d hd
  rcases List.mem_append.1 hd with hzero | hdigit
  · rw [List.eq_of_mem_replicate hzero]
    omega
  · exact Nat.digits_lt_base hb (List.mem_reverse.1 hdigit)

end Pinch.Numeral
