import Pinch.IsoOrder

/-! Timestamps of all years. A year outside 0000 to 9999 is written with a sign and six digits, so
the texts of the years after 9999 come first, then those of the years before 0000, the latest of
them first, and then the rest. -/

namespace Pinch

variable {ms ms' : Int}

/-- The time values that `toISOString` accepts. -/
def ValidTime (ms : Int) : Prop :=
  ms.natAbs ≤ maxTimeValue.natAbs

instance (ms : Int) : Decidable (ValidTime ms) :=
  inferInstanceAs (Decidable (_ ≤ _))

section Years

theorem civilFromDays_year_mono {days days' : Int} (h : days ≤ days') :
    (civilFromDays days).1 ≤ (civilFromDays days').1 := by
  rcases h.lt_or_eq with hlt | rfl
  · rcases civilFromDays_order hlt with hyear | ⟨hyear, -⟩
    · exact hyear.le
    · exact hyear.le
  · exact le_rfl

theorem yearOf_mono (h : ms ≤ ms') : yearOf ms ≤ yearOf ms' := by
  apply civilFromDays_year_mono
  simp only [Int.fdiv_eq_ediv_of_nonneg _ (show (0 : Int) ≤ 86400000 by decide)]
  omega

theorem yearOf_bounds (h : ValidTime ms) : -271821 ≤ yearOf ms ∧ yearOf ms ≤ 275760 := by
  have hmax : maxTimeValue.natAbs = 8640000000000000 := rfl
  unfold ValidTime at h
  have hlower : yearOf (-8640000000000000) = -271821 := by decide +kernel
  have hupper : yearOf 8640000000000000 = 275760 := by decide +kernel
  rw [← hlower, ← hupper]
  exact ⟨yearOf_mono (by omega), yearOf_mono (by omega)⟩

end Years

section Text

theorem yearText_after {y : Int} (h : 9999 < y) (h' : y ≤ 275760) :
    yearText y = '+' :: decimal 6 y.natAbs := by
  rw [yearText, formatYear, if_neg (by omega), if_neg (by omega), String.toList_append,
    toList_padLeft (by decide) (by omega)]
  rfl

theorem yearText_before {y : Int} (h : y < 0) (h' : -271821 ≤ y) :
    yearText y = '-' :: decimal 6 y.natAbs := by
  rw [yearText, formatYear, if_neg (by omega), if_pos h, String.toList_append,
    toList_padLeft (by decide) (by omega)]
  rfl

theorem sign_lt_decimal {sign : Char} (hsign : sign.toNat < 48) (n : Nat) (c d : List Char) :
    sign :: c < decimal 4 n ++ d := by
  have hdigit : sign < (n / 10 / 10 / 10 % 10).digitChar := by
    have hvalue := Nat.toNat_digitChar_of_lt_ten (show n / 10 / 10 / 10 % 10 < 10 by omega)
    rw [Char.lt_def, UInt32.lt_iff_toNat_lt]
    simp only [Char.toNat] at *
    omega
  simp only [decimal, List.nil_append, List.cons_append]
  exact List.cons_lt_cons_iff.2 (.inl hdigit)

/-- The order of the texts of years: those with a plus, those with a minus, whose digits count
backwards, and those without a sign. -/
def YearBefore (y y' : Int) : Prop :=
  9999 < y ∧ (y' ≤ 9999 ∨ y < y') ∨ y < 0 ∧ (y' < y ∨ 0 ≤ y' ∧ y' ≤ 9999) ∨
    0 ≤ y ∧ y < y' ∧ y' ≤ 9999

theorem yearBefore_total {y y' : Int} (h : y ≠ y') : YearBefore y y' ∨ YearBefore y' y := by
  unfold YearBefore
  omega

theorem yearText_lt {y y' : Int} (hy : -271821 ≤ y ∧ y ≤ 275760)
    (hy' : -271821 ≤ y' ∧ y' ≤ 275760) (h : YearBefore y y') (c d : List Char) :
    yearText y ++ c < yearText y' ++ d := by
  have hlength : ∀ width m n, (decimal width m).length = (decimal width n).length := by
    intro width m n
    rw [length_decimal, length_decimal]
  unfold YearBefore at h
  by_cases hafter : 9999 < y
  · rw [yearText_after hafter hy.2]
    by_cases hafter' : 9999 < y'
    · rw [yearText_after hafter' hy'.2, List.cons_append, List.cons_append]
      refine List.cons_lt_cons_iff.2 (.inr ⟨rfl, ?_⟩)
      exact append_lt_append (decimal_lt (by omega) (by omega)) (hlength _ _ _) _ _
    · by_cases hbefore' : y' < 0
      · rw [yearText_before hbefore' hy'.1, List.cons_append, List.cons_append]
        exact List.cons_lt_cons_iff.2 (.inl (by decide))
      · rw [yearText_plain (by omega) (by omega)]
        exact sign_lt_decimal (by decide) _ _ _
  · by_cases hbefore : y < 0
    · rw [yearText_before hbefore hy.1]
      by_cases hbefore' : y' < 0
      · rw [yearText_before hbefore' hy'.1, List.cons_append, List.cons_append]
        refine List.cons_lt_cons_iff.2 (.inr ⟨rfl, ?_⟩)
        exact append_lt_append (decimal_lt (by omega) (by omega)) (hlength _ _ _) _ _
      · rw [yearText_plain (by omega) (by omega)]
        exact sign_lt_decimal (by decide) _ _ _
    · rw [yearText_plain (by omega) (by omega), yearText_plain (by omega) (by omega)]
      exact append_lt_append (decimal_lt (by omega) (by omega)) (hlength _ _ _) _ _

end Text

section Order

/-- The order of the texts of two instants. -/
def TextBefore (ms ms' : Int) : Prop :=
  YearBefore (yearOf ms) (yearOf ms') ∨ yearOf ms = yearOf ms' ∧ ms < ms'

theorem TextBefore.lt (h : TextBefore ms ms') (hms : ValidTime ms) (hms' : ValidTime ms') :
    isoString ms < isoString ms' := by
  rw [String.lt_iff_toList_lt, toList_isoString_year, toList_isoString_year]
  rcases h with hyear | ⟨hyear, hlt⟩
  · exact yearText_lt (yearOf_bounds hms) (yearOf_bounds hms') hyear _ _
  · have hday : dayFields ms < dayFields ms' := by
      rcases year_day_order hlt with hother | ⟨-, hday⟩
      · omega
      · exact hday
    rw [hyear]
    refine List.append_left_lt (List.cons_lt_cons_iff.2 (.inr ⟨rfl, ?_⟩))
    exact stamp_lt hday rfl (dayFields_bounds ms')

theorem textBefore_total (h : ms ≠ ms') : TextBefore ms ms' ∨ TextBefore ms' ms := by
  by_cases hyear : yearOf ms = yearOf ms'
  · rcases lt_or_gt_of_ne h with hlt | hgt
    · exact .inl (.inr ⟨hyear, hlt⟩)
    · exact .inr (.inr ⟨hyear.symm, hgt⟩)
  · rcases yearBefore_total hyear with hbefore | hbefore
    · exact .inl (.inl hbefore)
    · exact .inr (.inl hbefore)

theorem isoString_lt_iff (hms : ValidTime ms) (hms' : ValidTime ms') :
    isoString ms < isoString ms' ↔ TextBefore ms ms' := by
  constructor
  · intro hlt
    have hne : ms ≠ ms' := by
      rintro rfl
      exact lt_irrefl _ hlt
    rcases textBefore_total hne with h | h
    · exact h
    · exact absurd (h.lt hms' hms) hlt.asymm
  · intro h
    exact h.lt hms hms'

/-- Both instants are after the year 9999 or none is, and they are not in two years before 0. -/
def TextsSort (ms ms' : Int) : Prop :=
  (9999 < yearOf ms ↔ 9999 < yearOf ms') ∧
    (yearOf ms < 0 → yearOf ms' < 0 → yearOf ms = yearOf ms')

/-- Exactly then the texts are in the order of the instants. -/
theorem isoString_sorts_iff (hms : ValidTime ms) (hms' : ValidTime ms') :
    (isoString ms < isoString ms' ↔ ms < ms') ↔ TextsSort ms ms' := by
  have hle : ms ≤ ms' → yearOf ms ≤ yearOf ms' := yearOf_mono
  have hge : ms' ≤ ms → yearOf ms' ≤ yearOf ms := yearOf_mono
  rw [isoString_lt_iff hms hms']
  unfold TextBefore YearBefore TextsSort
  omega

theorem FourDigitYear.textsSort (h : FourDigitYear ms) (h' : FourDigitYear ms') :
    TextsSort ms ms' := by
  have hyear : 0 ≤ yearOf ms ∧ yearOf ms ≤ 9999 := h
  have hyear' : 0 ≤ yearOf ms' ∧ yearOf ms' ≤ 9999 := h'
  unfold TextsSort
  omega

end Order

end Pinch
