import Mathlib.Data.Nat.Basic
import Mathlib.Data.String.Basic
import Mathlib.Order.Monotone.Basic
import Pinch.IsoDate

/-! Timestamps of the years 0000 to 9999 sort as the instants they stand for: the
calendar is increasing, and every field has a fixed width. -/

namespace Pinch

section Calendar

/-- The year of a day within its era of 400 years, which begins in March. -/
def yearOfEra (doe : Nat) : Nat :=
  (doe - doe / 1460 + doe / 36524 - doe / 146096) / 365

def yearStart (y : Nat) : Nat :=
  365 * y + y / 4 - y / 100

theorem yearOfEra_monotone : Monotone yearOfEra := by
  refine monotone_nat_of_le_succ fun d => Nat.div_le_div_right ?_
  have hera : (if 146096 ∣ d + 1 then 1 else 0) ≤ if 36524 ∣ d + 1 then 1 else 0 := by
    split_ifs with hera hcentury
    · exact le_rfl
    · exact absurd (Nat.dvd_trans (by decide) hera) hcentury
    · exact Nat.zero_le _
    · exact le_rfl
  have hleap : (if 1460 ∣ d + 1 then 1 else 0) ≤ 1 := by
    split_ifs <;> decide
  have hle := Nat.div_le_self d 1460
  have hle' := Nat.div_le_div_left (a := d) (show 36524 ≤ 146096 by decide) (by decide)
  rw [Nat.succ_div, Nat.succ_div, Nat.succ_div]
  revert hera hleap
  generalize (if 146096 ∣ d + 1 then 1 else 0) = x
  generalize (if 36524 ∣ d + 1 then 1 else 0) = y
  generalize (if 1460 ∣ d + 1 then 1 else 0) = z
  generalize d / 1460 = u at hle ⊢
  generalize d / 36524 = v at hle' ⊢
  generalize d / 146096 = w at hle' ⊢
  omega

theorem yearOfEra_yearStart : ∀ y < 400, yearOfEra (yearStart y) = y ∧
    yearOfEra (yearStart (y + 1) - 1) = y := by
  decide +kernel

theorem yearOfEra_lt {d : Nat} (h : d < 146097) : yearOfEra d < 400 := by
  have hmono := yearOfEra_monotone (show d ≤ 146096 by omega)
  have hlast : yearOfEra 146096 = 399 := by decide
  omega

theorem yearStart_le {d : Nat} (h : d < 146097) : yearStart (yearOfEra d) ≤ d := by
  have hy := yearOfEra_lt h
  by_contra hlt
  cases hyd : yearOfEra d with
  | zero => simp [hyd, yearStart] at hlt
  | succ y =>
    rw [hyd] at hlt hy
    have hmono := yearOfEra_monotone (show d ≤ yearStart (y + 1) - 1 by omega)
    rw [hyd, (yearOfEra_yearStart y (by omega)).2] at hmono
    omega

theorem lt_yearStart {d : Nat} (h : d < 146097) : d < yearStart (yearOfEra d) + 366 := by
  have hy := yearOfEra_lt h
  by_contra hge
  rcases Nat.lt_or_ge (yearOfEra d + 1) 400 with hlt | h400
  · have hstart : yearStart (yearOfEra d + 1) ≤ yearStart (yearOfEra d) + 366 := by
      unfold yearStart
      omega
    have hmono := yearOfEra_monotone (hstart.trans (by omega : _ ≤ d))
    rw [(yearOfEra_yearStart _ hlt).1] at hmono
    omega
  · have h399 : yearOfEra d = 399 := by omega
    rw [h399] at hge
    exact hge (lt_of_lt_of_le h (by decide))

/-- The days of an era in the order of their year and their day in it. -/
theorem yearOfEra_order {d e : Nat} (h : d < e) (he : e < 146097) :
    yearOfEra d < yearOfEra e ∨ yearOfEra d = yearOfEra e ∧
      d - yearStart (yearOfEra d) < e - yearStart (yearOfEra e) := by
  rcases (yearOfEra_monotone h.le).lt_or_eq with hlt | heq
  · exact .inl hlt
  · have hd := yearStart_le (h.trans he)
    rw [heq] at hd ⊢
    exact .inr ⟨rfl, by omega⟩

theorem monthOfYear_order {d e : Nat} (h : d < e) :
    (5 * d + 2) / 153 < (5 * e + 2) / 153 ∨ (5 * d + 2) / 153 = (5 * e + 2) / 153 ∧
      d - (153 * ((5 * d + 2) / 153) + 2) / 5 < e - (153 * ((5 * e + 2) / 153) + 2) / 5 := by
  rcases (Nat.div_le_div_right (c := 153) (show 5 * d + 2 ≤ 5 * e + 2 by omega)).lt_or_eq
    with hlt | heq
  · exact .inl hlt
  · have hstart : (153 * ((5 * d + 2) / 153) + 2) / 5 ≤ d := by omega
    rw [← heq]
    exact .inr ⟨rfl, by omega⟩

theorem era_order {z z' : Int} (h : z < z') :
    z.fdiv 146097 < z'.fdiv 146097 ∨ z.fdiv 146097 = z'.fdiv 146097 ∧
      (z - z.fdiv 146097 * 146097).toNat < (z' - z'.fdiv 146097 * 146097).toNat := by
  simp only [Int.fdiv_eq_ediv_of_nonneg _ (show (0 : Int) ≤ 146097 by decide)]
  omega

theorem doe_lt (z : Int) : (z - z.fdiv 146097 * 146097).toNat < 146097 := by
  rw [Int.fdiv_eq_ediv_of_nonneg _ (by decide)]
  omega

/-- The civil date of a March-based year and a day in it. -/
def civilOfYearDay (year : Int) (doy : Nat) : Int × Nat × Nat :=
  let mp := (5 * doy + 2) / 153
  let month := if mp < 10 then mp + 3 else mp - 9
  (year + (if month ≤ 2 then 1 else 0), month, doy - (153 * mp + 2) / 5 + 1)

theorem civilFromDays_eq (days : Int) :
    let z := days + 719468
    let era := z.fdiv 146097
    let doe := (z - era * 146097).toNat
    civilFromDays days =
      civilOfYearDay (yearOfEra doe + era * 400) (doe - yearStart (yearOfEra doe)) := rfl

def DateLt (a b : Int × Nat × Nat) : Prop :=
  a.1 < b.1 ∨ a.1 = b.1 ∧ (a.2.1 < b.2.1 ∨ a.2.1 = b.2.1 ∧ a.2.2 < b.2.2)

theorem civilOfYearDay_order {c c' : Int} {d d' : Nat} (h : c < c' ∨ c = c' ∧ d < d')
    (hd : d < 366) (hd' : d' < 366) : DateLt (civilOfYearDay c d) (civilOfYearDay c' d') := by
  have hmp : (5 * d + 2) / 153 < 12 := by omega
  have hmp' : (5 * d' + 2) / 153 < 12 := by omega
  simp only [DateLt, civilOfYearDay]
  rcases h with hlt | ⟨rfl, hlt⟩
  · split_ifs <;> omega
  · rcases monthOfYear_order hlt with hm | ⟨hm, hday⟩
    · split_ifs <;> omega
    · rw [← hm] at hday ⊢
      exact .inr ⟨rfl, .inr ⟨rfl, by omega⟩⟩

theorem civilFromDays_order {days days' : Int} (h : days < days') :
    DateLt (civilFromDays days) (civilFromDays days') := by
  rw [civilFromDays_eq, civilFromDays_eq]
  have hd := doe_lt (days + 719468)
  have hd' := doe_lt (days' + 719468)
  refine civilOfYearDay_order ?_ ?_ ?_
  · have hy := yearOfEra_lt hd
    have hy' := yearOfEra_lt hd'
    rcases era_order (show days + 719468 < days' + 719468 by omega) with hera | ⟨hera, hdoe⟩
    · exact .inl (by omega)
    · rw [hera]
      rcases yearOfEra_order hdoe hd' with hyear | ⟨hyear, hday⟩
      · exact .inl (by rw [hera] at *; omega)
      · exact .inr ⟨by rw [hera] at *; omega, by rw [hera] at *; omega⟩
  · have := lt_yearStart hd
    omega
  · have := lt_yearStart hd'
    omega

end Calendar

section Text

theorem append_lt_append {α : Type*} [LT α] {a b : List α} (h : a < b) (hlen : a.length = b.length)
    (c d : List α) : a ++ c < b ++ d := by
  induction a generalizing b with
  | nil =>
    cases b with
    | nil => exact absurd h (List.not_lt_nil _)
    | cons y b => simp at hlen
  | cons x a ih =>
    cases b with
    | nil => simp at hlen
    | cons y b =>
      rw [List.cons_append, List.cons_append, List.cons_lt_cons_iff]
      rcases List.cons_lt_cons_iff.1 h with hxy | ⟨rfl, hab⟩
      · exact .inl hxy
      · exact .inr ⟨rfl, ih hab (by simpa using hlen)⟩

/-- The last `width` decimal digits. -/
def decimal : Nat → Nat → List Char
  | 0, _ => []
  | width + 1, n => decimal width (n / 10) ++ [(n % 10).digitChar]

theorem length_decimal (width n : Nat) : (decimal width n).length = width := by
  induction width generalizing n with
  | zero => rfl
  | succ width ih => simp [decimal, ih]

theorem digitChar_lt {m n : Nat} (h : m < n) (hn : n < 10) : m.digitChar < n.digitChar := by
  rw [Char.lt_def, UInt32.lt_iff_toNat_lt]
  have := Nat.toNat_digitChar_of_lt_ten hn
  have := Nat.toNat_digitChar_of_lt_ten (h.trans hn)
  simp only [Char.toNat] at *
  omega

theorem decimal_lt {width m n : Nat} (h : m < n) (hn : n < 10 ^ width) :
    decimal width m < decimal width n := by
  induction width generalizing m n with
  | zero => omega
  | succ width ih =>
    rcases Nat.lt_or_ge (m / 10) (n / 10) with hlt | hge
    · exact append_lt_append (ih hlt (by omega)) (by simp [length_decimal]) _ _
    · have heq : m / 10 = n / 10 := by omega
      rw [decimal, decimal, heq]
      refine List.append_left_lt ?_
      rw [List.cons_lt_cons_iff]
      exact .inl (digitChar_lt (by omega) (by omega))

theorem decimal_zero (width : Nat) : decimal width 0 = List.replicate width '0' := by
  induction width with
  | zero => rfl
  | succ width ih => simp [decimal, ih, List.replicate_succ']

theorem toList_padLeft {width n : Nat} (hw : 0 < width) (hn : n < 10 ^ width) :
    (padLeft width n).toList = decimal width n := by
  induction width generalizing n with
  | zero => omega
  | succ width ih =>
    rcases Nat.lt_or_ge n 10 with hlt | hge
    · have hdiv : n / 10 = 0 := by omega
      have hmod : n % 10 = n := by omega
      simp [padLeft, decimal, Nat.toDigits_of_lt_base hlt, hdiv, hmod, decimal_zero]
    · have hw : 0 < width := by
        by_contra hw
        obtain rfl : width = 0 := by omega
        omega
      rw [decimal, ← ih hw (by omega)]
      simp [padLeft, Nat.toDigits_of_base_le (by decide) hge]

/-- Numbers written one after another, each in its width and followed by a character. -/
def stamp : List (Nat × Char) → List Nat → List Char
  | (width, c) :: format, n :: ns => decimal width n ++ c :: stamp format ns
  | _, _ => []

theorem stamp_lt {format : List (Nat × Char)} {ms ns : List Nat} (h : ms < ns)
    (hlen : ms.length = ns.length) (hformat : List.Forall₂ (fun f n => n < 10 ^ f.1) format ns) :
    stamp format ms < stamp format ns := by
  induction hformat generalizing ms with
  | nil => exact absurd h (List.not_lt_nil _)
  | @cons f n format ns hn hrest ih =>
    cases ms with
    | nil => simp at hlen
    | cons m ms =>
      rcases List.cons_lt_cons_iff.1 h with hmn | ⟨rfl, hlt⟩
      · exact append_lt_append (decimal_lt hmn hn) (by simp [length_decimal]) _ _
      · refine List.append_left_lt (List.cons_lt_cons_iff.2 (.inr ⟨rfl, ?_⟩))
        exact ih hlt (by simpa using hlen)

end Text

section Timestamp

variable {ms ms' : Int}

def isoFormat : List (Nat × Char) :=
  [(4, '-'), (2, '-'), (2, 'T'), (2, ':'), (2, ':'), (2, '.'), (3, 'Z')]

def isoFields (ms : Int) : List Nat :=
  let date := civilFromDays (ms.fdiv 86400000)
  let t := (ms.fmod 86400000).toNat
  [date.1.toNat, date.2.1, date.2.2, t / 3600000, t / 60000 % 60, t / 1000 % 60, t % 1000]

/-- The instants whose timestamps have a year of four digits. -/
def FourDigitYear (ms : Int) : Prop :=
  0 ≤ (civilFromDays (ms.fdiv 86400000)).1 ∧ (civilFromDays (ms.fdiv 86400000)).1 ≤ 9999

instance (ms : Int) : Decidable (FourDigitYear ms) :=
  inferInstanceAs (Decidable (_ ∧ _))

theorem civilFromDays_bounds (days : Int) :
    (civilFromDays days).2.1 < 100 ∧ (civilFromDays days).2.2 < 100 := by
  have hd := doe_lt (days + 719468)
  have hday := lt_yearStart hd
  rw [civilFromDays_eq]
  simp only [civilOfYearDay]
  constructor
  · split_ifs <;> omega
  · omega

def yearOf (ms : Int) : Int :=
  (civilFromDays (ms.fdiv 86400000)).1

def dayFormat : List (Nat × Char) :=
  [(2, '-'), (2, 'T'), (2, ':'), (2, ':'), (2, '.'), (3, 'Z')]

/-- The fields of a timestamp after the year. -/
def dayFields (ms : Int) : List Nat :=
  (isoFields ms).tail

theorem dayFields_bounds (ms : Int) :
    List.Forall₂ (fun (f : Nat × Char) n => n < 10 ^ f.1) dayFormat (dayFields ms) := by
  obtain ⟨hm, hd⟩ := civilFromDays_bounds (ms.fdiv 86400000)
  have hday : (ms.fmod 86400000).toNat < 86400000 := by
    rw [Int.fmod_eq_emod_of_nonneg _ (by decide)]
    omega
  simp only [dayFormat, dayFields, isoFields, List.tail_cons, List.forall₂_cons]
  refine ⟨hm, hd, ?_, ?_, ?_, ?_, .nil⟩ <;> omega

/-- Instants in the order of their years, and within a year of the other fields. -/
theorem year_day_order (h : ms < ms') :
    yearOf ms < yearOf ms' ∨ yearOf ms = yearOf ms' ∧ dayFields ms < dayFields ms' := by
  have hdays : ms.fdiv 86400000 < ms'.fdiv 86400000 ∨ ms.fdiv 86400000 = ms'.fdiv 86400000 ∧
      (ms.fmod 86400000).toNat < (ms'.fmod 86400000).toNat := by
    simp only [Int.fdiv_eq_ediv_of_nonneg _ (show (0 : Int) ≤ 86400000 by decide),
      Int.fmod_eq_emod_of_nonneg _ (show (0 : Int) ≤ 86400000 by decide)]
    omega
  simp only [yearOf, dayFields, isoFields, List.tail_cons, List.cons_lt_cons_iff]
  rcases hdays with hlt | ⟨heq, hlt⟩
  · rcases civilFromDays_order hlt with hyear | ⟨hyear, hmonth | ⟨hmonth, hday⟩⟩
    · exact .inl hyear
    · exact .inr ⟨hyear, .inl hmonth⟩
    · exact .inr ⟨hyear, .inr ⟨hmonth, .inl hday⟩⟩
  · rw [heq]
    refine .inr ⟨rfl, .inr ⟨rfl, .inr ⟨rfl, ?_⟩⟩⟩
    omega

theorem isoFields_bounds (h : FourDigitYear ms) :
    List.Forall₂ (fun (f : Nat × Char) n => n < 10 ^ f.1) isoFormat (isoFields ms) := by
  have hyear : (yearOf ms).toNat < 10000 := by
    have hle : yearOf ms ≤ 9999 := h.2
    omega
  exact .cons hyear (dayFields_bounds ms)

theorem isoFields_lt (h : ms < ms') (hy : FourDigitYear ms) : isoFields ms < isoFields ms' := by
  have hnonneg : 0 ≤ yearOf ms := hy.1
  rcases year_day_order h with hyear | ⟨hyear, hday⟩
  · have hlt : (yearOf ms).toNat < (yearOf ms').toNat := by omega
    exact List.cons_lt_cons_iff.2 (.inl hlt)
  · exact List.cons_lt_cons_iff.2 (.inr ⟨congrArg Int.toNat hyear, hday⟩)

/-- The text of the year with its sign. -/
def yearText (y : Int) : List Char :=
  (formatYear y).toList

theorem toList_isoString_year (ms : Int) :
    (isoString ms).toList = yearText (yearOf ms) ++ '-' :: stamp dayFormat (dayFields ms) := by
  have hb := dayFields_bounds ms
  simp only [dayFormat, dayFields, isoFields, List.tail_cons, List.forall₂_cons] at hb
  obtain ⟨h2, h3, h4, h5, h6, h7, -⟩ := hb
  simp only [isoString, yearText, yearOf, dayFormat, dayFields, isoFields, List.tail_cons, stamp,
    String.toList_append, toList_padLeft (by decide) h2, toList_padLeft (by decide) h3,
    toList_padLeft (by decide) h4, toList_padLeft (by decide) h5, toList_padLeft (by decide) h6,
    toList_padLeft (by decide) h7]
  simp

theorem yearText_plain {y : Int} (h : 0 ≤ y) (h' : y ≤ 9999) :
    yearText y = decimal 4 y.toNat := by
  rw [yearText, formatYear, if_pos ⟨h, h'⟩, toList_padLeft (by decide) (by omega)]

theorem toList_isoString (h : FourDigitYear ms) :
    (isoString ms).toList = stamp isoFormat (isoFields ms) := by
  have hyear : yearText (yearOf ms) = decimal 4 (yearOf ms).toNat := yearText_plain h.1 h.2
  rw [toList_isoString_year, hyear]
  rfl

/-- Timestamps with a year of four digits sort as their instants. -/
theorem isoString_lt (h : ms < ms') (hy : FourDigitYear ms) (hy' : FourDigitYear ms') :
    isoString ms < isoString ms' := by
  rw [String.lt_iff_toList_lt, toList_isoString hy, toList_isoString hy']
  exact stamp_lt (isoFields_lt h hy) rfl (isoFields_bounds hy')

end Timestamp

end Pinch
