import Mathlib.Data.Int.Basic

/-! `Date.prototype.toISOString` over a count of milliseconds since the epoch. -/

namespace Pinch

def maxTimeValue : Int := 8640000000000000

def padLeft (width n : Nat) : String :=
  let digits := Nat.toDigits 10 n
  String.ofList (List.replicate (width - digits.length) '0' ++ digits)

/-- Proleptic Gregorian year, month and day of a day number since the epoch. -/
def civilFromDays (days : Int) : Int × Nat × Nat :=
  let z := days + 719468
  let era := z.fdiv 146097
  let doe := (z - era * 146097).toNat
  let yoe := (doe - doe / 1460 + doe / 36524 - doe / 146096) / 365
  let doy := doe - (365 * yoe + yoe / 4 - yoe / 100)
  let mp := (5 * doy + 2) / 153
  let month := if mp < 10 then mp + 3 else mp - 9
  (yoe + era * 400 + (if month ≤ 2 then 1 else 0), month, doy - (153 * mp + 2) / 5 + 1)

def formatYear (y : Int) : String :=
  if 0 ≤ y ∧ y ≤ 9999 then padLeft 4 y.toNat
  else (if y < 0 then "-" else "+") ++ padLeft 6 y.natAbs

def isoString (ms : Int) : String :=
  let date := civilFromDays (ms.fdiv 86400000)
  let t := (ms.fmod 86400000).toNat
  formatYear date.1 ++ "-" ++ padLeft 2 date.2.1 ++ "-" ++ padLeft 2 date.2.2 ++ "T" ++
    padLeft 2 (t / 3600000) ++ ":" ++ padLeft 2 (t / 60000 % 60) ++ ":" ++
    padLeft 2 (t / 1000 % 60) ++ "." ++ padLeft 3 (t % 1000) ++ "Z"

/-- `new Date(ms).toISOString()`, a `RangeError` outside the valid time values. -/
def toISOString (ms : Int) : Option String :=
  if ms.natAbs ≤ maxTimeValue.natAbs then some (isoString ms) else none

example : toISOString 1700000000123 = some "2023-11-14T22:13:20.123Z" := by decide +kernel

example : toISOString (-62198755200000) = some "-000001-01-01T00:00:00.000Z" := by decide +kernel

end Pinch
