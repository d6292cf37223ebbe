import Mathlib.Tactic.IntervalCases
import Mathlib.Algebra.Order.Group.Int
import Mathlib.Algebra.Order.Ring.Int

/-! Instants as text. Time is counted in milliseconds from 1970 in the proleptic
Gregorian calendar; an instant within the range of a date is read back from the text
that shows it. -/
namespace Foundation.Calendar

structure Civil where
  year : Int
  month : Int
  day : Int

section Days

/-- The day the year begins with. -/
def dayFromYear (year : Int) : Int :=
  365 * (year - 1970) + (year - 1969) / 4 - (year - 1901) / 100 + (year - 1601) / 400

def Leap (year : Int) : Prop := year % 4 = 0 ∧ (year % 100 ≠ 0 ∨ year % 400 = 0)

instance (year : Int) : Decidable (Leap year) := inferInstanceAs (Decidable (_ ∧ _))

/-- The days before a month in a common year. -/
def daysBefore (month : Int) : Int :=
  if month = 1 then 0 else if month = 2 then 31 else if month = 3 then 59 else if month = 4 then 90
  else if month = 5 then 120 else if month = 6 then 151 else if month = 7 then 181
    else if month = 8 then 212
  else if month = 9 then 243 else if month = 10 then 273 else if month = 11 then 304 else 334

def toDays (date : Civil) : Int :=
  dayFromYear date.year + daysBefore date.month + (if 2 < date.month ∧ Leap date.year then 1
    else 0) + (date.day - 1)

/-- Years are counted from the first of March, so that the leap day ends them. -/
def ofDays (days : Int) : Civil :=
  let era := (days + 719468) / 146097
  let dayOfEra := (days + 719468) % 146097
  let century := min 3 (dayOfEra / 36524)
  let dayOfCentury := dayOfEra - 36524 * century
  let quad := dayOfCentury / 1461
  let dayOfQuad := dayOfCentury - 1461 * quad
  let year := min 3 (dayOfQuad / 365)
  let dayOfYear := dayOfQuad - 365 * year
  let month := (5 * dayOfYear + 2) / 153
  { year := 400 * era + 100 * century + 4 * quad + year + if month < 10 then 0 else 1
    month := if month < 10 then month + 3 else month - 9
    day := dayOfYear - (153 * month + 2) / 5 + 1 }

section March
variable (era : Int) {century quad year : Int} (centuries : 0 ≤ century ∧ century ≤ 3)
  (quads : 0 ≤ quad ∧ quad ≤ 24) (years : 0 ≤ year ∧ year ≤ 3)
include centuries quads years

/-- The first of March. -/
theorem march_first : dayFromYear (400 * era + 100 * century + 4 * quad + year) + 59 +
    (if Leap (400 * era + 100 * century + 4 * quad + year) then 1 else 0) =
      146097 * era + 36524 * century + 1461 * quad + 365 * year - 719468 := by
  generalize sum : 400 * era + 100 * century + 4 * quad + year = y
  by_cases leap : Leap y
  · rw [if_pos leap]
    unfold dayFromYear
    unfold Leap at leap
    omega
  · rw [if_neg leap]
    unfold dayFromYear
    unfold Leap at leap
    omega

/-- The first of January after it. -/
theorem january_first : dayFromYear (400 * era + 100 * century + 4 * quad + year + 1) =
    146097 * era + 36524 * century + 1461 * quad + 365 * year - 719162 := by
  unfold dayFromYear
  omega

theorem toDays_march {month dayOfYear : Int} (first : 0 ≤ month) (last : month ≤ 11) :
    toDays ⟨400 * era + 100 * century + 4 * quad + year + if month < 10 then 0 else 1,
        if month < 10 then month + 3 else month - 9, dayOfYear - (153 * month + 2) / 5 + 1⟩ =
      146097 * era + 36524 * century + 1461 * quad + 365 * year + dayOfYear - 719468 := by
  have march := march_first era centuries quads years
  have january := january_first era centuries quads years
  generalize 400 * era + 100 * century + 4 * quad + year = y at march january ⊢
  interval_cases month <;> simp [toDays, daysBefore] <;> omega

end March

theorem toDays_ofDays (days : Int) : toDays (ofDays days) = days := by
  unfold ofDays
  extract_lets era dayOfEra century dayOfCentury quad dayOfQuad year dayOfYear month
  have era_ : 0 ≤ dayOfEra ∧ dayOfEra < 146097 ∧ 146097 * era + dayOfEra = days + 719468 := by omega
  have centuries : 0 ≤ century ∧ century ≤ 3 ∧ 0 ≤ dayOfCentury ∧ dayOfCentury ≤ 36524 := by omega
  have quads : 0 ≤ quad ∧ quad ≤ 24 ∧ 0 ≤ dayOfQuad ∧ dayOfQuad ≤ 1460 := by omega
  have years : 0 ≤ year ∧ year ≤ 3 ∧ 0 ≤ dayOfYear ∧ dayOfYear ≤ 365 := by omega
  rw [toDays_march era ⟨centuries.1, centuries.2.1⟩ ⟨quads.1, quads.2.1⟩ ⟨years.1,
    years.2.1⟩ (by omega) (by omega)]
  omega

theorem ofDays_bounds (days : Int) :
    (1 ≤ (ofDays days).month ∧ (ofDays days).month ≤ 12) ∧
      (1 ≤ (ofDays days).day ∧ (ofDays days).day ≤ 31) ∧
      400 * ((days + 719468) / 146097) ≤ (ofDays days).year ∧
        (ofDays days).year ≤ 400 * ((days + 719468) / 146097) + 400 := by
  unfold ofDays
  extract_lets era dayOfEra century dayOfCentury quad dayOfQuad year dayOfYear month
  have centuries : 0 ≤ century ∧ century ≤ 3 ∧ 0 ≤ dayOfCentury ∧ dayOfCentury ≤ 36524 := by omega
  have quads : 0 ≤ quad ∧ quad ≤ 24 ∧ 0 ≤ dayOfQuad ∧ dayOfQuad ≤ 1460 := by omega
  have years : 0 ≤ year ∧ year ≤ 3 ∧ 0 ≤ dayOfYear ∧ dayOfYear ≤ 365 := by omega
  refine ⟨?_, ?_, ?_⟩
  · dsimp only
    split <;> omega
  · dsimp only
    omega
  · dsimp only
    split <;> omega

end Days

section Digits

/-- The last `width` decimal digits. -/
def digits : (width n : Nat) → List Char
  | 0, _ => []
  | width + 1, n => Char.ofNat ('0'.toNat + n / 10 ^ width % 10) :: digits width n

def digit? (char : Char) : Option Nat :=
  if char.isDigit then some (char.toNat - '0'.toNat) else none

/-- Reads a number of `width` digits. -/
def number : (width : Nat) → List Char → Option (Nat × List Char)
  | 0, text => some (0, text)
  | _ + 1, [] => none
  | width + 1, char :: text => do
    let first ← digit? char
    let (rest, text) ← number width text
    return (first * 10 ^ width + rest, text)

def expect (char : Char) : List Char → Option (List Char)
  | [] => none
  | first :: text => if first = char then some text else none

theorem digit_ofNat : ∀ n < 10, digit? (Char.ofNat ('0'.toNat + n)) = some n := by decide

theorem number_digits (width n : Nat) (text : List Char) :
    number width (digits width n ++ text) = some (n % 10 ^ width, text) := by
  induction width with
  | zero => simp [number, digits, Nat.mod_one]
  | succ width ih =>
    have first := digit_ofNat (n / 10 ^ width % 10) (Nat.mod_lt _ (by decide))
    simp only [digits, List.cons_append, number, first, ih, Option.bind_eq_bind,
      Option.bind_some, Option.pure_def]
    rw [Nat.mod_pow_succ, Nat.mul_comm, Nat.add_comm]

theorem number_fits (width n : Nat) (fits : n < 10 ^ width) (text : List Char) :
    number width (digits width n ++ text) = some (n, text) := by
  rw [number_digits, Nat.mod_eq_of_lt fits]

@[simp] theorem expect_self (char : Char) (text : List Char) :
    expect char (char :: text) = some text := if_pos rfl

end Digits

section Instants

/-- The milliseconds that a date can be away from 1970. -/
def range : Int := 8640000000000000

def yearText (year : Int) : List Char :=
  if 0 ≤ year ∧ year ≤ 9999 then digits 4 year.toNat
  else (if year < 0 then '-' else '+') :: digits 6 year.natAbs

/-- `Date.prototype.toISOString`, of a date within the range. -/
def toISOString (time : Int) : List Char :=
  let date := ofDays (time / 86400000)
  let clock := (time % 86400000).toNat
  yearText date.year ++ '-' ::
    (digits 2 date.month.toNat ++ '-' :: (digits 2 date.day.toNat ++ 'T' ::
    (digits 2 (clock / 3600000) ++ ':' ::
      (digits 2 (clock / 60000 % 60) ++ ':' :: (digits 2 (clock / 1000 % 60) ++ '.' ::
      (digits 3 (clock % 1000) ++ ['Z']))))))

def readYear : List Char → Option (Int × List Char)
  | [] => none
  | sign :: text =>
    if sign = '-' then (number 6 text).map fun (year, text) => (-year, text)
    else if sign = '+' then (number 6 text).map fun (year, text) => (year, text)
    else (number 4 (sign :: text)).map fun (year, text) => (year, text)

/-- The fields of a date and a time of day, as they stand in the text. -/
def readFields (text : List Char) : Option Int := do
  let (year, text) ← readYear text
  let (month, text) ← number 2 (← expect '-' text)
  let (day, text) ← number 2 (← expect '-' text)
  let (hour, text) ← number 2 (← expect 'T' text)
  let (minute, text) ← number 2 (← expect ':' text)
  let (second, text) ← number 2 (← expect ':' text)
  let (millisecond, _) ← number 3 (← expect '.' text)
  return toDays ⟨year, month, day⟩ * 86400000 +
    (hour * 3600000 + minute * 60000 + second * 1000 + millisecond : Nat)

/-- The instant that is shown so, if there is one. -/
def ofISOString (text : List Char) : Option Int :=
  (readFields text).filter fun time => -range ≤ time ∧ time ≤ range ∧ toISOString time = text

theorem digit_not_sign : ∀ n < 10, Char.ofNat ('0'.toNat + n) ≠ '-' ∧
    Char.ofNat ('0'.toNat + n) ≠ '+' := by decide

theorem readYear_yearText (year : Int) (low : -1000000 < year)
    (high : year < 1000000) (text : List Char) :
    readYear (yearText year ++ text) = some (year, text) := by
  unfold yearText
  by_cases plain : 0 ≤ year ∧ year ≤ 9999
  · rw [if_pos plain]
    have unsigned := digit_not_sign (year.toNat / 10 ^ 3 % 10) (Nat.mod_lt _ (by decide))
    have read := number_fits 4 year.toNat (by omega) text
    simp only [digits, List.cons_append] at read ⊢
    rw [readYear, if_neg unsigned.1, if_neg unsigned.2, read]
    simp only [Option.map_some, Option.some.injEq, Prod.mk.injEq, and_true]
    omega
  · rw [if_neg plain]
    have read := number_fits 6 year.natAbs (by omega) text
    by_cases past : year < 0
    · rw [if_pos past, List.cons_append, readYear, if_pos rfl, read]
      simp only [Option.map_some, Option.some.injEq, Prod.mk.injEq, and_true]
      omega
    · rw [if_neg past, List.cons_append, readYear, if_neg (by decide), if_pos rfl, read]
      simp only [Option.map_some, Option.some.injEq, Prod.mk.injEq, and_true]
      omega

theorem ofISOString_toISOString {time : Int} (low : -range ≤ time) (high : time ≤ range) :
    ofISOString (toISOString time) = some time := by
  have fields : readFields (toISOString time) = some time := by
    obtain ⟨⟨month, month'⟩, ⟨day, day'⟩, year, year'⟩ := ofDays_bounds (time / 86400000)
    have days := toDays_ofDays (time / 86400000)
    unfold range at low high
    unfold toISOString readFields
    generalize ofDays (time / 86400000) = date at *
    obtain ⟨y, m, d⟩ := date
    dsimp only at month month' day day' year year' ⊢
    generalize clock : (time % 86400000).toNat = c
    simp only [readYear_yearText y (by omega) (by omega), Option.bind_eq_bind, Option.bind_some,
      expect_self, number_fits 2 m.toNat (by omega), number_fits 2 d.toNat (by omega),
      number_fits 2 (c / 3600000) (by omega), number_fits 2 (c / 60000 % 60) (by omega),
      number_fits 2 (c / 1000 % 60) (by omega), number_fits 3 (c % 1000) (by omega)]
    simp only [Option.pure_def, Option.some.injEq]
    have here : toDays ⟨y, m.toNat, d.toNat⟩ = toDays ⟨y, m, d⟩ := by
      rw [Int.toNat_of_nonneg (by omega), Int.toNat_of_nonneg (by omega)]
    rw [here, days]
    omega
  simp [ofISOString, fields, low, high]

example : toISOString 1709210096789 = "2024-02-29T12:34:56.789Z".toList := by decide

end Instants
end Foundation.Calendar
