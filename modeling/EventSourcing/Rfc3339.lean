import EventSourcing.Event
import Mathlib.Data.Nat.Digits

/-
Module: EventSourcing.Rfc3339
Purpose: The timestamp text of the SQL store: `t.Format(time.RFC3339)` and
  `time.Parse(time.RFC3339, text)` of Go's `time` package, on UTC instants and the proleptic
  Gregorian calendar.  `Format` prints the year with `appendInt(b, year, 4)`, which writes a
  sign, or a fifth digit, outside the years 0000 to 9999; `Parse` reads the layout
  `2006-01-02T15:04:05Z07:00` element by element and fails on any text that does not match
  it.  An instant of a four-digit year reads back as its whole second; the text of any
  other instant does not parse.
Trusted boundary: Go's `time` package is not among the sources; this module models the two
  calls as the store makes them.  The messages of `*time.ParseError` are not modelled.
Main exports: formatRFC3339, parseRFC3339, wholeSecond, Rfc3339.FourDigitYear,
  Rfc3339.civil_spec, Rfc3339.fourDigitYear_iff, Rfc3339.parseChars_fields,
  parseRFC3339_formatRFC3339, parseRFC3339_formatRFC3339_wide, rfc3339_round_trip
-/

namespace EventSourcing

namespace Rfc3339

/-! ### The calendar -/

/-- Go's `isLeap`. -/
def isLeap (year : Int) : Bool :=
  year % 4 == 0 && (year % 100 != 0 || year % 400 == 0)

/-- Go's `daysIn(m, year)`: the days of month `month` (1 to 12) of `year`. -/
def daysIn (month : Nat) (year : Int) : Nat :=
  if month = 2 then if isLeap year then 29 else 28
  else if month = 4 ∨ month = 6 ∨ month = 9 ∨ month = 11 then 30
  else 31

/-- The days of `year`. -/
def daysInYear (year : Int) : Nat :=
  if isLeap year then 366 else 365

/-- The days from 1970-01-01 to the first of January of `year`: 365 a year and one a leap
year, the leap years being those divisible by 4 and not by 100 unless by 400. -/
def daysBeforeYear (year : Int) : Int :=
  365 * year + (year + 3) / 4 - (year + 99) / 100 + (year + 399) / 400 - 719528

/-- The days of the months of `year` before month `month`. -/
def daysBeforeMonth (year : Int) : Nat → Nat
  | 0 | 1 => 0
  | month + 2 => daysBeforeMonth year (month + 1) + daysIn (month + 1) year

/-- A year at or just before the one holding day `days` (counted from 1970-01-01): the
whole 400-year cycles of 146097 days, then at most 366 days a year. -/
def yearGuess (days : Int) : Int :=
  400 * ((days + 719528) / 146097) + (days + 719528) % 146097 / 366

/-- The year holding day `days`: the guess, or the year after it. -/
def yearOfDay (days : Int) : Int :=
  if days < daysBeforeYear (yearGuess days + 1) then yearGuess days else yearGuess days + 1

/-- The month holding the `day`-th day (from 0) of `year` and the day within it (from 0):
walk the months from `month`, at most `fuel` times. -/
def monthOfDay (year : Int) : Nat → Nat → Nat → Nat × Nat
  | 0, month, day => (month, day)
  | fuel + 1, month, day =>
    if day < daysIn month year then (month, day)
    else monthOfDay year fuel (month + 1) (day - daysIn month year)

/-- The date of day `days` (counted from 1970-01-01): the year, and the month and the day
of the month, both from 1. -/
def civil (days : Int) : Int × Nat × Nat :=
  let year := yearOfDay days
  let (month, day) := monthOfDay year 11 1 (days - daysBeforeYear year).toNat
  (year, month, day + 1)

/-- The year of a UTC instant. -/
def year (t : Time) : Int :=
  yearOfDay (t.sec / 86400)

/-- The instants whose year `Format` prints in four digits, 0000 to 9999. -/
def FourDigitYear (t : Time) : Prop :=
  0 ≤ year t ∧ year t < 10000

instance (t : Time) : Decidable (FourDigitYear t) :=
  inferInstanceAs (Decidable (_ ∧ _))

/-! ### Format -/

/-- Go's `appendInt(b, x, width)`: a `-` for a negative `x`, then the digits of `|x|`,
padded with zeros to `width`; a two- or four-digit field that fits is written digit by
digit. -/
def appendInt (x : Int) (width : Nat) : List Char :=
  let u := x.natAbs
  (if x < 0 then ['-'] else []) ++
    if width = 2 ∧ u < 100 then [Nat.digitChar (u / 10), Nat.digitChar (u % 10)]
    else if width = 4 ∧ u < 10000 then
      [Nat.digitChar (u / 1000), Nat.digitChar (u / 100 % 10), Nat.digitChar (u / 10 % 10),
        Nat.digitChar (u % 10)]
    else List.replicate (width - (Nat.toDigits 10 u).length) '0' ++ Nat.toDigits 10 u

/-- The characters `t.Format(time.RFC3339)` writes for a UTC instant: the layout
`2006-01-02T15:04:05Z07:00`, with no fraction of a second and the zone of UTC as `Z`. -/
def formatChars (t : Time) : List Char :=
  let (year, month, day) := civil (t.sec / 86400)
  let clock := (t.sec % 86400).toNat
  appendInt year 4 ++ '-' :: appendInt month 2 ++ '-' :: appendInt day 2 ++
    'T' :: appendInt (clock / 3600 : Nat) 2 ++ ':' :: appendInt (clock / 60 % 60 : Nat) 2 ++
    ':' :: appendInt (clock % 60 : Nat) 2 ++ ['Z']

/-! ### Parse -/

/-- The value of a decimal digit, `none` for any other character. -/
def digitValue : Char → Option (Fin 10)
  | '0' => some 0
  | '1' => some 1
  | '2' => some 2
  | '3' => some 3
  | '4' => some 4
  | '5' => some 5
  | '6' => some 6
  | '7' => some 7
  | '8' => some 8
  | '9' => some 9
  | _ => none

/-- Go's `getnum(s, fixed)`: one or two leading digits, two when `fixed`. -/
def getnum (fixed : Bool) : List Char → Option (Nat × List Char)
  | [] => none
  | c :: rest =>
    match digitValue c, rest with
    | none, _ => none
    | some d, c' :: rest' =>
      match digitValue c' with
      | some d' => some (10 * d.val + d'.val, rest')
      | none => if fixed then none else some (d.val, c' :: rest')
    | some d, [] => if fixed then none else some (d.val, [])

/-- `stdLongYear`: the first four characters, all digits. -/
def longYear : List Char → Option (Nat × List Char)
  | c₁ :: c₂ :: c₃ :: c₄ :: rest => do
    let d₁ ← digitValue c₁
    let d₂ ← digitValue c₂
    let d₃ ← digitValue c₃
    let d₄ ← digitValue c₄
    pure (1000 * d₁.val + 100 * d₂.val + 10 * d₃.val + d₄.val, rest)
  | _ => none

/-- Go's `skip(value, prefix)` for a one-character literal of the layout. -/
def skip (c : Char) : List Char → Option (List Char)
  | c' :: rest => if c' = c then some rest else none
  | [] => none

/-- The leading digits of a text, and the rest. -/
def spanDigits : List Char → List (Fin 10) × List Char
  | [] => ([], [])
  | c :: rest =>
    match digitValue c with
    | some d => ((d :: (spanDigits rest).1), (spanDigits rest).2)
    | none => ([], c :: rest)

/-- The number the decimal digits write. -/
def decimal (digits : List (Fin 10)) : Nat :=
  digits.foldl (fun n d => 10 * n + d.val) 0

theorem decimal_lt_aux :
    ∀ (digits : List (Fin 10)) (n : Nat),
      digits.foldl (fun n d => 10 * n + d.val) n < (n + 1) * 10 ^ digits.length
  | [], n => by simp
  | d :: digits, n => by
    have next := decimal_lt_aux digits (10 * n + d.val)
    rw [List.foldl_cons, List.length_cons, pow_succ]
    calc _ < (10 * n + d.val + 1) * 10 ^ digits.length := next
      _ ≤ (n + 1) * 10 * 10 ^ digits.length := Nat.mul_le_mul_right _ (by omega)
      _ = (n + 1) * (10 ^ digits.length * 10) := by rw [Nat.mul_assoc, Nat.mul_comm 10]

theorem decimal_lt (digits : List (Fin 10)) : decimal digits < 10 ^ digits.length := by
  simpa using decimal_lt_aux digits 0

theorem nanoseconds_lt (digits : List (Fin 10)) :
    decimal (digits.take 9) * 10 ^ (9 - (digits.take 9).length) < 1000000000 := by
  have short : (digits.take 9).length ≤ 9 := List.length_take_le _ _
  calc _ < 10 ^ (digits.take 9).length * 10 ^ (9 - (digits.take 9).length) :=
        Nat.mul_lt_mul_of_pos_right (decimal_lt _) (Nat.pos_pow_of_pos _ (by decide))
    _ = 1000000000 := by rw [← pow_add, Nat.add_sub_cancel' short]; rfl

/-- Go's `parseNanoseconds`: the first nine digits of a fraction count. -/
def nanoseconds (digits : List (Fin 10)) : Fin 1000000000 :=
  ⟨decimal (digits.take 9) * 10 ^ (9 - (digits.take 9).length), nanoseconds_lt digits⟩

/-- After the seconds `Parse` reads a fraction that the layout does not print: a comma or
a period followed by digits.  Without one the fraction is 0. -/
def fraction : List Char → Fin 1000000000 × List Char
  | sep :: c :: rest =>
    if (sep = ',' ∨ sep = '.') ∧ (digitValue c).isSome then
      (nanoseconds (spanDigits (c :: rest)).1, (spanDigits (c :: rest)).2)
    else (0, sep :: c :: rest)
  | value => (0, value)

/-- `stdISO8601ColonTZ`: `Z` for UTC, or a sign, two digits, a colon and two digits, read
as the offset in seconds east of UTC.  Offsets up to 24 hours and 60 minutes pass, as in
Go. -/
def zone : List Char → Option (Int × List Char)
  | 'Z' :: rest => some (0, rest)
  | sign :: h₁ :: h₂ :: colon :: m₁ :: m₂ :: rest => do
    guard (colon = ':')
    let (hr, _) ← getnum true [h₁, h₂]
    let (mm, _) ← getnum true [m₁, m₂]
    guard (hr ≤ 24 ∧ mm ≤ 60)
    if sign = '+' then pure ((hr * 60 + mm) * 60, rest)
    else if sign = '-' then pure (-((hr * 60 + mm) * 60), rest)
    else none
  | _ => none

/-- The date `YYYY-MM-DD` at the head of the text: year, month (range-checked) and day. -/
def date (value : List Char) : Option ((Nat × Nat × Nat) × List Char) := do
  let year ← longYear value
  let value ← skip '-' year.2
  let month ← getnum true value
  guard (1 ≤ month.1 ∧ month.1 ≤ 12)
  let value ← skip '-' month.2
  let day ← getnum true value
  pure ((year.1, month.1, day.1), day.2)

/-- The clock `T15:04:05` after the date: hour, minute and second, range-checked. -/
def clock (value : List Char) : Option ((Nat × Nat × Nat) × List Char) := do
  let value ← skip 'T' value
  let hour ← getnum false value
  guard (hour.1 < 24)
  let value ← skip ':' hour.2
  let minute ← getnum true value
  guard (minute.1 < 60)
  let value ← skip ':' minute.2
  let second ← getnum true value
  guard (second.1 < 60)
  pure ((hour.1, minute.1, second.1), second.2)

/-- `time.Parse(time.RFC3339, value)` on the characters of `value`: the date, the clock,
the fraction and the zone in turn, no text left over, and the day checked against its
month; the instant is the date and clock read in UTC, less the zone's offset. -/
def parseChars (value : List Char) : Option Time := do
  let ((year, month, day), value) ← date value
  let ((hour, minute, second), value) ← clock value
  let nsec := (fraction value).1
  let (offset, value) ← zone (fraction value).2
  guard (value = [])
  guard (1 ≤ day ∧ day ≤ daysIn month year)
  pure ⟨(daysBeforeYear year + daysBeforeMonth year month + (day - 1)) * 86400 +
    hour * 3600 + minute * 60 + second - offset, nsec, nsec.isLt⟩

/-! ### The calendar's laws -/

theorem daysBeforeYear_succ (year : Int) :
    daysBeforeYear (year + 1) = daysBeforeYear year + daysInYear year := by
  unfold daysBeforeYear daysInYear isLeap
  split <;> simp_all <;> omega

theorem daysBeforeYear_mono {year year' : Int} (le : year ≤ year') :
    daysBeforeYear year ≤ daysBeforeYear year' := by
  unfold daysBeforeYear
  omega

theorem daysBeforeYear_yearGuess_le (days : Int) : daysBeforeYear (yearGuess days) ≤ days := by
  unfold daysBeforeYear yearGuess
  omega

theorem lt_daysBeforeYear_yearGuess (days : Int) :
    days < daysBeforeYear (yearGuess days + 1 + 1) := by
  unfold daysBeforeYear yearGuess
  omega

/-- Day `days` falls in the year `yearOfDay` gives. -/
theorem yearOfDay_spec (days : Int) :
    daysBeforeYear (yearOfDay days) ≤ days ∧
      days < daysBeforeYear (yearOfDay days) + daysInYear (yearOfDay days) := by
  rw [← daysBeforeYear_succ]
  unfold yearOfDay
  split
  · exact ⟨daysBeforeYear_yearGuess_le days, ‹_›⟩
  · exact ⟨by omega, lt_daysBeforeYear_yearGuess days⟩

theorem daysBeforeMonth_succ (year : Int) {month : Nat} (positive : 1 ≤ month) :
    daysBeforeMonth year (month + 1) = daysBeforeMonth year month + daysIn month year := by
  obtain ⟨month, rfl⟩ := Nat.exists_eq_add_of_le' positive
  rfl

theorem daysBeforeMonth_thirteen (year : Int) : daysBeforeMonth year 13 = daysInYear year := by
  unfold daysInYear
  cases leap : isLeap year <;> simp [daysBeforeMonth, daysIn, leap]

/-- Walking the months from `month` to December finds the month holding the day. -/
theorem monthOfDay_spec (year : Int) :
    ∀ (fuel month day : Nat), 1 ≤ month → month + fuel = 12 →
      daysBeforeMonth year month + day < daysInYear year →
      1 ≤ (monthOfDay year fuel month day).1 ∧ (monthOfDay year fuel month day).1 ≤ 12 ∧
        (monthOfDay year fuel month day).2 < daysIn (monthOfDay year fuel month day).1 year ∧
        daysBeforeMonth year (monthOfDay year fuel month day).1 +
          (monthOfDay year fuel month day).2 = daysBeforeMonth year month + day
  | 0, month, day, low, twelve, within => by
    obtain rfl : month = 12 := twelve
    rw [← daysBeforeMonth_thirteen, daysBeforeMonth_succ _ low] at within
    exact ⟨low, le_rfl, Nat.lt_of_add_lt_add_left within, rfl⟩
  | fuel + 1, month, day, low, twelve, within => by
    unfold monthOfDay
    split
    · exact ⟨low, by omega, ‹_›, rfl⟩
    · have next := monthOfDay_spec year fuel (month + 1) (day - daysIn month year) (by omega)
        (by omega) (by rw [daysBeforeMonth_succ _ low]; omega)
      rw [daysBeforeMonth_succ _ low] at next
      exact ⟨next.1, next.2.1, next.2.2.1, by omega⟩

/-- **The calendar.**  The date of a day is a valid date, and counting the days up to it
gives the day back. -/
theorem civil_spec (days : Int) :
    1 ≤ (civil days).2.1 ∧ (civil days).2.1 ≤ 12 ∧ 1 ≤ (civil days).2.2 ∧
      (civil days).2.2 ≤ daysIn (civil days).2.1 (civil days).1 ∧
      daysBeforeYear (civil days).1 + daysBeforeMonth (civil days).1 (civil days).2.1 +
        ((civil days).2.2 - 1 : Nat) = days := by
  obtain ⟨first, within⟩ := yearOfDay_spec days
  have found := monthOfDay_spec (yearOfDay days) 11 1 (days - daysBeforeYear (yearOfDay days)).toNat
    le_rfl rfl (by simp only [daysBeforeMonth]; omega)
  rw [show daysBeforeMonth (yearOfDay days) 1 = 0 from rfl] at found
  simp only [civil]
  omega

/-- The years 0000 to 9999 run from `0000-01-01T00:00:00Z`, `-62167219200` seconds from the
epoch, up to `10000-01-01T00:00:00Z`, `253402300800` seconds from it. -/
theorem fourDigitYear_iff (t : Time) :
    FourDigitYear t ↔ -62167219200 ≤ t.sec ∧ t.sec < 253402300800 := by
  obtain ⟨first, within⟩ := yearOfDay_spec (t.sec / 86400)
  rw [← daysBeforeYear_succ] at within
  have zero : daysBeforeYear 0 = -719528 := rfl
  have tenThousand : daysBeforeYear 10000 = 2932897 := rfl
  unfold FourDigitYear year
  generalize yearOfDay (t.sec / 86400) = year at *
  constructor
  · rintro ⟨low, high⟩
    have := daysBeforeYear_mono low
    have := daysBeforeYear_mono (show year + 1 ≤ 10000 by omega)
    omega
  · rintro ⟨low, high⟩
    refine ⟨not_lt.mp fun negative => ?_, not_le.mp fun large => ?_⟩
    · have := daysBeforeYear_mono (show year + 1 ≤ 0 by omega)
      omega
    · have := daysBeforeYear_mono large
      omega

/-! ### Reading back what `Format` writes -/

theorem digitValue_digitChar {d : Nat} (digit : d < 10) :
    digitValue (Nat.digitChar d) = some ⟨d, digit⟩ := by
  interval_cases d <;> rfl

theorem appendInt_two {n : Nat} (fits : n < 100) :
    appendInt n 2 = [Nat.digitChar (n / 10), Nat.digitChar (n % 10)] := by
  simp [appendInt, fits]

theorem appendInt_four {n : Nat} (fits : n < 10000) :
    appendInt n 4 = [Nat.digitChar (n / 1000), Nat.digitChar (n / 100 % 10),
      Nat.digitChar (n / 10 % 10), Nat.digitChar (n % 10)] := by
  simp [appendInt, fits]

/-- `getnum` reads back a two-digit field. -/
theorem getnum_appendInt (fixed : Bool) {n : Nat} (fits : n < 100) (rest : List Char) :
    getnum fixed (appendInt n 2 ++ rest) = some (n, rest) := by
  rw [appendInt_two fits]
  simp only [List.cons_append, List.nil_append, getnum,
    digitValue_digitChar (show n / 10 < 10 by omega), digitValue_digitChar (Nat.mod_lt n (by decide))]
  congr
  omega

/-- `stdLongYear` reads back a four-digit year. -/
theorem longYear_appendInt {n : Nat} (fits : n < 10000) (rest : List Char) :
    longYear (appendInt n 4 ++ rest) = some (n, rest) := by
  rw [appendInt_four fits]
  simp only [List.cons_append, List.nil_append, longYear,
    digitValue_digitChar (show n / 1000 < 10 by omega),
    digitValue_digitChar (Nat.mod_lt (n / 100) (by decide)),
    digitValue_digitChar (Nat.mod_lt (n / 10) (by decide)),
    digitValue_digitChar (Nat.mod_lt n (by decide)), Option.pure_def, Option.bind_eq_bind,
    Option.some_bind]
  congr
  omega

theorem date_appendInt {year month day : Nat} (fits : year < 10000) (low : 1 ≤ month)
    (high : month ≤ 12) (short : day < 100) (rest : List Char) :
    date (appendInt year 4 ++ '-' :: (appendInt month 2 ++ '-' :: (appendInt day 2 ++ rest))) =
      some ((year, month, day), rest) := by
  simp [date, longYear_appendInt fits, skip, getnum_appendInt _ (show month < 100 by omega),
    getnum_appendInt _ short, low, high]

theorem clock_appendInt {hour minute second : Nat} (hours : hour < 24) (minutes : minute < 60)
    (seconds : second < 60) (rest : List Char) :
    clock ('T' :: (appendInt hour 2 ++ ':' :: (appendInt minute 2 ++ ':' :: (appendInt second 2 ++
      rest)))) = some ((hour, minute, second), rest) := by
  simp [clock, skip, getnum_appendInt _ (show hour < 100 by omega),
    getnum_appendInt _ (show minute < 100 by omega), getnum_appendInt _ (show second < 100 by omega),
    hours, minutes, seconds]

/-- `Parse` reads back the fields of a valid UTC date and clock printed in the layout. -/
theorem parseChars_fields {year month day hour minute second : Nat} (years : year < 10000)
    (low : 1 ≤ month) (high : month ≤ 12) (first : 1 ≤ day) (last : day ≤ daysIn month year)
    (hours : hour < 24) (minutes : minute < 60) (seconds : second < 60) :
    parseChars (appendInt year 4 ++ '-' :: (appendInt month 2 ++ '-' :: (appendInt day 2 ++
        'T' :: (appendInt hour 2 ++ ':' :: (appendInt minute 2 ++ ':' :: (appendInt second 2 ++
          ['Z'])))))) =
      some ⟨(daysBeforeYear year + daysBeforeMonth year month + ((day : Int) - 1)) * 86400 +
        hour * 3600 + minute * 60 + second - 0, 0, by decide⟩ := by
  have short : day < 100 := by
    unfold daysIn at last
    split_ifs at last <;> omega
  have noFraction : fraction ['Z'] = (0, ['Z']) := rfl
  simp only [parseChars, date_appendInt years low high short, clock_appendInt hours minutes seconds,
    noFraction, zone, guard, first, last, Option.pure_def, Option.bind_eq_bind, Option.some_bind,
    and_self, if_true]
  rfl


/-! ### Years `Format` prints in more than four digits -/

/-- A number of at least `10 ^ k` prints at least `k + 1` digits, given enough fuel. -/
theorem length_toDigitsCore :
    ∀ (fuel n k : Nat), 10 ^ k ≤ n → k < fuel → k + 1 ≤ (Nat.toDigitsCore 10 fuel n []).length
  | 0, _, _, _, spent => absurd spent (Nat.not_lt_zero _)
  | fuel + 1, n, k, large, enough => by
    simp only [Nat.toDigitsCore]
    split
    · cases k with
      | zero => simp
      | succ k =>
        have := Nat.one_le_pow k 10 (by decide)
        rw [pow_succ] at large
        omega
    · rw [Nat.toDigitsCore_lens_eq]
      cases k with
      | zero => omega
      | succ k =>
        rw [pow_succ] at large
        have next := length_toDigitsCore fuel (n / 10) k
          ((Nat.le_div_iff_mul_le (by decide)).mpr large) (by omega)
        omega

theorem five_le_length_toDigits {n : Nat} (large : 10000 ≤ n) :
    5 ≤ (Nat.toDigits 10 n).length :=
  length_toDigitsCore (n + 1) n 4 large (by omega)

/-- Every character `Nat.toDigits` prints is a digit. -/
theorem digitValue_toDigitsCore :
    ∀ (fuel n : Nat) (ds : List Char) (c : Char),
      c ∈ Nat.toDigitsCore 10 fuel n ds → c ∈ ds ∨ (digitValue c).isSome
  | 0, _, _, _, member => .inl member
  | fuel + 1, n, ds, c, member => by
    have digit : (digitValue (Nat.digitChar (n % 10))).isSome := by
      rw [digitValue_digitChar (Nat.mod_lt n (by decide))]
      rfl
    simp only [Nat.toDigitsCore] at member
    split at member
    · rcases List.mem_cons.mp member with rfl | old
      · exact .inr digit
      · exact .inl old
    · rcases digitValue_toDigitsCore fuel (n / 10) _ c member with new | old
      · rcases List.mem_cons.mp new with rfl | old
        · exact .inr digit
        · exact .inl old
      · exact .inr old

theorem longYear_cons_of_not_digit {c : Char} (notDigit : digitValue c = none)
    (rest : List Char) : longYear (c :: rest) = none := by
  match rest with
  | _ :: _ :: _ :: _ => simp [longYear, notDigit]
  | [] | [_] | [_, _] => rfl

/-- The date of a year outside 0000 to 9999, as `Format` prints it, does not parse: a
negative year starts with a sign, and a larger one puts a fifth digit where `Parse` wants
the `-` after the year. -/
theorem date_appendInt_wide {year : Int} (wide : ¬ (0 ≤ year ∧ year < 10000))
    (rest : List Char) : date (appendInt year 4 ++ rest) = none := by
  by_cases negative : year < 0
  · simp [appendInt, negative, date, longYear_cons_of_not_digit (show digitValue '-' = none from rfl)]
  have large : 10000 ≤ year.natAbs := by omega
  have printed : appendInt year 4 = Nat.toDigits 10 year.natAbs := by
    have long := five_le_length_toDigits large
    simp [appendInt, negative, show ¬ year.natAbs < 10000 by omega, show 4 - (Nat.toDigits 10 year.natAbs).length = 0 by omega]
  have digits : ∀ c ∈ Nat.toDigits 10 year.natAbs, (digitValue c).isSome := fun c member =>
    (digitValue_toDigitsCore _ _ [] c member).resolve_left (List.not_mem_nil c)
  obtain ⟨c₁, c₂, c₃, c₄, c₅, more, shape⟩ : ∃ c₁ c₂ c₃ c₄ c₅ more,
      Nat.toDigits 10 year.natAbs = c₁ :: c₂ :: c₃ :: c₄ :: c₅ :: more := by
    match Nat.toDigits 10 year.natAbs, five_le_length_toDigits large with
    | c₁ :: c₂ :: c₃ :: c₄ :: c₅ :: more, _ => exact ⟨c₁, c₂, c₃, c₄, c₅, more, rfl⟩
  rw [shape] at digits
  simp only [List.mem_cons, forall_eq_or_imp, Option.isSome_iff_exists] at digits
  obtain ⟨⟨d₁, h₁⟩, ⟨d₂, h₂⟩, ⟨d₃, h₃⟩, ⟨d₄, h₄⟩, ⟨d₅, h₅⟩, -⟩ := digits
  have notSign : c₅ ≠ '-' := by
    rintro rfl
    cases h₅
  simp [date, printed, shape, longYear, h₁, h₂, h₃, h₄, skip, notSign]

end Rfc3339

open Rfc3339

/-- `t.Format(time.RFC3339)` of a UTC instant. -/
def formatRFC3339 (t : Time) : String :=
  ⟨formatChars t⟩

/-- `time.Parse(time.RFC3339, value)`: the instant the text writes, or the parse error. -/
def parseRFC3339 (value : String) : Except Error Time :=
  match parseChars value.toList with
  | some t => .ok t
  | none => .error (.timeParse value)

/-- The instant `t` with its fraction of a second dropped. -/
def wholeSecond (t : Time) : Time :=
  ⟨t.sec, 0, by decide⟩


/-- **The timestamp round trip.**  The text `Format(time.RFC3339)` writes for an instant of
a four-digit year parses back as the instant's whole second. -/
theorem parseRFC3339_formatRFC3339 {t : Time} (fits : FourDigitYear t) :
    parseRFC3339 (formatRFC3339 t) = .ok (wholeSecond t) := by
  obtain ⟨low, high⟩ := fits
  change 0 ≤ (civil (t.sec / 86400)).1 at low
  change (civil (t.sec / 86400)).1 < 10000 at high
  obtain ⟨first, last, one, within, days⟩ := civil_spec (t.sec / 86400)
  have clock : (t.sec % 86400).toNat < 86400 := by omega
  simp only [parseRFC3339, formatRFC3339, String.toList, formatChars, List.append_assoc,
    List.cons_append]
  generalize civil (t.sec / 86400) = date at *
  obtain ⟨year, month, day⟩ := date
  dsimp only at first last one within days
  lift year to Nat using low
  rw [parseChars_fields (by omega) first last one within (by omega) (by omega) (by omega)]
  simp only [wholeSecond, Except.ok.injEq, Time.mk.injEq, and_true]
  omega

/-- Half a second past the epoch is printed without its fraction; `Parse` reads a fraction
and a zone offset when the text has them. -/
example : formatRFC3339 ⟨0, 500000000, by decide⟩ = "1970-01-01T00:00:00Z" ∧
    parseRFC3339 "1970-01-01T01:00:00.5+01:00" = .ok ⟨0, 500000000, by decide⟩ := by
  decide

/-- **Years past four digits.**  The text `Format(time.RFC3339)` writes for an instant
outside the years 0000 to 9999 does not parse. -/
theorem parseRFC3339_formatRFC3339_wide {t : Time} (wide : ¬ FourDigitYear t) :
    parseRFC3339 (formatRFC3339 t) = .error (.timeParse (formatRFC3339 t)) := by
  have printed : (civil (t.sec / 86400)).1 = year t := rfl
  simp only [parseRFC3339, formatRFC3339, String.toList, formatChars, parseChars, printed,
    List.append_assoc, List.cons_append, date_appendInt_wide wide, Option.bind_eq_bind,
    Option.none_bind]

/-- **The timestamp text's round trip.**  The text `Format(time.RFC3339)` writes for an
instant parses back as the instant's whole second exactly when the instant lies in the years
0000 to 9999, from `-62167219200` up to `253402300800` seconds from the epoch; the text of
any other instant is refused with a parse error on that text. -/
theorem rfc3339_round_trip (t : Time) :
    parseRFC3339 (formatRFC3339 t) =
      if -62167219200 ≤ t.sec ∧ t.sec < 253402300800 then .ok (wholeSecond t)
      else .error (.timeParse (formatRFC3339 t)) := by
  split_ifs with fits
  · exact parseRFC3339_formatRFC3339 ((fourDigitYear_iff t).mpr fits)
  · exact parseRFC3339_formatRFC3339_wide (mt (fourDigitYear_iff t).mp fits)

/-- The first instant of the year 10000 is printed with a fifth digit, which `Parse`
refuses. -/
example : formatRFC3339 ⟨253402300800, 0, by decide⟩ = "10000-01-01T00:00:00Z" ∧
    parseRFC3339 "10000-01-01T00:00:00Z" = .error (.timeParse "10000-01-01T00:00:00Z") := by
  decide

end EventSourcing
