import SortView.Lib.Calendar

/-!
# The ISO spelling of an instant

`YYYY-MM-DDTHH:MM:SSZ` for the whole second of an instant, and the reading of
`YYYY-MM-DDTHH:MM:SS[.ffffff](Z|+hh:mm)`.
-/

namespace Calendar

open PyText

/-- The microseconds of the years 1 to 9999. -/
def maxMicroseconds : Nat := maxDays * 86400 * 1000000

/-- An instant: microseconds of UTC from the start of the year 1, before the year 10000. -/
structure Instant where
  microseconds : Nat
  inRange : microseconds < maxMicroseconds
  deriving DecidableEq

/-- The start of the second of an instant. -/
def Instant.wholeSecond (instant : Instant) : Instant where
  microseconds := instant.microseconds / 1000000 * 1000000
  inRange := Nat.lt_of_le_of_lt (Nat.div_mul_le_self ..) instant.inRange

/-! ### Numbers of a fixed width -/

def padded (width value : Nat) : Text := (decimal value).leftpad width '0'

/-- Exactly `width` digits, read as a number, and what follows them. -/
def number (width : Nat) (text : Text) : Option (Nat × Text) :=
  if (text.take width).length = width ∧ (text.take width).all Char.isDigit then
    some (Nat.ofDigitChars 10 (text.take width) 0, text.drop width)
  else none

/-- What follows the character `c`. -/
def literal (c : Char) : Text → Option Text
  | [] => none
  | first :: rest => if first = c then some rest else none

theorem literal_cons (c : Char) (rest : Text) : literal c (c :: rest) = some rest := if_pos rfl

theorem number_padded {width value : Nat} (hwidth : 0 < width) (hvalue : value < 10 ^ width) (rest : Text) :
    number width (padded width value ++ rest) = some (value, rest) := by
  have hlength : (padded width value).length = width := by
    rw [padded, List.length_leftpad, Nat.max_eq_left]
    exact (Nat.length_toDigits_le_iff (by decide) hwidth).2 hvalue
  have htake : (padded width value ++ rest).take width = padded width value :=
    List.take_left' hlength
  have hdrop : (padded width value ++ rest).drop width = rest :=
    List.drop_left' hlength
  have hdigits : (padded width value).all Char.isDigit = true := by
    rw [List.all_eq_true]
    intro c hc
    rcases List.mem_append.1 hc with hzero | hdigit
    · rw [List.eq_of_mem_replicate hzero]
      rfl
    · exact isDigit_of_mem_decimal hdigit
  have hnumber : Nat.ofDigitChars 10 (padded width value) 0 = value := by
    rw [padded, List.leftpad, Nat.ofDigitChars_append, Nat.ofDigitChars_replicate_zero, Nat.mul_zero, decimal,
      Nat.ofDigitChars_ten_toDigits]
  rw [number, htake, hdrop, if_pos ⟨hlength, hdigits⟩, hnumber]

/-! ### Writing -/

def Date.written (date : Date) : Text :=
  padded 4 date.year ++ ('-' :: (padded 2 date.month ++ ('-' :: padded 2 date.day)))

/-- The seconds of a day as `HH:MM:SS`. -/
def clockWritten (clock : Nat) : Text :=
  padded 2 (clock / 3600) ++ (':' :: (padded 2 (clock / 60 % 60) ++ (':' :: padded 2 (clock % 60))))

/-- `format_time`. -/
def formatTime (instant : Instant) : Text :=
  let seconds := instant.microseconds / 1000000
  (dateOf (seconds / 86400)).written ++ ('T' :: (clockWritten (seconds % 86400) ++ ['Z']))

/-! ### Reading -/

/-- An optional fraction of a second, in microseconds. -/
def fraction : Text → Option (Nat × Text)
  | '.' :: rest =>
      let digits := rest.takeWhile Char.isDigit
      if 1 ≤ digits.length ∧ digits.length ≤ 6 then
        some (Nat.ofDigitChars 10 digits 0 * 10 ^ (6 - digits.length), rest.drop digits.length)
      else none
  | text => some (0, text)

/-- The offset from UTC in minutes: `Z` or `+hh:mm`, less than a day. -/
def zoneOffset (text : Text) : Option Int :=
  if text = ['Z'] then some 0
  else do
    let (positive, rest) ← match text with
      | '+' :: rest => some (true, rest)
      | '-' :: rest => some (false, rest)
      | _ => none
    let (hours, rest) ← number 2 rest
    let rest ← literal ':' rest
    let (minutes, rest) ← number 2 rest
    if rest = [] ∧ hours * 60 + minutes < 1440 then
      some (if positive then (hours * 60 + minutes : Int) else -(hours * 60 + minutes : Int))
    else none

/-- The instant of a local reading, if it is between the years 1 and 9999. -/
def atOffset (localMicroseconds : Nat) (offsetMinutes : Int) : Option Instant :=
  let utc := (localMicroseconds : Int) - offsetMinutes * 60000000
  if h : utc.toNat < maxMicroseconds ∧ 0 ≤ utc then some ⟨utc.toNat, h.1⟩ else none

/-- `YYYY-MM-DD`, a day of the calendar, and what follows. -/
def readDate (text : Text) : Option (Date × Text) := do
  let (year, text) ← number 4 text
  let text ← literal '-' text
  let (month, text) ← number 2 text
  let text ← literal '-' text
  let (day, text) ← number 2 text
  if Date.Valid ⟨year, month, day⟩ then some (⟨year, month, day⟩, text) else none

/-- `HH:MM:SS`, the seconds of a day, and what follows. -/
def readClock (text : Text) : Option (Nat × Text) := do
  let (hour, text) ← number 2 text
  let text ← literal ':' text
  let (minute, text) ← number 2 text
  let text ← literal ':' text
  let (second, text) ← number 2 text
  if hour < 24 ∧ minute < 60 ∧ second < 60 then some (hour * 3600 + minute * 60 + second, text) else none

/-- The instant a text with an offset means. -/
def parseInstant (text : Text) : Option Instant := do
  let (date, text) ← readDate text
  let text ← literal 'T' text
  let (clock, text) ← readClock text
  let (microsecond, text) ← fraction text
  let offset ← zoneOffset text
  atOffset ((date.number * 86400 + clock) * 1000000 + microsecond) offset

theorem readDate_written {date : Date} (hvalid : date.Valid) (rest : Text) :
    readDate (date.written ++ rest) = some (date, rest) := by
  obtain ⟨-, hyear, -, hmonth, -, hday⟩ := id hvalid
  have hlengths : ∀ leap, ∀ month < 12, (monthLengths leap).getD month 0 ≤ 31 := by decide
  have hlength := hlengths (isLeap date.year) (date.month - 1) (by omega)
  rw [Date.written, List.append_assoc, List.cons_append, List.append_assoc, List.cons_append, readDate,
    number_padded (by decide) (by omega)]
  simp only [Option.bind_eq_bind, Option.bind_some, literal_cons]
  rw [number_padded (by decide) (by omega)]
  simp only [Option.bind_some, literal_cons]
  rw [number_padded (by decide) (by omega)]
  exact if_pos hvalid

theorem readClock_written {clock : Nat} (hclock : clock < 86400) (rest : Text) :
    readClock (clockWritten clock ++ rest) = some (clock, rest) := by
  have hhour : clock / 3600 = clock / 60 / 60 := (Nat.div_div_eq_div_mul clock 60 60).symm
  have hbounds : clock / 3600 < 24 ∧ clock / 60 % 60 < 60 ∧ clock % 60 < 60 := by omega
  have htotal : clock / 3600 * 3600 + clock / 60 % 60 * 60 + clock % 60 = clock := by omega
  rw [clockWritten, List.append_assoc, List.cons_append, List.append_assoc, List.cons_append, readClock,
    number_padded (by decide) (by omega)]
  simp only [Option.bind_eq_bind, Option.bind_some, literal_cons]
  rw [number_padded (by decide) (by omega)]
  simp only [Option.bind_some, literal_cons]
  rw [number_padded (by decide) (by omega)]
  show (if _ then some (_, rest) else none) = _
  rw [if_pos hbounds, htotal]

theorem fraction_utc : fraction ['Z'] = some (0, ['Z']) := rfl

theorem zoneOffset_utc : zoneOffset ['Z'] = some 0 := if_pos rfl

theorem day_lt {microseconds days : Nat} (h : microseconds < days * 86400 * 1000000) : microseconds / 1000000 / 86400 < days := by
  omega

theorem atOffset_zero (instant : Instant) : atOffset instant.microseconds 0 = some instant := by
  have hutc : (instant.microseconds : Int) - 0 * 60000000 = instant.microseconds := by omega
  rw [atOffset]
  simp only [hutc, Int.toNat_natCast]
  rw [dif_pos ⟨instant.inRange, Int.natCast_nonneg _⟩]

/-- A written instant is read as the start of its second. -/
theorem parseInstant_formatTime (instant : Instant) : parseInstant (formatTime instant) = some instant.wholeSecond := by
  have hday := day_lt instant.inRange
  have hlocal : ((dateOf (instant.microseconds / 1000000 / 86400)).number * 86400 + instant.microseconds / 1000000 % 86400)
      * 1000000 + 0 = instant.wholeSecond.microseconds := by
    rw [number_dateOf, Nat.div_add_mod', Nat.add_zero]
    rfl
  rw [parseInstant, formatTime, readDate_written (valid_dateOf hday)]
  simp only [Option.bind_eq_bind, Option.bind_some, literal_cons]
  rw [readClock_written (Nat.mod_lt _ (by decide)), Option.bind_some, fraction_utc, Option.bind_some, zoneOffset_utc,
    Option.bind_some, hlocal]
  exact atOffset_zero instant.wholeSecond

/-- Two instants with one spelling are in one second. -/
theorem wholeSecond_eq_of_formatTime_eq {left right : Instant} (h : formatTime left = formatTime right) :
    left.wholeSecond = right.wholeSecond := by
  have hleft := parseInstant_formatTime left
  rw [h, parseInstant_formatTime] at hleft
  exact (Option.some.inj hleft).symm

/-! ### With microseconds -/

/-- The microseconds of a second as `isoformat` writes them: six digits, or nothing for a whole second. -/
def fractionWritten (microsecond : Nat) : Text := if microsecond = 0 then [] else '.' :: padded 6 microsecond

/-- `astimezone(UTC).isoformat()`. -/
def isoText (instant : Instant) : Text :=
  let seconds := instant.microseconds / 1000000
  (dateOf (seconds / 86400)).written ++ ('T' :: (clockWritten (seconds % 86400)
    ++ (fractionWritten (instant.microseconds % 1000000) ++ "+00:00".toList)))

theorem length_padded {width value : Nat} (hwidth : 0 < width) (hvalue : value < 10 ^ width) :
    (padded width value).length = width := by
  rw [padded, List.length_leftpad, Nat.max_eq_left]
  exact (Nat.length_toDigits_le_iff (by decide) hwidth).2 hvalue

theorem isDigit_of_mem_padded {width value : Nat} {c : Char} (hc : c ∈ padded width value) : c.isDigit = true := by
  rcases List.mem_append.1 hc with hzero | hdigit
  · rw [List.eq_of_mem_replicate hzero]
    rfl
  · exact isDigit_of_mem_decimal hdigit

theorem ofDigitChars_padded (width value : Nat) : Nat.ofDigitChars 10 (padded width value) 0 = value := by
  rw [padded, List.leftpad, Nat.ofDigitChars_append, Nat.ofDigitChars_replicate_zero, Nat.mul_zero, decimal,
    Nat.ofDigitChars_ten_toDigits]

theorem fraction_written {microsecond : Nat} (h : microsecond < 1000000) :
    fraction (fractionWritten microsecond ++ "+00:00".toList) = some (microsecond, "+00:00".toList) := by
  rw [fractionWritten]
  split
  · next hzero =>
    rw [hzero]
    rfl
  · next hzero =>
    have hlength : (padded 6 microsecond).length = 6 := length_padded (by decide) h
    have hdigits : (padded 6 microsecond ++ "+00:00".toList).takeWhile Char.isDigit = padded 6 microsecond := by
      rw [List.takeWhile_append_of_pos fun c hc => isDigit_of_mem_padded hc]
      exact List.append_nil _
    show (if _ then some (_, _) else none) = _
    simp only [List.append_eq, hdigits, hlength]
    rw [if_pos (by decide), ofDigitChars_padded, Nat.sub_self, Nat.pow_zero, Nat.mul_one, List.drop_left' hlength]

theorem zoneOffset_isoText : zoneOffset "+00:00".toList = some 0 := by decide

/-- An instant is read back from its ISO text, microseconds included. -/
theorem parseInstant_isoText (instant : Instant) : parseInstant (isoText instant) = some instant := by
  have hday := day_lt instant.inRange
  have hlocal : ((dateOf (instant.microseconds / 1000000 / 86400)).number * 86400 + instant.microseconds / 1000000 % 86400)
      * 1000000 + instant.microseconds % 1000000 = instant.microseconds := by
    rw [number_dateOf]
    omega
  rw [parseInstant, isoText, readDate_written (valid_dateOf hday)]
  simp only [Option.bind_eq_bind, Option.bind_some, literal_cons]
  rw [readClock_written (Nat.mod_lt _ (by decide)), Option.bind_some, fraction_written (Nat.mod_lt _ (by decide)),
    Option.bind_some, zoneOffset_isoText, Option.bind_some, hlocal]
  exact atOffset_zero instant

end Calendar
