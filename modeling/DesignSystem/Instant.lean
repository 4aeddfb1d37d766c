import DesignSystem.Text.Blank
/-!
# Instants

An instant is a moment of the Gregorian calendar in universal time. Its text gives date and time
with a `T` between them and a `Z` at the end; the fraction of the second has three, six or nine
digits and is left out if it is zero.

Reading is more generous. Blanks may stand before every part, numbers may lack leading zeros, the
letters may be small, a fraction may have any number of digits, of which nine count, and the zone
may be an offset of hours and minutes. A date that the calendar does not have is refused.
-/

namespace DesignSystem

namespace Instant

/-- The number of nanoseconds in a second. -/
def nanosPerSecond : Nat :=
  1000000000

/-! ### The calendar -/

/-- Whether a year has a 29th of February. -/
def isLeap (year : Int) : Bool :=
  year % 4 == 0 && (year % 100 != 0 || year % 400 == 0)

/-- The number of days of a month. -/
def daysIn (year : Int) (month : Nat) : Nat :=
  if month = 2 then if isLeap year then 29 else 28
  else if month = 4 ∨ month = 6 ∨ month = 9 ∨ month = 11 then 30
  else 31

/-- The years that the calendar covers. -/
def InCalendar (year : Int) : Prop :=
  -262143 ≤ year ∧ year ≤ 262142

instance (year : Int) : Decidable (InCalendar year) :=
  inferInstanceAs (Decidable (_ ∧ _))

end Instant

/-- A day of the calendar. -/
structure Date where
  year : Int
  month : Nat
  day : Nat
  inCalendar : Instant.InCalendar year
  month_pos : 1 ≤ month
  month_le : month ≤ 12
  day_pos : 1 ≤ day
  day_le : day ≤ Instant.daysIn year month
  deriving DecidableEq

namespace Date

/-- The day of the given numbers, if there is one. -/
def of? (year : Int) (month day : Nat) : Option Date :=
  if h : Instant.InCalendar year ∧ 1 ≤ month ∧ month ≤ 12 ∧ 1 ≤ day ∧
      day ≤ Instant.daysIn year month then
    some ⟨year, month, day, h.1, h.2.1, h.2.2.1, h.2.2.2.1, h.2.2.2.2⟩
  else none

/-- The day after. -/
def next? (d : Date) : Option Date :=
  if d.day < Instant.daysIn d.year d.month then of? d.year d.month (d.day + 1)
  else if d.month < 12 then of? d.year (d.month + 1) 1
  else of? (d.year + 1) 1 1

/-- The day before. -/
def previous? (d : Date) : Option Date :=
  if 1 < d.day then of? d.year d.month (d.day - 1)
  else if 1 < d.month then of? d.year (d.month - 1) (Instant.daysIn d.year (d.month - 1))
  else of? (d.year - 1) 12 31

end Date

/-- A moment in universal time. A minute may have a leap second, its sixty-first. -/
structure Instant where
  date : Date
  hour : Nat
  minute : Nat
  second : Nat
  nano : Nat
  hour_lt : hour < 24
  minute_lt : minute < 60
  second_le : second ≤ 60
  nano_lt : nano < Instant.nanosPerSecond
  deriving DecidableEq

namespace Instant

/-- The instant of the given numbers, if there is one. -/
def of? (date : Date) (hour minute second nano : Nat) : Option Instant :=
  if h : hour < 24 ∧ minute < 60 ∧ second ≤ 60 ∧ nano < nanosPerSecond then
    some ⟨date, hour, minute, second, nano, h.1, h.2.1, h.2.2.1, h.2.2.2⟩
  else none

/-- The beginning of the year 1970. -/
def epoch : Instant :=
  ⟨⟨1970, 1, 1, by decide, by decide, by decide, by decide, by decide⟩, 0, 0, 0, 0,
    by decide, by decide, by decide, by decide⟩

instance : Inhabited Instant := ⟨epoch⟩

/-! ### Writing -/

/-- The last `width` decimal digits of a number. -/
def digits : Nat → Nat → List Char
  | 0, _ => []
  | width + 1, n => digits width (n / 10) ++ [Nat.digitChar (n % 10)]

/-- The text of a year, of four digits or more. Years before zero and after 9999 have a sign. -/
def writeYear (year : Int) : List Char :=
  if 0 ≤ year ∧ year ≤ 9999 then digits 4 year.toNat
  else
    let sign := if year < 0 then '-' else '+'
    sign :: (if year.natAbs < 10000 then digits 4 year.natAbs
      else if year.natAbs < 100000 then digits 5 year.natAbs
      else digits 6 year.natAbs)

/-- The text of a fraction of a second. -/
def writeFraction (nano : Nat) : List Char :=
  if nano = 0 then []
  else if nano % 1000000 = 0 then '.' :: digits 3 (nano / 1000000)
  else if nano % 1000 = 0 then '.' :: digits 6 (nano / 1000)
  else '.' :: digits 9 nano

/-- The text of an instant. -/
def writeChars (i : Instant) : List Char :=
  writeYear i.date.year ++ '-' :: (digits 2 i.date.month ++ '-' :: (digits 2 i.date.day ++
    'T' :: (digits 2 i.hour ++ ':' :: (digits 2 i.minute ++ ':' :: (digits 2 i.second ++
      (writeFraction i.nano ++ ['Z']))))))

/-- The text of an instant. -/
def write (i : Instant) : String :=
  String.ofList i.writeChars

/-! ### Reading -/

/-- The value of decimal digits. -/
def digitsValue (cs : List Char) : Nat :=
  cs.foldl (fun n c => 10 * n + (c.toNat - '0'.toNat)) 0

/-- The first digits of a text, no more than `limit` and at least one, and what follows them. -/
def takeDigits? (limit : Nat) (cs : List Char) : Option (List Char × List Char) :=
  match (cs.take limit).takeWhile Char.isDigit with
  | [] => none
  | ds => some (ds, cs.drop ds.length)

/-- A number of at most `limit` digits after blanks. -/
def number? (limit : Nat) (cs : List Char) : Option (Nat × List Char) :=
  (takeDigits? limit (Text.dropBlanks cs)).map fun (ds, rest) => (digitsValue ds, rest)

/-- The mark `c`, after blanks. -/
def mark? (c : Char) (cs : List Char) : Option (List Char) :=
  match Text.dropBlanks cs with
  | d :: rest => if d = c then some rest else none
  | [] => none

/-- A year after blanks. With a sign it may have any number of digits, without one four at most. -/
def year? (cs : List Char) : Option (Int × List Char) :=
  match Text.dropBlanks cs with
  | '-' :: rest =>
    (takeDigits? rest.length rest).map fun (ds, rest) => (-(digitsValue ds : Int), rest)
  | '+' :: rest =>
    (takeDigits? rest.length rest).map fun (ds, rest) => ((digitsValue ds : Int), rest)
  | rest => (takeDigits? 4 rest).map fun (ds, rest) => ((digitsValue ds : Int), rest)

/-- The fraction of a second in billionths, zero if there is none. -/
def fraction? (cs : List Char) : Option (Nat × List Char) :=
  match cs with
  | '.' :: rest => (takeDigits? 9 rest).map fun (ds, rest) =>
    (digitsValue ds * Nat.pow 10 (9 - ds.length), rest.dropWhile Char.isDigit)
  | _ => some (0, cs)

/-- The minutes by which an offset is ahead of universal time, from two digits of hours and two
digits of minutes. Between them colons and blanks are skipped. -/
def offset? (cs : List Char) : Option (Nat × List Char) :=
  match cs with
  | a :: b :: rest =>
    if a.isDigit ∧ b.isDigit then
      match rest.dropWhile fun c => c == ':' || Text.isBlank c with
      | c :: d :: rest =>
        if '0' ≤ c ∧ c ≤ '5' ∧ d.isDigit then
          let minutes := 60 * digitsValue [a, b] + digitsValue [c, d]
          if minutes < 1440 then some (minutes, rest) else none
        else none
      | _ => none
    else none
  | _ => none

/-- The zone: `Z`, `UTC` in any case, or an offset with its sign. -/
def zone? (cs : List Char) : Option (Int × List Char) :=
  match cs with
  | '+' :: rest => (offset? rest).map fun (m, rest) => ((m : Int), rest)
  | '-' :: rest | '−' :: rest => (offset? rest).map fun (m, rest) => (-(m : Int), rest)
  | c :: rest =>
    if c = 'Z' ∨ c = 'z' then some (0, rest)
    else if (cs.take 3).map Char.toUpper = ['U', 'T', 'C'] then some (0, cs.drop 3)
    else none
  | [] => none

/-- The instant at a local date and time whose zone is `offset` minutes ahead. -/
def ofLocal? (date : Date) (hour minute second nano : Nat) (offset : Int) : Option Instant :=
  let total := 60 * hour + minute - offset
  let date? := if total < 0 then date.previous? else if 1440 ≤ total then date.next? else some date
  let clock := (total % 1440).toNat
  date?.bind fun date => of? date (clock / 60) (clock % 60) second nano

/-- The instant that a text denotes. -/
def readChars (cs : List Char) : Option Instant := do
  let (year, cs) ← year? cs
  let (month, cs) ← number? 2 (← mark? '-' cs)
  let (day, cs) ← number? 2 (← mark? '-' cs)
  let cs ← match cs with
    | c :: rest => if c = 'T' ∨ c = 't' ∨ c = ' ' then some rest else none
    | [] => none
  let (hour, cs) ← number? 2 cs
  let (minute, cs) ← number? 2 (← mark? ':' cs)
  let (second, cs) ← number? 2 (← mark? ':' cs)
  let (nano, cs) ← fraction? cs
  let (offset, cs) ← zone? (Text.dropBlanks cs)
  guard ((Text.dropBlanks cs).isEmpty ∧ hour < 24 ∧ minute < 60)
  let date ← Date.of? year month day
  ofLocal? date hour minute second nano offset

/-- The instant that a text denotes. -/
def read (s : String) : Option Instant :=
  readChars s.toList

end Instant

end DesignSystem
