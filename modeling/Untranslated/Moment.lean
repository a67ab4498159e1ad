import Untranslated.Text.Basic

/-!
# Dates and moments

A date of the calendar, and a moment: a date with a time of day and, if it is known, the offset of
its time zone. Two moments with offsets are the same if they are the same instant, however they are
written.
-/

namespace Untranslated

/-- A calendar date. -/
structure Date where
  year : Nat
  month : Nat
  day : Nat
  deriving DecidableEq, Repr, Inhabited

/-- A date with a time of day, and the offset from universal time in minutes when one is given. -/
structure Moment where
  date : Date
  hour : Nat
  minute : Nat
  second : Nat
  microsecond : Nat
  offset : Option Int
  deriving DecidableEq, Repr, Inhabited

/-! ## Texts -/

/-- A number filled up with zeros on the left. -/
def padZero (width n : Nat) : Text :=
  let digits := Text.ofNat n
  List.replicate (width - digits.length) '0' ++ digits

/-- A date as year, month and day. -/
def Date.text (d : Date) : Text :=
  padZero 4 d.year ++ ['-'] ++ padZero 2 d.month ++ ['-'] ++ padZero 2 d.day

/-- A moment as date, time and offset. -/
def Moment.text (m : Moment) : Text :=
  m.date.text ++ [' '] ++ padZero 2 m.hour ++ [':'] ++ padZero 2 m.minute ++ [':'] ++
    padZero 2 m.second ++
    (if m.microsecond = 0 then [] else '.' :: padZero 6 m.microsecond) ++
    (match m.offset with
      | none => []
      | some o =>
        (if o < 0 then '-' else '+') :: padZero 2 (o.natAbs / 60) ++ [':'] ++
          padZero 2 (o.natAbs % 60))

/-- A duration in minutes as days and the seconds of a day; a part that is zero is left out. -/
def durationText (minutes : Int) : Text :=
  let days := minutes.fdiv 1440
  let seconds := minutes.fmod 1440 * 60
  let parts := (if days = 0 then [] else ["days=".toList ++ Text.ofInt days]) ++
    (if seconds = 0 then [] else ["seconds=".toList ++ Text.ofInt seconds])
  "datetime.timedelta(".toList ++ (if parts.isEmpty then ['0'] else Text.join [',', ' '] parts) ++
    [')']

/-- Numbers separated by commas. -/
def numberList (ns : List Nat) : Text := Text.join [',', ' '] (ns.map Text.ofNat)

/-- A date inside a list. -/
def Date.quotedText (d : Date) : Text :=
  "datetime.date(".toList ++ numberList [d.year, d.month, d.day] ++ [')']

/-- A moment inside a list. -/
def Moment.quotedText (m : Moment) : Text :=
  let time := [m.hour, m.minute] ++
    (if m.second = 0 ∧ m.microsecond = 0 then [] else [m.second]) ++
    (if m.microsecond = 0 then [] else [m.microsecond])
  let zone := match m.offset with
    | none => []
    | some o => ", tzinfo=datetime.timezone".toList ++
      (if o = 0 then ".utc".toList else ['('] ++ durationText o ++ [')'])
  "datetime.datetime(".toList ++ numberList ([m.date.year, m.date.month, m.date.day] ++ time) ++
    zone ++ [')']

/-! ## The calendar -/

/-- Why a date or moment does not exist. -/
inductive MomentError where
  | year (n : Nat)
  | month
  | day
  | hour
  | minute
  | second
  /-- The offset, in minutes, is a day or more. -/
  | offset (minutes : Int)
  deriving DecidableEq, Repr

/-- The wording for a date or moment that does not exist. -/
def MomentError.message : MomentError → Text
  | .year n => "year ".toList ++ Text.ofNat n ++ " is out of range".toList
  | .month => "month must be in 1..12".toList
  | .day => "day is out of range for month".toList
  | .hour => "hour must be in 0..23".toList
  | .minute => "minute must be in 0..59".toList
  | .second => "second must be in 0..59".toList
  | .offset minutes =>
    "offset must be a timedelta strictly between -timedelta(hours=24) and ".toList ++
      "timedelta(hours=24), not ".toList ++ durationText minutes ++ ['.']

/-- Whether a year has a leap day. -/
def isLeapYear (year : Nat) : Bool := year % 4 == 0 && (year % 100 != 0 || year % 400 == 0)

/-- How many days a month has. -/
def daysIn (year month : Nat) : Nat :=
  if month = 2 then (if isLeapYear year then 29 else 28)
  else if month ∈ [4, 6, 9, 11] then 30 else 31

/-- What is wrong about a date, if anything is. -/
def Date.error? (d : Date) : Option MomentError :=
  if d.year = 0 then some (.year d.year)
  else if d.month = 0 ∨ 12 < d.month then some .month
  else if d.day = 0 ∨ daysIn d.year d.month < d.day then some .day
  else none

/-- What is wrong about a moment, if anything is. The offset is looked at first. -/
def Moment.error? (m : Moment) : Option MomentError :=
  match m.offset.filter fun o => 1440 ≤ o.natAbs, m.date.error? with
  | some o, _ => some (.offset o)
  | none, some e => some e
  | none, none =>
    if 23 < m.hour then some .hour
    else if 59 < m.minute then some .minute
    else if 59 < m.second then some .second
    else none

/-- The number of days before a date, counted from the first day of year one. -/
def Date.daysBefore (d : Date) : Nat :=
  let y := d.year - 1
  let months := (List.range (d.month - 1)).map fun m => daysIn d.year (m + 1)
  y * 365 + y / 4 - y / 100 + y / 400 + months.foldl (· + ·) 0 + (d.day - 1)

/-- The microseconds from the first moment of year one to a moment, on its own clock. -/
def Moment.clock (m : Moment) : Int :=
  (((m.date.daysBefore * 24 + m.hour) * 60 + m.minute) * 60 + m.second) * 1000000 + m.microsecond

/-- Whether two moments are the same: the same instant if both have an offset, and the same time on
the clock if none has. -/
def Moment.same (a b : Moment) : Bool :=
  match a.offset, b.offset with
  | none, none => a.clock == b.clock
  | some o, some p => a.clock - o * 60000000 == b.clock - p * 60000000
  | _, _ => false

end Untranslated
