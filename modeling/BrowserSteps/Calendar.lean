/-!
Points in time on the proleptic Gregorian calendar, without a time zone and to the
microsecond.
-/

namespace BrowserSteps

/-- Microseconds since the first instant of the year 1. -/
structure DateTime where
  micros : Int
  deriving DecidableEq, Repr, Inhabited

/-- A day of the calendar. -/
structure Date where
  year : Nat
  month : Nat
  day : Nat
  deriving DecidableEq, Repr, Inhabited

namespace Date

/-- Days from the first of March of the year 0, whose years end with the leap day, to the
first of January of the year 1. -/
private def marchOffset : Nat := 306

/-- The date a number of days after the first of January of the year 1. A cycle of 400
years has 146097 days; its years are counted from March. -/
def ofDays (days : Nat) : Date :=
  let shifted := days + marchOffset
  let cycle := shifted / 146097
  let ofCycle := shifted % 146097
  let yearOfCycle := (ofCycle - ofCycle / 1460 + ofCycle / 36524 - ofCycle / 146096) / 365
  let ofYear := ofCycle - (365 * yearOfCycle + yearOfCycle / 4 - yearOfCycle / 100)
  let fromMarch := (5 * ofYear + 2) / 153
  let month := if fromMarch < 10 then fromMarch + 3 else fromMarch - 9
  let year := yearOfCycle + cycle * 400
  ⟨if month ≤ 2 then year + 1 else year, month, ofYear - (153 * fromMarch + 2) / 5 + 1⟩

/-- Days since the first of January of the year 1. -/
def toDays (d : Date) : Nat :=
  let year := if d.month ≤ 2 then d.year - 1 else d.year
  let fromMarch := if d.month ≤ 2 then d.month + 9 else d.month - 3
  let yearOfCycle := year % 400
  let ofYear := (153 * fromMarch + 2) / 5 + d.day - 1
  year / 400 * 146097 + (yearOfCycle * 365 + yearOfCycle / 4 - yearOfCycle / 100 + ofYear) -
    marchOffset

def isLeap (year : Nat) : Bool := year % 4 = 0 && (year % 100 ≠ 0 || year % 400 = 0)

def monthDays (year month : Nat) : Nat :=
  if month = 2 then (if isLeap year then 29 else 28)
  else if month = 4 ∨ month = 6 ∨ month = 9 ∨ month = 11 then 30 else 31

/-- Whether the calendar, which ends with the year 9999, has such a day. -/
def isValid (d : Date) : Bool :=
  1 ≤ d.year && d.year ≤ 9999 && 1 ≤ d.month && d.month ≤ 12 && 1 ≤ d.day &&
    d.day ≤ monthDays d.year d.month

example : ofDays 0 = ⟨1, 1, 1⟩ := by decide +kernel
example : ofDays (toDays ⟨2024, 2, 29⟩) = ⟨2024, 2, 29⟩ := by decide +kernel

end Date

/-- A time of day. -/
structure TimeOfDay where
  hour : Nat
  minute : Nat
  second : Nat
  micro : Nat
  deriving DecidableEq, Repr, Inhabited

namespace DateTime

def microsPerDay : Int := 86400 * 1000000

def date (t : DateTime) : Date := .ofDays (t.micros.fdiv microsPerDay).toNat

def timeOfDay (t : DateTime) : TimeOfDay :=
  let rest := (t.micros.fmod microsPerDay).toNat
  let seconds := rest / 1000000
  ⟨seconds / 3600, seconds / 60 % 60, seconds % 60, rest % 1000000⟩

/-- The point in time of a date and a time of day. -/
def ofParts (d : Date) (t : TimeOfDay) : DateTime :=
  ⟨(d.toDays : Int) * microsPerDay +
    (((t.hour * 60 + t.minute) * 60 + t.second) * 1000000 + t.micro : Nat)⟩

/-- A later point in time, or with a negative number an earlier one. -/
def add (t : DateTime) (micros : Int) : DateTime := ⟨t.micros + micros⟩

/-- The microseconds from one point in time to another. -/
def since (t start : DateTime) : Int := t.micros - start.micros

/-- A number padded with zeros to a width. -/
def padded (width n : Nat) : String :=
  let digits := toString n
  String.ofList (List.replicate (width - digits.length) '0') ++ digits

/-- Hours, minutes and seconds with a separator between them. -/
def clockText (separator : String) (t : DateTime) : String :=
  let c := t.timeOfDay
  padded 2 c.hour ++ separator ++ padded 2 c.minute ++ separator ++ padded 2 c.second

/-- Year, month and day, the year with no more digits than it needs. -/
def dayText (t : DateTime) : String :=
  let d := t.date
  toString d.year ++ "-" ++ padded 2 d.month ++ "-" ++ padded 2 d.day

/-- The stamp of a log line. -/
def stamp (t : DateTime) : String := t.dayText ++ " " ++ t.clockText ":"

/-- The standard text with a separator between date and time. A fraction of six digits
follows unless it is zero. -/
def isoText (separator : String) (t : DateTime) : String :=
  let d := t.date
  let micro := t.timeOfDay.micro
  padded 4 d.year ++ "-" ++ padded 2 d.month ++ "-" ++ padded 2 d.day ++ separator ++
    t.clockText ":" ++ (if micro = 0 then "" else "." ++ padded 6 micro)

/-- The standard text. -/
def iso (t : DateTime) : String := t.isoText "T"

/-- Reads a run of exactly `width` ASCII digits. -/
private def digits? (width : Nat) (s : List Char) : Option (Nat × List Char) :=
  let head := s.take width
  if head.length = width && head.all Char.isDigit then
    some (head.foldl (fun n c => 10 * n + (c.toNat - '0'.toNat)) 0, s.drop width)
  else none

/-- Reads one given character. -/
private def expect? (c : Char) : List Char → Option (List Char)
  | d :: rest => if c = d then some rest else none
  | [] => none

/-- Reads the standard text of a date with an optional time of day. -/
def ofIso? (text : String) : Option DateTime := do
  let (year, s) ← digits? 4 text.toList
  let s ← expect? '-' s
  let (month, s) ← digits? 2 s
  let s ← expect? '-' s
  let (day, s) ← digits? 2 s
  let d : Date := ⟨year, month, day⟩
  if !d.isValid then none
  else if s.isEmpty then some (ofParts d ⟨0, 0, 0, 0⟩)
  else
    let (hour, s) ← digits? 2 (s.drop 1)
    let s ← expect? ':' s
    let (minute, s) ← digits? 2 s
    let (second, s) ← match s with
      | ':' :: rest => digits? 2 rest
      | _ => some (0, s)
    let micro := match s with
      | '.' :: rest => ((digits? 6 rest).map (·.1)).getD 0
      | _ => 0
    some (ofParts d ⟨hour, minute, second, micro⟩)

end DateTime

end BrowserSteps
