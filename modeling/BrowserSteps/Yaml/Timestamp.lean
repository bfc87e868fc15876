import BrowserSteps.Calendar
import BrowserSteps.Yaml.Fault

/-!
Dates and points in time as YAML writes them. A point in time that names its distance from
universal time is brought there; the seventh digit of a fraction of a second rounds.
-/

namespace BrowserSteps.Yaml

/-- A time of day as it is written. -/
structure WrittenTime where
  hour : Nat
  minute : Nat
  second : Nat
  /-- The digits behind the point. -/
  fraction : List Nat := []
  /-- Hours and minutes ahead of universal time, or behind it. -/
  zone : Option (Bool × Nat × Nat) := none
  deriving DecidableEq, Repr

/-- A date, with or without a time of day, as it is written. -/
structure Timestamp where
  year : Nat
  month : Nat
  day : Nat
  time : Option WrittenTime := none
  deriving DecidableEq, Repr

namespace Timestamp

def digitValue (c : Char) : Nat := c.toNat - '0'.toNat

/-- Reads at least `least` and at most `most` digits. -/
def digits? (least most : Nat) (s : List Char) : Option (Nat × List Char) :=
  let run := (s.take most).takeWhile Char.isDigit
  if least ≤ run.length then
    some (run.foldl (fun n c => 10 * n + digitValue c) 0, s.drop run.length)
  else none

/-- Reads one given character. -/
def sign? (c : Char) : List Char → Option (List Char)
  | d :: rest => if c = d then some rest else none
  | [] => none

def isBlank (c : Char) : Bool := c = ' ' || c = '\t'

/-- Reads what parts the date from the time: a letter or blanks. -/
def parting? : List Char → Option (List Char)
  | c :: rest =>
    if c = 'T' || c = 't' then some rest
    else if isBlank c then some (rest.dropWhile isBlank)
    else none
  | [] => none

/-- Reads the zone at the end, after blanks if there are any. Without blanks and without a
zone the text may end. -/
def zone? (s : List Char) : Option (Option (Bool × Nat × Nat)) :=
  if s.isEmpty then some none
  else
    match s.dropWhile isBlank with
    | ['Z'] => some none
    | c :: rest =>
      if c = '+' || c = '-' then do
        let (hours, rest) ← digits? 1 2 rest
        if rest.isEmpty then return some (c = '-', hours, 0)
        else
          let (minutes, rest) ← digits? 2 2 (← sign? ':' rest)
          if rest.isEmpty then return some (c = '-', hours, minutes) else none
      else none
    | [] => none

def time? (s : List Char) : Option WrittenTime := do
  let (hour, s) ← digits? 1 2 s
  let (minute, s) ← digits? 2 2 (← sign? ':' s)
  let (second, s) ← digits? 2 2 (← sign? ':' s)
  let (fraction, s) := match s with
    | '.' :: rest =>
      let run := rest.takeWhile Char.isDigit
      (run.map digitValue, rest.drop run.length)
    | _ => ([], s)
  return { hour, minute, second, fraction, zone := ← zone? s }

/-- Reads a date of which month and day may have a single digit, and a time of day. -/
def ofText? (s : List Char) : Option Timestamp := do
  let (year, s) ← digits? 4 4 s
  let (month, s) ← digits? 1 2 (← sign? '-' s)
  let (day, s) ← digits? 1 2 (← sign? '-' s)
  if s.isEmpty then return { year, month, day }
  else return { year, month, day, time := some (← time? (← parting? s)) }

/-- Whether a plain scalar is a timestamp: one with a time, or a date without shortened
numbers. -/
def isPlain (s : List Char) : Bool :=
  match ofText? s with
  | some t => t.time.isSome || s.length = 10
  | none => false

/-- The fault of a day that the calendar does not have. -/
def checkDate (t : Timestamp) : Except DateFault Date :=
  let d : Date := ⟨t.year, t.month, t.day⟩
  if t.year = 0 then .error (.year t.year)
  else if t.month = 0 ∨ 12 < t.month then .error .month
  else if d.isValid then .ok d
  else .error .day

/-- The fault of a time that the clock does not show. -/
def checkTime (t : WrittenTime) : Except DateFault Unit :=
  if 23 < t.hour then .error .hour
  else if 59 < t.minute then .error .minute
  else if 59 < t.second then .error .second
  else .ok ()

/-- The fraction of a second in microseconds, rounded by the seventh digit. -/
def micros (t : WrittenTime) : Nat :=
  let six := ((t.fraction.take 6) ++ List.replicate (6 - t.fraction.length) 0).foldl
    (fun n d => 10 * n + d) 0
  if t.fraction[6]?.any (4 < ·) then six + 1 else six

/-- The distance from universal time in microseconds, and the second that a rounded
fraction carries. With a zone ahead of universal time the carry goes the wrong way. -/
def shift (t : WrittenTime) : Int :=
  let carry : Int := if micros t = 1000000 then 1 else 0
  match t.zone with
  | some (behind, hours, minutes) =>
    let ahead : Int := (hours * 60 + minutes : Nat) * 60 + carry
    (if behind then -ahead else ahead) * 1000000
  | none => -carry * 1000000

/-- The point in time, or nothing if the calendar does not reach it. -/
def inRange? (t : DateTime) : Option DateTime :=
  if 0 ≤ t.micros ∧ t.micros < 3652059 * DateTime.microsPerDay then some t else none

end Timestamp

end BrowserSteps.Yaml
