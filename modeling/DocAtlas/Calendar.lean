import DocAtlas.Text.Digit

/-!
# Dates and times

Days of the Gregorian calendar and points in time. A point in time may say how far its
clock is from universal time; two that do are the same if they are the same instant,
however they are written. A fault tells which part of a date or a time does not exist.
-/

namespace DocAtlas

open Text (natText intText)

structure Date where
  year : Nat
  month : Nat
  day : Nat
deriving DecidableEq, Repr

/-- A point in time; `zone` is its distance from universal time in minutes. -/
structure Moment where
  date : Date
  hour : Nat
  minute : Nat
  second : Nat
  microsecond : Nat
  zone : Option Int
deriving DecidableEq, Repr

namespace Calendar

def isLeap (year : Nat) : Bool := year % 4 == 0 && (year % 100 != 0 || year % 400 == 0)

def daysIn (year month : Nat) : Nat :=
  if month = 2 then if isLeap year then 29 else 28
  else if [4, 6, 9, 11].contains month then 30 else 31

def daysBefore (year month : Nat) : Nat :=
  (List.range (month - 1)).foldl (fun days earlier => days + daysIn year (earlier + 1)) 0

def minutesPerDay : Nat := 1440

def commaSeparated (parts : List Text) : Text := ", ".toList.intercalate parts

def distanceLiteral (minutes : Int) : Text :=
  let days := minutes.fdiv minutesPerDay
  let seconds := 60 * minutes.fmod minutesPerDay
  let parts : List Text :=
    (if days = 0 then [] else [Text.join ["days=", intText days]]) ++
      (if seconds = 0 then [] else [Text.join ["seconds=", intText seconds]])
  Text.join ["datetime.timedelta(", commaSeparated parts, ")"]

inductive Fault where
  | year
  | month
  | day
  | hour
  | minute
  | second
  | zone (minutes : Int)
deriving DecidableEq, Repr

def Fault.message : Fault → Text
  | .year => "year 0 is out of range"
  | .month => "month must be in 1..12"
  | .day => "day is out of range for month"
  | .hour => "hour must be in 0..23"
  | .minute => "minute must be in 0..59"
  | .second => "second must be in 0..59"
  | .zone minutes =>
    Text.join ["offset must be a timedelta strictly between -timedelta(hours=24) and ",
      "timedelta(hours=24), not ", distanceLiteral minutes, "."]

end Calendar

open Calendar (commaSeparated)

namespace Date

def number (date : Date) : Nat :=
  let years := date.year - 1
  years * 365 + years / 4 - years / 100 + years / 400 +
    Calendar.daysBefore date.year date.month + date.day

example : (Date.mk 2001 3 1).number = (Date.mk 2000 2 29).number + 366 := by decide

def check (date : Date) : Except Calendar.Fault Date :=
  if date.year = 0 then .error .year
  else if date.month = 0 ∨ 12 < date.month then .error .month
  else if date.day = 0 ∨ Calendar.daysIn date.year date.month < date.day then .error .day
  else .ok date

def parts (date : Date) : List Nat := [date.year, date.month, date.day]

def literal (date : Date) : Text :=
  Text.join ["datetime.date(", commaSeparated (date.parts.map natText), ")"]

end Date

namespace Moment

def clock (moment : Moment) : Int :=
  (((moment.date.number * 24 + moment.hour) * 60 + moment.minute) * 60 + moment.second) *
    1000000 + moment.microsecond

/-- Whether two points in time are one: both on clocks whose distance is known, or
neither. -/
def same (first second : Moment) : Bool :=
  match first.zone, second.zone with
  | none, none => first.clock == second.clock
  | some near, some far =>
    first.clock - near * 60000000 == second.clock - far * 60000000
  | _, _ => false

/-- The zone is looked at before the date, and the date before the time. -/
def check (moment : Moment) : Except Calendar.Fault Moment := do
  if let some minutes := moment.zone then
    if Calendar.minutesPerDay ≤ minutes.natAbs then throw (.zone minutes)
  let _ ← moment.date.check
  if 23 < moment.hour then throw .hour
  if 59 < moment.minute then throw .minute
  if 59 < moment.second then throw .second
  return moment

/-- Distances west are spelled as one day back and the rest of the day. -/
def zoneLiteral (minutes : Int) : Text :=
  if minutes = 0 then "datetime.timezone.utc"
  else Text.join ["datetime.timezone(", Calendar.distanceLiteral minutes, ")"]

def literal (moment : Moment) : Text :=
  let fine :=
    if moment.microsecond ≠ 0 then [moment.second, moment.microsecond]
    else if moment.second ≠ 0 then [moment.second]
    else []
  let parts := (moment.date.parts ++ [moment.hour, moment.minute] ++ fine).map natText
  let zone : List Text := match moment.zone with
    | none => []
    | some minutes => [Text.join ["tzinfo=", zoneLiteral minutes]]
  Text.join ["datetime.datetime(", commaSeparated (parts ++ zone), ")"]

end Moment

end DocAtlas
