import Markflow.Data.Value

/-!
# Dates and times

A date, a time of a day, or both together, as data formats write them.  Nothing here works with
them: they are kept as values of their kind.
-/

namespace Markflow.Moment

/-- Whether a year is a leap year. -/
def isLeap (year : Nat) : Bool :=
  (year % 4 == 0 && year % 100 != 0) || year % 400 == 0

/-- The number of days of a month. -/
def monthDays (year month : Nat) : Nat :=
  if month = 2 then if isLeap year then 29 else 28
  else if [4, 6, 9, 11].contains month then 30 else 31

/-- Whether there is such a day. -/
def isDay (year month day : Nat) : Bool :=
  1 ≤ year && 1 ≤ month && month ≤ 12 && 1 ≤ day && day ≤ monthDays year month

/-- Reads a number of so many digits. -/
def readDigits? : (count : Nat) → (value : Nat) → List Char → Option (Nat × List Char)
  | 0, value, text => some (value, text)
  | count + 1, value, c :: rest =>
    if c.isDigit then readDigits? count (value * 10 + (c.toNat - '0'.toNat)) rest else none
  | _ + 1, _, [] => none

/-- Passes a character that has to come next. -/
def pass? (expected : Char) : List Char → Option (List Char)
  | c :: rest => if c == expected then some rest else none
  | [] => none

/-- Passes a year, a month and a day and tells whether there is such a day. -/
def passDate? (text : List Char) : Option (Bool × List Char) := do
  let (year, rest) ← readDigits? 4 0 text
  let (month, rest) ← readDigits? 2 0 (← pass? '-' rest)
  let (day, rest) ← readDigits? 2 0 (← pass? '-' rest)
  return (isDay year month day, rest)

/-- Passes the fraction of a second, if there is one. -/
def passFraction (text : List Char) : List Char :=
  match text with
  | '.' :: c :: rest => if c.isDigit then rest.dropWhile Char.isDigit else text
  | _ => text

/-- Passes hours and minutes. -/
def passMinutes? (text : List Char) : Option (List Char) := do
  let (hour, rest) ← readDigits? 2 0 text
  let (minute, rest) ← readDigits? 2 0 (← pass? ':' rest)
  if hour < 24 && minute < 60 then return rest else none

/-- Passes a time of a day. -/
def passTime? (text : List Char) : Option (List Char) := do
  let rest ← passMinutes? text
  let (second, rest) ← readDigits? 2 0 (← pass? ':' rest)
  if second < 60 then return passFraction rest else none

/-- Passes the difference of a time from that of the prime meridian, if there is one. -/
def passZone (text : List Char) : List Char :=
  match text with
  | 'Z' :: rest => rest
  | 'z' :: rest => rest
  | '+' :: rest => (passMinutes? rest).getD text
  | '-' :: rest => (passMinutes? rest).getD text
  | _ => text

/-- Passes the time behind a date, if there is one. -/
def passClock? (text : List Char) : Option (List Char) :=
  match text with
  | c :: rest => if [' ', 'T', 't'].contains c then (passTime? rest).map passZone else none
  | [] => none

/-- A value of a kind, with its text: what comes before the rest. -/
def valueOf (kind : String) (text rest : List Char) : Value × List Char :=
  (.other kind (String.ofList (text.take (text.length - rest.length))), rest)

/-- Reads a date or a time.  A day that there is not makes the text malformed. -/
def read? (text : List Char) : Option (Value × List Char) :=
  match passDate? text with
  | some (false, _) => none
  | some (true, rest) => match passClock? rest with
    | some rest => some (valueOf "datetime" text rest)
    | none => some (valueOf "date" text rest)
  | none => (passTime? text).map (valueOf "time" text)

end Markflow.Moment
