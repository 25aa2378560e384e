import CSharpGen.Toml.Number

/-!
# Dates and times

The form of a date, of a time of day, and of both with a T or a space between them. Only a date with
a time may have an offset from universal time. Each step drops what it recognises and gives the
characters that are left.
-/

namespace CSharpGen.Toml.Moment

/-- The number that two digits stand for, and what follows them. -/
def twoDigits? : List Char → Option (Nat × List Char)
  | tens :: ones :: rest => do return (10 * (← digit? 10 tens) + (← digit? 10 ones), rest)
  | _ => none

/-- What follows a mark, which has to be there. -/
def after? (mark : Char) : List Char → Option (List Char)
  | c :: rest => if c = mark then some rest else none
  | [] => none

/-- Every fourth year is leap, but of the full centuries only every fourth. -/
def isLeap (year : Nat) : Bool := year % 4 == 0 && (year % 100 != 0 || year % 400 == 0)

def daysOfMonth (year : Nat) : (month : Nat) → Nat
  | 2 => if isLeap year then 29 else 28
  | 4 | 6 | 9 | 11 => 30
  | _ => 31

/-- What follows a year of four digits, a month and a day that are in the calendar. -/
def afterDate? (cs : List Char) : Option (List Char) := do
  let (century, rest) ← twoDigits? cs
  let (yearOfCentury, rest) ← twoDigits? rest
  let (month, rest) ← twoDigits? (← after? '-' rest)
  let (day, rest) ← twoDigits? (← after? '-' rest)
  if month == 0 || 12 < month || day == 0
    || daysOfMonth (100 * century + yearOfCentury) month < day then none
  else some rest

/-- What follows hours and minutes. -/
def afterMinutes? (cs : List Char) : Option (List Char) := do
  let (hours, rest) ← twoDigits? cs
  let (minutes, rest) ← twoDigits? (← after? ':' rest)
  if 23 < hours || 59 < minutes then none else some rest

/-- What follows a fraction of a second, which may be left out. -/
def afterFraction? : List Char → Option (List Char)
  | '.' :: rest => if rest.head?.any Char.isDigit then some (rest.dropWhile Char.isDigit) else none
  | cs => some cs

/-- What follows a time of day. The seconds may be left out, and sixty is a leap second. -/
def afterTime? (cs : List Char) : Option (List Char) := do
  match ← afterMinutes? cs with
  | ':' :: rest =>
    let (seconds, rest) ← twoDigits? rest
    if 60 < seconds then none else afterFraction? rest
  | rest => some rest

/-- Whether the characters are an offset from universal time, or nothing. -/
def isOffset : List Char → Bool
  | [] | ['Z'] | ['z'] => true
  | c :: rest => (c == '+' || c == '-') && afterMinutes? rest == some []

end CSharpGen.Toml.Moment

namespace CSharpGen.Toml

/-- Whether the characters are a date, a time, or both. -/
def isMoment (cs : List Char) : Bool :=
  match Moment.afterDate? cs with
  | none => Moment.afterTime? cs == some []
  | some [] => true
  | some (c :: rest) =>
    (c == 'T' || c == 't' || c == ' ') && (Moment.afterTime? rest).any Moment.isOffset

end CSharpGen.Toml
