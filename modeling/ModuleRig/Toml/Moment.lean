import ModuleRig.Text.Numeral

/-!
# Dates and times

A date, a time of day, or both, then perhaps with their distance from universal time. They are
checked and not kept.
-/

namespace ModuleRig.Toml.Moment

/-- A number of two digits within bounds. -/
def pair? (low high : Nat) (a b : Char) : Option Nat :=
  (Text.numeral? [a, b]).filter fun n => low ≤ n && n ≤ high

def isLeap (year : Nat) : Bool :=
  year % 4 == 0 && (year % 100 != 0 || year % 400 == 0)

def daysIn (year month : Nat) : Nat :=
  if month == 2 then if isLeap year then 29 else 28
  else if [4, 6, 9, 11].contains month then 30
  else 31

/-- A year of four digits, a month and a day that it has. -/
def isDate : List Char → Bool
  | [y1, y2, y3, y4, '-', m1, m2, '-', d1, d2] =>
    match Text.numeral? [y1, y2, y3, y4], pair? 1 12 m1 m2 with
    | some year, some month => (pair? 1 (daysIn year month) d1 d2).isSome
    | _, _ => false
  | _ => false

/-- Hours and minutes. -/
def isClock : List Char → Bool
  | [h1, h2, ':', m1, m2] => (pair? 0 23 h1 h2).isSome && (pair? 0 59 m1 m2).isSome
  | _ => false

/-- The fraction of a second behind a time, if there is one. -/
def isSecondFraction : List Char → Bool
  | [] => true
  | '.' :: digits => (Text.numeral? digits).isSome
  | _ => false

/-- A time of day. A minute may have one second more. -/
def isTime (cs : List Char) : Bool :=
  match cs.drop 5 with
  | ':' :: s1 :: s2 :: fraction =>
    isClock (cs.take 5) && (pair? 0 60 s1 s2).isSome && isSecondFraction fraction
  | _ => false

/-- A time of day with its distance from universal time. -/
def isZonedTime (cs : List Char) : Bool :=
  let clock := cs.takeWhile fun c => c.isDigit || c == ':' || c == '.'
  isTime clock &&
    match cs.drop clock.length with
    | ['Z'] | ['z'] => true
    | '+' :: distance | '-' :: distance => isClock distance
    | _ => false

/-- What may follow a date and a mark in between. -/
def isTimeOfDate (cs : List Char) : Bool :=
  isTime cs || isZonedTime cs

/-- The word is a date, a time or both. -/
def accepts (cs : List Char) : Bool :=
  isTime cs || isDate cs ||
    match cs.drop 10 with
    | 'T' :: time | 't' :: time => isDate (cs.take 10) && isTimeOfDate time
    | _ => false

end ModuleRig.Toml.Moment
