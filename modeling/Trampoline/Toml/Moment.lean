import Trampoline.Text.Digits
import Trampoline.Toml.Basic

/-!
# Dates and times

Dates, times of the day and both together, which are brought into canonical form.

Main definitions:

- `moment?`: a date or a time that a document writes as a word.
- `quotedMoment?`: one that it writes as a quoted text.
-/

namespace Trampoline.Toml

open Text

/-- What the readers of parts of a date or a time give: the canonical text of the part
and what follows it. -/
abbrev Part :=
  Option (List Char × List Char)

/-- Two digits for a number between two bounds. -/
def pair? (low high : Nat) (cs : List Char) : Part :=
  match cs with
  | a :: b :: rest =>
    if a.isDigit && b.isDigit && low ≤ natOfDigits [a, b] && natOfDigits [a, b] ≤ high then
      some ([a, b], rest)
    else none
  | _ => none

/-- The number of days of a month. -/
def daysIn (year month : Nat) : Nat :=
  if month = 2 then
    if (year % 4 = 0 ∧ year % 100 ≠ 0) ∨ year % 400 = 0 then 29 else 28
  else if month = 4 ∨ month = 6 ∨ month = 9 ∨ month = 11 then 30
  else 31

/-- A date. -/
def date? (cs : List Char) : Part :=
  match cs with
  | a :: b :: c :: d :: '-' :: rest =>
    if [a, b, c, d].all Char.isDigit then do
      let (month, rest) ← pair? 1 12 rest
      match rest with
      | '-' :: rest =>
        let (day, rest) ← pair? 1 (daysIn (natOfDigits [a, b, c, d]) (natOfDigits month)) rest
        some (a :: b :: c :: d :: '-' :: month ++ '-' :: day, rest)
      | _ => none
    else none
  | _ => none

/-- A fraction of a second.  Nine places count, and zeros at the end do not. -/
def secondFraction? (cs : List Char) : Part :=
  match cs with
  | '.' :: cs =>
    let (digits, rest) := spanDigits cs
    if digits.isEmpty then none
    else
      let kept := ((digits.take 9).reverse.dropWhile (· = '0')).reverse
      some (if kept.isEmpty then [] else '.' :: kept, rest)
  | _ => some ([], cs)

/-- A time of the day in an hour up to the last one.  A minute may have a second too
many. -/
def time? (lastHour : Nat) (cs : List Char) : Part := do
  let (hour, rest) ← pair? 0 lastHour cs
  match rest with
  | ':' :: rest =>
    let (minute, rest) ← pair? 0 59 rest
    match rest with
    | ':' :: rest =>
      let (second, rest) ← pair? 0 60 rest
      let (fraction, rest) ← secondFraction? rest
      some (hour ++ ':' :: minute ++ ':' :: second ++ fraction, rest)
    | _ => none
  | _ => none

/-- Two digits for a number below a hundred. -/
def twoDigits (n : Nat) : List Char :=
  if n < 10 then '0' :: digitsOf n else digitsOf n

/-- The canonical text of a distance from universal time in minutes.  No distance is
never negative. -/
def distance (sign : Char) (minutes : Nat) : List Char :=
  (if minutes = 0 then '+' else sign) ::
    twoDigits (minutes / 60) ++ ':' :: twoDigits (minutes % 60)

/-- The hours and the minutes of a distance from universal time, each up to a last one,
and no more minutes in all than a day has. -/
def distance? (lastHour lastMinute : Nat) (sign : Char) (cs : List Char) : Part := do
  let (hour, rest) ← pair? 0 lastHour cs
  match rest with
  | ':' :: rest =>
    let (minute, rest) ← pair? 0 lastMinute rest
    let minutes := natOfDigits hour * 60 + natOfDigits minute
    if minutes ≤ 24 * 60 then some (distance sign minutes, rest) else none
  | _ => none

/-- A distance from universal time, or nothing. -/
def offset? (lastHour lastMinute : Nat) (cs : List Char) : Part :=
  match cs with
  | 'Z' :: rest | 'z' :: rest => some (['Z'], rest)
  | '+' :: rest => distance? lastHour lastMinute '+' rest
  | '-' :: rest => distance? lastHour lastMinute '-' rest
  | _ => some ([], cs)

/-- What stands in front of a time behind a date. -/
def isSeparator (c : Char) : Bool :=
  c = 'T' || c = 't' || c = ' '

/-- The canonical text of a date, a time or both, as a document writes it. -/
def moment? (cs : List Char) : Option (List Char) :=
  match date? cs with
  | some (date, []) => some date
  | some (date, separator :: rest) =>
    if isSeparator separator then do
      let (time, rest) ← time? 23 rest
      match ← offset? 23 59 rest with
      | (offset, []) => some (date ++ 'T' :: time ++ offset)
      | _ => none
    else none
  | none =>
    match time? 23 cs with
    | some (time, []) => some time
    | _ => none

/-- The canonical text of a date, a time or both that is given as a quoted text.  Here a
day may end with the hour 24, and a distance may have any number of minutes. -/
def quotedMoment? (cs : List Char) : Option (List Char) :=
  match date? cs with
  | some (date, []) => some date
  | some (date, separator :: rest) =>
    if isSeparator separator then do
      let (time, rest) ← time? 24 rest
      match ← offset? 99 99 rest with
      | (offset, []) => some (date ++ 'T' :: time ++ offset)
      | _ => none
    else none
  | none =>
    match time? 24 cs with
    | some (time, []) => some time
    | _ => none

end Trampoline.Toml
