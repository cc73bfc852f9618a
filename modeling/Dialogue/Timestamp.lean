import Dialogue.Decimal.Reader
import Dialogue.Text.Blank

/-!
# Timestamps

Events may carry the time of their creation. The library has no use for that time, but an event
whose timestamp is no date and time of day with an offset is refused, so this module says which
texts are timestamps.

## Main definitions

* `Timestamp.isDate`, `Timestamp.isTimeOfDay` — which days and which times there are
* `Timestamp.isHeld` — whether the calendar still holds the day in universal time
* `isTimestamp` — whether a text is a timestamp
-/

namespace Dialogue

namespace Timestamp

/-- Whether a year has a twenty-ninth of February. -/
def isLeap (year : Int) : Bool := (year % 4 == 0 && year % 100 != 0) || year % 400 == 0

/-- The number of days in a month. -/
def daysIn (year : Int) (month : Nat) : Nat :=
  if month == 2 then (if isLeap year then 29 else 28)
  else if month == 4 || month == 6 || month == 9 || month == 11 then 30
  else 31

/-- The first year of the calendar. -/
def firstYear : Int := -262143

/-- The last year of the calendar. -/
def lastYear : Int := 262142

/-- Whether a year, a month and a day of the month name a day. -/
def isDate (year : Int) (month day : Nat) : Bool :=
  1 ≤ month && month ≤ 12 && 1 ≤ day && day ≤ daysIn year month
    && firstYear ≤ year && year ≤ lastYear

/-- Whether an hour, a minute and a second name a time of day; sixty is a leap second. -/
def isTimeOfDay (hour minute second : Nat) : Bool := hour < 24 && minute < 60 && second ≤ 60

/-- How many days later it is in universal time, where clocks are so many minutes ahead. -/
def dayShift (hour minute : Nat) (ahead : Int) : Int :=
  (60 * (hour : Int) + (minute : Int) - ahead) / (24 * 60)

/-- Whether the calendar holds the day that is so many days after a day. A shift is by one day at
most, so it leaves the calendar at its first and at its last day only. -/
def isHeld (year : Int) (month day : Nat) (shift : Int) : Bool :=
  !(shift < 0 && year == firstYear && month == 1 && day == 1)
    && !(0 < shift && year == lastYear && month == 12 && day == 31)

/-- Takes between one and `width` digits off the front of a text, after any blanks. -/
def digits (width : Nat) (cs : List Char) : Option (Nat × List Char) :=
  let cs := Text.trimLeft cs
  let ds := (cs.take width).takeWhile Char.isDigit
  if ds.isEmpty then none else some (Decimal.natOfDigits ds, cs.drop ds.length)

/-- Takes a year off the front of a text; one of more than four digits has a sign. -/
def year (cs : List Char) : Option (Int × List Char) :=
  match Text.trimLeft cs with
  | '-' :: rest =>
    if rest.head?.any Char.isDigit then (digits rest.length rest).map fun (n, r) => (-(n : Int), r)
    else none
  | '+' :: rest =>
    if rest.head?.any Char.isDigit then (digits rest.length rest).map fun (n, r) => ((n : Int), r)
    else none
  | rest => (digits 4 rest).map fun (n, r) => ((n : Int), r)

/-- Takes one character off the front of a text, after any blanks. -/
def mark (c : Char) (cs : List Char) : Option (List Char) :=
  match Text.trimLeft cs with
  | d :: rest => if c == d then some rest else none
  | [] => none

/-- Takes a fraction of a second off the front of a text, if there is one. -/
def fraction (cs : List Char) : Option (List Char) :=
  match cs with
  | '.' :: rest =>
    if rest.head?.any Char.isDigit then some (rest.dropWhile Char.isDigit) else none
  | _ => some cs

/-- Takes two digits off the front of a text. -/
def twoDigits : List Char → Option (Nat × List Char)
  | a :: b :: rest =>
    if a.isDigit && b.isDigit then some (Decimal.natOfDigits [a, b], rest) else none
  | _ => none

/-- Takes hours and minutes off the front of a text, colons and blanks between them. -/
def offsetMinutes (cs : List Char) : Option (Int × List Char) := do
  let (hours, rest) ← twoDigits cs
  let rest := rest.dropWhile fun c => c == ':' || Text.isBlank c
  let (minutes, rest) ← twoDigits rest
  if minutes < 60 && hours < 24 then some (60 * (hours : Int) + (minutes : Int), rest) else none

/-- Takes an offset off the front of a text: `Z`, `UTC`, or hours and minutes with a sign. It comes
in minutes that clocks are ahead of universal time. -/
def offset (cs : List Char) : Option (Int × List Char) :=
  match cs with
  | 'Z' :: rest | 'z' :: rest => some (0, rest)
  | '+' :: rest => offsetMinutes rest
  | '-' :: rest | '\u2212' :: rest => (offsetMinutes rest).map fun (n, r) => (-n, r)
  | a :: b :: c :: rest =>
    if [a, b, c].map Char.toUpper == ['U', 'T', 'C'] then some (0, rest) else none
  | _ => none

/-- Whether a list of characters is a day, a time of that day and an offset. -/
def accepts (cs : List Char) : Bool :=
  let parsed : Option Bool := do
    let (y, cs) ← year cs
    let (m, cs) ← digits 2 (← mark '-' cs)
    let (d, cs) ← digits 2 (← mark '-' cs)
    let cs ← match cs with
      | 'T' :: rest | 't' :: rest | ' ' :: rest => some rest
      | _ => none
    let (hour, cs) ← digits 2 cs
    let (minute, cs) ← digits 2 (← mark ':' cs)
    let (second, cs) ← digits 2 (← mark ':' cs)
    let cs ← fraction cs
    let (ahead, cs) ← offset (Text.trimLeft cs)
    return isDate y m d && isTimeOfDay hour minute second
      && isHeld y m d (dayShift hour minute ahead) && (Text.trimLeft cs).isEmpty
  parsed == some true

end Timestamp

/-- Whether a text is a day, a time of that day and an offset. -/
def isTimestamp (s : String) : Bool := Timestamp.accepts s.toList

end Dialogue
