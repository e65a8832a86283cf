import DocumentEngine.Calendar.Date
import DocumentEngine.Number.Reading
import DocumentEngine.Text.Split

/-!
Points in time to the millisecond, in universal time. They are read from RFC 3339 text, from a bare
date, which stands for its midnight, or from milliseconds since 1970, and are written as RFC 3339
with three digits of fraction.
-/

namespace DocumentEngine

/-- A point in time. A leap second repeats the last second of its minute under the number 60. -/
structure Timestamp where
  day : Int
  second : Nat
  milli : Nat
  leap : Bool := false
  deriving DecidableEq

namespace Timestamp

/-- Seconds in a day. -/
abbrev daySeconds : Nat := 86400

/-- The point in time `seconds` after the start of a day, if its year is kept. -/
def ofSeconds? (day seconds : Int) (milli : Nat) (leap : Bool) : Option Timestamp :=
  let date := Date.ofDayNumber (day + seconds / daySeconds)
  if Date.minYear ≤ date.year && date.year ≤ Date.maxYear then
    some ⟨day + seconds / daySeconds, (seconds % daySeconds).toNat, milli, leap⟩
  else none

/-- The point in time some milliseconds after the start of 1970. -/
def ofMillis? (millis : Int) : Option Timestamp :=
  ofSeconds? 0 (millis / 1000) (millis % 1000).toNat false

/-- Exactly `count` digits at the front of the text. -/
def digits? (count : Nat) (cs : List Char) : Option (Nat × List Char) :=
  (Number.natural? (cs.take count)).bind fun n =>
    if count ≤ cs.length then some (n, cs.drop count) else none

/-- The character `c` at the front of the text. -/
def char? (c : Char) : List Char → Option (List Char)
  | d :: rest => if d = c then some rest else none
  | [] => none

/-- A number within bounds. -/
def bounded? (low high n : Nat) : Option Nat := if low ≤ n && n ≤ high then some n else none

/-- The milliseconds of an optional fraction, further digits cut off. -/
def fraction? : List Char → Option (Nat × List Char)
  | '.' :: rest =>
    let digits := rest.takeWhile Char.isDigit
    if digits.isEmpty then none
    else some (Number.digitsValue ((digits ++ ['0', '0']).take 3), rest.dropWhile Char.isDigit)
  | cs => some (0, cs)

/-- The seconds by which a zone is ahead: none for `Z`, or hours and minutes after a sign. -/
def offset? : List Char → Option (Int × List Char)
  | [] => none
  | c :: rest =>
    if c = 'Z' || c = 'z' then some (0, rest)
    else if c = '+' || c = '-' || c = '−' then do
      let (hours, rest) ← digits? 2 rest
      let rest ← char? ':' rest
      let (minutes, rest) ← digits? 2 rest
      let hours ← bounded? 0 23 hours
      let minutes ← bounded? 0 59 minutes
      let seconds : Int := 60 * (60 * hours + minutes)
      return (if c = '+' then seconds else -seconds, rest)
    else none

/-- The point in time that RFC 3339 text names. -/
def ofRfc3339? (cs : List Char) : Option Timestamp := do
  let (year, rest) ← digits? 4 cs
  let rest ← char? '-' rest
  let (month, rest) ← digits? 2 rest
  let rest ← char? '-' rest
  let (day, rest) ← digits? 2 rest
  let rest ← char? 'T' rest <|> char? 't' rest <|> char? ' ' rest
  let (hour, rest) ← digits? 2 rest
  let rest ← char? ':' rest
  let (minute, rest) ← digits? 2 rest
  let rest ← char? ':' rest
  let (second, rest) ← digits? 2 rest
  let (milli, rest) ← fraction? rest
  let (offset, rest) ← offset? rest
  let date ← Date.ofParts? year month day
  let hour ← bounded? 0 23 hour
  let minute ← bounded? 0 59 minute
  let second ← bounded? 0 60 second
  let inDay : Int := 3600 * hour + 60 * minute + min second 59
  if rest.isEmpty then ofSeconds? date.dayNumber (inDay - offset) milli (second == 60) else none

/-- Up to `count` digits at the front of the text, at least one, blanks before them skipped. -/
def upTo? (count : Nat) (cs : List Char) : Option (Nat × List Char) :=
  let cs := cs.dropWhile Text.isBlank
  let digits := (cs.take count).takeWhile Char.isDigit
  (Number.natural? digits).map fun n => (n, cs.drop digits.length)

/-- A year: up to four digits, or any number of them after a sign. -/
def year? (cs : List Char) : Option (Int × List Char) :=
  let signed (negative : Bool) (rest : List Char) : Option (Int × List Char) :=
    let digits := rest.takeWhile Char.isDigit
    (Number.natural? digits).map fun n =>
      (if negative then -(n : Int) else n, rest.drop digits.length)
  match cs.dropWhile Text.isBlank with
  | '-' :: rest => signed true rest
  | '+' :: rest => signed false rest
  | body => (upTo? 4 body).map fun (n, rest) => ((n : Int), rest)

/-- The midnight of a bare date. -/
def ofDate? (cs : List Char) : Option Timestamp := do
  let (year, rest) ← year? cs
  let rest ← char? '-' rest
  let (month, rest) ← upTo? 2 rest
  let rest ← char? '-' rest
  let (day, rest) ← upTo? 2 rest
  let date ← Date.ofParts? year month day
  if rest.isEmpty then return ⟨date.dayNumber, 0, 0, false⟩ else none

/-- The point in time that text names, blanks at its ends aside. -/
def ofText? (s : String) : Option Timestamp :=
  let cs := Text.trimChars s.toList
  ofRfc3339? cs <|> ofDate? cs

/-- A number in decimal digits, zeros in front up to a width. -/
def padded (width n : Nat) : String :=
  let ds := Nat.toDigits 10 n
  String.ofList (List.replicate (width - ds.length) '0' ++ ds)

/-- A year of four digits; outside of them it carries a sign. -/
def yearText (year : Int) : String :=
  if 0 ≤ year && year ≤ 9999 then padded 4 year.toNat
  else (if year < 0 then "-" else "+") ++ padded 4 year.natAbs

/-- The RFC 3339 text in universal time. -/
def text (t : Timestamp) : String :=
  let d := Date.ofDayNumber t.day
  let second := if t.leap then 60 else t.second % 60
  s!"{yearText d.year}-{padded 2 d.month}-{padded 2 d.day}T{padded 2 (t.second / 3600)}:" ++
    s!"{padded 2 (t.second / 60 % 60)}:{padded 2 second}.{padded 3 t.milli}Z"

end Timestamp

end DocumentEngine
