import PeerWatch.Calendar.Day
import PeerWatch.Text.Blank

/-!
# The text of a day

A day is written `YYYY-MM-DD`; a year that four digits cannot hold has a sign
in front.  Reading is more generous than writing: white space may stand
before each number, month and day may have one digit, and a signed year any
number of digits.  What goes wrong first is what is reported.

* `Day.text`, `Day.parse`.
-/

namespace PeerWatch.Calendar

/-- The digits of a number, filled up with zeros to at least `width`. -/
def padded (width : Nat) (n : Nat) : String :=
  let digits := Nat.toDigits 10 n
  String.ofList (List.replicate (width - digits.length) '0' ++ digits)

/-- A year: four digits, or a sign and at least four. -/
def yearText (year : Int) : String :=
  if year < 0 then "-" ++ padded 4 year.natAbs
  else if year ≤ 9999 then padded 4 year.natAbs
  else "+" ++ padded 4 year.natAbs

namespace Day

/-- The day as `YYYY-MM-DD`. -/
def text (d : Day) : String :=
  yearText d.civil.year ++ "-" ++ padded 2 d.civil.month ++ "-" ++ padded 2 d.civil.day

/-- Why a text is not a day. -/
inductive ParseError where
  | outOfRange
  | invalid
  | tooShort
  | tooLong
deriving DecidableEq, Repr

def ParseError.message : ParseError → String
  | .outOfRange => "input is out of range"
  | .invalid => "input contains invalid characters"
  | .tooShort => "premature end of input"
  | .tooLong => "trailing input"

/-- The largest number a signed 64-bit word holds. -/
def maxWord : Nat := 9223372036854775807

/-- Takes up to `width` digits (any number, if `none`) onto the value read so
far. -/
def readDigits : Option Nat → Nat → List Char → Except ParseError (Nat × List Char)
  | some 0, value, rest => .ok (value, rest)
  | _, value, [] => .ok (value, [])
  | width, value, c :: rest =>
    if c.isDigit then
      let next := value * 10 + (c.toNat - 48)
      if next ≤ maxWord then readDigits (width.map (· - 1)) next rest else .error .outOfRange
    else .ok (value, c :: rest)

/-- A number of one to `width` digits. -/
def readNumber (width : Option Nat) (text : List Char) : Except ParseError (Nat × List Char) :=
  match text with
  | [] => .error .tooShort
  | c :: _ => if c.isDigit then readDigits width 0 text else .error .invalid

/-- A year: up to four digits, or a sign and any number of them. -/
def readYear (text : List Char) : Except ParseError (Int × List Char) :=
  let bounded (sign : Int) (result : Nat × List Char) : Except ParseError (Int × List Char) :=
    let year := sign * result.1
    if -2147483648 ≤ year ∧ year ≤ 2147483647 then .ok (year, result.2) else .error .outOfRange
  match text.dropWhile Text.isBlank with
  | '-' :: rest => (readNumber none rest).bind (bounded (-1))
  | '+' :: rest => (readNumber none rest).bind (bounded 1)
  | rest => (readNumber (some 4) rest).bind (bounded 1)

/-- A number of one or two digits that is at most `most` and not 0. -/
def readPart (most : Nat) (text : List Char) : Except ParseError (Nat × List Char) := do
  let (value, rest) ← readNumber (some 2) (text.dropWhile Text.isBlank)
  if 1 ≤ value ∧ value ≤ most then .ok (value, rest) else .error .outOfRange

/-- Reads the hyphen between two parts of a date. -/
def readHyphen : List Char → Except ParseError (List Char)
  | [] => .error .tooShort
  | '-' :: rest => .ok rest
  | _ => .error .invalid

/-- Reads a day from its text; a date that the calendar does not have is out of range. -/
def parse (text : String) : Except ParseError Day := do
  let (year, rest) ← readYear text.toList
  let rest ← readHyphen rest
  let (month, rest) ← readPart 12 rest
  let rest ← readHyphen rest
  let (day, rest) ← readPart 31 rest
  if rest.isEmpty then
    match ofCivil? ⟨year, month, day⟩ with
    | some d => .ok d
    | none => .error .outOfRange
  else .error .tooLong

end Day

end PeerWatch.Calendar
