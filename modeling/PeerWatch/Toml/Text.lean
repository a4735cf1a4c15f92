import PeerWatch.Toml.Value

/-!
# The small parts of a TOML text

Readers of blanks, comments, line ends, strings, numbers, dates and keys.
Each takes the characters that are left and gives what it has read and what
is left then, or nothing if there is no such part or a malformed one.
-/

namespace PeerWatch.Toml

/-- A reader of some part of a text. -/
abbrev Reader (α : Type) := List Char → Option (α × List Char)

/-- Space and tab. -/
def isSpace (c : Char) : Bool := c = ' ' || c = '\t'

/-- A character that may stand in a comment: no control but the tab. -/
def isCommentChar (c : Char) : Bool :=
  c = '\t' || (0x20 ≤ c.toNat && c.toNat ≠ 0x7F)

/-- What is left after spaces and tabs. -/
def skipSpaces (text : List Char) : List Char := text.dropWhile isSpace

/-- What is left after a comment, if one begins here. -/
def skipComment : List Char → List Char
  | '#' :: rest => rest.dropWhile isCommentChar
  | text => text

/-- What is left after a line end. -/
def newline? : List Char → Option (List Char)
  | '\n' :: rest => some rest
  | '\r' :: '\n' :: rest => some rest
  | _ => none

/-- What is left after the end of a line: blanks, perhaps a comment, and a
line end or the end of the text. -/
def lineEnd? (text : List Char) : Option (List Char) :=
  match skipComment (skipSpaces text) with
  | [] => some []
  | rest => newline? rest

/-- Skips blanks, comments and line ends, as they may stand inside an array. -/
def skipBlankLines : Nat → List Char → List Char
  | 0, text => text
  | fuel + 1, text =>
    match skipSpaces text with
    | '#' :: rest =>
      match newline? (rest.dropWhile isCommentChar) with
      | some rest => skipBlankLines fuel rest
      | none => '#' :: rest
    | rest =>
      match newline? rest with
      | some rest => skipBlankLines fuel rest
      | none => rest

/-- The value of a hexadecimal digit of either case. -/
def hexValue? (c : Char) : Option Nat :=
  if c.isDigit then some (c.toNat - 48)
  else if 'a' ≤ c ∧ c ≤ 'f' then some (c.toNat - 87)
  else if 'A' ≤ c ∧ c ≤ 'F' then some (c.toNat - 55)
  else none

/-- A character given by so many hexadecimal digits. -/
def readCodePoint : Nat → Nat → Reader Char
  | 0, value, text => if value.isValidChar then some (Char.ofNat value, text) else none
  | left + 1, value, c :: rest =>
    match hexValue? c with
    | some d => readCodePoint left (value * 16 + d) rest
    | none => none
  | _ + 1, _, [] => none

/-- Reads what follows a backslash. -/
def readEscape : Reader Char
  | 'b' :: rest => some (Char.ofNat 8, rest)
  | 't' :: rest => some ('\t', rest)
  | 'n' :: rest => some ('\n', rest)
  | 'f' :: rest => some (Char.ofNat 12, rest)
  | 'r' :: rest => some ('\r', rest)
  | '"' :: rest => some ('"', rest)
  | '\\' :: rest => some ('\\', rest)
  | 'u' :: rest => readCodePoint 4 0 rest
  | 'U' :: rest => readCodePoint 8 0 rest
  | _ => none

/-- The rest of a string between double quotes; `acc` holds its characters so
far, last one first. -/
def readBasic : Nat → List Char → Reader String
  | 0, _, _ => none
  | fuel + 1, acc, text =>
    match text with
    | [] => none
    | '"' :: rest => some (String.ofList acc.reverse, rest)
    | '\\' :: rest => do
      let (c, rest) ← readEscape rest
      readBasic fuel (c :: acc) rest
    | c :: rest => if isCommentChar c then readBasic fuel (c :: acc) rest else none

/-- A string between single quotes, which knows no escapes. -/
def readLiteral (text : List Char) : Option (String × List Char) :=
  let body := text.takeWhile fun c => isCommentChar c && c ≠ '\''
  match text.drop body.length with
  | '\'' :: rest => some (String.ofList body, rest)
  | _ => none

/-- The number of quotes a text begins with. -/
def countQuotes (quote : Char) (text : List Char) : Nat :=
  (text.takeWhile (· = quote)).length

/-- What is left after a line end that follows opening quotes at once. -/
def skipFirstNewline (text : List Char) : List Char :=
  (newline? text).getD text

/-- What is left after a backslash at the end of a line: all blanks and line
ends that follow. -/
def skipFolded : Nat → List Char → List Char
  | 0, text => text
  | fuel + 1, text =>
    let rest := skipSpaces text
    match newline? rest with
    | some rest => skipFolded fuel rest
    | none => rest

/-- The rest of a string of several lines between three quotes each.  Up to
two quotes more may stand at its end, and fewer than three anywhere. -/
def readMultiline (escapes : Bool) (quote : Char) : Nat → List Char → Reader String
  | 0, _, _ => none
  | fuel + 1, acc, text =>
    let quotes := countQuotes quote text
    if 3 ≤ quotes then
      if quotes ≤ 5 then
        some (String.ofList (acc.reverse ++ List.replicate (quotes - 3) quote), text.drop quotes)
      else none
    else if 0 < quotes then
      readMultiline escapes quote fuel (List.replicate quotes quote ++ acc) (text.drop quotes)
    else
      match newline? text with
      | some rest => readMultiline escapes quote fuel ('\n' :: acc) rest
      | none =>
        match text with
        | [] => none
        | c :: rest =>
          if escapes && c = '\\' then
            match newline? (skipSpaces rest) with
            | some folded => readMultiline escapes quote fuel acc (skipFolded fuel folded)
            | none => do
              let (c, rest) ← readEscape rest
              readMultiline escapes quote fuel (c :: acc) rest
          else if isCommentChar c then readMultiline escapes quote fuel (c :: acc) rest
          else none

/-- A string in any of its four forms. -/
def readString (text : List Char) : Option (String × List Char) :=
  let fuel := text.length + 1
  match text with
  | '"' :: '"' :: '"' :: rest => readMultiline true '"' fuel [] (skipFirstNewline rest)
  | '\'' :: '\'' :: '\'' :: rest => readMultiline false '\'' fuel [] (skipFirstNewline rest)
  | '"' :: rest => readBasic fuel [] rest
  | '\'' :: rest => readLiteral rest
  | _ => none

/-- Whether a character may stand in a key without quotes. -/
def isBareChar (c : Char) : Bool := c.isAlphanum || c = '_' || c = '-'

/-- Reads one part of a key, with or without quotes. -/
def readKeyPart (text : List Char) : Option (String × List Char) :=
  match text with
  | '"' :: rest => readBasic (text.length + 1) [] rest
  | '\'' :: rest => readLiteral rest
  | _ =>
    let bare := text.takeWhile isBareChar
    if bare.isEmpty then none else some (String.ofList bare, text.drop bare.length)

/-- The parts of a key, with points between them and blanks around them. -/
def readKeyParts : Nat → Reader (List String)
  | 0, _ => none
  | fuel + 1, text => do
    let (part, rest) ← readKeyPart (skipSpaces text)
    match skipSpaces rest with
    | '.' :: rest => do
      let (parts, rest) ← readKeyParts fuel rest
      some (part :: parts, rest)
    | rest => some ([part], rest)

/-- How deep keys, arrays and inline tables may be nested. -/
def nestingLimit : Nat := 80

/-- A key: the tables it leads through, and its last part. -/
def readKey (text : List Char) : Option ((List String × String) × List Char) := do
  let (parts, rest) ← readKeyParts (text.length + 1) text
  if nestingLimit ≤ parts.length then none
  else
    match parts.getLast? with
    | some last => some ((parts.dropLast, last), rest)
    | none => none

/-- Digits of a class, with single underscores between them. -/
def readDigits (isDigit : Char → Bool) : Nat → List Char → Reader (List Char)
  | 0, _, _ => none
  | fuel + 1, acc, text =>
    match text with
    | '_' :: c :: rest =>
      if !acc.isEmpty && isDigit c then readDigits isDigit fuel (c :: acc) rest
      else if acc.isEmpty then none
      else some (acc.reverse, text)
    | c :: rest =>
      if isDigit c then readDigits isDigit fuel (c :: acc) rest
      else if acc.isEmpty then none
      else some (acc.reverse, text)
    | [] => if acc.isEmpty then none else some (acc.reverse, [])

/-- The number of some digits. -/
def digitsValue (base : Nat) (digits : List Char) : Nat :=
  digits.foldl (fun acc c => acc * base + (hexValue? c).getD 0) 0

/-- Plus or minus, if there is one. -/
def readSign : List Char → Int × List Char
  | '+' :: rest => (1, rest)
  | '-' :: rest => (-1, rest)
  | text => (1, text)

/-- Decimal digits without a superfluous zero in front. -/
def readDecimal (text : List Char) : Option (List Char × List Char) := do
  let (digits, rest) ← readDigits Char.isDigit (text.length + 1) [] text
  if digits.head? = some '0' ∧ 1 < digits.length then none else some (digits, rest)

/-- An integer of 64 bits: decimal with a sign, or in base 16, 8 or 2. -/
def readInteger (text : List Char) : Option (Int × List Char) :=
  let based (base : Nat) (isDigit : Char → Bool) (rest : List Char) : Option (Int × List Char) := do
    let (digits, rest) ← readDigits isDigit (rest.length + 1) [] rest
    let value := digitsValue base digits
    if value ≤ 9223372036854775807 then some ((value : Int), rest) else none
  match text with
  | '0' :: 'x' :: rest => based 16 (fun c => (hexValue? c).isSome) rest
  | '0' :: 'o' :: rest => based 8 (fun c => '0' ≤ c ∧ c ≤ '7') rest
  | '0' :: 'b' :: rest => based 2 (fun c => c = '0' ∨ c = '1') rest
  | _ => do
    let (sign, rest) := readSign text
    let (digits, rest) ← readDecimal rest
    let value := sign * digitsValue 10 digits
    if -9223372036854775808 ≤ value ∧ value ≤ 9223372036854775807 then some (value, rest) else none

/-- Whether `digits · 10^exponent` is beyond the greatest double-width binary
fraction, so that it would round to infinity. -/
def isInfinite (digits : Nat) (exponent : Int) : Bool :=
  let bound := Nat.pow 2 1024 - Nat.pow 2 970
  if digits = 0 then false
  else if 0 ≤ exponent then
    if 400 < exponent then true else bound ≤ digits * Nat.pow 10 exponent.toNat
  else
    let length := (Nat.toDigits 10 digits).length
    if (length : Int) + exponent < 300 then false else bound * Nat.pow 10 exponent.natAbs ≤ digits

/-- The exponent of a number, if there is one. -/
def readExponent (text : List Char) : Option (Option Int × List Char) :=
  match text with
  | c :: rest =>
    if c = 'e' || c = 'E' then do
      let (sign, rest) := readSign rest
      let (digits, rest) ← readDigits Char.isDigit (rest.length + 1) [] rest
      some (some (sign * digitsValue 10 digits), rest)
    else some (none, text)
  | [] => some (none, [])

/-- A number with a fraction, an exponent or both; or one that is infinite or
none. -/
def readFloat (text : List Char) : Option (Unit × List Char) :=
  let (sign, rest) := readSign text
  match rest with
  | 'i' :: 'n' :: 'f' :: rest => some ((), rest)
  | 'n' :: 'a' :: 'n' :: rest => some ((), rest)
  | _ => do
    let (whole, rest) ← readDecimal rest
    let finish (digits : List Char) (places : Nat) (exponent : Option Int) (rest : List Char) :
        Option (Unit × List Char) :=
      if sign = 1 ∧ isInfinite (digitsValue 10 digits) (exponent.getD 0 - places) then none
      else some ((), rest)
    match rest with
    | '.' :: rest => do
      let (places, rest) ← readDigits Char.isDigit (rest.length + 1) [] rest
      let (exponent, rest) ← readExponent rest
      finish (whole ++ places) places.length exponent rest
    | _ => do
      let (exponent, rest) ← readExponent rest
      if exponent.isNone then none else finish whole 0 exponent rest

/-- So many decimal digits. -/
def readFixed : Nat → Nat → Reader Nat
  | 0, value, text => some (value, text)
  | left + 1, value, c :: rest =>
    if c.isDigit then readFixed left (value * 10 + (c.toNat - 48)) rest else none
  | _ + 1, _, [] => none

/-- Reads a number of two digits within bounds. -/
def readTwo (lo hi : Nat) (text : List Char) : Option (Nat × List Char) := do
  let (value, rest) ← readFixed 2 0 text
  if lo ≤ value ∧ value ≤ hi then some (value, rest) else none

def expect (c : Char) : List Char → Option (List Char)
  | d :: rest => if d = c then some rest else none
  | [] => none

/-- A day that the calendar has. -/
def readDate (text : List Char) : Option (Unit × List Char) := do
  let (year, rest) ← readFixed 4 0 text
  let rest ← expect '-' rest
  let (month, rest) ← readTwo 1 12 rest
  let rest ← expect '-' rest
  let (day, rest) ← readTwo 1 31 rest
  let isLeap := year % 4 = 0 ∧ (year % 100 ≠ 0 ∨ year % 400 = 0)
  let days :=
    if month = 2 then (if isLeap then 29 else 28)
    else if month = 4 ∨ month = 6 ∨ month = 9 ∨ month = 11 then 30
    else 31
  if day ≤ days then some ((), rest) else none

/-- Reads a time of the day, perhaps with a fraction of a second. -/
def readTime (text : List Char) : Option (Unit × List Char) := do
  let (_, rest) ← readTwo 0 23 text
  let rest ← expect ':' rest
  let (_, rest) ← readTwo 0 59 rest
  let rest ← expect ':' rest
  let (_, rest) ← readTwo 0 60 rest
  match rest with
  | '.' :: rest =>
    let places := rest.takeWhile Char.isDigit
    if places.isEmpty then none else some ((), rest.drop places.length)
  | _ => some ((), rest)

/-- The distance from universal time, if it is given. -/
def readOffset (text : List Char) : Option (Unit × List Char) :=
  match text with
  | 'Z' :: rest => some ((), rest)
  | 'z' :: rest => some ((), rest)
  | c :: rest =>
    if c = '+' || c = '-' then do
      let (_, rest) ← readTwo 0 23 rest
      let rest ← expect ':' rest
      let (_, rest) ← readTwo 0 59 rest
      some ((), rest)
    else some ((), text)
  | [] => some ((), [])

/-- A date, a time, or both. -/
def readDatetime (text : List Char) : Option (Unit × List Char) :=
  match readDate text with
  | some (_, c :: rest) =>
    if c = 'T' || c = 't' then do
      let (_, rest) ← readTime rest
      readOffset rest
    else if c = ' ' then
      match readTime rest with
      | some (_, rest) => readOffset rest
      | none => some ((), c :: rest)
    else some ((), c :: rest)
  | some (_, []) => some ((), [])
  | none => readTime text

end PeerWatch.Toml
