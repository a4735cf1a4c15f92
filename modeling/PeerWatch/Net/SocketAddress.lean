/-!
# Socket addresses

The text of an address and a port: four decimal numbers for version 4, up to
eight groups of hexadecimal digits between brackets for version 6, in which
one run of zero groups may be left out and the last two groups may be written
as a version 4 address.  A version 6 address may name a scope after `%`.

Reading goes from left to right; each reader gives the value and what is left
of the text, or nothing.

* `SocketAddress.parse?`.
-/

namespace PeerWatch.Net

/-- An address and a port. -/
inductive SocketAddress where
  | v4 (octets : List Nat) (port : Nat)
  | v6 (groups : List Nat) (scope : Nat) (port : Nat)
deriving DecidableEq, Repr

/-- The value of a digit in a base up to 16. -/
def digitValue? (base : Nat) (c : Char) : Option Nat :=
  let value :=
    if c.isDigit then some (c.toNat - 48)
    else if 'a' ≤ c ∧ c ≤ 'f' then some (c.toNat - 87)
    else if 'A' ≤ c ∧ c ≤ 'F' then some (c.toNat - 55)
    else none
  value.filter (· < base)

/-- Takes all digits that follow onto a value; the second part of the answer
counts them. -/
def readDigits (base : Nat) (value count : Nat) : List Char → Nat × Nat × List Char
  | [] => (value, count, [])
  | c :: rest =>
    match digitValue? base c with
    | some d => readDigits base (value * base + d) (count + 1) rest
    | none => (value, count, c :: rest)

/-- A number of at least one and at most `most` digits (any number, if
`none`), not above `bound`. -/
def readNumber (base : Nat) (most : Option Nat) (leadingZeros : Bool) (bound : Nat)
    (text : List Char) : Option (Nat × List Char) :=
  let (value, count, rest) := readDigits base 0 0 text
  if count = 0 ∨ bound < value then none
  else if most.any (· < count) then none
  else if !leadingZeros && text.head? = some '0' && 1 < count then none
  else some (value, rest)

def readChar (c : Char) : List Char → Option (List Char)
  | d :: rest => if d = c then some rest else none
  | [] => none

/-- A separator before every part but the first. -/
def readSeparator (c : Char) (index : Nat) (text : List Char) : Option (List Char) :=
  if index = 0 then some text else readChar c text

/-- The numbers of a version 4 address from number `index` on. -/
def readOctets : Nat → Nat → List Char → Option (List Nat × List Char)
  | 0, _, text => some ([], text)
  | left + 1, index, text => do
    let text ← readSeparator '.' index text
    let (octet, text) ← readNumber 10 (some 3) false 255 text
    let (octets, text) ← readOctets left (index + 1) text
    some (octet :: octets, text)

/-- A version 4 address. -/
def readV4 (text : List Char) : Option (List Nat × List Char) :=
  readOctets 4 0 text

/-- Up to `left` groups of a version 6 address from group `index` on; whether
the last two were written as a version 4 address; and what is left. -/
def readGroups : Nat → Nat → List Char → List Nat × Bool × List Char
  | 0, _, text => ([], false, text)
  | left + 1, index, text =>
    let embedded := if left = 0 then none else (readSeparator ':' index text).bind readV4
    match embedded with
    | some ([a, b, c, d], rest) => ([a * 256 + b, c * 256 + d], true, rest)
    | _ =>
      match (readSeparator ':' index text).bind (readNumber 16 (some 4) true 65535) with
      | none => ([], false, text)
      | some (group, rest) =>
        let (groups, isEmbedded, rest) := readGroups left (index + 1) rest
        (group :: groups, isEmbedded, rest)

/-- A version 6 address. -/
def readV6 (text : List Char) : Option (List Nat × List Char) := do
  let (front, isEmbedded, rest) := readGroups 8 0 text
  if front.length = 8 then some (front, rest)
  else if isEmbedded then none
  else
    let rest ← readChar ':' rest
    let rest ← readChar ':' rest
    let (back, _, rest) := readGroups (7 - front.length) 0 rest
    some (front ++ List.replicate (8 - front.length - back.length) 0 ++ back, rest)

/-- Reads a colon and a port. -/
def readPort (text : List Char) : Option (Nat × List Char) := do
  let text ← readChar ':' text
  readNumber 10 none true 65535 text

/-- A scope after `%`, 0 if there is none. -/
def readScope (text : List Char) : Nat × List Char :=
  match (readChar '%' text).bind (readNumber 10 none true 4294967295) with
  | some (scope, rest) => (scope, rest)
  | none => (0, text)

namespace SocketAddress

/-- Reads an address of either family with its port, to the end of the text. -/
def parse? (text : String) : Option SocketAddress :=
  let v4 := do
    let (octets, rest) ← readV4 text.toList
    let (port, rest) ← readPort rest
    if rest.isEmpty then some (SocketAddress.v4 octets port) else none
  let v6 := do
    let rest ← readChar '[' text.toList
    let (groups, rest) ← readV6 rest
    let (scope, rest) := readScope rest
    let rest ← readChar ']' rest
    let (port, rest) ← readPort rest
    if rest.isEmpty then some (SocketAddress.v6 groups scope port) else none
  v4.or v6

end SocketAddress

end PeerWatch.Net
