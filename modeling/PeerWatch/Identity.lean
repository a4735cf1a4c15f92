import PeerWatch.Hex
import PeerWatch.Text.Blank
import PeerWatch.Text.Quoted

/-!
# The identity of a peer

A peer is known by 32 bytes, written as 64 hexadecimal digits.  Identities
are ordered as their byte strings, so also as their texts.

* `TargetId.parse` — reads the text, white space around it aside, and names
  the first fault;
* `TargetId.text` — the digits, in lower case.
-/

namespace PeerWatch

/-- The identity of a peer: 32 bytes. -/
structure TargetId where
  bytes : List UInt8
  length_eq : bytes.length = 32
deriving DecidableEq

namespace TargetId

/-- The number of bytes of an identity. -/
def byteCount : Nat := 32

/-- An identity is its bytes. -/
theorem eq_of_bytes_eq {a b : TargetId} (h : a.bytes = b.bytes) : a = b := by
  cases a
  cases b
  simp_all

/-- The identity made of some bytes, if their number is right. -/
def ofBytes? (bytes : List UInt8) : Option TargetId :=
  if h : bytes.length = 32 then some ⟨bytes, h⟩ else none

instance : Inhabited TargetId := ⟨⟨List.replicate 32 0, rfl⟩⟩

instance : Ord TargetId := ⟨compareOn fun id => id.bytes⟩

instance : Std.TransOrd TargetId :=
  inferInstanceAs (Std.TransCmp (compareOn fun id : TargetId => id.bytes))

instance : Std.LawfulEqOrd TargetId where
  compare_self := Std.ReflCmp.compare_self
  eq_of_compare := by
    intro a b h
    obtain ⟨a, ha⟩ := a
    obtain ⟨b, hb⟩ := b
    have : a = b := Std.LawfulEqOrd.eq_of_compare (α := List UInt8) h
    subst this
    rfl

/-- The identity as 64 lower-case digits. -/
def text (id : TargetId) : String :=
  String.ofList (Hex.encode id.bytes)

/-- A short form for log lines: the first six bytes. -/
def shortText (id : TargetId) : String :=
  "TargetId(" ++ String.ofList (Hex.encode (id.bytes.take 6)) ++ "..)"

/-- Why a text is not an identity. -/
inductive ParseError where
  /-- The text is not hexadecimal. -/
  | hex (fault : Hex.Fault)
  /-- The text is hexadecimal but has another number of bytes. -/
  | length (got : Nat)
deriving DecidableEq, Repr

/-- The text of the error, as it is shown to whoever wrote the identity. -/
def ParseError.message : ParseError → String
  | .hex .oddLength => "invalid hex in target id: Odd number of digits"
  | .hex (.badDigit byte position) =>
    "invalid hex in target id: Invalid character " ++ Text.quoteChar (Char.ofNat byte.toNat)
      ++ " at position " ++ toString position
  | .length got => "target id must be 32 bytes, got " ++ toString got

/-- The bytes a text has in UTF-8. -/
def utf8 (text : List Char) : List UInt8 :=
  (String.ofList text).toUTF8.data.toList

/-- Reads an identity; white space around the digits does not matter. -/
def parse (text : String) : Except ParseError TargetId :=
  match Hex.decode (utf8 (Text.trim text.toList)) with
  | .error fault => .error (.hex fault)
  | .ok bytes =>
    if h : bytes.length = 32 then .ok ⟨bytes, h⟩ else .error (.length bytes.length)

end TargetId

end PeerWatch
