import PeerWatch.Hex
import PeerWatch.Identity

/-!
# The owner of a history

A vantage point that watches peers is known by a universally unique
identifier: 16 bytes, written as 8-4-4-4-12 digits.  Four spellings are read:
the hyphenated one, the same between braces or after `urn:uuid:` (in any
case), and 32 digits without hyphens.
-/

namespace PeerWatch

/-- The identity of a vantage point: 16 bytes. -/
structure OwnerId where
  bytes : List UInt8
  length_eq : bytes.length = 16
deriving DecidableEq

namespace OwnerId

/-- An owner is its bytes. -/
theorem eq_of_bytes_eq {a b : OwnerId} (h : a.bytes = b.bytes) : a = b := by
  cases a
  cases b
  simp_all

/-- The owner whose bytes are all zero: nobody. -/
def nil : OwnerId := ⟨List.replicate 16 0, rfl⟩

instance : Inhabited OwnerId := ⟨nil⟩

instance : Ord OwnerId := ⟨fun a b => compare a.bytes b.bytes⟩

/-- Whether the owner is nobody. -/
def isNil (owner : OwnerId) : Bool :=
  owner.bytes.all (· = 0)

/-- The numbers of bytes between the hyphens. -/
def groups : List Nat := [4, 2, 2, 2, 6]

/-- Cuts a list into consecutive pieces of the given lengths; what is left
over is dropped. -/
def cut {α : Type} : List Nat → List α → List (List α)
  | [], _ => []
  | n :: ns, xs => xs.take n :: cut ns (xs.drop n)

/-- The hyphenated, lower-case spelling. -/
def text (owner : OwnerId) : String :=
  "-".intercalate ((cut groups owner.bytes).map fun piece => String.ofList (Hex.encode piece))

/-- Sixteen bytes from 32 digits. -/
def ofDigits? (digits : List UInt8) : Option OwnerId :=
  match Hex.decode digits with
  | .error _ => none
  | .ok bytes => if h : bytes.length = 16 then some ⟨bytes, h⟩ else none

/-- The hyphenated spelling: 36 bytes, a hyphen after each group but the last. -/
def ofHyphenated? (text : List UInt8) : Option OwnerId :=
  if text.length = 36 then
    let pieces := cut [8, 1, 4, 1, 4, 1, 4, 1, 12] text
    let hyphens := [pieces[1]?, pieces[3]?, pieces[5]?, pieces[7]?]
    if hyphens.all (· = some [45]) then
      ofDigits? (text.filter (· ≠ 45))
    else none
  else none

/-- A byte in lower case, if it is a letter. -/
def lower (b : UInt8) : UInt8 :=
  if 65 ≤ b ∧ b ≤ 90 then b + 32 else b

/-- The owner made of 16 random bytes: two of them tell that they are
random. -/
def ofRandom? (bytes : List UInt8) : Option OwnerId :=
  let marked := (bytes.modify 6 fun b => b % 16 + 64).modify 8 fun b => b % 64 + 128
  if h : marked.length = 16 then some ⟨marked, h⟩ else none

/-- Reads any of the four spellings. -/
def parse? (text : String) : Option OwnerId :=
  let bytes := TargetId.utf8 text.toList
  if bytes.length = 32 then ofDigits? bytes
  else if bytes.length = 36 then ofHyphenated? bytes
  else if bytes.length = 38 then
    if bytes.head? = some 123 ∧ bytes.getLast? = some 125 then
      ofHyphenated? (bytes.tail.dropLast)
    else none
  else if bytes.length = 45 then
    if (bytes.take 9).map lower = TargetId.utf8 "urn:uuid:".toList then
      ofHyphenated? (bytes.drop 9)
    else none
  else none

end OwnerId

end PeerWatch
