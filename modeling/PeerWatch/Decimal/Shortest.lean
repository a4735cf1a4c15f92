/-!
# The shortest decimal of a binary fraction

A double-width float stands for all reals that round to it.  Of the decimals
among these it is written as one with the fewest digits, and of those as the
one that is nearest to it.

* `Binary.ofBits` — the fraction that bits stand for;
* `Binary.shortest` — the digits and the power of ten;
* `positional` — a decimal without an exponent.
-/

namespace PeerWatch.Decimal

/-- A decimal `digits · 10^exponent`. -/
structure Numeral where
  digits : Nat
  exponent : Int
deriving DecidableEq, Repr

/-- A binary fraction `mantissa · 2^exponent`, and whether the fractions below
it lie half as far apart as those above it. -/
structure Binary where
  mantissa : Nat
  exponent : Int
  isLowest : Bool
deriving DecidableEq, Repr

namespace Binary

/-- The magnitude that the bits of a finite float stand for. -/
def ofBits (bits : UInt64) : Binary :=
  let fraction := bits.toNat % Nat.pow 2 52
  let biased : Nat := bits.toNat / Nat.pow 2 52 % Nat.pow 2 11
  if biased = 0 then ⟨fraction, -1074, false⟩
  else ⟨fraction + Nat.pow 2 52, (biased : Int) - 1075, fraction = 0 ∧ 1 < biased⟩

/-- Numerators, over one denominator, of the lowest real that rounds to the
fraction, of the fraction, and of the highest such real. -/
structure Span where
  low : Nat
  value : Nat
  high : Nat
  denominator : Nat

/-- The reals that round to a fraction, in quarters of the last place. -/
def span (b : Binary) : Span :=
  let quarters := b.exponent - 2
  let scale := Nat.pow 2 quarters.toNat
  ⟨(4 * b.mantissa - (if b.isLowest then 1 else 2)) * scale, 4 * b.mantissa * scale,
   (4 * b.mantissa + 2) * scale, Nat.pow 2 (-quarters).toNat⟩

/-- How many decimal digits a number has. -/
def length (n : Nat) : Nat := (Nat.toDigits 10 n).length

/-- The least power of ten above a positive quotient. -/
def magnitude (numerator denominator : Nat) : Int :=
  let guess : Int := length numerator - length denominator
  let isAbove := numerator * Nat.pow 10 (-guess).toNat < denominator * Nat.pow 10 guess.toNat
  if isAbove then guess else guess + 1

/-- Whether a decimal lies among the reals that round to the fraction.  The
two ends do if the mantissa is even. -/
def admits (b : Binary) (d : Numeral) : Bool :=
  let s := b.span
  let given := d.digits * Nat.pow 10 d.exponent.toNat * s.denominator
  let unit := Nat.pow 10 (-d.exponent).toNat
  if b.mantissa % 2 = 0 then s.low * unit ≤ given ∧ given ≤ s.high * unit
  else s.low * unit < given ∧ given < s.high * unit

/-- The decimal of at most so many digits that is admitted, if there is one:
one of the two neighbours on their grid, the nearer one if both are. -/
def onGrid? (b : Binary) (count : Nat) : Option Numeral :=
  let s := b.span
  let exponent := magnitude s.value s.denominator - count
  let numerator := s.value * Nat.pow 10 (-exponent).toNat
  let denominator := s.denominator * Nat.pow 10 exponent.toNat
  let below : Numeral := ⟨numerator / denominator, exponent⟩
  let next := numerator / denominator + 1
  let above : Numeral :=
    if next = Nat.pow 10 count then ⟨1, exponent + count⟩ else ⟨next, exponent⟩
  let isLow := 2 * (numerator % denominator) ≤ denominator
  match b.admits below, b.admits above with
  | true, true => some (if isLow then below else above)
  | true, false => some below
  | false, true => some above
  | false, false => none

/-- The shortest decimal of a fraction; seventeen digits are always enough. -/
def shortest (b : Binary) : Numeral :=
  if b.mantissa = 0 then ⟨0, 0⟩
  else ((List.range 17).findSome? fun n => b.onGrid? (n + 1)).getD ⟨0, 0⟩

end Binary

/-- A decimal without an exponent: zeros up to the point, or a point among
the digits. -/
def positional (d : Numeral) : String :=
  let digits := Nat.toDigits 10 d.digits
  if 0 ≤ d.exponent then
    String.ofList (digits ++ if d.digits = 0 then [] else List.replicate d.exponent.toNat '0')
  else
    let places := (-d.exponent).toNat
    let padded := List.replicate (places + 1 - digits.length) '0' ++ digits
    String.ofList
      (padded.take (padded.length - places) ++ '.' :: padded.drop (padded.length - places))

/-- The shortest text of a float that is not negative. -/
def floatText (x : Float) : String :=
  positional (Binary.ofBits x.toBits).shortest

end PeerWatch.Decimal
