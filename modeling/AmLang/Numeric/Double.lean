/-!
# Doubles by their bits

A double given by its IEEE-754 bit pattern, decoded into a sign and an exact value `m · 2 ^ e`
(or an infinity or NaN), and exact decimal roundings of such values. Working from the bits in
natural-number arithmetic keeps every rounding exact and visible to proofs.

## Main definitions

* `DoubleBits.decode` — sign and class of a bit pattern.
* `scaledRound` — `m · 2 ^ e · 10 ^ k` rounded to an integer, ties to even.
-/

namespace AmLang

/-- The class of a double: a finite value `m · 2 ^ e`, an infinity, or NaN. -/
inductive DoubleClass where
  | finite (m : Nat) (e : Int)
  | infinite
  | nan
deriving Repr, BEq, Inhabited

/-- A decoded double: its sign bit and its class. -/
structure DoubleParts where
  negative : Bool
  value : DoubleClass
deriving Repr, Inhabited

namespace DoubleBits

/-- Decodes a bit pattern: 1 sign bit, 11 exponent bits biased by 1023, 52 fraction bits; a zero
exponent field holds subnormals. -/
def decode (bits : UInt64) : DoubleParts :=
  let negative := bits >>> 63 == 1
  let biased := ((bits >>> 52) &&& 0x7FF).toNat
  let fraction := (bits &&& 0xFFFFFFFFFFFFF).toNat
  let value :=
    if biased == 0x7FF then (if fraction == 0 then .infinite else .nan)
    else if biased == 0 then .finite fraction (-1074)
    else .finite (fraction + Nat.pow 2 52) ((biased : Int) - 1075)
  ⟨negative, value⟩

end DoubleBits

/-- Rounds the ratio `n / d` to the nearest natural number, a tie to the even one. -/
def roundHalfEven (n d : Nat) : Nat :=
  let q := n / d
  let r := n % d
  if 2 * r > d then q + 1
  else if 2 * r < d then q
  else if q % 2 == 0 then q else q + 1

/-- `m · 2 ^ e` as a ratio of naturals. -/
def binaryRatio (m : Nat) (e : Int) : Nat × Nat :=
  if e ≥ 0 then (m * Nat.pow 2 e.toNat, 1) else (m, Nat.pow 2 (-e).toNat)

/-- `m · 2 ^ e · 10 ^ k` rounded to the nearest integer, a tie to the even one. -/
def scaledRound (m : Nat) (e : Int) (k : Nat) : Nat :=
  let (n, d) := binaryRatio m e
  roundHalfEven (n * Nat.pow 10 k) d

end AmLang
