/-!
# Rounding to binary floating-point formats

A binary format holds the values `m · 2 ^ e` with a significand `m < 2 ^ precision` and an
exponent `e` between `minExp` (the exponent of the least subnormal) and `maxExp`. Reading a
decimal literal rounds the exact rational it denotes to the nearest value of the format, a tie
going to the even significand, and a value that rounds past the largest finite one is infinite.

Everything is exact `Nat` and `Int` arithmetic: the rounding is computed from the rational, with
no intermediate floating-point step, so a literal reads the same on every machine.

## Main definitions

* `BinaryFormat.binary64`, `BinaryFormat.binary32` — double and single precision.
* `BinaryFormat.roundRatio` — the nearest value of a format to a positive rational.
* `Rounded.bits64` — the IEEE-754 double bit pattern of a rounded value.
* `Decimal.toBinary64` — the double nearest to a decimal `digits · 10 ^ exponent`.
-/

namespace AmLang

/-- A binary floating-point format, given by its significand width and exponent range. -/
structure BinaryFormat where
  precision : Nat
  minExp : Int
  maxExp : Int

/-- A value of a format: a finite `m · 2 ^ e`, or infinity. -/
inductive Rounded where
  | finite (m : Nat) (e : Int)
  | infinite
deriving Repr, BEq, DecidableEq

namespace BinaryFormat

/-- IEEE-754 double precision: 53 significand bits, least subnormal `2 ^ -1074`. -/
def binary64 : BinaryFormat := ⟨53, -1074, 971⟩

/-- IEEE-754 single precision: 24 significand bits, least subnormal `2 ^ -149`. -/
def binary32 : BinaryFormat := ⟨24, -149, 104⟩

/-- Whether `n / d ≥ 2 ^ k`. -/
def ratioGePow (n d : Nat) (k : Int) : Bool :=
  if 0 ≤ k then decide (d * Nat.pow 2 k.toNat ≤ n) else decide (d ≤ n * Nat.pow 2 (-k).toNat)

/-- The largest `k` with `2 ^ k ≤ n / d`, for positive `n` and `d`. -/
def floorLog2Ratio (n d : Nat) : Int :=
  let k : Int := (n.log2 : Int) - (d.log2 : Int)
  if ratioGePow n d k then k else k - 1

/-- The quotient and remainder of `n / d` divided by `2 ^ e`, with the divisor used. -/
def scaledDiv (n d : Nat) (e : Int) : Nat × Nat × Nat :=
  let (num, den) := if 0 ≤ e then (n, d * Nat.pow 2 e.toNat) else (n * Nat.pow 2 (-e).toNat, d)
  (num / den, num % den, den)

/--
The value of the format nearest to `n / d`, ties to an even significand. Zero for `n = 0`;
infinite when the nearest value would need an exponent above `maxExp`.
-/
def roundRatio (f : BinaryFormat) (n d : Nat) : Rounded :=
  if n = 0 ∨ d = 0 then .finite 0 f.minExp
  else
    let e0 := max (floorLog2Ratio n d - ((f.precision : Int) - 1)) f.minExp
    let (q, r, den) := scaledDiv n d e0
    let up := decide (den < 2 * r) || (decide (2 * r = den) && q % 2 == 1)
    let q := if up then q + 1 else q
    let (m, e) := if q = Nat.pow 2 f.precision then (Nat.pow 2 (f.precision - 1), e0 + 1) else (q, e0)
    if e > f.maxExp then .infinite else .finite m e

end BinaryFormat

namespace Rounded

/-- The value as a ratio of naturals `(n, d)`; infinity has none. -/
def toRatio? : Rounded → Option (Nat × Nat)
  | .finite m e => some (if 0 ≤ e then (m * Nat.pow 2 e.toNat, 1) else (m, Nat.pow 2 (-e).toNat))
  | .infinite => none

/-- Whether the value is infinite. -/
def isInfinite : Rounded → Bool
  | .infinite => true
  | .finite _ _ => false

/-- The bits of a non-negative double of this value: biased exponent and trailing significand. -/
def bits64 : Rounded → UInt64
  | .infinite => 0x7FF0000000000000
  | .finite m e =>
    if m < Nat.pow 2 52 then m.toUInt64
    else (((e + 1075).toNat <<< 52) ||| (m - Nat.pow 2 52)).toUInt64

/-- Rounds a value of another format into `f`. -/
def into (f : BinaryFormat) (r : Rounded) : Rounded :=
  match r.toRatio? with
  | some (n, d) => f.roundRatio n d
  | none => .infinite

end Rounded

/-- The sign bit of a double. -/
def signBit64 : UInt64 := 0x8000000000000000

/-- A decimal number `digits · 10 ^ exponent`. -/
structure Decimal where
  digits : Nat
  exponent : Int

namespace Decimal

/-- Number of decimal digits of `n` (1 for zero). -/
def digitCount (n : Nat) : Nat := (Nat.toDigits 10 n).length

/--
The double nearest to the decimal, as a rounded value of `binary64`. Values with more than 330
decimal places above the point are infinite, and those below `10 ^ -400` are zero: both lie far
beyond the format's range, and cutting them off keeps the arithmetic small.
-/
def toBinary64 (x : Decimal) : Rounded :=
  if x.digits = 0 then .finite 0 BinaryFormat.binary64.minExp
  else
    let magnitude := x.exponent + digitCount x.digits
    if magnitude > 330 then .infinite
    else if magnitude < -400 then .finite 0 BinaryFormat.binary64.minExp
    else if 0 ≤ x.exponent then BinaryFormat.binary64.roundRatio (x.digits * Nat.pow 10 x.exponent.toNat) 1
    else BinaryFormat.binary64.roundRatio x.digits (Nat.pow 10 (-x.exponent).toNat)

end Decimal

end AmLang
