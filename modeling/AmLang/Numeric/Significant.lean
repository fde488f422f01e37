import AmLang.Numeric.Double
/-!
# Doubles with a fixed number of significant digits

A double written in general notation with `p` significant digits, the way C's `%.<p>g` writes
it: the exact value is rounded to `p` significant digits (ties to even), then written in fixed
notation when its decimal exponent `x` satisfies `-4 ≤ x < p`, and as `d.ddd e±xx` otherwise;
trailing zeros of the fraction are dropped, and the point with them when nothing follows it.
Infinities are `inf`, NaN is `nan`, each with a `-` when the sign bit is set.

## Main definitions

* `decimalExponent` — the exponent `x` of a positive ratio: `10 ^ x ≤ n / d < 10 ^ (x + 1)`.
* `roundSignificant` — the `p` digits of a positive ratio and their exponent.
* `DoubleBits.general` — the text of a double.
-/

namespace AmLang

/-- The number of decimal digits of `n` (one for zero). -/
def decimalDigits (n : Nat) : Nat := (Nat.toDigits 10 n).length

/-- The decimal exponent of the positive ratio `n / d`: the `x` with
`10 ^ x ≤ n / d < 10 ^ (x + 1)`. Below one it is found by comparing `n` shifted to the digit
count of `d` with `d`. -/
def decimalExponent (n d : Nat) : Int :=
  if d ≤ n then (decimalDigits (n / d) : Int) - 1
  else
    let c := decimalDigits d - decimalDigits n
    if d ≤ n * Nat.pow 10 c then -(c : Int) else -((c + 1 : Nat) : Int)

/-- The ratio `n / d` rounded to `p` significant digits, ties to even: the digits as a number of
`p` digits, and the decimal exponent of the first one. -/
def roundSignificant (n d p : Nat) : Nat × Int :=
  let x := decimalExponent n d
  let shift : Int := (p : Int) - 1 - x
  let digits :=
    if shift ≥ 0 then roundHalfEven (n * Nat.pow 10 shift.toNat) d
    else roundHalfEven n (d * Nat.pow 10 (-shift).toNat)
  if digits == Nat.pow 10 p then (Nat.pow 10 (p - 1), x + 1) else (digits, x)

/-- Text without its trailing zeros. -/
def dropTrailingZeros (s : String) : String :=
  String.ofList (s.toList.reverse.dropWhile (· == '0')).reverse

/-- A fraction appended after a point, or nothing when it is empty. -/
def pointed (fraction : String) : String :=
  if fraction.isEmpty then "" else "." ++ fraction

/-- `p` significant digits with decimal exponent `x`, in general notation. -/
def generalText (digits : Nat) (x : Int) (p : Nat) : String :=
  let ds := toString digits
  if x < (p : Int) && x ≥ -4 then
    if x ≥ 0 then
      String.ofList (ds.toList.take (x.toNat + 1)) ++
        pointed (dropTrailingZeros (String.ofList (ds.toList.drop (x.toNat + 1))))
    else
      "0" ++ pointed (dropTrailingZeros
        (String.ofList (List.replicate ((-x).toNat - 1) '0') ++ ds))
  else
    let magnitude := toString x.natAbs
    String.ofList (ds.toList.take 1) ++
      pointed (dropTrailingZeros (String.ofList (ds.toList.drop 1))) ++
      "e" ++ (if x < 0 then "-" else "+") ++
      (if magnitude.length < 2 then "0" ++ magnitude else magnitude)

namespace DoubleBits

/-- The double with these bits in general notation with `p` significant digits (at least
one). -/
def general (bits : UInt64) (p : Nat) : String :=
  let parts := decode bits
  let sign := if parts.negative then "-" else ""
  match parts.value with
  | .nan => sign ++ "nan"
  | .infinite => sign ++ "inf"
  | .finite m e =>
    if m == 0 then sign ++ "0"
    else
      let (n, d) := binaryRatio m e
      let p := max p 1
      let (digits, x) := roundSignificant n d p
      sign ++ generalText digits x p

end DoubleBits

end AmLang
