import AmLang.Numeric.BinaryFloat
/-!
# Number literals

The value of a numeric literal, read from its text. The same reader serves the lexer, the
folding of a minus sign into a literal, and standalone use, so all of them agree on every value.

* `0x…` and `0b…` read hexadecimal and binary digits, with `_` separators and an optional `L`.
  The digits fill the bit pattern of the type: a value up to `0xFFFFFFFF` without `L` is an
  `Int` read as 32-bit two's complement, anything else a `Long` read as 64-bit two's complement.
* Decimal text is `digits [. digits] [e [+-] digits]` with `_` separators and an optional suffix
  `L`, `F` or `D` (either case). It is a floating literal when it has a point or an exponent or
  an `F`/`D` suffix; a `Float` is the decimal rounded to a double and then to single precision.
  An integer without suffix is an `Int` when it fits 32 bits and a `Long` otherwise.
* A leading `+` or `-` is allowed; a minus negates the value read (64-bit wrapping for
  integers, the sign bit for floating literals).

## Main definitions

* `NumberLiteral` — the four kinds of literal value.
* `NumberLiteral.parse` — the reader, with `NumberError` for the rejected texts.
-/

namespace AmLang

/-- The value of a numeric literal: its primitive type and its value. Integers are held as
64-bit signed values; floating literals as the bits of the double they denote. -/
inductive NumberLiteral where
  | int (value : Int)
  | long (value : Int)
  | float (bits : UInt64)
  | double (bits : UInt64)
deriving Repr, BEq, DecidableEq, Inhabited

/-- Why a text is not a number literal. -/
inductive NumberError where
  | empty
  | noLeadingDigit
  | invalidDigit (c : Char)
  | tooLarge
  | missingRadixDigits
  | missingDigits
  | longSuffixOnFloat
  | malformed
  | noFractionDigits
  | noExponentDigits
  | invalidCharacter (c : Char)
  | outOfRange
deriving Repr, BEq, DecidableEq

namespace NumberError

/-- The message of each rejection. -/
def message : NumberError → String
  | .empty => "empty number literal"
  | .noLeadingDigit => "number literal must start with a digit"
  | .invalidDigit c => "invalid digit '" ++ c.toString ++ "' in number literal"
  | .tooLarge => "integer literal is too large"
  | .missingRadixDigits => "missing digits after radix prefix"
  | .missingDigits => "missing digits in number literal"
  | .longSuffixOnFloat => "'L' suffix on a floating literal"
  | .malformed => "malformed number literal"
  | .noFractionDigits => "expected digits after '.'"
  | .noExponentDigits => "expected exponent digits"
  | .invalidCharacter c => "invalid character '" ++ c.toString ++ "' in number literal"
  | .outOfRange => "floating literal is out of range"

end NumberError

namespace NumberLiteral

/-- The name of the literal's primitive type. -/
def kindName : NumberLiteral → String
  | .int _ => "Int"
  | .long _ => "Long"
  | .float _ => "Float"
  | .double _ => "Double"

/-- The integer value of an integer literal. -/
def intValue? : NumberLiteral → Option Int
  | .int v => some v
  | .long v => some v
  | _ => none

/-- Whether the literal is an integer. -/
def isIntegral (n : NumberLiteral) : Bool := n.intValue?.isSome

/-- `x` reduced into the signed range of `w` bits, as two's complement does. -/
def wrapSigned (w : Nat) (x : Int) : Int :=
  let m : Int := Int.pow 2 w
  let r := x % m
  if r ≥ Int.pow 2 (w - 1) then r - m else r

/-- The value of a digit of base up to 16, or 99 for any other character. -/
def digitValue (c : Char) : Nat :=
  if '0' ≤ c ∧ c ≤ '9' then c.toNat - 48
  else if 'a' ≤ c ∧ c ≤ 'f' then c.toNat - 87
  else if 'A' ≤ c ∧ c ≤ 'F' then c.toNat - 55
  else 99

/-- The largest value of an unsigned 64-bit word. -/
def wordMax : Nat := Nat.pow 2 64 - 1

/--
Reads radix digits (separators skipped) into an unsigned 64-bit value, reporting the first bad
digit or the first digit that would overflow. The flag tells whether any digit was read.
-/
def readRadixDigits (radix : Nat) : List Char → Nat → Bool → Except NumberError (Nat × Bool)
  | [], acc, any => .ok (acc, any)
  | c :: rest, acc, any =>
    if c = '_' then readRadixDigits radix rest acc any
    else
      let d := digitValue c
      if d ≥ radix then .error (.invalidDigit c)
      else if acc > (wordMax - d) / radix then .error .tooLarge
      else readRadixDigits radix rest (acc * radix + d) true

/-- Reads the text after a `0x` or `0b` prefix. -/
def parseRadix (radix : Nat) (negative : Bool) (digits : List Char) :
    Except NumberError NumberLiteral := do
  let suffixed := match digits.getLast? with
    | some 'L' | some 'l' => true
    | _ => false
  let digits := if suffixed then digits.dropLast else digits
  let (value, any) ← readRadixDigits radix digits 0 false
  if !any then throw .missingRadixDigits
  let long := suffixed || value > 0xFFFFFFFF
  let signed := if long then wrapSigned 64 value else wrapSigned 32 value
  let v := if negative then wrapSigned 64 (-signed) else signed
  pure (if long then .long v else .int v)

/-- The decimal digits at the front of a text, and the rest. -/
def spanDigits (cs : List Char) : List Char × List Char :=
  (cs.takeWhile Char.isDigit, cs.dropWhile Char.isDigit)

/-- The natural number written by decimal digits. -/
def digitsValue (ds : List Char) : Nat :=
  ds.foldl (fun acc c => acc * 10 + (c.toNat - 48)) 0

/-- The parts of a checked decimal text: integer digits, fraction digits, exponent. -/
structure DecimalParts where
  whole : List Char
  fraction : List Char
  exponent : Int

/-- Checks that a text (without separators and suffix) has the shape
`digits [. digits] [e [+-] digits]`, and splits it. -/
def decimalShape (cs : List Char) : Except NumberError DecimalParts := do
  let (whole, rest) := spanDigits cs
  if whole.isEmpty then throw .malformed
  let (fraction, rest) ← match rest with
    | '.' :: r =>
      let (f, r) := spanDigits r
      if f.isEmpty then throw .noFractionDigits
      pure (f, r)
    | r => pure ([], r)
  let (exponent, rest) ← match rest with
    | e :: r =>
      if e = 'e' ∨ e = 'E' then
        let (neg, r) := match r with
          | '+' :: r' => (false, r')
          | '-' :: r' => (true, r')
          | r' => (false, r')
        let (ds, r) := spanDigits r
        if ds.isEmpty then throw .noExponentDigits
        let v : Int := digitsValue ds
        pure (if neg then -v else v, r)
      else pure (0, e :: r)
    | [] => pure (0, [])
  match rest with
  | [] => pure ⟨whole, fraction, exponent⟩
  | c :: _ => throw (.invalidCharacter c)

/-- The decimal number a checked text denotes. -/
def DecimalParts.toDecimal (p : DecimalParts) : Decimal :=
  ⟨digitsValue (p.whole ++ p.fraction), p.exponent - p.fraction.length⟩

/-- Whether a character is a type suffix. -/
def isSuffix (c : Char) : Bool :=
  c = 'L' || c = 'l' || c = 'F' || c = 'f' || c = 'D' || c = 'd'

/-- The largest value of a signed 64-bit integer. -/
def longMax : Nat := Nat.pow 2 63 - 1

/-- Reads a decimal text (sign removed). -/
def parseDecimal (negative : Bool) (text : List Char) : Except NumberError NumberLiteral := do
  let clean := text.filter (· ≠ '_')
  let last := clean.getLast?.getD '\x00'
  let suffixed := isSuffix last
  let clean := if suffixed then clean.dropLast else clean
  if clean.isEmpty then throw .missingDigits
  let isFloat := clean.any (fun c => c = '.' || c = 'e' || c = 'E')
  let upper := Char.ofNat (last.toNat &&& 0xDF)
  if suffixed && upper = 'L' && isFloat then throw .longSuffixOnFloat
  let parts ← decimalShape clean
  if isFloat || (suffixed && (upper = 'F' || upper = 'D')) then
    let nearest := parts.toDecimal.toBinary64
    if nearest.isInfinite then throw .outOfRange
    let single := suffixed && upper = 'F'
    let value := if single then nearest.into BinaryFormat.binary32 |>.into BinaryFormat.binary64
      else nearest
    let bits := value.bits64 ||| (if negative then signBit64 else 0)
    pure (if single then .float bits else .double bits)
  else
    let raw := digitsValue clean
    if raw > longMax + (if negative then 1 else 0) then throw .tooLarge
    let v : Int := if negative then wrapSigned 64 (-(raw : Int)) else raw
    if suffixed || v > 2147483647 || v < -2147483648 then pure (.long v) else pure (.int v)

/-- Reads a complete number literal, with an optional leading sign. -/
def parse (text : String) : Except NumberError NumberLiteral :=
  match text.toList with
  | [] => .error .empty
  | c :: rest =>
    let (negative, body) := if c = '+' ∨ c = '-' then (c == '-', rest) else (false, c :: rest)
    match body with
    | [] => .error .noLeadingDigit
    | d :: more =>
      if digitValue d > 9 then .error .noLeadingDigit
      else match more with
        | x :: r@(_ :: _) =>
          if d = '0' ∧ (x = 'x' ∨ x = 'X') then parseRadix 16 negative r
          else if d = '0' ∧ (x = 'b' ∨ x = 'B') then parseRadix 2 negative r
          else parseDecimal negative body
        | _ => parseDecimal negative body

end NumberLiteral

end AmLang
