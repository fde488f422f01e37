import AmLang.Numeric.Significant
import AmLang.Numeric.BinaryFloat
import AmLang.Types.Ty
import AmLang.Syntax.Ast
/-!
# Run-time values and primitive arithmetic

The values a running program computes, with the arithmetic of C's fixed-width types that the
generated code performs. A primitive value does not carry its type: every operation is told the
static type it works in, exactly as the C code is.

* Integers of every width, `Char` (an unsigned 16-bit code unit) included, are held as the
  mathematical value inside the width's range; a conversion between widths wraps the way a C
  cast does on a two's-complement machine.
* `Float` and `Double` values are held as their IEEE-754 bits and computed with the matching
  hardware operations; `%` is the exact `fmod`.
* A nullable primitive is its value or `null`.
* Strings are byte text; objects, arrays and closures live in a heap and are named by address.
* A boxed primitive keeps its family (`int`, `uint`, `double`, `bool`, `char`) and value; boxes
  compare by content, so they need no identity.

Doubles are written the way the runtime does: the shortest `%.Ng` (N from 1 to 17) that reads
back as the same double, with `.0` added when that has no point or exponent.

## Main definitions

* `Value` — a run-time value.
* `Prim.wrap`, `Value.convert` — C's conversions between primitive types.
* `Value.arith` — `+ - * / %` in a primitive type; `none` for a zero integer divisor.
* `formatDouble` — the text of a double.
-/

namespace AmLang

/-- How a primitive is boxed: the runtime's families of primitives. -/
inductive BoxKind where
  | int
  | uint
  | double
  | bool
  | char
deriving Repr, BEq, DecidableEq, Inhabited

/-- A value of a running program. -/
inductive Value where
  | unit
  | bool (b : Bool)
  /-- An integer or `Char`, inside its type's range. -/
  | int (v : Int)
  /-- A `Float`, by its bits. -/
  | single (bits : UInt32)
  /-- A `Double`, by its bits. -/
  | double (bits : UInt64)
  | null
  /-- A string, as byte text. -/
  | str (s : String)
  /-- A boxed primitive. -/
  | boxed (k : BoxKind) (v : Value)
  /-- An object, array or closure, by its heap address. -/
  | ref (addr : Nat)
deriving Repr, BEq, Inhabited

namespace Prim

/-- The width in bits of an integer type or `Char`. -/
def width : Prim → Nat
  | .byte | .ubyte => 8
  | .short | .ushort | .char => 16
  | .int | .uint => 32
  | _ => 64

/-- An integer brought into the range of type `k` by C's conversion: modulo `2 ^ width`, read as
two's complement for a signed type. -/
def wrap (k : Prim) (v : Int) : Int :=
  let m : Int := Int.pow 2 k.width
  let r := v % m
  if k.isSigned && r ≥ m / 2 then r - m else r

/-- The family a primitive is boxed in. -/
def boxKind (k : Prim) : BoxKind :=
  if k.isSigned then .int
  else if k.isUnsigned then .uint
  else if k.isFloating then .double
  else if k == .bool then .bool
  else .char

end Prim

/-! ## Floating-point values -/

/-- The sign bit of a single. -/
def signBit32 : UInt32 := 0x80000000

/-- The bits of a non-negative single of a rounded `binary32` value. -/
def Rounded.bits32 : Rounded → UInt32
  | .infinite => 0x7F800000
  | .finite m e =>
    if m < Nat.pow 2 23 then m.toUInt32
    else (((e + 150).toNat <<< 23) ||| (m - Nat.pow 2 23)).toUInt32

/-- The double nearest to an integer. -/
def doubleOfInt (v : Int) : UInt64 :=
  let r := (BinaryFormat.binary64.roundRatio v.natAbs 1).bits64
  if v < 0 then r ||| signBit64 else r

/-- The single nearest to an integer. -/
def singleOfInt (v : Int) : UInt32 :=
  let r := (BinaryFormat.binary32.roundRatio v.natAbs 1).bits32
  if v < 0 then r ||| signBit32 else r

/-- A double as a hardware float. -/
def toFloat64 (bits : UInt64) : Float := Float.ofBits bits

/-- A single as a hardware float. -/
def toFloat32 (bits : UInt32) : Float32 := Float32.ofBits bits

/-- A double truncated toward zero to an integer of type `k` (in range, as the programs that
run keep it). -/
def truncDouble (k : Prim) (bits : UInt64) : Int :=
  let d := toFloat64 bits
  if k.isUnsigned then k.wrap (d.toUInt64.toNat : Int) else k.wrap d.toInt64.toInt

/-- The decoded magnitude of a single: `m · 2 ^ e`, infinity or NaN. -/
def decodeSingle (bits : UInt32) : Bool × DoubleClass :=
  let negative := bits >>> 31 == 1
  let biased := ((bits >>> 23) &&& 0xFF).toNat
  let fraction := (bits &&& 0x7FFFFF).toNat
  let value :=
    if biased == 0xFF then (if fraction == 0 then .infinite else .nan)
    else if biased == 0 then .finite fraction (-149)
    else .finite (fraction + Nat.pow 2 23) ((biased : Int) - 150)
  (negative, value)

/-- The exact remainder `x - trunc(x / y) · y` of two finite magnitudes `mx · 2 ^ ex` and
`my · 2 ^ ey` (with `my > 0`), as a magnitude `m · 2 ^ e`. -/
def exactRemainder (mx : Nat) (ex : Int) (my : Nat) (ey : Int) : Nat × Int :=
  let e := min ex ey
  let x := mx * Nat.pow 2 (ex - e).toNat
  let y := my * Nat.pow 2 (ey - e).toNat
  (x % y, e)

/-- C's `fmod` on doubles: NaN when `x` is infinite or `y` is zero or either is NaN; `x` when
`y` is infinite; otherwise the exact remainder with the sign of `x`. -/
def fmod64 (x y : UInt64) : UInt64 :=
  let px := DoubleBits.decode x
  let py := DoubleBits.decode y
  match px.value, py.value with
  | .finite mx ex, .finite my ey =>
    if my == 0 then 0x7FF8000000000000
    else
      let (m, e) := exactRemainder mx ex my ey
      let (n, d) := binaryRatio m e
      let r := (BinaryFormat.binary64.roundRatio n d).bits64
      if px.negative then r ||| signBit64 else r
  | .finite .., .infinite => x
  | _, _ => 0x7FF8000000000000

/-- C's `fmodf` on singles, like `fmod64`. -/
def fmod32 (x y : UInt32) : UInt32 :=
  let (nx, vx) := decodeSingle x
  let (_, vy) := decodeSingle y
  match vx, vy with
  | .finite mx ex, .finite my ey =>
    if my == 0 then 0x7FC00000
    else
      let (m, e) := exactRemainder mx ex my ey
      let (n, d) := binaryRatio m e
      let r := (BinaryFormat.binary32.roundRatio n d).bits32
      if nx then r ||| signBit32 else r
  | .finite .., .infinite => x
  | _, _ => 0x7FC00000

/-- Whether the decimal `digits · 10 ^ exponent` reads back as the double of magnitude bits
`magnitude`. -/
def readsBack (digits : Nat) (exponent : Int) (magnitude : UInt64) : Bool :=
  (Decimal.toBinary64 ⟨digits, exponent⟩).bits64 == magnitude

/-- The fewest significant digits, from 1 to 17, whose rounding of the finite nonzero double
`m · 2 ^ e` reads back as it. -/
def shortestDigits (m : Nat) (e : Int) (magnitude : UInt64) : Nat :=
  let (n, d) := binaryRatio m e
  let fits := fun (p : Nat) =>
    let (digits, x) := roundSignificant n d p
    readsBack digits (x - ((p : Int) - 1)) magnitude
  ((List.range 17).map (· + 1) |>.find? fits).getD 17

/-- The text of a double as the runtime writes it: `NaN`, `Infinity`, `-Infinity`, or the
shortest `%.Ng` that reads back as the value, with `.0` added when it shows no point, exponent
or `n`. -/
def formatDouble (bits : UInt64) : String :=
  let parts := DoubleBits.decode bits
  match parts.value with
  | .nan => "NaN"
  | .infinite => if parts.negative then "-Infinity" else "Infinity"
  | .finite m e =>
    let p := if m == 0 then 1 else shortestDigits m e (bits &&& 0x7FFFFFFFFFFFFFFF)
    let text := DoubleBits.general bits p
    if text.any (fun c => c == '.' || c == 'e' || c == 'E' || c == 'n') then text
    else text ++ ".0"

/-- The UTF-8 bytes of a 16-bit code unit, as byte text; surrogates are written as they are. -/
def encodeUnit (c : Nat) : String :=
  if c < 0x80 then String.singleton (Char.ofNat c)
  else if c < 0x800 then
    String.ofList [Char.ofNat (0xC0 + c / 64), Char.ofNat (0x80 + c % 64)]
  else
    String.ofList [Char.ofNat (0xE0 + c / 4096 % 16), Char.ofNat (0x80 + c / 64 % 64),
      Char.ofNat (0x80 + c % 64)]

/-- The runtime's hash of a 64-bit integer: its two halves exclusive-or'ed, as a 32-bit
integer. -/
def hashInt (v : Int) : Int :=
  let u := (Prim.wrap .ulong v).toNat
  Prim.wrap .int (Nat.xor u (Prim.wrap .ulong (Int.shiftRight (Prim.wrap .long v) 32)).toNat : Nat)

/-- The runtime's hash of a double: the hash of its bits read as a signed integer. -/
def hashDouble (bits : UInt64) : Int := hashInt (Prim.wrap .long bits.toNat)

/-- The runtime's hash of a string: `h · 31 + byte` over its bytes, on 32 bits. -/
def hashString (s : String) : Int :=
  Prim.wrap .int (s.toList.foldl (fun h c => (h * 31 + c.toNat) % Nat.pow 2 32) 0 : Nat)

namespace Value

/-- The zero a C object of a type holds before it is set: `0`, `false` or `0.0` for a
primitive, `null` for a nullable primitive or a reference. -/
def zero (t : Ty) : Value :=
  match t with
  | .prim k n =>
    if n then .null
    else match k with
      | .bool => .bool false
      | .float => .single 0
      | .double => .double 0
      | .unit => .unit
      | _ => .int 0
  | _ => .null

/-- The value as a 64-bit integer, the way C reads a primitive of type `k` as one: booleans as
0 and 1, floating values truncated. -/
def toInt (k : Prim) : Value → Int
  | .int v => v
  | .bool b => if b then 1 else 0
  | .single b => truncDouble (if k.isUnsigned then .ulong else .long) (toFloat32 b).toFloat.toBits
  | .double b => truncDouble (if k.isUnsigned then .ulong else .long) b
  | _ => 0

/-- The value as a double, the way C converts a primitive of type `k`. -/
def toDoubleBits (k : Prim) : Value → UInt64
  | .double b => b
  | .single b => (toFloat32 b).toFloat.toBits
  | .int v => doubleOfInt v
  | .bool b => if b then doubleOfInt 1 else 0
  | _ => if k == .double then 0 else 0

/-- C's conversion of a primitive value of type `a` to type `b`. -/
def convert (v : Value) (a b : Prim) : Value :=
  if a == b then v
  else match b with
    | .bool => match v with
      | .int x => .bool (x != 0)
      | .single x => .bool ((toFloat32 x) != 0)
      | .double x => .bool ((toFloat64 x) != 0)
      | other => other
    | .float => match v with
      | .double x => .single (toFloat64 x).toFloat32.toBits
      | .int x => .single (singleOfInt x)
      | .bool x => .single (singleOfInt (if x then 1 else 0))
      | other => other
    | .double => .double (v.toDoubleBits a)
    | .unit => .unit
    | k => match v with
      | .single x => .int (truncDouble k (toFloat32 x).toFloat.toBits)
      | .double x => .int (truncDouble k x)
      | other => .int (k.wrap (other.toInt a))

/-- `+ - * / %` on two values of primitive type `k`, as the generated code computes them:
integers wrap; signed division by -1 negates (and its remainder is 0); `%` on floating values is
`fmod`. `none` when an integer divisor is zero. -/
def arith (op : BinaryOp) (k : Prim) (l r : Value) : Option Value :=
  match l, r with
  | .single a, .single b =>
    let x := toFloat32 a
    let y := toFloat32 b
    some (.single (match op with
      | .add => (x + y).toBits
      | .sub => (x - y).toBits
      | .mul => (x * y).toBits
      | .div => (x / y).toBits
      | _ => fmod32 a b))
  | .double a, .double b =>
    let x := toFloat64 a
    let y := toFloat64 b
    some (.double (match op with
      | .add => (x + y).toBits
      | .sub => (x - y).toBits
      | .mul => (x * y).toBits
      | .div => (x / y).toBits
      | _ => fmod64 a b))
  | _, _ =>
    let x := l.toInt k
    let y := r.toInt k
    match op with
    | .add => some (.int (k.wrap (x + y)))
    | .sub => some (.int (k.wrap (x - y)))
    | .mul => some (.int (k.wrap (x * y)))
    | .div =>
      if y == 0 then none
      else if k.isSigned && y == -1 then some (.int (k.wrap (-x)))
      else some (.int (k.wrap (x.tdiv y)))
    | _ =>
      if y == 0 then none
      else if k.isSigned && y == -1 then some (.int 0)
      else some (.int (k.wrap (x.tmod y)))

/-- `-x` in type `k`: wrapping for integers, the sign flipped for floating values. -/
def negate (k : Prim) : Value → Value
  | .single a => .single (-(toFloat32 a)).toBits
  | .double a => .double (-(toFloat64 a)).toBits
  | v => .int (k.wrap (-(v.toInt k)))

/-- `~x` in integer type `k`. -/
def complement (k : Prim) (v : Value) : Value := .int (k.wrap (-(v.toInt k) - 1))

/-- A comparison of two values of the same primitive type, as C compares them. -/
def compare (op : BinaryOp) (l r : Value) : Bool :=
  match l, r with
  | .single a, .single b =>
    let x := toFloat32 a
    let y := toFloat32 b
    match op with
    | .lt => x < y
    | .le => x ≤ y
    | .gt => x > y
    | .ge => x ≥ y
    | .ne => x != y
    | _ => x == y
  | .double a, .double b =>
    let x := toFloat64 a
    let y := toFloat64 b
    match op with
    | .lt => x < y
    | .le => x ≤ y
    | .gt => x > y
    | .ge => x ≥ y
    | .ne => x != y
    | _ => x == y
  | _, _ =>
    let x := l.toInt .long
    let y := r.toInt .long
    match op with
    | .lt => decide (x < y)
    | .le => decide (x ≤ y)
    | .gt => decide (x > y)
    | .ge => decide (x ≥ y)
    | .ne => x != y
    | _ => x == y

/-- `AML_OPT_EQ`: two nullable primitives of one type are equal when both are empty or both
hold equal values. -/
def optEqual (l r : Value) : Bool :=
  match l, r with
  | .null, .null => true
  | .null, _ | _, .null => false
  | a, b => compare .eq a b

/-- The text the runtime writes for a primitive of type `k`: decimal integers, the double text
of a floating value, `true`/`false`, and the UTF-8 of a `Char`. -/
def primText (k : Prim) (v : Value) : String :=
  match k with
  | .bool => match v with
    | .bool true => "true"
    | _ => "false"
  | .char => encodeUnit (v.toInt .char).toNat
  | .float | .double => formatDouble (v.toDoubleBits k)
  | _ => toString (v.toInt k)

/-- Boxes a primitive of type `k`: its family, and its value as that family holds it. -/
def box (k : Prim) (v : Value) : Value :=
  match k.boxKind with
  | .int => .boxed .int (.int (Prim.wrap .long (v.toInt k)))
  | .uint => .boxed .uint (.int (Prim.wrap .ulong (v.toInt k)))
  | .double => .boxed .double (.double (v.toDoubleBits k))
  | .bool => .boxed .bool v
  | .char => .boxed .char v

/-- The family's value of a box converted to primitive type `k`. -/
def unboxed (k : Prim) (family : BoxKind) (v : Value) : Value :=
  match family with
  | .int => v.convert .long k
  | .uint => v.convert .ulong k
  | .double => v.convert .double k
  | .bool => v.convert .bool k
  | .char => v.convert .char k

/-- The text of a boxed value, by its family. -/
def boxedText : BoxKind → Value → String
  | .int, v => primText .long v
  | .uint, v => primText .ulong v
  | .double, v => primText .double v
  | .bool, v => primText .bool v
  | .char, v => primText .char v

/-- The hash of a primitive of type `k`, as `hashCode` computes it. -/
def primHash (k : Prim) (v : Value) : Int :=
  if k.isSigned then hashInt (v.toInt k)
  else if k.isUnsigned then hashInt (Prim.wrap .long (v.toInt k))
  else if k.isFloating then hashDouble (v.toDoubleBits k)
  else if k == .bool then (if v == .bool true then 1231 else 1237)
  else v.toInt k

/-- The hash of a boxed value, by its family. -/
def boxedHash : BoxKind → Value → Int
  | .int, v => hashInt (v.toInt .long)
  | .uint, v => hashInt (Prim.wrap .long (v.toInt .ulong))
  | .double, v => hashDouble (v.toDoubleBits .double)
  | .bool, v => if v == .bool true then 1231 else 1237
  | .char, v => v.toInt .char

/-- Whether two boxes hold equal values: the same family and equal values (doubles by `==`). -/
def boxedEqual (k : BoxKind) (a : Value) (k' : BoxKind) (b : Value) : Bool :=
  k == k' && match k with
    | .double => compare .eq a b
    | _ => a == b

end Value

end AmLang
