import Mathlib.Data.Int.ModEq
import AmLang.Emit.Convert
import AmLang.Run.Value
/-!
# Integer expressions of C

What the integer expressions the emitter writes for arithmetic mean in C, on the targets the
generated code is built for, where `int` has 32 bits and `int64_t` is `long`. Only what these
expressions use is covered: the types of `<stdint.h>`, casts, `+ - * / %`, `==` and `?:`.

* The integer promotions turn a type narrower than `int` into `int`, which holds all its values
  (C11 6.3.1.1).
* The usual arithmetic conversions bring two promoted operands to one type: the wider one, or
  the unsigned one of two of equal width (6.3.1.8).
* Conversion to an unsigned type reduces modulo `2 ^ N`. Conversion to a signed type keeps a
  value in its range; out of range the result is implementation-defined (6.3.1.3), and GCC and
  Clang define it as the same reduction. That is the one choice of an implementation made here.
* Arithmetic in an unsigned type is modulo `2 ^ N`. In a signed type a result out of range is
  undefined, as are division and remainder by zero and a quotient out of range (6.5.5).
* `?:` evaluates its condition and then only the operand it selects, converted to the common
  type of both operands (6.5.15).

`CExpr.eval` gives `none` where the behaviour is undefined. `CExpr.render` writes an expression
as the emitter does: it parenthesises every operand that is not a name, so C reads the text back
as the same tree.
-/

namespace AmLang

/-- The fixed-width integer types of the generated code. -/
inductive CInt where
  | i8 | i16 | i32 | i64 | u8 | u16 | u32 | u64
deriving Repr, DecidableEq

namespace CInt

/-- The width in bits. -/
def width : CInt → Nat
  | .i8 | .u8 => 8
  | .i16 | .u16 => 16
  | .i32 | .u32 => 32
  | .i64 | .u64 => 64

/-- Whether the type is signed. -/
def signed : CInt → Bool
  | .i8 | .i16 | .i32 | .i64 => true
  | .u8 | .u16 | .u32 | .u64 => false

/-- The type's name in the generated C. -/
def cName : CInt → String
  | .i8 => "int8_t"
  | .i16 => "int16_t"
  | .i32 => "int32_t"
  | .i64 => "int64_t"
  | .u8 => "uint8_t"
  | .u16 => "uint16_t"
  | .u32 => "uint32_t"
  | .u64 => "uint64_t"

/-- The primitive held in the type. -/
def prim : CInt → Prim
  | .i8 => .byte
  | .i16 => .short
  | .i32 => .int
  | .i64 => .long
  | .u8 => .ubyte
  | .u16 => .ushort
  | .u32 => .uint
  | .u64 => .ulong

/-- `2 ^ N`, the number of values of the type. -/
def modulus (t : CInt) : Int := 2 ^ t.width

/-- `2 ^ (N - 1)`, the number of negative values of a signed type. -/
def half (t : CInt) : Int := 2 ^ (t.width - 1)

theorem modulus_eq (t : CInt) : t.modulus = 2 * t.half := by
  cases t <;> rfl

theorem half_pos (t : CInt) : 0 < t.half := by
  cases t <;> decide

/-- Whether `v` is a value of the type. -/
def InRange (t : CInt) (v : Int) : Prop :=
  if t.signed then -t.half ≤ v ∧ v < t.half else 0 ≤ v ∧ v < t.modulus

instance (t : CInt) (v : Int) : Decidable (t.InRange v) :=
  inferInstanceAs (Decidable (if t.signed then _ else _))

/-- The integer promotions. -/
def promote : CInt → CInt
  | .i8 | .i16 | .u8 | .u16 | .i32 => .i32
  | .i64 => .i64
  | .u32 => .u32
  | .u64 => .u64

/-- The usual arithmetic conversions of two promoted types: the wider, or the unsigned one of
two of equal width. -/
def common (a b : CInt) : CInt :=
  if a.width = b.width then (if a.signed then b else a)
  else if a.width < b.width then b else a

/-- Conversion of a value to the type: reduction modulo `2 ^ N` into its range. -/
def convert (t : CInt) (v : Int) : Int :=
  if t.signed then (v + t.half) % t.modulus - t.half else v % t.modulus

/-- Conversion keeps the residue modulo `2 ^ N`. -/
theorem convert_modEq (t : CInt) (v : Int) : t.convert v ≡ v [ZMOD t.modulus] := by
  unfold convert
  split
  · have h := (Int.mod_modEq (v + t.half) t.modulus).sub_right t.half
    rwa [add_sub_cancel_right] at h
  · exact Int.mod_modEq v t.modulus

/-- Conversion depends only on the residue modulo `2 ^ N`. -/
theorem convert_congr (t : CInt) {u v : Int} (h : u ≡ v [ZMOD t.modulus]) :
    t.convert u = t.convert v := by
  unfold convert
  split
  · rw [(h.add_right t.half).eq]
  · exact h.eq

/-- Conversion gives a value of the type. -/
theorem convert_mem (t : CInt) (v : Int) : t.InRange (t.convert v) := by
  have hm := t.modulus_eq
  have hh := t.half_pos
  have hlo := Int.emod_nonneg (v + t.half) (by omega : t.modulus ≠ 0)
  have hhi := Int.emod_lt_of_pos (v + t.half) (by omega : 0 < t.modulus)
  have hlo' := Int.emod_nonneg v (by omega : t.modulus ≠ 0)
  have hhi' := Int.emod_lt_of_pos v (by omega : 0 < t.modulus)
  unfold InRange convert
  cases t.signed <;> simp only [Bool.false_eq_true, ↓reduceIte] <;> omega

/-- Conversion keeps a value of the type. -/
theorem convert_of_mem {t : CInt} {v : Int} (h : t.InRange v) : t.convert v = v := by
  have hm := t.modulus_eq
  unfold InRange at h
  unfold convert
  split
  · rename_i hs
    simp only [hs, ↓reduceIte] at h
    rw [Int.emod_eq_of_lt (by omega) (by omega)]
    omega
  · rename_i hs
    simp only [hs, Bool.false_eq_true, ↓reduceIte] at h
    exact Int.emod_eq_of_lt h.1 h.2

theorem prim_width (t : CInt) : t.prim.width = t.width := by
  cases t <;> rfl

theorem prim_isSigned (t : CInt) : t.prim.isSigned = t.signed := by
  cases t <;> rfl

/-- Shifting by `half` moves a residue across the middle of `[0, 2 ^ N)`. -/
theorem add_half_emod (t : CInt) (v : Int) :
    (v + t.half) % t.modulus =
      if v % t.modulus < t.half then v % t.modulus + t.half else v % t.modulus - t.half := by
  have hm := t.modulus_eq
  have hh := t.half_pos
  have hlo := Int.emod_nonneg v (by omega : t.modulus ≠ 0)
  have hhi := Int.emod_lt_of_pos v (by omega : 0 < t.modulus)
  rw [Int.add_emod, Int.emod_eq_of_lt hh.le (by omega : t.half < t.modulus)]
  split
  · exact Int.emod_eq_of_lt (by omega) (by omega)
  · rw [show v % t.modulus + t.half = (v % t.modulus - t.half) + t.modulus by omega,
      ← Int.emod_eq_add_self_emod, Int.emod_eq_of_lt (by omega) (by omega)]

/-- Conversion is the model's reduction of an integer into the range of its primitive. -/
theorem convert_eq_wrap (t : CInt) (v : Int) : t.convert v = Prim.wrap t.prim v := by
  have hm := t.modulus_eq
  have hpow : Int.pow 2 t.prim.width = t.modulus := by rw [prim_width]; rfl
  have hdiv : t.modulus / 2 = t.half := by omega
  unfold convert Prim.wrap
  simp only [hpow, hdiv, prim_isSigned]
  cases t.signed
  · simp
  · simp only [↓reduceIte, Bool.true_and, decide_eq_true_eq]
    rw [add_half_emod]
    split <;> split <;> omega

/-- Two values of the type with one residue are equal. -/
theorem eq_of_modEq {t : CInt} {u v : Int} (hu : t.InRange u) (hv : t.InRange v)
    (h : u ≡ v [ZMOD t.modulus]) : u = v := by
  rw [← convert_of_mem hu, ← convert_of_mem hv, t.convert_congr h]

/-- The exact value of `x op y` for the ring operations `+ - *`. -/
def ringValue : BinaryOp → Int → Int → Int
  | .add, x, y => x + y
  | .sub, x, y => x - y
  | .mul, x, y => x * y
  | _, _, _ => 0

/-- `+`, `-` and `*`, the operations whose result C reduces or leaves undefined alike. -/
def IsRing (op : BinaryOp) : Prop := op = .add ∨ op = .sub ∨ op = .mul

/-- Ring operations on residues give residues. -/
theorem ringValue_modEq {op : BinaryOp} (hop : IsRing op) {n x x' y y' : Int}
    (hx : x ≡ x' [ZMOD n]) (hy : y ≡ y' [ZMOD n]) :
    ringValue op x y ≡ ringValue op x' y' [ZMOD n] := by
  rcases hop with rfl | rfl | rfl
  · exact hx.add hy
  · exact hx.sub hy
  · exact hx.mul hy

/-- The result of an operation whose exact value is `r`: reduced in an unsigned type, and
undefined when out of range in a signed one. -/
def result (t : CInt) (r : Int) : Option Int :=
  if t.signed then (if t.InRange r then some r else none) else some (t.convert r)

/-- `x op y` in type `t`, for `+ - * / %`; `none` where the behaviour is undefined. -/
def arith (t : CInt) (op : BinaryOp) (x y : Int) : Option Int :=
  match op with
  | .add | .sub | .mul => t.result (ringValue op x y)
  | .div => if y = 0 then none else t.result (x.tdiv y)
  | .mod => if y = 0 then none else (t.result (x.tdiv y)).map fun _ => x.tmod y
  | _ => none

theorem arith_of_isRing {op : BinaryOp} (hop : IsRing op) (t : CInt) (x y : Int) :
    t.arith op x y = t.result (ringValue op x y) := by
  rcases hop with rfl | rfl | rfl <;> rfl

theorem result_of_unsigned {t : CInt} (h : t.signed = false) (r : Int) :
    t.result r = some (t.convert r) := by
  simp [result, h]

theorem result_of_mem {t : CInt} {r : Int} (h : t.InRange r) : t.result r = some r := by
  simp [result, h, convert_of_mem h]

/-- The truncated quotient of two values of the type is one, except `MIN / -1`. -/
theorem tdiv_mem {t : CInt} {x y : Int} (hx : t.InRange x) (hy : t.InRange y) (hy0 : y ≠ 0)
    (hmin : t.signed = false ∨ y ≠ -1) : t.InRange (x.tdiv y) := by
  have hh := t.half_pos
  have hle := Int.natAbs_tdiv_le_natAbs x y
  unfold InRange at *
  cases hs : t.signed <;>
    simp only [hs, Bool.false_eq_true, Bool.true_eq_false, false_or, ↓reduceIte] at hx hy hmin ⊢
  · -- unsigned: the quotient of two non-negative values lies between 0 and the dividend
    have := Int.tdiv_nonneg hx.1 hy.1
    omega
  · -- signed: a divisor other than 1 and -1 at least halves the magnitude
    by_cases hy1 : y = 1
    · rw [hy1, Int.tdiv_one]
      exact hx
    · have hhalf : (x.tdiv y).natAbs ≤ x.natAbs / 2 := by
        rw [Int.natAbs_tdiv]
        exact Nat.div_le_div_left (by omega) (by decide)
      omega

/-- The truncated remainder of two values of the type is one. -/
theorem tmod_mem {t : CInt} {x y : Int} (hx : t.InRange x) (hy : t.InRange y) (hy0 : y ≠ 0) :
    t.InRange (x.tmod y) := by
  have habs := Int.natAbs_tmod x y
  have hlt : x.natAbs % y.natAbs < y.natAbs := Nat.mod_lt _ (by omega)
  unfold InRange at *
  cases hs : t.signed <;> simp only [hs, Bool.false_eq_true, ↓reduceIte] at hx hy ⊢
  · have := Int.tmod_nonneg y hx.1
    omega
  · omega

theorem convert_tdiv_neg_one (t : CInt) (x : Int) : t.convert (x.tdiv (-1)) = t.convert (-x) := by
  rw [Int.tdiv_neg, Int.tdiv_one]

/-- `MIN / -1` reduces to `MIN`: the quotient `-MIN` is one past the range. -/
theorem convert_min_tdiv_neg_one {t : CInt} (hs : t.signed = true) :
    t.convert ((-t.half).tdiv (-1)) = -t.half := by
  rw [convert_tdiv_neg_one, neg_neg]
  simp only [convert, hs, ↓reduceIte]
  rw [← two_mul, ← modulus_eq, Int.emod_self, zero_sub]

/-- The integer promotions keep every value. -/
theorem InRange.promote {t : CInt} {v : Int} (h : t.InRange v) : t.promote.InRange v := by
  cases t <;> simp [InRange, CInt.promote, signed, half, modulus, width] at h ⊢ <;> omega

theorem common_self (t : CInt) : common t t = t := by
  simp [common]

end CInt

/-- Integer expressions as the emitter writes them. -/
inductive CExpr where
  /-- An operand written as text that C reads as one primary expression: a name, a constant or
  a parenthesised expression, of type `t` and with value `v`. -/
  | operand (text : String) (t : CInt) (v : Int)
  /-- A cast `(T)e`. -/
  | cast (t : CInt) (e : CExpr)
  /-- Parentheses `(e)`. -/
  | paren (e : CExpr)
  /-- `a op b` for `+ - * / %`. -/
  | arith (op : BinaryOp) (a b : CExpr)
  /-- `a == b`. -/
  | eq (a b : CExpr)
  /-- `c ? a : b`. -/
  | cond (c a b : CExpr)
deriving Repr

namespace CExpr

/-- The type C gives an expression. -/
def type : CExpr → CInt
  | .operand _ t _ | .cast t _ => t
  | .paren e => e.type
  | .arith _ a b => CInt.common a.type.promote b.type.promote
  | .eq .. => .i32
  | .cond _ a b => CInt.common a.type.promote b.type.promote

/-- The text of an expression, as the emitter writes it. -/
def render : CExpr → String
  | .operand text _ _ => text
  | .cast t e => "(" ++ t.cName ++ ")" ++ e.render
  | .paren e => "(" ++ e.render ++ ")"
  | .arith op a b => a.render ++ " " ++ op.symbol ++ " " ++ b.render
  | .eq a b => a.render ++ " == " ++ b.render
  | .cond c a b => c.render ++ " ? " ++ a.render ++ " : " ++ b.render

/-- The value of an expression, when its evaluation is defined. -/
def eval : CExpr → Option Int
  | .operand _ _ v => some v
  | .cast t e => e.eval.map t.convert
  | .paren e => e.eval
  | .arith op a b => do
    let t := CInt.common a.type.promote b.type.promote
    let x ← a.eval
    let y ← b.eval
    t.arith op (t.convert x) (t.convert y)
  | .eq a b => do
    let t := CInt.common a.type.promote b.type.promote
    let x ← a.eval
    let y ← b.eval
    pure (if t.convert x = t.convert y then 1 else 0)
  | .cond c a b => do
    let t := CInt.common a.type.promote b.type.promote
    if (← c.eval) ≠ 0 then a.eval.map t.convert else b.eval.map t.convert

@[simp] theorem type_operand (text : String) (t : CInt) (v : Int) : (operand text t v).type = t :=
  rfl

@[simp] theorem type_cast (t : CInt) (e : CExpr) : (cast t e).type = t := rfl

@[simp] theorem type_paren (e : CExpr) : (paren e).type = e.type := rfl

@[simp] theorem eval_operand (text : String) (t : CInt) (v : Int) :
    (operand text t v).eval = some v := rfl

@[simp] theorem eval_cast (t : CInt) (e : CExpr) : (cast t e).eval = e.eval.map t.convert := rfl

@[simp] theorem eval_paren (e : CExpr) : (paren e).eval = e.eval := rfl

variable {a b c : CExpr} {x y : Int}

/-- An operation converts both values to the common type of the promoted operands. -/
theorem eval_arith (op : BinaryOp) (ha : a.eval = some x) (hb : b.eval = some y) :
    (arith op a b).eval =
      (CInt.common a.type.promote b.type.promote).arith op
        ((CInt.common a.type.promote b.type.promote).convert x)
        ((CInt.common a.type.promote b.type.promote).convert y) := by
  simp [eval, ha, hb]

theorem eval_eq (ha : a.eval = some x) (hb : b.eval = some y) :
    (eq a b).eval = some (if (CInt.common a.type.promote b.type.promote).convert x =
      (CInt.common a.type.promote b.type.promote).convert y then 1 else 0) := by
  simp [eval, ha, hb]

/-- A condition that is not zero selects the second operand, and only it is evaluated. -/
theorem eval_cond_of_ne_zero (hc : c.eval = some x) (hx : x ≠ 0) :
    (cond c a b).eval = a.eval.map (CInt.common a.type.promote b.type.promote).convert := by
  simp [eval, hc, hx]

/-- A condition that is zero selects the third operand, and only it is evaluated. -/
theorem eval_cond_of_eq_zero (hc : c.eval = some 0) :
    (cond c a b).eval = b.eval.map (CInt.common a.type.promote b.type.promote).convert := by
  simp [eval, hc]

end CExpr

end AmLang
