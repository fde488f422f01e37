import AmLang.Proofs.Emit.CIntegers
/-!
# Generated integer arithmetic

The emitter never lets C do integer arithmetic in a signed type or in a type narrower than
`int`. It writes `+ - *` and negation in the unsigned type `uint32_t` (`uint64_t` for the
64-bit kinds) and converts the result back to the kind; it writes `/ %` after a test that leaves
the function when the divisor is zero, and for a signed kind with a branch for the divisor `-1`,
whose quotient alone can fall outside the range.

Read with the semantics of `CIntegers`, the expressions it writes are defined on every value of
every kind and give the exact result reduced into the kind's range:

* `eval_wrapped`, `eval_negated`: `+ - *` and negation, as congruences modulo `2 ^ N`.
* `eval_divisorArg`, `eval_divided`: the divisor test refuses exactly zero, and past it the
  quotient and remainder are the truncated ones, `MIN / -1` giving `MIN` and `MIN % -1` giving 0.
* `arithmetic_of_isRing`, `negation_eq`, `arithmetic_of_divides`: the text the emitter writes is
  the rendering of these expressions, the test emitted before the value.
* `eval_agrees_with_interpreter`: these values are the ones the interpreter computes.
* `generated_integer_arithmetic` joins them.
-/

namespace AmLang

namespace CInt

/-- The unsigned type the emitter computes a kind's arithmetic in. -/
def wide (t : CInt) : CInt := if t.width = 64 then .u64 else .u32

/-- The kind as a type of the language. -/
def ty (t : CInt) : Ty := .prim t.prim false

theorem cType_ty (t : CInt) : t.ty.cType = t.cName := by
  cases t <;> rfl

theorem prim?_ty (t : CInt) : t.ty.prim? = some t.prim := rfl

theorem isFloating_prim (t : CInt) : t.prim.isFloating = false := by
  cases t <;> rfl

theorem wrapType_prim (t : CInt) : EmitM.wrapType t.prim = t.wide.cName := by
  cases t <;> rfl

theorem wide_signed (t : CInt) : t.wide.signed = false := by
  cases t <;> rfl

theorem promote_wide (t : CInt) : t.wide.promote = t.wide := by
  cases t <;> rfl

theorem common_u32_wide (t : CInt) : common .u32 t.wide = t.wide := by
  cases t <;> rfl

theorem modulus_dvd_wide (t : CInt) : t.modulus ∣ t.wide.modulus :=
  pow_dvd_pow 2 (by cases t <;> decide)

/-- Reduction in the wide type keeps the residue modulo the kind's `2 ^ N`. -/
theorem wide_convert_modEq (t : CInt) (v : Int) : t.wide.convert v ≡ v [ZMOD t.modulus] :=
  (t.wide.convert_modEq v).of_dvd t.modulus_dvd_wide

theorem zero_mem (t : CInt) : t.InRange 0 := by
  cases t <;> decide

/-- Every value of a kind lies in `[-2 ^ 63, 2 ^ 64)`. -/
theorem InRange.bounds {t : CInt} {v : Int} (h : t.InRange v) :
    -2 ^ 63 ≤ v ∧ v < 2 ^ 64 := by
  cases t <;> simp [InRange, signed, half, modulus, width] at h ⊢ <;> omega

end CInt

namespace CExpr

open CInt

/-- `0u`. -/
def zeroU : CExpr := .operand "0u" .u32 0

/-- `-1`. -/
def minusOne : CExpr := .operand "-1" .i32 (-1)

/-- `((T)((W)(a) op (W)(b)))`: a ring operation done in the kind's wide unsigned type and
converted back. -/
def wrapped (t : CInt) (op : BinaryOp) (a b : CExpr) : CExpr :=
  .paren (.cast t (.paren (.arith op (.cast t.wide (.paren a)) (.cast t.wide (.paren b)))))

/-- `(T)(0u - (W)(a))`: negation done in the wide unsigned type and converted back. -/
def negCast (t : CInt) (a : CExpr) : CExpr :=
  .cast t (.paren (.arith .sub zeroU (.cast t.wide (.paren a))))

@[simp] theorem type_negCast (t : CInt) (a : CExpr) : (negCast t a).type = t := rfl

/-- `((T)(0u - (W)(a)))`. -/
def negated (t : CInt) (a : CExpr) : CExpr := .paren (negCast t a)

/-- `(int64_t)d`: the divisor as the runtime's test takes it. -/
def divisorArg (d : CExpr) : CExpr := .cast .i64 d

/-- A quotient or remainder by the divisor `d` once the test has passed: the plain operation in
an unsigned kind; in a signed kind, a branch that gives `-a` or `0` for the divisor `-1`. -/
def divided (t : CInt) (op : BinaryOp) (a d : CExpr) : CExpr :=
  if t.signed then
    .paren (.cond (.eq d minusOne)
      (if op = .div then negCast t a else .cast t (.operand "0" .i32 0))
      (.cast t (.paren (.arith op a d))))
  else .paren (.arith op a d)

variable {t : CInt} {x y : Int}

/-! ## Ring operations and negation -/

/-- Converting twice to the wide type keeps the residue modulo the kind's `2 ^ N`. -/
theorem wide_convert_twice_modEq (t : CInt) (v : Int) :
    t.wide.convert (t.wide.convert v) ≡ v [ZMOD t.modulus] :=
  (t.wide_convert_modEq _).trans (t.wide_convert_modEq v)

/-- `+ - *` written in the wide type give the exact result reduced into the kind, for all
operands: the unsigned operation never overflows, and reduction modulo `2 ^ 32` or `2 ^ 64`
keeps the residue modulo the kind's `2 ^ N`. -/
theorem eval_wrapped {op : BinaryOp} (hop : IsRing op) (l r : String) (x y : Int) :
    (wrapped t op (.operand l t x) (.operand r t y)).eval = some (t.convert (ringValue op x y)) := by
  have hop' : (CExpr.arith op (.cast t.wide (.paren (.operand l t x)))
      (.cast t.wide (.paren (.operand r t y)))).eval = some (t.wide.convert
        (ringValue op (t.wide.convert (t.wide.convert x)) (t.wide.convert (t.wide.convert y)))) := by
    have ha : (CExpr.cast t.wide (.paren (.operand l t x))).eval = some (t.wide.convert x) := rfl
    have hb : (CExpr.cast t.wide (.paren (.operand r t y))).eval = some (t.wide.convert y) := rfl
    rw [eval_arith op ha hb]
    simp only [type_cast, promote_wide, common_self, arith_of_isRing hop,
      result_of_unsigned t.wide_signed]
  simp only [wrapped, eval_paren, eval_cast, hop', Option.map_some]
  congr 1
  apply t.convert_congr
  exact (t.wide_convert_modEq _).trans
    (ringValue_modEq hop (wide_convert_twice_modEq t x) (wide_convert_twice_modEq t y))

theorem eval_negCast (l : String) (x : Int) :
    (negCast t (.operand l t x)).eval = some (t.convert (-x)) := by
  have hsub : (CExpr.arith .sub zeroU (.cast t.wide (.paren (.operand l t x)))).eval =
      some (t.wide.convert (t.wide.convert 0 - t.wide.convert (t.wide.convert x))) := by
    have hb : (CExpr.cast t.wide (.paren (.operand l t x))).eval = some (t.wide.convert x) := rfl
    rw [eval_arith .sub rfl hb]
    simp only [zeroU, type_operand, type_cast, show CInt.promote .u32 = .u32 from rfl, promote_wide,
      common_u32_wide, arith_of_isRing (Or.inr (Or.inl rfl)), ringValue,
      result_of_unsigned t.wide_signed]
  simp only [negCast, eval_cast, eval_paren, hsub, Option.map_some]
  congr 1
  apply t.convert_congr
  have h0 : t.wide.convert 0 ≡ 0 [ZMOD t.modulus] := t.wide_convert_modEq 0
  have h := (t.wide_convert_modEq _).trans (h0.sub (wide_convert_twice_modEq t x))
  rwa [zero_sub] at h

/-- Negation written as `0u - a` in the wide type gives `-a` reduced into the kind. -/
theorem eval_negated (l : String) (x : Int) :
    (negated t (.operand l t x)).eval = some (t.convert (-x)) :=
  eval_negCast l x

/-! ## Division and remainder -/

/-- The divisor the runtime tests is zero exactly when the divisor is. -/
theorem eval_divisorArg (hy : t.InRange y) (d : String) :
    (divisorArg (.operand d t y)).eval = some (CInt.i64.convert y) ∧
      (CInt.i64.convert y = 0 ↔ y = 0) := by
  refine ⟨rfl, ?_⟩
  have hb := hy.bounds
  simp only [CInt.convert, CInt.signed, CInt.half, CInt.modulus, CInt.width, ↓reduceIte]
  omega

/-- An operation on two operands of one kind is done in its promoted type, where both keep their
values. -/
theorem eval_arith_operands (hx : t.InRange x) (hy : t.InRange y) (op : BinaryOp) (l d : String) :
    (CExpr.arith op (.operand l t x) (.operand d t y)).eval = t.promote.arith op x y := by
  simp [eval, type, common_self, convert_of_mem hx.promote, convert_of_mem hy.promote]

theorem promote_arith_div (hx : t.InRange x) (hy : t.InRange y) (hy0 : y ≠ 0)
    (hmin : t.signed = false ∨ y ≠ -1) : t.promote.arith .div x y = some (x.tdiv y) := by
  simp only [CInt.arith, hy0, ↓reduceIte]
  exact result_of_mem (tdiv_mem hx hy hy0 hmin).promote

theorem promote_arith_mod (hx : t.InRange x) (hy : t.InRange y) (hy0 : y ≠ 0)
    (hmin : t.signed = false ∨ y ≠ -1) : t.promote.arith .mod x y = some (x.tmod y) := by
  simp only [CInt.arith, hy0, ↓reduceIte]
  rw [result_of_mem (tdiv_mem hx hy hy0 hmin).promote]
  rfl

/-- The test `d == -1` of a signed kind compares the divisor's value with `-1`. -/
theorem eval_eq_minusOne (hs : t.signed = true) (hy : t.InRange y) (d : String) :
    (CExpr.eq (.operand d t y) minusOne).eval = some (if y = -1 then 1 else 0) := by
  have hb := hy.bounds
  cases t <;> simp [CInt.signed] at hs <;>
    simp [eval, minusOne, type, CInt.promote, CInt.common, CInt.convert, CInt.signed, CInt.half,
      CInt.modulus, CInt.width, CInt.InRange] at hy ⊢ <;> omega

/-- A value of the kind, once promoted, keeps its value. -/
theorem promote_convert_convert (t : CInt) (v : Int) : t.promote.convert (t.convert v) = t.convert v :=
  convert_of_mem (t.convert_mem v).promote

/-- Past the test, the quotient and remainder are the truncated ones reduced into the kind. In a
signed kind the divisor `-1` takes the branch, so `MIN / -1` gives `MIN` and `MIN % -1` gives 0,
and the one division C leaves undefined is never evaluated. -/
theorem eval_divided {op : BinaryOp} (hop : op = .div ∨ op = .mod) (hx : t.InRange x)
    (hy : t.InRange y) (hy0 : y ≠ 0) (l d : String) :
    (divided t op (.operand l t x) (.operand d t y)).eval =
      some (t.convert (if op = .div then x.tdiv y else x.tmod y)) := by
  unfold divided
  cases hs : t.signed
  · -- an unsigned kind divides with no branch
    simp only [Bool.false_eq_true, ↓reduceIte, eval_paren, eval_arith_operands hx hy]
    rcases hop with rfl | rfl
    · rw [promote_arith_div hx hy hy0 (.inl hs), if_pos rfl,
        convert_of_mem (tdiv_mem hx hy hy0 (.inl hs))]
    · rw [promote_arith_mod hx hy hy0 (.inl hs), if_neg (by decide),
        convert_of_mem (tmod_mem hx hy hy0)]
  · -- a signed kind tests `d == -1`; both branches have the kind's type
    simp only [↓reduceIte, eval_paren]
    by_cases hm : y = -1
    · rw [eval_cond_of_ne_zero (eval_eq_minusOne hs hy d) (by simp [hm])]
      rcases hop with rfl | rfl
      · simp only [↓reduceIte, eval_negCast, type_negCast, type_cast, common_self,
          Option.map_some, promote_convert_convert, hm, convert_tdiv_neg_one]
      · simp only [reduceCtorEq, ↓reduceIte, eval_cast, eval_operand, type_cast, common_self,
          Option.map_some, promote_convert_convert, hm, Int.tmod_neg, Int.tmod_one]
    · rw [eval_cond_of_eq_zero (by rw [eval_eq_minusOne hs hy d, if_neg hm])]
      rcases hop with rfl | rfl
      · simp only [↓reduceIte, eval_cast, eval_paren, eval_arith_operands hx hy,
          promote_arith_div hx hy hy0 (.inr hm), type_negCast, type_cast, common_self,
          Option.map_some, promote_convert_convert]
      · simp only [reduceCtorEq, ↓reduceIte, eval_cast, eval_paren, eval_arith_operands hx hy,
          promote_arith_mod hx hy hy0 (.inr hm), type_cast, common_self, Option.map_some,
          promote_convert_convert]

end CExpr

namespace EmitM

open CInt CExpr

/-- The runtime's `aml_check_divisor`: it accepts a divisor other than zero, and for zero sets
the pending exception and refuses. -/
def checkDivisor (v : Int) : Bool := v != 0

/-- The test written before a division: when the runtime refuses the divisor `arg`, the
function unwinds. -/
def guardDivisor (arg : CExpr) : EmitM Unit := do
  emitLine ("if (!aml_check_divisor(" ++ arg.render ++ ")) \x7b")
  pushIndent
  emitUnwind
  popIndent
  emitLine "\x7d"

/-- `+ - *` on a kind are written as `wrapped`. -/
theorem arithmetic_of_isRing {op : BinaryOp} (hop : IsRing op) (t : CInt) (left right : String)
    (x y : Int) :
    arithmetic op left right t.ty =
      pure (wrapped t op (.operand left t x) (.operand right t y)).render := by
  have hnd : (op != .div && op != .mod) = true := by
    rcases hop with rfl | rfl | rfl <;> rfl
  simp only [arithmetic, prim?_ty, Option.getD_some, isFloating_prim, Bool.false_eq_true,
    ↓reduceIte, hnd, cType_ty, wrapType_prim, wrapped, render]
  congr 1
  apply String.toList_injective
  simp only [String.toList_append]
  simp

/-- Negation on a kind is written as `negated`. -/
theorem negation_eq (t : CInt) (v : String) (x : Int) :
    negation t.ty v = (negated t (.operand v t x)).render := by
  simp only [negation, prim?_ty, Option.getD_some, isFloating_prim, Bool.false_eq_true,
    ↓reduceIte, cType_ty, wrapType_prim, negated, negCast, zeroU, render, BinaryOp.symbol]
  apply String.toList_injective
  simp only [String.toList_append]
  simp

/-- `/ %` on a kind: the divisor goes to a fresh temporary, the runtime tests it, and only then
is the quotient or remainder written, as `divided`. -/
theorem arithmetic_of_divides {op : BinaryOp} (hop : op = .div ∨ op = .mod) (t : CInt)
    (left right : String) (x y : Int) :
    arithmetic op left right t.ty = (do
      let d ← valueTemp t.ty
      emitLine (d ++ " = " ++ right ++ ";")
      guardDivisor (divisorArg (.operand d t y))
      pure (divided t op (.operand left t x) (.operand d t y)).render) := by
  have hnd : (op != .div && op != .mod) = false := by
    rcases hop with rfl | rfl <;> rfl
  have hguard (d : String) : "if (!aml_check_divisor((int64_t)" ++ d ++ ")) \x7b" =
      "if (!aml_check_divisor(" ++ (divisorArg (.operand d t y)).render ++ ")) \x7b" := by
    apply String.toList_injective
    simp [divisorArg, render, CInt.cName]
  unfold arithmetic
  simp only [prim?_ty, Option.getD_some, isFloating_prim, Bool.false_eq_true, ↓reduceIte, hnd,
    wrapType_prim, cType_ty, prim_isSigned]
  refine bind_congr fun d => bind_congr fun _ => ?_
  simp only [guardDivisor, bind_assoc, hguard]
  refine bind_congr fun _ => bind_congr fun _ => bind_congr fun _ => bind_congr fun _ =>
    bind_congr fun _ => ?_
  -- the value: the plain operation for an unsigned kind, the branch on `-1` for a signed one
  unfold divided
  have hdiv : (BinaryOp.div == BinaryOp.div) = true := rfl
  have hmod : (BinaryOp.mod == BinaryOp.div) = false := rfl
  rcases hop with rfl | rfl <;> cases t.signed <;> simp only [Bool.not_false, Bool.not_true,
    Bool.false_eq_true, hdiv, hmod, reduceCtorEq, ↓reduceIte] <;>
    congr 1 <;> apply String.toList_injective <;>
    simp [render, negCast, zeroU, minusOne, BinaryOp.symbol]

end EmitM

/-! ## The interpreter's arithmetic -/

section Interpreter

open CInt CExpr

theorem Value.arith_int_div (k : Prim) (x y : Int) : Value.arith .div k (.int x) (.int y) =
    if y = 0 then none else if k.isSigned = true ∧ y = -1 then some (.int (k.wrap (-x)))
    else some (.int (k.wrap (x.tdiv y))) := by
  simp [Value.arith, Value.toInt]

theorem Value.arith_int_mod (k : Prim) (x y : Int) : Value.arith .mod k (.int x) (.int y) =
    if y = 0 then none else if k.isSigned = true ∧ y = -1 then some (.int 0)
    else some (.int (k.wrap (x.tmod y))) := by
  simp [Value.arith, Value.toInt]

variable {t : CInt} {x y : Int}

/-- **The generated arithmetic computes what the interpreter computes**: on values of a kind,
the interpreter's `+ - *`, negation, `/` and `%` are the values of the expressions the emitter
writes, and the interpreter fails a division exactly where the runtime's test refuses it. -/
theorem generated_arithmetic_matches_interpreter (hx : t.InRange x) (hy : t.InRange y)
    (l r d : String) :
    (∀ op, IsRing op → Value.arith op t.prim (.int x) (.int y) =
      (wrapped t op (.operand l t x) (.operand r t y)).eval.map .int) ∧
    Value.negate t.prim (.int x) = ((negated t (.operand l t x)).eval.map .int).getD (.int 0) ∧
    (∀ op, op = .div ∨ op = .mod →
      (Value.arith op t.prim (.int x) (.int y) = none ↔ y = 0) ∧
      (y ≠ 0 → Value.arith op t.prim (.int x) (.int y) =
        (divided t op (.operand l t x) (.operand d t y)).eval.map .int)) := by
  refine ⟨fun op hop => ?_, ?_, fun op hop => ⟨?_, fun hy0 => ?_⟩⟩
  · rw [eval_wrapped hop, convert_eq_wrap]
    rcases hop with rfl | rfl | rfl <;> rfl
  · rw [eval_negated, convert_eq_wrap]
    rfl
  · rcases hop with rfl | rfl <;> by_cases hy0 : y = 0 <;>
      simp [Value.arith_int_div, Value.arith_int_mod, hy0] <;> split <;> simp
  · rw [eval_divided hop hx hy hy0]
    -- the interpreter's own case for the divisor `-1` is the truncated quotient and remainder
    by_cases hm : t.prim.isSigned = true ∧ y = -1
    · obtain ⟨hsg, rfl⟩ := hm
      have hr : t.convert (x.tmod (-1)) = 0 := by
        rw [Int.tmod_neg, Int.tmod_one]
        exact convert_of_mem t.zero_mem
      rcases hop with rfl | rfl
      · simp only [Value.arith_int_div, hy0, hsg, and_self, ↓reduceIte, Option.map_some,
          convert_tdiv_neg_one]
        rw [convert_eq_wrap]
      · simp only [Value.arith_int_mod, hy0, hsg, and_self, reduceCtorEq, ↓reduceIte,
          Option.map_some, hr]
    · rcases hop with rfl | rfl
      · simp only [Value.arith_int_div, hy0, hm, ↓reduceIte, Option.map_some, convert_eq_wrap]
      · simp only [Value.arith_int_mod, hy0, hm, reduceCtorEq, ↓reduceIte, Option.map_some,
          convert_eq_wrap]

end Interpreter

/-! ## The whole statement -/

section Generated

open CInt CExpr

/-- **Generated integer arithmetic is two's complement arithmetic without undefined behaviour.**
For every integer kind and all values `x`, `y` of it: `+ - *` and negation are written as
expressions that C evaluates, with no undefined step, to the exact result reduced into the
kind; `/` and `%` are written after a test of the divisor, which the runtime refuses, so that the
function unwinds, exactly when the divisor is zero, and past it C evaluates them to the
truncated quotient and remainder reduced into the kind, `MIN / -1` giving `MIN` and
`MIN % -1` giving 0. Compound assignments write their operation through the same
`arithmetic`. -/
theorem generated_integer_arithmetic (t : CInt) (left right : String) (x y : Int)
    (hx : t.InRange x) (hy : t.InRange y) :
    (∀ op, IsRing op →
      EmitM.arithmetic op left right t.ty =
        pure (wrapped t op (.operand left t x) (.operand right t y)).render ∧
      (wrapped t op (.operand left t x) (.operand right t y)).eval =
        some (Prim.wrap t.prim (ringValue op x y))) ∧
    (EmitM.negation t.ty left = (negated t (.operand left t x)).render ∧
      (negated t (.operand left t x)).eval = some (Prim.wrap t.prim (-x))) ∧
    (∀ op, op = .div ∨ op = .mod →
      EmitM.arithmetic op left right t.ty = (do
        let d ← EmitM.valueTemp t.ty
        EmitM.emitLine (d ++ " = " ++ right ++ ";")
        EmitM.guardDivisor (divisorArg (.operand d t y))
        pure (divided t op (.operand left t x) (.operand d t y)).render) ∧
      ∀ d, ∃ v, (divisorArg (.operand d t y)).eval = some v ∧
        (EmitM.checkDivisor v = false ↔ y = 0) ∧
        (y ≠ 0 → (divided t op (.operand left t x) (.operand d t y)).eval =
          some (Prim.wrap t.prim (if op = .div then x.tdiv y else x.tmod y)))) ∧
    (t.signed = true → Prim.wrap t.prim ((-t.half).tdiv (-1)) = -t.half ∧
      Prim.wrap t.prim ((-t.half).tmod (-1)) = 0) := by
  refine ⟨fun op hop => ⟨EmitM.arithmetic_of_isRing hop t left right x y, ?_⟩,
    ⟨EmitM.negation_eq t left x, ?_⟩, fun op hop => ⟨EmitM.arithmetic_of_divides hop t left right x y,
      fun d => ⟨_, (eval_divisorArg hy d).1, ?_, fun hy0 => ?_⟩⟩, fun hs => ⟨?_, ?_⟩⟩
  · rw [eval_wrapped hop, convert_eq_wrap]
  · rw [eval_negated, convert_eq_wrap]
  · simp only [EmitM.checkDivisor, bne_eq_false_iff_eq]
    exact (eval_divisorArg hy d).2
  · rw [eval_divided hop hx hy hy0, convert_eq_wrap]
  · rw [← convert_eq_wrap, convert_min_tdiv_neg_one hs]
  · rw [Int.tmod_neg, Int.tmod_one, ← convert_eq_wrap]
    exact convert_of_mem t.zero_mem

/-- At the least `Byte`, `-128 / -1` is written past the divisor test and evaluates to `-128`. -/
theorem generated_byte_min_div_neg_one : CInt.i8.InRange (-128) ∧ CInt.i8.InRange (-1) ∧
    (divided .i8 .div (.operand "a" .i8 (-128)) (.operand "d" .i8 (-1))).eval = some (-128) := by
  refine ⟨by decide, by decide, ?_⟩
  obtain ⟨-, -, hdiv, -⟩ :=
    generated_integer_arithmetic .i8 "a" "b" (-128) (-1) (by decide) (by decide)
  obtain ⟨v, -, -, hval⟩ := (hdiv .div (.inl rfl)).2 "d"
  rw [hval (by decide)]
  rfl

end Generated

end AmLang
