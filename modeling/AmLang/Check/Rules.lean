import AmLang.Check.Members
import AmLang.Numeric.Double
/-!
# Typing rules

The rules of checking that look at already checked operands: assignability with its
null-safety diagnosis, the operators, casts and type tests, the type two branches join to, and
the flow facts a condition establishes. A failing rule reports its diagnostic and gives the error
type; an operand of the error type fails silently, so one mistake is reported once.

## Flow facts

A nullable local compared with `null`, or tested with `is`, is narrowed to a non-null type where
the test holds: `x != null` narrows `x` when true, `x == null` when false, `!c` swaps, and `a && b`
(true) or `a || b` (false) combines the facts of both sides.
-/

namespace AmLang

namespace Ty

/-- The type both `a` and `b` convert to: `Never` gives way to the other, then either type if
the other converts to it, then the other made nullable when one is `null`, then the numeric join
(nullable if either is). -/
def common (env : ClassEnv) (a b : Ty) : Option Ty :=
  if a.isNever then some b
  else if b.isNever then some a
  else if Ty.canConvert env b a then some a
  else if Ty.canConvert env a b then some b
  else match a, b with
    | .null, _ => if b.isUnit then none else some (b.withNullable true)
    | _, .null => if a.isUnit then none else some (a.withNullable true)
    | _, _ => (numericJoin a b).map (·.withNullable (a.nullable || b.nullable))

/-- Whether this is `Char`, nullable or not. -/
def isChar (t : Ty) : Bool := t.isPrim .char

end Ty

namespace TypedExpr

/-- The value of an unsuffixed integer literal. -/
def intLiteral? : TypedExpr → Option Int
  | .mk (.literal tok) _ _ =>
    if tok.kind == .intLit then match tok.value with
      | .number (.int v) => some v
      | _ => none
    else none
  | _ => none

/-- Whether the expression is the literal `null`. -/
def isNullLiteral : TypedExpr → Bool
  | .mk (.literal tok) _ _ => tok.kind == .nullLit
  | _ => false

end TypedExpr

/-- The facts a checked condition establishes when it is `whenTrue`; `locals` gives the declared
types of locals. -/
def narrowingsOf (locals : Array LocalSymbol) : TypedExpr → Bool → Narrowings
  | .mk (.unary .not operand) _ _, whenTrue => narrowingsOf locals operand !whenTrue
  | .mk (.binary op left right) _ _, whenTrue =>
    if (op == .and && whenTrue) || (op == .or && !whenTrue) then
      narrowingsOf locals left whenTrue ++ narrowingsOf locals right whenTrue
    else if op == .eq || op == .ne then
      let operand := if right.isNullLiteral then some left
        else if left.isNullLiteral then some right else none
      let nonNull := (op == .ne) == whenTrue
      match operand.bind TypedExpr.localOf? with
      | some x =>
        let declared := (locals.getD x default).type
        if nonNull && declared.nullable then [(x, declared.withNullable false)] else []
      | none => []
    else []
  | .mk (.typeTest operand) _ i, true =>
    match operand.localOf?, i.targetType with
    | some x, some t => if t.isError then [] else [(x, t.withNullable false)]
    | _, _ => []
  | _, _ => []

/-- The key of a constant case value, telling equal constants apart: a literal, or a negated
numeric literal. Floating values count as equal when they agree to six decimal places. -/
def caseKey (e : Expr) : Option String :=
  let (negated, inner) := match e with
    | .mk (.unary .neg inner) _ => (true, inner)
    | _ => (false, e)
  let sign := if negated then "-" else ""
  match inner with
  | .mk (.literal tok) _ => match tok.kind, tok.value with
    | .intLit, .number (.int v) => some ("n:" ++ sign ++ toString v)
    | .intLit, .number (.long v) => some ("n:" ++ sign ++ toString v)
    | .floatLit, .number (.float b) | .floatLit, .number (.double b) =>
      let parts := DoubleBits.decode b
      let text := match parts.value with
        | .finite m ex => (if parts.negative then "-" else "") ++ toString (scaledRound m ex 6)
        | .infinite => if parts.negative then "-inf" else "inf"
        | .nan => if parts.negative then "-nan" else "nan"
      some ("f:" ++ sign ++ text)
    | .stringLit, _ => if negated then none else some ("s:" ++ tok.text)
    | .charLit, .char c => if negated then none else some ("c:" ++ toString c)
    | .boolLit, .bool b => if negated then none else some (if b then "b:true" else "b:false")
    | .nullLit, _ => if negated then none else some "null"
    | _, _ => none
  | _ => none

namespace CheckM

/-- Checks that a value of type `source` may be stored where `target` is expected; `what` names
the place in the message, and `value` is the checked value when there is one (an integer literal
that fits the target is accepted). A conversion that fails only for nullability is a null-safety
violation. -/
def checkAssignable (source target : Ty) (span : Span) (what : String)
    (value : Option TypedExpr) : CheckM Bool := do
  if source.isError || target.isError || (← converts source target) then return true
  if let some v := value.bind TypedExpr.intLiteral? then
    if literalFits v target then return true
  if !target.nullable && (← converts source (target.withNullable true)) then
    nullSafetyNoted (what ++ " may be null: '" ++ (← display source) ++
      "' is not assignable to '" ++ (← display target) ++ "'") span
      ["check for null first, or use '?.'"]
  else
    mismatch (what ++ ": expected '" ++ (← display target) ++ "', found '" ++
      (← display source) ++ "'") span
  pure false

/-- Checks the type of a condition: `Bool`, and not nullable. -/
def checkCondition (t : Ty) (span : Span) : CheckM Unit := do
  if t.isError || t.isNever then return
  if !t.isBool then mismatch ("condition must be Bool, found '" ++ (← display t) ++ "'") span
  else if t.nullable then nullSafety "condition of type 'Bool?' may be null" span

/-- The expression with the way its value is written into a string. -/
def setStringify (e : TypedExpr) : CheckM TypedExpr := do
  let k := StringifyKind.ofType e.type
  let t ← table
  let toStringFn := if k == .object then t.objectToString else e.info.toStringFn
  pure (e.withInfo { e.info with stringify := k, toStringFn })

/-- The type of `-x` or `~x` for an operand of type `t`. -/
def unaryType (op : UnaryOp) (t : Ty) (span : Span) : CheckM Ty := do
  if t.isError then return t
  match op with
  | .neg =>
    if !t.isNumeric || t.nullable then
      mismatch ("operator '-' needs a non-null numeric operand, found '" ++ (← display t) ++ "'")
        span
      return .error
    pure t
  | .bitNot =>
    if !t.isIntegral || t.nullable then
      mismatch ("operator '~' needs a non-null integer operand, found '" ++ (← display t) ++ "'")
        span
      return .error
    pure t
  | .not => pure Ty.bool

/-- What a binary operator gives for checked operands that are not of the error type: its
result type, and whether it concatenates strings. A local compared with `null` keeps its
declared nullability, whatever it was narrowed to. -/
def binaryType (op : BinaryOp) (left right : TypedExpr) (span : Span) : CheckM (Ty × Bool) := do
  let l := left.type
  let r := right.type
  let env ← env
  let opMismatch : CheckM (Ty × Bool) := do
    mismatch ("operator '" ++ op.symbol ++ "' cannot be applied to '" ++ (← display l) ++
      "' and '" ++ (← display r) ++ "'") span
    pure (.error, false)
  let nullOperand : CheckM (Ty × Bool) := do
    nullSafetyNoted ("operand of '" ++ op.symbol ++ "' may be null") span ["check for null first"]
    pure (.error, false)
  let arithmetic : CheckM (Ty × Bool) := do
    match Ty.numericJoin l r with
    | none => opMismatch
    | some j => if l.nullable || r.nullable then nullOperand else pure (j, false)
  match op with
  | .add =>
    if l.classOf? == some stringClass || r.classOf? == some stringClass then
      pure (SymbolTable.stringType false, true)
    else arithmetic
  | .sub | .mul | .div | .mod => arithmetic
  | .lt | .le | .gt | .ge =>
    if (Ty.numericJoin l r).isNone && !(l.isChar && r.isChar) then opMismatch
    else if l.nullable || r.nullable then nullOperand
    else pure (Ty.bool, false)
  | .eq | .ne =>
    if l.isNull || r.isNull then
      let (other, otherNode) := if l.isNull then (r, right) else (l, left)
      let declaredNullable ← match otherNode.localOf? with
        | some x => do pure (← localVar x).type.nullable
        | none => pure false
      if !other.nullable && !declaredNullable && !other.isReference then
        mismatch ("'" ++ (← display other) ++ "' is never null") span
        return (.error, false)
      return (Ty.bool, false)
    let l' := l.withNullable false
    let r' := r.withNullable false
    let ok := (Ty.numericJoin l' r').isSome || Ty.equal l' r' ||
      (l'.isReference && r'.isReference &&
        (Ty.canConvert env l' r' || Ty.canConvert env r' l'))
    if ok then pure (Ty.bool, false) else opMismatch
  | .and | .or => opMismatch

/-- What a compound assignment `x op= v` gives, for a current target type and a value type that
are not of the error type: the value's type as stored, and whether it concatenates strings. -/
def compoundType (op : AssignOp) (current value : Ty) (span : Span) : CheckM (Ty × Bool) := do
  if op == .add && current.classOf? == some stringClass then
    return (SymbolTable.stringType false, true)
  let joined := Ty.numericJoin current value
  let fits := match joined with
    | some j => Ty.equal j (current.withNullable false)
    | none => false
  if !fits then
    mismatch ("operator '" ++ op.symbol ++ "' cannot be applied to '" ++ (← display current) ++
      "' and '" ++ (← display value) ++ "'") span
  else if current.nullable || value.nullable then
    nullSafety ("operand of '" ++ op.symbol ++ "' may be null") span
  pure (joined.getD value, false)

/-- The type of a cast of a value of type `source` to `target`. Numeric and `Char` values convert
among each other; references convert up, and down (or across an interface, or to and from a
generic parameter) with a check when the program runs. -/
def castType (source target : Ty) (span : Span) : CheckM Ty := do
  if source.isError || target.isError then return target
  let env ← env
  let t ← table
  let s' := source.withNullable false
  let t' := target.withNullable false
  let isInterface := fun (x : Ty) => match x.classOf? with
    | some c => (t.cls c).isInterface
    | none => false
  let isParam := fun (x : Ty) => match x with
    | .param .. => true
    | _ => false
  let numeric := (s'.isNumeric || s'.isChar) && (t'.isNumeric || t'.isChar)
  let upcast := Ty.canConvert env s' t'
  let downcast := s'.isReference && t'.isReference &&
    (Ty.canConvert env t' s' ||
      (s'.classOf?.isSome && t'.classOf?.isSome && (isInterface s' || isInterface t')) ||
      isParam t' || isParam s')
  if source.isNull then
    if !target.nullable then
      nullSafety ("cannot cast null to non-null '" ++ (← display target) ++ "'") span
    return target
  if !(numeric || upcast || downcast) then
    mismatch ("cannot cast '" ++ (← display source) ++ "' to '" ++ (← display target) ++ "'") span
    return .error
  if numeric && source.nullable && !target.nullable then
    nullSafetyNoted ("cannot cast nullable '" ++ (← display source) ++ "' to '" ++
      (← display target) ++ "'") span ["check for null first"]
  pure target

/-- Checks a type test of a value of type `source` for `target`: the target must be a class,
interface or array type, and the value a reference. -/
def checkTypeTest (source target : Ty) (operandSpan typeSpan : Span) : CheckM Unit := do
  if source.isError || target.isError then return
  let testable := match target with
    | .obj .. | .array .. => true
    | _ => false
  if !testable then
    mismatch ("'is' needs a class, interface or array type, found '" ++ (← display target) ++ "'")
      typeSpan
  else if !source.isReference then
    mismatch ("'is' needs a reference operand, found '" ++ (← display source) ++ "'") operandSpan

/-- The type of an `if` expression with branches of types `a` and `b`, where an expected type
may reconcile them. -/
def branchType (a b : Ty) (expected : Option Ty) (span : Span) : CheckM Ty := do
  if a.isError || b.isError then return .error
  let env ← env
  if let some j := Ty.common env a b then
    if !j.isNull then return j
  if let some e := expected then
    if Ty.canConvert env a e && Ty.canConvert env b e then return e
  mismatch ("branches of 'if' have incompatible types '" ++ (← display a) ++ "' and '" ++
    (← display b) ++ "'") span
  pure .error

end CheckM

end AmLang
