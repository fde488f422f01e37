import AmLang.Run.Machine
import AmLang.Check.Tree
/-!
# Running checked code

The meaning of checked expressions and statements: what the C generated for them does when it
runs, against the runtime's objects, strings, arrays, closures and boxes. Each construct takes
its steps in the order its C takes them:

* An operand runs its statements where it stands and is read where it is used, as its C is:
  a name, a field, an array element, and a unary, arithmetic or comparison operation on such
  operands are pure C expressions, read by the statement that uses them, after the statements
  of the operands to their right. Calls, allocations, strings, `?.`, boxing, unboxing and
  checked downcasts are statements and give temporaries.
* An assignment runs its value's statements, then its target's, then reads the value and
  stores it; a compound assignment runs its target's statements (with a bounds check), then its
  value's, then reads both.
* A call runs the statements of its receiver and of its arguments (each converted to the
  parameter type the call sees), then reads them all and dispatches: through the receiver's
  class for a virtual call, through the class's interface tables for an interface call,
  directly otherwise. A `?.` call tests its receiver first; on null it evaluates no argument
  and gives the zero value.
* `&&` and `||` whose right side has statements read their left side at once and run the right
  side only when it decides; otherwise both sides are read together where the operation is used.
* Division checks its divisor when both operands' statements have run; integer arithmetic
  wraps.
* A string is built by running the statements of every piece left to right (an object piece
  through its `toString` at once), then reading the pieces and writing them out.
* A lambda copies the locals it captures when it is created; each call starts from the copies.
* A switch evaluates its subject once; a clause runs the statements of all its case values
  before their tests are made; clauses are tried in order with `default` last, and do not fall
  through.
* `throw` of an exception propagates to the top (the language has no `catch`); throwing `null`
  leaves the function with its zero value and nothing pending, as the runtime's unwinding does.

Generic code runs in an instance: the activation carries what the instance puts in for the
generic parameters, and every type the code looks at is read through it, so conversions happen
per instance as in the monomorphic C.

The functions call each other through calls and lambdas, so they form one recursive family over
a fuel argument that bounds the depth of evaluation; loops and calls also spend the machine's
steps.
-/

namespace AmLang

/-- How a statement ends. -/
inductive Flow where
  | normal
  | breakLoop
  | continueLoop
  | returned (v : Value)

/-- A place an assignment stores into. -/
inductive Place where
  | local (x : LocalId)
  | global (f : FieldId)
  | field (obj : Value) (f : FieldId)
  | element (addr index : Nat)

/-- A piece of a string being built: text, or a read of a value of a type, made when the
pieces are written out. -/
inductive PieceValue where
  | text (s : String)
  | read (r : RunM Value) (t : Ty)

/-- The bound on loop iterations and calls of one run. -/
def stepBudget : Nat := 200000000

/-- The number of iterations one loop may take at most. -/
def loopBound : Nat := stepBudget

namespace RunM

/-! ## Conversions -/

/-- A primitive of type `t` boxed; an empty nullable primitive stays null. -/
def box (v : Value) (t : Ty) : Value :=
  match t with
  | .prim k n => if n && v == .null then .null else Value.box k v
  | _ => v

/-- An object unboxed into primitive type `target`: null gives an empty nullable primitive (or
throws for a non-null target); a box of another family throws. -/
def unbox (v : Value) (target : Ty) : RunM Value := do
  let k := target.prim?.getD .int
  match v with
  | .null => if target.nullable then pure .null else throwMessage "cannot unbox null"
  | .boxed fam x =>
    if fam == k.boxKind then pure (Value.unboxed k fam x)
    else throwMessage "cannot unbox a different type"
  | _ => throwMessage "cannot unbox a different type"

/-- Converts a value of type `source` to `target`, as the generated code does. -/
def coerce (v : Value) (source target : Ty) : RunM Value := do
  if source.equal target || target.isUnit || source.isNever then return v
  if source.isNull then return Value.zero target
  match source, target with
  | .prim a an, .prim b bn =>
    if an && v == .null then return (if bn then .null else Value.zero (.prim b false))
    pure (v.convert a b)
  | .prim .., _ => pure (box v source)
  | _, .prim .. => unbox v target
  | _, _ => pure v

/-- Arithmetic in type `t`, as a C expression computes it: integer arithmetic wraps, and an
integer divisor has been checked before (`arithmeticOperand`), so the quotient a zero divisor
lacks never shows. -/
def arithmetic (op : BinaryOp) (t : Ty) (l r : Value) : Value :=
  (Value.arith op (t.prim?.getD .int) l r).getD (Value.zero t)

/-- The text a settled piece of a string contributes: strings as they are, primitives by their
family, and `null` for an empty nullable primitive or a null string. -/
def pieceText (v : Value) (t : Ty) : String :=
  match StringifyKind.ofType t with
  | .string => match v with
    | .str s => s
    | _ => "null"
  | .nullable => match t with
    | .prim k _ => if v == .null then "null" else Value.primText k v
    | _ => "null"
  | .signed | .unsigned | .float | .bool | .char => Value.primText (t.prim?.getD .int) v
  | _ => ""

/-- Whether two values are the same object. -/
def identical (a b : Value) : Bool :=
  match a, b with
  | .ref x, .ref y => x == y
  | .null, .null => true
  | _, _ => false

/-- Whether two strings are equal, either of them possibly null. -/
def stringsEqual (a b : Value) : Bool :=
  match a, b with
  | .str x, .str y => x == y
  | .null, .null => true
  | _, _ => false

/-! ## Operands

The C of an operand is a pure expression, evaluated only by the statement that uses it, or a
temporary that statements before it filled. An operand is therefore evaluated in two parts:
the statements, run where the operand stands, and a read, made where it is used. -/

/-- Whether a conversion is a C expression, read where it is used; boxing, unboxing and a change
of kind between nullable primitives are statements. -/
def convertsInPlace (source target : Ty) : Bool :=
  if source.equal target || target.isUnit || source.isNever || source.isNull then true
  else match source, target with
    | .prim a an, .prim b bn => !(an && bn && a != b)
    | .prim .., _ => false
    | _, .prim .. => false
    | _, _ => true

/-- A read converted from `source` to `target`: in place, or at once when the conversion is a
statement. -/
def coerceOperand (read : RunM Value) (source target : Ty) : RunM (RunM Value) := do
  if convertsInPlace source target then return do coerce (← read) source target
  let v ← coerce (← read) source target
  pure (pure v)

/-- Arithmetic on two reads: integer division and remainder check their divisor at once, as
their C does in a statement, and read the dividend where the result is used. -/
def arithmeticOperand (op : BinaryOp) (t : Ty) (left right : RunM Value) :
    RunM (RunM Value) := do
  let k := t.prim?.getD .int
  if k.isFloating || (op != .div && op != .mod) then
    return do pure (arithmetic op t (← left) (← right))
  let divisor ← right
  if divisor.toInt k == 0 then throwMessage "division by zero"
  pure (do pure (arithmetic op t (← left) divisor))

/-! ## Places -/

/-- The value at a place. -/
def readPlace : Place → RunM Value
  | .local x => getLocal x
  | .global f => global f
  | .field obj f => readField obj f
  | .element a i => do
    match ← cell? a with
    | some (.array items) => pure (items.getD i .null)
    | _ => crash 11

/-- Stores a value at a place. -/
def writePlace : Place → Value → RunM Unit
  | .local x, v => setLocal x v
  | .global f, v => setGlobal f v
  | .field obj f, v => writeField obj f v
  | .element a i, v => do
    match ← cell? a with
    | some (.array _) => updateCell a fun c => match c with
      | .array items => .array (items.set! i v)
      | c => c
    | _ => crash 11

/-- Whether a field is storage: a static field or a namespace variable. -/
def isStorage (f : FieldId) : RunM Bool := do
  let fd := (← table).field f
  pure (fd.isStatic || fd.owner.isNone)

/-- A field of an object, or the storage of a static field or namespace variable. -/
def fieldOf (obj : Value) (f : FieldId) : RunM Value := do
  if ← isStorage f then global f else readField obj f

/-- The running `self`; code that has none crashes on it. -/
def self : RunM Value := do
  match (← get).frame.self with
  | some v => pure v
  | none => crash 11

/-- A field named without a receiver: storage, or a field of `self`. -/
def ownField (f : FieldId) : RunM Value := do
  if ← isStorage f then global f else readField (← self) f

/-- The place of a field named without a receiver. -/
def ownFieldPlace (f : FieldId) : RunM Place := do
  if ← isStorage f then pure (.global f) else pure (.field (← self) f)

/-- The element slot of an array at an index, after the bounds check that throws. -/
def elementAt (array : Value) (index : Int) : RunM Place := do
  match array with
  | .ref a => match ← cell? a with
    | some (.array items) =>
      if index < 0 || index ≥ items.size then
        throwMessage ("array index " ++ toString index ++ " out of bounds for length " ++
          toString items.size)
      pure (.element a index.toNat)
    | _ => crash 11
  | _ => crash 11

/-- What a member access reads from its receiver: an array's length, or a field. -/
def memberRead (info : ExprInfo) (object : Value) : RunM Value := do
  if info.arrayLength then
    match object with
    | .ref a => match ← cell? a with
      | some (.array items) => pure (.int items.size)
      | _ => crash 11
    | _ => crash 11
  else match info.field with
    | some f => readField object f
    | none => pure .unit

/-- Whether a value is an instance of a non-null type: an array of any element type, any
object for `Object`, or an instance of the type's class. -/
def typeTest (target : Ty) (v : Value) : RunM Value := do
  match target with
  | .array .. =>
    match v with
    | .ref a => match ← cell? a with
      | some (.array _) => pure (.bool true)
      | _ => pure (.bool false)
    | _ => pure (.bool false)
  | _ =>
    if target.classOf? == some objectClass then return .bool (v != .null)
    pure (.bool (← instanceOf v ((← layout).className target)))

/-- The element slot of an array at an index, without a check: the C of an element whose
bounds were checked before it. -/
def elementSlot (array : Value) (index : Int) : RunM Place := do
  match array with
  | .ref a => pure (.element a index.toNat)
  | _ => crash 11

/-! ## Looking up code -/

/-- A function's checked body with the unit it belongs to. -/
def typedFunction? (f : FunctionId) : RunM (Option (Nat × TypedFunction)) := do
  let p := (← layout).program
  match (p.table.fn f).unit with
  | some u => pure (((p.units.getD u default).functions.get? f).map (u, ·))
  | none => pure none

/-- A field's checked initializer with the unit it belongs to. -/
def fieldInitializer? (f : FieldId) : RunM (Option (Nat × TypedExpr)) := do
  let p := (← layout).program
  match (p.table.field f).unit with
  | some u => pure (((p.units.getD u default).initializers.get? f).map (u, ·))
  | none => pure none

/-- What the instance of a function reached through `receiver` with its own arguments `fnArgs`
puts in for generic parameters: a generic function's instance, the view of a generic class's
method from the receiver, or nothing. -/
def calleeSubst (l : Layout) (f : FunctionId) (receiver : Option Ty) (fnArgs : List Ty) : Subst :=
  let fs := l.table.fn f
  let ownerGeneric := (fs.owner.map fun o => (l.table.cls o).isGeneric).getD false
  if fs.isGeneric then
    let classArgs := if ownerGeneric && receiver.isSome && !fs.flags.isStatic then
        match l.ownerView f receiver with
        | some (.obj _ args _) => args
        | _ => []
      else []
    match l.program.instances.findFunction? l.env f classArgs fnArgs with
    | some inst => inst.subst l.table
    | none => (fs.generics.zip fnArgs).foldl (fun s (x, t) => Subst.set s x t) []
  else if fs.owner.isNone || fs.flags.isStatic then []
  else ((l.ownerView f receiver).map (·.substOf l.env)).getD []

/-- A new `Exception` with a message, thrown. -/
def throwWith {α : Type} (message : Value) : RunM α := do
  let t ← table
  let ex ← newObject (.obj exceptionClass [] false)
  if let some m := (t.cls exceptionClass).fields.head? then writeField ex m message
  throw (.thrown ex)

/-- The text of `Object.toString`: the class name and an address. -/
def objectText (v : Value) : RunM String := do
  let k ← classOf v
  let addr := match v with
    | .ref a => 0x1000 + 32 * a
    | _ => 0x1000
  pure (k.name (← layout) ++ "@" ++ String.ofList (Nat.toDigits 16 addr))

/-- A method of `String` on a string. -/
def stringMethod (name : String) (s : String) (args : List Value) : RunM Value := do
  let arg := fun (i : Nat) => (args.getD i .null).toInt .int
  match name with
  | "aml_String__length" => pure (.int s.length)
  | "aml_String__charAt" =>
    let i := arg 0
    if i < 0 || i ≥ s.length then throwMessage "string index out of range"
    pure (.int ((s.toList.getD i.toNat '\x00').toNat))
  | "aml_String__substring" =>
    let a := arg 0
    let b := arg 1
    if a < 0 || b < a || b > s.length then throwMessage "substring range out of bounds"
    pure (.str (String.ofList ((s.toList.drop a.toNat).take (b - a).toNat)))
  | "aml_String__isEmpty" => pure (.bool s.isEmpty)
  | "aml_String__toString" => pure (.str s)
  | "aml_String__equals" => pure (.bool (stringsEqual (.str s) (args.getD 0 .null)))
  | "aml_String__hashCode" => pure (.int (hashString s))
  | _ => pure .unit

/-- The class name an uncaught exception is reported by when its `toString` throws. -/
def className (v : Value) : RunM String := do pure ((← classOf v).name (← layout))

end RunM

/-- The longest message of a failed downcast, in bytes: the runtime formats it into a buffer of
256 bytes, the last of which ends the text. -/
def castMessageLimit : Nat := 255

/-- The signature a call of `f` sees: its own type arguments and, for a method of a generic
class reached through a receiver, the receiver's view of the class put in. -/
def callSignature (l : Layout) (f : FunctionId) (receiver : Option Ty) (fnArgs : List Ty) :
    CSignature :=
  let fs := l.table.fn f
  let ownerGeneric := match fs.owner with
    | some o => (l.table.cls o).isGeneric && !(l.table.cls o).isBuiltin
    | none => false
  let classSubst := if ownerGeneric && receiver.isSome then
      ((l.ownerView f receiver).map (·.substOf l.env)).getD []
    else []
  l.signature f ((fs.generics.zip fnArgs).foldl (fun s (x, t) => Subst.set s x t) classSubst)

/-- How an instance call dispatches once its receiver's type is known: through a generic
parameter, as a method of a primitive, virtually on a non-null reference, or through the
runtime's generic helpers. -/
def CallKind.resolve (kind : CallKind) (receiverType : Ty) : CallKind :=
  if kind == .generic then
    if receiverType.prim?.isSome then .primitive
    else if !receiverType.nullable then .virtual else .generic
  else kind

/-- Whether a method of `Object` called on a primitive is a C expression rather than a call
statement: `equals` and `hashCode` of a primitive that is not nullable. -/
def CallKind.inPlace (kind : CallKind) (receiverType : Ty) (name : String) : Bool :=
  (kind == .primitive || kind == .generic) && !receiverType.isReference &&
    !receiverType.isNullablePrimitive && name != "toString"

/-- Whether the left side of `&&` or `||` decides the operation: `false` for `&&`, `true` for
`||`. -/
def BinaryOp.decidedBy (op : BinaryOp) (v : Value) : Bool :=
  if op == .and then v != .bool true else v == .bool true

open RunM in
/-- Whether the C of an expression converted to `target` needs no statement before it. Such C
is a pure expression, read only where it is used. -/
def quietAs : Nat → TypedExpr → Ty → RunM Bool
  | 0, _, _ => pure true
  | n + 1, e@(.mk k _ info), target => do
    let t ← typeOf e
    if !convertsInPlace t target then return false
    match k with
    | .literal _ | .ident _ | .thisRef | .superRef | .unchecked => pure true
    | .unary _ operand => quietAs n operand t
    | .binary op l r =>
      let lt ← typeOf l
      let rt ← typeOf r
      let join := (Ty.numericJoin (lt.withNullable false) (rt.withNullable false)).getD
        (lt.withNullable false)
      match op with
      | .and | .or => pure ((← quietAs n l Ty.bool) && (← quietAs n r Ty.bool))
      | .eq | .ne =>
        if lt.isNull && rt.isNull then return true
        if lt.isNull || rt.isNull then
          let other := if lt.isNull then r else l
          if let some x := other.info.localVar then
            if (← localType x).isNullablePrimitive then return true
          return ← quietAs n other (← typeOf other)
        match lt, rt with
        | .prim .., .prim .. =>
          let side := if lt.nullable || rt.nullable then join.withNullable true else join
          pure ((← quietAs n l side) && (← quietAs n r side))
        | _, _ =>
          let object := SymbolTable.objectType true
          let strings := lt.classOf? == some stringClass && rt.classOf? == some stringClass
          pure (strings && (← quietAs n l object) && (← quietAs n r object))
      | .lt | .le | .gt | .ge => pure ((← quietAs n l join) && (← quietAs n r join))
      | _ =>
        let kind := t.prim?.getD .int
        if info.stringConcat || (!kind.isFloating && (op == .div || op == .mod)) then
          return false
        pure ((← quietAs n l t) && (← quietAs n r t))
    | .member obj _ _ =>
      if let some f := info.field then
        let fd := (← table).field f
        if fd.isStatic || fd.owner.isNone then return true
      if info.safeChain then return false
      quietAs n obj (← typeOf obj)
    | .call callee args =>
      if info.callKind == .closure then return false
      let some f := info.function | return true
      let l ← layout
      let receiver ← info.receiverType.mapM ty
      let sig := callSignature l f receiver (← info.typeArgs.mapM ty)
      let argsQuiet ← (args.zip sig.params).allM fun (a, p) => quietAs n a p
      match info.callKind with
      | .superConstructor =>
        pure (argsQuiet && ((l.table.fn f).owner.map fun o => (l.table.cls o).isRoot).getD false)
      | .free | .static => pure false
      | _ =>
        if info.safeChain then return false
        let receiverType := receiver.getD Ty.error
        let objectQuiet ← match callee with
          | .mk (.member obj _ _) _ _ => quietAs n obj (← typeOf obj)
          | _ => pure true
        match info.callKind.resolve receiverType with
        | .virtual | .interface | .direct => pure false
        | kind@.primitive | kind@.generic =>
          pure (objectQuiet && argsQuiet && kind.inPlace receiverType (l.table.fn f).name &&
            convertsInPlace sig.result t)
        | _ => pure (objectQuiet && argsQuiet)
    | .cast operand =>
      let goal ← ty (info.targetType.getD Ty.error)
      let source ← typeOf operand
      if source.isNull then return ← quietAs n operand source
      if source.prim?.isSome || goal.prim?.isSome then return ← quietAs n operand goal
      if Ty.canConvert (← env) source goal then return ← quietAs n operand source
      pure false
    | .typeTest operand =>
      let source ← typeOf operand
      if source.prim?.isSome then return false
      quietAs n operand source
    | _ => pure false

open RunM in
mutual

/-- An expression as an operand: runs the statements its C runs where the expression stands,
and gives the read its C expression makes where the operand is used. Names, fields, elements,
unary and binary operations read in place; calls, allocations, strings, boxing and checked
conversions run at once. -/
def evalOperand : Nat → TypedExpr → RunM (RunM Value)
  | 0, _ => throw .exhausted
  | n + 1, e@(.mk k _ info) => do
    match k with
    | .literal tok => pure (evalLiteral e tok)
    | .ident _ =>
      if let some x := info.localVar then return getLocal x
      match info.field with
      | some f => pure (ownField f)
      | none => pure (pure .unit)
    | .thisRef | .superRef => pure self
    | .unary op operand => do
      let t ← typeOf e
      let read ← evalOperandAs n operand t
      let kind := t.prim?.getD .int
      pure do
        let v ← read
        match op with
        | .not => pure (.bool (v != .bool true))
        | .bitNot => pure (Value.complement kind v)
        | .neg => pure (Value.negate kind v)
    | .binary op l r => evalBinary n e op l r
    | .assign op target value => pure <$> evalAssign n e op target value
    | .call callee args => evalCall n e callee args
    | .member obj _ _ => evalMember n e obj
    | .index obj idx => do
      let slot ← evalElement n obj idx
      pure (do readPlace (← slot))
    | .newObject args => pure <$> evalNew n e args
    | .newArray size => pure <$> do
      let element := match ← typeOf e with
        | .array el _ => el
        | _ => Ty.error
      let sizeType ← typeOf size
      let s := (← evalExpr n size).toInt (sizeType.prim?.getD .int)
      if s < 0 || s > 2147483647 then throwMessage "invalid array size"
      alloc (.array (Array.replicate s.toNat (Value.zero element)))
    | .interpolation segs =>
      let pieces := segs.map fun seg => match seg with
        | .text text => Sum.inl text
        | .expr x => Sum.inr x
      pure <$> evalString n pieces []
    | .arrayLit elems => pure <$> do
      let element := match ← typeOf e with
        | .array el _ => el
        | _ => Ty.error
      -- the elements' statements, then the array, then the elements read into it in order
      let reads ← evalOperands n elems (elems.map fun _ => element)
      let values ← reads.mapM id
      alloc (.array values.toArray)
    | .lambda params body => pure <$> evalLambda n e params body
    | .cast operand => evalCast n e operand
    | .typeTest operand => evalTypeTest n e operand
    | .cond c a b => pure <$> do
      let t ← typeOf e
      let condition ← evalAs n c Ty.bool
      let arm := if condition == .bool true then a else b
      let armType ← typeOf arm
      let read ← evalOperand n arm
      if t.isUnit || t.isNever || armType.isNever then pure .unit else coerce (← read) armType t
    | .unchecked => pure (pure .unit)

/-- An expression as an operand converted to `target`. -/
def evalOperandAs : Nat → TypedExpr → Ty → RunM (RunM Value)
  | 0, _, _ => throw .exhausted
  | n + 1, e, target => do
    let read ← evalOperand n e
    coerceOperand read (← typeOf e) target

/-- The value of an expression, read where it stands. -/
def evalExpr : Nat → TypedExpr → RunM Value
  | 0, _ => throw .exhausted
  | n + 1, e => do
    let read ← evalOperand n e
    read

/-- The value of an expression converted to `target`, read where it stands. -/
def evalAs : Nat → TypedExpr → Ty → RunM Value
  | 0, _, _ => throw .exhausted
  | n + 1, e, target => do
    let read ← evalOperandAs n e target
    read

/-- Expressions as operands, each converted to its type: their statements in order, giving
their reads. -/
def evalOperands : Nat → List TypedExpr → List Ty → RunM (List (RunM Value))
  | 0, _, _ => throw .exhausted
  | _ + 1, [], _ => pure []
  | _ + 1, _, [] => pure []
  | n + 1, a :: as, p :: ps => do
    let read ← evalOperandAs n a p
    let reads ← evalOperands n as ps
    pure (read :: reads)

/-- Call arguments, each converted to its parameter's type: the statements of all of them,
then their values, read when the call is made. -/
def evalArgs : Nat → List TypedExpr → List Ty → RunM (List Value)
  | 0, _, _ => throw .exhausted
  | n + 1, args, params => do
    let reads ← evalOperands n args params
    reads.mapM id

/-- The receiver of a member access as an operand: `self` for `this` and `super`. -/
def evalReceiver : Nat → TypedExpr → RunM (RunM Value)
  | 0, _ => throw .exhausted
  | n + 1, obj => match obj with
    | .mk .thisRef _ _ | .mk .superRef _ _ => pure self
    | _ => evalOperand n obj

/-- The value of a literal. -/
def evalLiteral (e : TypedExpr) (tok : Token) : RunM Value := do
  let t ← typeOf e
  let k := t.prim?.getD .int
  match tok.kind, tok.value with
  | .intLit, .number (.int v) | .intLit, .number (.long v) =>
    pure (Value.convert (.int v) .long k)
  | .floatLit, .number (.float bits) | .floatLit, .number (.double bits) =>
    pure (Value.convert (.double bits) .double k)
  | .stringLit, .text s => pure (.str s)
  | .charLit, .char c => pure (.int (Prim.wrap .char c))
  | .boolLit, .bool b => pure (.bool b)
  | _, _ => pure .null

/-- A member access as an operand; through `?.` the receiver is tested at once and the member
read into a temporary, the zero value when the receiver is null. -/
def evalMember : Nat → TypedExpr → TypedExpr → RunM (RunM Value)
  | 0, _, _ => throw .exhausted
  | n + 1, e, obj => do
    let info := e.info
    let t ← table
    let static := info.field.filter fun f => (t.field f).isStatic || (t.field f).owner.isNone
    if let some f := static then return global f
    let object ← evalReceiver n obj
    let receiver ← info.receiverType.mapM ty
    if !info.safeChain then return do memberRead info (← object)
    let resultType ← typeOf e
    let object ← object
    if object == .null then return pure (Value.zero resultType)
    let classes ← env
    let memberType := if info.arrayLength then Ty.int
      else match info.field with
        | some f =>
          let fd := t.field f
          let ft := fd.type.getD .error
          match receiver.bind fun r => fd.owner.bind fun o => Ty.ancestor classes r o with
          | some v => ft.substitute (v.type.substOf classes)
          | none => ft
        | none => Ty.int
    let v ← coerce (← memberRead info object) memberType resultType
    pure (pure v)

/-- The element slot of an array access: the statements of the array and the index, then the
bounds check that throws. The slot is found again where it is used, from the array and the
index read anew, as the C of an element names them twice. -/
def evalElement : Nat → TypedExpr → TypedExpr → RunM (RunM Place)
  | 0, _, _ => throw .exhausted
  | n + 1, obj, idx => do
    let array ← evalOperand n obj
    let index ← evalOperand n idx
    let indexType ← typeOf idx
    let position : RunM Int := do
      pure (Prim.wrap .long ((← index).toInt (indexType.prim?.getD .int)))
    let _ ← elementAt (← array) (← position)
    pure (do elementSlot (← array) (← position))

/-- The place an assignment target names. -/
def evalPlace : Nat → TypedExpr → RunM Place
  | 0, _ => throw .exhausted
  | n + 1, .mk k _ info => do
    match k with
    | .ident _ =>
      if let some x := info.localVar then return .local x
      match info.field with
      | some f => ownFieldPlace f
      | none => pure (.global 0)
    | .member obj _ _ =>
      match info.field with
      | some f =>
        let fd := (← table).field f
        if fd.isStatic || fd.owner.isNone then return .global f
        let object ← evalReceiver n obj
        pure (.field (← object) f)
      | none => pure (.global 0)
    | .index obj idx => do
      let slot ← evalElement n obj idx
      slot
    | _ => pure (.global 0)

/-- An assignment, which has no value: the value's statements, then the target's, then the
store of the value read; a compound assignment reads its target where the operation is made. -/
def evalAssign : Nat → TypedExpr → AssignOp → TypedExpr → TypedExpr → RunM Value
  | 0, _, _, _, _ => throw .exhausted
  | n + 1, e, op, target, value => do
    let targetType ← match target.info.localVar with
      | some x => localType x
      | none => typeOf target
    if op == .assign then
      let read ← evalOperandAs n value targetType
      let p ← evalPlace n target
      writePlace p (← read)
      return .unit
    let p ← evalPlace n target
    if e.info.stringConcat then
      let text ← evalString n [Sum.inr value] [.read (readPlace p) targetType]
      writePlace p text
      return .unit
    let operandType := targetType.withNullable false
    let read ← evalOperandAs n value operandType
    let current : RunM Value := do coerce (← readPlace p) targetType operandType
    let bop : BinaryOp := match op with
      | .sub => .sub
      | .mul => .mul
      | .div => .div
      | .mod => .mod
      | _ => .add
    let result ← arithmeticOperand bop operandType current read
    writePlace p (← coerce (← result) operandType targetType)
    pure .unit

/-- `new C(args)`: the arguments, a zeroed object, then the constructor. -/
def evalNew : Nat → TypedExpr → List TypedExpr → RunM Value
  | 0, _, _ => throw .exhausted
  | n + 1, e, args => do
    let info := e.info
    let l ← layout
    let (some c, some f) := (info.classRef, info.function) | pure .null
    let t := (← ty (info.receiverType.getD info.type)).withNullable false
    let k := l.table.cls c
    let (objectType, ctorSubst) := if k.isMock then (k.selfType c, ([] : Subst))
      else (t, t.substOf l.env)
    let sig := l.signature f ctorSubst
    let values ← evalArgs n args sig.params
    let obj ← newObject objectType
    let _ ← invoke n f ctorSubst (some objectType) (some obj) values
    pure obj

/-- A binary operation as an operand. -/
def evalBinary : Nat → TypedExpr → BinaryOp → TypedExpr → TypedExpr → RunM (RunM Value)
  | 0, _, _, _, _ => throw .exhausted
  | n + 1, e, op, l, r => do
    match op with
    | .and | .or => evalLogical n op l r
    | .eq | .ne => evalEquality n op l r
    | .lt | .le | .gt | .ge =>
      let lt ← typeOf l
      let rt ← typeOf r
      let join := (Ty.numericJoin (lt.withNullable false) (rt.withNullable false)).getD
        (lt.withNullable false)
      let left ← evalOperandAs n l join
      let right ← evalOperandAs n r join
      pure do pure (.bool (Value.compare op (← left) (← right)))
    | _ =>
      if e.info.stringConcat then
        let operands := (TypedExpr.concatOperands (n + 1) e).map fun x =>
          match x.stringLiteral? with
          | some text => Sum.inl text
          | none => Sum.inr x
        return pure (← evalString n operands [])
      let t ← typeOf e
      let left ← evalOperandAs n l t
      let right ← evalOperandAs n r t
      arithmeticOperand op t left right

/-- `&&` and `||` as an operand. A right side without statements is read together with the left
one, where the operation is used; otherwise the left side is read at once and decides whether
the right side's statements run. -/
def evalLogical : Nat → BinaryOp → TypedExpr → TypedExpr → RunM (RunM Value)
  | 0, _, _, _ => throw .exhausted
  | n + 1, op, l, r => do
    let left ← evalOperandAs n l Ty.bool
    if ← quietAs n r Ty.bool then
      let right ← evalOperandAs n r Ty.bool
      return do
        let a ← left
        if op.decidedBy a then return a
        right
    let a ← left
    if op.decidedBy a then return pure a
    let b ← evalAs n r Ty.bool
    pure (pure b)

/-- `==` and `!=` as an operand: null tests, primitive comparison after promotion, string
comparison, and `equals` for other references, which is called at once. -/
def evalEquality : Nat → BinaryOp → TypedExpr → TypedExpr → RunM (RunM Value)
  | 0, _, _, _ => throw .exhausted
  | n + 1, op, l, r => do
    let negate := op == .ne
    let result := fun (b : Bool) => Value.bool (if negate then !b else b)
    let lt ← typeOf l
    let rt ← typeOf r
    if lt.isNull && rt.isNull then return pure (result true)
    if lt.isNull || rt.isNull then
      let other := if lt.isNull then r else l
      let read ← match other.info.localVar with
        | some x => do
          if (← localType x).isNullablePrimitive then pure (getLocal x) else evalOperand n other
        | none => evalOperand n other
      return do pure (result ((← read) == .null))
    match lt, rt with
    | .prim .., .prim .. =>
      let join := (Ty.numericJoin (lt.withNullable false) (rt.withNullable false)).getD
        (lt.withNullable false)
      if lt.nullable || rt.nullable then
        let opt := join.withNullable true
        let left ← evalOperandAs n l opt
        let right ← evalOperandAs n r opt
        return do pure (result (Value.optEqual (← left) (← right)))
      let left ← evalOperandAs n l join
      let right ← evalOperandAs n r join
      pure do pure (result (Value.compare .eq (← left) (← right)))
    | _, _ =>
      let object := SymbolTable.objectType true
      let left ← evalOperandAs n l object
      let right ← evalOperandAs n r object
      if lt.classOf? == some stringClass && rt.classOf? == some stringClass then
        return do pure (result (stringsEqual (← left) (← right)))
      let b ← equalsOf n (← left) (← right)
      pure (pure (result b))

/-- A call as an operand, by how it reaches its target. -/
def evalCall : Nat → TypedExpr → TypedExpr → List TypedExpr → RunM (RunM Value)
  | 0, _, _, _ => throw .exhausted
  | n + 1, e, callee, args => do
    let info := e.info
    if info.callKind == .closure then return pure (← evalClosureCall n e callee args)
    let some f := info.function | return pure .unit
    let l ← layout
    let fs := l.table.fn f
    let receiver ← info.receiverType.mapM ty
    let fnArgs ← info.typeArgs.mapM ty
    let sig := callSignature l f receiver fnArgs
    let resultType ← typeOf e
    match info.callKind with
    | .superConstructor =>
      let values ← evalArgs n args sig.params
      let isRoot := (fs.owner.map fun o => (l.table.cls o).isRoot).getD false
      if isRoot then return pure .unit
      let superType := receiver.getD Ty.error
      let _ ← invoke n f (superType.substOf l.env) (some superType) (some (← self)) values
      pure (pure .unit)
    | .free | .static =>
      let values ← evalArgs n args sig.params
      let r ← invoke n f (calleeSubst l f receiver fnArgs) none none values
      if sig.result.isUnit || sig.result.isNever then pure (pure .unit)
      else pure <$> coerce r sig.result resultType
    | _ =>
      let object ← (match callee with
        | .mk (.member obj _ _) _ _ => evalReceiver n obj
        | _ => pure self)
      let receiverType := receiver.getD Ty.error
      let kind := info.callKind.resolve receiverType
      let done := sig.result.isUnit || sig.result.isNever
      if !info.safeChain then
        let call ← callInstance n kind f object receiverType fnArgs sig args
        if done then return pure .unit
        return ← coerceOperand call sig.result resultType
      -- through `?.` the receiver is tested at once and the result kept in a temporary
      if (← object) == .null then
        return pure (if resultType.isUnit then .unit else Value.zero resultType)
      let call ← callInstance n kind f object receiverType fnArgs sig args
      let r ← call
      if done then return pure .unit
      pure <$> coerce r sig.result resultType

/-- An instance call on a receiver known to be there, as an operand: the arguments'
statements, then the receiver and the arguments read and the dispatch. `equals` and `hashCode`
of a primitive are C expressions, made where they are used. -/
def callInstance : Nat → CallKind → FunctionId → RunM Value → Ty → List Ty → CSignature →
    List TypedExpr → RunM (RunM Value)
  | 0, _, _, _, _, _, _, _ => throw .exhausted
  | n + 1, kind, f, object, receiverType, fnArgs, sig, args => do
    let reads ← evalOperands n args sig.params
    let l ← layout
    let fs := l.table.fn f
    let call : RunM Value := do
      let value ← object
      let values ← reads.mapM id
      match kind with
      | .primitive | .generic => primitiveMethod n f value receiverType values
      | .virtual => virtualCall n (fs.slot.getD 0) value values
      | .interface =>
        let iface := match l.ownerView f (some receiverType) with
          | some v => l.className v
          | none => ""
        interfaceCall n iface (fs.slot.getD 0) value values
      | .direct =>
        let view := l.ownerView f (some receiverType)
        invoke n f (calleeSubst l f (some receiverType) fnArgs) view (some value) values
      | _ => pure .unit
    if kind.inPlace receiverType fs.name then return call
    let r ← call
    pure (pure r)

/-- `toString`, `equals` or `hashCode` of a primitive, a nullable primitive, or a generic
parameter's value that turned out to be a reference. -/
def primitiveMethod : Nat → FunctionId → Value → Ty → List Value → RunM Value
  | 0, _, _, _, _ => throw .exhausted
  | n + 1, f, value, receiverType, args => do
    let fs := (← table).fn f
    let name := fs.name
    let arg := args.headD .null
    if receiverType.isReference then
      if name == "toString" then return .str (← toStringOf n value)
      if name == "equals" then return .bool (← equalsOf n value arg)
      if value == .null then return .int 0
      return ← virtualCall n (fs.slot.getD 2) value []
    let k := receiverType.prim?.getD .int
    if receiverType.isNullablePrimitive then
      if name == "equals" then return .bool (← equalsOf n (box value receiverType) arg)
      if value == .null then
        return (if name == "toString" then .str "null" else .int 0)
    if name == "toString" then return .str (Value.primText k value)
    if name == "equals" then
      return .bool (match Value.box k value, arg with
        | .boxed a x, .boxed b y => Value.boxedEqual a x b y
        | _, _ => false)
    pure (.int (Value.primHash k value))

/-- A call through the receiver's dispatch table. -/
def virtualCall : Nat → Nat → Value → List Value → RunM Value
  | 0, _, _, _ => throw .exhausted
  | n + 1, slot, value, args => do
    let t ← table
    match value with
    | .null => crash 11
    | .boxed k x =>
      match slot with
      | 0 => pure (.str (Value.boxedText k x))
      | 1 => pure (.bool (match args.headD .null with
        | .boxed k' y => Value.boxedEqual k x k' y
        | _ => false))
      | _ => pure (.int (Value.boxedHash k x))
    | .str _ =>
      match (t.cls stringClass).vtable[slot]? with
      | some g => callEntry n g (SymbolTable.stringType false) value args
      | none => crash 11
    | _ =>
      match ← classOf value with
      | .cls type =>
        let k := t.cls (type.classOf?.getD objectClass)
        match k.vtable[slot]? with
        | some g => callEntry n g type value args
        | none => crash 11
      | _ =>
        match (t.cls objectClass).vtable[slot]? with
        | some g => callEntry n g (SymbolTable.objectType false) value args
        | none => crash 11

/-- A call through the table of interface `iface` found in the receiver's class or a
superclass; a class without one traps like an abstract method. -/
def interfaceCall : Nat → String → Nat → Value → List Value → RunM Value
  | 0, _, _, _, _ => throw .exhausted
  | n + 1, iface, slot, value, args => do
    if value == .null then crash 11
    let l ← layout
    let chain := RuntimeClass.chain l (l.table.classes.size + 2) (← classOf value)
    let found := chain.findSome? fun k => match k with
      | .cls type => match type.classOf? with
        | some c =>
          ((l.table.cls c).itables.find? fun i =>
            l.className (i.iface.substitute (type.substOf l.env)) == iface).map fun i =>
              (type, i.methods.getD slot none)
        | none => none
      | _ => none
    match found with
    | some (type, some g) => callEntry n g type value args
    | _ =>
      writeErr "amlang: abstract method called\n"
      crash 6

/-- Runs the dispatch table entry `g` of a class instance type on a receiver: abstract methods
trap, built-in ones run as the runtime does, generic ones have no entry. -/
def callEntry : Nat → FunctionId → Ty → Value → List Value → RunM Value
  | 0, _, _, _, _ => throw .exhausted
  | n + 1, g, type, value, args => do
    let l ← layout
    let gs := l.table.fn g
    if gs.flags.isAbstract then
      writeErr "amlang: abstract method called\n"
      crash 6
    if gs.isBuiltin then return ← builtin n gs.cName (some value) args
    if gs.isGeneric then crash 11
    let view := l.ownerView g (some type)
    invoke n g ((view.map (·.substOf l.env)).getD []) view (some value) args

/-- `aml_to_string`: `null`, or the value's `toString`. -/
def toStringOf : Nat → Value → RunM String
  | 0, _ => throw .exhausted
  | n + 1, v => do
    if v == .null then return "null"
    match ← virtualCall n 0 v [] with
    | .str s => pure s
    | _ => pure "null"

/-- `aml_equals`: null equals only null; otherwise the left value's `equals`. -/
def equalsOf : Nat → Value → Value → RunM Bool
  | 0, _, _ => throw .exhausted
  | n + 1, a, b => do
    if a == .null || b == .null then return a == b
    pure ((← virtualCall n 1 a [b]) == .bool true)

/-- A call of a function value; through `?.` the zero value when the value is null. The
function value is read when the call is made, after the arguments' statements. -/
def evalClosureCall : Nat → TypedExpr → TypedExpr → List TypedExpr → RunM Value
  | 0, _, _, _ => throw .exhausted
  | n + 1, e, callee, args => do
    let info := e.info
    let calleeInfo := callee.info
    let resultType ← typeOf e
    let (closure, funcType) ← match callee, calleeInfo.field with
      | .mk (.member obj _ _) _ _, some f => do
        let object ← evalReceiver n obj
        let funcType ← ty calleeInfo.type
        if calleeInfo.safeChain && (← object) == .null then pure (pure Value.null, funcType)
        else pure (do fieldOf (← object) f, funcType)
      | _, _ => do pure (← evalOperand n callee, ← typeOf callee)
    let guarded := calleeInfo.safeChain || info.safeChain
    if guarded && (← closure) == .null then
      return (if resultType.isUnit then .unit else Value.zero resultType)
    let (params, result) := match funcType.withNullable false with
      | .func ps r _ => (ps, r)
      | _ => ([], Ty.unit)
    let reads ← evalOperands n args params
    let target ← closure
    let values ← reads.mapM id
    let r ← callValue n target values
    if result.isUnit || result.isNever then pure .unit else coerce r result resultType

/-- Calls a function value with its arguments. -/
def callValue : Nat → Value → List Value → RunM Value
  | 0, _, _ => throw .exhausted
  | n + 1, closure, args => do
    tick
    let .ref a := closure | crash 11
    let some (.closure c) ← cell? a | crash 11
    within (c.frame args) do
      match c.body with
      | .expr b =>
        if c.result.isUnit then
          let _ ← evalOperand n b
          pure .unit
        else evalAs n b c.result
      | .block stmts =>
        match ← execStmts n stmts with
        | .returned v => pure v
        | _ => pure (Value.zero c.result)

/-- A lambda: a function value holding copies of the locals it captures and, when it uses
`this`, the running object. -/
def evalLambda : Nat → TypedExpr → List LocalId → TypedLambdaBody → RunM Value
  | 0, _, _, _ => throw .exhausted
  | _ + 1, e, params, body => do
    let info := e.info
    let type ← typeOf e
    let (paramTypes, result) := match type with
      | .func ps r _ => (ps, r)
      | _ => ([], Ty.unit)
    let fr ← frame
    let captured ← info.captures.mapM fun x => do pure (x, ← getLocal x)
    let selfValue := if info.capturesThis && fr.selfType.isSome then fr.self else none
    let resultType ← ty result
    alloc (.closure
      { unit := fr.unit, params, body, paramTypes, result := resultType, subst := fr.subst,
        self := selfValue, selfType := fr.selfType, captured })

/-- A string built from pieces: the statements of every piece left to right (an object piece's
`toString` at once), then every piece read and written out; `places` go first. -/
def evalString : Nat → List (String ⊕ TypedExpr) → List PieceValue → RunM Value
  | 0, _, _ => throw .exhausted
  | n + 1, pieces, places => do
    let mut settled : Array PieceValue := #[]
    for p in places do
      match p with
      | .read r t =>
        if StringifyKind.ofType t == .object then
          settled := settled.push (.text (← toStringOf n (← r)))
        else settled := settled.push p
      | other => settled := settled.push other
    for p in pieces do
      match p with
      | .inl text => settled := settled.push (.text text)
      | .inr x =>
        let r ← evalOperand n x
        let t ← typeOf x
        if t.isNull then settled := settled.push (.text "null")
        else if StringifyKind.ofType t == .object then
          settled := settled.push (.text (← toStringOf n (← r)))
        else settled := settled.push (.read r t)
    let mut out := ""
    for p in settled do
      match p with
      | .text s => out := out ++ s
      | .read r t => out := out ++ pieceText (← r) t
    pure (.str out)

/-- `x as T` as an operand: a conversion, an upcast as it is, or a checked downcast, which runs
at once. -/
def evalCast : Nat → TypedExpr → TypedExpr → RunM (RunM Value)
  | 0, _, _ => throw .exhausted
  | n + 1, e, operand => do
    let target ← ty (e.info.targetType.getD Ty.error)
    let source ← typeOf operand
    let read ← evalOperand n operand
    if source.isNull then return pure (Value.zero target)
    if source.prim?.isSome || target.prim?.isSome then return ← coerceOperand read source target
    if Ty.canConvert (← env) source target then return read
    let v ← read
    if v == .null then
      if target.nullable then return pure .null
      throwMessage "cannot cast null to a non-null type"
    let l ← layout
    let goal := RuntimeClass.ofType (target.withNullable false)
    if ← instanceOf v (goal.cName l) then return pure v
    let text := "cannot cast " ++ (← className v) ++ " to " ++ goal.name l
    throwMessage (String.ofList (text.toList.take castMessageLimit))

/-- `x is T` as an operand; a primitive is boxed at once. -/
def evalTypeTest : Nat → TypedExpr → TypedExpr → RunM (RunM Value)
  | 0, _, _ => throw .exhausted
  | n + 1, e, operand => do
    let target := (← ty (e.info.targetType.getD Ty.error)).withNullable false
    let source ← typeOf operand
    let read ← evalOperand n operand
    if source.isNull then return pure (.bool false)
    if source.prim?.isSome then
      let boxed := box (← read) source
      return pure (← typeTest target boxed)
    pure (do typeTest target (← read))

/-- Runs a function, method, constructor or test of the program or the runtime. -/
def invoke : Nat → FunctionId → Subst → Option Ty → Option Value → List Value → RunM Value
  | 0, _, _, _, _, _ => throw .exhausted
  | n + 1, f, subst, selfType, self, args => do
    tick
    let l ← layout
    let fs := l.table.fn f
    if fs.isBuiltin then return ← builtin n fs.cName self args
    if fs.flags.isConstructor then
      runConstructor n f subst selfType self args
      return .unit
    let some (u, tf) ← typedFunction? f | crash 11
    let sig := l.signature f subst
    let locals := (tf.params.zip args).foldl (fun m (x, v) => m.insert x v) ∅
    let frame : Frame := { unit := u, locals, self, selfType, subst, returnType := sig.result }
    within frame do
      match ← execStmts n (tf.body.getD []) with
      | .returned v => pure v
      | _ => pure (Value.zero sig.result)

/-- Runs a constructor on a new object: the superclass constructor, the class's own field
initializers, then the body. -/
def runConstructor : Nat → FunctionId → Subst → Option Ty → Option Value → List Value →
    RunM Unit
  | 0, _, _, _, _, _ => throw .exhausted
  | n + 1, f, subst, selfType, self, args => do
    let t ← table
    let fs := t.fn f
    let some c := fs.owner | return
    let k := t.cls c
    let typed ← typedFunction? f
    let u := match typed with
      | some (u, _) => u
      | none => (fs.unit.orElse fun _ => k.unit).getD 0
    let tf := typed.map (·.2)
    let locals := match tf with
      | some tf => (tf.params.zip args).foldl (fun m (x, v) => m.insert x v) ∅
      | none => ∅
    let frame : Frame := { unit := u, locals, self, selfType, subst, returnType := Ty.unit }
    within frame do
      let stmts := if fs.decl.isSome then (tf.bind (·.body)).getD [] else []
      let explicit := match stmts with
        | .mk (.exprStmt (.mk (.call (.mk .superRef _ _) _) _ _)) _ :: _ => true
        | _ => false
      if explicit then
        let _ ← execStmts n (stmts.take 1)
      else
        match fs.decl, k.isMock, fs.overrides with
        | none, true, some base => superCall n base args
        | _, _, _ =>
          let mut superCtor := if fs.decl.isSome then tf.bind (·.superConstructor) else none
          if fs.decl.isNone then
            if let some sup := k.superId? then
              if let some g := (t.cls sup).constructors.find? (fun g => (t.fn g).params.isEmpty) then
                superCtor := some g
          if let some sc := superCtor then superCall n sc []
      fieldInits n c
      let _ ← execStmts n (stmts.drop (if explicit then 1 else 0))

/-- Runs a superclass constructor on `self`, unless it is the root class's. -/
def superCall : Nat → FunctionId → List Value → RunM Unit
  | 0, _, _ => throw .exhausted
  | n + 1, ctor, args => do
    let l ← layout
    let some o := (l.table.fn ctor).owner | return
    if (l.table.cls o).isRoot then return
    let fr ← frame
    let some selfType := fr.selfType | return
    let some c := selfType.classOf? | return
    let some sup := (l.table.cls c).superclass | return
    let superType := sup.substitute (selfType.substOf l.env)
    let _ ← invoke n ctor (superType.substOf l.env) (some superType) fr.self args

/-- Stores the initial values of a class's own fields into `self`. -/
def fieldInits : Nat → ClassId → RunM Unit
  | 0, _ => throw .exhausted
  | n + 1, c => do
    let t ← table
    for f in (t.cls c).fields do
      let some (_, init) ← fieldInitializer? f | continue
      let fieldType ← ty ((t.field f).type.getD .error)
      let v ← evalAs n init fieldType
      writeField (← self) f v

/-- A function of the runtime, by its C name. -/
def builtin : Nat → String → Option Value → List Value → RunM Value
  | 0, _, _, _ => throw .exhausted
  | n + 1, name, selfValue, args => do
    let arg := args.headD .null
    let line := fun (s : String) => if name.startsWith "aml_println" then s ++ "\n" else s
    match name with
    | "aml_print_String" | "aml_println_String" =>
      write (line (match arg with
        | .str s => s
        | _ => "null"))
      pure .unit
    | "aml_print_Int" | "aml_println_Int" => do write (line (Value.primText .int arg)); pure .unit
    | "aml_print_Long" | "aml_println_Long" => do write (line (Value.primText .long arg)); pure .unit
    | "aml_print_ULong" | "aml_println_ULong" => do
      write (line (Value.primText .ulong arg)); pure .unit
    | "aml_print_Double" | "aml_println_Double" => do
      write (line (Value.primText .double arg)); pure .unit
    | "aml_print_Bool" | "aml_println_Bool" => do write (line (Value.primText .bool arg)); pure .unit
    | "aml_print_Char" | "aml_println_Char" => do write (line (Value.primText .char arg)); pure .unit
    | "aml_print_Object" | "aml_println_Object" => do
      let text ← toStringOf n arg
      write (line text)
      pure .unit
    | "aml_assert_0" =>
      if arg == .bool true then pure .unit else throwMessage "assertion failed"
    | "aml_assert_1" =>
      if arg == .bool true then pure .unit else throwWith (args.getD 1 .null)
    | "aml_Object__init_0" => pure .unit
    | "aml_Exception__init_0" | "aml_Exception__init_1" =>
      let t ← table
      if let (some m, some obj) := ((t.cls exceptionClass).fields.head?, selfValue) then
        writeField obj m (if name == "aml_Exception__init_0" then .str "" else arg)
      pure .unit
    | "aml_Exception__toString" =>
      let t ← table
      let obj := selfValue.getD .null
      let message ← match (t.cls exceptionClass).fields.head? with
        | some m => readField obj m
        | none => pure .null
      let suffix := match message with
        | .str s => if s.isEmpty then "" else ": " ++ s
        | _ => ""
      pure (.str ((← className obj) ++ suffix))
    | "aml_Object__toString" => pure (.str (← objectText (selfValue.getD .null)))
    | "aml_Object__equals" => pure (.bool (identical (selfValue.getD .null) arg))
    | "aml_Object__hashCode" =>
      pure (.int (match selfValue with
        | some (.ref a) => Prim.wrap .int (0x1000 + 32 * a)
        | _ => 0))
    | _ =>
      match selfValue with
      | some (.str s) => stringMethod name s args
      | some _ => pure .unit
      | none => if name.startsWith "aml_String" then crash 11 else pure .unit

/-- Runs statements in order until one does not complete normally. -/
def execStmts : Nat → List TypedStmt → RunM Flow
  | 0, _ => throw .exhausted
  | _ + 1, [] => pure .normal
  | n + 1, s :: ss => do
    match ← execStmt n s with
    | .normal => execStmts n ss
    | flow => pure flow

/-- Runs a statement. -/
def execStmt : Nat → TypedStmt → RunM Flow
  | 0, _ => throw .exhausted
  | n + 1, .mk k _ => do
    match k with
    | .block ss => execStmts n ss
    | .ifThen c thenB elseB =>
      let cond ← evalAs n c Ty.bool
      if cond == .bool true then execStmt n thenB
      else match elseB with
        | some b => execStmt n b
        | none => pure .normal
    | .whileLoop c body =>
      for _ in [0:loopBound] do
        tick
        let cond ← evalAs n c Ty.bool
        if cond != .bool true then return .normal
        match ← execStmt n body with
        | .breakLoop => return .normal
        | .returned v => return .returned v
        | _ => pure ()
      throw .timeout
    | .forRange x lo hi body =>
      let t ← localType x
      let kind := t.prim?.getD .int
      let start ← evalAs n lo t
      let stop ← evalAs n hi t
      let mut more := Value.compare .le start stop
      setLocal x start
      for _ in [0:loopBound] do
        if !more then return .normal
        tick
        more := !Value.compare .eq (← getLocal x) stop
        match ← execStmt n body with
        | .breakLoop => return .normal
        | .returned v => return .returned v
        | _ =>
          let step := Value.convert (.int (if more then 1 else 0)) .int kind
          match Value.arith .add kind (← getLocal x) step with
          | some v => setLocal x v
          | none => pure ()
      throw .timeout
    | .loop body =>
      for _ in [0:loopBound] do
        tick
        match ← execStmt n body with
        | .breakLoop => return .normal
        | .returned v => return .returned v
        | _ => pure ()
      throw .timeout
    | .switch subject subjectType clauses => execSwitch n subject subjectType clauses
    | .varDecl x init =>
      let t ← localType x
      let v ← match init with
        | some e => evalAs n e t
        | none => pure (Value.zero t)
      setLocal x v
      pure .normal
    | .returnStmt value =>
      let returnType := (← frame).returnType
      match value with
      | some v =>
        if returnType.isUnit then
          let _ ← evalOperand n v
          pure (.returned .unit)
        else pure (.returned (← evalAs n v returnType))
      | none => pure (.returned .unit)
    | .throwStmt value =>
      let v ← evalExpr n value
      if v == .null then return .returned (Value.zero (← frame).returnType)
      throw (.thrown v)
    | .breakStmt => pure .breakLoop
    | .continueStmt => pure .continueLoop
    | .exprStmt e =>
      let _ ← evalOperand n e
      pure .normal
    | .scope ss =>
      let t ← table
      for s in ss do
        let .mk (.mock (some m)) _ := s | continue
        for f in (t.cls m).staticFields do
          let some (_, init) ← fieldInitializer? f | continue
          let ft := (t.field f).type.getD Ty.error
          let v ← evalAs n init ft
          setGlobal f v
      execStmts n ss
    | .mock _ => pure .normal

/-- A switch: the subject once, then the first clause one of whose case values matches, or the
`default` clause. -/
def execSwitch : Nat → TypedExpr → Ty → List TypedClause → RunM Flow
  | 0, _, _, _ => throw .exhausted
  | n + 1, subject, subjectType, clauses => do
    let st ← ty subjectType
    let subj ← evalAs n subject st
    for clause in clauses do
      if clause.isDefault then continue
      if ← matchesClause n subj st clause.values then return ← execStmts n clause.body
    match clauses.find? (·.isDefault) with
    | some d => execStmts n d.body
    | none => pure .normal

/-- Whether a clause matches: the statements of its case values in order, then their tests,
the first that holds deciding. -/
def matchesClause : Nat → Value → Ty → List TypedExpr → RunM Bool
  | 0, _, _, _ => throw .exhausted
  | n + 1, subj, subjectType, values => do
    let tests ← values.mapM (matchesCase n subj subjectType)
    tests.anyM id

/-- The test of a case value against the subject: the value's statements, giving the test made
when the clause is tried. -/
def matchesCase : Nat → Value → Ty → TypedExpr → RunM (RunM Bool)
  | 0, _, _, _ => throw .exhausted
  | n + 1, subj, subjectType, value => do
    let valueType ← typeOf value
    if valueType.isNull then return pure (subj == .null)
    match subjectType, valueType with
    | .prim .., .prim .. =>
      let join := (Ty.numericJoin (subjectType.withNullable false)
        (valueType.withNullable false)).getD (subjectType.withNullable false)
      if subjectType.isNullablePrimitive || valueType.isNullablePrimitive then
        let opt := join.withNullable true
        let left ← coerce subj subjectType opt
        let right ← evalOperandAs n value opt
        return do pure (Value.optEqual left (← right))
      let left ← coerce subj subjectType join
      let right ← evalOperandAs n value join
      pure do pure (Value.compare .eq left (← right))
    | _, _ =>
      let object := SymbolTable.objectType true
      let right ← evalOperandAs n value object
      if subjectType.classOf? == some stringClass && valueType.classOf? == some stringClass then
        return do pure (stringsEqual subj (← right))
      let left ← coerce subj subjectType object
      let b ← equalsOf n left (← right)
      pure (pure b)

end

end AmLang
