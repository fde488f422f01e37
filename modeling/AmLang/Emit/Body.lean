import AmLang.Emit.Convert
import AmLang.Numeric.Significant
/-!
# Emitting expressions and statements

The C of checked expressions and statements. `genExpr` returns a C expression that is pure or
names a temporary; whatever has effects has been emitted as statements before it returns. A
reference it returns is borrowed unless it names an owned temporary of the current frame.

Every statement opens a frame for the temporaries of its expressions; compound statements
release theirs before their bodies run, so a `break` or `continue` in a body has only locals
left to release.

| Source                  | C                                              |
|-------------------------|------------------------------------------------|
| `while (c) body`        | `for (;;) { if (!(c)) { break; } body }`       |
| `for (i = a to b) body` | a counted `for` whose step cannot overflow     |
| `loop body`             | `for (;;) { body }`                            |
| `switch`                | an `if`/`else if` chain, `default` last        |
| `throw e`               | `aml_throw(e)`, then unwinding                 |
| a lambda                | a static function and an environment object    |

| Call kind         | C                                                          |
|-------------------|------------------------------------------------------------|
| free, static      | `name(args)`                                               |
| direct            | `name(recv, args)`                                         |
| virtual           | `((R (*)(aml_Object*, …))aml_vslot(recv, n))(recv, args)`  |
| interface         | the same through `aml_islot(recv, &I__class, n)`           |
| closure           | `((R (*)(aml_Object*, …))aml_closure_fn(c))(env, args)`    |
| primitive         | runtime formatting, comparison and hashing                 |

The functions call each other through lambdas, whose bodies are statements, so they form one
recursive family over a fuel argument that bounds the depth of the walk (see `checkFuel`).
-/

namespace AmLang

namespace EmitM

/-- The C of an integer literal of type `t`. -/
def intLiteral (value : Int) (t : Ty) : String :=
  match t.prim?.getD .int with
  | .float => toString value ++ ".0f"
  | .double => toString value ++ ".0"
  | .int => toString value
  | .long => "INT64_C(" ++ toString value ++ ")"
  | .ulong => "UINT64_C(" ++ toString value ++ ")"
  | .uint => toString value ++ "u"
  | k => "((" ++ k.cType ++ ")" ++ toString value ++ ")"

/-- The C of a floating literal: its value with 17 significant digits, a `.0` added when that
shows no point, exponent or `nan`/`inf`, and `f` for a `Float`. -/
def floatLiteral (bits : UInt64) (isFloat : Bool) : String :=
  let text := DoubleBits.general bits 17
  let text := if text.any (fun c => c == '.' || c == 'e' || c == 'E' || c == 'n') then text
    else text ++ ".0"
  if isFloat then text ++ "f" else text

/-- The C of a literal. -/
def genLiteral (e : TypedExpr) (tok : Token) : EmitM String := do
  let t ← typeOf e
  match tok.kind, tok.value with
  | .intLit, .number (.int v) | .intLit, .number (.long v) => pure (intLiteral v t)
  | .floatLit, .number (.float bits) | .floatLit, .number (.double bits) =>
    pure (floatLiteral bits (t.isPrim .float))
  | .stringLit, .text s => stringLiteral s
  | .charLit, .char c => pure ("((uint16_t)" ++ toString c ++ ")")
  | .boolLit, .bool b => pure (if b then "true" else "false")
  | .nullLit, _ => pure "NULL"
  | _, _ => pure ""

/-- The C of a name: a local (its value when it is a nullable primitive known to hold one), a
field of `this`, or storage. -/
def genIdent (e : TypedExpr) : EmitM String := do
  let info := e.info
  if let some x := info.localVar then
    let name ← localName x
    let declared ← localType x
    let seen ← typeOf e
    if declared.isNullablePrimitive && !seen.nullable && seen.prim?.isSome then
      return name ++ ".value"
    return name
  if let some f := info.field then
    let fd := (← table).field f
    if fd.isStatic || fd.owner.isNone then return fd.cName
    return ← fieldAccess "self" (← info.receiverType.mapM ty) f
  pure ""

end EmitM

open EmitM in
mutual

/-- The C of an expression. -/
def genExpr : Nat → TypedExpr → EmitM String
  | 0, _ => pure ""
  | n + 1, e@(.mk k _ _) => do
    match k with
    | .literal tok => genLiteral e tok
    | .ident _ => genIdent e
    | .thisRef | .superRef => pure "self"
    | .unary op operand => genUnary n e op operand
    | .binary op l r => genBinary n e op l r
    | .assign op target value => genAssign n e op target value
    | .call callee args => genCall n e callee args
    | .member obj _ _ => genMember n e obj
    | .index obj idx => genIndex n e obj idx
    | .newObject args => genNew n e args
    | .newArray size => genNewArray n e size
    | .interpolation segs => genInterpolation n segs
    | .arrayLit elems => genArrayLit n e elems
    | .lambda params body => genLambda n e params body
    | .cast operand => genCast n e operand
    | .typeTest operand => genTypeTest n e operand
    | .cond c a b => genIfExpr n e c a b
    | .unchecked => pure ""

/-- The C of an expression converted to `target`. -/
def genExprAs : Nat → TypedExpr → Ty → EmitM String
  | 0, _, _ => pure ""
  | n + 1, e, target => do
    let v ← genExpr n e
    coerce v (← typeOf e) target

/-- The receiver object of a member access: `self` for `this` and `super`. -/
def genReceiver : Nat → TypedExpr → EmitM String
  | 0, _ => pure ""
  | n + 1, obj => match obj with
    | .mk .thisRef _ _ | .mk .superRef _ _ => pure "self"
    | _ => genExpr n obj

/-- The C of a member access; through `?.` it gives the zero value when the receiver is null. -/
def genMember : Nat → TypedExpr → TypedExpr → EmitM String
  | 0, _, _ => pure ""
  | n + 1, e, obj => do
    let info := e.info
    let t ← table
    if let some f := info.field then
      let fd := t.field f
      if fd.isStatic || fd.owner.isNone then return fd.cName
    let object ← genReceiver n obj
    let receiver ← info.receiverType.mapM ty
    let access : EmitM String :=
      if info.arrayLength then pure ("aml_array_length(" ++ object ++ ")")
      else match info.field with
        | some f => fieldAccess object receiver f
        | none => pure ""
    if !info.safeChain then return ← access
    let resultType ← typeOf e
    let result ← valueTemp resultType
    emitLine ("if (" ++ object ++ " != NULL) \x7b")
    pushIndent
    let classes ← env
    let memberType := if info.arrayLength then Ty.int
      else match info.field with
        | some f =>
          let fd := t.field f
          let ft := fd.type.getD .error
          match receiver.bind fun r => fd.owner.bind fun o => Ty.ancestor classes r o with
          | some v => ft.substitute (v.type.substOf classes)
          | none => ft
        | none => Ty.int
    let a ← access
    emitLine (result ++ " = " ++ (← coerce a memberType resultType) ++ ";")
    popIndent
    emitLine "\x7d else \x7b"
    emitLine ("    " ++ result ++ " = " ++ resultType.zeroValue ++ ";")
    emitLine "\x7d"
    pure result

/-- The C of an array element, after a bounds check that throws. -/
def genIndex : Nat → TypedExpr → TypedExpr → TypedExpr → EmitM String
  | 0, _, _, _ => pure ""
  | n + 1, e, obj, idx => do
    let array ← genExpr n obj
    let index ← genExpr n idx
    let element ← typeOf e
    emitLine ("if (!aml_array_check(" ++ array ++ ", (int64_t)(" ++ index ++ "))) \x7b")
    pushIndent
    emitUnwind
    popIndent
    emitLine "\x7d"
    pure ("((" ++ element.cType ++ "*)aml_array_data(" ++ array ++ "))[" ++ index ++ "]")

/-- The assignable C of an assignment target. -/
def genLvalue : Nat → TypedExpr → EmitM String
  | 0, _ => pure ""
  | n + 1, target@(.mk k _ info) => do
    let t ← table
    match k with
    | .ident _ =>
      if let some x := info.localVar then return ← localName x
      match info.field with
      | some f =>
        let fd := t.field f
        if fd.isStatic || fd.owner.isNone then return fd.cName
        fieldAccess "self" (← info.receiverType.mapM ty) f
      | none => pure ""
    | .member obj _ _ =>
      match info.field with
      | some f =>
        let fd := t.field f
        if fd.isStatic || fd.owner.isNone then return fd.cName
        let object ← genReceiver n obj
        fieldAccess object (← info.receiverType.mapM ty) f
      | none => pure ""
    | .index obj idx => genIndex n target obj idx
    | _ => pure ""

/-- The C of an assignment, which has no value. -/
def genAssign : Nat → TypedExpr → AssignOp → TypedExpr → TypedExpr → EmitM String
  | 0, _, _, _, _ => pure ""
  | n + 1, e, op, target, value => do
    let targetType ← match target.info.localVar with
      | some x => localType x
      | none => typeOf target
    if op == .assign then
      let v ← genExprAs n value targetType
      let lhs ← genLvalue n target
      emitStore lhs v targetType
      return ""
    let lhs ← genLvalue n target
    if e.info.stringConcat then
      let text ← buildString n [{ value := lhs, type := some targetType }, { expr := some value }]
      emitStore lhs text targetType
      return ""
    let operandType := targetType.withNullable false
    let current := if targetType.isNullablePrimitive then lhs ++ ".value" else lhs
    let v ← genExprAs n value operandType
    let bop : BinaryOp := match op with
      | .sub => .sub
      | .mul => .mul
      | .div => .div
      | .mod => .mod
      | _ => .add
    let result ← arithmetic bop current v operandType
    emitStore lhs (← coerce result operandType targetType) targetType
    pure ""

/-- The C of `new C(args)`: allocation, then the constructor, which may throw. -/
def genNew : Nat → TypedExpr → List TypedExpr → EmitM String
  | 0, _, _ => pure ""
  | n + 1, e, args => do
    let info := e.info
    let l ← layout
    let (some c, some f) := (info.classRef, info.function) | pure ""
    let t ← ty (info.receiverType.getD info.type)
    let k := l.table.cls c
    let (className, ctorName, ctorSubst) :=
      if k.isMock then (k.cName, (l.table.fn f).cName, ([] : Subst))
      else (l.className t, l.memberName f (some t), t.substOf l.env)
    let sig := l.signature f ctorSubst
    let values ← genArgs n args sig.params
    let temp ← ownedTemp
    emitLine (temp ++ " = aml_alloc(&" ++ className ++ "__class);")
    emitLine (ctorName ++ "(" ++ joinArgs temp values ++ ");")
    emitPendingCheck
    pure temp

/-- The C of `new T[size]`. -/
def genNewArray : Nat → TypedExpr → TypedExpr → EmitM String
  | 0, _, _ => pure ""
  | n + 1, e, size => do
    let element := match ← typeOf e with
      | .array el _ => el
      | _ => Ty.error
    let s ← genExpr n size
    let temp ← ownedTemp
    emitLine (temp ++ " = aml_array_new((int64_t)(" ++ s ++ "), sizeof(" ++ element.cType ++ "), " ++
      (if element.isReference then "true" else "false") ++ ");")
    emitPendingCheck
    pure temp

/-- The C of an array literal. -/
def genArrayLit : Nat → TypedExpr → List TypedExpr → EmitM String
  | 0, _, _ => pure ""
  | n + 1, e, elems => do
    let element := match ← typeOf e with
      | .array el _ => el
      | _ => Ty.error
    let values ← elems.mapM fun item => genExprAs n item element
    let elementC := element.cType
    let isRef := element.isReference
    let temp ← ownedTemp
    emitLine (temp ++ " = aml_array_new(" ++ toString values.length ++ ", sizeof(" ++ elementC ++
      "), " ++ (if isRef then "true" else "false") ++ ");")
    for (v, i) in values.zipIdx do
      if isRef then emitLine ("aml_retain(" ++ v ++ ");")
      emitLine ("((" ++ elementC ++ "*)aml_array_data(" ++ temp ++ "))[" ++ toString i ++ "] = " ++
        v ++ ";")
    pure temp

/-- The C of `-x`, `~x` and `!x`; integer negation wraps. -/
def genUnary : Nat → TypedExpr → UnaryOp → TypedExpr → EmitM String
  | 0, _, _, _ => pure ""
  | n + 1, e, op, operand => do
    let t ← typeOf e
    let v ← genExprAs n operand t
    match op with
    | .not => pure ("(!" ++ v ++ ")")
    | .bitNot => pure ("((" ++ t.cType ++ ")(~" ++ v ++ "))")
    | .neg => pure (negation t v)

/-- The C of a binary operation. Comparisons convert both sides to their numeric join. -/
def genBinary : Nat → TypedExpr → BinaryOp → TypedExpr → TypedExpr → EmitM String
  | 0, _, _, _, _ => pure ""
  | n + 1, e, op, l, r => do
    match op with
    | .and | .or => genLogical n op l r
    | .eq | .ne => genEquality n op l r
    | .lt | .le | .gt | .ge =>
      let lt ← typeOf l
      let rt ← typeOf r
      let join := (Ty.numericJoin (lt.withNullable false) (rt.withNullable false)).getD
        (lt.withNullable false)
      let left ← genExprAs n l join
      let right ← genExprAs n r join
      pure ("(" ++ left ++ " " ++ op.symbol ++ " " ++ right ++ ")")
    | _ =>
      if e.info.stringConcat then return ← genConcat n e
      let t ← typeOf e
      let left ← genExprAs n l t
      let right ← genExprAs n r t
      arithmetic op left right t

/-- The C of `&&` and `||`; a right side that needs statements runs only when it decides. -/
def genLogical : Nat → BinaryOp → TypedExpr → TypedExpr → EmitM String
  | 0, _, _, _ => pure ""
  | n + 1, op, l, r => do
    let isAnd := op == .and
    let left ← genExprAs n l Ty.bool
    pushIndent
    let (code, right) ← diverted (genExprAs n r Ty.bool)
    popIndent
    if code.isEmpty then
      return "(" ++ left ++ (if isAnd then " && " else " || ") ++ right ++ ")"
    let result ← valueTempC "bool" "false"
    emitLine (result ++ " = " ++ left ++ ";")
    emitLine ("if (" ++ (if isAnd then "" else "!") ++ result ++ ") \x7b")
    emitRaw code
    pushIndent
    emitLine (result ++ " = " ++ right ++ ";")
    popIndent
    emitLine "\x7d"
    pure result

/-- The C of `==` and `!=`: null tests, primitive comparison after promotion, string
comparison, and `equals` for other references. -/
def genEquality : Nat → BinaryOp → TypedExpr → TypedExpr → EmitM String
  | 0, _, _, _ => pure ""
  | n + 1, op, l, r => do
    let negate := op == .ne
    let wrap := fun (test : String) => if negate then "(!" ++ test ++ ")" else test
    let lt ← typeOf l
    let rt ← typeOf r
    if lt.isNull && rt.isNull then return (if negate then "false" else "true")
    if lt.isNull || rt.isNull then
      let (other, otherType) := if lt.isNull then (r, rt) else (l, lt)
      if let some x := other.info.localVar then
        if (← localType x).isNullablePrimitive then
          return wrap ("(!" ++ (← localName x) ++ ".has)")
      let v ← genExpr n other
      if otherType.isNullablePrimitive then return wrap ("(!" ++ v ++ ".has)")
      return "(" ++ v ++ (if negate then " != " else " == ") ++ "NULL)"
    match lt, rt with
    | .prim .., .prim .. =>
      let join := (Ty.numericJoin (lt.withNullable false) (rt.withNullable false)).getD
        (lt.withNullable false)
      if lt.nullable || rt.nullable then
        let opt := join.withNullable true
        let left ← genExprAs n l opt
        let right ← genExprAs n r opt
        return wrap ("AML_OPT_EQ(" ++ left ++ ", " ++ right ++ ")")
      let left ← genExprAs n l join
      let right ← genExprAs n r join
      pure ("(" ++ left ++ (if negate then " != " else " == ") ++ right ++ ")")
    | _, _ =>
      let object := SymbolTable.objectType true
      let left ← genExprAs n l object
      let right ← genExprAs n r object
      if lt.classOf? == some stringClass && rt.classOf? == some stringClass then
        return wrap ("aml_string_equals(" ++ left ++ ", " ++ right ++ ")")
      pure (wrap (← finishCall ("aml_equals(" ++ left ++ ", " ++ right ++ ")") Ty.bool true))

/-- The C of call arguments, each converted to its parameter's type. -/
def genArgs : Nat → List TypedExpr → List Ty → EmitM (List String)
  | 0, _, _ => pure []
  | n + 1, args, params => (args.zip params).mapM fun (a, p) => genExprAs n a p

/-- The C of a call, by how it reaches its target. -/
def genCall : Nat → TypedExpr → TypedExpr → List TypedExpr → EmitM String
  | 0, _, _, _ => pure ""
  | n + 1, e, callee, args => do
    let info := e.info
    if info.callKind == .closure then return ← genClosureCall n e callee args
    let some f := info.function | return ""
    let l ← layout
    let fs := l.table.fn f
    let receiver ← info.receiverType.mapM ty
    let fnArgs ← info.typeArgs.mapM ty
    let ownerGeneric := match fs.owner with
      | some o => (l.table.cls o).isGeneric && !(l.table.cls o).isBuiltin
      | none => false
    let classSubst := if ownerGeneric && receiver.isSome then
        ((l.ownerView f receiver).map (·.substOf l.env)).getD []
      else []
    let subst := (fs.generics.zip fnArgs).foldl (fun s (x, t) => Subst.set s x t) classSubst
    let sig := l.signature f subst
    let resultType ← typeOf e
    match info.callKind with
    | .superConstructor =>
      let values ← genArgs n args sig.params
      let isRoot := (fs.owner.map fun o => (l.table.cls o).isRoot).getD false
      if isRoot then return ""
      let _ ← finishCall (l.memberName f receiver ++ "(" ++ joinArgs "self" values ++ ")") Ty.unit true
      pure ""
    | .free | .static =>
      let values ← genArgs n args sig.params
      let name ← MonadExcept.ofExcept (l.functionName f receiver fnArgs)
      let v ← finishCall (name ++ "(" ++ joinArgs "" values ++ ")") sig.result true
      if v.isEmpty then pure v else coerce v sig.result resultType
    | _ =>
      let (object, objectType) ← match callee with
        | .mk (.member obj _ _) _ _ => do pure (← genReceiver n obj, ← typeOf obj)
        | _ => pure ("self", receiver.getD Ty.error)
      let receiverType := receiver.getD Ty.error
      let kind := if info.callKind == .generic then
          (if receiverType.prim?.isSome then CallKind.primitive
           else if !receiverType.nullable then CallKind.virtual else CallKind.generic)
        else info.callKind
      let (test, value) :=
        if info.safeChain then
          if objectType.isNullablePrimitive then (object ++ ".has", object ++ ".value")
          else (object ++ " != NULL", object)
        else ("", object)
      if test.isEmpty then
        let r ← genInstanceCall n kind f value receiverType fnArgs sig args
        if r.isEmpty then return r
        return ← coerce r sig.result resultType
      let result ← if resultType.isUnit then pure "" else valueTemp resultType
      emitLine ("if (" ++ test ++ ") \x7b")
      pushIndent
      let inner ← genInstanceCall n kind f value receiverType fnArgs sig args
      if !result.isEmpty then
        emitLine (result ++ " = " ++ (← coerce inner sig.result resultType) ++ ";")
      popIndent
      if !result.isEmpty then
        emitLine "\x7d else \x7b"
        emitLine ("    " ++ result ++ " = " ++ resultType.zeroValue ++ ";")
      emitLine "\x7d"
      pure result

/-- The C of an instance call on `value`, once its receiver is known to be there. -/
def genInstanceCall : Nat → CallKind → FunctionId → String → Ty → List Ty → CSignature →
    List TypedExpr → EmitM String
  | 0, _, _, _, _, _, _, _ => pure ""
  | n + 1, kind, f, value, receiverType, fnArgs, sig, args => do
    let values ← genArgs n args sig.params
    let l ← layout
    let fs := l.table.fn f
    match kind with
    | .primitive | .generic => primitiveMethod f value receiverType values
    | .virtual =>
      let call := "((" ++ Layout.pointerType sig false ++ ")aml_vslot(" ++ value ++ ", " ++
        toString (fs.slot.getD 0) ++ "))(" ++ joinArgs value values ++ ")"
      finishCall call sig.result true
    | .interface =>
      let iface := match l.ownerView f (some receiverType) with
        | some v => l.className v
        | none => ""
      let call := "((" ++ Layout.pointerType sig false ++ ")aml_islot(" ++ value ++ ", &" ++ iface ++
        "__class, " ++ toString (fs.slot.getD 0) ++ "))(" ++ joinArgs value values ++ ")"
      finishCall call sig.result true
    | .direct =>
      let name ← MonadExcept.ofExcept (l.functionName f (some receiverType) fnArgs)
      finishCall (name ++ "(" ++ joinArgs value values ++ ")") sig.result true
    | _ => pure ""

/-- The C of a call of a function value; through `?.` it gives the zero value when the value
is null. -/
def genClosureCall : Nat → TypedExpr → TypedExpr → List TypedExpr → EmitM String
  | 0, _, _, _ => pure ""
  | n + 1, e, callee, args => do
    let info := e.info
    let calleeInfo := callee.info
    let (closure, test, funcType) ← match callee, calleeInfo.field with
      | .mk (.member obj _ _) _ _, some f => do
        let object ← genReceiver n obj
        let test := if calleeInfo.safeChain then object ++ " != NULL" else ""
        let funcType ← ty calleeInfo.type
        let closure ← fieldAccess object (← calleeInfo.receiverType.mapM ty) f
        pure (closure, test, funcType)
      | _, _ => do
        let closure ← genExpr n callee
        let funcType ← typeOf callee
        pure (closure, if info.safeChain then closure ++ " != NULL" else "", funcType)
    let (params, result) := match funcType.withNullable false with
      | .func ps r _ => (ps, r)
      | _ => ([], Ty.unit)
    let sig : CSignature := ⟨params, result, false⟩
    let pointer := Layout.pointerType sig true
    let resultType ← typeOf e
    let emitCall : EmitM String := do
      let values ← genArgs n args sig.params
      let call := "((" ++ pointer ++ ")aml_closure_fn(" ++ closure ++ "))(" ++
        joinArgs ("aml_closure_env(" ++ closure ++ ")") values ++ ")"
      finishCall call sig.result true
    if test.isEmpty then
      let r ← emitCall
      if r.isEmpty then return r
      return ← coerce r sig.result resultType
    let out ← if resultType.isUnit then pure "" else valueTemp resultType
    emitLine ("if (" ++ test ++ ") \x7b")
    pushIndent
    let inner ← emitCall
    if !out.isEmpty then
      emitLine (out ++ " = " ++ (← coerce inner sig.result resultType) ++ ";")
    popIndent
    if !out.isEmpty then
      emitLine "\x7d else \x7b"
      emitLine ("    " ++ out ++ " = " ++ resultType.zeroValue ++ ";")
    emitLine "\x7d"
    pure out

/-- Evaluates a piece of a string being built. -/
def evaluatePiece : Nat → Piece → EmitM Piece
  | 0, p => pure p
  | n + 1, p => do
    let p ← match p.expr with
      | some e => do pure { p with value := ← genExpr n e, type := some (← typeOf e) }
      | none => pure p
    settlePiece p

/-- Builds an owned string from pieces, evaluated left to right first. -/
def buildString : Nat → List Piece → EmitM String
  | 0, _ => pure ""
  | n + 1, pieces => do
    let evaluated ← pieces.mapM (evaluatePiece n)
    finishString evaluated

/-- The C of a chain of string concatenations. -/
def genConcat : Nat → TypedExpr → EmitM String
  | 0, _ => pure ""
  | n + 1, e => do
    let pieces := (TypedExpr.concatOperands (n + 1) e).map fun operand =>
      match operand.stringLiteral? with
      | some text => ({ text } : Piece)
      | none => { expr := some operand }
    buildString n pieces

/-- The C of an interpolated string. -/
def genInterpolation : Nat → List TypedSegment → EmitM String
  | 0, _ => pure ""
  | n + 1, segs => do
    let pieces := segs.map fun seg => match seg with
      | .text text => ({ text } : Piece)
      | .expr e => { expr := some e }
    buildString n pieces

/-- The C of a lambda: a static function taking an environment with `self` and the captured
locals, declared once; here, the closure that pairs them. -/
def genLambda : Nat → TypedExpr → List LocalId → TypedLambdaBody → EmitM String
  | 0, _, _, _ => pure ""
  | n + 1, e, params, body => do
    let info := e.info
    let type ← typeOf e
    let (paramTypes, result) := match type with
      | .func ps r _ => (ps, r)
      | _ => ([], Ty.unit)
    let outer := (← get).fn
    let name := outer.cName ++ "__lambda_" ++ toString (info.lambdaId.getD 0)
    let envName := name ++ "__env"
    let hasEnv := info.capturesThis || !info.captures.isEmpty
    let hasSelf := info.capturesThis && outer.selfType.isSome
    if hasEnv then
      let mut decl := "typedef struct " ++ envName ++ " \x7b\n    aml_Object header;\n"
      if hasSelf then decl := decl ++ "    aml_Object* self;\n"
      for x in info.captures do
        decl := decl ++ "    " ++ (← localType x).cType ++ " " ++ (← localName x) ++ ";\n"
      decl := decl ++ "\x7d " ++ envName ++ ";\n"
      decl := decl ++ "static void " ++ envName ++ "__dtor(aml_Object* env) \x7b\n"
      for x in info.captures.reverse do
        if (← localType x).isReference then
          decl := decl ++ "    aml_release(((" ++ envName ++ "*)env)->" ++ (← localName x) ++ ");\n"
      if hasSelf then decl := decl ++ "    aml_release(((" ++ envName ++ "*)env)->self);\n"
      decl := decl ++ "\x7d\n"
      modifySections fun s => { s with lambdaDecls := s.lambdaDecls ++ decl }
    let mut paramDecls : List String := []
    for (x, t) in params.zip paramTypes do
      paramDecls := paramDecls ++ [(← ty t).cType ++ " " ++ (← localName x)]
    let returnType ← ty result
    let head := "static " ++ returnType.cType ++ " " ++ name ++ "(aml_Object* env" ++
      String.join (paramDecls.map (", " ++ ·)) ++ ")"
    modifySections fun s => { s with lambdaDecls := s.lambdaDecls ++ head ++ ";\n\n" }
    let suspended ← beginFunction name returnType outer.selfType
    emitComment e.span
    if hasEnv then
      emitLine (envName ++ "* captured = (" ++ envName ++ "*)env;")
      if hasSelf then emitLine "aml_Object* self = captured->self;"
      for x in info.captures do
        let lc ← localName x
        emitLine ((← localType x).cType ++ " " ++ lc ++ " = captured->" ++ lc ++ ";")
    else emitLine "(void)env;"
    pushScope false
    let reachable ← match body with
      | .expr b => do
        beginFrame
        if returnType.isUnit then
          let _ ← genExpr n b
          endFrame
          pure true
        else
          let v ← genExprAs n b returnType
          let r ← valueTemp returnType
          emitLine (r ++ " = " ++ v ++ ";")
          if returnType.isReference then emitLine ("aml_retain(" ++ r ++ ");")
          emitReleaseAll
          emitLine ("return " ++ r ++ ";")
          dropFrame
          pure false
      | .block stmts => do
        genBlockBody n stmts
        pure (TypedStmt.allComplete stmts)
    popScope reachable
    let code ← endFunction suspended
    modifySections fun s => { s with lambdaBodies := s.lambdaBodies ++ head ++ " \x7b\n" ++ code ++ "\x7d\n\n" }
    if !hasEnv then
      return ← finishCall ("aml_closure_new((aml_fn)" ++ name ++ ", NULL)") type false
    let envTemp ← valueTempC "aml_Object*" "NULL"
    emitLine (envTemp ++ " = aml_env_new(sizeof(" ++ envName ++ "), " ++ envName ++ "__dtor);")
    if hasSelf then
      emitLine ("((" ++ envName ++ "*)" ++ envTemp ++ ")->self = self;")
      emitLine "aml_retain(self);"
    for x in info.captures do
      let lc ← localName x
      emitLine ("((" ++ envName ++ "*)" ++ envTemp ++ ")->" ++ lc ++ " = " ++ lc ++ ";")
      if (← localType x).isReference then emitLine ("aml_retain(" ++ lc ++ ");")
    let closure ← finishCall ("aml_closure_new((aml_fn)" ++ name ++ ", " ++ envTemp ++ ")") type false
    emitLine (envTemp ++ " = NULL;")
    pure closure

/-- The C of `x as T`: a conversion, an upcast as it is, or a checked downcast. -/
def genCast : Nat → TypedExpr → TypedExpr → EmitM String
  | 0, _, _ => pure ""
  | n + 1, e, operand => do
    let target ← ty (e.info.targetType.getD Ty.error)
    let source ← typeOf operand
    let value ← genExpr n operand
    if source.isNull then return target.zeroValue
    if source.prim?.isSome || target.prim?.isSome then return ← coerce value source target
    if Ty.canConvert (← env) source target then return value
    let result ← valueTempC "aml_Object*" "NULL"
    emitLine (result ++ " = aml_cast(" ++ value ++ ", " ++
      (← layout).descriptorOf (target.withNullable false) ++ ", " ++
      (if target.nullable then "true" else "false") ++ ");")
    emitPendingCheck
    pure result

/-- The C of `x is T`. -/
def genTypeTest : Nat → TypedExpr → TypedExpr → EmitM String
  | 0, _, _ => pure ""
  | n + 1, e, operand => do
    let target := (← ty (e.info.targetType.getD Ty.error)).withNullable false
    let source ← typeOf operand
    let value ← genExpr n operand
    if source.isNull then return "false"
    let value ← if source.prim?.isSome then box value source else pure value
    match target with
    | .array .. => pure ("aml_is_array(" ++ value ++ ")")
    | _ =>
      if target.classOf? == some objectClass then return "(" ++ value ++ " != NULL)"
      pure ("aml_instance_of(" ++ value ++ ", " ++ (← layout).descriptorOf target ++ ")")

/-- The C of `if (c) a else b` as an expression; the temporaries of the branches stay in the
enclosing frame, so a borrowed result lives to the end of the statement. -/
def genIfExpr : Nat → TypedExpr → TypedExpr → TypedExpr → TypedExpr → EmitM String
  | 0, _, _, _, _ => pure ""
  | n + 1, e, c, a, b => do
    let t ← typeOf e
    let condition ← genExprAs n c Ty.bool
    let hasValue := !t.isUnit && !t.isNever
    let result ← if hasValue then valueTemp t else pure ""
    emitLine ("if (" ++ condition ++ ") \x7b")
    genBranch n a t hasValue result
    emitLine "\x7d else \x7b"
    genBranch n b t hasValue result
    emitLine "\x7d"
    pure result

/-- One branch of an `if` expression, storing its value into `result`. -/
def genBranch : Nat → TypedExpr → Ty → Bool → String → EmitM Unit
  | 0, _, _, _, _ => pure ()
  | n + 1, arm, t, hasValue, result => do
    pushIndent
    let armType ← typeOf arm
    let v ← genExpr n arm
    if hasValue && !armType.isNever then
      emitLine (result ++ " = " ++ (← coerce v armType t) ++ ";")
    popIndent

/-- The C of a statement. -/
def genStmt : Nat → TypedStmt → EmitM Unit
  | 0, _ => pure ()
  | n + 1, .mk k span => do
    emitComment span
    match k with
    | .block ss =>
      emitLine "\x7b"
      pushIndent
      genBlock n ss false
      popIndent
      emitLine "\x7d"
    | .ifThen c t e => genIf n c t e
    | .whileLoop c body => genWhile n c body
    | .forRange x lo hi body => genFor n x lo hi body
    | .loop body =>
      emitLine "for (;;) \x7b"
      pushIndent
      genBody n body true
      popIndent
      emitLine "\x7d"
    | .switch subject subjectType clauses => genSwitch n subject subjectType clauses
    | .varDecl x init => genVar n x init
    | .returnStmt value => genReturn n value
    | .throwStmt value =>
      beginFrame
      let v ← genExpr n value
      emitLine ("aml_throw(" ++ v ++ ");")
      emitUnwind
      dropFrame
    | .breakStmt =>
      emitReleaseToLoop
      emitLine "break;"
    | .continueStmt =>
      emitReleaseToLoop
      emitLine "continue;"
    | .exprStmt e =>
      beginFrame
      let _ ← genExpr n e
      endFrame
    | .scope ss => genScopeBlock n ss
    | .mock _ => pure ()

/-- The C of statements up to the first one that cannot complete. -/
def genBlockBody : Nat → List TypedStmt → EmitM Unit
  | 0, _ => pure ()
  | _ + 1, [] => pure ()
  | n + 1, s :: ss => do
    genStmt n s
    if s.canComplete then genBlockBody n ss

/-- The C of a block's statements in their own drop scope. -/
def genBlock : Nat → List TypedStmt → Bool → EmitM Unit
  | 0, _, _ => pure ()
  | n + 1, ss, loopBody => do
    pushScope loopBody
    genBlockBody n ss
    popScope (TypedStmt.allComplete ss)

/-- The C of a branch or loop body in its own drop scope. -/
def genBody : Nat → TypedStmt → Bool → EmitM Unit
  | 0, _, _ => pure ()
  | n + 1, body, loopBody => do
    match body with
    | .mk (.block ss) _ => genBlock n ss loopBody
    | _ =>
      pushScope loopBody
      genStmt n body
      popScope body.canComplete

/-- A condition as a C expression in the current frame; kept in a temporary when the frame
holds temporaries that are released before it is tested. -/
def genCondition : Nat → TypedExpr → EmitM String
  | 0, _ => pure ""
  | n + 1, c => do
    let v ← genExprAs n c Ty.bool
    if ← frameEmpty then return v
    let slot ← valueTempC "bool" "false"
    emitLine (slot ++ " = " ++ v ++ ";")
    pure slot

/-- The C of an `if` statement. -/
def genIf : Nat → TypedExpr → TypedStmt → Option TypedStmt → EmitM Unit
  | 0, _, _, _ => pure ()
  | n + 1, c, thenB, elseB => do
    beginFrame
    let cond ← genCondition n c
    flushFrame
    emitLine ("if (" ++ cond ++ ") \x7b")
    pushIndent
    genBody n thenB false
    popIndent
    if let some e := elseB then
      emitLine "\x7d else \x7b"
      pushIndent
      genBody n e false
      popIndent
    emitLine "\x7d"
    endFrame

/-- The C of a `while` loop. -/
def genWhile : Nat → TypedExpr → TypedStmt → EmitM Unit
  | 0, _, _ => pure ()
  | n + 1, c, body => do
    emitLine "for (;;) \x7b"
    pushIndent
    beginFrame
    let cond ← genCondition n c
    flushFrame
    emitLine ("if (!(" ++ cond ++ ")) \x7b")
    emitLine "    break;"
    emitLine "\x7d"
    endFrame
    genBody n body true
    popIndent
    emitLine "\x7d"

/-- The C of `for (i = a to b)`: the variable advances only while another iteration follows,
so stepping past the bound cannot overflow. -/
def genFor : Nat → LocalId → TypedExpr → TypedExpr → TypedStmt → EmitM Unit
  | 0, _, _, _, _ => pure ()
  | n + 1, x, lo, hi, body => do
    let t ← localType x
    let name ← localName x
    beginFrame
    let start ← valueTemp t
    emitLine (start ++ " = " ++ (← genExprAs n lo t) ++ ";")
    let stop ← valueTemp t
    emitLine (stop ++ " = " ++ (← genExprAs n hi t) ++ ";")
    endFrame
    let more ← valueTempC "bool" "false"
    emitLine (more ++ " = " ++ start ++ " <= " ++ stop ++ ";")
    emitLine ("for (" ++ t.cType ++ " " ++ name ++ " = " ++ start ++ "; " ++ more ++ "; " ++ name ++
      " += " ++ more ++ ") \x7b")
    pushIndent
    emitLine (more ++ " = " ++ name ++ " != " ++ stop ++ ";")
    genBody n body true
    popIndent
    emitLine "\x7d"

/-- The C of a local declaration; a reference local is retained and released with its block. -/
def genVar : Nat → LocalId → Option TypedExpr → EmitM Unit
  | 0, _, _ => pure ()
  | n + 1, x, init => do
    let t ← localType x
    let name ← localName x
    beginFrame
    let v ← match init with
      | some e => genExprAs n e t
      | none => pure t.zeroValue
    emitLine (t.cType ++ " " ++ name ++ " = " ++ v ++ ";")
    if t.isReference then
      emitLine ("aml_retain(" ++ name ++ ");")
      registerDrop name
    endFrame

/-- The C of `return`: the value is kept (and retained) before everything is released. -/
def genReturn : Nat → Option TypedExpr → EmitM Unit
  | 0, _ => pure ()
  | n + 1, value => do
    beginFrame
    let returnType := (← get).fn.returnType
    match value with
    | some v =>
      if !returnType.isUnit then
        let c ← genExprAs n v returnType
        let result ← valueTemp returnType
        emitLine (result ++ " = " ++ c ++ ";")
        if returnType.isReference then emitLine ("aml_retain(" ++ result ++ ");")
        emitReleaseAll
        emitLine ("return " ++ result ++ ";")
      else
        let _ ← genExpr n v
        emitReleaseAll
        emitLine "return;"
    | none =>
      emitReleaseAll
      emitLine "return;"
    dropFrame

/-- The C of `scope { … }`: the static fields of its mocks are initialized first. -/
def genScopeBlock : Nat → List TypedStmt → EmitM Unit
  | 0, _ => pure ()
  | n + 1, ss => do
    emitLine "\x7b"
    pushIndent
    let t ← table
    for s in ss do
      let .mk (.mock (some m)) _ := s | continue
      for f in (t.cls m).staticFields do
        let some init ← initializer? f | continue
        let fd := t.field f
        let ft := fd.type.getD Ty.error
        beginFrame
        let v ← genExprAs n init ft
        emitStore fd.cName v ft
        endFrame
    genBlock n ss false
    popIndent
    emitLine "\x7d"

/-- The C of a switch: the subject is evaluated once; the clauses become an `if`/`else if`
chain in source order with `default` last, and a clause whose tests need statements opens a
nested `else` block. -/
def genSwitch : Nat → TypedExpr → Ty → List TypedClause → EmitM Unit
  | 0, _, _, _ => pure ()
  | n + 1, subject, subjectType, clauses => do
    let subjectType ← ty subjectType
    emitLine "\x7b"
    pushIndent
    pushScope false
    beginFrame
    let value ← genExprAs n subject subjectType
    let subj ← if subjectType.isReference then do
        let s ← valueTempC "aml_Object*" "NULL"
        emitLine (s ++ " = " ++ value ++ ";")
        emitLine ("aml_retain(" ++ s ++ ");")
        registerDrop s
        pure s
      else do
        let s ← valueTemp subjectType
        emitLine (s ++ " = " ++ value ++ ";")
        pure s
    endFrame
    let mut defaultBody : Option (List TypedStmt) := none
    let mut chained := false
    let mut nested := 0
    for clause in clauses do
      if clause.isDefault then
        defaultBody := some clause.body
        continue
      if chained then pushIndent
      beginFrame
      let (code, test) ← diverted (caseTests n subj subjectType clause.values)
      if chained then popIndent
      if code.isEmpty && (← frameEmpty) then
        dropFrame
        emitLine ((if chained then "\x7d else if (" else "if (") ++ test ++ ") \x7b")
      else
        if chained then
          emitLine "\x7d else \x7b"
          pushIndent
          nested := nested + 1
        emitRaw code
        let matched ← valueTempC "bool" "false"
        emitLine (matched ++ " = " ++ test ++ ";")
        endFrame
        emitLine ("if (" ++ matched ++ ") \x7b")
      pushIndent
      genBlock n clause.body false
      popIndent
      chained := true
    if let some body := defaultBody then
      if chained then
        emitLine "\x7d else \x7b"
        pushIndent
        genBlock n body false
        popIndent
      else genBlock n body false
    if chained then emitLine "\x7d"
    for _ in List.range nested do
      popIndent
      emitLine "\x7d"
    popScope true
    popIndent
    emitLine "\x7d"

/-- The test of a clause: its case values' tests joined by `||`, or `false`. -/
def caseTests : Nat → String → Ty → List TypedExpr → EmitM String
  | 0, _, _, _ => pure "false"
  | n + 1, subj, subjectType, values => do
    let mut joined := ""
    for v in values do
      let one ← caseTest n subj subjectType v
      joined := if joined.isEmpty then one else joined ++ " || " ++ one
    pure (if joined.isEmpty then "false" else joined)

/-- The test of one case value against the subject. -/
def caseTest : Nat → String → Ty → TypedExpr → EmitM String
  | 0, _, _, _ => pure "false"
  | n + 1, subj, subjectType, value => do
    let valueType ← typeOf value
    if valueType.isNull then
      return if subjectType.isNullablePrimitive then "!" ++ subj ++ ".has"
        else "(" ++ subj ++ " == NULL)"
    match subjectType, valueType with
    | .prim .., .prim .. =>
      let join := (Ty.numericJoin (subjectType.withNullable false) (valueType.withNullable false)).getD
        (subjectType.withNullable false)
      if subjectType.isNullablePrimitive || valueType.isNullablePrimitive then
        let opt := join.withNullable true
        let left ← coerce subj subjectType opt
        let right ← coerce (← genExpr n value) valueType opt
        return "AML_OPT_EQ(" ++ left ++ ", " ++ right ++ ")"
      let left ← coerce subj subjectType join
      let right ← coerce (← genExpr n value) valueType join
      pure ("(" ++ left ++ " == " ++ right ++ ")")
    | _, _ =>
      let object := SymbolTable.objectType true
      let right ← coerce (← genExpr n value) valueType object
      if subjectType.classOf? == some stringClass && valueType.classOf? == some stringClass then
        return "aml_string_equals(" ++ subj ++ ", " ++ right ++ ")"
      let left ← coerce subj subjectType object
      finishCall ("aml_equals(" ++ left ++ ", " ++ right ++ ")") Ty.bool true

end

end AmLang
