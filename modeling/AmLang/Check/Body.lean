import AmLang.Check.Rules
import AmLang.Check.Mock
import AmLang.Check.Assigned
import AmLang.Syntax.Printer
/-!
# Checking bodies

Checking the bodies of a unit: every expression gets its type, every name the local, field or
function it stands for, every call its target, and every statement its checks. The result is the
typed tree of each function body and initializer.

Expressions, statements, lambdas (which hold statements) and mocks (whose methods are checked
where they are declared) call each other, so the checking functions form one recursive family.
They take a fuel argument that bounds the depth of the walk; every call goes one level into the
syntax tree or into a helper of the same node, so a fuel of a few times the source size is never
used up (see `checkFuel`).

## Names

A plain name is, in this order: a local or parameter (innermost scope first); a field of the
current class or an ancestor; a static field; a namespace variable. A call `f(x)` is a method of
the current class, then a function of the namespaces. A dotted receiver that does not start with
a value names a class (`Util.max(…)`, with its mock when one is active) or a namespace.

## Calls

| Source           | Candidates                            | Call kind                  |
|------------------|---------------------------------------|----------------------------|
| `f(x)`           | methods of `this`, then functions `f` | virtual, static, free      |
| `obj.m(x)`       | methods of the receiver's class       | virtual, interface, direct |
| `Util.max(a, b)` | static methods of `Util`              | static                     |
| `super.m(x)`     | methods of the superclass             | direct                     |
| `super(x)`       | constructors of the superclass        | superConstructor           |
| `f(x)`, `f` a value | the function type of `f`           | closure                    |
| `5.toString()`   | methods of `Object`                   | primitive                  |
-/

namespace AmLang

namespace CheckM

/-- The argument a checked expression passes. -/
def argumentOf (e : TypedExpr) : Argument := ⟨e.type, e.intLiteral?⟩

/-- The argument types as messages show them: `(Int, String)`. -/
def describeArgs (args : List Argument) : CheckM String := do
  let env ← env
  pure ("(" ++ ", ".intercalate (args.map fun a => a.type.display env) ++ ")")

/-- Completes a call on a function value of type `calleeType`: checks arity, arguments and
nullability, and gives the call's type with the information it adds. -/
def closureCall (info : ExprInfo) (calleeType : Ty) (args : List Argument) (safe : Bool)
    (span : Span) : CheckM (Ty × ExprInfo) := do
  let env ← env
  match calleeType with
  | .func ps r nullable =>
    if nullable && !safe then
      nullSafetyNoted ("cannot call a value of nullable type '" ++ (← display calleeType) ++ "'")
        span ["check for null first, or use '?.'"]
      return (.error, info)
    if ps.length != args.length then
      mismatch ("function of type '" ++ (← display calleeType) ++ "' takes " ++
        toString ps.length ++ " arguments, found " ++ toString args.length) span
      return (.error, info)
    for ((a, p), i) in (args.zip ps).zipIdx do
      if (argumentCost env a p).isNone then
        mismatch ("argument " ++ toString (i + 1) ++ ": expected '" ++ (← display p) ++
          "', found '" ++ (← display a.type) ++ "'") span
        return (.error, info)
    let safeChain := safe && nullable
    let info := { info with callKind := .closure, paramTypes := ps, safeChain }
    pure (if safeChain && !r.isUnit then r.withNullable true else r, info)
  | _ =>
    mismatch ("value of type '" ++ (← display calleeType) ++ "' cannot be called") span
    pure (.error, info)

/-- Resolves a call among `candidates` and records what it chose: the function, its generic
arguments, its parameter types and its result as the type. Reports a failed resolution. -/
def finishCall (info : ExprInfo) (name : String) (candidates : List Candidate)
    (args : List Argument) (argExprs : List TypedExpr) (span : Span) :
    CheckM (Option FunctionId × ExprInfo) := do
  let env ← env
  let t ← table
  match resolveOverload env t.fn candidates args with
  | .noMatch =>
    let sameArity := candidates.filter (·.params.length == args.length)
    match sameArity with
    | [only] =>
      if !(t.fn only.fn).isGeneric then
        for (((a, p), e), i) in ((args.zip only.params).zip argExprs).zipIdx do
          if (argumentCost env a p).isSome then continue
          let _ ← checkAssignable a.type p e.span
            ("argument " ++ toString (i + 1) ++ " of '" ++ name ++ "'") (some e)
      else
        mismatchNoted ("no overload of '" ++ name ++ "' accepts " ++ (← describeArgs args)) span
          (candidates.map fun c => "candidate: " ++ (t.fn c.fn).signature env)
    | _ =>
      mismatchNoted ("no overload of '" ++ name ++ "' accepts " ++ (← describeArgs args)) span
        (candidates.map fun c => "candidate: " ++ (t.fn c.fn).signature env)
    pure (none, { info with type := .error })
  | .ambiguous tied =>
    report (Diagnostic.errorNoted .ambiguousOverload Code.ambiguous
      ("call to '" ++ name ++ "' with " ++ (← describeArgs args) ++ " is ambiguous") span
      (tied.map fun i => "candidate: " ++ (t.fn (candidates.getD i default).fn).signature env))
    pure (none, { info with type := .error })
  | .chosen index rank typeArgs params result =>
    log (Log.trace "binder" ("overload chose candidate " ++ toString index ++ " of " ++
      toString candidates.length ++ " (rank " ++ toString rank ++ ")"))
    let f := (candidates.getD index default).fn
    let fs := t.fn f
    let info := { info with function := some f, typeArgs, paramTypes := params, type := result }
    if fs.isGeneric then
      let ownerGeneric := (fs.owner.map fun o => (t.cls o).isGeneric).getD false
      let classArgs := match ownerGeneric, info.receiverType, fs.owner with
        | true, some r, some o => match Ty.ancestor env r o with
          | some v => match v.type with
            | .obj _ args _ => args
            | _ => []
          | none => []
        | _, _, _ => []
      recordCall f classArgs typeArgs span
    recordType result span
    log (Log.trace "binder" ("call " ++ name ++ " -> " ++ fs.cName))
    pure (some f, info)

/-- The type of a literal; an unsuffixed integer literal takes the expected numeric type when its
value fits it. -/
def literalType (tok : Token) (expected : Option Ty) : Ty :=
  match tok.kind with
  | .intLit => match tok.value with
    | .number (.long _) => .prim .long false
    | .number (.int v) => match expected with
      | some e => if e.isNumeric && literalFits v (e.withNullable false) then e.withNullable false
        else Ty.int
      | none => Ty.int
    | _ => Ty.int
  | .floatLit => match tok.value with
    | .number (.float _) => .prim .float false
    | _ => .prim .double false
  | .stringLit => SymbolTable.stringType false
  | .charLit => .prim .char false
  | .boolLit => Ty.bool
  | .nullLit => .null
  | _ => .error

/-- Checks a plain name used as a value. -/
def checkIdent (name : String) (span : Span) : CheckM TypedExpr := do
  let s ← get
  let done := fun (info : ExprInfo) (t : Ty) =>
    pure (TypedExpr.mk (.ident name) span { info with type := t })
  if let some x := s.scopes.lookup name then
    if Scopes.crossesLambda name x s.scopes then capture x
    let l ← localVar x
    match s.scopes.narrowedType? x with
    | some t => return ← done { localVar := some x, narrowed := true } t
    | none => return ← done { localVar := some x } l.type
  let t := s.work.table
  if let some c := s.cls then
    let self := (t.cls c).selfType c
    if let some (f, ft) := t.fieldOf s.env self name then
      if s.staticContext then
        mismatch ("instance field '" ++ name ++ "' cannot be used in a static context") span
        return ← done {} .error
      captureThis
      return ← done { field := some f, implicitThis := true, receiverType := some self } ft
    if let some f := t.findStaticField? c name then
      return ← done { field := some f } ((t.field f).type.getD .error)
  let l ← names
  if let some g := l.findGlobal? name s.ns then
    return ← done { field := some g } ((t.field g).type.getD .error)
  let isMethod := match s.cls with
    | some c => (t.superChain c).any fun k => (t.cls k).methods.contains name
    | none => false
  if !(l.functionLevels name s.ns).isEmpty || isMethod then
    mismatchNoted ("function '" ++ name ++ "' cannot be used as a value") span
      ["wrap the call in a lambda: fun (...) => " ++ name ++ "(...)"]
    return ← done {} .error
  if (l.findClass? [name] s.ns).isSome then
    mismatch ("'" ++ name ++ "' is a class, not a value") span
    return ← done {} .error
  let extra := match s.cls with
    | some c => (t.allFields c).map fun f => (t.field f).name
    | none => []
  unresolvedAmong "name" name span extra
  done {} .error

/-- Checks `this`. -/
def checkThis (span : Span) : CheckM TypedExpr := do
  let s ← get
  match s.cls with
  | some c =>
    if s.staticContext then
      mismatch "'this' is not available in a static context" span
      return .mk .thisRef span {}
    captureThis
    pure (.mk .thisRef span { type := (s.work.table.cls c).selfType c })
  | none =>
    mismatch "'this' is not available in a static context" span
    pure (.mk .thisRef span {})

end CheckM

open CheckM in
mutual

/-- Checks an expression; `expected` guides the typing of literals and is not checked here. -/
def checkExpr : Nat → Expr → Option Ty → CheckM TypedExpr
  | 0, e, _ => pure (TypedExpr.unchecked e)
  | n + 1, .mk k span, expected => do
    match k with
    | .literal tok =>
      pure (.mk (.literal tok) span { type := literalType tok expected })
    | .ident name => checkIdent name span
    | .thisRef => checkThis span
    | .superRef =>
      misplaced "'super' must be followed by a call or a member access" span
      pure (.mk .superRef span {})
    | .unary op operand => checkUnary n op operand expected span
    | .binary op l r => checkBinary n op l r span
    | .assign op target value => checkAssign n op target value span
    | .call callee args => checkCall n callee args span
    | .member obj name safe nameSpan => checkMember n obj name safe nameSpan span
    | .index obj idx => checkIndex n obj idx span
    | .newObject te args => checkNew n te args span
    | .newArray te size => checkNewArray n te size span
    | .interpolation segs => checkInterpolation n segs span
    | .arrayLit es => checkArrayLit n es expected span
    | .lambda ps result body => checkLambda n ps result body span
    | .cast operand te => do
      let o ← checkExpr n operand none
      let target ← resolveType te
      recordType target te.span
      let t ← castType o.type target span
      pure (.mk (.cast o) span { type := t, targetType := some target })
    | .typeTest operand te => do
      let o ← checkExpr n operand none
      let target ← resolveType te
      recordType target te.span
      checkTypeTest o.type target operand.span te.span
      pure (.mk (.typeTest o) span { type := Ty.bool, targetType := some target })
    | .cond c a b => checkIfExpr n c a b expected span

/-- Checks an expression and that its value may be stored where `target` is expected. -/
def checkExpect : Nat → Expr → Ty → String → CheckM TypedExpr
  | 0, e, _, _ => pure (TypedExpr.unchecked e)
  | n + 1, e, target, what => do
    let te ← checkExpr n e (some target)
    let _ ← checkAssignable te.type target e.span what (some te)
    pure te

/-- Checks a condition: a non-null `Bool`. -/
def checkCond : Nat → Expr → CheckM TypedExpr
  | 0, e => pure (TypedExpr.unchecked e)
  | n + 1, e => do
    let te ← checkExpr n e (some Ty.bool)
    checkCondition te.type e.span
    pure te

/-- Checks `-x`, `~x` and `!x`. -/
def checkUnary : Nat → UnaryOp → Expr → Option Ty → Span → CheckM TypedExpr
  | 0, _, operand, _, _ => pure (TypedExpr.unchecked operand)
  | n + 1, op, operand, expected, span => do
    match op with
    | .not =>
      let o ← checkCond n operand
      pure (.mk (.unary op o) span { type := Ty.bool })
    | _ =>
      let o ← checkExpr n operand expected
      let t ← unaryType op o.type span
      pure (.mk (.unary op o) span { type := t })

/-- Checks a binary operation. The right side of `&&` and `||` is checked under the facts the
left side establishes when it is evaluated. -/
def checkBinary : Nat → BinaryOp → Expr → Expr → Span → CheckM TypedExpr
  | 0, _, l, _, _ => pure (TypedExpr.unchecked l)
  | n + 1, op, l, r, span => do
    if op == .and || op == .or then
      let lt ← checkCond n l
      let rt ← inScope .block do
        applyNarrowings (narrowingsOf (← get).locals lt (op == .and))
        checkCond n r
      return .mk (.binary op lt rt) span { type := Ty.bool }
    let lt ← checkExpr n l none
    let rt ← checkExpr n r (some lt.type)
    if lt.type.isError || rt.type.isError then
      return .mk (.binary op lt rt) span {}
    let (t, concat) ← binaryType op lt rt span
    if concat then
      let lt ← setStringify lt
      let rt ← setStringify rt
      return .mk (.binary op lt rt) span { type := t, stringConcat := true }
    pure (.mk (.binary op lt rt) span { type := t })

/-- Checks an assignment. A plain local is assigned unless it is a parameter, a `val` or
captured; a field unless it is a `val` outside its class's constructor. Assigning forgets what
was known about the local, and a non-null value narrows a nullable local. -/
def checkAssign : Nat → AssignOp → Expr → Expr → Span → CheckM TypedExpr
  | 0, _, target, _, _ => pure (TypedExpr.unchecked target)
  | n + 1, op, target, value, span => do
    let s ← get
    let localTarget := match target with
      | .mk (.ident name) _ => (s.scopes.lookup name).map (name, ·)
      | _ => none
    let (tt, targetType, current, localX) ← match localTarget with
      | some (name, x) => do
        let l ← localVar x
        if l.isParam then
          mismatch ("cannot assign to parameter '" ++ name ++ "'") target.span
        else if l.isVal then
          mismatchNoted ("cannot assign to 'val' variable '" ++ name ++ "'") target.span
            ["declare it with 'var' to make it mutable"]
        else if Scopes.crossesLambda name x s.scopes then
          mismatch ("cannot assign captured variable '" ++ name ++ "' inside a lambda")
            target.span
        let current := (s.scopes.narrowedType? x).getD l.type
        pure (TypedExpr.mk (.ident name) target.span { localVar := some x, type := l.type },
          l.type, current, some x)
      | none => match target with
        | .mk (.ident _) _ | .mk (.member ..) _ | .mk (.index ..) _ => do
          let tt ← checkExpr n target none
          let mut targetType := tt.type
          let isIndex := match target with
            | .mk (.index ..) _ => true
            | _ => false
          if !targetType.isError && !isIndex then
            match tt.info.field with
            | none =>
              mismatch "invalid assignment target" target.span
              targetType := .error
            | some f =>
              if tt.info.safeChain then
                mismatch "cannot assign through '?.'" target.span
                targetType := .error
              else
                let s ← get
                let fd := s.work.table.field f
                if fd.isVal then
                  let throughThis := tt.info.implicitThis || match target with
                    | .mk (.member (.mk .thisRef _) _ _ _) _ => true
                    | _ => false
                  let inOwnConstructor := match s.fn with
                    | some g => (s.work.table.fn g).flags.isConstructor &&
                      (s.work.table.fn g).owner == fd.owner && s.lambdas.isEmpty && throughThis
                    | none => false
                  if !inOwnConstructor then
                    mismatchNoted ("cannot assign to 'val' field '" ++ fd.name ++ "'") target.span
                      ["'val' fields can only be set in a constructor"]
          pure (tt, targetType, tt.type, none)
        | _ => do
          let tt ← checkExpr n target none
          mismatch "invalid assignment target" target.span
          pure (tt, Ty.error, Ty.error, none)
    let (vt, valueType, concat) ← if op == .assign then do
        let vt ← if targetType.isError then checkExpr n value none
          else checkExpect n value targetType "assigned value"
        pure (vt, vt.type, false)
      else do
        let vt ← checkExpr n value (some current)
        if current.isError || vt.type.isError then pure (vt, vt.type, false)
        else
          let (t, concat) ← compoundType op current vt.type span
          if concat then pure (← setStringify vt, t, true) else pure (vt, t, false)
    if let some x := localX then
      forget x
      let l ← localVar x
      if l.type.nullable && !valueType.nullable && !valueType.isNull && !valueType.isError then
        narrow x (l.type.withNullable false)
    pure (.mk (.assign op tt vt) span { type := Ty.unit, stringConcat := concat })

/-- Checks `a[i]`. -/
def checkIndex : Nat → Expr → Expr → Span → CheckM TypedExpr
  | 0, obj, _, _ => pure (TypedExpr.unchecked obj)
  | n + 1, obj, idx, span => do
    let o ← checkExpr n obj none
    let i ← checkExpr n idx (some Ty.int)
    if !i.type.isError && (!i.type.isIntegral || i.type.nullable) then
      mismatch ("array index must be a non-null integer, found '" ++ (← display i.type) ++ "'")
        idx.span
    let node := fun (info : ExprInfo) => pure (TypedExpr.mk (.index o i) span info)
    match o.type with
    | .error => node {}
    | .array element nullable =>
      if nullable then
        nullSafetyNoted "cannot index a nullable array" span ["check for null first"]
      node { type := element, receiverType := some (o.type.withNullable false) }
    | t =>
      mismatch ("cannot index a value of type '" ++ (← display t) ++ "'") span
      node {}

/-- Checks an interpolated string; each expression segment is written as its type says. -/
def checkInterpolation : Nat → List Segment → Span → CheckM TypedExpr
  | 0, _, span => pure (.mk .unchecked span {})
  | n + 1, segs, span => do
    let typed ← segs.mapM fun seg => match seg with
      | .text text _ => pure (TypedSegment.text text)
      | .expr e segSpan => do
        let te ← checkExpr n e none
        if te.type.isUnit then
          mismatch "cannot interpolate a value of type Unit" segSpan
          pure (TypedSegment.expr te)
        else pure (TypedSegment.expr (← setStringify te))
    pure (.mk (.interpolation typed) span { type := SymbolTable.stringType false })

/-- Checks an array literal: against the expected element type when one is expected, otherwise
by the type its elements join to. -/
def checkArrayLit : Nat → List Expr → Option Ty → Span → CheckM TypedExpr
  | 0, _, _, span => pure (.mk .unchecked span {})
  | n + 1, es, expected, span => do
    let expectedElement := match expected with
      | some (.array e _) => some e
      | _ => none
    if let some element := expectedElement then
      let typed ← es.mapM fun e => checkExpect n e element "array element"
      let t := Ty.array element false
      recordType t span
      return .mk (.arrayLit typed) span { type := t }
    if es.isEmpty then
      mismatchNoted "cannot infer the element type of an empty array literal" span
        ["add a type annotation, e.g. 'val xs: Int[] = []'"]
      return .mk (.arrayLit []) span {}
    let mut joined : Option Ty := none
    let mut failed := false
    let mut typed : Array TypedExpr := #[]
    for e in es do
      let te ← checkExpr n e none
      typed := typed.push te
      if te.type.isError then
        failed := true
        continue
      match joined with
      | none => joined := some te.type
      | some j =>
        match Ty.common (← env) j te.type with
        | some next => joined := some next
        | none =>
          mismatch ("array element of type '" ++ (← display te.type) ++ "' does not match '" ++
            (← display j) ++ "'") e.span
          failed := true
    let node := TypedExpr.mk (.arrayLit typed.toList) span
    match failed, joined with
    | false, some j =>
      if j.isNull || j.isUnit then
        mismatch "cannot infer the element type of this array literal" span
        return node {}
      let t := Ty.array j false
      recordType t span
      pure (node { type := t })
    | _, _ => pure (node {})

/-- Checks a lambda: its parameters are locals of its own scope, and the locals of enclosing code
it reads are its captures. Without a declared result, an expression body gives the result type. -/
def checkLambda : Nat → List Param → Option TypeExpr → LambdaBody → Span → CheckM TypedExpr
  | 0, _, _, _, span => pure (.mk .unchecked span {})
  | n + 1, ps, result, body, span => do
    let id := (← get).lambdaCount
    modify fun s => { s with lambdaCount := s.lambdaCount + 1 }
    let paramTypes ← ps.mapM fun p => resolveType p.type
    let declared ← result.mapM resolveType
    let savedReturn := (← get).returnType
    let ((params, typedBody, r), frame) ← inLambda do
      let params ← (ps.zip paramTypes).mapM fun (p, t) => defineLocal p.name t true true p.span
      let (typedBody, r) ← match body with
        | .expr e => do
          modify fun s => { s with returnType := declared }
          match declared with
          | some r =>
            let te ← if r.isUnit then checkExpr n e none else checkExpect n e r "lambda result"
            pure (TypedLambdaBody.expr te, r)
          | none =>
            let te ← checkExpr n e none
            let r ← if te.type.isNull then do
                mismatch "cannot infer a lambda result type from null; declare one" e.span
                pure Ty.error
              else if te.type.isNever then pure Ty.unit
              else pure te.type
            pure (TypedLambdaBody.expr te, r)
        | .block b => do
          let r := declared.getD Ty.unit
          modify fun s => { s with returnType := some r }
          let stmts ← match b with
            | .mk (.block ss) _ => checkStmts n ss
            | other => do pure [← checkStmt n other]
          if !r.isUnit && !r.isError && TypedStmt.allComplete stmts then
            mismatch ("lambda must return a value of type '" ++ (← display r) ++
              "' on every path") span
          pure (TypedLambdaBody.block stmts, r)
      pure (params, typedBody, r)
    modify fun s => { s with returnType := savedReturn }
    let t := Ty.func paramTypes r false
    recordType t span
    log (Log.trace "binder" ("lambda #" ++ toString id ++ " captures " ++
      toString frame.captures.size ++ (if frame.capturesThis then " + this" else "")))
    pure (.mk (.lambda params typedBody) span
      { type := t, lambdaId := some id, captures := frame.captures.toList,
        capturesThis := frame.capturesThis })

/-- Checks `if (c) a else b` as an expression; each branch is checked under the facts the
condition establishes for it. -/
def checkIfExpr : Nat → Expr → Expr → Expr → Option Ty → Span → CheckM TypedExpr
  | 0, c, _, _, _, _ => pure (TypedExpr.unchecked c)
  | n + 1, c, a, b, expected, span => do
    let ct ← checkCond n c
    let thenT ← inScope .block do
      applyNarrowings (narrowingsOf (← get).locals ct true)
      checkExpr n a expected
    let elseT ← inScope .block do
      applyNarrowings (narrowingsOf (← get).locals ct false)
      checkExpr n b expected
    let t ← branchType thenT.type elseT.type expected span
    pure (.mk (.cond ct thenT elseT) span { type := t })

/-- Checks call arguments; the arguments are none when one of them failed. -/
def checkArgs : Nat → List Expr → CheckM (List TypedExpr × Option (List Argument))
  | 0, _ => pure ([], none)
  | n + 1, args => do
    let typed ← args.mapM fun a => checkExpr n a none
    let failed := typed.any (·.type.isError)
    pure (typed, if failed then none else some (typed.map argumentOf))

/-- Checks a call. -/
def checkCall : Nat → Expr → List Expr → Span → CheckM TypedExpr
  | 0, callee, _, _ => pure (TypedExpr.unchecked callee)
  | n + 1, callee, args, span => do
    match callee with
    | .mk .superRef _ => checkSuperCall n callee args span
    | .mk (.member obj name safe nameSpan) calleeSpan =>
      checkMethodCall n obj name safe nameSpan calleeSpan args span
    | .mk (.ident name) calleeSpan =>
      if ← isValueName name then checkValueCall n callee args span
      else checkNameCall n name calleeSpan args span
    | _ => checkValueCall n callee args span

/-- Checks a call of a value of function type. -/
def checkValueCall : Nat → Expr → List Expr → Span → CheckM TypedExpr
  | 0, callee, _, _ => pure (TypedExpr.unchecked callee)
  | n + 1, callee, args, span => do
    let ct ← checkExpr n callee none
    let (typedArgs, bound) ← checkArgs n args
    let node := fun (info : ExprInfo) => pure (TypedExpr.mk (.call ct typedArgs) span info)
    match bound with
    | some bound =>
      if ct.type.isError then return ← node {}
      let (t, info) ← closureCall {} ct.type bound false span
      node { info with type := t }
    | none => node {}

/-- Checks `super(…)`, allowed only as the first statement of a constructor. -/
def checkSuperCall : Nat → Expr → List Expr → Span → CheckM TypedExpr
  | 0, callee, _, _ => pure (TypedExpr.unchecked callee)
  | n + 1, callee, args, span => do
    let (typedArgs, bound) ← checkArgs n args
    let s ← get
    let t := s.work.table
    let node := fun (info : ExprInfo) =>
      pure (TypedExpr.mk (.call (.mk .superRef callee.span {}) typedArgs) span info)
    let inConstructor := match s.fn with
      | some f => (t.fn f).flags.isConstructor
      | none => false
    if !(s.superCallAllowed && inConstructor && s.lambdas.isEmpty) then
      misplaced "'super(...)' is only allowed as the first statement of a constructor" span
      return ← node {}
    modify fun s => { s with superCalled := true }
    match s.cls, s.cls.bind (t.cls · |>.superId?), bound with
    | some c, some sup, some bound =>
      let candidates := (t.cls sup).constructors.map fun k =>
        ⟨k, t.paramsSeenFrom c (t.fn k), Ty.unit⟩
      let info : ExprInfo := {
        callKind := .superConstructor, receiverType := (t.cls c).superclass, classRef := some sup }
      let (chosen, info) ← finishCall info (t.cls sup).name candidates bound typedArgs span
      if chosen.isNone then return ← node { info with type := .error }
      node { info with type := Ty.unit }
    | _, _, _ => node {}

/-- Checks a call `f(x)` of a name that is not a value: a method of the current class, then a
function of the namespaces. -/
def checkNameCall : Nat → String → Span → List Expr → Span → CheckM TypedExpr
  | 0, _, calleeSpan, _, _ => pure (.mk .unchecked calleeSpan {})
  | n + 1, name, calleeSpan, args, span => do
    let (typedArgs, bound) ← checkArgs n args
    let s ← get
    let t := s.work.table
    let calleeNode := TypedExpr.mk (.ident name) calleeSpan {}
    let node := fun (info : ExprInfo) => pure (TypedExpr.mk (.call calleeNode typedArgs) span info)
    let (self, candidates) := match s.cls with
      | some c =>
        let self := (t.cls c).selfType c
        (some self, t.methodCandidates s.env self name false ++ t.methodCandidates s.env self name true)
      | none => (none, [])
    if !candidates.isEmpty then
      let some bound := bound | return ← node {}
      let info : ExprInfo := { receiverType := self }
      let (chosen, info) ← finishCall info name candidates bound typedArgs span
      let some f := chosen | return ← node { info with type := .error }
      let fs := t.fn f
      let mut info := info
      if fs.isInstance then
        if (← get).staticContext then
          mismatch ("instance method '" ++ fs.signature s.env ++
            "' cannot be called from a static context") span
          return ← node { info with type := .error }
        info := { info with implicitThis := true }
        captureThis
      return ← node { info with callKind := t.callKindFor f }
    let l ← names
    match l.functionLevels name s.ns with
    | [] =>
      if (l.findClass? [name] s.ns).isSome then
        mismatch ("'" ++ name ++ "' is a class; use 'new " ++ name ++ "(...)'") span
      else unresolved "function" name calleeSpan
      node {}
    | level :: _ =>
      let some bound := bound | return ← node {}
      let candidates := level.map fun f => ⟨f, (t.fn f).params, (t.fn f).result⟩
      let (chosen, info) ← finishCall {} name candidates bound typedArgs span
      if chosen.isNone then return ← node { info with type := .error }
      node { info with callKind := .free }

/-- Checks a call `obj.m(x)`: through `super`, on a class or namespace path, or on a value. -/
def checkMethodCall : Nat → Expr → String → Bool → Span → Span → List Expr → Span →
    CheckM TypedExpr
  | 0, obj, _, _, _, _, _, _ => pure (TypedExpr.unchecked obj)
  | n + 1, obj, name, safe, nameSpan, calleeSpan, args, span => do
    let s ← get
    let t := s.work.table
    let env := s.env
    let callNode := fun (objT : TypedExpr) (calleeInfo : ExprInfo) (typedArgs : List TypedExpr)
        (info : ExprInfo) =>
      pure (TypedExpr.mk (.call (.mk (.member objT name safe) calleeSpan calleeInfo) typedArgs)
        span info)
    if let .mk .superRef objSpan := obj then
      let (typedArgs, bound) ← checkArgs n args
      let sup := s.cls.bind fun c => (t.cls c).superclass
      match s.cls, sup with
      | some _, some supTy =>
        if s.staticContext then
          mismatch "'super' is not available here" span
          return ← callNode (.mk .superRef objSpan {}) {} typedArgs {}
        captureThis
        let objT := TypedExpr.mk .superRef objSpan { type := supTy }
        let candidates := t.methodCandidates env supTy name false
        if candidates.isEmpty then
          unresolved "method" name nameSpan
          return ← callNode objT {} typedArgs {}
        let some bound := bound | return ← callNode objT {} typedArgs {}
        let (chosen, info) ← finishCall { receiverType := some supTy } name candidates bound
          typedArgs span
        let some f := chosen | return ← callNode objT {} typedArgs { info with type := .error }
        if (t.fn f).flags.isAbstract then
          mismatch ("cannot call abstract method '" ++ (t.fn f).signature env ++
            "' through 'super'") span
          return ← callNode objT {} typedArgs { info with type := .error }
        callNode objT {} typedArgs { info with callKind := .direct }
      | _, _ =>
        mismatch "'super' is not available here" span
        callNode (.mk .superRef objSpan {}) {} typedArgs {}
    else if let some path ← staticPath obj then
      let (typedArgs, bound) ← checkArgs n args
      let (objT, candidates) ← match path with
        | .cls c => do
          let objT := TypedExpr.mk .unchecked obj.span { classRef := some c }
          let cands := t.methodCandidates env ((t.cls c).selfType c) name true
          if cands.isEmpty then
            unresolved "static method" ((t.cls c).name ++ "." ++ name) nameSpan
          pure (objT, cands)
        | .space p => do
          let objT := TypedExpr.unchecked obj
          match (← names).findQualifiedFunctions? p name s.ns with
          | some set => pure (objT, set.map fun f => ⟨f, (t.fn f).params, (t.fn f).result⟩)
          | none =>
            unresolved "function" (joinPath p ++ "." ++ name) nameSpan
            pure (objT, [])
      if candidates.isEmpty then return ← callNode objT {} typedArgs {}
      let some bound := bound | return ← callNode objT {} typedArgs {}
      let (chosen, info) ← finishCall {} name candidates bound typedArgs span
      if chosen.isNone then return ← callNode objT {} typedArgs { info with type := .error }
      let kind : CallKind := match path with
        | .cls _ => .static
        | .space _ => .free
      callNode objT {} typedArgs { info with callKind := kind }
    else
      let recv ← checkExpr n obj none
      let (typedArgs, bound) ← checkArgs n args
      if recv.type.isError then return ← callNode recv {} typedArgs {}
      if recv.type.nullable && !safe then
        nullSafetyNoted ("receiver of '" ++ name ++ "' may be null") obj.span
          ["check for null first, or use '?.'"]
        return ← callNode recv {} typedArgs {}
      let safeChain := safe && recv.type.nullable
      let target := recv.type.withNullable false
      let base : ExprInfo := { receiverType := some target, safeChain }
      let calleeInfo : ExprInfo := { receiverType := some target, safeChain }
      let finish := fun (t : Ty) =>
        if t.isError then t else if safeChain && !t.isUnit then t.withNullable true else t
      let (candidates, kind) : List Candidate × CallKind := match target with
        | .prim .. => (t.objectMethods name, .primitive)
        | .param .. => (t.objectMethods name, .generic)
        | .array .. | .func .. => (t.objectMethods name, .virtual)
        | .obj .. => (t.methodCandidates env target name false, .none)
        | _ => ([], .none)
      if candidates.isEmpty then
        if let some (f, ft) := t.fieldOf env target name then
          if let .func .. := ft then
            let calleeInfo := { calleeInfo with field := some f, type := ft }
            let some bound := bound | return ← callNode recv calleeInfo typedArgs base
            let (ty, info) ← closureCall base ft bound false span
            return ← callNode recv calleeInfo typedArgs { info with type := finish ty }
        let methodNames := match target.classOf? with
          | some c => (t.cls c).methods.keys
          | none => []
        unresolvedAmong "method" name nameSpan methodNames
        return ← callNode recv calleeInfo typedArgs base
      let some bound := bound | return ← callNode recv calleeInfo typedArgs base
      let (chosen, info) ← finishCall base name candidates bound typedArgs span
      let some f := chosen | return ← callNode recv calleeInfo typedArgs { info with type := .error }
      if (t.fn f).flags.isStatic then
        mismatch ("static method '" ++ (t.fn f).signature env ++
          "' must be called through its class") span
        return ← callNode recv calleeInfo typedArgs { info with type := .error }
      let kind := if kind != .none then kind else t.callKindFor f
      callNode recv calleeInfo typedArgs { info with callKind := kind, type := finish info.type }

/-- Checks a member access `obj.name` used as a value: a field through `super`, a static field
or namespace variable on a path, or a field (or an array's `length`) of a value. -/
def checkMember : Nat → Expr → String → Bool → Span → Span → CheckM TypedExpr
  | 0, obj, _, _, _, _ => pure (TypedExpr.unchecked obj)
  | n + 1, obj, name, safe, nameSpan, span => do
    let s ← get
    let t := s.work.table
    let env := s.env
    let node := fun (objT : TypedExpr) (info : ExprInfo) =>
      pure (TypedExpr.mk (.member objT name safe) span info)
    if let .mk .superRef objSpan := obj then
      let sup := s.cls.bind fun c => (t.cls c).superclass
      match sup with
      | some supTy =>
        if s.staticContext then
          mismatch "'super' is not available here" span
          return ← node (.mk .superRef objSpan {}) {}
        captureThis
        let objT := TypedExpr.mk .superRef objSpan { type := supTy }
        match t.fieldOf env supTy name with
        | some (f, ft) => node objT { field := some f, receiverType := some supTy, type := ft }
        | none =>
          unresolved "field" name nameSpan
          node objT {}
      | none =>
        mismatch "'super' is not available here" span
        node (.mk .superRef objSpan {}) {}
    else if let some path ← staticPath obj then
      match path with
      | .cls c =>
        let objT := TypedExpr.mk .unchecked obj.span { classRef := some c }
        if let some f := t.findStaticField? c name then
          return ← node objT { field := some f, type := (t.field f).type.getD .error }
        if (t.findField? c name).isSome then
          mismatch ("instance field '" ++ name ++ "' needs an instance of '" ++ (t.cls c).name ++
            "'") span
          return ← node objT {}
        unresolved "static field" ((t.cls c).name ++ "." ++ name) nameSpan
        node objT {}
      | .space p =>
        let objT := TypedExpr.unchecked obj
        match (← names).findQualifiedGlobal? p name s.ns with
        | some g => node objT { field := some g, type := (t.field g).type.getD .error }
        | none =>
          unresolved "name" (joinPath p ++ "." ++ name) nameSpan
          node objT {}
    else
      let recv ← checkExpr n obj none
      if recv.type.isError then return ← node recv {}
      if recv.type.nullable && !safe then
        nullSafetyNoted ("receiver of '" ++ name ++ "' may be null") obj.span
          ["check for null first, or use '?.'"]
        return ← node recv {}
      let safeChain := safe && recv.type.nullable
      let target := recv.type.withNullable false
      let base : ExprInfo := { receiverType := some target, safeChain }
      let result := fun (ty : Ty) => if safeChain then ty.withNullable true else ty
      if let .array .. := target then
        if name == "length" then
          return ← node recv { base with arrayLength := true, type := result Ty.int }
      match t.fieldOf env target name with
      | some (f, ft) => node recv { base with field := some f, type := result ft }
      | none =>
        if !(t.methodCandidates env target name false).isEmpty then
          mismatchNoted ("method '" ++ name ++ "' cannot be used as a value") span
            ["call it, or wrap the call in a lambda"]
          return ← node recv base
        let fieldNames := match target.classOf? with
          | some c => (t.allFields c).map fun f => (t.field f).name
          | none => []
        unresolvedAmong "field" name nameSpan fieldNames
        node recv base

/-- Checks `new C(args)`: the class, with its mock when one is active, must be instantiable, and
the arguments choose its constructor. The type stays the written class. -/
def checkNew : Nat → TypeExpr → List Expr → Span → CheckM TypedExpr
  | 0, _, _, span => pure (.mk .unchecked span {})
  | n + 1, te, args, span => do
    let (typedArgs, bound) ← checkArgs n args
    let node := fun (info : ExprInfo) => pure (TypedExpr.mk (.newObject typedArgs) span info)
    let .named .. := te
      | do
        mismatch "'new' needs a class type" te.span
        node {}
    let ty ← resolveType te
    if ty.isError then return ← node {}
    let .obj declared _ _ := ty
      | do
        mismatch ("cannot instantiate '" ++ (← display ty) ++ "'") te.span
        node {}
    let ty := ty.withNullable false
    let s ← get
    let t := s.work.table
    let c := s.mocks.apply declared
    let k := t.cls c
    if k.isInterface || k.isAbstract then
      mismatch ("cannot instantiate " ++ (if k.isInterface then "interface" else "abstract class") ++
        " '" ++ k.name ++ "'") te.span
      return ← node {}
    let some bound := bound | return ← node {}
    let subst := ty.substOf s.env
    let candidates := k.constructors.map fun f =>
      ⟨f, (t.fn f).params.map (·.substitute subst), Ty.unit⟩
    if candidates.isEmpty then
      mismatch ("class '" ++ k.name ++ "' has no constructor") span
      return ← node {}
    let info : ExprInfo := { classRef := some c, receiverType := some ty }
    let (chosen, info) ← finishCall info k.name candidates bound typedArgs span
    if chosen.isNone then return ← node { info with type := .error }
    recordType ty span
    if c != declared then
      log (Log.debug "binder" ("new " ++ (t.cls declared).name ++ " uses mock " ++ k.cName))
    node { info with type := ty }

/-- Checks `new T[size]`; reference elements start out null, so their type is nullable. -/
def checkNewArray : Nat → TypeExpr → Expr → Span → CheckM TypedExpr
  | 0, _, _, span => pure (.mk .unchecked span {})
  | n + 1, te, size, span => do
    let element ← resolveType te
    let st ← checkExpr n size (some Ty.int)
    if !st.type.isError && (!st.type.isIntegral || st.type.nullable) then
      mismatch ("array size must be a non-null integer, found '" ++ (← display st.type) ++ "'")
        size.span
    if element.isError then return .mk (.newArray st) span {}
    let element := if element.isReference then element.withNullable true else element
    let t := Ty.array element false
    recordType t span
    pure (.mk (.newArray st) span { type := t })

/-- Checks a statement. -/
def checkStmt : Nat → Stmt → CheckM TypedStmt
  | 0, .mk _ span => pure (.mk .breakStmt span)
  | n + 1, .mk k span => do
    let firstInConstructor := (← get).superCallAllowed
    modify fun s => { s with superCallAllowed := false }
    let node := fun (k : TypedStmtKind) => pure (TypedStmt.mk k span)
    match k with
    | .block ss => node (.block (← checkBlock n ss .block []))
    | .ifThen c t e => checkIf n c t e span
    | .whileLoop c body => do
      (c.assignedNames ++ body.assignedNames).forM forgetName
      let ct ← checkCond n c
      let bt ← checkBody n body .loop (narrowingsOf (← get).locals ct true)
      node (.whileLoop ct bt)
    | .forRange var varSpan lo hi body => checkFor n var varSpan lo hi body span
    | .loop body => do
      body.assignedNames.forM forgetName
      node (.loop (← checkBody n body .loop []))
    | .switch subject clauses => checkSwitch n subject clauses span
    | .varDecl isVal name nameSpan type init => checkVar n isVal name nameSpan type init span
    | .returnStmt value => checkReturn n value span
    | .throwStmt value => do
      let te ← checkExpr n value none
      let _ ← checkAssignable te.type (.obj exceptionClass [] false) value.span "thrown value"
        (some te)
      node (.throwStmt te)
    | .breakStmt =>
      if !(← get).scopes.inLoop then misplaced "'break' outside a loop" span
      node .breakStmt
    | .continueStmt =>
      if !(← get).scopes.inLoop then misplaced "'continue' outside a loop" span
      node .continueStmt
    | .exprStmt e => do
      let superCall := match e with
        | .mk (.call (.mk .superRef _) _) _ => true
        | _ => false
      modify fun s => { s with superCallAllowed := firstInConstructor && superCall }
      let te ← checkExpr n e none
      modify fun s => { s with superCallAllowed := false }
      node (.exprStmt te)
    | .scope ss => do
      modify fun s => { s with mocks := [] :: s.mocks }
      let typed ← inScope .block do
        for st in ss do
          if let .mock d := st.kind then declareMock d
        checkStmts n ss
      modify fun s => { s with mocks := s.mocks.drop 1 }
      node (.scope typed)
    | .mock d => do
      checkMock n d
      let cls := match ← mockFor? d with
        | some (some m) => some m.cls
        | _ => none
      node (.mock cls)

/-- Checks the statements of a list in order. -/
def checkStmts : Nat → List Stmt → CheckM (List TypedStmt)
  | 0, _ => pure []
  | n + 1, ss => ss.mapM (checkStmt n)

/-- Checks a block's statements in a new scope of kind `kind` in which `facts` hold. -/
def checkBlock : Nat → List Stmt → ScopeKind → Narrowings → CheckM (List TypedStmt)
  | 0, _, _, _ => pure []
  | n + 1, ss, kind, facts => inScope kind do
    applyNarrowings facts
    checkStmts n ss

/-- Checks the body of a loop or branch in a new scope of kind `kind` in which `facts` hold. -/
def checkBody : Nat → Stmt → ScopeKind → Narrowings → CheckM TypedStmt
  | 0, .mk _ span, _, _ => pure (.mk .breakStmt span)
  | n + 1, body, kind, facts => do
    match body with
    | .mk (.block ss) span => pure (.mk (.block (← checkBlock n ss kind facts)) span)
    | _ => inScope kind do
      applyNarrowings facts
      checkStmt n body

/-- Checks an `if` statement. Where one branch cannot complete, the facts of the other hold
after the `if`, less what that branch assigns. -/
def checkIf : Nat → Expr → Stmt → Option Stmt → Span → CheckM TypedStmt
  | 0, _, _, _, span => pure (.mk .breakStmt span)
  | n + 1, c, thenB, elseB, span => do
    let ct ← checkCond n c
    let locals := (← get).locals
    let whenTrue := narrowingsOf locals ct true
    let whenFalse := narrowingsOf locals ct false
    let tt ← checkBody n thenB .block whenTrue
    let et ← elseB.mapM fun e => checkBody n e .block whenFalse
    let thenCompletes := tt.canComplete
    let elseCompletes := match et with
      | some e => e.canComplete
      | none => true
    if !thenCompletes && elseCompletes then
      applyNarrowings whenFalse
      if let some e := elseB then e.assignedNames.forM forgetName
    else if thenCompletes && !elseCompletes then
      applyNarrowings whenTrue
      thenB.assignedNames.forM forgetName
    pure (.mk (.ifThen ct tt et) span)

/-- Checks `for (i = a to b)`: the bounds join to a non-null integer type, the type of the loop
variable, a `val` of its own scope. -/
def checkFor : Nat → String → Span → Expr → Expr → Stmt → Span → CheckM TypedStmt
  | 0, _, _, _, _, _, span => pure (.mk .breakStmt span)
  | n + 1, var, varSpan, lo, hi, body, span => do
    let lt ← checkExpr n lo none
    let ht ← checkExpr n hi none
    let mut ty := Ty.error
    if !lt.type.isError && !ht.type.isError then
      match Ty.numericJoin lt.type ht.type with
      | some j =>
        if j.isIntegral && !j.nullable then ty := j
        else
          mismatch ("range bounds must be non-null integers, found '" ++ (← display lt.type) ++
            "' and '" ++ (← display ht.type) ++ "'") lo.span
      | none =>
        mismatch ("range bounds must be non-null integers, found '" ++ (← display lt.type) ++
          "' and '" ++ (← display ht.type) ++ "'") lo.span
    body.assignedNames.forM forgetName
    let (x, bt) ← inScope .block do
      let x ← defineLocal var ty true false varSpan
      let bt ← checkBody n body .loop []
      pure (x, bt)
    pure (.mk (.forRange x lt ht bt) span)

/-- Checks a switch: each case value must be comparable with the subject, a constant value may
appear once, and no `case` may follow `default`. -/
def checkSwitch : Nat → Expr → List Clause → Span → CheckM TypedStmt
  | 0, _, _, span => pure (.mk .breakStmt span)
  | n + 1, subject, clauses, span => do
    let st ← checkExpr n subject none
    let subjectType := st.type
    let mut seen : List (String × Span) := []
    let mut seenDefault := false
    let mut typed : Array TypedClause := #[]
    for clause in clauses do
      if seenDefault && !clause.orderingReported then
        report (Diagnostic.error .invalidSwitchOrdering Code.switchOrder
          "'case' after 'default' in switch" clause.span)
      seenDefault := seenDefault || clause.isDefault
      let mut values : Array TypedExpr := #[]
      for value in clause.values do
        let vt ← checkExpr n value (some subjectType)
        values := values.push vt
        if vt.type.isError || subjectType.isError then continue
        if !(← converts vt.type subjectType) && !(← converts subjectType vt.type) then
          mismatch ("case value of type '" ++ (← display vt.type) ++
            "' cannot match a subject of type '" ++ (← display subjectType) ++ "'") value.span
          continue
        let some key := caseKey value | continue
        match seen.find? (·.1 == key) with
        | some (_, first) =>
          report (Diagnostic.errorNoted .duplicateCaseValue Code.duplicateCase
            ("duplicate case value '" ++ value.render ++ "'") value.span
            ["first used at line " ++ toString first.start.line])
        | none => seen := seen ++ [(key, value.span)]
      let body ← checkBlock n clause.body .block []
      typed := typed.push (.mk values.toList clause.isDefault body)
    pure (.mk (.switch st subjectType typed.toList) span)

/-- Checks `val`/`var`: the declared type, or the initializer's type when none is declared. A
nullable variable initialized with a non-null value starts out narrowed. -/
def checkVar : Nat → Bool → String → Span → Option TypeExpr → Option Expr → Span →
    CheckM TypedStmt
  | 0, _, _, _, _, _, span => pure (.mk .breakStmt span)
  | n + 1, isVal, name, nameSpan, type, init, span => do
    let declared ← type.mapM resolveType
    let (typedInit, ty, initType) ← match init, declared with
      | none, _ => do
        mismatch ("variable '" ++ name ++ "' needs an initializer") nameSpan
        pure (none, declared.getD .error, none)
      | some e, some d => do
        let te ← if d.isError then checkExpr n e none
          else checkExpect n e d ("initializer of '" ++ name ++ "'")
        pure (some te, d, some te.type)
      | some e, none => do
        let te ← checkExpr n e none
        let it := te.type
        let ty ← if it.isNull then do
            mismatch ("cannot infer the type of '" ++ name ++ "' from null; add a type annotation")
              nameSpan
            pure Ty.error
          else if it.isUnit then do
            mismatch ("variable '" ++ name ++ "' cannot have type Unit") nameSpan
            pure Ty.error
          else if it.isNever then pure Ty.error
          else pure it
        pure (some te, ty, some it)
    let ty ← if ty.isUnit && declared.isSome then do
        mismatch ("variable '" ++ name ++ "' cannot have type Unit") nameSpan
        pure Ty.error
      else pure ty
    let x ← defineLocal name ty isVal false nameSpan
    match declared, initType with
    | some d, some it =>
      if d.nullable && !it.nullable && !it.isNull && !it.isError then
        narrow x (d.withNullable false)
    | _, _ => pure ()
    pure (.mk (.varDecl x typedInit) span)

/-- Checks `return`: a value where the function returns one, none where it returns `Unit`. -/
def checkReturn : Nat → Option Expr → Span → CheckM TypedStmt
  | 0, _, span => pure (.mk .breakStmt span)
  | n + 1, value, span => do
    match (← get).returnType with
    | none =>
      misplaced "'return' outside a function" span
      let vt ← value.mapM fun v => checkExpr n v none
      pure (.mk (.returnStmt vt) span)
    | some r =>
      match value with
      | some v =>
        if r.isUnit then
          let vt ← checkExpr n v none
          if !vt.type.isError && !vt.type.isUnit then
            mismatch "a function returning Unit cannot return a value" v.span
          pure (.mk (.returnStmt (some vt)) span)
        else
          let vt ← checkExpect n v r "return value"
          pure (.mk (.returnStmt (some vt)) span)
      | none =>
        if !r.isUnit && !r.isError then
          mismatch ("missing return value of type '" ++ (← display r) ++ "'") span
        pure (.mk (.returnStmt none) span)

/-- Checks a `mock` declaration: declares the mock if it is not yet, then checks its members. -/
def checkMock : Nat → Decl → CheckM Unit
  | 0, _ => pure ()
  | n + 1, d => do
    declareMock d
    if let some (some m) ← mockFor? d then
      let members := match d.kind with
        | .classDecl _ _ _ _ ms _ _ => ms
        | _ => []
      checkMembers n m.cls (members.zip m.members)

/-- Checks the initializers and bodies of a class's members, each with its symbol. -/
def checkMembers : Nat → ClassId → List (Decl × MemberSymbol) → CheckM Unit
  | 0, _, _ => pure ()
  | n + 1, c, members => do
    let saved := (← get).cls
    modify fun s => { s with cls := some c }
    for (d, sym) in members do
      match sym with
      | .field f => checkInitializer n f d
      | .function f => checkFunction n f d
      | .none => pure ()
    modify fun s => { s with cls := saved }

/-- Checks a function, method, constructor or test body. A function with a result other than
`Unit` must not be able to complete its body. -/
def checkFunction : Nat → FunctionId → Decl → CheckM Unit
  | 0, _, _ => pure ()
  | n + 1, f, d => do
    let s ← get
    let t := s.work.table
    let fs := t.fn f
    let isStatic := s.cls.isNone || fs.flags.isStatic
    let ownerCls := s.cls.filter fun c => (t.cls c).isGeneric && !fs.flags.isStatic
    inBody (fun s => { s with
        fn := some f, staticContext := isStatic,
        owner := { cls := ownerCls, fn := if fs.isGeneric then some f else none },
        returnType := some fs.result, scopes := [{ kind := .function }], lambdas := [] }) do
      let (params, body) := match d.kind with
        | .function _ _ ps _ body _ => (ps, body)
        | _ => ([], none)
      let paramLocals ← params.zipIdx.mapM fun (p, i) =>
        defineLocal p.name (fs.params.getD i .error) true true p.span
      let (typedBody, superConstructor) ← match body with
        | some (.mk (.block stmts) _) => do
          let (typed, superConstructor) ← if fs.flags.isConstructor then
              checkConstructorBody n f d stmts
            else pure (← checkStmts n stmts, none)
          let r := fs.result
          if !r.isUnit && !r.isError && TypedStmt.allComplete typed then
            mismatch ("function '" ++ fs.name ++ "' must return a value of type '" ++
              (← display r) ++ "' on every path") d.nameSpan
          pure (some typed, superConstructor)
        | _ => pure (none, none)
      let typedFn : TypedFunction := { params := paramLocals, body := typedBody, superConstructor }
      modify fun s => { s with functions := s.functions.insert f typedFn }

/-- Checks a constructor's statements; the first may call `super(…)`. Without that call the
superclass's constructor without parameters runs first, which it must have. -/
def checkConstructorBody : Nat → FunctionId → Decl → List Stmt →
    CheckM (List TypedStmt × Option FunctionId)
  | 0, _, _, _ => pure ([], none)
  | n + 1, f, d, stmts => do
    modify fun s => { s with superCalled := false }
    let mut typed : Array TypedStmt := #[]
    for (st, i) in stmts.zipIdx do
      modify fun s => { s with superCallAllowed := i == 0 }
      typed := typed.push (← checkStmt n st)
      modify fun s => { s with superCallAllowed := false }
    let s ← get
    if s.superCalled then return (typed.toList, none)
    let t := s.work.table
    let some c := s.cls | return (typed.toList, none)
    let some sup := (t.cls c).superId? | return (typed.toList, none)
    match (t.cls sup).constructors.find? fun k => (t.fn k).params.isEmpty with
    | some k => pure (typed.toList, some k)
    | none =>
      mismatch ("constructor '" ++ (t.cls c).name ++ "." ++ (t.fn f).signature s.env ++
        "' must call super(...): '" ++ (t.cls sup).name ++ "' has no zero-argument constructor")
        d.nameSpan
      pure (typed.toList, none)

/-- Checks the initializer of a field or namespace variable against its type. -/
def checkInitializer : Nat → FieldId → Decl → CheckM Unit
  | 0, _, _ => pure ()
  | n + 1, f, d => do
    let .field name _ (some init) _ _ := d.kind | pure ()
    let s ← get
    let t := s.work.table
    let fd := t.field f
    let isStatic := fd.isStatic || fd.owner.isNone
    let ownerCls := s.cls.filter fun c => (t.cls c).isGeneric && !isStatic
    inBody (fun s => { s with
        fn := none, staticContext := isStatic, owner := { cls := ownerCls },
        returnType := none, scopes := [{ kind := .function }], lambdas := [] }) do
      let ty := fd.type.getD .error
      let te ← if ty.isError then checkExpr n init none
        else checkExpect n init ty ("initializer of '" ++ name ++ "'")
      modify fun s => { s with initializers := s.initializers.insert f te }

end

end AmLang
