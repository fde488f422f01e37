import AmLang.Syntax.Parser.Monad
import AmLang.Syntax.Printer
/-!
# The grammar

A recursive-descent parser; binary operators by precedence climbing.

| level      | operators                   | associativity |
|------------|-----------------------------|---------------|
| assignment | `= += -= *= /= %=`          | right         |
| or         | `||`                        | left          |
| and        | `&&`                        | left          |
| equality   | `== !=`                     | left          |
| relational | `< <= > >= is as`           | left          |
| additive   | `+ -`                       | left          |
| multiply   | `* / %`                     | left          |
| unary      | `- ! ~` (prefix)            |               |
| postfix    | call, index, `.`, `?.`      |               |

An `if (c) a else b` expression takes its branches at the level just above assignment. A call
`(` or index `[` belongs to the expression before it only when it starts on the line where that
expression ends, so a parenthesised statement on the next line is not a call. A `-` directly
before a number literal is folded into the literal, so that `-2147483648` is an `Int`.

Errors read "expected X, found Y". A declaration that fails is dropped and reported, and
parsing goes on at the next place a declaration can start (see `synchronize`), so one pass
reports several independent errors.

Every function takes a fuel argument that bounds its depth of recursion, loops included. Each
loop round consumes a token, and between two consumed tokens the descent passes a bounded number
of levels, so the entry points give fuel proportional to the number of tokens, which no input
exhausts.
-/

namespace AmLang.Parser

/-- The binding strength of an infix operator token; 0 for tokens that are none. -/
def precedence : TokenKind → Nat
  | .assign | .plusAssign | .minusAssign | .starAssign | .slashAssign | .percentAssign => 1
  | .orOr => 3
  | .andAnd => 4
  | .eq | .ne => 5
  | .lt | .le | .gt | .ge | .kwIs | .kwAs => 6
  | .plus | .minus => 7
  | .star | .slash | .percent => 8
  | _ => 0

/-- The assignment operator of a token. -/
def assignOp? : TokenKind → Option AssignOp
  | .assign => some .assign
  | .plusAssign => some .add
  | .minusAssign => some .sub
  | .starAssign => some .mul
  | .slashAssign => some .div
  | .percentAssign => some .mod
  | _ => none

/-- The binary operator of a token. -/
def binaryOp? : TokenKind → Option BinaryOp
  | .plus => some .add
  | .minus => some .sub
  | .star => some .mul
  | .slash => some .div
  | .percent => some .mod
  | .eq => some .eq
  | .ne => some .ne
  | .lt => some .lt
  | .le => some .le
  | .gt => some .gt
  | .ge => some .ge
  | .andAnd => some .and
  | .orOr => some .or
  | _ => none

/-- The message of a directive that is not followed by a class, interface or function. -/
def danglingMessage : String := "expected a class, interface or function after directive"

/-- The error for a directive with nothing it can gate after it. -/
def dangling (span : Span) : Diagnostic :=
  Diagnostic.error .syntaxError Code.danglingDirective danglingMessage span

/-- The rest of a dotted name after its first part. -/
def pathRest : Nat → P (List String)
  | 0 => pure []
  | fuel + 1 => do
    if (← check .dot) && (← checkNext .identifier) then
      let _ ← advance
      let t ← advance
      return t.lexeme :: (← pathRest fuel)
    pure []

/-- A dotted name `A.B.C`. -/
def path : P (List String) := do
  let first ← expect .identifier "a name"
  return first.lexeme :: (← pathRest (← remaining))

/-- Names separated by commas. -/
def genericNames : Nat → P (List String)
  | 0 => exhausted
  | fuel + 1 => do
    let name ← expect .identifier "a generic parameter name"
    if ← accept .comma then return name.lexeme :: (← genericNames fuel)
    pure [name.lexeme]

/-- Generic parameters `<T, U>`. -/
def genericParams : P (List String) := do
  let _ ← advance
  let names ← genericNames (← remaining)
  let _ ← expect .gt "'>' to close generic parameters"
  pure names

/-- Directives before a declaration, each followed by optional semicolons. -/
def requirements : Nat → P (List Requirement)
  | 0 => pure []
  | fuel + 1 => do
    if ← check .directive then
      let t ← advance
      skipSemis
      let req := match t.value with
        | .require f neg => { feature := f, negated := neg, span := t.span }
        | _ => { feature := "", negated := false, span := t.span }
      return req :: (← requirements fuel)
    pure []

/-- Modifiers before a member, in any order and number. -/
def modifiers : Nat → FunctionFlags → Bool → P (FunctionFlags × Bool)
  | 0, f, any => pure (f, any)
  | fuel + 1, f, any => do
    if ← accept .kwStatic then modifiers fuel { f with isStatic := true } true
    else if ← accept .kwOverride then modifiers fuel { f with isOverride := true } true
    else if ← accept .kwAbstract then modifiers fuel { f with isAbstract := true } true
    else if ← accept .kwSuspend then modifiers fuel { f with isSuspend := true } true
    else if ← accept .kwNative then modifiers fuel { f with isNative := true } true
    else pure (f, any)

mutual

-- Types

/-- A type: a named or function type, then any number of `[]` and `?`. -/
def type : Nat → P TypeExpr
  | 0 => exhausted
  | n + 1 => do
    let start := (← peek).span
    let base ← if ← check .lParen then do
        let _ ← advance
        let params ← if ← check .rParen then pure [] else typeList n
        let _ ← expect .rParen "')' after function parameter types"
        let _ ← expect .arrow "'->' in function type"
        let result ← type n
        pure (TypeExpr.func params result (← spanFrom start) false)
      else namedType n
    typeSuffixes n start base

/-- Types separated by commas. -/
def typeList : Nat → P (List TypeExpr)
  | 0 => exhausted
  | n + 1 => do
    let t ← type n
    if ← accept .comma then return t :: (← typeList n)
    pure [t]

/-- The `[]` and `?` suffixes of a type. -/
def typeSuffixes : Nat → Span → TypeExpr → P TypeExpr
  | 0, _, _ => exhausted
  | n + 1, start, t => do
    if (← check .lBracket) && (← checkNext .rBracket) then
      let _ ← advance
      let _ ← advance
      typeSuffixes n start (.array t (← spanFrom start) false)
    else if ← accept .question then
      typeSuffixes n start (t.markNullable (← spanFrom start))
    else pure t

/-- A named type `A.B<T, U>`. -/
def namedType : Nat → P TypeExpr
  | 0 => exhausted
  | n + 1 => do
    let start := (← peek).span
    unless ← check .identifier do fail "a type name"
    let p ← path
    let args ← if ← accept .lt then do
        let args ← typeList n
        let _ ← expect .gt "'>' to close generic arguments"
        pure args
      else pure []
    pure (.named p args (← spanFrom start) false)

/-- Named types separated by commas. -/
def namedTypeList : Nat → P (List TypeExpr)
  | 0 => exhausted
  | n + 1 => do
    let t ← namedType n
    if ← accept .comma then return t :: (← namedTypeList n)
    pure [t]

-- Expressions

/-- An expression whose operators bind tighter than `minPrec`. -/
def exprAbove : Nat → Nat → P Expr
  | 0, _ => exhausted
  | n + 1, minPrec => do
    let left ← unary n
    infixLoop n minPrec left

/-- Continues an expression `left` with operators binding tighter than `minPrec`. -/
def infixLoop : Nat → Nat → Expr → P Expr
  | 0, _, _ => exhausted
  | n + 1, minPrec, left => do
    let k := (← peek).kind
    let prec := precedence k
    if prec ≤ minPrec then return left
    match assignOp? k with
    | some op =>
      let _ ← advance
      let value ← exprAbove n (prec - 1)
      infixLoop n minPrec (.mk (.assign op left value) (Span.merge left.span value.span))
    | none =>
      if k == .kwIs || k == .kwAs then
        let _ ← advance
        let t ← type n
        let sp := Span.merge left.span t.span
        let e := if k == .kwIs then ExprKind.typeTest left t else .cast left t
        infixLoop n minPrec (.mk e sp)
      else
        match binaryOp? k with
        | none => pure left
        | some op =>
          let _ ← advance
          let right ← exprAbove n prec
          infixLoop n minPrec (.mk (.binary op left right) (Span.merge left.span right.span))

/-- A whole expression. -/
def expr : Nat → P Expr
  | 0 => exhausted
  | n + 1 => exprAbove n 0

/-- A prefix-operator expression, or a primary expression with its calls, indexing and member
accesses. -/
def unary : Nat → P Expr
  | 0 => exhausted
  | n + 1 => do
    let start := (← peek).span
    let op? : Option UnaryOp := match (← peek).kind with
      | .minus => some .neg
      | .bang => some .not
      | .tilde => some .bitNot
      | _ => none
    match op? with
    | none =>
      let e ← primary n
      trailers n e
    | some op =>
      let opTok ← advance
      let num ← peek
      let folded : Option Token :=
        if op == .neg && (num.kind == .intLit || num.kind == .floatLit) &&
            num.span.start.offset == opTok.span.start.offset + 1 then
          let text := opTok.lexeme ++ num.lexeme
          match NumberLiteral.parse text with
          | .ok lit =>
            let sp := Span.merge opTok.span num.span
            some { kind := if lit.isIntegral then .intLit else .floatLit,
                   span := { sp with start := { sp.start with length := text.length } },
                   lexeme := text, value := .number lit }
          | .error _ => none
        else none
      match folded with
      | some t =>
        let _ ← advance
        trailers n (.mk (.literal t) (← spanFrom start))
      | none =>
        let operand ← unary n
        pure (.mk (.unary op operand) (← spanFrom start))

/-- Calls, indexing and member access after an expression. -/
def trailers : Nat → Expr → P Expr
  | 0, _ => exhausted
  | n + 1, e => do
    let sameLine := (← peek).span.start.line == (← previous).span.stop.line
    if (← check .lParen) && sameLine then
      let args ← callArgs n
      trailers n (.mk (.call e args) (Span.merge e.span (← previous).span))
    else if (← check .lBracket) && sameLine then
      let _ ← advance
      let i ← expr n
      let _ ← expect .rBracket "']' after index"
      trailers n (.mk (.index e i) (Span.merge e.span (← previous).span))
    else if (← check .dot) || (← check .safeDot) then
      let safe := (← advance).kind == .safeDot
      let name ← expect .identifier "a member name"
      trailers n (.mk (.member e name.lexeme safe name.span) (Span.merge e.span name.span))
    else pure e

/-- Expressions separated by commas. -/
def exprList : Nat → P (List Expr)
  | 0 => exhausted
  | n + 1 => do
    let e ← expr n
    if ← accept .comma then return e :: (← exprList n)
    pure [e]

/-- Call arguments `(a, b)`. -/
def callArgs : Nat → P (List Expr)
  | 0 => exhausted
  | n + 1 => do
    let _ ← advance
    let args ← if ← check .rParen then pure [] else exprList n
    let _ ← expect .rParen "')' after arguments"
    pure args

/-- A primary expression: literal, name, `this`, `super`, `new`, parentheses, array literal,
lambda, `if` expression or interpolated string. -/
def primary : Nat → P Expr
  | 0 => exhausted
  | n + 1 => do
    let start := (← peek).span
    match (← peek).kind with
    | .intLit | .floatLit | .stringLit | .charLit | .boolLit | .nullLit | .invalid =>
      let t ← advance
      pure (.mk (.literal t) t.span)
    | .interpStart => interpolation n
    | .identifier =>
      let t ← advance
      pure (.mk (.ident t.lexeme) t.span)
    | .kwThis =>
      let _ ← advance
      pure (.mk .thisRef start)
    | .kwSuper =>
      let _ ← advance
      pure (.mk .superRef start)
    | .kwNew => newExpr n
    | .lParen =>
      let _ ← advance
      let inner ← expr n
      let _ ← expect .rParen "')' to close the parenthesis"
      pure (inner.withSpan (← spanFrom start))
    | .lBracket => arrayLiteral n
    | .kwFun => lambda n
    | .kwIf => ifExpr n
    | _ => fail "an expression"

/-- The segments of an interpolated string up to its end. -/
def segments : Nat → Span → P (List Segment)
  | 0, _ => exhausted
  | n + 1, start => do
    if ← check .interpEnd then return []
    if ← atEnd then
      throw (Diagnostic.error .syntaxError Code.unbalancedInterpolation
        "unterminated interpolated string" start)
    if ← check .interpText then
      let t ← advance
      return .text t.text t.span :: (← segments n start)
    if ← check .interpIdent then
      let t ← advance
      return .expr (.mk (.ident t.text) t.span) t.span :: (← segments n start)
    if ← check .interpExprStart then
      let segStart := (← advance).span
      let inner ← expr n
      let _ ← tryCatch (expect .interpExprEnd "'\x7d' to close '$\x7b'") fun e =>
        throw { e with code := Code.unbalancedInterpolation }
      let seg := Segment.expr inner (← spanFrom segStart)
      return seg :: (← segments n start)
    fail "an interpolation segment"

/-- An interpolated string. -/
def interpolation : Nat → P Expr
  | 0 => exhausted
  | n + 1 => do
    let start := (← advance).span
    let segs ← segments n start
    let _ ← advance
    pure (.mk (.interpolation segs) (← spanFrom start))

/-- `new T(args)` or `new T[size]`. -/
def newExpr : Nat → P Expr
  | 0 => exhausted
  | n + 1 => do
    let start := (← advance).span
    let t ← namedType n
    if ← accept .lBracket then
      let size ← expr n
      let _ ← expect .rBracket "']' after array size"
      pure (.mk (.newArray t size) (← spanFrom start))
    else
      unless ← check .lParen do fail "'(' or '[' after type in 'new'"
      let args ← callArgs n
      pure (.mk (.newObject t args) (← spanFrom start))

/-- Parameters `name: Type` separated by commas. -/
def paramList : Nat → P (List Param)
  | 0 => exhausted
  | n + 1 => do
    let name ← expect .identifier "a parameter name"
    let _ ← expect .colon "':' after parameter name"
    let t ← type n
    let p : Param := { name := name.lexeme, type := t, span := ← spanFrom name.span }
    if ← accept .comma then return p :: (← paramList n)
    pure [p]

/-- A parameter list in parentheses. -/
def params : Nat → P (List Param)
  | 0 => exhausted
  | n + 1 => do
    let _ ← expect .lParen "'(' to start parameters"
    let ps ← if ← check .rParen then pure [] else paramList n
    let _ ← expect .rParen "')' after parameters"
    pure ps

/-- A lambda `fun (params): T => expr` or `fun (params): T { … }`. -/
def lambda : Nat → P Expr
  | 0 => exhausted
  | n + 1 => do
    let start := (← advance).span
    let ps ← params n
    let result ← if ← accept .colon then some <$> type n else pure none
    let body ← if ← accept .fatArrow then LambdaBody.expr <$> expr n
      else if ← check .lBrace then LambdaBody.block <$> block n
      else fail "'\x7b' or '=>' for the lambda body"
    pure (.mk (.lambda ps result body) (← spanFrom start))

/-- An `if (c) a else b` expression. -/
def ifExpr : Nat → P Expr
  | 0 => exhausted
  | n + 1 => do
    let start := (← advance).span
    let _ ← expect .lParen "'(' after 'if'"
    let c ← expr n
    let _ ← expect .rParen "')' after condition"
    let a ← exprAbove n 1
    let _ ← expect .kwElse "'else' in if expression"
    let b ← exprAbove n 1
    pure (.mk (.cond c a b) (← spanFrom start))

/-- The elements of an array literal up to its `]`. -/
def elements : Nat → P (List Expr)
  | 0 => exhausted
  | n + 1 => do
    if ← check .rBracket then return []
    let e ← expr n
    if ← accept .comma then return e :: (← elements n)
    pure [e]

/-- An array literal `[a, b]`. -/
def arrayLiteral : Nat → P Expr
  | 0 => exhausted
  | n + 1 => do
    let start := (← advance).span
    let es ← elements n
    let _ ← expect .rBracket "']' to close the array literal"
    pure (.mk (.arrayLit es) (← spanFrom start))

-- Statements

/-- A statement, with the semicolons after it. -/
def stmt : Nat → P Stmt
  | 0 => exhausted
  | n + 1 => do
    let start := (← peek).span
    let s ← match (← peek).kind with
      | .lBrace => block n
      | .kwIf => ifStmt n
      | .kwWhile => whileStmt n
      | .kwFor => forStmt n
      | .kwLoop => loopStmt n
      | .kwSwitch => switchStmt n
      | .kwVar | .kwVal => varDecl n
      | .kwReturn => returnStmt n
      | .kwThrow => do
        let _ ← advance
        let v ← expr n
        pure (.mk (.throwStmt v) (← spanFrom start))
      | .kwBreak => do
        let _ ← advance
        pure (.mk .breakStmt start)
      | .kwContinue => do
        let _ ← advance
        pure (.mk .continueStmt start)
      | .kwScope => scopeStmt n
      | .kwMock => do
        let d ← mockDecl n
        pure (.mk (.mock d) (← spanFrom start))
      | _ => do
        let e ← expr n
        pure (.mk (.exprStmt e) (← spanFrom start))
    skipSemis
    pure s

/-- Statements up to a closing brace or the end of file. -/
def stmtsUntilBrace : Nat → P (List Stmt)
  | 0 => exhausted
  | n + 1 => do
    if (← check .rBrace) || (← atEnd) then return []
    let s ← stmt n
    return s :: (← stmtsUntilBrace n)

/-- A braced statement list and its span. -/
def blockBody : Nat → P (List Stmt × Span)
  | 0 => exhausted
  | n + 1 => do
    let start := (← expect .lBrace "'\x7b'").span
    skipSemis
    let stmts ← stmtsUntilBrace n
    let _ ← expect .rBrace "'\x7d' to close the block"
    pure (stmts, ← spanFrom start)

/-- A block `{ … }`. -/
def block : Nat → P Stmt
  | 0 => exhausted
  | n + 1 => do
    let (stmts, sp) ← blockBody n
    pure (.mk (.block stmts) sp)

/-- A `scope { … }` block, inside which mocks are allowed. -/
def scopeStmt : Nat → P Stmt
  | 0 => exhausted
  | n + 1 => do
    let start := (← advance).span
    modify fun s => { s with scopeDepth := s.scopeDepth + 1 }
    let leave : P Unit := modify fun s => { s with scopeDepth := s.scopeDepth - 1 }
    let (stmts, _) ← tryCatch (blockBody n) fun e => do leave; throw e
    leave
    pure (.mk (.scope stmts) (← spanFrom start))

/-- `if (c) s else s`. -/
def ifStmt : Nat → P Stmt
  | 0 => exhausted
  | n + 1 => do
    let start := (← advance).span
    let _ ← expect .lParen "'(' after 'if'"
    let c ← expr n
    let _ ← expect .rParen "')' after condition"
    let t ← stmt n
    let e ← if ← accept .kwElse then some <$> stmt n else pure none
    pure (.mk (.ifThen c t e) (← spanFrom start))

/-- `while (c) s`. -/
def whileStmt : Nat → P Stmt
  | 0 => exhausted
  | n + 1 => do
    let start := (← advance).span
    let _ ← expect .lParen "'(' after 'while'"
    let c ← expr n
    let _ ← expect .rParen "')' after condition"
    let body ← stmt n
    pure (.mk (.whileLoop c body) (← spanFrom start))

/-- `for (i = a to b) s`. -/
def forStmt : Nat → P Stmt
  | 0 => exhausted
  | n + 1 => do
    let start := (← advance).span
    let _ ← expect .lParen "'(' after 'for'"
    let name ← expect .identifier "a loop variable name"
    let _ ← expect .assign "'=' after loop variable"
    let lo ← expr n
    let _ ← expect .kwTo "'to' in range loop"
    let hi ← expr n
    let _ ← expect .rParen "')' after loop range"
    let body ← stmt n
    pure (.mk (.forRange name.lexeme name.span lo hi body) (← spanFrom start))

/-- `loop s`. -/
def loopStmt : Nat → P Stmt
  | 0 => exhausted
  | n + 1 => do
    let start := (← advance).span
    let body ← stmt n
    pure (.mk (.loop body) (← spanFrom start))

/-- The statements of a switch clause, up to the next label or the closing brace. -/
def clauseBody : Nat → P (List Stmt)
  | 0 => exhausted
  | n + 1 => do
    if (← check .kwCase) || (← check .kwDefault) || (← check .rBrace) || (← atEnd) then
      return []
    let s ← stmt n
    return s :: (← clauseBody n)

/-- The clauses of a switch; `seenDefault` tells whether a `default` came before. -/
def clauses : Nat → Bool → P (List Clause)
  | 0, _ => exhausted
  | n + 1, seenDefault => do
    if (← check .rBrace) || (← atEnd) then return []
    let clauseStart := (← peek).span
    let (values, isDefault) ← if ← accept .kwCase then do pure (← exprList n, false)
      else if ← accept .kwDefault then pure ([], true)
      else fail "'case' or 'default'"
    let _ ← expect .colon "':' after switch label"
    let sp ← spanFrom clauseStart
    if seenDefault then
      report (Diagnostic.errorNoted .invalidSwitchOrdering Code.defaultNotLast
        (if isDefault then "duplicate 'default' clause" else "'case' clause follows 'default'")
        sp ["'default' must be the last clause of a switch"])
    skipSemis
    let body ← clauseBody n
    let c := Clause.mk values isDefault body sp seenDefault
    return c :: (← clauses n (seenDefault || isDefault))

/-- `switch (x) { case a, b: … default: … }`. -/
def switchStmt : Nat → P Stmt
  | 0 => exhausted
  | n + 1 => do
    let start := (← advance).span
    let _ ← expect .lParen "'(' after 'switch'"
    let subject ← expr n
    let _ ← expect .rParen "')' after switch subject"
    let _ ← expect .lBrace "'\x7b' to open the switch body"
    skipSemis
    let cs ← clauses n false
    let _ ← expect .rBrace "'\x7d' to close the switch body"
    pure (.mk (.switch subject cs) (← spanFrom start))

/-- `val x: T = e` or `var x = e`. -/
def varDecl : Nat → P Stmt
  | 0 => exhausted
  | n + 1 => do
    let start := (← peek).span
    let isVal := (← advance).kind == .kwVal
    let name ← expect .identifier "a variable name"
    let t ← if ← accept .colon then some <$> type n else pure none
    let init ← if ← accept .assign then some <$> expr n else pure none
    if t.isNone && init.isNone then fail "':' or '=' after variable name"
    pure (.mk (.varDecl isVal name.lexeme name.span t init) (← spanFrom start))

/-- `return` with a value only when one starts on the same line. -/
def returnStmt : Nat → P Stmt
  | 0 => exhausted
  | n + 1 => do
    let kw ← advance
    let next ← peek
    let hasValue := next.span.start.line == kw.span.start.line &&
      !([TokenKind.rBrace, .semi, .kwCase, .kwDefault, .eof].contains next.kind)
    let v ← if hasValue then some <$> expr n else pure none
    pure (.mk (.returnStmt v) (← spanFrom kw.span))

-- Declarations

/-- One declaration at file or namespace level. A failed declaration is reported, the parser
recovers, and the result is `none`. -/
def topLevel : Nat → P (Option Decl)
  | 0 => exhausted
  | n + 1 => do
    let depth := (← get).braceDepth
    let reqs ← requirements (← remaining)
    if !reqs.isEmpty && ((← atEnd) || (← check .rBrace)) then
      report (dangling (reqs.getLast?.map (·.span) |>.getD {}))
      return none
    let here := (← peek).span
    let start := match reqs with
      | r :: _ => r.span
      | [] => here
    let attempt : P Decl := do
      match (← peek).kind with
      | .kwNamespace => namespaceDecl n
      | .kwImport => importDecl n
      | .kwClass => classDecl n false
      | .kwInterface => interfaceDecl n
      | .kwAbstract =>
        if ← checkNext .kwClass then
          let _ ← advance
          classDecl n true
        else member n false
      | .kwFun | .kwTest | .kwStatic | .kwOverride | .kwSuspend | .kwNative => member n false
      | .kwVar | .kwVal => fieldDecl n true
      | _ => fail "a declaration"
    match ← tryCatch (Except.ok <$> attempt) (fun e => pure (Except.error e)) with
    | .error e =>
      report e
      synchronize depth
      return none
    | .ok d =>
      let d := d.withSpan (← spanFrom start)
      let d ← if reqs.isEmpty then pure d
        else if d.acceptsRequirements then pure (d.withRequirements (reqs ++ d.requirements))
        else do
          report (dangling (reqs.getLast?.map (·.span) |>.getD {}))
          pure d
      skipSemis
      return some d

/-- Declarations of a namespace body up to its closing brace. -/
def namespaceMembers : Nat → P (List Decl)
  | 0 => exhausted
  | n + 1 => do
    if (← check .rBrace) || (← atEnd) then return []
    skipSemis
    if ← check .rBrace then return []
    let d ← topLevel n
    return d.toList ++ (← namespaceMembers n)

/-- `namespace A.B { … }`. -/
def namespaceDecl : Nat → P Decl
  | 0 => exhausted
  | n + 1 => do
    let start := (← advance).span
    let p ← path
    let nameSpan ← spanFrom start
    let _ ← expect .lBrace "'\x7b' after namespace name"
    let members ← namespaceMembers n
    let _ ← expect .rBrace "'\x7d' to close namespace"
    pure (.mk (.namespaceDecl p members) (← spanFrom start) nameSpan [])

/-- `import A.B`. -/
def importDecl : Nat → P Decl
  | 0 => exhausted
  | _ + 1 => do
    let start := (← advance).span
    let p ← path
    let sp ← spanFrom start
    pure (.mk (.importDecl p) sp sp [])

/-- `class C<T> extends B implements I, J { … }`. -/
def classDecl : Nat → Bool → P Decl
  | 0, _ => exhausted
  | n + 1, isAbstract => do
    let start := (← advance).span
    let name ← expect .identifier "a class name"
    let generics ← if ← check .lt then genericParams else pure []
    let super ← if ← accept .kwExtends then some <$> namedType n else pure none
    let ifaces ← if ← accept .kwImplements then namedTypeList n else pure []
    let members ← memberBody n false
    pure (.mk (.classDecl name.lexeme generics super ifaces members isAbstract false)
      (← spanFrom start) name.span [])

/-- `interface I<T> extends J, K { … }`. -/
def interfaceDecl : Nat → P Decl
  | 0 => exhausted
  | n + 1 => do
    let start := (← advance).span
    let name ← expect .identifier "an interface name"
    let generics ← if ← check .lt then genericParams else pure []
    let parents ← if ← accept .kwExtends then namedTypeList n else pure []
    let members ← memberBody n true
    pure (.mk (.interfaceDecl name.lexeme generics parents members) (← spanFrom start)
      name.span [])

/-- The members of a class, interface or mock body up to its closing brace. -/
def members : Nat → Bool → P (List Decl)
  | 0, _ => exhausted
  | n + 1, inInterface => do
    if (← check .rBrace) || (← atEnd) then return []
    skipSemis
    if ← check .rBrace then return []
    let reqs ← requirements (← remaining)
    let here := (← peek).span
    let memberStart := match reqs with
      | r :: _ => r.span
      | [] => here
    let m ← member n inInterface
    let m := m.withSpan (← spanFrom memberStart)
    let m ← if reqs.isEmpty then pure m
      else if m.acceptsRequirements then pure (m.withRequirements reqs)
      else do
        report (dangling (reqs.getLast?.map (·.span) |>.getD {}))
        pure m
    skipSemis
    return m :: (← members n inInterface)

/-- A braced member list. -/
def memberBody : Nat → Bool → P (List Decl)
  | 0, _ => exhausted
  | n + 1, inInterface => do
    let _ ← expect .lBrace "'\x7b' to open the body"
    let ms ← members n inInterface
    let _ ← expect .rBrace "'\x7d' to close the body"
    pure ms

/-- A member: modifiers, then a function, a field or a test. -/
def member : Nat → Bool → P Decl
  | 0, _ => exhausted
  | n + 1, inInterface => do
    let start := (← peek).span
    let (flags, anyModifier) ← modifiers (← remaining) {} false
    if ← check .kwFun then
      let _ ← advance
      functionDecl n flags start inInterface
    else if (← check .kwVar) || (← check .kwVal) then
      if inInterface then fail "'fun' (interfaces declare only methods)"
      if flags.isOverride || flags.isAbstract || flags.isSuspend || flags.isNative then
        throw (Diagnostic.error .syntaxError Code.unexpectedToken
          "fields accept only the 'static' modifier" start)
      fieldDecl n flags.isStatic
    else if (← check .kwTest) && !anyModifier then testDecl n
    else fail (if anyModifier then "'fun'" else "a member declaration")

/-- A function after `fun`: generics, name (or `new`), parameters, result type and body. -/
def functionDecl : Nat → FunctionFlags → Span → Bool → P Decl
  | 0, _, _, _ => exhausted
  | n + 1, flags, start, inInterface => do
    let generics ← if ← check .lt then genericParams else pure []
    let nameSpan := (← peek).span
    let (name, flags) ← if ← accept .kwNew then pure ("new", { flags with isConstructor := true })
      else do pure ((← expect .identifier "a function name").lexeme, flags)
    let generics ← if (← check .lt) && generics.isEmpty then genericParams else pure generics
    let ps ← params n
    let result ← if ← accept .colon then some <$> type n else pure none
    let noBody : P Unit := do
      throw (Diagnostic.error .syntaxError Code.unexpectedToken
        "interface methods cannot have a body" (← peek).span)
    let (body, flags) ← if ← check .lBrace then do
        if inInterface then noBody
        pure (some (← block n), flags)
      else if ← check .fatArrow then do
        if inInterface then noBody
        let arrow := (← advance).span
        let value ← expr n
        let sp ← spanFrom arrow
        let s : Stmt := if result.isSome then .mk (.returnStmt (some value)) sp
          else .mk (.exprStmt value) sp
        pure (some (.mk (.block [s]) sp), flags)
      else if inInterface then pure (none, { flags with isAbstract := true })
      else if !flags.isAbstract && !flags.isNative then fail "'\x7b' to start the function body"
      else pure (none, flags)
    pure (.mk (.function name generics ps result body flags) (← spanFrom start) nameSpan [])

/-- `test name() { … }`. -/
def testDecl : Nat → P Decl
  | 0 => exhausted
  | n + 1 => do
    let start := (← advance).span
    let name ← expect .identifier "a test name"
    let _ ← expect .lParen "'(' after test name"
    let _ ← expect .rParen "')' (tests take no parameters)"
    let body ← block n
    pure (.mk (.function name.lexeme [] [] none (some body) { isTest := true }) (← spanFrom start)
      name.span [])

/-- `var x: T = e` or `val x = e` as a field. -/
def fieldDecl : Nat → Bool → P Decl
  | 0, _ => exhausted
  | n + 1, isStatic => do
    let start := (← peek).span
    let isVal := (← advance).kind == .kwVal
    let name ← expect .identifier "a field name"
    let t ← if ← accept .colon then some <$> type n else pure none
    let init ← if ← accept .assign then some <$> expr n else pure none
    if t.isNone && init.isNone then fail "':' or '=' after field name"
    pure (.mk (.field name.lexeme t init isVal isStatic) (← spanFrom start) name.span [])

/-- `mock A.B { … }`, allowed only inside a `scope` block (reported, and parsed anyway). -/
def mockDecl : Nat → P Decl
  | 0 => exhausted
  | n + 1 => do
    let start := (← advance).span
    if (← get).scopeDepth == 0 then
      report (Diagnostic.error .syntaxError Code.mockOutsideScope
        "'mock' is only allowed inside a 'scope \x7b \x7d' block" start)
    let nameStart := (← peek).span
    let p ← path
    let nameSpan ← spanFrom nameStart
    let ms ← memberBody n false
    pure (.mk (.classDecl (joinPath p) [] none [] ms false true) (← spanFrom start) nameSpan [])

end

/-! ## Entry points -/

/-- Fuel for a parse of `tokens`: enough levels for every token of the stream. -/
def fuelFor (tokens : Array Token) : Nat := 32 * (tokens.size + 8)

/-- Declarations of a file up to its end; a stray `}` is reported and skipped. -/
def moduleDecls : Nat → P (List Decl)
  | 0 => pure []
  | n + 1 => do
    skipSemis
    if ← atEnd then return []
    if ← check .rBrace then
      report (← errorHere "a declaration")
      let _ ← advance
      modify fun s => { s with braceDepth := 0 }
      return ← moduleDecls n
    let d ← topLevel (fuelFor (← get).tokens)
    return d.toList ++ (← moduleDecls n)

/-- Runs a parse over a token stream: its result and the errors reported. -/
def run {α : Type} (tokens : Array Token) (p : Nat → P α) : Except Diagnostic α × List Diagnostic :=
  let st := State.init tokens
  let (r, st) := (p (fuelFor st.tokens)).run.run st
  (r, st.errors.toList)

/-- The declarations of a file, and the errors reported. -/
def parseModule (file : String) (tokens : Array Token) : Module × List Diagnostic :=
  match run tokens (fun _ => do moduleDecls (← remaining)) with
  | (.ok ds, errs) => (⟨file, ds⟩, errs)
  | (.error _, errs) => (⟨file, []⟩, errs)

/-- One expression. -/
def parseExpr (tokens : Array Token) : Except Diagnostic Expr × List Diagnostic :=
  run tokens expr

/-- One statement. -/
def parseStmt (tokens : Array Token) : Except Diagnostic Stmt × List Diagnostic :=
  run tokens stmt

/-- One declaration; when it fails, the last error reported. -/
def parseDecl (tokens : Array Token) : Except Diagnostic Decl × List Diagnostic :=
  run tokens fun n => do
    let before := (← get).errors.size
    match ← topLevel n with
    | some d => pure d
    | none =>
      let errs := (← get).errors
      if errs.size > before then throw (errs.back?.getD default) else fail "a declaration"

end AmLang.Parser
