import Std.Data.TreeMap
import AmLang.Diagnostic.Basic
import AmLang.Generic.Uses
import AmLang.Symbols.Table
/-!
# Typed trees

What checking a unit's bodies produces: each expression of a function body, field initializer
or lambda as a typed tree, whose nodes carry what checking learned about them (`ExprInfo`): the
type, the local, field or function a name or call stands for, how a call reaches its target,
how a value becomes text, what a lambda captures. Code generation reads these trees and never
looks a name up again.

Locals are numbered per unit in the order they are declared (`LocalId`); the unit keeps their
symbols. A node that checking did not reach (the class in `Util.max(…)`, or an operand after an
error) is `unchecked`.

## Main definitions

* `TypedExpr`, `TypedStmt` — the typed trees; `TypedStmt.canComplete` says whether control can
  reach the end of a statement.
* `StringifyKind.ofType` — how a value of a type is written into a string.
* `CheckedUnit` — everything checking produced for one unit.
-/

namespace AmLang

/-- A local variable or parameter is named by its position in its unit's list of locals. -/
abbrev LocalId := Nat

/-- A local variable, loop variable or parameter of a function or lambda. -/
structure LocalSymbol where
  name : String
  type : Ty
  isVal : Bool
  isParam : Bool
  /-- Set once a lambda reads it from an enclosing function. -/
  captured : Bool := false
  id : LocalId
  span : Span
deriving Inhabited

/-- How a call reaches its target. -/
inductive CallKind where
  | none
  /-- A function of a namespace. -/
  | free
  /-- A static method. -/
  | static
  /-- An instance method through the receiver class's dispatch table. -/
  | virtual
  /-- An instance method through the dispatch table of an interface. -/
  | interface
  /-- An instance method without dispatch (`super.m()`, generic methods). -/
  | direct
  /-- `super(…)` at the start of a constructor. -/
  | superConstructor
  /-- A value of function type. -/
  | closure
  /-- `toString`, `equals` or `hashCode` of a primitive value. -/
  | primitive
  /-- A method of `Object` on a value of a generic parameter's type, decided per instance. -/
  | generic
deriving Repr, BEq, DecidableEq, Inhabited

/-- How a value becomes text in a concatenation or an interpolated string. -/
inductive StringifyKind where
  | none
  | string
  | signed
  | unsigned
  | float
  | bool
  | char
  /-- Through the value's virtual `toString`. -/
  | object
  /-- A nullable primitive: its text, or `null`. -/
  | nullable
  /-- A value of a generic parameter's type, decided per instance. -/
  | generic
deriving Repr, BEq, DecidableEq, Inhabited

namespace StringifyKind

/-- The way values of type `t` are written: strings as they are, primitives by their family,
nullable primitives and `null` as values that may be null, other references through
`toString`; nothing for `Unit`, the error type and `Never`. -/
def ofType (t : Ty) : StringifyKind :=
  if t.isError || t.isUnit || t.isNever then .none
  else match t with
    | .null => .nullable
    | .param .. => .generic
    | .prim k n =>
      if n then .nullable
      else if k.isSigned then .signed
      else if k.isUnsigned then .unsigned
      else if k.isFloating then .float
      else if k == .bool then .bool
      else if k == .char then .char
      else .none
    | _ => if t.classOf? == some stringClass then .string else .object

end StringifyKind

/-- What checking learned about an expression. Fields that do not apply to a node keep their
defaults. -/
structure ExprInfo where
  /-- The expression's type; the error type where checking failed or gave none. -/
  type : Ty := .error
  /-- The local a name stands for. -/
  localVar : Option LocalId := none
  /-- The field or namespace variable a name or member access stands for. -/
  field : Option FieldId := none
  /-- The class a `new` builds, a static path names, or `super(…)` calls a constructor of. -/
  classRef : Option ClassId := none
  /-- The called function or constructor. -/
  function : Option FunctionId := none
  callKind : CallKind := .none
  /-- The arguments of the called function's own generic parameters. -/
  typeArgs : List Ty := []
  /-- The non-null static type of the receiver of a member access, call or index. -/
  receiverType : Option Ty := none
  /-- The called function's parameter types as this call sees them. -/
  paramTypes : List Ty := []
  /-- A field read or method call on `this` without writing it. -/
  implicitThis : Bool := false
  /-- A local whose type flow analysis narrowed. -/
  narrowed : Bool := false
  /-- A member access or call that gives null when its receiver is null. -/
  safeChain : Bool := false
  /-- `length` of an array. -/
  arrayLength : Bool := false
  /-- A `+` or `+=` that concatenates strings. -/
  stringConcat : Bool := false
  stringify : StringifyKind := .none
  /-- The `toString` used to write an object into a string. -/
  toStringFn : Option FunctionId := none
  /-- A lambda's number in its unit. -/
  lambdaId : Option Nat := none
  /-- The locals of enclosing functions a lambda reads, in the order first read. -/
  captures : List LocalId := []
  capturesThis : Bool := false
  /-- The type a cast converts to or a type test tests for. -/
  targetType : Option Ty := none
deriving Inhabited

mutual

/-- A checked expression: its form, span and what checking learned about it. -/
inductive TypedExpr where
  | mk (kind : TypedExprKind) (span : Span) (info : ExprInfo)

/-- The forms of checked expressions, as in `ExprKind`; type annotations are resolved into the
node's information. -/
inductive TypedExprKind where
  | literal (token : Token)
  | ident (name : String)
  | thisRef
  | superRef
  | unary (op : UnaryOp) (operand : TypedExpr)
  | binary (op : BinaryOp) (left right : TypedExpr)
  | assign (op : AssignOp) (target value : TypedExpr)
  | call (callee : TypedExpr) (args : List TypedExpr)
  | member (object : TypedExpr) (name : String) (safe : Bool)
  | index (object index : TypedExpr)
  | newObject (args : List TypedExpr)
  | newArray (size : TypedExpr)
  | interpolation (segments : List TypedSegment)
  | arrayLit (elements : List TypedExpr)
  /-- A lambda with the locals of its parameters. -/
  | lambda (params : List LocalId) (body : TypedLambdaBody)
  | cast (operand : TypedExpr)
  | typeTest (operand : TypedExpr)
  | cond (condition thenExpr elseExpr : TypedExpr)
  /-- An expression that checking did not reach. -/
  | unchecked

/-- A segment of an interpolated string. -/
inductive TypedSegment where
  | text (text : String)
  | expr (e : TypedExpr)

/-- The body of a lambda: the statements of its block, or its expression. -/
inductive TypedLambdaBody where
  | block (stmts : List TypedStmt)
  | expr (e : TypedExpr)

/-- A checked statement and its span. -/
inductive TypedStmt where
  | mk (kind : TypedStmtKind) (span : Span)

/-- The forms of checked statements; declarations name the locals they define. -/
inductive TypedStmtKind where
  | block (stmts : List TypedStmt)
  | ifThen (condition : TypedExpr) (thenBranch : TypedStmt) (elseBranch : Option TypedStmt)
  | whileLoop (condition : TypedExpr) (body : TypedStmt)
  | forRange (var : LocalId) (low high : TypedExpr) (body : TypedStmt)
  | loop (body : TypedStmt)
  /-- A switch with the type of its subject. -/
  | switch (subject : TypedExpr) (subjectType : Ty) (clauses : List TypedClause)
  | varDecl (var : LocalId) (init : Option TypedExpr)
  | returnStmt (value : Option TypedExpr)
  | throwStmt (value : TypedExpr)
  | breakStmt
  | continueStmt
  | exprStmt (e : TypedExpr)
  | scope (stmts : List TypedStmt)
  /-- A `mock` declaration, with the mock class it declared. -/
  | mock (cls : Option ClassId)

/-- A clause of a switch. -/
inductive TypedClause where
  | mk (values : List TypedExpr) (isDefault : Bool) (body : List TypedStmt)

end

instance : Inhabited TypedExpr := ⟨.mk .unchecked {} {}⟩
instance : Inhabited TypedStmt := ⟨.mk .breakStmt {}⟩

namespace TypedExpr

/-- The form of the expression. -/
def kind : TypedExpr → TypedExprKind
  | .mk k _ _ => k

/-- Where the expression stands. -/
def span : TypedExpr → Span
  | .mk _ s _ => s

/-- What checking learned about the expression. -/
def info : TypedExpr → ExprInfo
  | .mk _ _ i => i

/-- The expression's type. -/
def type (e : TypedExpr) : Ty := e.info.type

/-- The same expression with other information. -/
def withInfo (e : TypedExpr) (i : ExprInfo) : TypedExpr := .mk e.kind e.span i

/-- The local a plain name stands for. -/
def localOf? : TypedExpr → Option LocalId
  | .mk (.ident _) _ i => i.localVar
  | _ => none

/-- The operands of a chain of string concatenations, left to right. -/
def concatOperands : Nat → TypedExpr → List TypedExpr
  | 0, e => [e]
  | n + 1, e@(.mk (.binary .add l r) _ info) =>
    if info.stringConcat then concatOperands n l ++ concatOperands n r else [e]
  | _ + 1, e => [e]

/-- The text of a string literal. -/
def stringLiteral? : TypedExpr → Option String
  | .mk (.literal tok) _ _ => match tok.kind, tok.value with
    | .stringLit, .text s => some s
    | _, _ => none
  | _ => none

end TypedExpr

namespace TypedStmt

/-- The form of the statement. -/
def kind : TypedStmt → TypedStmtKind
  | .mk k _ => k

/-- Where the statement stands. -/
def span : TypedStmt → Span
  | .mk _ s => s

end TypedStmt

namespace TypedClause

def isDefault : TypedClause → Bool
  | .mk _ d _ => d

def body : TypedClause → List TypedStmt
  | .mk _ _ b => b

def values : TypedClause → List TypedExpr
  | .mk v _ _ => v

end TypedClause

mutual

/-- Whether a statement holds a `break` that leaves the loop around it: one not inside a nested
loop or lambda. -/
def TypedStmt.containsBreak : TypedStmt → Bool
  | .mk .breakStmt _ => true
  | .mk (.block ss) _ => TypedStmt.anyBreak ss
  | .mk (.scope ss) _ => TypedStmt.anyBreak ss
  | .mk (.ifThen _ t e) _ => t.containsBreak || TypedStmt.elseBreak e
  | .mk (.switch _ _ cs) _ => TypedStmt.clausesBreak cs
  | _ => false

/-- Whether a statement of a list holds a `break` that leaves the loop around it. -/
def TypedStmt.anyBreak : List TypedStmt → Bool
  | [] => false
  | s :: ss => s.containsBreak || TypedStmt.anyBreak ss

/-- Whether an optional else branch holds a `break` that leaves the loop around it. -/
def TypedStmt.elseBreak : Option TypedStmt → Bool
  | none => false
  | some s => s.containsBreak

/-- Whether a clause body holds a `break` that leaves the loop around the switch. -/
def TypedStmt.clausesBreak : List TypedClause → Bool
  | [] => false
  | .mk _ _ b :: cs => TypedStmt.anyBreak b || TypedStmt.clausesBreak cs

end

mutual

/-- Whether control can reach the end of a statement. It cannot after `return`, `throw`,
`break` or `continue`; after an `if` with an `else` whose branches both cannot complete; after a
`loop` without a `break` of its own; or after a switch with a `default` none of whose clauses
completes. -/
def TypedStmt.canComplete : TypedStmt → Bool
  | .mk (.returnStmt _) _ | .mk (.throwStmt _) _ | .mk .breakStmt _ | .mk .continueStmt _ => false
  | .mk (.block ss) _ => TypedStmt.allComplete ss
  | .mk (.scope ss) _ => TypedStmt.allComplete ss
  | .mk (.ifThen _ t e) _ => match e with
    | none => true
    | some e => t.canComplete || e.canComplete
  | .mk (.loop body) _ => body.containsBreak
  | .mk (.switch _ _ cs) _ => !(cs.any (·.isDefault)) || TypedStmt.someClauseCompletes cs
  | _ => true

/-- Whether control can reach the end of every statement of a list. -/
def TypedStmt.allComplete : List TypedStmt → Bool
  | [] => true
  | s :: ss => s.canComplete && TypedStmt.allComplete ss

/-- Whether the body of some clause can complete. -/
def TypedStmt.someClauseCompletes : List TypedClause → Bool
  | [] => false
  | .mk _ _ b :: cs => TypedStmt.allComplete b || TypedStmt.someClauseCompletes cs

end

/-- A checked function, method, constructor or test: the locals of its parameters, the
statements of its body when it has one, and for a constructor whose body does not start with
`super(…)` the superclass constructor it runs first. -/
structure TypedFunction where
  params : List LocalId
  body : Option (List TypedStmt)
  superConstructor : Option FunctionId := none
deriving Inhabited

/-- Everything checking produced for one unit. -/
structure CheckedUnit where
  index : Nat
  file : String
  isTestUnit : Bool
  diagnostics : List Diagnostic
  locals : Array LocalSymbol
  /-- The unit's mock classes, in declaration order. -/
  mocks : List ClassId
  functions : Std.TreeMap FunctionId TypedFunction
  /-- The checked initializers of fields and namespace variables. -/
  initializers : Std.TreeMap FieldId TypedExpr
  lambdaCount : Nat
  uses : UseLog
  /-- The unit's tests, in declaration order. -/
  tests : List FunctionId
deriving Inhabited

end AmLang
