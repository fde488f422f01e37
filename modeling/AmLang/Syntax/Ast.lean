import AmLang.Syntax.Token
/-!
# Syntax trees

The tree the parser builds for one file: declarations, statements, expressions and type
annotations, each with its source span. The tree is exactly what was written; names are not yet
resolved and types not yet checked.

Expressions, statements and declarations refer to each other (a lambda holds a block, a `mock`
statement holds a class, a function holds its body), so they form one family of inductive
types. Each node is a kind together with its span.

## Main definitions

* `TypeExpr` — `Name`, `A.B<T>`, `T[]`, `(A, B) -> R`, each possibly nullable.
* `Expr`, `Stmt`, `Decl` with their kinds, and `Module`, the declarations of one file.
-/

namespace AmLang

/-- Prefix operators. -/
inductive UnaryOp where
  | neg
  | not
  | bitNot
deriving Repr, BEq, DecidableEq, Inhabited

/-- Infix operators other than assignment. -/
inductive BinaryOp where
  | add
  | sub
  | mul
  | div
  | mod
  | eq
  | ne
  | lt
  | le
  | gt
  | ge
  | and
  | or
deriving Repr, BEq, DecidableEq, Inhabited

/-- Assignment and its compound forms. -/
inductive AssignOp where
  | assign
  | add
  | sub
  | mul
  | div
  | mod
deriving Repr, BEq, DecidableEq, Inhabited

namespace UnaryOp

/-- The operator's symbol. -/
def symbol : UnaryOp → String
  | .neg => "-"
  | .not => "!"
  | .bitNot => "~"

end UnaryOp

namespace BinaryOp

/-- The operator's symbol. -/
def symbol : BinaryOp → String
  | .add => "+"
  | .sub => "-"
  | .mul => "*"
  | .div => "/"
  | .mod => "%"
  | .eq => "=="
  | .ne => "!="
  | .lt => "<"
  | .le => "<="
  | .gt => ">"
  | .ge => ">="
  | .and => "&&"
  | .or => "||"

end BinaryOp

namespace AssignOp

/-- The operator's symbol. -/
def symbol : AssignOp → String
  | .assign => "="
  | .add => "+="
  | .sub => "-="
  | .mul => "*="
  | .div => "/="
  | .mod => "%="

end AssignOp

/-- A type annotation as written. -/
inductive TypeExpr where
  | named (path : List String) (args : List TypeExpr) (span : Span) (nullable : Bool)
  | array (element : TypeExpr) (span : Span) (nullable : Bool)
  | func (params : List TypeExpr) (result : TypeExpr) (span : Span) (nullable : Bool)
deriving Repr, Inhabited

namespace TypeExpr

/-- Where the annotation stands. -/
def span : TypeExpr → Span
  | .named _ _ s _ => s
  | .array _ s _ => s
  | .func _ _ s _ => s

/-- Whether the annotation ends in `?`. -/
def nullable : TypeExpr → Bool
  | .named _ _ _ n => n
  | .array _ _ n => n
  | .func _ _ _ n => n

/-- The annotation made nullable, with a new span. -/
def markNullable (t : TypeExpr) (s : Span) : TypeExpr :=
  match t with
  | .named p a _ _ => .named p a s true
  | .array e _ _ => .array e s true
  | .func ps r _ _ => .func ps r s true

/-- A single-name type with no span. -/
def simple (name : String) : TypeExpr := .named [name] [] {} false

end TypeExpr

/-- A parameter of a function, constructor or lambda. -/
structure Param where
  name : String
  type : TypeExpr
  span : Span
deriving Repr, Inhabited

/-- A feature gate `#require NAME` or `#requireNot NAME` on a declaration. -/
structure Requirement where
  feature : String
  negated : Bool
  span : Span
deriving Repr, Inhabited

/-- The modifiers and roles of a function declaration. -/
structure FunctionFlags where
  isStatic : Bool := false
  isOverride : Bool := false
  isAbstract : Bool := false
  isSuspend : Bool := false
  isNative : Bool := false
  isTest : Bool := false
  isConstructor : Bool := false
deriving Repr, Inhabited

mutual

/-- An expression and its span. -/
inductive Expr where
  | mk (kind : ExprKind) (span : Span)

/-- The forms of expressions. -/
inductive ExprKind where
  | literal (token : Token)
  | ident (name : String)
  | thisRef
  | superRef
  | unary (op : UnaryOp) (operand : Expr)
  | binary (op : BinaryOp) (left right : Expr)
  | assign (op : AssignOp) (target value : Expr)
  | call (callee : Expr) (args : List Expr)
  | member (object : Expr) (name : String) (safe : Bool) (nameSpan : Span)
  | index (object index : Expr)
  | newObject (type : TypeExpr) (args : List Expr)
  | newArray (type : TypeExpr) (size : Expr)
  | interpolation (segments : List Segment)
  | arrayLit (elements : List Expr)
  | lambda (params : List Param) (result : Option TypeExpr) (body : LambdaBody)
  | cast (operand : Expr) (type : TypeExpr)
  | typeTest (operand : Expr) (type : TypeExpr)
  | cond (condition thenExpr elseExpr : Expr)

/-- One segment of an interpolated string: text, or an expression. -/
inductive Segment where
  | text (text : String) (span : Span)
  | expr (e : Expr) (span : Span)

/-- The body of a lambda: a block, or one expression after `=>`. -/
inductive LambdaBody where
  | block (body : Stmt)
  | expr (e : Expr)

/-- A statement and its span. -/
inductive Stmt where
  | mk (kind : StmtKind) (span : Span)

/-- The forms of statements. -/
inductive StmtKind where
  | block (stmts : List Stmt)
  | ifThen (condition : Expr) (thenBranch : Stmt) (elseBranch : Option Stmt)
  | whileLoop (condition : Expr) (body : Stmt)
  | forRange (var : String) (varSpan : Span) (low high : Expr) (body : Stmt)
  | loop (body : Stmt)
  | switch (subject : Expr) (clauses : List Clause)
  | varDecl (isVal : Bool) (name : String) (nameSpan : Span) (type : Option TypeExpr)
      (init : Option Expr)
  | returnStmt (value : Option Expr)
  | throwStmt (value : Expr)
  | breakStmt
  | continueStmt
  | exprStmt (e : Expr)
  | scope (stmts : List Stmt)
  | mock (decl : Decl)

/-- A `case v, w:` or `default:` clause of a switch. `orderingReported` is set when the parser
already reported the clause for following `default`. -/
inductive Clause where
  | mk (values : List Expr) (isDefault : Bool) (body : List Stmt) (span : Span)
      (orderingReported : Bool)

/-- A declaration, with its span, the span of its name and its feature requirements. -/
inductive Decl where
  | mk (kind : DeclKind) (span nameSpan : Span) (requirements : List Requirement)

/-- The forms of declarations. -/
inductive DeclKind where
  | namespaceDecl (path : List String) (members : List Decl)
  | importDecl (path : List String)
  | classDecl (name : String) (generics : List String) (superclass : Option TypeExpr)
      (interfaces : List TypeExpr) (members : List Decl) (isAbstract isMock : Bool)
  | interfaceDecl (name : String) (generics : List String) (parents : List TypeExpr)
      (members : List Decl)
  | field (name : String) (type : Option TypeExpr) (init : Option Expr) (isVal isStatic : Bool)
  | function (name : String) (generics : List String) (params : List Param)
      (result : Option TypeExpr) (body : Option Stmt) (flags : FunctionFlags)

end

instance : Inhabited Expr := ⟨.mk .thisRef {}⟩
instance : Inhabited Stmt := ⟨.mk .breakStmt {}⟩
instance : Inhabited Decl := ⟨.mk (.importDecl []) {} {} []⟩

namespace Expr

/-- The form of the expression. -/
def kind : Expr → ExprKind
  | .mk k _ => k

/-- Where the expression stands. -/
def span : Expr → Span
  | .mk _ s => s

/-- The same expression with another span. -/
def withSpan (e : Expr) (s : Span) : Expr := .mk e.kind s

end Expr

namespace Stmt

/-- The form of the statement. -/
def kind : Stmt → StmtKind
  | .mk k _ => k

/-- Where the statement stands. -/
def span : Stmt → Span
  | .mk _ s => s

end Stmt

namespace Clause

def values : Clause → List Expr
  | .mk v _ _ _ _ => v

def isDefault : Clause → Bool
  | .mk _ d _ _ _ => d

def body : Clause → List Stmt
  | .mk _ _ b _ _ => b

def span : Clause → Span
  | .mk _ _ _ s _ => s

def orderingReported : Clause → Bool
  | .mk _ _ _ _ r => r

end Clause

namespace Decl

/-- The form of the declaration. -/
def kind : Decl → DeclKind
  | .mk k _ _ _ => k

/-- Where the declaration stands. -/
def span : Decl → Span
  | .mk _ s _ _ => s

/-- Where its name stands. -/
def nameSpan : Decl → Span
  | .mk _ _ n _ => n

/-- Its feature requirements, in source order. -/
def requirements : Decl → List Requirement
  | .mk _ _ _ r => r

/-- The same declaration with another span. -/
def withSpan (d : Decl) (s : Span) : Decl := .mk d.kind s d.nameSpan d.requirements

/-- The same declaration with other requirements. -/
def withRequirements (d : Decl) (r : List Requirement) : Decl := .mk d.kind d.span d.nameSpan r

/-- The declared simple name; namespaces and imports have none. -/
def name (d : Decl) : String :=
  match d.kind with
  | .namespaceDecl .. | .importDecl .. => ""
  | .classDecl n .. => n
  | .interfaceDecl n .. => n
  | .field n .. => n
  | .function n .. => n

/-- Whether the declaration may carry feature requirements: classes, interfaces, functions. -/
def acceptsRequirements (d : Decl) : Bool :=
  match d.kind with
  | .classDecl .. | .interfaceDecl .. | .function .. => true
  | _ => false

end Decl

/-- The declarations of one file. Those outside any namespace block are in the root
namespace. -/
structure Module where
  file : String
  decls : List Decl
deriving Inhabited

/-- Joins a qualified path with dots. -/
def joinPath (path : List String) : String := ".".intercalate path

/-- A namespace path extended by a dotted name; the root namespace is the empty string. -/
def extendPath (ns name : String) : String := if ns.isEmpty then name else ns ++ "." ++ name

/-- Every declaration of `ds`, depth first with the members of namespaces, classes and
interfaces after their owner, each with the dotted namespace that encloses it. -/
def walkDecls (ns : String) : List Decl → List (String × Decl)
  | [] => []
  | d :: ds =>
    let inner := match d with
      | .mk (.namespaceDecl p ms) _ _ _ => walkDecls (extendPath ns (joinPath p)) ms
      | .mk (.classDecl _ _ _ _ ms _ _) _ _ _ => walkDecls ns ms
      | .mk (.interfaceDecl _ _ _ ms) _ _ _ => walkDecls ns ms
      | _ => []
    (ns, d) :: inner ++ walkDecls ns ds

end AmLang
