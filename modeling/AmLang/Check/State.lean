import AmLang.Check.Tree
import AmLang.Symbols.Declarations
/-!
# The state of checking a unit

Checking walks a unit's bodies in a state monad, `CheckM`. Its state holds the symbol table
(which grows by the unit's mock classes), the unit's diagnostics, log lines and generic uses,
the locals declared so far, the lexical scopes around the code being checked, and what is known
about the enclosing class, function and lambdas.

## Scopes

Scopes are kept innermost first. Each maps names to locals and carries the flow facts that hold
inside it: a local narrowed to a non-null type. Leaving a scope drops its facts; assigning a
local forgets its facts in every scope up to the enclosing function's.

| Kind       | Opened by                                        |
|------------|--------------------------------------------------|
| `function` | a function, constructor, test or initializer     |
| `block`    | a block, a branch, a switch clause, `scope { }`  |
| `loop`     | the body of `while`, `for` and `loop`            |
| `lambda`   | a lambda; a local found beyond it is captured    |

All changes to the state go through a few primitives here (`defineLocal`, `pushScope`,
`narrow`, `forget`, `capture`, `report`), which the checking functions compose.
-/

namespace AmLang

/-- What opened a scope. -/
inductive ScopeKind where
  | function
  | block
  | loop
  | lambda
deriving Repr, BEq, DecidableEq, Inhabited

/-- A lexical scope: the locals it defines, by name, and the types flow analysis narrowed
locals to inside it. -/
structure Scope where
  kind : ScopeKind
  locals : List (String × LocalId) := []
  narrowed : List (LocalId × Ty) := []
deriving Inhabited

namespace Scope

/-- The local a scope defines under `name`. -/
def find? (s : Scope) (name : String) : Option LocalId :=
  (s.locals.find? (·.1 == name)).map (·.2)

/-- The type a scope narrows local `x` to. -/
def narrowedType? (s : Scope) (x : LocalId) : Option Ty :=
  (s.narrowed.find? (·.1 == x)).map (·.2)

/-- The scope with local `x` narrowed to `t`, replacing an earlier fact about `x`. -/
def narrow (s : Scope) (x : LocalId) (t : Ty) : Scope :=
  { s with narrowed := (s.narrowed.filter (·.1 != x)) ++ [(x, t)] }

/-- The scope without facts about local `x`. -/
def forget (s : Scope) (x : LocalId) : Scope :=
  { s with narrowed := s.narrowed.filter (·.1 != x) }

end Scope

/-- Scopes, innermost first. -/
abbrev Scopes := List Scope

namespace Scopes

/-- The local `name` stands for: the innermost scope that defines it decides. -/
def lookup (ss : Scopes) (name : String) : Option LocalId := ss.findSome? (·.find? name)

/-- Whether finding local `x`, named `name`, from the innermost scope passes a lambda's scope
before reaching the scope that defines it. -/
def crossesLambda (name : String) (x : LocalId) : Scopes → Bool
  | [] => false
  | s :: rest =>
    if s.find? name == some x then false
    else if s.kind == .lambda then true
    else crossesLambda name x rest

/-- The innermost type local `x` is narrowed to. -/
def narrowedType? (ss : Scopes) (x : LocalId) : Option Ty := ss.findSome? (·.narrowedType? x)

/-- The scopes with every fact about `x` forgotten, from the innermost scope up to the
enclosing function's. -/
def forget (x : LocalId) : Scopes → Scopes
  | [] => []
  | s :: rest =>
    if s.kind == .function then s.forget x :: rest else s.forget x :: forget x rest

/-- Whether code here is in a loop body of the same function or lambda. -/
def inLoop : Scopes → Bool
  | [] => false
  | s :: rest => match s.kind with
    | .loop => true
    | .lambda | .function => false
    | .block => inLoop rest

end Scopes

/-- A lambda being checked: the first local it declares (locals before it belong to enclosing
code), and what it captures so far. -/
structure LambdaFrame where
  firstLocal : LocalId
  captures : Array LocalId := #[]
  capturesThis : Bool := false
deriving Inhabited

/-- Facts that hold in some code, each a local narrowed to a type. -/
abbrev Narrowings := List (LocalId × Ty)

/-- The symbol a member declaration of a mock became. -/
inductive MemberSymbol where
  | field (f : FieldId)
  | function (f : FunctionId)
  /-- A member that was rejected, or is of no kind a mock declares. -/
  | none
deriving Inhabited

/-- A declared mock: its class and the symbols of its members, in declaration order. -/
structure DeclaredMock where
  cls : ClassId
  members : List MemberSymbol
deriving Inhabited

/-- The state of checking one unit. -/
structure CheckState where
  /-- The symbol table, the unit's diagnostics and log lines, and its generic uses. -/
  work : TableWork
  /-- The type relations' view of the table's classes. -/
  env : ClassEnv
  strict : Bool
  unit : Nat
  file : String
  isTestUnit : Bool
  locals : Array LocalSymbol := #[]
  scopes : Scopes := []
  mocks : MockOverlay := []
  /-- The lambdas around the code being checked, innermost first. -/
  lambdas : List LambdaFrame := []
  lambdaCount : Nat := 0
  mockCount : Nat := 0
  /-- The mock declarations met so far, by the span of the declaration, with the mock each
  declared (none when it failed). -/
  mockDecls : List (Span × Option DeclaredMock) := []
  ns : String := ""
  cls : Option ClassId := none
  fn : Option FunctionId := none
  owner : GenericOwner := {}
  staticContext : Bool := true
  /-- The result type of the function or lambda being checked; none in an initializer. -/
  returnType : Option Ty := none
  /-- Set while checking the first statement of a constructor body. -/
  superCallAllowed : Bool := false
  superCalled : Bool := false
  unitMocks : Array ClassId := #[]
  functions : Std.TreeMap FunctionId TypedFunction := ∅
  initializers : Std.TreeMap FieldId TypedExpr := ∅
  tests : Array FunctionId := #[]

/-- Steps of checking a unit. -/
abbrev CheckM := StateM CheckState

namespace CheckM

/-- Reports a diagnostic of the unit. -/
def report (d : Diagnostic) : CheckM Unit :=
  modify fun s => { s with work := { s.work with diags := s.work.diags.push d } }

/-- Writes a log line. -/
def log (l : Log.Line) : CheckM Unit :=
  modify fun s => { s with work := { s.work with journal := s.work.journal.push l } }

instance : Reporter CheckM where
  report := report
  log := log

/-- Runs a step of completing the symbol table. -/
def onTable {α : Type} (x : TableM α) : CheckM α := do
  let s ← get
  let (a, w) := x.run s.work
  set { s with work := w, env := w.table.env }
  pure a

/-- The symbol table. -/
def table : CheckM SymbolTable := do pure (← get).work.table

/-- The class relations. -/
def env : CheckM ClassEnv := do pure (← get).env

/-- A type as messages show it. -/
def display (t : Ty) : CheckM String := do pure (t.display (← env))

/-- Whether a value of type `a` converts to `b`. -/
def converts (a b : Ty) : CheckM Bool := do pure (Ty.canConvert (← env) a b)

/-- Lookups from this unit. -/
def names : CheckM NameLookup := do
  let s ← get
  pure { table := s.work.table, unit := s.unit, strictFeatures := s.strict }

/-- The lookup context of the code being checked: its namespace, and the generic parameters in
scope (the class's outside static code, then the function's). Types in bodies are resolved
without mocks. -/
def context : CheckM LookupContext := do
  let s ← get
  let t := s.work.table
  let classParams := match s.cls with
    | some c => if s.staticContext then [] else (t.cls c).generics
    | none => []
  let fnParams := match s.fn with
    | some f => (t.fn f).generics
    | none => []
  pure { ns := s.ns, generics := classParams ++ fnParams }

/-- Resolves a type annotation in the current context, reporting what fails. -/
def resolveType (te : TypeExpr) : CheckM Ty := do
  (← names).resolveType (← context) te

/-- Reports a type mismatch, with notes. -/
def mismatchNoted (message : String) (span : Span) (notes : List String) : CheckM Unit :=
  report (Diagnostic.errorNoted .typeMismatch Code.typeMismatch message span notes)

/-- Reports a type mismatch. -/
def mismatch (message : String) (span : Span) : CheckM Unit := mismatchNoted message span []

/-- Reports a null-safety violation, with notes. -/
def nullSafetyNoted (message : String) (span : Span) (notes : List String) : CheckM Unit :=
  report (Diagnostic.errorNoted .nullSafetyViolation Code.nullSafety message span notes)

/-- Reports a null-safety violation. -/
def nullSafety (message : String) (span : Span) : CheckM Unit := nullSafetyNoted message span []

/-- Reports a construct in a place where it is not allowed, as a syntax error. -/
def misplaced (message : String) (span : Span) : CheckM Unit :=
  report (Diagnostic.error .syntaxError Code.unexpectedToken message span)

/-- Reports a name that was not found; `extra` are further names to suggest from. -/
def unresolvedAmong (what name : String) (span : Span) (extra : List String) : CheckM Unit := do
  report ((← names).unresolved what name span (← get).ns extra)

/-- Reports a name that was not found. -/
def unresolved (what name : String) (span : Span) : CheckM Unit := unresolvedAmong what name span []

/-- Records the generic class instances in a type as uses of the code being checked. -/
def recordType (t : Ty) (span : Span) : CheckM Unit :=
  modify fun s => { s with
    work := { s.work with uses := s.work.uses.recordType s.env s.owner span t } }

/-- Records a call of a generic function. -/
def recordCall (f : FunctionId) (classArgs fnArgs : List Ty) (span : Span) : CheckM Unit :=
  modify fun s => { s with
    work := { s.work with uses := s.work.uses.recordCall s.env f classArgs fnArgs s.owner span } }

/-- The symbol of local `x`. -/
def localVar (x : LocalId) : CheckM LocalSymbol := do pure ((← get).locals.getD x default)

/-- Declares a local in the innermost scope; a name the scope already defines is reported, and
the new local is then reachable only through its declaration. -/
def defineLocal (name : String) (type : Ty) (isVal isParam : Bool) (span : Span) :
    CheckM LocalId := do
  let s ← get
  let x := s.locals.size
  set { s with locals := s.locals.push { name, type, isVal, isParam, id := x, span } }
  match s.scopes with
  | top :: rest =>
    if (top.find? name).isSome then
      report (Diagnostic.error .duplicateDeclaration Code.duplicateDeclaration
        ("'" ++ name ++ "' is already defined in this scope") span)
    else
      modify fun s => { s with scopes := { top with locals := top.locals ++ [(name, x)] } :: rest }
  | [] => pure ()
  recordType type span
  pure x

/-- Opens a scope. -/
def pushScope (kind : ScopeKind) : CheckM Unit :=
  modify fun s => { s with scopes := { kind } :: s.scopes }

/-- Closes the innermost scope. -/
def popScope : CheckM Unit :=
  modify fun s => { s with scopes := s.scopes.drop 1 }

/-- Narrows local `x` to type `t` in the innermost scope. -/
def narrow (x : LocalId) (t : Ty) : CheckM Unit :=
  modify fun s => { s with scopes := match s.scopes with
    | top :: rest => top.narrow x t :: rest
    | [] => [] }

/-- Applies facts in the innermost scope. -/
def applyNarrowings (facts : Narrowings) : CheckM Unit :=
  facts.forM fun (x, t) => narrow x t

/-- Forgets every fact about local `x` up to the enclosing function's scope. -/
def forget (x : LocalId) : CheckM Unit :=
  modify fun s => { s with scopes := Scopes.forget x s.scopes }

/-- Forgets the facts about the local `name` stands for, if it stands for one. -/
def forgetName (name : String) : CheckM Unit := do
  if let some x := (← get).scopes.lookup name then forget x

/-- Records that the lambdas around the code read local `x` of enclosing code. -/
def capture (x : LocalId) : CheckM Unit :=
  modify fun s =>
    { s with
      locals := s.locals.modify x fun l => { l with captured := true }
      lambdas := s.lambdas.map fun f =>
        if x < f.firstLocal && !f.captures.contains x then { f with captures := f.captures.push x }
        else f }

/-- Records that the lambdas around the code use `this`. -/
def captureThis : CheckM Unit :=
  modify fun s => { s with lambdas := s.lambdas.map fun f => { f with capturesThis := true } }

/-- Whether a local `name` is in scope. -/
def isLocalName (name : String) : CheckM Bool := do pure ((← get).scopes.lookup name).isSome

/-- What checking a body changes and restores afterwards. -/
structure BodyContext where
  fn : Option FunctionId
  owner : GenericOwner
  staticContext : Bool
  scopes : Scopes
  returnType : Option Ty
  lambdas : List LambdaFrame
  superCallAllowed : Bool
  superCalled : Bool

/-- The body context of the code being checked. -/
def saveBody : CheckM BodyContext := do
  let s ← get
  pure ⟨s.fn, s.owner, s.staticContext, s.scopes, s.returnType, s.lambdas, s.superCallAllowed,
    s.superCalled⟩

/-- Returns to a saved body context. -/
def restoreBody (c : BodyContext) : CheckM Unit :=
  modify fun s => { s with
    fn := c.fn, owner := c.owner, staticContext := c.staticContext, scopes := c.scopes,
    returnType := c.returnType, lambdas := c.lambdas, superCallAllowed := c.superCallAllowed,
    superCalled := c.superCalled }

/-- Runs `x` in a new scope of kind `kind`. -/
def inScope {α : Type} (kind : ScopeKind) (x : CheckM α) : CheckM α := do
  pushScope kind
  let a ← x
  popScope
  pure a

/-- Runs `x` as the body of a lambda: in a lambda scope, with a frame whose first local is the
next one declared; gives the frame, which holds what the body captured. -/
def inLambda {α : Type} (x : CheckM α) : CheckM (α × LambdaFrame) := do
  pushScope .lambda
  modify fun s => { s with lambdas := { firstLocal := s.locals.size } :: s.lambdas }
  let a ← x
  let frame := ((← get).lambdas.head?).getD { firstLocal := 0 }
  modify fun s => { s with lambdas := s.lambdas.drop 1 }
  popScope
  pure (a, frame)

/-- Runs `x` on a body of its own, which `enter` sets up, and returns to the body context
around it afterwards. -/
def inBody {α : Type} (enter : CheckState → CheckState) (x : CheckM α) : CheckM α := do
  let saved ← saveBody
  modify enter
  let a ← x
  restoreBody saved
  pure a

end CheckM

/-- An expression that checking did not reach. -/
def TypedExpr.unchecked (e : Expr) : TypedExpr := .mk .unchecked e.span {}

end AmLang
