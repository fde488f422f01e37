import AmLang.Emit.Layout
/-!
# Emitting a unit's C: the state

The C of one unit is written into sections (mock types, string literals, lambda declarations,
descriptors, storage, function bodies, lambda bodies, the unit's initializer), each a text that
grows at its end. A function body is written line by line into the state of the function being
emitted; a lambda's body is emitted while its enclosing function waits.

## Reference counting

Every reference that a call, `new`, a lambda, boxing or string building produces is owned and
kept in a temporary that is released at the end of its statement: the statement's frame. Locals
own their values and are released at the end of their block: its drop scope. Temporaries are
declared at the top of the function with a null value, so releasing one that was never set is
harmless. `return`, `break`, `continue` and the unwinding after an exception release everything
live, innermost first.

## Main definitions

* `EmitM` — the state monad of emission, which may stop with an internal error, with its
  primitives: `emitLine`, `ownedTemp`, `valueTemp`, `beginFrame`/`endFrame`,
  `pushScope`/`popScope`, `emitStore`, `emitUnwind`.
-/

namespace AmLang

/-- What emitting one unit reads: the program's layout, the unit and its C file stem, and
whether lines carry comments naming their source lines. -/
structure EmitContext where
  layout : Layout
  unit : CheckedUnit
  unitIndex : Nat
  module : String
  comments : Bool
deriving Inhabited

/-- The locals released at the end of a block; a loop body is where `break` and `continue`
stop releasing. -/
structure DropScope where
  vars : Array String := #[]
  loopBody : Bool := false

/-- The state of the C function being emitted. -/
structure FunctionState where
  cName : String := ""
  returnType : Ty := Ty.unit
  selfType : Option Ty := none
  body : String := ""
  /-- Declarations of the temporaries, put at the top of the body. -/
  tempDecls : Array String := #[]
  /-- The owned temporaries of each statement being emitted, innermost last. -/
  frames : Array (Array String) := #[]
  scopes : Array DropScope := #[]
  indent : Nat := 1

/-- The sections of a unit's C file. -/
structure Sections where
  mocks : String := ""
  literals : String := ""
  lambdaDecls : String := ""
  descriptors : String := ""
  storage : String := ""
  bodies : String := ""
  lambdaBodies : String := ""
  init : String := ""

/-- The state of emitting a unit. -/
structure EmitState where
  ctx : EmitContext
  fn : FunctionState := {}
  /-- What the instance being emitted puts in for generic parameters. -/
  subst : Subst := []
  /-- Temporaries named so far in the unit. -/
  tempCount : Nat := 0
  sections : Sections := {}
  /-- The string literals by their text, with their names. -/
  literals : Std.TreeMap String String := ∅
  journal : Array Log.Line := #[]

/-- Steps of emitting a unit. A step that finds the program inconsistent (a generic function
without the instance a call needs) stops the unit with the message of an internal error. -/
abbrev EmitM := ExceptT String (StateM EmitState)

namespace EmitM

/-! ## Reading the program -/

/-- The program's layout. -/
def layout : EmitM Layout := do pure (← get).ctx.layout

/-- The symbol table. -/
def table : EmitM SymbolTable := do pure (← get).ctx.layout.program.table

/-- The class relations. -/
def env : EmitM ClassEnv := do pure (← get).ctx.layout.env

/-- A type with the current instance's arguments put in. -/
def ty (t : Ty) : EmitM Ty := do
  let s := (← get).subst
  pure (if s.isEmpty then t else t.substitute s)

/-- The type of a checked expression in the current instance. -/
def typeOf (e : TypedExpr) : EmitM Ty := ty e.type

/-- A local of the unit. -/
def localVar (x : LocalId) : EmitM LocalSymbol := do
  pure ((← get).ctx.unit.locals.getD x default)

/-- The type of a local in the current instance. -/
def localType (x : LocalId) : EmitM Ty := do ty (← localVar x).type

/-- The C name of a local. -/
def localName (x : LocalId) : EmitM String := do pure (← localVar x).cName

/-- The checked function with an id. -/
def typedFunction? (f : FunctionId) : EmitM (Option TypedFunction) := do
  pure ((← get).ctx.unit.functions.get? f)

/-- The checked initializer of a field. -/
def initializer? (f : FieldId) : EmitM (Option TypedExpr) := do
  pure ((← get).ctx.unit.initializers.get? f)

/-- Writes a log line. -/
def log (l : Log.Line) : EmitM Unit := modify fun s => { s with journal := s.journal.push l }

/-! ## Lines -/

/-- Changes the function being emitted. -/
def modifyFn (f : FunctionState → FunctionState) : EmitM Unit :=
  modify fun s => { s with fn := f s.fn }

/-- Changes the sections. -/
def modifySections (f : Sections → Sections) : EmitM Unit :=
  modify fun s => { s with sections := f s.sections }

/-- Appends a line at the current indentation. -/
def emitLine (code : String) : EmitM Unit :=
  modifyFn fun f =>
    { f with body := f.body ++ String.ofList (List.replicate (4 * f.indent) ' ') ++ code ++ "\n" }

/-- Appends text as it is. -/
def emitRaw (text : String) : EmitM Unit := modifyFn fun f => { f with body := f.body ++ text }

/-- Appends a comment naming the source line of `span`, when comments are on. -/
def emitComment (span : Span) : EmitM Unit := do
  let ctx := (← get).ctx
  if !ctx.comments then return
  let file := ((ctx.unit.file.splitOn "/").getLastD "").splitOn "\\" |>.getLastD ""
  emitLine ("/* " ++ file ++ ":" ++ toString span.start.line ++ " */")

/-- Indents the following lines one step more. -/
def pushIndent : EmitM Unit := modifyFn fun f => { f with indent := f.indent + 1 }

/-- Indents the following lines one step less. -/
def popIndent : EmitM Unit := modifyFn fun f => { f with indent := f.indent - 1 }

/-- Starts emitting a function; returns the one that waits meanwhile. -/
def beginFunction (cName : String) (returnType : Ty) (selfType : Option Ty) :
    EmitM FunctionState := do
  let suspended := (← get).fn
  modify fun s => { s with fn := { cName, returnType, selfType } }
  pure suspended

/-- Ends the current function and resumes `suspended`; returns the body, temporaries first,
without braces. -/
def endFunction (suspended : FunctionState) : EmitM String := do
  let f := (← get).fn
  modify fun s => { s with fn := suspended }
  pure (String.join (f.tempDecls.toList.map fun d => "    " ++ d ++ "\n") ++ f.body)

/-- Runs `x` with the lines it emits diverted; returns them with its result. -/
def diverted {α : Type} (x : EmitM α) : EmitM (String × α) := do
  let saved := (← get).fn.body
  modifyFn fun f => { f with body := "" }
  let a ← x
  let code := (← get).fn.body
  modifyFn fun f => { f with body := saved }
  pure (code, a)

/-- The expression naming a string literal, declaring it on first use. -/
def stringLiteral (text : String) : EmitM String := do
  let s ← get
  match s.literals.get? text with
  | some name => pure ("(&" ++ name ++ ".header)")
  | none =>
    let name := "s_lit_" ++ toString s.literals.size
    modify fun s => { s with literals := s.literals.insert text name }
    let line := "AML_STRING_LIT(" ++ name ++ ", " ++ cStringLiteral text ++ ", " ++
      toString text.length ++ ");\n"
    modifySections fun sec => { sec with literals := sec.literals ++ line }
    pure ("(&" ++ name ++ ".header)")

/-! ## Temporaries and frames -/

/-- A fresh temporary name with a prefix. -/
def freshTemp (pre : String) : EmitM String := do
  let n := (← get).tempCount + 1
  modify fun s => { s with tempCount := n }
  pure (pre ++ toString n)

/-- An owned reference temporary, released at the end of the current statement. -/
def ownedTemp : EmitM String := do
  let name ← freshTemp "t"
  modifyFn fun f => { f with
    tempDecls := f.tempDecls.push ("aml_Object* " ++ name ++ " = NULL;")
    frames := f.frames.modify (f.frames.size - 1) (·.push name) }
  pure name

/-- A plain temporary of C type `cType`, declared at the top of the function. -/
def valueTempC (cType init : String) : EmitM String := do
  let name ← freshTemp "v"
  modifyFn fun f => { f with tempDecls := f.tempDecls.push (cType ++ " " ++ name ++ " = " ++ init ++ ";") }
  pure name

/-- A plain temporary holding a value of type `t`. -/
def valueTemp (t : Ty) : EmitM String := valueTempC t.cType t.tempInit

/-- Opens the frame of a statement. -/
def beginFrame : EmitM Unit := modifyFn fun f => { f with frames := f.frames.push #[] }

/-- Whether the current frame holds no temporary. -/
def frameEmpty : EmitM Bool := do pure (((← get).fn.frames.back?.map (·.isEmpty)).getD true)

/-- Releases the current frame's temporaries, latest first, keeping the frame open. -/
def flushFrame : EmitM Unit := do
  let temps := ((← get).fn.frames.back?).getD #[]
  for t in temps.reverse do
    emitLine ("aml_release(" ++ t ++ "); " ++ t ++ " = NULL;")
  modifyFn fun f => { f with frames := f.frames.modify (f.frames.size - 1) fun _ => #[] }

/-- Closes the current frame without releasing anything: control has left it. -/
def dropFrame : EmitM Unit := modifyFn fun f => { f with frames := f.frames.pop }

/-- Releases the current frame's temporaries and closes it. -/
def endFrame : EmitM Unit := do
  flushFrame
  dropFrame

/-! ## Drop scopes -/

/-- Opens the drop scope of a block. -/
def pushScope (loopBody : Bool) : EmitM Unit :=
  modifyFn fun f => { f with scopes := f.scopes.push { loopBody } }

/-- Closes the innermost drop scope, releasing its locals when control reaches its end. -/
def popScope (reachable : Bool) : EmitM Unit := do
  let vars := (((← get).fn.scopes.back?).map (·.vars)).getD #[]
  if reachable then
    for v in vars.reverse do emitLine ("aml_release(" ++ v ++ ");")
  modifyFn fun f => { f with scopes := f.scopes.pop }

/-- Makes the innermost drop scope release a local. -/
def registerDrop (var : String) : EmitM Unit :=
  modifyFn fun f =>
    { f with scopes := f.scopes.modify (f.scopes.size - 1) fun sc => { sc with vars := sc.vars.push var } }

/-- Releases every live temporary and local, innermost first. -/
def emitReleaseAll : EmitM Unit := do
  let f := (← get).fn
  for frame in f.frames.reverse do
    for t in frame.reverse do emitLine ("aml_release(" ++ t ++ ");")
  for sc in f.scopes.reverse do
    for v in sc.vars.reverse do emitLine ("aml_release(" ++ v ++ ");")

/-- Releases the locals of the scopes up to and including the innermost loop body. -/
def emitReleaseToLoop : EmitM Unit := do
  let scopes := (← get).fn.scopes.reverse.toList
  let inLoop := scopes.takeWhile (!·.loopBody)
  let upTo := inLoop ++ (scopes.drop inLoop.length).take 1
  for sc in upTo do
    for v in sc.vars.reverse do emitLine ("aml_release(" ++ v ++ ");")

/-- Leaves the function after releasing everything, returning its zero value. -/
def emitUnwind : EmitM Unit := do
  emitReleaseAll
  let zero := (← get).fn.returnType.zeroValue
  emitLine (if zero.isEmpty then "return;" else "return " ++ zero ++ ";")

/-- Leaves the function when an exception is pending. -/
def emitPendingCheck : EmitM Unit := do
  emitLine "if (aml_pending != NULL) \x7b"
  pushIndent
  emitUnwind
  popIndent
  emitLine "\x7d"

/-- Stores `value` into `target`: references are retained before the old value is released,
since the new value may be reachable only through the old one. -/
def emitStore (target value : String) (t : Ty) : EmitM Unit := do
  if !t.isReference then
    emitLine (target ++ " = " ++ value ++ ";")
    return
  let slot ← valueTempC "aml_Object*" "NULL"
  emitLine (slot ++ " = " ++ value ++ ";")
  emitLine ("aml_retain(" ++ slot ++ ");")
  emitLine ("aml_release(" ++ target ++ ");")
  emitLine (target ++ " = " ++ slot ++ ";")

/-- A borrowed reference copied into a new owned temporary. -/
def own (value : String) : EmitM String := do
  let t ← ownedTemp
  emitLine (t ++ " = " ++ value ++ ";")
  emitLine ("aml_retain(" ++ t ++ ");")
  pure t

end EmitM

end AmLang
