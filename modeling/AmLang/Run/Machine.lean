import AmLang.Run.Value
import AmLang.Emit.Layout
/-!
# The machine a program runs on

The state of a running program: its heap of objects, arrays and closures; the storage of its
namespace variables and static fields; the activation of the function running; and what it has
written to standard output and standard error. Runs are steps of `RunM`, a state monad over
this machine that can stop: by an exception propagating (a program has no `catch`, so one always
reaches the top), by a crash of the process, or by running out of steps.

Objects carry their class instance type, which names their runtime class: its descriptor (the C
name that casts and type tests compare), its display name (what messages print), its superclass
and the interfaces it implements. Strings, boxes, arrays and closures have the runtime's own
classes.

## Main definitions

* `Cell`, `FunctionValue`, `Frame`, `Machine`, `RunM`.
* `RuntimeClass` — the class of a value at run time, with `RunM.instanceOf`.
* `RunM.throwMessage` — throws a new `Exception` with a message, as the runtime's errors do.
-/

namespace AmLang

/-- A function value: a lambda with the values it captured when it was created. -/
structure FunctionValue where
  /-- The unit the lambda is written in, whose locals it uses. -/
  unit : Nat
  params : List LocalId
  body : TypedLambdaBody
  /-- The parameter and result types in the instance that created the lambda. -/
  paramTypes : List Ty
  result : Ty
  subst : Subst
  self : Option Value
  selfType : Option Ty
  captured : List (LocalId × Value)

/-- What a heap address holds. -/
inductive Cell where
  /-- An instance of a class instance type, with its fields. -/
  | object (type : Ty) (fields : Std.TreeMap FieldId Value)
  | array (items : Array Value)
  | closure (c : FunctionValue)

/-- The activation of the running function or lambda. -/
structure Frame where
  /-- The unit whose locals the code uses. -/
  unit : Nat := 0
  locals : Std.TreeMap LocalId Value := ∅
  self : Option Value := none
  selfType : Option Ty := none
  /-- What the running instance puts in for generic parameters. -/
  subst : Subst := []
  returnType : Ty := Ty.unit

/-- Binds a local to a value. -/
def bindLocal (locals : Std.TreeMap LocalId Value) (b : LocalId × Value) :
    Std.TreeMap LocalId Value :=
  locals.insert b.1 b.2

/-- The activation a call of function value `c` with `args` starts in: the copies `c` captured,
then its parameters bound to the arguments. -/
def FunctionValue.frame (c : FunctionValue) (args : List Value) : Frame :=
  { unit := c.unit, locals := (c.captured ++ c.params.zip args).foldl bindLocal ∅,
    self := c.self, selfType := c.selfType, subst := c.subst, returnType := c.result }

/-- Why a run stopped before its end. -/
inductive Stop where
  /-- An exception propagates. -/
  | thrown (ex : Value)
  /-- The process died of a signal. -/
  | crash (signal : Nat)
  /-- The evaluation nested deeper than the stack allows: the process dies as of a stray
  pointer. -/
  | exhausted
  /-- The run took more steps than it may: the process is stopped by its alarm. -/
  | timeout

/-- A running program. -/
structure Machine where
  layout : Layout
  heap : Array Cell := #[]
  globals : Std.TreeMap FieldId Value := ∅
  frame : Frame := {}
  /-- Standard output so far, as byte text. -/
  out : String := ""
  /-- Standard error so far, as byte text. -/
  err : String := ""
  /-- The steps left: calls and loop iterations. -/
  steps : Nat

/-- Steps of a running program. -/
abbrev RunM := ExceptT Stop (StateM Machine)

/-- The class of a value at run time. -/
inductive RuntimeClass where
  /-- A class of the program or a built-in class, by its instance type. -/
  | cls (type : Ty)
  | boxed
  | array
  | closure

namespace RuntimeClass

/-- The C name of the class's descriptor. -/
def cName (l : Layout) : RuntimeClass → String
  | .cls t => l.className t
  | .boxed => "aml_Boxed"
  | .array => "aml_Array"
  | .closure => "aml_Closure"

/-- The name the class's descriptor displays: a mock's own name, or the type. -/
def name (l : Layout) : RuntimeClass → String
  | .cls t => match t.classOf? with
    | some c => if (l.table.cls c).isMock then (l.table.cls c).name else t.display l.env
    | none => t.display l.env
  | .boxed => "Boxed"
  | .array => "Array"
  | .closure => "Function"

/-- The superclass, with the class's arguments put in. -/
def super? (l : Layout) : RuntimeClass → Option RuntimeClass
  | .cls t => match t.classOf? with
    | some c => ((l.table.cls c).superclass.map (·.substitute (t.substOf l.env))).map .cls
    | none => none
  | _ => some (.cls (SymbolTable.objectType false))

/-- The descriptors of the interfaces the class itself lists in its dispatch tables. -/
def interfaces (l : Layout) : RuntimeClass → List String
  | .cls t => match t.classOf? with
    | some c => (l.table.cls c).itables.map fun i => l.className (i.iface.substitute (t.substOf l.env))
    | none => []
  | _ => []

/-- The class and its superclasses, nearest first; at most `fuel` of them. -/
def chain (l : Layout) : Nat → RuntimeClass → List RuntimeClass
  | 0, _ => []
  | n + 1, k => k :: match k.super? l with
    | some s => chain l n s
    | none => []

/-- The class whose descriptor casts and type tests to a reference type check against. -/
def ofType : Ty → RuntimeClass
  | .array .. => .array
  | .func .. => .closure
  | t => .cls t

end RuntimeClass

namespace RunM

/-- The layout of the program. -/
def layout : RunM Layout := do pure (← get).layout

/-- The symbol table. -/
def table : RunM SymbolTable := do pure (← get).layout.program.table

/-- The class relations. -/
def env : RunM ClassEnv := do pure (← get).layout.env

/-- The running activation. -/
def frame : RunM Frame := do pure (← get).frame

/-- A type with the running instance's arguments put in. -/
def ty (t : Ty) : RunM Ty := do
  let s := (← get).frame.subst
  pure (if s.isEmpty then t else t.substitute s)

/-- The type of a checked expression in the running instance. -/
def typeOf (e : TypedExpr) : RunM Ty := ty e.type

/-- The symbol of a local of the running unit. -/
def localSymbol (x : LocalId) : RunM LocalSymbol := do
  let m ← get
  pure ((m.layout.program.units.getD m.frame.unit default).locals.getD x default)

/-- The type of a local in the running instance. -/
def localType (x : LocalId) : RunM Ty := do ty (← localSymbol x).type

/-- The value of a local. -/
def getLocal (x : LocalId) : RunM Value := do
  pure (((← get).frame.locals.get? x).getD .null)

/-- Sets a local. -/
def setLocal (x : LocalId) (v : Value) : RunM Unit :=
  modify fun m => { m with frame := { m.frame with locals := m.frame.locals.insert x v } }

/-- Runs `x` in another activation, then resumes the running one. -/
def within {α : Type} (f : Frame) (x : RunM α) : RunM α := do
  let saved := (← get).frame
  modify fun m => { m with frame := f }
  let r ← tryCatch x fun s => do
    modify fun m => { m with frame := saved }
    throw s
  modify fun m => { m with frame := saved }
  pure r

/-- Takes one step, or stops when none are left. -/
def tick : RunM Unit := do
  if (← get).steps == 0 then throw .timeout
  modify fun m => { m with steps := m.steps - 1 }

/-- Puts a cell on the heap; its address as a value. -/
def alloc (c : Cell) : RunM Value :=
  modifyGet fun m => (.ref m.heap.size, { m with heap := m.heap.push c })

/-- The cell at an address. -/
def cell? (a : Nat) : RunM (Option Cell) := do pure (← get).heap[a]?

/-- Changes the cell at an address in place. -/
def updateCell (a : Nat) (f : Cell → Cell) : RunM Unit :=
  modify fun m => { m with heap := m.heap.modify a f }

/-- Dies of a signal: 11 for a null or wild pointer, 6 for an abort. -/
def crash {α : Type} (signal : Nat) : RunM α := throw (.crash signal)

/-- Writes byte text to standard output. -/
def write (s : String) : RunM Unit := modify fun m => { m with out := m.out ++ s }

/-- Writes byte text to standard error. -/
def writeErr (s : String) : RunM Unit := modify fun m => { m with err := m.err ++ s }

/-- The value of a namespace variable or static field. -/
def global (f : FieldId) : RunM Value := do pure (((← get).globals.get? f).getD .null)

/-- Sets a namespace variable or static field. -/
def setGlobal (f : FieldId) (v : Value) : RunM Unit :=
  modify fun m => { m with globals := m.globals.insert f v }

/-- A new object of a class instance type, each field zero. -/
def newObject (t : Ty) : RunM Value := do
  let l ← layout
  let fields := (l.structMembers t).foldl (fun m sm => m.insert sm.field (Value.zero sm.type)) ∅
  alloc (.object t fields)

/-- A field of an object; a null receiver crashes. -/
def readField (obj : Value) (f : FieldId) : RunM Value := do
  match obj with
  | .ref a => match ← cell? a with
    | some (.object _ fields) => pure ((fields.get? f).getD .null)
    | _ => crash 11
  | _ => crash 11

/-- Sets a field of an object; a null receiver crashes. -/
def writeField (obj : Value) (f : FieldId) (v : Value) : RunM Unit := do
  match obj with
  | .ref a => match ← cell? a with
    | some (.object ..) => updateCell a fun c => match c with
      | .object t fields => .object t (fields.insert f v)
      | c => c
    | _ => crash 11
  | _ => crash 11

/-- The runtime class of a non-null value. -/
def classOf (v : Value) : RunM RuntimeClass := do
  match v with
  | .str _ => pure (.cls (SymbolTable.stringType false))
  | .boxed .. => pure .boxed
  | .ref a => match ← cell? a with
    | some (.object t _) => pure (.cls t)
    | some (.array _) => pure .array
    | some (.closure _) => pure .closure
    | none => pure .boxed
  | _ => pure .boxed

/-- Whether a value is an instance of the class with descriptor `target`: the class itself,
a superclass, or an interface one of them lists. Null is not. -/
def instanceOf (v : Value) (target : String) : RunM Bool := do
  if v == .null then return false
  let l ← layout
  let chain := RuntimeClass.chain l (l.table.classes.size + 2) (← classOf v)
  pure (chain.any fun k => k.cName l == target || (k.interfaces l).contains target)

/-- Throws a new `Exception` whose message is `msg`, as the runtime's errors do. -/
def throwMessage {α : Type} (msg : String) : RunM α := do
  let t ← table
  let ex ← newObject (.obj exceptionClass [] false)
  if let some m := (t.cls exceptionClass).fields.head? then writeField ex m (.str msg)
  throw (.thrown ex)

end RunM

end AmLang
