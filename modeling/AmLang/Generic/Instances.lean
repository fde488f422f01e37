import AmLang.Generic.Uses
import AmLang.Symbols.Table
import AmLang.Log.Line
import AmLang.Diagnostic.Basic
/-!
# Generic instances

The instances a program needs of its generic classes and functions: each gets code of its own
with the arguments put in for the parameters. A use whose arguments are all concrete is needed as
it stands. A use inside a generic declaration, whose arguments mention that declaration's
parameters, is needed once for every instance of the declaration, with the instance's arguments
put in; so the set grows from the concrete uses until every use of every instance is in it.

A class instance needs the instances of the classes in its arguments too. An instance nesting
deeper than `maxDepth` levels of generic arguments is refused with an error, which is what stops
a use such as `Box<Box<T>>` inside `Box<T>` from growing the set forever.

Instances are named after the declaration and their mangled arguments (`am_Box__Int`), with a
suffix `_2`, `_3`, … when two instances would share a name.
-/

namespace AmLang

/-- How deeply generic arguments may nest in an instance. -/
def maxDepth : Nat := 8

mutual

/-- The name fragment of a type in instance names: `Int`, `OptString`, `ArrInt`,
`Fn_Int_To_Bool`, `am_Box_Int`. -/
def mangleType (env : ClassEnv) : Ty → String
  | .prim k n => (if n then "Opt" else "") ++ k.name
  | .obj c args n =>
    let base := (if n then "Opt" else "") ++ cIdentifier (env.getD c default).qualifiedName
    if args.isEmpty then base
    else base ++ "_" ++ "_".intercalate (mangleAll env args)
  | .array e n => (if n then "Opt" else "") ++ "Arr" ++ mangleType env e
  | .func ps r n =>
    (if n then "Opt" else "") ++ "Fn" ++
      String.join ((mangleAll env ps).map ("_" ++ ·)) ++ "_To_" ++
      mangleType env r
  | .param x n => (if n then "Opt" else "") ++ x
  | _ => "Err"

/-- The name fragment of each type of a list. -/
def mangleAll (env : ClassEnv) : List Ty → List String
  | [] => []
  | t :: ts => mangleType env t :: mangleAll env ts

end

/-- The mangled arguments of an instance, joined by `_`. -/
def mangleArgs (env : ClassEnv) (args : List Ty) : String :=
  "_".intercalate (args.map (mangleType env))

mutual

/-- How many levels of generic class arguments a type nests: 0 for a type without any. -/
def genericDepth : Ty → Nat
  | .obj _ args _ =>
    if args.isEmpty then 0
    else (depths args).foldl max 0 + 1
  | .array e _ => genericDepth e
  | .func ps r _ => (depths ps).foldl max (genericDepth r)
  | _ => 0

/-- The nesting depth of each type of a list. -/
def depths : List Ty → List Nat
  | [] => []
  | t :: ts => genericDepth t :: depths ts

end

/-- An instance of a generic class. -/
structure ClassInstance where
  cls : ClassId
  args : List Ty
  /-- The instance as a type. -/
  type : Ty
  cName : String
deriving Inhabited

/-- An instance of a generic function, or of a method of a generic class. -/
structure FunctionInstance where
  fn : FunctionId
  /-- The owning class's arguments, for a method of a generic class. -/
  classArgs : List Ty
  fnArgs : List Ty
  cName : String
deriving Inhabited

/-- What an instance of function `f` puts in for the parameters of its class (unless it is
static) and then its own. -/
def FunctionInstance.subst (t : SymbolTable) (i : FunctionInstance) : Subst :=
  let fs := t.fn i.fn
  let ofClass := match fs.owner with
    | some o => if fs.flags.isStatic then [] else (t.cls o).generics.zip i.classArgs
    | none => []
  (ofClass ++ fs.generics.zip i.fnArgs).foldl (fun s (x, ty) => s.set x ty) []

/-- The instances of a program. -/
structure Instances where
  classes : Array ClassInstance := #[]
  functions : Array FunctionInstance := #[]
  classIndex : Std.TreeMap String Nat := ∅
  functionIndex : Std.TreeMap String Nat := ∅
  /-- The names given so far. -/
  names : Std.TreeSet String := ∅
deriving Inhabited

namespace Instances

/-- The key of class `c`'s instance for `args`. -/
def classKey (t : SymbolTable) (c : ClassId) (args : List Ty) : String :=
  (t.cls c).qualifiedName ++ argsKey t.env args

/-- The key of function `f`'s instance for its class's and its own arguments. -/
def functionKey (env : ClassEnv) (f : FunctionId) (classArgs fnArgs : List Ty) : String :=
  toString f ++ argsKey env classArgs ++ argsKey env fnArgs

/-- Class `c`'s instance for `args`, if it is one of them. -/
def findClass? (is : Instances) (t : SymbolTable) (c : ClassId) (args : List Ty) :
    Option ClassInstance :=
  (is.classIndex.get? (classKey t c args)).bind (is.classes[·]?)

/-- Function `f`'s instance for these arguments, if it is one of them. -/
def findFunction? (is : Instances) (env : ClassEnv) (f : FunctionId) (classArgs fnArgs : List Ty) :
    Option FunctionInstance :=
  (is.functionIndex.get? (functionKey env f classArgs fnArgs)).bind (is.functions[·]?)

/-- The instances of class `c`, in the order they were found. -/
def ofClass (is : Instances) (c : ClassId) : List ClassInstance :=
  is.classes.toList.filter (·.cls == c)

/-- The instances of function `f`, in the order they were found. -/
def ofFunction (is : Instances) (f : FunctionId) : List FunctionInstance :=
  is.functions.toList.filter (·.fn == f)

end Instances

/-- A generic declaration instantiated, with what its instance puts in for the parameters: its
uses are needed with that substitution. -/
structure PendingOwner where
  owner : GenericOwner
  subst : Subst

/-- The state of growing the set of instances. -/
structure ClosureState where
  instances : Instances := {}
  /-- Instances whose uses are still to be expanded, the latest last. -/
  work : Array PendingOwner := #[]
  diags : Array Diagnostic := #[]
  journal : Array Log.Line := #[]
  ok : Bool := true

/-- Steps of growing the set of instances. -/
abbrev ClosureM := StateM ClosureState

namespace ClosureM

/-- A fresh instance name from `base`. -/
def uniqueName (base : String) : ClosureM String := do
  let names := (← get).instances.names
  let rec pick : Nat → Nat → String
    | 0, _ => base
    | fuel + 1, n =>
      let name := base ++ "_" ++ toString n
      if names.contains name then pick fuel (n + 1) else name
  let name := if names.contains base then pick (names.size + 1) 2 else base
  modify fun s => { s with instances := { s.instances with names := s.instances.names.insert name } }
  pure name

/-- Reports an instance nesting too deeply. -/
def tooDeep (name : String) (span : Span) (notes : List String) : ClosureM Unit :=
  modify fun s => { s with
    diags := s.diags.push (Diagnostic.errorNoted .typeMismatch Code.typeMismatch
      ("generic instantiation of '" ++ name ++ "' nests deeper than " ++ toString maxDepth ++
        " levels") span notes),
    ok := false }

/-- Writes a log line. -/
def log (l : Log.Line) : ClosureM Unit :=
  modify fun s => { s with journal := s.journal.push l }

mutual

/-- Adds the class instances a type needs. -/
def addType (t : SymbolTable) (span : Span) : Ty → ClosureM Unit
  | .obj c args _ => if args.isEmpty then pure () else addClass t span c args
  | .array e _ => addType t span e
  | .func ps r _ => do
    addType t span r
    addTypes t span ps
  | _ => pure ()

/-- Adds the class instances each of a list of types needs. -/
def addTypes (t : SymbolTable) (span : Span) : List Ty → ClosureM Unit
  | [] => pure ()
  | a :: as => do
    addType t span a
    addTypes t span as

/-- Adds class `c`'s instance for `args`, after the instances its arguments need. -/
def addClass (t : SymbolTable) (span : Span) (c : ClassId) (args : List Ty) : ClosureM Unit := do
  let env := t.env
  let type := Ty.obj c args false
  if (← get).instances.classIndex.contains (Instances.classKey t c args) then return
  if genericDepth type > maxDepth then
    tooDeep (t.cls c).name span ["instantiation: " ++ type.display env]
    return
  addTypes t span args
  let k := t.cls c
  let name ← uniqueName (k.cName ++ "__" ++ mangleArgs env args)
  modify fun s => { s with
    instances := { s.instances with
      classes := s.instances.classes.push ⟨c, args, type, name⟩,
      classIndex := s.instances.classIndex.insert (Instances.classKey t c args)
        s.instances.classes.size } }
  log (Log.debug "binder" ("instance " ++ type.display env ++ " as " ++ name))
  modify fun s => { s with work := s.work.push ⟨{ cls := some c }, type.substOf env⟩ }

end

/-- Adds the instance of function `f` for concrete arguments, named from `base`, after the class
instances its arguments need; an argument nesting too deeply is reported instead. -/
def addCall (t : SymbolTable) (span : Span) (f : FunctionId) (classArgs fnArgs : List Ty)
    (base : String) : ClosureM Unit := do
  let env := t.env
  let fs := t.fn f
  for arg in fnArgs do
    if genericDepth arg ≥ maxDepth then
      tooDeep fs.name span []
      return
    addType t span arg
  let key := Instances.functionKey env f classArgs fnArgs
  if (← get).instances.functionIndex.contains key then return
  let name ← uniqueName (base ++ "__" ++ mangleArgs env fnArgs)
  let inst : FunctionInstance := ⟨f, classArgs, fnArgs, name⟩
  modify fun s => { s with
    instances := { s.instances with
      functions := s.instances.functions.push inst,
      functionIndex := s.instances.functionIndex.insert key s.instances.functions.size } }
  log (Log.debug "binder" ("instance " ++ fs.qualifiedName ++ argsKey env fnArgs ++ " as " ++ name))
  modify fun s => { s with work := s.work.push ⟨{ cls := fs.owner, fn := some f }, inst.subst t⟩ }

/-- Adds what a use needs with `subst` put in for the parameters it mentions; a use that stays
generic after that needs nothing yet. -/
def addUse (t : SymbolTable) (subst : Subst) (u : Use) : ClosureM Unit := do
  let classArgs := u.classArgs.map (·.substitute subst)
  let fnArgs := u.fnArgs.map (·.substitute subst)
  if !(classArgs.all Ty.isConcrete && fnArgs.all Ty.isConcrete) then return
  if let some c := u.cls then
    addClass t u.span c classArgs
    return
  let some f := u.fn | return
  let fs := t.fn f
  let genericOwner := fs.owner.filter fun o => (t.cls o).isGeneric && !fs.flags.isStatic
  let base ← match genericOwner with
    | some o => do
      addClass t u.span o classArgs
      match (← get).instances.findClass? t o classArgs with
      | some inst => pure (some (inst.cName ++ fs.cName.drop (t.cls o).cName.length))
      | none => pure none
    | none => pure (some fs.cName)
  let some base := base | return
  addCall t u.span f classArgs fnArgs base

/-- Whether a use stands inside the generic declaration `owner`: in the function itself for a
function, or directly in the class (outside its generic methods) for a class. -/
def Use.within (u : Use) (owner : GenericOwner) : Bool :=
  match owner.fn with
  | some f => u.owner.fn == some f
  | none => u.owner.fn.isNone && u.owner.cls == owner.cls

/-- Expands the uses inside the latest instantiated declaration; none when no work is left. -/
def step (t : SymbolTable) (dependent : List Use) : ClosureM Bool := do
  let s ← get
  let some p := s.work.back? | return false
  set { s with work := s.work.pop }
  for u in dependent do
    if Use.within u p.owner then addUse t p.subst u
  pure true

/-- Runs at most `fuel` steps, until no work is left. -/
def runSteps (t : SymbolTable) (dependent : List Use) : Nat → ClosureM Unit
  | 0 => pure ()
  | fuel + 1 => do
    if ← step t dependent then runSteps t dependent fuel

end ClosureM

/-- What growing the set of instances gave: the instances, the errors of instances nesting too
deeply, and the log lines written. -/
structure Closure where
  instances : Instances
  diagnostics : List Diagnostic
  journal : List Log.Line

/-- Whether a use's arguments are all concrete: it is needed as it stands. -/
def Use.isConcrete (u : Use) : Bool :=
  u.classArgs.all Ty.isConcrete && u.fnArgs.all Ty.isConcrete

/-- The uses recorded in the logs, in order. -/
def UseLog.allUses (logs : List UseLog) : List Use := logs.flatMap (·.uses.toList)

namespace ClosureM

/-- Grows the set of instances from the uses of `logs`: the concrete uses first, then at most
`fuel` expansions of the dependent ones. -/
def grow (t : SymbolTable) (logs : List UseLog) (fuel : Nat) : ClosureM Unit := do
  let uses := UseLog.allUses logs
  for u in uses.filter Use.isConcrete do addUse t [] u
  runSteps t (uses.filter fun u => !u.isConcrete) fuel

end ClosureM

/-- Steps enough for any program: each step expands one instance, and a program needs far fewer
instances than this. -/
def closureFuel : Nat := 1000000

/-- The instances a program needs, from the uses recorded while declaring and checking it. -/
def Instances.close (t : SymbolTable) (logs : List UseLog) : Closure :=
  let steps : ClosureM Unit := do
    ClosureM.grow t logs closureFuel
    let is := (← get).instances
    ClosureM.log (Log.info "binder" ("instantiations: " ++ toString is.classes.size ++
      " classes, " ++ toString is.functions.size ++ " functions"))
  let ((), s) := StateT.run steps {}
  { instances := s.instances, diagnostics := s.diags.toList, journal := s.journal.toList }

end AmLang
