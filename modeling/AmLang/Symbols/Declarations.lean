import AmLang.Symbols.Builder
import AmLang.Symbols.Resolve
/-!
# Resolving declarations

Completes the symbols the builder declared, before any body is checked:

| step             | result                                                     |
|------------------|------------------------------------------------------------|
| links            | each class's superclass and interfaces (cycles cut)        |
| signatures       | parameter and result types of every function               |
| fields           | the types of fields and namespace variables                |
| constructors     | an implicit constructor for a class that declares none     |
| duplicates       | overloads with equal signatures, more than one `main`      |
| dispatch tables  | `vtable`, `itables`, and which method overrides which      |

A class's `vtable` starts as its superclass's; a method with the name and parameter types of an
inherited slot (seen through the class's generic arguments) takes that slot, and any other method
gets a new one. An interface's table lists the methods of the interfaces it extends, each once,
then its own. For every interface a class implements, directly or through an ancestor, its
`itables` entry picks the first slot of the class's table with the interface method's name and
parameter types.

Generic instances in declarations (`extends Base<T>`, a field of type `List<T>`) are recorded as
uses, for the instance closure.
-/

namespace AmLang

instance : Reporter TableM where
  report := TableM.report
  log := TableM.log

/-! ## Shared with body checking -/

namespace NameLookup

variable {m : Type → Type} [Monad m] [Reporter m]

/-- The type of a literal, when a declaration may take its type from it: integer and floating
literals by their suffix, strings, characters and booleans; an invalid literal is the error
type. -/
def literalType (tok : Token) : Option Ty :=
  match tok.kind with
  | .intLit => match tok.value with
    | .number (.long _) => some (.prim .long false)
    | _ => some Ty.int
  | .floatLit => match tok.value with
    | .number (.float _) => some (.prim .float false)
    | _ => some (.prim .double false)
  | .stringLit => some (SymbolTable.stringType false)
  | .charLit => some (.prim .char false)
  | .boolLit => some Ty.bool
  | .invalid => some .error
  | _ => none

/-- The type of an initializer simple enough to give a field its type: a literal (also negated),
an interpolated string, a `new` expression, or a cast. -/
def initializerType (l : NameLookup) (ctx : LookupContext) : Expr → m (Option Ty)
  | .mk (.literal tok) _ => pure (literalType tok)
  | .mk (.interpolation _) _ => pure (some (SymbolTable.stringType false))
  | .mk (.newObject te _) _ => some <$> l.resolveType ctx te
  | .mk (.newArray te _) _ => do
    let ty ← l.resolveType ctx te
    pure (some (if ty.isError then ty else .array ty false))
  | .mk (.cast _ te) _ => some <$> l.resolveType ctx te
  | .mk (.unary .neg (.mk (.literal tok) _)) _ => pure (literalType tok)
  | _ => pure none

/-- The parameter and result types of a function declaration; `Unit` when there is none. -/
def signatureOf (l : NameLookup) (ctx : LookupContext) : Option Decl → m (List Ty × Ty)
  | some (.mk (.function _ _ params result _ _) _ _ _) => do
    let ps ← l.resolveTypes ctx (params.map (·.type))
    let r ← match result with
      | some r => l.resolveType ctx r
      | none => pure Ty.unit
    pure (ps, r)
  | _ => pure ([], Ty.unit)

end NameLookup

namespace SymbolTable

open TableM

/-- Where a class's name stands; nowhere for a class without a declaration. -/
def classSpan (k : ClassSymbol) : Span := (k.decl.map (·.nameSpan)).getD {}

/-- Where a function's name stands; nowhere for a function without a declaration. -/
def fnSpan (f : FunctionSymbol) : Span := (f.decl.map (·.nameSpan)).getD {}

/-- The generic context of code in class `c` and function `f`: the class if it is generic and
the function is not static, the function if it is generic. -/
def ownerOf (t : SymbolTable) (c : Option ClassId) (f : Option FunctionId) : GenericOwner :=
  let isStatic := (f.map fun f => (t.fn f).flags.isStatic).getD false
  { cls := c.filter fun c => (t.cls c).isGeneric && !isStatic
    fn := f.filter fun f => (t.fn f).isGeneric }

/-- The lookup context of code in class `c` and function `f` of namespace `ns`: the class's
generic parameters unless the function is static, then the function's. -/
def contextFor (t : SymbolTable) (c : Option ClassId) (f : Option FunctionId) (ns : String) :
    LookupContext :=
  let isStatic := (f.map fun f => (t.fn f).flags.isStatic).getD false
  let classParams := match c with
    | some c => if isStatic then [] else (t.cls c).generics
    | none => []
  { ns, generics := classParams ++ (f.map fun f => (t.fn f).generics).getD [] }

/-- Lookups from the unit that declares a symbol. -/
def lookupFrom (t : SymbolTable) (unit : Option Nat) (strict : Bool) : NameLookup :=
  { table := t, unit := unit.getD 0, strictFeatures := strict }


/-! ## Seeing inherited members through generic arguments -/

/-- The substitution that turns `method`'s owner's parameters into the arguments `c` gives it. -/
def inheritedSubst (t : SymbolTable) (c : ClassId) (method : FunctionSymbol) : Subst :=
  match method.owner with
  | some o => match ((t.cls c).selfType c).ancestor t.env o with
    | some v => v.type.substOf t.env
    | none => []
  | none => []

/-- The parameter types of `method` as seen from class `c`, which derives from its owner. -/
def paramsSeenFrom (t : SymbolTable) (c : ClassId) (method : FunctionSymbol) : List Ty :=
  if method.owner == some c || method.owner.isNone then method.params
  else method.params.map (·.substitute (t.inheritedSubst c method))

/-- The result type of `method` as seen from class `c`. -/
def resultSeenFrom (t : SymbolTable) (c : ClassId) (method : FunctionSymbol) : Ty :=
  if method.owner == some c || method.owner.isNone then method.result
  else method.result.substitute (t.inheritedSubst c method)

/-- Every interface reachable from a class type, in terms of that type's arguments: those of
the superclass first, then each direct interface followed by the ones it extends; an interface
is listed once. -/
def collectInterfaces (t : SymbolTable) (ty : Ty) : List Ty :=
  go (t.classes.size + 1) ty []
where
  go : Nat → Ty → List Ty → List Ty
    | 0, _, out => out
    | fuel + 1, ty, out =>
      match ty.classOf? with
      | none => out
      | some c =>
        let k := t.cls c
        let s := ty.substOf t.env
        let out := match k.superclass with
          | some sup => go fuel (sup.substitute s) out
          | none => out
        let step := fun (out : List Ty) (i : Ty) =>
          let concrete := i.substitute s
          let out := if out.any (·.classOf? == concrete.classOf?) then out else out ++ [concrete]
          go fuel concrete out
        k.interfaces.foldl step out

/-- The parameter types of an interface method as seen through an instance of the interface. -/
def interfaceParams (t : SymbolTable) (iface : Ty) (method : FunctionSymbol) : List Ty :=
  let s := match method.owner.bind (iface.ancestor t.env) with
    | some v => v.type.substOf t.env
    | none => []
  method.params.map (·.substitute s)

/-- Whether a method of class `c` has the name and parameter types of a method of an interface
the class implements. -/
def matchesInterfaceMethod (t : SymbolTable) (c : ClassId) (f : FunctionSymbol) : Bool :=
  (t.collectInterfaces ((t.cls c).selfType c)).any fun iface =>
    (t.cls (iface.classOf?.getD 0)).vtable.any fun mId =>
      let method := t.fn mId
      method.name == f.name && Ty.equalList (t.interfaceParams iface method) f.params

/-! ## Steps -/

/-- Records the generic instances in a type. -/
def recordType (ty : Ty) (owner : GenericOwner) (span : Span) : TableM Unit :=
  modify fun w => { w with uses := w.uses.recordType w.table.env owner span ty }

/-- Reports a type mismatch. -/
def mismatchAt (message : String) (span : Span) : TableM Unit :=
  report (Diagnostic.error .typeMismatch Code.typeMismatch message span)

/-- Reports a missing or wrong override. -/
def overrideError (message : String) (span : Span) (notes : List String) : TableM Unit :=
  report (Diagnostic.errorNoted .missingOverride Code.missingOverride message span notes)

/-- A supertype clause as a type, if it names a class of the right kind that may be extended. -/
def checkLink (strict : Bool) (c : ClassId) (te : TypeExpr) (wantInterface : Bool) :
    TableM (Option Ty) := do
  let t ← table
  let k := t.cls c
  let l := t.lookupFrom k.unit strict
  let ty ← l.resolveType (t.contextFor (some c) none k.ns) te
  if ty.isError then return none
  let some target := ty.classOf? | do
    mismatchAt ("'" ++ ty.display t.env ++ "' is not a class or interface") te.span
    return none
  if ty.nullable then
    mismatchAt "a supertype cannot be nullable" te.span
    return none
  let tk := t.cls target
  if tk.isInterface != wantInterface then
    mismatchAt (if wantInterface then "'" ++ tk.name ++ "' is a class, not an interface"
      else "'" ++ tk.name ++ "' is an interface; use 'implements'") te.span
    return none
  if target == stringClass then
    mismatchAt "cannot extend the built-in String" te.span
    return none
  recordType ty (t.ownerOf (some c) none) te.span
  pure (some ty)

/-- Resolves the superclass and interfaces of class `c`; a class without a valid superclass
extends `Object`. -/
def resolveLinks (strict : Bool) (c : ClassId) : TableM Unit := do
  let k := (← table).cls c
  match k.decl with
  | some (.mk (.classDecl _ _ sup ifaces _ _ _) _ _ _) =>
    let s ← match sup with
      | some te => checkLink strict c te false
      | none => pure none
    let s := s.getD (objectType false)
    let mut kept := []
    for te in ifaces do
      if let some ty ← checkLink strict c te true then kept := kept ++ [ty]
    let kept' := kept
    modifyTable fun t => t.modifyClass c fun k =>
      { k with superclass := some s, interfaces := kept' }
  | some (.mk (.interfaceDecl _ _ parents _) _ _ _) =>
    let mut kept := []
    for te in parents do
      if let some ty ← checkLink strict c te true then kept := kept ++ [ty]
    let kept' := kept
    modifyTable fun t => t.modifyClass c fun k =>
      { k with superclass := none, interfaces := kept' }
  | _ => pure ()

/-- The marks of a depth-first search over supertype edges. -/
inductive Mark where
  | active
  | done
deriving BEq

/-- The mark of class `d` in the search, if it has one. -/
def markOf (marks : List (ClassId × Mark)) (d : ClassId) : Option Mark :=
  (marks.find? (·.1 == d)).map (·.2)

/-- Checks the edge from class `k` to supertype `edge` in the search for inheritance cycles:
whether to keep it, and the marks after visiting its target with `visit`. An edge back into the
current path is reported and cut. -/
def checkEdge (visit : ClassId → List (ClassId × Mark) → TableM (List (ClassId × Mark)))
    (k : ClassSymbol) (edge : Ty) (marks : List (ClassId × Mark)) :
    TableM (Bool × List (ClassId × Mark)) := do
  let some target := edge.classOf? | return (true, marks)
  let tk := (← table).cls target
  if tk.isBuiltin then return (true, marks)
  if markOf marks target == some .active then
    report (Diagnostic.error .typeMismatch Code.inheritanceCycle
      ("inheritance cycle: '" ++ k.name ++ "' inherits from '" ++ tk.name ++
        "' which inherits from '" ++ k.name ++ "'") (classSpan k))
    return (false, marks)
  if markOf marks target == none then
    return (true, ← visit target marks)
  return (true, marks)

/-- Visits class `c` in the search for inheritance cycles: an edge back into the current path is
reported and cut (a superclass edge is replaced by `Object`). -/
def visitForCycles : Nat → ClassId → List (ClassId × Mark) → TableM (List (ClassId × Mark))
  | 0, _, marks => pure marks
  | fuel + 1, c, marks => do
    let k := (← table).cls c
    let (keepSuper, marks) ← match k.superclass with
      | some sup => checkEdge (visitForCycles fuel) k sup ((c, .active) :: marks)
      | none => pure (true, (c, .active) :: marks)
    if !keepSuper then
      modifyTable fun t => t.modifyClass c fun k => { k with superclass := some (objectType false) }
    let mut marks := marks
    let mut kept := []
    for i in k.interfaces do
      let (keep, marks') ← checkEdge (visitForCycles fuel) k i marks
      marks := marks'
      if keep then kept := kept ++ [i]
    let kept' := kept
    modifyTable fun t => t.modifyClass c fun k => { k with interfaces := kept' }
    pure ((c, .done) :: marks)

/-- Cuts every inheritance cycle among the user classes, searching from each in table order. -/
def breakCycles (userClasses : List ClassId) : TableM Unit := do
  let fuel := (← table).classes.size + 1
  let mut marks : List (ClassId × Mark) := []
  for c in userClasses do
    if !(marks.any (·.1 == c)) then
      marks ← visitForCycles fuel c marks

/-- Resolves the signature of function `f` and stores it. -/
def resolveSignature (strict : Bool) (f : FunctionId) (c : Option ClassId) : TableM Unit := do
  let t ← table
  let fs := t.fn f
  let (ps, r) ← (t.lookupFrom fs.unit strict).signatureOf (t.contextFor c (some f) fs.ns) fs.decl
  modifyTable fun t => t.modifyFunction f fun fs => { fs with params := ps, result := r }

/-- Whether a declaration is a function with a body. -/
def hasBody : Option Decl → Bool
  | some (.mk (.function _ _ _ _ body _) _ _ _) => body.isSome
  | _ => false

/-- Resolves the types of the methods, constructors and fields of class `c`. -/
def resolveMembers (strict : Bool) (c : ClassId) : TableM Unit := do
  let k := (← table).cls c
  for f in k.methodOrder do
    resolveSignature strict f (some c)
    let fs := (← table).fn f
    if !k.isInterface && !hasBody fs.decl && !fs.flags.isNative then
      modifyTable fun t => t.modifyFunction f fun fs =>
        { fs with flags := { fs.flags with isAbstract := true } }
    let fs := (← table).fn f
    if k.isInterface && fs.flags.isStatic then
      mismatchAt "interface methods cannot be static" (fnSpan fs)
    if fs.flags.isAbstract && !k.isAbstract && !k.isInterface then
      overrideError ("method '" ++ fs.name ++ "' has no body in non-abstract class '" ++ k.name ++
        "'") (fnSpan fs) []
    let owner := (← table).ownerOf (some c) (some f)
    for p in fs.params do
      recordType p owner (fnSpan fs)
    recordType fs.result owner (fnSpan fs)
  for f in k.constructors do
    let fs := (← table).fn f
    if k.isInterface then
      mismatchAt "interfaces cannot declare constructors" (fnSpan fs)
    resolveSignature strict f (some c)
    let fs := (← table).fn f
    let owner := (← table).ownerOf (some c) (some f)
    for p in fs.params do
      recordType p owner (fnSpan fs)
  for fid in k.fields ++ k.staticFields do
    let t ← table
    let fd := t.field fid
    let base := t.contextFor (some c) none k.ns
    let ctx := if fd.isStatic then { base with generics := [] } else base
    let span := (fd.decl.map (·.nameSpan)).getD {}
    if k.isInterface then
      mismatchAt "interfaces cannot declare fields" span
    let l := t.lookupFrom fd.unit strict
    let ty ← match fd.decl with
      | some (.mk (.field _ (some te) _ _ _) _ _ _) => l.resolveType ctx te
      | some (.mk (.field _ none (some init) _ _) _ _ _) => do
        match ← l.initializerType ctx init with
        | some ty => pure ty
        | none =>
          mismatchAt ("field '" ++ fd.name ++ "' needs a type annotation") span
          pure .error
      | _ => do
        mismatchAt ("field '" ++ fd.name ++ "' needs a type or an initializer") span
        pure .error
    let ty ← if ty.isUnit then do
        mismatchAt ("field '" ++ fd.name ++ "' cannot have type Unit") span
        pure .error
      else pure ty
    modifyTable fun t => t.modifyField fid fun fd => { fd with type := some ty }
    let t ← table
    let owner := if fd.isStatic then {} else t.ownerOf (some c) none
    recordType ty owner span
  log (Log.trace "binder" ("resolved members of " ++ k.qualifiedName))

/-- Gives a class that declares no constructor the implicit one without parameters. -/
def addDefaultConstructor (c : ClassId) : TableM Unit := do
  let k := (← table).cls c
  if k.isInterface || !k.constructors.isEmpty then return
  let f : FunctionSymbol := {
    name := "new", qualifiedName := k.qualifiedName ++ ".new", ns := k.ns, owner := some c,
    flags := { isConstructor := true }, unit := k.unit }
  let f := { f with cName := memberCName f k 0 }
  let i ← TableM.addFunction f
  modifyTable fun t => t.modifyClass c fun k => { k with constructors := k.constructors ++ [i] }

/-- Resolves the free functions and tests, checks them, and finds `main`. -/
def resolveFreeFunctions (strict : Bool) : TableM (Option FunctionId) := do
  let mut mains : List FunctionId := []
  for f in List.range (← table).functions.size do
    let fs := (← table).fn f
    if fs.owner.isSome || fs.isBuiltin || fs.decl.isNone then continue
    resolveSignature strict f none
    let fs := (← table).fn f
    if !hasBody fs.decl && !fs.flags.isNative then
      report (Diagnostic.error .syntaxError Code.unexpectedToken
        ("function '" ++ fs.name ++ "' has no body") (fnSpan fs))
    if fs.flags.isTest && (!fs.params.isEmpty || !fs.result.isUnit) then
      mismatchAt ("test '" ++ fs.name ++ "' must take no parameters and return Unit") (fnSpan fs)
    if !fs.flags.isTest && fs.name == "main" then
      mains := mains ++ [f]
    let owner := (← table).ownerOf none (some f)
    for p in fs.params do
      recordType p owner (fnSpan fs)
    recordType fs.result owner (fnSpan fs)
  let t ← table
  match mains with
  | [] => pure none
  | first :: rest =>
    for f in rest do
      report (Diagnostic.errorNoted .duplicateDeclaration Code.duplicateDeclaration
        "more than one 'main' function in the program" (fnSpan (t.fn f))
        ["first 'main' is '" ++ (t.fn first).qualifiedName ++ "'"])
    let entry := t.fn first
    if !entry.params.isEmpty || entry.isGeneric || !(entry.result.isUnit || entry.result.isPrim .int)
    then
      mismatchAt "'main' must take no parameters and return Unit or Int" (fnSpan entry)
      pure none
    else pure (some first)

/-- Resolves the types of namespace variables. -/
def resolveGlobals (strict : Bool) : TableM Unit := do
  for fid in List.range (← table).fields.size do
    let t ← table
    let fd := t.field fid
    if fd.owner.isSome || fd.decl.isNone then continue
    let l := t.lookupFrom fd.unit strict
    let ctx : LookupContext := { ns := fd.ns }
    let span := (fd.decl.map (·.nameSpan)).getD {}
    let ty ← match fd.decl with
      | some (.mk (.field _ (some te) _ _ _) _ _ _) => some <$> l.resolveType ctx te
      | some (.mk (.field _ none (some init) _ _) _ _ _) => l.initializerType ctx init
      | _ => pure none
    let ty ← match ty with
      | some ty => pure ty
      | none => do
        mismatchAt ("variable '" ++ fd.name ++ "' needs a type annotation") span
        pure .error
    modifyTable fun t => t.modifyField fid fun fd => { fd with type := some ty }
    recordType ty {} span

/-- Reports each overload whose generic parameter count and parameter types equal an earlier
one's. -/
def checkDuplicates (overloads : List FunctionId) (what : String) : TableM Unit := do
  let t ← table
  for (f, i) in overloads.zipIdx do
    let fs := t.fn f
    let earlier := (overloads.take i).find? fun g =>
      let gs := t.fn g
      gs.generics.length == fs.generics.length && Ty.equalList gs.params fs.params
    if let some g := earlier then
      report (Diagnostic.errorNoted .duplicateDeclaration Code.duplicateDeclaration
        ("duplicate " ++ what ++ " '" ++ fs.signature t.env ++ "'") (fnSpan fs)
        ["first declared in '" ++ (t.fn g).qualifiedName ++ "'"])

/-- Builds the dispatch table of class `c` from its superclass's and its own methods, linking
overrides. -/
def buildVtable (c : ClassId) : TableM Unit := do
  let k := (← table).cls c
  let t0 ← table
  let mut vtable := match k.superId? with
    | some s => (t0.cls s).vtable
    | none => []
  for f in k.methodOrder do
    let t ← table
    let fs := t.fn f
    if fs.flags.isStatic || fs.isGeneric then
      modifyTable fun t => t.modifyFunction f fun fs => { fs with slot := none }
      if fs.flags.isOverride then
        overrideError ((if fs.flags.isStatic then "static" else "generic") ++ " method '" ++
          fs.name ++ "' cannot override") (fnSpan fs) []
      continue
    let found := vtable.zipIdx.find? fun (b, _) =>
      let base := t.fn b
      base.name == fs.name && Ty.equalList (t.paramsSeenFrom c base) fs.params
    if let some (b, slot) := found then
      let base := t.fn b
      if base.owner == some c then continue
      if !Ty.canConvert t.env fs.result (t.resultSeenFrom c base) then
        mismatchAt ("'" ++ fs.signature t.env ++ "' overrides '" ++ base.signature t.env ++
          "' with an incompatible return type") (fnSpan fs)
      modifyTable fun t => t.modifyFunction f fun fs =>
        { fs with overrides := some b, slot := some slot }
      vtable := vtable.set slot f
      continue
    if fs.flags.isOverride && !k.isMock && !t.matchesInterfaceMethod c fs then
      overrideError ("'" ++ fs.signature t.env ++ "' is marked override but overrides nothing")
        (fnSpan fs) []
    modifyTable fun t => t.modifyFunction f fun fs => { fs with slot := some vtable.length }
    vtable := vtable ++ [f]
  let final := vtable
  modifyTable fun t => t.modifyClass c fun k => { k with vtable := final }
  if !k.isAbstract && !k.isInterface then
    let t ← table
    for e in final do
      let entry := t.fn e
      if entry.flags.isAbstract then
        overrideError ("class '" ++ k.name ++ "' does not implement abstract method '" ++
          entry.signature t.env ++ "'") (classSpan k)
          ["declared in '" ++ (t.cls (entry.owner.getD 0)).qualifiedName ++ "'"]

/-- Chooses, for each method of each interface class `c` implements, the slot of its table
that implements it. -/
def buildItables (c : ClassId) : TableM Unit := do
  let t ← table
  let k := t.cls c
  let mut itables : List InterfaceImpl := []
  for iface in t.collectInterfaces (k.selfType c) do
    let ik := t.cls (iface.classOf?.getD 0)
    let mut methods : List (Option FunctionId) := []
    for mId in ik.vtable do
      let method := t.fn mId
      let wanted := t.interfaceParams iface method
      let chosen := k.vtable.find? fun e =>
        let entry := t.fn e
        entry.name == method.name && Ty.equalList (t.paramsSeenFrom c entry) wanted
      let chosen := chosen.filter fun e => !(t.cls ((t.fn e).owner.getD 0)).isInterface
      if let some e := chosen then
        let entry := t.fn e
        let s := match method.owner.bind (iface.ancestor t.env) with
          | some v => v.type.substOf t.env
          | none => []
        let expected := method.result.substitute s
        if !Ty.canConvert t.env (t.resultSeenFrom c entry) expected then
          mismatchAt ("'" ++ entry.signature t.env ++ "' implements '" ++
            method.signature t.env ++ "' with an incompatible return type")
            (if entry.owner == some c then fnSpan entry else classSpan k)
      if chosen.isNone && !k.isAbstract then
        overrideError ("class '" ++ k.name ++ "' does not implement '" ++ ik.name ++ "." ++
          method.signature t.env ++ "'") (classSpan k) []
      methods := methods ++ [chosen]
    itables := itables ++ [InterfaceImpl.mk iface methods]
  let final := itables
  modifyTable fun t => t.modifyClass c fun k => { k with itables := final }

/-- Builds the dispatch table of interface `c`: the methods of the interfaces it extends, each
once, then its own, each of those taking the next slot. -/
def buildInterfaceTable (c : ClassId) : TableM Unit := do
  let t ← table
  let k := t.cls c
  let mut vtable : List FunctionId := []
  for i in k.interfaces do
    for mId in (t.cls (i.classOf?.getD 0)).vtable do
      if !vtable.contains mId then vtable := vtable ++ [mId]
  for f in k.methodOrder do
    let slot := vtable.length
    modifyTable fun t => t.modifyFunction f fun fs => { fs with slot := some slot }
    vtable := vtable ++ [f]
  let final := vtable
  modifyTable fun t => t.modifyClass c fun k => { k with vtable := final }

/-- Completes the dispatch tables of class `c`, whose supertypes' tables are complete, and marks
it resolved. -/
def completeTables (c : ClassId) : TableM Unit := do
  if ((← table).cls c).isInterface then
    buildInterfaceTable c
  else
    buildVtable c
    buildItables c
  modifyTable fun t => t.modifyClass c fun k => { k with resolved := true }
  let k := (← table).cls c
  log (Log.debug "binder" (k.qualifiedName ++ ": " ++ toString k.vtable.length ++ " slots, " ++
    toString k.itables.length ++ " interfaces"))

/-- Completes the dispatch tables of class `c`, after those of its supertypes; `done` lists the
classes already completed or being completed. -/
def ensureTables : Nat → ClassId → List ClassId → TableM (List ClassId)
  | 0, _, done => pure done
  | fuel + 1, c, done => do
    let k := (← table).cls c
    if k.isBuiltin || done.contains c then return done
    let mut done := c :: done
    for d in k.parents do
      done ← ensureTables fuel d done
    completeTables c
    pure done

/-- Resolves every user declaration; returns the program's entry point, if it has a valid
one. -/
def resolveDeclarations (strict : Bool) : TableM (Option FunctionId) := do
  let errorsBefore := (← get).diags.size
  let t ← table
  let userClasses := (List.range t.classes.size).filter fun c =>
    !(t.cls c).isBuiltin && !(t.cls c).isMock
  for c in userClasses do
    resolveLinks strict c
  breakCycles userClasses
  for c in userClasses do
    resolveMembers strict c
  for c in userClasses do
    addDefaultConstructor c
  let entry ← resolveFreeFunctions strict
  resolveGlobals strict
  for c in userClasses do
    let k := (← table).cls c
    for (_, overloads) in k.methods.toList do
      checkDuplicates overloads "method"
    checkDuplicates k.constructors "constructor"
  for (_, space) in (← table).namespaces.toList do
    for (_, overloads) in space.functions.toList do
      checkDuplicates overloads "function"
  let mut done : List ClassId := []
  for c in userClasses do
    done ← ensureTables ((← table).classes.size + 1) c done
  let t ← table
  for c in userClasses do
    let k := t.cls c
    let some s := k.superId? | continue
    if k.isInterface then continue
    match k.constructors.head? with
    | none => continue
    | some first =>
      if (t.fn first).decl.isSome then continue
      let sk := t.cls s
      if !(sk.constructors.any fun g => (t.fn g).params.isEmpty) then
        mismatchAt ("class '" ++ k.name ++ "' needs a constructor: superclass '" ++ sk.name ++
          "' has no zero-argument constructor") (classSpan k)
  let errors := Diagnostic.errorCount ((← get).diags.toList.drop errorsBefore)
  log (Log.info "binder" ("resolved " ++ toString userClasses.length ++ " classes, " ++
    toString errors ++ " declaration errors"))
  pure entry

end SymbolTable

end AmLang
