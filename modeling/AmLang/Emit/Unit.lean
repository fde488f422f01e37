import AmLang.Emit.Body
/-!
# The C file of a unit

One unit's C file: its mocks, string literals, lambdas, class descriptors, storage, function
bodies and module initializer, each section written only when it has content, in that order.

A class descriptor holds the class's display name, its superclass's descriptor, its dispatch
table, one table per implemented interface, its size and its destructor. The destructor releases
the class's own reference fields, last first, then runs the superclass's. Constructors run the
superclass constructor (the one `super(…)` names, else the one checking chose, else for a
constructor without a declaration the superclass's first one without parameters), then the
class's own field initializers, then the rest of the body.

Mock classes are private to their unit: their descriptor, constructors and methods are
`static`, and their static fields are stored in the unit.

## Main definitions

* `EmitM.genDescriptor`, `EmitM.genConstructor`, `EmitM.genFunction` — the parts of a class.
* `generateUnit` — the file of one unit, or the internal error that stopped it, with its log
  lines.
-/

namespace AmLang

/-- The line that frames a section title. -/
def sectionBar : String := "// " ++ String.ofList (List.replicate 76 '=') ++ "\n"

/-- A section of a unit file: its title between bars, then its text ending in a newline, then a
blank line; nothing when the text is empty. -/
def fileSection (title text : String) : String :=
  if text.isEmpty then ""
  else
    sectionBar ++ "// " ++ title ++ "\n" ++ sectionBar ++ "\n" ++ text ++
      (if text.endsWith "\n" then "" else "\n") ++ "\n"

/-- The name of a module's initializer. -/
def moduleInitName (module : String) : String := module ++ "__init"

namespace EmitM

/-- The entry of a dispatch table for a method seen from an instance type: abstract methods
trap, built-in ones are named directly, generic ones have no single entry. -/
def vtableEntry (l : Layout) (f : FunctionId) (type : Ty) : String :=
  let fs := l.table.fn f
  if fs.flags.isAbstract then "aml_abstract_method"
  else if fs.isBuiltin then fs.cName
  else if fs.isGeneric then "NULL"
  else l.memberName f (l.ownerView f (some type))

/-- The descriptor of a class instance type, its destructor and its dispatch tables. -/
def genDescriptor (c : ClassId) (cName : String) (type : Ty) (isStatic : Bool) : EmitM Unit := do
  let l ← layout
  let k := l.table.cls c
  let linkage := if isStatic then "static " else ""
  let display := cStringLiteral (if k.isMock then k.name else type.display l.env)
  if k.isInterface then
    modifySections fun s => { s with descriptors := s.descriptors ++ linkage ++ "const aml_Class " ++
      cName ++ "__class = \x7b" ++ display ++ ", NULL, NULL, 0, NULL, 0, 0, NULL\x7d;\n\n" }
    return
  let subst := type.substOf l.env
  let superName := match k.superclass with
    | some s => l.className (s.substitute subst)
    | none => ""
  let mut d := "static void " ++ cName ++ "__dtor(aml_Object* self) \x7b\n"
  for m in (l.structMembers type).reverse do
    if (l.table.field m.field).owner != some c || !m.type.isReference then continue
    d := d ++ "    aml_release(((" ++ cName ++ "*)self)->" ++ m.name ++ ");\n"
  d := d ++ "    if (" ++ superName ++ "__class.dtor != NULL) \x7b\n" ++
    "        " ++ superName ++ "__class.dtor(self);\n" ++ "    \x7d\n" ++ "\x7d\n\n"
  d := d ++ "static const aml_fn " ++ cName ++ "__vtable[] = \x7b\n"
  for f in k.vtable do
    d := d ++ "    (aml_fn)" ++ vtableEntry l f type ++ ",\n"
  d := d ++ "\x7d;\n\n"
  let mut itables : Array (String × String) := #[]
  for (impl, i) in k.itables.zipIdx do
    let tableName := cName ++ "__itable_" ++ toString i
    d := d ++ "static const aml_fn " ++ tableName ++ "[] = \x7b\n"
    for entry in impl.methods do
      let e := match entry with
        | some f => vtableEntry l f type
        | none => "aml_abstract_method"
      d := d ++ "    (aml_fn)" ++ e ++ ",\n"
    if impl.methods.isEmpty then d := d ++ "    (aml_fn)NULL,\n"
    d := d ++ "\x7d;\n\n"
    itables := itables.push (l.className (impl.iface.substitute subst), tableName)
  if !itables.isEmpty then
    d := d ++ "static const aml_ITable " ++ cName ++ "__itables[] = \x7b\n"
    for (iface, tableName) in itables do
      d := d ++ "    \x7b&" ++ iface ++ "__class, " ++ tableName ++ "\x7d,\n"
    d := d ++ "\x7d;\n\n"
  d := d ++ linkage ++ "const aml_Class " ++ cName ++ "__class = \x7b\n" ++
    "    " ++ display ++ ",\n" ++
    "    &" ++ superName ++ "__class,\n" ++
    "    " ++ cName ++ "__vtable,\n" ++
    "    " ++ toString k.vtable.length ++ ",\n" ++
    "    " ++ (if itables.isEmpty then "NULL" else cName ++ "__itables") ++ ",\n" ++
    "    " ++ toString itables.size ++ ",\n" ++
    "    sizeof(" ++ cName ++ "),\n" ++
    "    " ++ cName ++ "__dtor,\n" ++
    "\x7d;\n\n"
  modifySections fun s => { s with descriptors := s.descriptors ++ d }

/-- The C names of a function's parameters: its parameter locals, or `a0`, `a1`, … for a
function made without a declaration. -/
def paramNames (ef : EmittedFunction) : EmitM (List String) := do
  let fs := (← table).fn ef.fn
  match fs.decl with
  | none => pure ((List.range fs.params.length).map fun i => "a" ++ toString i)
  | some _ =>
    match ← typedFunction? ef.fn with
    | some tf => tf.params.mapM localName
    | none => pure []

/-- `R name(aml_Object* self, P0 p0, …)`, with `static` in front for a unit's own function. -/
def definitionHead (ef : EmittedFunction) (isStatic : Bool) : EmitM String := do
  let sig := (← layout).signature ef.fn ef.subst
  let names ← paramNames ef
  let params := (sig.params.zip names).map fun (t, n) => t.cType ++ " " ++ n
  pure ((if isStatic then "static " else "") ++ sig.result.cType ++ " " ++ ef.cName ++ "(" ++
    Layout.parameterList (if sig.hasSelf then some "aml_Object* self" else none) params ++ ")")

/-- Appends a function definition to the bodies. -/
def addDefinition (ef : EmittedFunction) (isStatic : Bool) (body : String) : EmitM Unit := do
  let head ← definitionHead ef isStatic
  modifySections fun s => { s with bodies := s.bodies ++ head ++ " \x7b\n" ++ body ++ "\x7d\n\n" }

/-- A call of a superclass constructor on `self`, unless it is the root class's. -/
def genSuperCall (ctor : FunctionId) (args : List String) : EmitM Unit := do
  let t ← table
  let some o := (t.fn ctor).owner | return
  if (t.cls o).isRoot then return
  let some selfType := (← get).fn.selfType | return
  let some c := selfType.classOf? | return
  let some sup := (t.cls c).superclass | return
  let superType := sup.substitute (selfType.substOf (← env))
  let name := (← layout).memberName ctor (some superType)
  beginFrame
  emitLine (name ++ "(" ++ joinArgs "self" args ++ ");")
  emitPendingCheck
  endFrame

/-- Stores the initial values of a class's own fields into `self`. -/
def genFieldInits (fuel : Nat) (c : ClassId) : EmitM Unit := do
  let t ← table
  for f in (t.cls c).fields do
    let some init ← initializer? f | continue
    let fieldType ← ty ((t.field f).type.getD .error)
    beginFrame
    let v ← genExprAs fuel init fieldType
    let target ← fieldAccess "self" (← get).fn.selfType f
    emitStore target v fieldType
    endFrame

/-- Whether a body starts with `super(…)`. -/
def startsWithSuperCall : List TypedStmt → Bool
  | .mk (.exprStmt (.mk (.call (.mk .superRef _ _) _) _ _)) _ :: _ => true
  | _ => false

/-- The definition of a constructor. -/
def genConstructor (fuel : Nat) (ef : EmittedFunction) (isStatic : Bool) : EmitM Unit := do
  let t ← table
  let fs := t.fn ef.fn
  let some c := fs.owner | return
  let k := t.cls c
  modify fun s => { s with subst := ef.subst }
  let suspended ← beginFunction ef.cName Ty.unit ef.selfType
  if let some d := fs.decl then emitComment d.span
  pushScope false
  let tf ← typedFunction? ef.fn
  let stmts := if fs.decl.isSome then (tf.bind (·.body)).getD [] else []
  let mut first := 0
  if startsWithSuperCall stmts then
    genStmt fuel (stmts.headD default)
    first := 1
  else
    match fs.decl, k.isMock, fs.overrides with
    | none, true, some base => genSuperCall base (← paramNames ef)
    | _, _, _ =>
      let mut superCtor := if fs.decl.isSome then tf.bind (·.superConstructor) else none
      if fs.decl.isNone then
        if let some sup := k.superId? then
          if let some g := (t.cls sup).constructors.find? (fun g => (t.fn g).params.isEmpty) then
            superCtor := some g
      if let some sc := superCtor then genSuperCall sc []
  genFieldInits fuel c
  genBlockBody fuel (stmts.drop first)
  popScope (TypedStmt.allComplete stmts)
  let body ← endFunction suspended
  addDefinition ef isStatic body

/-- The definition of a function, method or test. -/
def genFunction (fuel : Nat) (ef : EmittedFunction) (isStatic : Bool) : EmitM Unit := do
  let fs := (← table).fn ef.fn
  modify fun s => { s with subst := ef.subst }
  let sig := (← layout).signature ef.fn ef.subst
  let stmts := (((← typedFunction? ef.fn).bind (·.body))).getD []
  let suspended ← beginFunction ef.cName sig.result ef.selfType
  if let some d := fs.decl then emitComment d.span
  pushScope false
  genBlockBody fuel stmts
  popScope (TypedStmt.allComplete stmts)
  let body ← endFunction suspended
  addDefinition ef isStatic body

/-- The declarations of the unit's mock classes: struct, descriptor and prototypes; their static
fields go to the unit's storage. -/
def genMockTypes : EmitM Unit := do
  let l ← layout
  let t := l.table
  for m in (← get).ctx.unit.mocks do
    let k := t.cls m
    let type := k.selfType m
    let mut text := "// mock of " ++ k.qualifiedName ++ "\n" ++ l.structDefinition type k.cName ++
      "static const aml_Class " ++ k.cName ++ "__class;\n"
    for ctor in k.constructors do
      text := text ++ "static " ++ l.prototype ⟨ctor, (t.fn ctor).cName, [], some type⟩ ++ ";\n"
    for f in k.methodOrder do
      let fs := t.fn f
      if fs.flags.isAbstract then continue
      let self := if fs.flags.isStatic then none else some type
      text := text ++ (if fs.flags.isNative then "" else "static ") ++
        l.prototype ⟨f, fs.cName, [], self⟩ ++ ";\n"
    let mut storage := ""
    for f in k.staticFields do
      let fd := t.field f
      let ft := fd.type.getD .error
      storage := storage ++ "static " ++ ft.cType ++ " " ++ fd.cName ++ " = " ++ ft.storageInit ++ ";\n"
    modifySections fun s => { s with mocks := s.mocks ++ text ++ "\n", storage := s.storage ++ storage }

/-- The storage of the unit's namespace variables and static fields. -/
def genStorage : EmitM Unit := do
  let l ← layout
  let ctx := (← get).ctx
  for f in l.storage.getD ctx.unitIndex #[] do
    let fd := l.table.field f
    let ft := fd.type.getD .error
    modifySections fun s =>
      { s with storage := s.storage ++ ft.cType ++ " " ++ fd.cName ++ " = " ++ ft.storageInit ++ ";\n" }

/-- A mock class's descriptor, constructors and methods, all private to the unit. -/
def genMockClass (fuel : Nat) (m : ClassId) : EmitM Unit := do
  modify fun s => { s with subst := [] }
  let t ← table
  let k := t.cls m
  let type := k.selfType m
  genDescriptor m k.cName type true
  for ctor in k.constructors do
    genConstructor fuel ⟨ctor, (t.fn ctor).cName, [], some type⟩ true
  for f in k.methodOrder do
    let fs := t.fn f
    if fs.flags.isAbstract || fs.flags.isNative then continue
    genFunction fuel ⟨f, fs.cName, [], if fs.flags.isStatic then none else some type⟩ true

/-- The module initializer: the initial values of the unit's storage, in declaration order. -/
def genModuleInit (fuel : Nat) : EmitM Unit := do
  let ctx := (← get).ctx
  let name := moduleInitName ctx.module
  let suspended ← beginFunction name Ty.unit none
  modify fun s => { s with subst := [] }
  pushScope false
  let l ← layout
  for f in l.storage.getD ctx.unitIndex #[] do
    let fd := l.table.field f
    let some d := fd.decl | continue
    let some init ← initializer? f | continue
    let ft := fd.type.getD .error
    emitComment d.span
    beginFrame
    let v ← genExprAs fuel init ft
    emitStore fd.cName v ft
    endFrame
  popScope true
  let body ← endFunction suspended
  modifySections fun s => { s with init := s.init ++ "void " ++ name ++ "(void) \x7b\n" ++ body ++ "\x7d\n" }

/-- Generates every part of the unit into the sections. -/
def genUnit (fuel : Nat) : EmitM Unit := do
  let ctx := (← get).ctx
  let l ← layout
  log (Log.debug "codegen" ("generating " ++ ctx.module ++ ".c from " ++ ctx.unit.file))
  genMockTypes
  for ec in l.classes.getD ctx.unitIndex #[] do
    modify fun s => { s with subst := ec.subst }
    genDescriptor ec.cls ec.cName ec.type false
  genStorage
  for ef in l.functions.getD ctx.unitIndex #[] do
    let fs := l.table.fn ef.fn
    if fs.flags.isNative then continue
    if fs.flags.isConstructor then genConstructor fuel ef false
    else genFunction fuel ef false
  for m in ctx.unit.mocks do
    genMockClass fuel m

end EmitM

/-- The text of a unit's C file from its sections. -/
def Sections.render (file : String) (s : Sections) : String :=
  "// Generated by amlc from " ++ file ++ ". Do not edit.\n\n" ++
    "#include \"aml_program.h\"\n\n" ++
    fileSection "Mocks" s.mocks ++
    fileSection "String Literals" s.literals ++
    fileSection "Lambdas" s.lambdaDecls ++
    fileSection "Descriptors" s.descriptors ++
    fileSection "Storage" s.storage ++
    fileSection "Functions" s.bodies ++
    fileSection "Lambda Bodies" s.lambdaBodies ++
    fileSection "Module Initializer" s.init

/-- The bound on the depth of the walk over a unit's typed trees: more than the number of nodes
of its source, which is below its size. -/
def emitFuel (size : Nat) : Nat := 8 * size + 64

/-- The C file of unit `i`, or the message of the internal error that stopped its generation,
with the log lines its generation wrote up to then. -/
def generateUnit (l : Layout) (i : Nat) (comments : Bool) (size : Nat) :
    Except String (String × String) × Array Log.Line :=
  let unit := l.program.units.getD i default
  let module := l.program.moduleNames.getD i ""
  let ctx : EmitContext := { layout := l, unit, unitIndex := i, module, comments }
  let fuel := emitFuel size
  let run : EmitM Unit := do
    EmitM.genUnit fuel
    EmitM.genModuleInit fuel
  let (r, s) := run.run.run { ctx }
  match r with
  | .ok () =>
    let text := s.sections.render unit.file
    let journal := s.journal.push (Log.trace "codegen" (module ++ ".c: " ++
      toString s.literals.size ++ " string literals, " ++ toString s.tempCount ++ " temporaries"))
    (.ok (module ++ ".c", text), journal)
  | .error message => (.error message, s.journal)

end AmLang
