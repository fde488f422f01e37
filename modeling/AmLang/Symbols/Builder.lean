import AmLang.Symbols.Table
import AmLang.Log.Line
import AmLang.Diagnostic.Basic
import AmLang.Generic.Uses
/-!
# Building the symbol table

Two passes over the parsed and filtered units. The first declares every class, interface, free
function, test and namespace variable, with the members of each class; the second resolves each
unit's imports, once every unit is declared, so units may refer to each other in any order. Types
are not resolved here.

C names are fixed when a symbol is declared:

| symbol                      | C name                             |
|-----------------------------|------------------------------------|
| class `A.B.C`               | `am_A_B_C`                         |
| method `m`, k-th overload   | `am_A_B_C__m`, `am_A_B_C__m_k`     |
| constructor k               | `am_A_B_C__init_k`                 |
| field `f`                   | `f_f`                              |
| static field `s`            | `am_A_B_C__s_s`                    |
| function `A.f`, k-th        | `am_A_f`, `am_A_f_k`               |
| variable `A.g`              | `am_g_A_g`                         |
| test `A.t`                  | `am_test_A_t`                      |

Two classes with one qualified name, or a class and a variable sharing one, are reported as
duplicate declarations; an import that names nothing is unresolved, and two imports that bind one
simple name to different symbols collide.
-/

namespace AmLang

/-- The state of a phase that completes the symbol table: the table, the diagnostics reported, the
log lines written and the generic uses recorded so far. -/
structure TableWork where
  table : SymbolTable
  diags : Array Diagnostic := #[]
  journal : Array Log.Line := #[]
  uses : UseLog := {}
deriving Inhabited

/-- Steps of a phase that completes the symbol table. -/
abbrev TableM := StateM TableWork

namespace TableM

/-- Reports a diagnostic. -/
def report (d : Diagnostic) : TableM Unit := modify fun w => { w with diags := w.diags.push d }

/-- Writes a log line. -/
def log (l : Log.Line) : TableM Unit := modify fun w => { w with journal := w.journal.push l }

/-- The table as it stands. -/
def table : TableM SymbolTable := do pure (← get).table

/-- Changes the table. -/
def modifyTable (f : SymbolTable → SymbolTable) : TableM Unit :=
  modify fun w => { w with table := f w.table }

/-- Adds a class; returns its id. -/
def addClass (c : ClassSymbol) : TableM ClassId := do
  let (i, t) := (← table).addClass c
  modifyTable fun _ => t
  pure i

/-- Adds a function; returns its id. -/
def addFunction (f : FunctionSymbol) : TableM FunctionId := do
  let (i, t) := (← table).addFunction f
  modifyTable fun _ => t
  pure i

/-- Adds a field; returns its id. -/
def addField (f : FieldSymbol) : TableM FieldId := do
  let (i, t) := (← table).addField f
  modifyTable fun _ => t
  pure i

end TableM

namespace SymbolTable

open TableM

/-- Where an earlier declaration stood, for a note on a duplicate. -/
def locationNote : Option Decl → String
  | some d => "previously declared at " ++ d.span.start.file ++ ":" ++ toString d.nameSpan.start.line
  | none => "previously declared as a built-in"

/-- The suffix that tells overloads apart: none for the first, `_k` for the k-th. -/
def overloadSuffix (k : Nat) : String := if k == 0 then "" else "_" ++ toString k

/-- A function symbol with the name, generic parameters, parameter names and modifiers of its
declaration. -/
def functionOf (name : String) (generics : List String) (params : List Param)
    (flags : FunctionFlags) : FunctionSymbol :=
  { name, qualifiedName := "", ns := "", generics, paramNames := params.map (·.name), flags }

/-- The C name of a member function: `owner__init_k` for the k-th constructor, otherwise
`owner__name` with the overload suffix. -/
def memberCName (f : FunctionSymbol) (owner : ClassSymbol) (k : Nat) : String :=
  if f.flags.isConstructor then owner.cName ++ "__init_" ++ toString k
  else owner.cName ++ "__" ++ f.name ++ overloadSuffix k

/-! ## Pass 1: declarations -/

/-- Declares the fields and functions of class `c`. -/
def declareMembers (unit : Nat) (c : ClassId) (path : List Nat) (members : List Decl) :
    TableM Unit := do
  for (m, j) in members.zipIdx do
    let site : DeclSite := ⟨unit, path ++ [j]⟩
    match m.kind with
    | .field name _ _ isVal isStatic =>
      let t ← table
      let k := t.cls c
      let duplicate := (k.fields ++ k.staticFields).any fun f => (t.field f).name == name
      if duplicate then
        report (Diagnostic.error .duplicateDeclaration Code.duplicateDeclaration
          ("duplicate field '" ++ name ++ "' in '" ++ k.qualifiedName ++ "'") m.nameSpan)
      else
        let f ← TableM.addField {
          name, qualifiedName := k.qualifiedName ++ "." ++ name, ns := k.ns,
          isVal, isStatic, owner := some c, decl := some m, site := some site, unit := some unit,
          cName := if isStatic then k.cName ++ "__s_" ++ name else "f_" ++ name }
        modifyTable fun t => t.modifyClass c fun k =>
          if isStatic then { k with staticFields := k.staticFields ++ [f] }
          else { k with fields := k.fields ++ [f] }
    | .function name generics params _ _ flags =>
      let k := (← table).cls c
      let base := functionOf name generics params flags
      let base := { base with
        ns := k.ns, owner := some c, decl := some m, site := some site, unit := some unit,
        flags := if k.isInterface then { base.flags with isAbstract := true } else base.flags }
      if flags.isConstructor then
        let f ← TableM.addFunction { base with
          qualifiedName := k.qualifiedName ++ ".new",
          cName := memberCName base k k.constructors.length }
        modifyTable fun t => t.modifyClass c fun k => { k with constructors := k.constructors ++ [f] }
      else
        let f ← TableM.addFunction { base with
          qualifiedName := k.qualifiedName ++ "." ++ name,
          cName := memberCName base k (k.methods.getD name []).length }
        modifyTable fun t => t.modifyClass c (·.addMethod name f)
    | _ => pure ()

/-- Declares a class or interface of namespace `ns`, unless its name is taken. -/
def declareClass (unit : Nat) (ns : String) (path : List Nat) (d : Decl) : TableM Unit := do
  let name := d.name
  let qualified := extendPath ns name
  let t ← table
  if let some existing := t.findClass? qualified then
    report (Diagnostic.errorNoted .duplicateDeclaration Code.duplicateDeclaration
      ("duplicate declaration of '" ++ qualified ++ "'") d.nameSpan
      [locationNote (t.cls existing).decl])
    return
  if let some g := t.findGlobal? ns name then
    report (Diagnostic.errorNoted .duplicateDeclaration Code.duplicateDeclaration
      ("'" ++ qualified ++ "' is already declared as a variable") d.nameSpan
      [locationNote (t.field g).decl])
    return
  let base : ClassSymbol := {
    name, qualifiedName := qualified, ns, decl := some d,
    site := some ⟨unit, path⟩, unit := some unit, cName := "am_" ++ cIdentifier qualified }
  let (k, members) := match d.kind with
    | .classDecl _ gs _ _ ms isAbstract _ => ({ base with generics := gs, isAbstract }, ms)
    | .interfaceDecl _ gs _ ms =>
      ({ base with generics := gs, isInterface := true, isAbstract := true }, ms)
    | _ => (base, [])
  let c ← TableM.addClass k
  modifyTable (·.registerClass c)
  declareMembers unit c path members
  log (Log.trace "symbols" ("declared " ++ (if k.isInterface then "interface " else "class ") ++
    qualified))

/-- Declares a free function or test of namespace `ns`. -/
def declareFreeFunction (unit : Nat) (ns : String) (path : List Nat) (d : Decl) :
    TableM Unit := do
  match d.kind with
  | .function name generics params _ _ flags =>
    let qualified := extendPath ns name
    let base := { functionOf name generics params flags with
      ns, qualifiedName := qualified, decl := some d, site := some ⟨unit, path⟩,
      unit := some unit }
    if flags.isTest then
      let _ ← TableM.addFunction { base with cName := "am_test_" ++ cIdentifier qualified }
      return
    let count := (((← table).findFunctions? ns name).getD []).length
    let f ← TableM.addFunction { base with cName := "am_" ++ cIdentifier qualified ++ overloadSuffix count }
    modifyTable fun t => t.modifyNamespace ns fun n =>
      { n with functions := n.functions.insert name ((n.functions.getD name []) ++ [f]) }
  | _ => pure ()

/-- Declares a variable of namespace `ns`, unless its name is taken. -/
def declareGlobal (unit : Nat) (ns : String) (path : List Nat) (d : Decl) : TableM Unit := do
  match d.kind with
  | .field name _ _ isVal _ =>
    let qualified := extendPath ns name
    modifyTable (·.ensureNamespace ns)
    let t ← table
    let previous := match t.findGlobal? ns name with
      | some g => some (t.field g).decl
      | none => (t.findClass? qualified).map fun c => (t.cls c).decl
    if let some p := previous then
      report (Diagnostic.errorNoted .duplicateDeclaration Code.duplicateDeclaration
        ("duplicate declaration of '" ++ qualified ++ "'") d.nameSpan [locationNote p])
      return
    let f ← TableM.addField {
      name, qualifiedName := qualified, ns, isVal, isStatic := true,
      decl := some d, site := some ⟨unit, path⟩, unit := some unit,
      cName := "am_g_" ++ cIdentifier qualified }
    modifyTable fun t => t.modifyNamespace ns fun n => { n with globals := n.globals.insert name f }
  | _ => pure ()

/-- Declares the declarations of namespace `ns` from position `i` of a list on; `path` leads to
the list. -/
def declareDecls (unit : Nat) (ns : String) (path : List Nat) (i : Nat) : List Decl → TableM Unit
  | [] => pure ()
  | d :: rest => do
    let here := path ++ [i]
    match d with
    | .mk (.namespaceDecl p members) _ _ _ =>
      let name := extendPath ns (joinPath p)
      modifyTable (·.ensureNamespace name)
      declareDecls unit name here 0 members
    | .mk (.classDecl ..) _ _ _ | .mk (.interfaceDecl ..) _ _ _ => declareClass unit ns here d
    | .mk (.function ..) _ _ _ => declareFreeFunction unit ns here d
    | .mk (.field ..) _ _ _ => declareGlobal unit ns here d
    | .mk (.importDecl _) _ _ _ => pure ()
    declareDecls unit ns path (i + 1) rest

/-- Declares the symbols of one unit. -/
def declareModule (unit : Nat) (m : Module) : TableM Unit := do
  log (Log.debug "symbols" ("declaring " ++ m.file ++ " as unit " ++ toString unit))
  modifyTable (·.ensureNamespace "")
  declareDecls unit "" [] 0 m.decls

/-! ## Pass 2: imports -/

/-- The imports of a unit, those inside namespace blocks included, in source order. -/
def importsIn : List Decl → List Decl
  | [] => []
  | d :: ds =>
    let here := match d with
      | .mk (.importDecl _) _ _ _ => [d]
      | .mk (.namespaceDecl _ ms) _ _ _ => importsIn ms
      | _ => []
    here ++ importsIn ds

/-- Binds simple name `name` to a symbol in one of an import table's maps, unless another import
bound it to a different symbol; `boundBy` records which import bound each name. -/
def bindSingle {α : Type} [BEq α] (name qualified : String) (d : Decl)
    (m : Std.TreeMap String α) (boundBy : Std.TreeMap String String) (sym : α) :
    TableM (Std.TreeMap String α × Std.TreeMap String String) := do
  match m.get? name with
  | some other =>
    if other != sym then
      report (Diagnostic.error .importCollision Code.importCollision
        ("import of '" ++ qualified ++ "' collides with import of '" ++
          boundBy.getD name "" ++ "'") d.span)
      return (m, boundBy)
  | none => pure ()
  pure (m.insert name sym, boundBy.insert name qualified)

/-- Resolves the imports of one unit. -/
def resolveImports (unit : Nat) (m : Module) : TableM Unit := do
  let mut imports : ImportTable := {}
  let mut boundBy : Std.TreeMap String String := ∅
  for d in importsIn m.decls do
    let path := match d.kind with
      | .importDecl p => p
      | _ => []
    let joined := joinPath path
    let t ← table
    if (t.findNamespace? joined).isSome then
      if !imports.wildcards.contains joined then
        imports := { imports with wildcards := imports.wildcards ++ [joined] }
      continue
    let name := path.getLastD ""
    let ns := joinPath path.dropLast
    let cls := t.findClass? joined
    let fns := (t.findFunctions? ns name).map fun _ => (ns, name)
    let global := t.findGlobal? ns name
    if cls.isNone && fns.isNone && global.isNone then
      let notes := match t.findExcluded? joined with
        | some e => [e.note]
        | none => []
      report (Diagnostic.errorNoted .unresolvedSymbol Code.unknownImport
        ("unresolved import '" ++ joined ++ "'") d.span notes)
      continue
    if let some c := cls then
      let (mm, b) ← bindSingle name joined d imports.classes boundBy c
      imports := { imports with classes := mm }
      boundBy := b
    if let some f := fns then
      let (mm, b) ← bindSingle name joined d imports.functions boundBy f
      imports := { imports with functions := mm }
      boundBy := b
    if let some g := global then
      let (mm, b) ← bindSingle name joined d imports.globals boundBy g
      imports := { imports with globals := mm }
      boundBy := b
  log (Log.debug "symbols" (m.file ++ ": " ++ toString imports.classes.size ++ " class imports, " ++
    toString imports.wildcards.length ++ " namespace imports"))
  let final := imports
  modifyTable fun t => { t with imports := t.imports.insert unit final }

/-- Both passes over the units, in unit order. -/
def declareAll (modules : List Module) : TableM Unit := do
  for (m, unit) in modules.zipIdx do
    declareModule unit m
  for (m, unit) in modules.zipIdx do
    resolveImports unit m
  let t ← table
  log (Log.info "symbols" ("symbol table: " ++ toString t.classes.size ++ " classes, " ++
    toString t.functions.size ++ " functions"))

end SymbolTable

end AmLang
