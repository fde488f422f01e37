import AmLang.Check.Body
/-!
# Checking a unit

Checks every body and initializer of one unit, in declaration order, against the program's
symbol table. A declaration reaches its symbol through its site, the positions that lead to it
from the unit's top level (`SiteIndex`). Mocks declared in the unit's bodies are added to the
table, so the table threads from one unit to the next.

Tests may only be declared in test units; a test elsewhere is reported and still checked.
-/

namespace AmLang

/-- The symbols of one unit by the site of their declarations. -/
structure SiteIndex where
  classes : Std.TreeMap String ClassId := ∅
  functions : Std.TreeMap String FunctionId := ∅
  fields : Std.TreeMap String FieldId := ∅

namespace SiteIndex

/-- The key of a site path. -/
def key (path : List Nat) : String := ".".intercalate (path.map toString)

/-- The symbols of unit `unit` in table `t`. -/
def ofTable (t : SymbolTable) (unit : Nat) : SiteIndex :=
  let at? := fun (s : Option DeclSite) => match s with
    | some site => if site.unit == unit then some (key site.path) else none
    | none => none
  let classes := t.classes.zipIdx.foldl (fun m (k, i) =>
    match at? k.site with
    | some p => if k.isMock then m else m.insert p i
    | none => m) ∅
  let functions := t.functions.zipIdx.foldl (fun m (f, i) =>
    match at? f.site with
    | some p => m.insert p i
    | none => m) ∅
  let fields := t.fields.zipIdx.foldl (fun m (f, i) =>
    match at? f.site with
    | some p => m.insert p i
    | none => m) ∅
  { classes, functions, fields }

/-- The members of the class declared at `path`, each with its symbol. -/
def members (ix : SiteIndex) (path : List Nat) (ms : List Decl) : List (Decl × MemberSymbol) :=
  ms.zipIdx.map fun (m, j) =>
    let k := key (path ++ [j])
    match m.kind with
    | .field .. => (m, ((ix.fields.get? k).map MemberSymbol.field).getD .none)
    | .function .. => (m, ((ix.functions.get? k).map MemberSymbol.function).getD .none)
    | _ => (m, .none)

end SiteIndex

/-- Fuel for checking a unit of `size` bytes. Each step of the checking functions goes one level
down into the syntax tree, and each level of nesting takes at most a few steps and at least one
byte of source, so the checking of any body ends well before the fuel does. -/
def checkFuel (size : Nat) : Nat := 8 * size + 64

namespace CheckM

/-- Checks the declarations of namespace `ns` from position `i` of a list on; `path` leads to
the list. -/
def checkDecls (fuel : Nat) (ix : SiteIndex) (ns : String) (path : List Nat) (i : Nat) :
    List Decl → CheckM Unit
  | [] => pure ()
  | d :: rest => do
    let here := path ++ [i]
    modify fun s => { s with ns }
    match d with
    | .mk (.namespaceDecl p members) _ _ _ =>
      checkDecls fuel ix (extendPath ns (joinPath p)) here 0 members
    | .mk (.classDecl _ _ _ _ members _ _) _ _ _ | .mk (.interfaceDecl _ _ _ members) _ _ _ =>
      if let some c := ix.classes.get? (SiteIndex.key here) then
        checkMembers fuel c (ix.members here members)
    | .mk (.function ..) _ _ _ =>
      if let some f := ix.functions.get? (SiteIndex.key here) then
        let fs := (← table).fn f
        if fs.flags.isTest then
          if !(← get).isTestUnit then
            report (Diagnostic.errorNoted .invalidTestLocation Code.testLocation
              ("test '" ++ fs.name ++ "' is declared outside a test source") d.nameSpan
              ["tests belong in files under a 'tests' directory"])
          else modify fun s => { s with tests := s.tests.push f }
        modify fun s => { s with cls := none }
        checkFunction fuel f d
    | .mk (.field ..) _ _ _ =>
      modify fun s => { s with cls := none }
      if let some g := ix.fields.get? (SiteIndex.key here) then
        checkInitializer fuel g d
    | .mk (.importDecl _) _ _ _ => pure ()
    checkDecls fuel ix ns path (i + 1) rest

end CheckM

/-- One unit after checking, with the symbol table it leaves (its mocks added) and the log lines
it wrote. -/
structure UnitCheck where
  unit : CheckedUnit
  table : SymbolTable
  journal : List Log.Line

/-- Checks unit `index` (its file, its declarations and its size in bytes) against table `t`. -/
def checkUnit (t : SymbolTable) (strict : Bool) (index : Nat) (m : Module) (isTestUnit : Bool)
    (size : Nat) : UnitCheck :=
  let ix := SiteIndex.ofTable t index
  let steps : CheckM Unit := do
    CheckM.log (Log.debug "binder" ("binding " ++ m.file ++ " (unit " ++ toString index ++ ")"))
    CheckM.checkDecls (checkFuel size) ix "" [] 0 m.decls
    let s ← get
    CheckM.log (Log.debug "binder" (m.file ++ ": " ++ toString s.locals.size ++ " locals, " ++
      toString s.lambdaCount ++ " lambdas, " ++
      toString (s.work.diags.toList.filter (·.isError)).length ++ " errors"))
  let start : CheckState := {
    work := { table := t }, env := t.env, strict, unit := index, file := m.file, isTestUnit }
  let ((), s) := steps.run start
  let unit : CheckedUnit := {
    index, file := m.file, isTestUnit, diagnostics := s.work.diags.toList, locals := s.locals,
    mocks := s.unitMocks.toList, functions := s.functions, initializers := s.initializers,
    lambdaCount := s.lambdaCount, uses := s.work.uses, tests := s.tests.toList }
  { unit, table := s.work.table, journal := s.work.journal.toList }

end AmLang
