import AmLang.Check.State
/-!
# Mock classes

A `mock` declaration inside `scope { }` stands in for a user class within that block: `new` and
static references of the class build and reach the mock instead. The mock is a subclass of its
target; fields and methods it declares are added to the target's, methods with the target's
signatures override them, and a mock that declares no constructor forwards each of the target's.

Mocks are added to the symbol table like other classes, but no namespace names them, so lookups
never find one; only the active mock substitutions (`MockOverlay`) lead to them. Only non-generic
user classes can be mocked.
-/

namespace AmLang

namespace CheckM

/-- The mock a declaration declared, when it has been met. -/
def mockFor? (d : Decl) : CheckM (Option (Option DeclaredMock)) := do
  pure (((← get).mockDecls.find? (·.1 == d.span)).map (·.2))

/-- Declares a mock field of mock `m` of `target`, unless it hides a field of the target. -/
def declareMockField (m target : ClassId) (member : Decl) : CheckM MemberSymbol := do
  match member.kind with
  | .field name type init isVal isStatic =>
    let t ← table
    if (t.findField? target name).isSome || (t.findStaticField? target name).isSome then
      report (Diagnostic.error .duplicateDeclaration Code.duplicateDeclaration
        ("mock field '" ++ name ++ "' hides a field of '" ++ (t.cls target).name ++ "'")
        member.nameSpan)
      return .none
    let k := t.cls m
    let l ← names
    let ctx : LookupContext := { ns := (← get).ns }
    let ty ← match type, init with
      | some te, _ => some <$> l.resolveType ctx te
      | none, some e => l.initializerType ctx e
      | none, none => pure none
    let ty ← match ty with
      | some ty => pure ty
      | none => do
        mismatch ("field '" ++ name ++ "' needs a type annotation") member.nameSpan
        pure .error
    let f ← onTable (TableM.addField {
      name, qualifiedName := k.qualifiedName ++ "." ++ name, ns := k.ns, type := some ty, isVal,
      isStatic, owner := some m, decl := some member, unit := k.unit,
      cName := if isStatic then k.cName ++ "__s_" ++ name else "f_" ++ name })
    onTable (TableM.modifyTable fun t => t.modifyClass m fun k =>
      if isStatic then { k with staticFields := k.staticFields ++ [f] }
      else { k with fields := k.fields ++ [f] })
    pure (.field f)
  | _ => pure .none

/-- Declares a mock method or constructor of mock `m`; its types are resolved in the namespace
alone. -/
def declareMockFunction (m : ClassId) (member : Decl) : CheckM MemberSymbol := do
  match member.kind with
  | .function name generics params _ body flags =>
    let k := (← table).cls m
    let base := { SymbolTable.functionOf name generics params flags with
      ns := k.ns, owner := some m, decl := some member, unit := k.unit }
    let (ps, r) ← (← names).signatureOf { ns := (← get).ns } (some member)
    let base := { base with params := ps, result := r }
    if body.isNone && !flags.isNative then
      misplaced ("mock method '" ++ name ++ "' needs a body") member.nameSpan
    if flags.isConstructor then
      let f ← onTable (TableM.addFunction { base with
        qualifiedName := k.qualifiedName ++ ".new",
        cName := SymbolTable.memberCName base k k.constructors.length })
      onTable (TableM.modifyTable fun t => t.modifyClass m fun k =>
        { k with constructors := k.constructors ++ [f] })
      pure (.function f)
    else
      let f ← onTable (TableM.addFunction { base with
        qualifiedName := k.qualifiedName ++ "." ++ name,
        cName := SymbolTable.memberCName base k (k.methods.getD name []).length })
      onTable (TableM.modifyTable fun t => t.modifyClass m (·.addMethod name f))
      pure (.function f)
  | _ => pure .none

/-- Gives a mock without constructors one forwarding to each constructor of its target. -/
def forwardConstructors (m target : ClassId) : CheckM Unit := do
  let t ← table
  if !(t.cls m).constructors.isEmpty then return
  for (base, i) in (t.cls target).constructors.zipIdx do
    let k := (← table).cls m
    let bs := t.fn base
    let f : FunctionSymbol := {
      name := "new", qualifiedName := k.qualifiedName ++ ".new", ns := k.ns, owner := some m,
      paramNames := bs.paramNames, params := bs.params, flags := { isConstructor := true },
      overrides := some base, unit := k.unit }
    let f ← onTable (TableM.addFunction { f with cName := SymbolTable.memberCName f k i })
    onTable (TableM.modifyTable fun t => t.modifyClass m fun k =>
      { k with constructors := k.constructors ++ [f] })

/-- Makes `m` stand for `target` in the innermost mock frame. -/
def activateMock (target m : ClassId) : CheckM Unit :=
  modify fun s => { s with mocks := match s.mocks with
    | frame :: rest => (frame.filter (·.1 != target) ++ [(target, m)]) :: rest
    | [] => [[(target, m)]] }

/-- Declares the mock of a `mock` declaration, once; a declaration met again is left alone. -/
def declareMock (d : Decl) : CheckM Unit := do
  if (← mockFor? d).isSome then return
  let record := fun (r : Option DeclaredMock) =>
    modify fun s => { s with mockDecls := s.mockDecls ++ [(d.span, r)] }
  let (name, members) := match d.kind with
    | .classDecl n _ _ _ ms _ _ => (n, ms)
    | _ => (d.name, [])
  let s ← get
  let t := s.work.table
  let some target := (← names).findClass? (name.splitOn ".") s.ns
    | do
      unresolved "class" name d.nameSpan
      record none
  let tk := t.cls target
  if tk.isInterface || tk.isGeneric || tk.isBuiltin then
    mismatch ("cannot mock '" ++ tk.name ++ "': only non-generic user classes can be mocked")
      d.nameSpan
    record none
    return
  let mock : ClassSymbol := {
    name := tk.name, qualifiedName := tk.qualifiedName, ns := tk.ns, isMock := true,
    mockTarget := some target, superclass := some (tk.selfType target), decl := some d,
    unit := some s.unit,
    cName := tk.cName ++ "__mock" ++ toString s.unit ++ "_" ++ toString s.mockCount }
  modify fun s => { s with mockCount := s.mockCount + 1 }
  let m ← onTable (TableM.addClass mock)
  let mut symbols : List MemberSymbol := []
  for member in members do
    let sym ← match member.kind with
      | .field .. => declareMockField m target member
      | .function .. => declareMockFunction m member
      | _ => pure .none
    symbols := symbols ++ [sym]
  forwardConstructors m target
  onTable (SymbolTable.buildVtable m)
  onTable (SymbolTable.buildItables m)
  onTable (TableM.modifyTable fun t => t.modifyClass m fun k => { k with resolved := true })
  activateMock target m
  record (some ⟨m, symbols⟩)
  modify fun s => { s with unitMocks := s.unitMocks.push m }
  log (Log.debug "binder" ("mock " ++ mock.cName ++ " replaces " ++ tk.qualifiedName))

end CheckM

end AmLang
