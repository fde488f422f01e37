import AmLang.Syntax.Ast
/-!
# Feature gates

A class, interface or function may carry `#require NAME` and `#requireNot NAME` gates. Before
any symbol is made, every declaration whose gates fail for the enabled features is removed from
the tree with all its members, as if it had never been written. Removed declarations are
remembered, so that a later reference to one can say which feature was missing.

A gate `#require F` holds when `F` is enabled, `#requireNot F` when it is not; the first gate
that fails is the one reported. Filtering walks namespaces, classes and interfaces: at each level
it first removes the failing declarations, then descends into the kept ones.

## Main definitions

* `Feature.firstUnmet` — the first failing gate of a declaration.
* `Feature.filterModule` — the module without its failing declarations, and what was removed.
* `Feature.Exclusion.note` — the note attached to references to a removed declaration.
-/

namespace AmLang.Feature

/-- A declaration removed by filtering. -/
structure Exclusion where
  name : String
  qualifiedName : String
  feature : String
  negated : Bool
  file : String
  line : Nat
deriving Repr, Inhabited

/-- The first gate of `reqs` that the enabled `features` do not satisfy. -/
def firstUnmet (reqs : List Requirement) (features : List String) : Option Requirement :=
  reqs.find? fun r => features.contains r.feature == r.negated

/-- The exclusion record of a declaration removed for the gate `r`. -/
def exclusionOf (file qualifier : String) (d : Decl) (r : Requirement) : Exclusion :=
  { name := d.name, qualifiedName := extendPath qualifier d.name, feature := r.feature,
    negated := r.negated, file, line := d.nameSpan.start.line }

mutual

/-- Splits `ds` into the kept declarations (their members filtered), the removed ones at this
level, and those removed below. `qualifier` is the dotted path of what holds `ds`. -/
def filterList (features : List String) (file qualifier : String) :
    List Decl → List Decl × List Exclusion × List Exclusion
  | [] => ([], [], [])
  | d :: ds =>
    let (kept, here, below) := filterList features file qualifier ds
    match firstUnmet d.requirements features with
    | some r => (kept, exclusionOf file qualifier d r :: here, below)
    | none =>
      let (d', ex) := filterMembers features file qualifier d
      (d' :: kept, here, ex ++ below)

/-- Filters the members of one namespace, class or interface. -/
def filterMembers (features : List String) (file qualifier : String) : Decl → Decl × List Exclusion
  | .mk (.namespaceDecl p ms) sp ns reqs =>
    let (ms', here, below) := filterList features file (extendPath qualifier (joinPath p)) ms
    (.mk (.namespaceDecl p ms') sp ns reqs, here ++ below)
  | .mk (.classDecl n gs sup ifs ms isAbs isMock) sp ns reqs =>
    let (ms', here, below) := filterList features file (extendPath qualifier n) ms
    (.mk (.classDecl n gs sup ifs ms' isAbs isMock) sp ns reqs, here ++ below)
  | .mk (.interfaceDecl n gs ps ms) sp ns reqs =>
    let (ms', here, below) := filterList features file (extendPath qualifier n) ms
    (.mk (.interfaceDecl n gs ps ms') sp ns reqs, here ++ below)
  | d => (d, [])

end

/-- Removes the failing declarations of `ds`, at this level and below: first those of this
level, then those below, in order. -/
def filterDecls (features : List String) (file qualifier : String) (ds : List Decl) :
    List Decl × List Exclusion :=
  let (kept, here, below) := filterList features file qualifier ds
  (kept, here ++ below)

/-- The module without the declarations whose gates fail for `features`, and the removed
declarations (not their members), in the order filtering meets them. -/
def filterModule (features : List String) (m : Module) : Module × List Exclusion :=
  let (ds, ex) := filterDecls features m.file "" m.decls
  (⟨m.file, ds⟩, ex)

/-- The note attached to references to a removed declaration. -/
def Exclusion.note (e : Exclusion) : String :=
  "'" ++ e.qualifiedName ++ "' is declared at " ++ e.file ++ ":" ++ toString e.line ++ " but " ++
    (if e.negated then "excluded because feature '" ++ e.feature ++ "' is enabled"
     else "requires feature '" ++ e.feature ++ "', which is not enabled")

/-- The gate as written in a log: `#require F` or `#requireNot F`. -/
def Exclusion.gate (e : Exclusion) : String :=
  (if e.negated then "#requireNot " else "#require ") ++ e.feature

end AmLang.Feature
