import Std.Data.TreeSet
import AmLang.Symbols.Table
import AmLang.Log.Line
import AmLang.Diagnostic.Basic
import AmLang.Diagnostic.Suggest
/-!
# Name lookup

Names resolved against the symbol table from the point of view of one unit. A simple name is
looked for in this order:

1. the current namespace, then each enclosing namespace up to the root;
2. the unit's single-symbol imports;
3. the namespaces the unit imports whole, in import order (the first that has it wins);
4. the built-in namespace `Am.Lang`.

A dotted path is tried relative to each enclosing namespace, then as a qualified name. Locals and
generic parameters are not the table's business; they are looked up before these.

A name that is not found is reported with a suggestion, when a visible name is close to it, and
with a note when feature filtering removed a declaration of that name (or, with strict feature
checks, as a feature that is not available).
-/

namespace AmLang

/-- Monads that can report diagnostics and write log lines. -/
class Reporter (m : Type → Type) where
  report : Diagnostic → m Unit
  log : Log.Line → m Unit

/-- The active `mock` substitutions, innermost frame first; each frame maps classes to their
mocks. -/
abbrev MockOverlay := List (List (ClassId × ClassId))

/-- The class that stands for `c` under the overlay: its mock in the innermost frame that has
one, or `c`. -/
def MockOverlay.apply (o : MockOverlay) (c : ClassId) : ClassId :=
  (o.findSome? fun frame => (frame.find? (·.1 == c)).map (·.2)).getD c

/-- Where a name is resolved: the namespace, the generic parameters in scope (the class's, then
the function's) and the active mocks. -/
structure LookupContext where
  ns : String
  generics : List String := []
  mocks : MockOverlay := []
deriving Inhabited

/-- Lookups from one unit. `strictFeatures` reports a name of a filtered-out declaration as an
unavailable feature. -/
structure NameLookup where
  table : SymbolTable
  unit : Nat
  strictFeatures : Bool := false

namespace NameLookup

/-- A namespace, each enclosing namespace, then the root. -/
def namespaceChain (ns : String) : List String :=
  go (ns.length + 1) ns
where
  go : Nat → String → List String
    | 0, _ => [""]
    | fuel + 1, current =>
      if current.isEmpty then [""]
      else
        let parts := current.splitOn "."
        current :: go fuel (".".intercalate parts.dropLast)

/-- The namespace that `path` names, relative to `ns` or an enclosing namespace. -/
def resolveNamespace (l : NameLookup) (path : List String) (ns : String) :
    Option NamespaceSymbol :=
  let joined := joinPath path
  (namespaceChain ns).findSome? fun base => l.table.findNamespace? (extendPath base joined)

/-- Whether `path` names a namespace. -/
def isNamespace (l : NameLookup) (path : List String) (ns : String) : Bool :=
  (l.resolveNamespace path ns).isSome

/-- The imports of the unit. -/
def imports (l : NameLookup) : ImportTable := l.table.importsOf l.unit

/-- The namespaces the unit imports whole, in import order. -/
def wildcardSpaces (l : NameLookup) : List NamespaceSymbol :=
  l.imports.wildcards.filterMap l.table.findNamespace?

/-- A class by simple name or dotted path, before mocks are applied. -/
def findClass? (l : NameLookup) (path : List String) (ns : String) : Option ClassId :=
  match path with
  | [] => none
  | [name] =>
    ((namespaceChain ns).findSome? fun base => l.table.findClass? (extendPath base name))
      |>.orElse fun _ => l.imports.classes.get? name
      |>.orElse fun _ => l.wildcardSpaces.findSome? (·.classes.get? name)
      |>.orElse fun _ => l.table.lang.classes.get? name
  | _ =>
    (l.resolveNamespace path.dropLast ns).bind (·.classes.get? (path.getLastD ""))

/-- The overload sets named `name`, one per lookup level that has a nonempty one, each once,
in lookup order. A set is named by its namespace and name. -/
def functionLevels (l : NameLookup) (name ns : String) : List (List FunctionId) :=
  let found : List (String × String) :=
    ((namespaceChain ns).filter fun base => (l.table.findFunctions? base name).isSome).map
      (·, name) ++
    (l.imports.functions.get? name).toList ++
    (l.wildcardSpaces.filter fun s => s.functions.contains name).map (·.name, name) ++
    (if l.table.lang.functions.contains name then [(langNamespace, name)] else [])
  let keep := fun (acc : List (String × String)) (k : String × String) =>
    let set := (l.table.findFunctions? k.1 k.2).getD []
    if set.isEmpty || acc.contains k then acc else acc ++ [k]
  let sets := found.foldl keep []
  sets.map fun k => (l.table.findFunctions? k.1 k.2).getD []

/-- The overload set `name` of exactly the namespace that `nsPath` names. -/
def findQualifiedFunctions? (l : NameLookup) (nsPath : List String) (name ns : String) :
    Option (List FunctionId) :=
  (l.resolveNamespace nsPath ns).bind (·.functions.get? name)

/-- A namespace variable by simple name; the built-in namespace has none. -/
def findGlobal? (l : NameLookup) (name ns : String) : Option FieldId :=
  ((namespaceChain ns).findSome? fun base => l.table.findGlobal? base name)
    |>.orElse fun _ => l.imports.globals.get? name
    |>.orElse fun _ => l.wildcardSpaces.findSome? (·.globals.get? name)

/-- The variable `name` of exactly the namespace that `nsPath` names. -/
def findQualifiedGlobal? (l : NameLookup) (nsPath : List String) (name ns : String) :
    Option FieldId :=
  (l.resolveNamespace nsPath ns).bind (·.globals.get? name)

/-- Every class, function and variable name visible from `ns`, sorted, each once. -/
def visibleNames (l : NameLookup) (ns : String) : List String :=
  let ofSpace := fun (s : NamespaceSymbol) =>
    s.classes.keys ++ s.functions.keys ++ s.globals.keys
  let spaces := (namespaceChain ns).filterMap l.table.findNamespace?
  let i := l.imports
  let all := spaces.flatMap ofSpace ++ i.classes.keys ++ i.functions.keys ++ i.globals.keys ++
    l.wildcardSpaces.flatMap ofSpace ++ ofSpace l.table.lang
  (all.foldl (fun (s : Std.TreeSet String) n => s.insert n) ∅).toList

/-- The diagnostic for a name that was not found: `what` says what kind of name it was.
`extra` are further names to suggest from. -/
def unresolved (l : NameLookup) (what name : String) (span : Span) (ns : String)
    (extra : List String) : Diagnostic :=
  let excluded := l.table.findExcluded? name
  let notes := excluded.map (·.note) |>.toList
  if excluded.isSome && l.strictFeatures then
    Diagnostic.errorNoted .featureUnavailable Code.feature
      (what ++ " '" ++ name ++ "' is not available with the enabled features") span notes
  else
    let similar := Suggest.findSimilar name (l.visibleNames ns ++ extra) 2
    let notes := if !similar.isEmpty && similar != name then
      notes ++ ["did you mean '" ++ similar ++ "'?"] else notes
    Diagnostic.errorNoted .unresolvedSymbol Code.unresolved
      ("unresolved " ++ what ++ " '" ++ name ++ "'") span notes

end NameLookup

end AmLang
