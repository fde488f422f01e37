import AmLang.Check.Overload
import AmLang.Check.State
/-!
# Members seen from a receiver

Which methods a call on a receiver can reach, which field a member access names, and what a
dotted name means before it is checked as a value.

A method of a generic class is seen through the receiver's class arguments: on a `Box<Int>`
receiver, `set(value: T)` takes an `Int`. Methods are gathered breadth first from the receiver's
class through superclasses and interfaces; a method whose parameters equal those of one already
found (an override or a redeclaration) is hidden by it. A receiver that reaches no root class
still has the methods of `Object`.
-/

namespace AmLang

namespace SymbolTable

/-- The non-static methods named `name` of the root class `Object`, as candidates. -/
def objectMethods (t : SymbolTable) (name : String) : List Candidate :=
  ((t.cls objectClass).methods.getD name []).filterMap fun f =>
    let fs := t.fn f
    if fs.flags.isStatic then none else some ⟨f, fs.params, fs.result⟩

/-- The `toString` of `Object`, which writes objects into strings. -/
def objectToString (t : SymbolTable) : Option FunctionId :=
  (t.objectMethods "toString").head?.map (·.fn)

/-- How a call reaches method `f` once it is chosen: static methods directly by name,
non-generic interface methods through the interface's table, other non-generic methods with a
slot through the class's table, and the rest directly. -/
def callKindFor (t : SymbolTable) (f : FunctionId) : CallKind :=
  let fs := t.fn f
  if fs.flags.isStatic then .static
  else if (fs.owner.map fun o => (t.cls o).isInterface).getD false && !fs.isGeneric then .interface
  else if fs.slot.isSome && !fs.isGeneric then .virtual
  else .direct

/-- The candidates found in one class, seen from `receiver`, that earlier ones do not hide. -/
def classCandidates (t : SymbolTable) (env : ClassEnv) (receiver : Ty) (name : String)
    (wantStatic : Bool) (c : ClassId) (found : List Candidate) : List Candidate :=
  let s := match receiver.ancestor env c with
    | some v => v.type.substOf env
    | none => []
  ((t.cls c).methods.getD name []).foldl (fun found f =>
    let fs := t.fn f
    if fs.flags.isStatic != wantStatic then found
    else
      let cand : Candidate := ⟨f, fs.params.map (·.substitute s), fs.result.substitute s⟩
      let hidden := found.any fun prev => Ty.equalList prev.params cand.params
      if hidden then found else found ++ [cand]) found

/-- Breadth-first search for methods named `name` from the queue of classes `queue`; returns
the candidates and whether a root class was reached. -/
def gatherMethods (t : SymbolTable) (env : ClassEnv) (receiver : Ty) (name : String)
    (wantStatic : Bool) : Nat → List ClassId → List ClassId → List Candidate → Bool →
    List Candidate × Bool
  | 0, _, _, found, root => (found, root)
  | _ + 1, [], _, found, root => (found, root)
  | fuel + 1, c :: queue, seen, found, root =>
    if seen.contains c then gatherMethods t env receiver name wantStatic fuel queue seen found root
    else
      let k := t.cls c
      let found := t.classCandidates env receiver name wantStatic c found
      let next := k.superId?.toList ++ k.interfaces.filterMap Ty.classOf?
      gatherMethods t env receiver name wantStatic fuel (queue ++ next) (c :: seen) found
        (root || k.isRoot)

/-- The methods named `name` that a receiver of class type `receiver` reaches, most derived
first, with their types seen from the receiver; static or instance methods as `wantStatic`
says. Instance methods of a receiver that reaches no root class fall back to `Object`'s. -/
def methodCandidates (t : SymbolTable) (env : ClassEnv) (receiver : Ty) (name : String)
    (wantStatic : Bool) : List Candidate :=
  match receiver.classOf? with
  | none => []
  | some c =>
    let (found, root) := t.gatherMethods env receiver name wantStatic env.searchBound [c] [] [] false
    if !root && !wantStatic && found.isEmpty then t.objectMethods name else found

/-- The instance field `name` of a receiver of class type `receiver`, with its type seen from
the receiver. -/
def fieldOf (t : SymbolTable) (env : ClassEnv) (receiver : Ty) (name : String) :
    Option (FieldId × Ty) := do
  let c ← receiver.classOf?
  let f ← t.findField? c name
  let fd := t.field f
  let s := match fd.owner.bind ((receiver.withNullable false).ancestor env) with
    | some v => v.type.substOf env
    | none => []
  pure (f, (fd.type.getD .error).substitute s)

/-- The type of field `f`, seen from `receiver`. -/
def fieldTypeFrom (t : SymbolTable) (env : ClassEnv) (receiver : Ty) (f : FieldId) : Ty :=
  let fd := t.field f
  match fd.owner.bind (receiver.ancestor env) with
  | some v => (fd.type.getD .error).substitute (v.type.substOf env)
  | none => fd.type.getD .error

end SymbolTable

/-- The dotted name an expression spells (`a.b.c`), if it is one: plain names joined by plain
member accesses. -/
def Expr.dottedPath : Expr → Option (List String)
  | .mk (.ident n) _ => some [n]
  | .mk (.member o n safe _) _ =>
    if safe then none else (o.dottedPath).map (· ++ [n])
  | _ => none

/-- What a dotted receiver names when it is not a value: a class (with mocks applied) or a
namespace. -/
inductive StaticPath where
  | cls (c : ClassId)
  | space (path : List String)

namespace CheckM

/-- Whether `name` stands for a value here: a local, a field or static field of the current
class or its ancestors, or a namespace variable. -/
def isValueName (name : String) : CheckM Bool := do
  let s ← get
  let t := s.work.table
  if (s.scopes.lookup name).isSome then return true
  let inClass := match s.cls with
    | some c => (t.findField? c name).isSome || (t.findStaticField? c name).isSome
    | none => false
  if inClass then return true
  pure ((← names).findGlobal? name s.ns).isSome

/-- The class or namespace a dotted receiver names when its first name is not a value. -/
def staticPath (e : Expr) : CheckM (Option StaticPath) := do
  let some path := e.dottedPath | return none
  if ← isValueName (path.headD "") then return none
  let s ← get
  let l ← names
  match l.findClass? path s.ns with
  | some c => pure (some (.cls (s.mocks.apply c)))
  | none => pure (if l.isNamespace path s.ns then some (.space path) else none)

end CheckM

end AmLang
