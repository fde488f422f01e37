import AmLang.Types.Ty
/-!
# Substitution, ancestry and implicit conversion

Relations between types in a class environment.

Substitution replaces generic parameters by types. A class type's generic arguments give a
substitution for its class's parameters (`Ty.substOf`), and a supertype clause written in terms
of a class's parameters becomes, under it, the supertype of that instance.

`Ty.ancestor` views a class type as an instance of one of its ancestors: it searches the
supertype graph breadth first, visiting each class once, and reports the first path that reaches
the ancestor, its type with the arguments rewritten along the path, and the number of steps
taken, unless an interface clause was crossed.

`Ty.conversionCost` ranks implicit conversions; assignability and overload choice both use it,
so they agree by construction:

| conversion                               | cost         |
|------------------------------------------|--------------|
| identical                                | 0            |
| integer or floating widening             | 1 per step   |
| `T` to `T?`, `null` to `T?`              | +1           |
| class to an ancestor class               | 2 × distance |
| class to an interface, anything to root  | 16           |

The error type and the never type convert to everything for free.
-/

namespace AmLang

/-- Values for generic parameters, by name; the first entry of a name counts. -/
abbrev Subst := List (String × Ty)

namespace Subst

/-- The value of a parameter. -/
def lookup (s : Subst) (name : String) : Option Ty :=
  (List.find? (fun (p : String × Ty) => p.1 == name) s).map (·.2)

/-- The substitution with `name` set to `t`, replacing an earlier value. -/
def set (s : Subst) (name : String) (t : Ty) : Subst :=
  if s.any (·.1 == name) then s.map fun (n, u) => if n == name then (n, t) else (n, u)
  else s ++ [(name, t)]

end Subst

namespace Ty

mutual

/-- Replaces each generic parameter that has a value. A nullable parameter becomes its value
made nullable. -/
def substitute (s : Subst) : Ty → Ty
  | .param x n =>
    match s.lookup x with
    | some t => if n then t.withNullable true else t
    | none => .param x n
  | .obj c args n => .obj c (substituteAll s args) n
  | .array e n => .array (substitute s e) n
  | .func ps r n => .func (substituteAll s ps) (substitute s r) n
  | t => t

/-- Each type of a list with the values of its parameters put in. -/
def substituteAll (s : Subst) : List Ty → List Ty
  | [] => []
  | t :: ts => substitute s t :: substituteAll s ts

end

/-- The substitution that a class type's arguments give its class's parameters, in parameter
order; extra parameters or arguments are left out. -/
def substOf (env : ClassEnv) : Ty → Subst
  | .obj c args _ =>
    ((env.getD c default).generics.zip args).foldl (fun s (x, t) => s.set x t) []
  | _ => []

end Ty

/-- The view of a class type as an instance of an ancestor. -/
structure AncestorView where
  /-- The ancestor's type, with arguments in terms of the viewed type's. -/
  type : Ty
  /-- Supertype steps from the viewed type. -/
  distance : Nat
  /-- Whether the path crossed an interface clause. -/
  viaInterface : Bool

namespace AncestorView

/-- The distance as reported: the number of steps, or -1 when an interface was crossed. -/
def reportedDistance (v : AncestorView) : Int := if v.viaInterface then -1 else v.distance

end AncestorView

namespace ClassEnv

/-- The direct supertypes of a class instance: its superclass first, then its interfaces, each
with the instance's arguments put in. -/
def supertypes (env : ClassEnv) (t : Ty) : Option Ty × List Ty :=
  match t.classOf? with
  | none => (none, [])
  | some c =>
    let h := env.getD c default
    let s := t.substOf env
    (h.superclass.map (·.substitute s), h.interfaces.map (·.substitute s))

/-- A bound on the nodes a search of the supertype graph takes from its queue: the start, and
for each class visited once, its direct supertypes. -/
def searchBound (env : ClassEnv) : Nat :=
  env.foldl (fun n h => n + 1 + h.interfaces.length) 1

/-- Breadth-first search from the queue `queue` of nodes `(type, distance, via interface)`. -/
def ancestorSearch (env : ClassEnv) (target : ClassId) :
    Nat → List (Ty × Nat × Bool) → List ClassId → Option AncestorView
  | 0, _, _ => none
  | _ + 1, [], _ => none
  | fuel + 1, (t, d, vi) :: rest, visited =>
    match t.classOf? with
    | none => ancestorSearch env target fuel rest visited
    | some c =>
      if visited.contains c then ancestorSearch env target fuel rest visited
      else if c == target then some ⟨t, d, vi⟩
      else
        let (sup, ifaces) := env.supertypes t
        let next := (sup.map fun s => [(s, d + 1, vi)]).getD [] ++ ifaces.map fun i => (i, d + 1, true)
        ancestorSearch env target fuel (rest ++ next) (c :: visited)

/-- Whether class `c` is `target` or reaches it through superclasses and interfaces. -/
def reaches (env : ClassEnv) (target : ClassId) : Nat → List ClassId → List ClassId → Bool
  | 0, _, _ => false
  | _ + 1, [], _ => false
  | fuel + 1, c :: stack, visited =>
    if c == target then true
    else if visited.contains c then reaches env target fuel stack visited
    else
      let h := env.getD c default
      let next := h.interfaces.reverse.filterMap Ty.classOf? ++
        (h.superclass.bind Ty.classOf?).toList
      reaches env target fuel (next ++ stack) (c :: visited)

/-- Whether class `c` derives from `ancestor`: is it, or has it as a superclass or interface,
directly or through others. -/
def derives (env : ClassEnv) (c ancestor : ClassId) : Bool :=
  env.reaches ancestor env.searchBound [c] []

end ClassEnv

namespace Ty

/-- The view of `t` as an instance of class `target`, if `t` is a class type that has it as an
ancestor (or is it). -/
def ancestor (env : ClassEnv) (t : Ty) (target : ClassId) : Option AncestorView :=
  match t.classOf? with
  | none => none
  | some _ => env.ancestorSearch target env.searchBound [(t, 0, false)] []

/-- The arguments of two class types are pointwise equal. -/
def sameArgs : Ty → Ty → Bool
  | .obj _ as _, .obj _ bs _ => Ty.equalList as bs
  | _, _ => false

/-- What converting to an interface or to the root class costs. -/
def interfaceCost : Nat := 16

/-- The cost of converting between two types with their nullable flags set aside. -/
def baseCost (env : ClassEnv) (source target : Ty) : Option Nat :=
  match source, target with
  | .prim a _, .prim b _ => a.widening b
  | _, _ =>
    let isRootClass := fun (t : Ty) => match t.classOf? with
      | some c => (env.getD c default).isRoot
      | none => false
    if isRootClass target then
      if isRootClass source then some 0
      else match source with
        | .obj .. | .array .. | .func .. => some interfaceCost
        | _ => none
    else match source, target with
      | .obj c _ _, .obj d _ _ =>
        if c == d then (if sameArgs source target then some 0 else none)
        else match (source.withNullable false).ancestor env d with
          | some v =>
            if sameArgs v.type target then
              some (if v.viaInterface then interfaceCost else 2 * v.distance)
            else none
          | none => none
      | _, _ => if source.variant == target.variant && source.equalShape target then some 0 else none

/-- The cost of converting a value of type `source` to `target` implicitly, if it can be. -/
def conversionCost (env : ClassEnv) (source target : Ty) : Option Nat :=
  if source.isError || target.isError || source.isNever then some 0
  else if target.isNever then none
  else match source with
    | .null => match target with
      | .null => some 0
      | _ => if target.nullable then some 1 else none
    | _ =>
      if source.nullable && !target.nullable then none
      else
        let lift := if !source.nullable && target.nullable then 1 else 0
        (baseCost env source target).map (· + lift)

/-- Whether a value of type `source` converts to `target` implicitly. -/
def canConvert (env : ClassEnv) (source target : Ty) : Bool :=
  (conversionCost env source target).isSome

/-- The type of a binary arithmetic operation on two numeric types: `Double` if either is
`Double`, or if `Float` meets a 64-bit integer; `Float` if either is `Float`; otherwise the wider
of two integer types when one widens to the other. Nullable flags are dropped. -/
def numericJoin (a b : Ty) : Option Ty :=
  match a, b with
  | .prim ka _, .prim kb _ =>
    if !ka.isNumeric || !kb.isNumeric then none
    else if ka.isFloating || kb.isFloating then
      if ka == .double || kb == .double then some (.prim .double false)
      else
        let other := if ka.isFloating then kb else ka
        if other == .long || other == .ulong then some (.prim .double false)
        else some (.prim .float false)
    else if (ka.widening kb).isSome then some (.prim kb false)
    else if (kb.widening ka).isSome then some (.prim ka false)
    else none
  | _, _ => none

end Ty

end AmLang
