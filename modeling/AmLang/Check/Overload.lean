import AmLang.Types.Conversion
import AmLang.Symbols.Symbol
/-!
# Overload resolution

Choosing one function from the candidates a call can reach, given the types of its arguments.
The choice depends on its inputs only:

1. candidates whose arity differs are dropped;
2. the generic parameters of a generic candidate are inferred from the argument types
   (`inferTypeArgs`), and the candidate is dropped when one stays unknown;
3. candidates with an argument that does not convert to its parameter are dropped;
4. each remaining candidate is ranked by the sum of its argument costs (`argumentCost`);
5. the least rank wins, and of two equal ranks a non-generic candidate beats a generic one; any
   other tie is ambiguous.

An unsuffixed integer literal converts, besides the usual widenings, to any narrower integer or
to a floating type whose range holds its value, at the cost `literalNarrowingCost`.
-/

namespace AmLang

/-- A function as one call site sees it: its parameter and result types with the receiver's
class arguments put in. -/
structure Candidate where
  fn : FunctionId
  params : List Ty
  result : Ty
deriving Inhabited

/-- A checked call argument: its type, and its value when it is an unsuffixed integer
literal. -/
structure Argument where
  type : Ty
  literal : Option Int := none
deriving Inhabited

/-- The outcome of overload resolution. -/
inductive Resolution where
  /-- Candidate `index` wins at rank `rank`, with its generic arguments and its parameter and
  result types after inference. -/
  | chosen (index rank : Nat) (typeArgs : List Ty) (params : List Ty) (result : Ty)
  | noMatch
  /-- The candidates tied at the least rank, the first one found best first. -/
  | ambiguous (tied : List Nat)
deriving Inhabited

/-- What narrowing an integer literal to a type that holds its value costs. -/
def literalNarrowingCost : Nat := 4

/-- Whether the value of an unsuffixed integer literal lies in the range of primitive type `t`
(every integer fits a floating type and `Long`). -/
def literalFits (value : Int) (t : Ty) : Bool :=
  match t with
  | .prim k _ => match k with
    | .byte => -128 ≤ value && value ≤ 127
    | .short => -32768 ≤ value && value ≤ 32767
    | .int => -2147483648 ≤ value && value ≤ 2147483647
    | .long => true
    | .ubyte => 0 ≤ value && value ≤ 255
    | .ushort => 0 ≤ value && value ≤ 65535
    | .uint => 0 ≤ value && value ≤ 4294967295
    | .ulong => 0 ≤ value
    | .float | .double => true
    | _ => false
  | _ => false

/-- The cost of passing `arg` to a parameter of type `param`, if it can be passed. -/
def argumentCost (env : ClassEnv) (arg : Argument) (param : Ty) : Option Nat :=
  match Ty.conversionCost env arg.type param with
  | some c => some c
  | none => match arg.literal with
    | some v =>
      if literalFits v (param.withNullable false) then
        some (literalNarrowingCost + if param.nullable then 1 else 0)
      else none
    | none => none

mutual

/-- Binds the generic parameters `names` that occur in `param` by matching it against the
argument type `arg`. A parameter bound twice keeps the wider of its two values. -/
def unify (env : ClassEnv) (names : List String) (param arg : Ty) (bound : Subst) : Subst :=
  if arg.isError || arg.isNever then bound
  else match param with
    | .param x nullable =>
      if !names.contains x then bound
      else match arg with
        | .null => bound
        | _ =>
          let value := if nullable then arg.withNullable false else arg
          match bound.lookup x with
          | none => bound.set x value
          | some old =>
            if !Ty.canConvert env value old && Ty.canConvert env old value then bound.set x value
            else bound
    | .obj target targs _ =>
      if targs.isEmpty then bound
      else match arg with
        | .obj .. => match (arg.withNullable false).ancestor env target with
          | some v => match v.type with
            | .obj _ vargs _ => unifyLists env names targs vargs bound
            | _ => bound
          | none => bound
        | _ => bound
    | .array pe _ => match arg with
      | .array ae _ => unify env names pe ae bound
      | _ => bound
    | .func pps pr _ => match arg with
      | .func aps ar _ => unify env names pr ar (unifyLists env names pps aps bound)
      | _ => bound
    | _ => bound

/-- Unifies two lists pointwise, as far as the shorter goes. -/
def unifyLists (env : ClassEnv) (names : List String) :
    List Ty → List Ty → Subst → Subst
  | p :: ps, a :: as, bound => unifyLists env names ps as (unify env names p a bound)
  | _, _, bound => bound

end

/-- The values of the generic parameters `names` inferred from the argument types, in the order
of `names`; none when one of them stays unbound. -/
def inferTypeArgs (env : ClassEnv) (names : List String) (params : List Ty)
    (args : List Argument) : Option (List Ty) :=
  let bound := unifyLists env names params (args.map (·.type)) []
  names.mapM bound.lookup

/-- A candidate that the arguments can call: its position, rank, inferred generic arguments,
and parameter and result types after inference. -/
structure Viable where
  index : Nat
  rank : Nat
  generic : Bool
  typeArgs : List Ty
  params : List Ty
  result : Ty

/-- The candidate at position `index` as a viable one, unless an argument does not fit it. -/
def Candidate.viable (env : ClassEnv) (fs : FunctionSymbol) (args : List Argument)
    (index : Nat) (c : Candidate) : Option Viable := do
  if c.params.length != args.length then none
  let (typeArgs, params, result) ← if fs.isGeneric then do
      let inferred ← inferTypeArgs env fs.generics c.params args
      let s : Subst := fs.generics.zip inferred
      pure (inferred, c.params.map (·.substitute s), c.result.substitute s)
    else pure ([], c.params, c.result)
  let costs ← (args.zip params).mapM fun (a, p) => argumentCost env a p
  pure ⟨index, costs.foldl (· + ·) 0, fs.isGeneric, typeArgs, params, result⟩

/-- Whether `a` ranks before `b`: a lower rank, or an equal rank and only `b` generic. -/
def Viable.better (a b : Viable) : Bool :=
  if a.rank != b.rank then a.rank < b.rank else !a.generic && b.generic

/-- Chooses among `candidates` for `args`; `fnOf` gives each candidate's function symbol. -/
def resolveOverload (env : ClassEnv) (fnOf : FunctionId → FunctionSymbol)
    (candidates : List Candidate) (args : List Argument) : Resolution :=
  let viable := candidates.zipIdx.filterMap fun (c, i) => c.viable env (fnOf c.fn) args i
  match viable with
  | [] => .noMatch
  | first :: _ =>
    let best := viable.foldl (fun best v => if v.better best then v else best) first
    let tied := viable.filter fun v => v.index != best.index && !best.better v
    if tied.isEmpty then .chosen best.index best.rank best.typeArgs best.params best.result
    else .ambiguous (best.index :: tied.map (·.index))

end AmLang
