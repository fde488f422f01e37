import AmLang.Proofs.Types.SuperChain
import Mathlib.Logic.Relation
/-!
# Conversion orders the types of a checked program

`Ty.canConvert` is reflexive (`conversionCost_self`) but not transitive
(`hidden_instance_breaks_transitivity`). It is antisymmetric on the types a checked program has:
two such types that convert to each other are the same type (`Ty.canConvert_antisymm`).

Two kinds of class table break this, and `ClassEnv.Sound` rules both out:

* a cycle of supertype clauses, along which every class of the cycle converts to the others;
* a second root class, a root class with supertypes, or one with generic parameters: every class
  type converts to every type of a root class for free.

Types must also give each class one argument per generic parameter (`Ty.sized`), as resolved
types do, so that the root class has one type up to its nullable mark. The ancestor search keeps
both properties: it only reaches classes that the start's class reaches along clauses
(`ClassEnv.ancestor_reaches`), and the instances it reports are sized when the start is
(`ClassEnv.sized_ancestor`).

## Main results

* `ClassEnv.ancestorSearch_invariant` — a property that every expansion keeps holds of the
  instance the search reports.
* `Ty.baseCost_antisymm`, `Ty.canConvert_antisymm` — conversion is antisymmetric.
-/

namespace AmLang

namespace Ty

mutual

/-- Every class type in the type has one argument for each generic parameter of its class. -/
def sized (env : ClassEnv) : Ty → Bool
  | .obj c args _ => args.length == (env.getD c default).generics.length && sizedAll env args
  | .array e _ => sized env e
  | .func ps r _ => sizedAll env ps && sized env r
  | _ => true

/-- Every type of the list is sized. -/
def sizedAll (env : ClassEnv) : List Ty → Bool
  | [] => true
  | t :: ts => sized env t && sizedAll env ts

end

/-- A type that values have: neither the type of `null`, nor the error type, nor the never
type. -/
def Proper (t : Ty) : Prop :=
  t.isError = false ∧ t.isNever = false ∧ t.isNull = false

theorem proper_of {t : Ty} (he : (t.isError || t.isNever) = false) (hn : t ≠ .null) : t.Proper := by
  cases t <;> simp_all [Proper, isError, isNever, isNull]

theorem proper_withNullable (t : Ty) (b : Bool) : (t.withNullable b).Proper ↔ t.Proper := by
  cases t
  case prim k n =>
    simp only [withNullable]
    split <;> exact Iff.rfl
  all_goals exact Iff.rfl

variable {env : ClassEnv}

theorem sizedAll_iff (l : List Ty) : sizedAll env l = true ↔ ∀ t ∈ l, sized env t = true := by
  induction l with
  | nil => simp [sizedAll]
  | cons t ts ih => simp [sizedAll, ih]

@[simp] theorem sized_withNullable (t : Ty) (b : Bool) :
    (t.withNullable b).sized env = t.sized env := by
  cases t <;> simp only [withNullable, sized]
  split <;> rfl

theorem classOf?_substitute {s : Ty} {d : ClassId} (h : s.classOf? = some d) (σ : Subst) :
    (s.substitute σ).classOf? = some d := by
  cases s <;> simp_all [classOf?, substitute]

mutual

/-- Substituting sized values keeps a type sized. -/
theorem sized_substitute {σ : Subst} (hσ : ∀ x u, σ.lookup x = some u → u.sized env = true) :
    ∀ t : Ty, t.sized env = true → (t.substitute σ).sized env = true
  | .prim _ _, h => h
  | .obj c args n, h => by
    simp only [sized, Bool.and_eq_true, beq_iff_eq] at h
    simp only [substitute, sized, Bool.and_eq_true, beq_iff_eq, substituteAll_eq_map,
      List.length_map]
    rw [← substituteAll_eq_map]
    exact ⟨h.1, sizedAll_substituteAll hσ args h.2⟩
  | .array e n, h => sized_substitute hσ e h
  | .func ps r n, h => by
    simp only [sized, Bool.and_eq_true] at h
    simp only [substitute, sized, Bool.and_eq_true]
    exact ⟨sizedAll_substituteAll hσ ps h.1, sized_substitute hσ r h.2⟩
  | .param x n, _ => by
    simp only [substitute]
    split
    · next u hu =>
      split
      · rw [sized_withNullable]
        exact hσ x u hu
      · exact hσ x u hu
    · rfl
  | .null, h => h
  | .error, h => h
  | .never, h => h

theorem sizedAll_substituteAll {σ : Subst} (hσ : ∀ x u, σ.lookup x = some u → u.sized env = true) :
    ∀ l : List Ty, sizedAll env l = true → sizedAll env (substituteAll σ l) = true
  | [], h => h
  | t :: ts, h => by
    simp only [sizedAll, Bool.and_eq_true] at h
    simp only [substituteAll, sizedAll, Bool.and_eq_true]
    exact ⟨sized_substitute hσ t h.1, sizedAll_substituteAll hσ ts h.2⟩

end

/-- The value a class type gives a parameter is one of its arguments. -/
theorem mem_args_of_lookup_substOf {c : ClassId} {args : List Ty} {n : Bool} {x : String} {u : Ty}
    (h : (substOf env (.obj c args n)).lookup x = some u) : u ∈ args := by
  rw [lookup_substOf, Option.map_eq_some_iff] at h
  obtain ⟨p, hp, rfl⟩ := h
  exact List.of_mem_zip (List.mem_reverse.1 (List.mem_of_find?_eq_some hp)) |>.2

end Ty

namespace ClassEnv

/-- The supertype clauses of a class: its superclass, then its interfaces. -/
def clauses (env : ClassEnv) (c : ClassId) : List Ty :=
  (env.getD c default).superclass.toList ++ (env.getD c default).interfaces

/-- Class `d` is named by a supertype clause of class `c`. -/
def Parent (env : ClassEnv) (c d : ClassId) : Prop :=
  ∃ s ∈ env.clauses c, s.classOf? = some d

/-- The class table of a checked program. Supertype clauses are sized class types and no class
is its own proper ancestor; there is at most one root class, with no supertypes and no generic
parameters. -/
structure Sound (env : ClassEnv) : Prop where
  clause_class : ∀ c, ∀ s ∈ env.clauses c, s.classOf?.isSome = true
  clause_sized : ∀ c, ∀ s ∈ env.clauses c, s.sized env = true
  acyclic : ∀ c, ¬Relation.TransGen env.Parent c c
  root_unique : ∀ c d, (env.getD c default).isRoot = true → (env.getD d default).isRoot = true →
    c = d
  root_clauses : ∀ c, (env.getD c default).isRoot = true → env.clauses c = []
  root_generics : ∀ c, (env.getD c default).isRoot = true → (env.getD c default).generics = []

variable {env : ClassEnv}

/-- A table whose clauses name only earlier classes is acyclic. -/
theorem acyclic_of_lt (h : ∀ c d, env.Parent c d → d < c) (c : ClassId) :
    ¬Relation.TransGen env.Parent c c := by
  have hlt : ∀ a b, Relation.TransGen env.Parent a b → b < a := by
    intro a b hab
    induction hab with
    | single hp => exact h _ _ hp
    | tail _ hp ih => exact lt_trans (h _ _ hp) ih
  exact fun hc => lt_irrefl c (hlt c c hc)

/-- A node that the search queues after expanding `t` is a clause of `t`'s class, seen from
`t`. -/
theorem mem_expand {t : Ty} {d : Nat} {vi : Bool} {q : Ty × Nat × Bool}
    (hq : q ∈ env.expand t d vi) :
    ∃ c s, t.classOf? = some c ∧ s ∈ env.clauses c ∧ q.1 = s.substitute (t.substOf env) := by
  rcases hc : t.classOf? with _ | c
  · simp [expand, supertypes, hc] at hq
  simp only [expand, supertypes, hc, List.mem_append, List.mem_map, List.map_map] at hq
  rcases hq with hsup | ⟨i, hi, rfl⟩
  · cases hs : (env.getD c default).superclass with
    | none => simp only [hs, Option.map_none, Option.getD_none, List.not_mem_nil] at hsup
    | some s =>
      simp only [hs, Option.map_some, Option.getD_some, List.mem_singleton] at hsup
      refine ⟨c, s, rfl, ?_, by rw [hsup]⟩
      simp only [clauses, hs, Option.toList_some, List.mem_append, List.mem_singleton, true_or]
  · refine ⟨c, i, rfl, ?_, rfl⟩
    simp only [clauses, List.mem_append, hi, or_true]

/-! ## What the search keeps -/

/-- **A property that every expansion keeps holds of the instance the search reports**, which
is of the target class. -/
theorem ancestorSearch_invariant {target : ClassId} {P : Ty → Prop}
    (hstep : ∀ t d vi, P t → ∀ q ∈ env.expand t d vi, P q.1) :
    ∀ (fuel : Nat) (queue : List (Ty × Nat × Bool)) (visited : List ClassId) (v : AncestorView),
      (∀ p ∈ queue, P p.1) → env.ancestorSearch target fuel queue visited = some v →
      P v.type ∧ v.type.classOf? = some target
  | 0, _, _, _, _, h => by simp [ancestorSearch] at h
  | _ + 1, [], _, _, _, h => by simp [ancestorSearch] at h
  | fuel + 1, (t, d, vi) :: rest, visited, v, hq, h => by
    have ht : P t := hq _ List.mem_cons_self
    have hrest : ∀ p ∈ rest, P p.1 := fun p hp => hq p (List.mem_cons_of_mem _ hp)
    rcases hc : t.classOf? with _ | c
    · rw [ancestorSearch_not_class hc] at h
      exact ancestorSearch_invariant hstep fuel rest visited v hrest h
    by_cases hcv : c ∈ visited
    · rw [ancestorSearch_visited hc hcv] at h
      exact ancestorSearch_invariant hstep fuel rest visited v hrest h
    by_cases hct : c = target
    · subst hct
      rw [ancestorSearch_found hc hcv, Option.some.injEq] at h
      subst h
      exact ⟨ht, hc⟩
    · -- the expanded node's clauses join the queue, and keep the property
      rw [ancestorSearch_expand hc hcv hct] at h
      refine ancestorSearch_invariant hstep fuel _ _ v ?_ h
      intro p hp
      rcases List.mem_append.1 hp with hp | hp
      · exact hrest p hp
      · exact hstep t d vi ht p hp

theorem ancestor_invariant {P : Ty → Prop} (hstep : ∀ t d vi, P t → ∀ q ∈ env.expand t d vi, P q.1)
    {t : Ty} {target : ClassId} {v : AncestorView} (ht : P t) (h : t.ancestor env target = some v) :
    P v.type ∧ v.type.classOf? = some target := by
  unfold Ty.ancestor at h
  split at h
  · cases h
  · exact ancestorSearch_invariant hstep _ _ _ v (by simpa using ht) h

/-- The search reaches only classes that the start's class reaches along clauses. -/
theorem ancestor_reaches (hwf : env.Sound) {t : Ty} {c target : ClassId} {v : AncestorView}
    (hc : t.classOf? = some c) (h : t.ancestor env target = some v) :
    Relation.ReflTransGen env.Parent c target := by
  have hstep : ∀ u d vi, (∀ e, u.classOf? = some e → Relation.ReflTransGen env.Parent c e) →
      ∀ q ∈ env.expand u d vi, ∀ e, q.1.classOf? = some e → Relation.ReflTransGen env.Parent c e := by
    intro u d vi hu q hq e he
    obtain ⟨c', s, hu', hs, hq1⟩ := mem_expand hq
    obtain ⟨d', hd'⟩ := Option.isSome_iff_exists.1 (hwf.clause_class c' s hs)
    rw [hq1, Ty.classOf?_substitute hd', Option.some.injEq] at he
    subst he
    exact (hu c' hu').tail ⟨s, hs, hd'⟩
  have hstart : ∀ e, t.classOf? = some e → Relation.ReflTransGen env.Parent c e := by
    intro e he
    rw [hc, Option.some.injEq] at he
    exact he ▸ .refl
  obtain ⟨hv, hvc⟩ := ancestor_invariant hstep hstart h
  exact hv target hvc

/-- The instances the search reports are sized when the start is. -/
theorem sized_ancestor (hwf : env.Sound) {t : Ty} {target : ClassId} {v : AncestorView}
    (ht : t.sized env = true) (h : t.ancestor env target = some v) : v.type.sized env = true := by
  have hstep : ∀ u d vi, u.sized env = true → ∀ q ∈ env.expand u d vi, q.1.sized env = true := by
    intro u d vi hu q hq
    obtain ⟨c, s, hu', hs, hq1⟩ := mem_expand hq
    cases u with
    | obj c' args n =>
      simp only [Ty.sized, Bool.and_eq_true] at hu
      rw [hq1]
      refine Ty.sized_substitute (fun x a ha => ?_) s (hwf.clause_sized c s hs)
      exact (Ty.sizedAll_iff args).1 hu.2 a (Ty.mem_args_of_lookup_substOf ha)
    | _ => simp [Ty.classOf?] at hu'
  exact (ancestor_invariant hstep ht h).1

/-! ## The root class -/

/-- A sized type of the root class has no arguments. -/
theorem args_of_root (hwf : env.Sound) {r : ClassId} {args : List Ty} {n : Bool}
    (hr : (env.getD r default).isRoot = true) (hs : (Ty.obj r args n).sized env = true) :
    args = [] := by
  simp only [Ty.sized, Bool.and_eq_true, beq_iff_eq, hwf.root_generics r hr, List.length_nil,
    List.length_eq_zero_iff] at hs
  exact hs.1

/-- The root class names no class. -/
theorem not_transGen_root (hwf : env.Sound) {r : ClassId} (hr : (env.getD r default).isRoot = true)
    (d : ClassId) : ¬Relation.TransGen env.Parent r d := by
  intro h
  obtain ⟨e, ⟨s, hs, _⟩, _⟩ := Relation.TransGen.head'_iff.1 h
  simp [hwf.root_clauses r hr] at hs

end ClassEnv

/-! ## Antisymmetry -/

theorem Prim.widening_antisymm {a b : Prim} (h₁ : (a.widening b).isSome = true)
    (h₂ : (b.widening a).isSome = true) : a = b := by
  revert h₁ h₂
  cases a <;> cases b <;> decide

namespace Ty

variable {env : ClassEnv}

/-- The base cost between two class types. -/
theorem baseCost_obj (c d : ClassId) (as bs : List Ty) (n m : Bool) :
    baseCost env (.obj c as n) (.obj d bs m) =
      if (env.getD d default).isRoot then
        (if (env.getD c default).isRoot then some 0 else some interfaceCost)
      else if c == d then (if sameArgs (.obj c as n) (.obj d bs m) then some 0 else none)
      else match (Ty.obj c as false).ancestor env d with
        | some v =>
          if sameArgs v.type (.obj d bs m) then
            some (if v.viaInterface then interfaceCost else 2 * v.distance)
          else none
        | none => none := rfl

/-- A class converts to another class that is not the root only if it reaches it along
clauses. -/
theorem reaches_of_baseCost (hwf : env.Sound) {c d : ClassId} {as bs : List Ty} {n m : Bool}
    (hrd : ¬(env.getD d default).isRoot = true) (hcd : c ≠ d)
    (h : (baseCost env (.obj c as n) (.obj d bs m)).isSome = true) :
    Relation.TransGen env.Parent c d := by
  rw [baseCost_obj] at h
  simp only [hrd, Bool.false_eq_true, if_false, beq_iff_eq, hcd] at h
  cases hv : (Ty.obj c as false).ancestor env d with
  | none => simp [hv] at h
  | some v =>
    rcases Relation.reflTransGen_iff_eq_or_transGen.1 (ClassEnv.ancestor_reaches hwf rfl hv) with
      h' | h'
    · exact absurd h'.symm hcd
    · exact h'

/-- Two sized class types that convert to each other are of one class, with the same
arguments. -/
theorem baseCost_obj_antisymm (hwf : env.Sound) {c d : ClassId} {as bs : List Ty} {n m : Bool}
    (hs : (Ty.obj c as n).sized env = true) (ht : (Ty.obj d bs m).sized env = true)
    (h₁ : (baseCost env (.obj c as n) (.obj d bs m)).isSome = true)
    (h₂ : (baseCost env (.obj d bs m) (.obj c as n)).isSome = true) : c = d ∧ as = bs := by
  by_cases hrc : (env.getD c default).isRoot = true
  · by_cases hrd : (env.getD d default).isRoot = true
    · -- one root class, whose types have no arguments
      exact ⟨hwf.root_unique c d hrc hrd,
        (ClassEnv.args_of_root hwf hrc hs).trans (ClassEnv.args_of_root hwf hrd ht).symm⟩
    · -- the root class reaches no other class
      have hcd : c ≠ d := fun h => hrd (h ▸ hrc)
      exact absurd (reaches_of_baseCost hwf hrd hcd h₁) (ClassEnv.not_transGen_root hwf hrc d)
  by_cases hrd : (env.getD d default).isRoot = true
  · have hdc : d ≠ c := fun h => hrc (h ▸ hrd)
    exact absurd (reaches_of_baseCost hwf hrc hdc h₂) (ClassEnv.not_transGen_root hwf hrd c)
  by_cases hcd : c = d
  · subst hcd
    rw [baseCost_obj] at h₁
    simp only [hrc, Bool.false_eq_true, if_false, beq_self_eq_true, if_true, sameArgs] at h₁
    refine ⟨rfl, (equalList_iff_eq as bs).1 ?_⟩
    by_contra hne
    simp [hne] at h₁
  · -- each class would be a proper ancestor of the other
    exact absurd ((reaches_of_baseCost hwf hrd hcd h₁).trans
      (reaches_of_baseCost hwf hrc (Ne.symm hcd) h₂)) (hwf.acyclic c)

/-- **Two sized types with base conversions both ways have one shape.** -/
theorem baseCost_antisymm (hwf : env.Sound) {s t : Ty} (hs : s.sized env = true)
    (ht : t.sized env = true) (h₁ : (baseCost env s t).isSome = true)
    (h₂ : (baseCost env t s).isSome = true) : s.equalShape t = true := by
  cases s <;> cases t
  case prim.prim a n b m =>
    rw [show baseCost env (.prim a n) (.prim b m) = a.widening b from rfl] at h₁
    rw [show baseCost env (.prim b m) (.prim a n) = b.widening a from rfl] at h₂
    obtain rfl := Prim.widening_antisymm h₁ h₂
    simp only [equalShape]
    cases a <;> rfl
  case obj.obj c as n d bs m =>
    obtain ⟨rfl, rfl⟩ := baseCost_obj_antisymm hwf hs ht h₁ h₂
    simp only [equalShape, beq_self_eq_true, Bool.true_and]
    exact (equalList_iff_eq as as).2 rfl
  -- the other pairs: two types of different shapes have no base conversion in one direction,
  -- and two of one variant convert only when they have one shape
  all_goals
    unfold baseCost at h₁ h₂
    simp_all [classOf?, variant, equalShape]

/-- Between proper types, conversion is defined when the base conversion is and no nullable
mark is dropped. -/
theorem canConvert_iff {s t : Ty} (hs : s.Proper) (ht : t.Proper) :
    canConvert env s t = true ↔ (s.nullable = true → t.nullable = true) ∧
      (baseCost env s t).isSome = true := by
  obtain ⟨hse, hsn, hsnull⟩ := hs
  obtain ⟨hte, htn, -⟩ := ht
  unfold canConvert conversionCost
  simp only [hse, hte, hsn, htn, Bool.or_false, Bool.false_eq_true, if_false]
  split
  · simp [isNull] at hsnull
  · cases hn : s.nullable <;> cases hm : t.nullable <;> simp

/-- **Conversion is antisymmetric** on the sized proper types of a sound class table. -/
theorem canConvert_antisymm (hwf : env.Sound) {s t : Ty} (hs : s.Proper) (ht : t.Proper)
    (hss : s.sized env = true) (hts : t.sized env = true) (h₁ : canConvert env s t = true)
    (h₂ : canConvert env t s = true) : s = t := by
  rw [canConvert_iff hs ht] at h₁
  rw [canConvert_iff ht hs] at h₂
  have hn : s.nullable = t.nullable := by
    cases hsn : s.nullable <;> cases htn : t.nullable <;> simp_all
  have hshape := baseCost_antisymm hwf hss hts h₁.2 h₂.2
  exact (equal_iff_eq s t).1 (by rw [equal_def, hn, beq_self_eq_true, hshape]; rfl)

end Ty

end AmLang
