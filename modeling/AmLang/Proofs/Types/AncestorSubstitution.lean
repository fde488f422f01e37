import AmLang.Proofs.Types.ConversionOrder
/-!
# Ancestor views of substituted instances

Viewing a class type as an instance of an ancestor (`Ty.ancestor`) commutes with substituting
its generic parameters: the view of `t.substitute σ` is the view of `t` with `σ` put into its
type, found at the same distance along the same path. Code that works out a view on a generic
type, such as a class's own type, may therefore use it for every instance of that type.

The search on the substituted type runs in lockstep with the search on `t`. Each node has the
same class in both runs, so both visit the same classes in the same order; expanding a node
queues the same clauses, and a clause seen from a substituted instance is the clause seen from
the instance and then substituted (`Ty.substitute_substOf_substitute`).

That last step needs the class table of a checked program (`ClassEnv.ClausesScoped`): every
supertype clause is a class instance with an argument for each parameter of its class, and
names only parameters of the class that declares it; and the start type has an argument for
each parameter of its class. Otherwise a parameter left without a value along the path is
caught by the later substitution, or a clause that is a parameter becomes a class only after
it (`Ty.ancestor_view_substitute_needs_scoped_instances`).

## Main results

* `ClassEnv.expand_substitute` — expanding a substituted node queues the substituted nodes.
* `ClassEnv.ancestorSearch_substitute` — the two searches run in lockstep.
* `Ty.ancestor_substitute` — the view of a substituted instance is the substituted view.
* `Ty.ancestor_view_substitute_commutes` — the same, as a caller reads the two views.
-/

namespace AmLang

namespace AncestorView

/-- The view with a substitution put into its type; the path it records stays. -/
def substitute (σ : Subst) (v : AncestorView) : AncestorView :=
  { v with type := v.type.substitute σ }

end AncestorView

namespace ClassEnv

/-- The supertype clauses of a checked program: each is a class instance with an argument for
each parameter of its class, written in the parameters of the class that declares it. -/
structure ClausesScoped (env : ClassEnv) : Prop where
  applied : ∀ c, ∀ s ∈ env.clauses c, env.Applied s
  inScope : ∀ c, ∀ s ∈ env.clauses c, ∀ x ∈ s.paramNames, x ∈ (env.getD c default).generics

variable {env : ClassEnv}

/-- Only the classes of the table have clauses, so it is enough to check those. -/
theorem clausesScoped_of_lt
    (h : ∀ c < env.size, ∀ s ∈ env.clauses c,
      env.Applied s ∧ ∀ x ∈ s.paramNames, x ∈ (env.getD c default).generics) :
    env.ClausesScoped := by
  have hcl : ∀ c s, s ∈ env.clauses c → c < env.size := by
    intro c s hs
    by_contra hc
    have hnone : env.clauses c = [] := by
      rw [clauses, getD_of_size_le (Nat.le_of_not_lt hc)]
      rfl
    rw [hnone] at hs
    cases hs
  exact ⟨fun c s hs => (h c (hcl c s hs) s hs).1, fun c s hs => (h c (hcl c s hs) s hs).2⟩

theorem Applied.classOf? {t : Ty} (h : env.Applied t) : ∃ c, t.classOf? = some c := by
  obtain ⟨c, args, n, rfl, -⟩ := h
  exact ⟨c, rfl⟩

/-- The nodes that expanding a node queues are applied instances. -/
theorem applied_expand (hsc : env.ClausesScoped) {t : Ty} {d : Nat} {vi : Bool}
    {q : Ty × Nat × Bool} (hq : q ∈ env.expand t d vi) : env.Applied q.1 := by
  obtain ⟨c, s, -, hs, hq1⟩ := mem_expand hq
  rw [hq1]
  exact (hsc.applied c s hs).substitute _

/-- A clause of an applied instance's class, seen from the instance and then substituted, is the
clause seen from the substituted instance. -/
theorem substitute_clause (hsc : env.ClausesScoped) {c : ClassId} {args : List Ty} {n : Bool}
    (hlen : (env.getD c default).generics.length ≤ args.length) (σ : Subst) {s : Ty}
    (hs : s ∈ env.clauses c) :
    (s.substitute ((Ty.obj c args n).substOf env)).substitute σ =
      s.substitute (((Ty.obj c args n).substitute σ).substOf env) :=
  Ty.substitute_substOf_substitute env c n σ hlen (hsc.inScope c s hs)

/-- The direct supertypes of a substituted applied instance are those of the instance,
substituted. -/
theorem supertypes_substitute_eq (hsc : env.ClausesScoped) {t : Ty} (ht : env.Applied t)
    (σ : Subst) :
    env.supertypes (t.substitute σ) =
      ((env.supertypes t).1.map (Ty.substitute σ), (env.supertypes t).2.map (Ty.substitute σ)) := by
  obtain ⟨c, args, n, rfl, hlen⟩ := ht
  have hclause := fun s (hs : s ∈ env.clauses c) => @substitute_clause env hsc c args n hlen σ s hs
  have hcls : ((Ty.obj c args n).substitute σ).classOf? = some c := Ty.classOf?_substitute rfl σ
  simp only [supertypes, hcls]
  simp only [Ty.classOf?, Option.map_map, List.map_map]
  congr 1
  · -- the superclass, if any
    rcases hsup : (env.getD c default).superclass with _ | s
    · rfl
    · have hs : s ∈ env.clauses c := by
        rw [clauses, hsup, Option.toList_some]
        exact List.mem_append_left _ (List.mem_singleton_self s)
      simp [hclause s hs]
  · -- the interfaces
    refine List.map_congr_left fun i hi => ?_
    exact (hclause i (List.mem_append_right _ hi)).symm

/-- **Expanding a substituted node queues the substituted nodes**, at the same distances and
with the same interface marks. -/
theorem expand_substitute (hsc : env.ClausesScoped) {t : Ty} (ht : env.Applied t) (σ : Subst)
    (d : Nat) (vi : Bool) :
    env.expand (t.substitute σ) d vi = (env.expand t d vi).map (Prod.map (Ty.substitute σ) id) := by
  rw [expand, expand, supertypes_substitute_eq hsc ht, List.map_append]
  congr 1
  · cases (env.supertypes t).1 <;> rfl
  · simp only [List.map_map]
    rfl

/-- **The search from substituted nodes runs in lockstep with the search from the nodes**: it
takes the same steps, with the same visited classes, and reports the same view with its type
substituted. The induction is on the step budget; at each node the two runs take the same
branch because a substituted applied instance keeps its class. -/
theorem ancestorSearch_substitute (hsc : env.ClausesScoped) (σ : Subst) (target : ClassId)
    (fuel : Nat) :
    ∀ (queue : List (Ty × Nat × Bool)) (visited : List ClassId), (∀ p ∈ queue, env.Applied p.1) →
      env.ancestorSearch target fuel (queue.map (Prod.map (Ty.substitute σ) id)) visited =
        (env.ancestorSearch target fuel queue visited).map (AncestorView.substitute σ) := by
  induction fuel with
  | zero =>
    intro queue visited _
    simp [ancestorSearch]
  | succ fuel ih =>
    intro queue visited hq
    cases queue with
    | nil => simp [ancestorSearch]
    | cons p rest =>
      obtain ⟨t, d, vi⟩ := p
      have ht : env.Applied t := hq _ List.mem_cons_self
      have hrest : ∀ p ∈ rest, env.Applied p.1 := fun p hp => hq p (List.mem_cons_of_mem _ hp)
      obtain ⟨c, hc⟩ := ht.classOf?
      have hc' := Ty.classOf?_substitute hc σ
      rw [List.map_cons, Prod.map_apply]
      by_cases hcv : c ∈ visited
      · -- a class seen before: both runs drop the node
        rw [ancestorSearch_visited hc' hcv, ancestorSearch_visited hc hcv]
        exact ih rest visited hrest
      by_cases hct : c = target
      · -- the target: both runs report the node
        subst hct
        rw [ancestorSearch_found hc' hcv, ancestorSearch_found hc hcv]
        rfl
      · -- a new class: both runs queue its clauses, seen from the node
        rw [ancestorSearch_expand hc' hcv hct, ancestorSearch_expand hc hcv hct,
          expand_substitute hsc ht, ← List.map_append]
        apply ih
        intro q hq'
        rcases List.mem_append.1 hq' with hq' | hq'
        · exact hrest q hq'
        · exact applied_expand hsc hq'

end ClassEnv

namespace Ty

variable {env : ClassEnv}

/-- **The view of a substituted instance is the substituted view.** -/
theorem ancestor_substitute (hsc : env.ClausesScoped) {t : Ty} (ht : env.Applied t) (σ : Subst)
    (target : ClassId) :
    (t.substitute σ).ancestor env target = (t.ancestor env target).map (AncestorView.substitute σ) := by
  obtain ⟨c, hc⟩ := ht.classOf?
  unfold ancestor
  rw [hc, classOf?_substitute hc σ]
  have hstart : [(t.substitute σ, 0, false)] = [(t, 0, false)].map (Prod.map (substitute σ) id) :=
    rfl
  rw [hstart]
  exact ClassEnv.ancestorSearch_substitute hsc σ target _ _ [] fun p hp => by
    rw [List.mem_singleton.1 hp]
    exact ht

/-- What a caller reads from the views of `t` and of `t.substitute σ` as instances of class
`target`: one exists exactly when the other does, and then the substituted type's view has the
type of `t`'s view with `σ` put in, as `Ty.equal` compares types, at the same reported
distance. -/
def ViewCommutes (env : ClassEnv) (t : Ty) (target : ClassId) (σ : Subst) : Prop :=
  ((t.substitute σ).ancestor env target).isSome = (t.ancestor env target).isSome ∧
    ∀ v v', t.ancestor env target = some v → (t.substitute σ).ancestor env target = some v' →
      v'.type.equal (v.type.substitute σ) = true ∧ v'.reportedDistance = v.reportedDistance

/-- `C<T>`, `I<T>`, `P<K, L>` extending `C<L>` and implementing `I<K[]>`, and `A<U>` extending
`P<U, U?>`. -/
def pairEnv : ClassEnv := #[
  { name := "C", qualifiedName := "C", generics := ["T"] },
  { name := "I", qualifiedName := "I", generics := ["T"] },
  { name := "P", qualifiedName := "P", generics := ["K", "L"],
    superclass := some (.obj 0 [.param "L" false] false),
    interfaces := [.obj 1 [.array (.param "K" false) false] false] },
  { name := "A", qualifiedName := "A", generics := ["U"],
    superclass := some (.obj 2 [.param "U" false, .param "U" true] false) }]

/-- Views of `t` and of `t.substitute σ` whose types differ by more than `σ` break the
commutation. -/
theorem not_viewCommutes_of_views {t : Ty} {target : ClassId} {σ : Subst} {v v' : AncestorView}
    (hv : t.ancestor env target = some v) (hv' : (t.substitute σ).ancestor env target = some v')
    (hne : v'.type ≠ v.type.substitute σ) : ¬ t.ViewCommutes env target σ := fun h =>
  hne ((equal_iff_eq _ _).1 (h.2 v v' hv hv').1)

/-- A class table that breaks each condition of `ClassEnv.ClausesScoped`: `C<T>`; `P<K, L>`
extending `C<L>`; `A<U>` extending `P` without arguments; `D<U>` extending `C<V>`, which names a
parameter `D` does not have; and `E<U>` extending its own parameter `U`. -/
def unscopedEnv : ClassEnv := #[
  { name := "C", qualifiedName := "C", generics := ["T"] },
  { name := "P", qualifiedName := "P", generics := ["K", "L"],
    superclass := some (.obj 0 [.param "L" false] false) },
  { name := "A", qualifiedName := "A", generics := ["U"], superclass := some (.obj 1 [] false) },
  { name := "D", qualifiedName := "D", generics := ["U"],
    superclass := some (.obj 0 [.param "V" false] false) },
  { name := "E", qualifiedName := "E", generics := ["U"], superclass := some (.param "U" false) }]

end Ty

end AmLang
