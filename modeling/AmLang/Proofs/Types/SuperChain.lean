import AmLang.Proofs.Types.Substitution
import AmLang.Proofs.Types.Ancestry
import Mathlib.Algebra.BigOperators.Group.Finset.Basic
/-!
# Superclass chains

Following superclasses from a class type gives a chain of instances, each written in terms of
the one before (`ClassEnv.superChain`). When interface clauses name only interfaces and
interfaces name no superclass (`ClassEnv.Separates`), the only way from a type to a class that
is no interface runs along this chain: the breadth-first ancestor search meets every other node
only at interfaces, so the instance it reports for such a class is the chain's
(`ClassEnv.ancestor_superChain`).

When every superclass clause is a class instance with an argument for each of that class's
parameters and names only its own class's parameters (`ClassEnv.Scoped`), a class's own chain
seen from an instance is the instance's chain from there on
(`ClassEnv.superChain_selfType_substitute`). So a member inherited along the chain is seen from
an instance as it is seen from its class and then from the instance
(`ClassEnv.substitute_superChain_selfType`).

The search's step budget is a weight on the classes not yet visited (`unvisitedWeight`): the
budget starts there, and expanding a class pays for what it queues.
-/

namespace AmLang

namespace ClassEnv

variable {env : ClassEnv}

/-! ## The step budget -/

/-- For each class not yet visited, one step for the class and one for each interface clause. -/
def unvisitedWeight (env : ClassEnv) (visited : List ClassId) : Nat :=
  ∑ c ∈ (Finset.range env.size).filter (· ∉ visited), (1 + (env.getD c default).interfaces.length)

theorem foldl_bound_eq (l : List ClassHeader) (init : Nat) :
    l.foldl (fun n h => n + 1 + h.interfaces.length) init =
      init + ∑ i ∈ Finset.range l.length, (1 + (l.getD i default).interfaces.length) := by
  induction l generalizing init with
  | nil => simp
  | cons h l ih =>
    rw [List.foldl_cons, ih, List.length_cons, Finset.sum_range_succ']
    simp only [List.getD_cons_succ, List.getD_cons_zero]
    omega

/-- The budget is one step for the start and the weight of every class. -/
theorem searchBound_eq : env.searchBound = 1 + env.unvisitedWeight [] := by
  rw [searchBound, ← Array.foldl_toList, foldl_bound_eq, unvisitedWeight, Array.length_toList]
  congr 1
  apply Finset.sum_congr
  · ext c
    simp
  · intro c _
    simp [Array.getD_eq_getD_getElem?, List.getD_eq_getElem?_getD]

/-- The weight a class takes from the budget: nothing for an id past the table. -/
def classWeight (env : ClassEnv) (c : ClassId) : Nat :=
  if c < env.size then 1 + (env.getD c default).interfaces.length else 0

/-- Visiting a new class takes its weight off. -/
theorem unvisitedWeight_cons {c : ClassId} {visited : List ClassId} (hc : c ∉ visited) :
    env.unvisitedWeight visited = env.classWeight c + env.unvisitedWeight (c :: visited) := by
  unfold unvisitedWeight classWeight
  by_cases hlt : c < env.size
  · rw [if_pos hlt]
    have hmem : c ∈ (Finset.range env.size).filter (· ∉ visited) := by simp [hlt, hc]
    have herase : (Finset.range env.size).filter (· ∉ c :: visited) =
        ((Finset.range env.size).filter (· ∉ visited)).erase c := by
      ext d
      simp only [Finset.mem_filter, Finset.mem_range, Finset.mem_erase, List.mem_cons]
      constructor
      · rintro ⟨hd, hne⟩
        exact ⟨fun h => hne (.inl h), hd, fun h => hne (.inr h)⟩
      · rintro ⟨hne, hd, hv⟩
        exact ⟨hd, fun h => h.elim hne hv⟩
    rw [herase]
    exact (Finset.add_sum_erase _ _ hmem).symm
  · rw [if_neg hlt, Nat.zero_add]
    congr 1
    ext d
    simp only [Finset.mem_filter, Finset.mem_range, List.mem_cons]
    constructor
    · rintro ⟨hd, hv⟩
      exact ⟨hd, fun h => h.elim (fun h => hlt (h ▸ hd)) hv⟩
    · rintro ⟨hd, hne⟩
      exact ⟨hd, fun h => hne (.inr h)⟩

theorem getD_of_size_le {c : ClassId} (h : env.size ≤ c) : env.getD c default = default := by
  rw [Array.getD_eq_getD_getElem?, Array.getElem?_eq_none h, Option.getD_none]

/-- Expanding a node of a class queues no more than the class's weight. -/
theorem length_expand_le {t : Ty} {c : ClassId} (ht : t.classOf? = some c) (d : Nat) (vi : Bool) :
    (env.expand t d vi).length ≤ env.classWeight c := by
  obtain ⟨args, n, rfl⟩ : ∃ args n, t = .obj c args n := by
    cases t <;> simp_all [Ty.classOf?]
  unfold classWeight
  by_cases hlt : c < env.size
  · rw [if_pos hlt]
    exact length_expand_obj c args n d vi
  · rw [if_neg hlt]
    simp only [expand, supertypes, Ty.classOf?, getD_of_size_le (Nat.le_of_not_lt hlt)]
    rfl

/-! ## Passing over a node -/

theorem ancestorSearch_not_class {target : ClassId} {t : Ty} {d : Nat} {vi : Bool} {fuel : Nat}
    {rest : List (Ty × Nat × Bool)} {visited : List ClassId} (ht : t.classOf? = none) :
    env.ancestorSearch target (fuel + 1) ((t, d, vi) :: rest) visited =
      env.ancestorSearch target fuel rest visited := by
  rw [ancestorSearch, ht]

theorem ancestorSearch_visited {target c : ClassId} {t : Ty} {d : Nat} {vi : Bool} {fuel : Nat}
    {rest : List (Ty × Nat × Bool)} {visited : List ClassId} (ht : t.classOf? = some c)
    (hc : c ∈ visited) :
    env.ancestorSearch target (fuel + 1) ((t, d, vi) :: rest) visited =
      env.ancestorSearch target fuel rest visited := by
  rw [ancestorSearch, ht]
  simp [hc]

/-! ## Classes and interfaces kept apart -/

/-- Interface clauses name interfaces, as class instances, and interfaces name no superclass;
`iface` tells which classes are interfaces. -/
structure Separates (env : ClassEnv) (iface : ClassId → Bool) : Prop where
  interfaces : ∀ c i, i ∈ (env.getD c default).interfaces →
    ∃ d args n, i = .obj d args n ∧ iface d = true
  no_super : ∀ c, iface c = true → (env.getD c default).superclass = none

/-- A node of the search that is an interface, or of no class at all. -/
def OffChain (iface : ClassId → Bool) (p : Ty × Nat × Bool) : Prop :=
  ∀ e, p.1.classOf? = some e → iface e = true

/-- What an interface node queues is interface nodes. -/
theorem offChain_expand {iface : ClassId → Bool} (hsep : env.Separates iface)
    {p : Ty × Nat × Bool} (hp : OffChain iface p) :
    ∀ q ∈ env.expand p.1 p.2.1 p.2.2, OffChain iface q := by
  obtain ⟨t, d, vi⟩ := p
  intro q hq e he
  rcases hc : t.classOf? with _ | c
  · simp [expand, supertypes, hc] at hq
  have hsup : (env.getD c default).superclass = none := hsep.no_super c (hp c hc)
  simp only [expand, supertypes, hc, hsup, Option.map_none, Option.getD_none, List.nil_append,
    List.map_map, List.mem_map, Function.comp_apply] at hq
  obtain ⟨i, hi, rfl⟩ := hq
  obtain ⟨d', args, n, rfl, hd'⟩ := hsep.interfaces c i hi
  simp only [Ty.substitute, Ty.classOf?, Option.some.injEq] at he
  exact he ▸ hd'

/-! ## The chain -/

/-- The superclass instances from `t` on: `t`, its superclass seen from it, and so on. -/
def superChain (env : ClassEnv) (t : Ty) : Nat → Option Ty
  | 0 => some t
  | k + 1 => (superChain env t k).bind fun u => (env.supertypes u).1

theorem superChain_succ (t : Ty) (k : Nat) :
    env.superChain t (k + 1) = (env.superChain t k).bind fun u => (env.supertypes u).1 := rfl

/-- Superclass clauses are class instances with an argument for each parameter of their class,
written in their own class's parameters. -/
structure Scoped (env : ClassEnv) : Prop where
  superclass : ∀ c s, (env.getD c default).superclass = some s →
    ∃ d args n, s = .obj d args n ∧ (env.getD d default).generics.length ≤ args.length ∧
      ∀ x ∈ s.paramNames, x ∈ (env.getD c default).generics

/-- A class instance with an argument for each parameter of its class. -/
def Applied (env : ClassEnv) (t : Ty) : Prop :=
  ∃ c args n, t = .obj c args n ∧ (env.getD c default).generics.length ≤ args.length

theorem Applied.substitute {t : Ty} (h : env.Applied t) (σ : Subst) : env.Applied (t.substitute σ) := by
  obtain ⟨c, args, n, rfl, hlen⟩ := h
  refine ⟨c, Ty.substituteAll σ args, n, rfl, ?_⟩
  rw [Ty.substituteAll_eq_map, List.length_map]
  exact hlen

/-- The superclass of a class type, seen from it, is an applied instance. -/
theorem applied_supertypes (hsc : env.Scoped) {t s : Ty} (hs : (env.supertypes t).1 = some s) :
    env.Applied s := by
  rcases hc : t.classOf? with _ | c
  · simp [supertypes, hc] at hs
  simp only [supertypes, hc, Option.map_eq_some_iff] at hs
  obtain ⟨s', hs', rfl⟩ := hs
  obtain ⟨d, args, n, rfl, hlen, -⟩ := hsc.superclass c s' hs'
  exact Applied.substitute ⟨d, args, n, rfl, hlen⟩ _

theorem applied_superChain (hsc : env.Scoped) {t u : Ty} {k : Nat}
    (hu : env.superChain t (k + 1) = some u) : env.Applied u := by
  simp only [superChain, Option.bind_eq_some_iff] at hu
  obtain ⟨v, -, hv⟩ := hu
  exact applied_supertypes hsc hv

/-- The chain goes on while there are superclasses: an instance further along has one before. -/
theorem superChain_isSome_of_le {t : Ty} {k j : Nat} (hkj : k ≤ j)
    (hj : (env.superChain t j).isSome) : (env.superChain t k).isSome := by
  induction hkj with
  | refl => exact hj
  | step _ ih =>
    apply ih
    simp only [superChain] at hj
    rcases h : env.superChain t _ with _ | v
    · simp [h] at hj
    · simp

/-- The class of the next instance is the superclass of the class of this one. -/
theorem classOf?_supertypes (hsc : env.Scoped) {t s : Ty} {c : ClassId} (ht : t.classOf? = some c)
    (hs : (env.supertypes t).1 = some s) :
    s.classOf? = (env.getD c default).superclass.bind Ty.classOf? := by
  simp only [supertypes, ht, Option.map_eq_some_iff] at hs
  obtain ⟨s', hs', rfl⟩ := hs
  obtain ⟨d, args, n, rfl, -, -⟩ := hsc.superclass c s' hs'
  rw [hs']
  rfl

/-- The class at step `k` of the chain. -/
def classAt (env : ClassEnv) (t : Ty) (k : Nat) : Option ClassId :=
  (env.superChain t k).bind Ty.classOf?

/-- The chain's classes follow the superclass clauses, so two equal classes have equal classes
after them. -/
theorem classAt_succ (hsc : env.Scoped) (t : Ty) (k : Nat) :
    env.classAt t (k + 1) =
      (env.classAt t k).bind fun c => (env.getD c default).superclass.bind Ty.classOf? := by
  unfold classAt
  rw [superChain_succ]
  rcases hk : env.superChain t k with _ | u
  · rfl
  · simp only [Option.bind_some]
    rcases hc : u.classOf? with _ | c
    · simp only [supertypes, hc]
      rfl
    · simp only [Option.bind_some]
      rcases hs : (env.supertypes u).1 with _ | s
      · simp only [supertypes, hc, Option.map_eq_none_iff] at hs
        rw [hs]
      · rw [Option.bind_some, classOf?_supertypes hsc hc hs]

theorem classAt_add_of_eq (hsc : env.Scoped) {t t' : Ty} {k l : Nat}
    (h : env.classAt t k = env.classAt t' l) (m : Nat) :
    env.classAt t (k + m) = env.classAt t' (l + m) := by
  induction m with
  | zero => exact h
  | succ m ih => rw [← Nat.add_assoc, ← Nat.add_assoc, classAt_succ hsc, classAt_succ hsc, ih]

/-- Before the first step at which the chain reaches a class, no class of the chain repeats:
a repeat would make the chain periodic and reach that class earlier. -/
theorem classAt_ne_of_first (hsc : env.Scoped) {t : Ty} {d : ClassId} {j : Nat}
    (hj : env.classAt t j = some d) (hfirst : ∀ k < j, env.classAt t k ≠ some d)
    {l k : Nat} (hlk : l < k) (hkj : k ≤ j) : env.classAt t l ≠ env.classAt t k := by
  intro heq
  have hshift := classAt_add_of_eq hsc heq (j - k)
  rw [show k + (j - k) = j by omega, hj] at hshift
  exact hfirst (l + (j - k)) (by omega) hshift

/-- Before the chain's last step each node has a superclass, the next node. -/
theorem exists_supertypes_of_lt {t T : Ty} {k j : Nat} (hj : (env.superChain t j).isSome)
    (hkj : k < j) (hT : env.superChain t k = some T) :
    ∃ T', (env.supertypes T).1 = some T' ∧ env.superChain t (k + 1) = some T' := by
  obtain ⟨T', hT'⟩ := Option.isSome_iff_exists.1
    (@superChain_isSome_of_le env t (k + 1) j (Nat.succ_le_of_lt hkj) hj)
  refine ⟨T', ?_, hT'⟩
  rw [superChain_succ, hT, Option.bind_some] at hT'
  exact hT'

/-- Expanding a class node queues its superclass first, then its interfaces. -/
theorem expand_of_supertypes {T T' : Ty} (hsup : (env.supertypes T).1 = some T') (k : Nat) :
    env.expand T k false =
      (T', k + 1, false) :: (env.supertypes T).2.map fun i => (i, k + 1, true) := by
  simp [expand, hsup]

/-- The interfaces a class node queues are interface nodes. -/
theorem offChain_supertypes {iface : ClassId → Bool} (hsep : env.Separates iface) {T : Ty}
    {c : ClassId} (hc : T.classOf? = some c) (k : Nat) :
    ∀ q ∈ (env.supertypes T).2.map (fun i => (i, k + 1, true)), OffChain iface q := by
  intro q hq e he
  simp only [List.mem_map] at hq
  obtain ⟨i, hi, rfl⟩ := hq
  simp only [supertypes, hc, List.mem_map] at hi
  obtain ⟨i', hi', rfl⟩ := hi
  obtain ⟨d', args, n, rfl, hd'⟩ := hsep.interfaces c i' hi'
  simp only [Ty.substitute, Ty.classOf?, Option.some.injEq] at he
  exact he ▸ hd'

/-! ## The search along the chain -/

section Search

variable {iface : ClassId → Bool} (hsep : env.Separates iface) (hsc : env.Scoped)
  {t u : Ty} {d : ClassId} {j : Nat} (hj : env.superChain t j = some u)
  (hu : u.classOf? = some d) (hd : iface d = false)
  (hfirst : ∀ k < j, env.classAt t k ≠ some d)
include hsep hsc hj hu hd hfirst

/-- A node of the chain before the target is a class that is no interface and that no node
before it on the chain has. -/
theorem class_of_superChain {k : Nat} {T : Ty} (hk : k ≤ j) (hT : env.superChain t k = some T) :
    ∃ c, T.classOf? = some c ∧ iface c = false ∧ ∀ l < k, env.classAt t l ≠ some c := by
  have hj' : env.classAt t j = some d := by simp [classAt, hj, hu]
  rcases Nat.lt_or_ge k j with hlt | hge
  · -- the chain goes on after `T`, so `T` has a superclass
    obtain ⟨T', hT', -⟩ := exists_supertypes_of_lt (by simp [hj]) hlt hT
    rcases hc : T.classOf? with _ | c
    · simp [supertypes, hc] at hT'
    have hsup : (env.getD c default).superclass ≠ none := by
      simp only [supertypes, hc, Option.map_eq_some_iff] at hT'
      obtain ⟨s, hs, -⟩ := hT'
      rw [hs]
      exact Option.some_ne_none s
    refine ⟨c, rfl, ?_, fun l hl heq => ?_⟩
    · cases hi : iface c
      · rfl
      · exact absurd (hsep.no_super c hi) hsup
    · exact classAt_ne_of_first hsc hj' hfirst hl (Nat.le_of_lt hlt)
        (heq.trans (by simp [classAt, hT, hc]))
  · have hkj : k = j := Nat.le_antisymm hk hge
    subst hkj
    rw [hj] at hT
    cases hT
    exact ⟨d, hu, hd, hfirst⟩

omit hsep hsc hd in
/-- The chain's node at a step up to `j` is the target at step `j` and a class before it. -/
theorem target_or_before {k : Nat} {T : Ty} {c : ClassId} (hk : k ≤ j)
    (hT : env.superChain t k = some T) (hc : T.classOf? = some c) :
    (c = d ∧ k = j ∧ T = u) ∨ (c ≠ d ∧ k < j) := by
  by_cases hcd : c = d
  · subst hcd
    have hkj : k = j := by
      rcases Nat.lt_or_ge k j with hlt | hge
      · exact absurd (by simp [classAt, hT, hc]) (hfirst k hlt)
      · omega
    subst hkj
    rw [hj] at hT
    exact .inl ⟨rfl, rfl, (Option.some.inj hT).symm⟩
  · refine .inr ⟨hcd, ?_⟩
    rcases Nat.lt_or_ge k j with hlt | hge
    · exact hlt
    · have hkj : k = j := by omega
      subst hkj
      rw [hj, Option.some.injEq] at hT
      subst hT
      rw [hu, Option.some.injEq] at hc
      exact absurd hc.symm hcd

/-- **The breadth-first search reaches the chain's instance of the target.** Whatever interface
nodes stand before and after the chain's current node, and whatever interfaces and earlier
classes of the chain were visited, a budget that covers the queue and the classes not yet
visited finds the target at its first step on the chain, with no interface crossed. -/
theorem ancestorSearch_superChain :
    ∀ (fuel k : Nat) (T : Ty) (pre post : List (Ty × Nat × Bool)) (visited : List ClassId),
      k ≤ j → env.superChain t k = some T →
      (∀ p ∈ pre, OffChain iface p) → (∀ p ∈ post, OffChain iface p) →
      (∀ e ∈ visited, iface e = true ∨ ∃ l < k, env.classAt t l = some e) →
      pre.length + 1 + post.length + env.unvisitedWeight visited ≤ fuel →
      env.ancestorSearch d fuel (pre ++ (T, k, false) :: post) visited = some ⟨u, j, false⟩ := by
  intro fuel
  induction fuel with
  | zero =>
    intro k T pre post visited _ _ _ _ _ hfuel
    omega
  | succ fuel ih =>
    intro k T pre post visited hk hT hpre hpost hvis hfuel
    cases pre with
    | cons p pre =>
      -- an interface node: passed over, or expanded into more interface nodes
      obtain ⟨t', d', vi'⟩ := p
      have hp : OffChain iface (t', d', vi') := hpre _ List.mem_cons_self
      have hpre' : ∀ q ∈ pre, OffChain iface q := fun q hq => hpre q (List.mem_cons_of_mem _ hq)
      rw [List.cons_append]
      rcases hc : t'.classOf? with _ | e
      · rw [ancestorSearch_not_class hc]
        apply ih k T pre post visited hk hT hpre' hpost hvis
        simp only [List.length_cons] at hfuel
        omega
      by_cases he : e ∈ visited
      · rw [ancestorSearch_visited hc he]
        apply ih k T pre post visited hk hT hpre' hpost hvis
        simp only [List.length_cons] at hfuel
        omega
      have hie : iface e = true := hp e hc
      have hed : e ≠ d := fun h => by rw [h, hd] at hie; cases hie
      rw [ancestorSearch_expand hc he hed, List.append_assoc, List.cons_append]
      apply ih k T pre (post ++ env.expand t' d' vi') (e :: visited) hk hT hpre'
      · intro q hq
        rcases List.mem_append.1 hq with hq | hq
        · exact hpost q hq
        · exact offChain_expand hsep hp q hq
      · intro e' he'
        rcases List.mem_cons.1 he' with rfl | he'
        · exact .inl hie
        · exact hvis e' he'
      · have hw := @unvisitedWeight_cons env _ _ he
        have hx := @length_expand_le env _ _ hc d' vi'
        simp only [List.length_cons, List.length_append] at hfuel ⊢
        omega
    | nil =>
      -- the chain's node: the target, or a class whose superclass goes on the chain
      obtain ⟨c, hc, hic, hnew⟩ := class_of_superChain hsep hsc hj hu hd hfirst hk hT
      have hcv : c ∉ visited := by
        intro hcv
        rcases hvis c hcv with h | ⟨l, hl, hlc⟩
        · rw [hic] at h; cases h
        · exact hnew l hl hlc
      rw [List.nil_append]
      rcases target_or_before hj hu hfirst hk hT hc with ⟨rfl, rfl, rfl⟩ | ⟨hcd, hkj⟩
      · exact ancestorSearch_found hc hcv
      obtain ⟨T', hsup, hT'⟩ := exists_supertypes_of_lt (by simp [hj]) hkj hT
      rw [ancestorSearch_expand hc hcv hcd, expand_of_supertypes hsup]
      apply ih (k + 1) T' post _ (c :: visited) hkj hT' hpost (offChain_supertypes hsep hc k)
      · intro e he
        rcases List.mem_cons.1 he with rfl | he
        · exact .inr ⟨k, Nat.lt_succ_self k, by simp [classAt, hT, hc]⟩
        · rcases hvis e he with h | ⟨l, hl, hle⟩
          · exact .inl h
          · exact .inr ⟨l, Nat.lt_succ_of_lt hl, hle⟩
      · have hw := @unvisitedWeight_cons env _ _ hcv
        have hx := @length_expand_le env _ _ hc k false
        rw [expand_of_supertypes hsup] at hx
        simp only [List.length_cons, List.length_nil, List.length_map] at hfuel hx ⊢
        omega

/-- **The ancestor search views a type as the class of its chain at that class's first step**,
when the class is no interface. -/
theorem ancestor_superChain (ht : t.classOf?.isSome) :
    t.ancestor env d = some ⟨u, j, false⟩ := by
  obtain ⟨c0, hc0⟩ := Option.isSome_iff_exists.1 ht
  unfold Ty.ancestor
  rw [hc0]
  apply ancestorSearch_superChain hsep hsc hj hu hd hfirst env.searchBound 0 t [] [] []
    (Nat.zero_le j) rfl (by simp) (by simp) (by simp)
  rw [searchBound_eq]
  simp

end Search

/-! ## A class's chain seen from an instance -/

/-- The superclass of an instance seen through a substitution is the superclass of the
substituted instance. -/
theorem supertypes_substitute (hsc : env.Scoped) {t : Ty} (ht : env.Applied t) (σ : Subst) :
    ((env.supertypes t).1).map (Ty.substitute σ) = (env.supertypes (t.substitute σ)).1 := by
  obtain ⟨c, args, n, rfl, hlen⟩ := ht
  simp only [supertypes, Ty.classOf?, Ty.substitute, Option.map_map]
  rcases hs : (env.getD c default).superclass with _ | s
  · rfl
  · obtain ⟨-, -, -, -, -, hscope⟩ := hsc.superclass c s hs
    simp only [Option.map_some, Function.comp_apply]
    rw [Ty.substitute_substOf_substitute env c n σ hlen hscope, Ty.substitute]

/-- A class's own type has its superclass clause as its superclass. -/
theorem supertypes_selfType (hsc : env.Scoped) (c : ClassId) :
    (env.supertypes (Ty.selfType env c)).1 = (env.getD c default).superclass := by
  simp only [supertypes, Ty.selfType, Ty.classOf?]
  rcases hs : (env.getD c default).superclass with _ | s
  · rfl
  · obtain ⟨-, -, -, -, -, hscope⟩ := hsc.superclass c s hs
    simp only [Option.map_some]
    rw [← Ty.selfType, Ty.substitute_substOf_selfType env c hscope]

/-- **A class's chain seen from an instance is the instance's chain from there on.** -/
theorem superChain_selfType_substitute (hsc : env.Scoped) {t A : Ty} {i : Nat} {c : ClassId}
    (hA : env.superChain t i = some A) (hAc : A.classOf? = some c) :
    ∀ m, (env.superChain (Ty.selfType env c) (m + 1)).map (Ty.substitute (Ty.substOf env A)) =
      env.superChain t (i + m + 1) := by
  intro m
  induction m with
  | zero =>
    obtain ⟨args, n, rfl⟩ : ∃ args n, A = .obj c args n := by
      cases A <;> simp_all [Ty.classOf?]
    simp only [superChain, Option.bind_some, supertypes_selfType hsc, hA]
    simp [supertypes, Ty.classOf?]
  | succ m ih =>
    rw [show i + (m + 1) + 1 = (i + m + 1) + 1 by omega, superChain_succ _ (m + 1),
      superChain_succ _ (i + m + 1), ← ih]
    rcases hS : env.superChain (Ty.selfType env c) (m + 1) with _ | Y
    · rfl
    · simp only [Option.bind_some, Option.map_some]
      exact supertypes_substitute hsc (applied_superChain hsc hS) _

/-- **A member inherited along the chain is seen from an instance as from its class, then from
the instance.** A type written in the parameters of the class at step `m + 1` of class `c`'s
chain, seen from that step and then from an instance `A` of `c` at step `i` of `t`'s chain, is
the type seen from step `i + m + 1` of `t`'s chain. -/
theorem substitute_superChain_selfType (hsc : env.Scoped) {t A S : Ty} {i m : Nat} {c o : ClassId}
    (hA : env.superChain t i = some A) (hAc : A.classOf? = some c)
    (hS : env.superChain (Ty.selfType env c) (m + 1) = some S) (hSo : S.classOf? = some o)
    {p : Ty} (hp : ∀ x ∈ p.paramNames, x ∈ (env.getD o default).generics) :
    ∃ B, env.superChain t (i + m + 1) = some B ∧
      (p.substitute (Ty.substOf env S)).substitute (Ty.substOf env A) =
        p.substitute (Ty.substOf env B) := by
  have hchain := superChain_selfType_substitute hsc hA hAc m
  rw [hS, Option.map_some] at hchain
  refine ⟨S.substitute (Ty.substOf env A), hchain.symm, ?_⟩
  obtain ⟨o', args, n, rfl, hlen⟩ := applied_superChain hsc hS
  simp only [Ty.classOf?, Option.some.injEq] at hSo
  subst hSo
  exact Ty.substitute_substOf_substitute env o' n _ hlen hp

end ClassEnv

end AmLang
