import AmLang.Types.Conversion
import AmLang.Proofs.Dispatch.Builtins
/-!
# Which instance of an ancestor a class converts to

`Ty.ancestor` searches the supertype graph breadth first and stops at the first node of the
target class. The first nodes it queues are a class's direct supertypes, the superclass and then
the interfaces in the order they are declared; so when one of them is an instance of the target
class the search ends there, and the class converts to the target class at that instance only.
An instance of the same class that an ancestor names is never reached.

Conversion cost is therefore not transitive. If `C` extends `B`, `B` implements `I<Int>` and `C`
implements `I<Bool>`, then `C` converts to `B` and `B` to `I<Int>`, but `C` does not convert to
`I<Int>` (`hidden_instance_breaks_transitivity`).

## Main results

* `ancestorSearch_expand`, `ancestorSearch_pass_all`, `ancestorSearch_found` — what one node
  of the queue does, and a run over a prefix of nodes of other classes.
* `le_searchBound` — the search's step budget covers a class and all its direct supertypes.
* `ancestor_first_direct` — the search stops at the first direct supertype of the target class.
* `conversionCost_first_direct` — a class converts to that class only at that instance.
* `conversionCost_self` — every type converts to itself for free.
-/

namespace AmLang

namespace ClassEnv

/-- The nodes the search queues after expanding `(t, d, vi)`: the superclass, then the
interfaces, one step further, each interface marked as crossing an interface clause. -/
def expand (env : ClassEnv) (t : Ty) (d : Nat) (vi : Bool) : List (Ty × Nat × Bool) :=
  ((env.supertypes t).1.map fun s => [(s, d + 1, vi)]).getD [] ++
    (env.supertypes t).2.map fun i => (i, d + 1, true)

variable {env : ClassEnv} {target : ClassId}

/-! ## One node of the queue -/

/-- A node of the target class that was not visited ends the search. -/
theorem ancestorSearch_found {t : Ty} {d : Nat} {vi : Bool} {fuel : Nat}
    {rest : List (Ty × Nat × Bool)} {visited : List ClassId} (ht : t.classOf? = some target)
    (hv : target ∉ visited) :
    env.ancestorSearch target (fuel + 1) ((t, d, vi) :: rest) visited = some ⟨t, d, vi⟩ := by
  rw [ancestorSearch, ht]
  simp [hv]

/-- A node of a new class other than the target is expanded: its supertypes go to the back of
the queue and its class is visited. -/
theorem ancestorSearch_expand {t : Ty} {c : ClassId} {d : Nat} {vi : Bool} {fuel : Nat}
    {rest : List (Ty × Nat × Bool)} {visited : List ClassId} (ht : t.classOf? = some c)
    (hcv : c ∉ visited) (hct : c ≠ target) :
    env.ancestorSearch target (fuel + 1) ((t, d, vi) :: rest) visited =
      env.ancestorSearch target fuel (rest ++ env.expand t d vi) (c :: visited) := by
  rw [ancestorSearch, ht]
  simp only [List.contains_iff_mem, hcv, if_false, beq_iff_eq, hct]
  rfl

/-- A node of another class is passed over: the search goes on with the rest of the queue and
perhaps more nodes behind it, and the target class is still not visited. -/
theorem ancestorSearch_pass {t : Ty} {d : Nat} {vi : Bool} {fuel : Nat}
    {rest : List (Ty × Nat × Bool)} {visited : List ClassId} (ht : t.classOf? ≠ some target) :
    ∃ extra visited', env.ancestorSearch target (fuel + 1) ((t, d, vi) :: rest) visited =
      env.ancestorSearch target fuel (rest ++ extra) visited' ∧
      (target ∈ visited' → target ∈ visited) := by
  rcases hc : t.classOf? with _ | c
  · -- not a class type: dropped
    refine ⟨[], visited, ?_, id⟩
    rw [ancestorSearch, hc, List.append_nil]
  have hct : c ≠ target := fun h => ht (h ▸ hc)
  by_cases hcv : c ∈ visited
  · -- a class already visited: dropped
    refine ⟨[], visited, ?_, id⟩
    rw [ancestorSearch, hc]
    simp [hcv]
  · refine ⟨env.expand t d vi, c :: visited, ancestorSearch_expand hc hcv hct, ?_⟩
    intro hmem
    rcases List.mem_cons.1 hmem with h | h
    · exact absurd h.symm hct
    · exact h

/-- Nodes of other classes at the front of the queue are passed over one by one, each taking
one step of the budget. -/
theorem ancestorSearch_pass_all :
    ∀ (pre post : List (Ty × Nat × Bool)) (fuel : Nat) (visited : List ClassId),
      (∀ p ∈ pre, p.1.classOf? ≠ some target) →
      ∃ extra visited', env.ancestorSearch target (fuel + pre.length) (pre ++ post) visited =
        env.ancestorSearch target fuel (post ++ extra) visited' ∧
        (target ∈ visited' → target ∈ visited)
  | [], post, fuel, visited, _ => ⟨[], visited, by simp, id⟩
  | (t, d, vi) :: pre, post, fuel, visited, hpre => by
    obtain ⟨extra, visited', hstep, hvis⟩ := @ancestorSearch_pass env target t d vi
      (fuel + pre.length) (pre ++ post) visited (hpre (t, d, vi) List.mem_cons_self)
    obtain ⟨extra', visited'', hrun, hvis'⟩ :=
      ancestorSearch_pass_all pre (post ++ extra) fuel visited'
        fun p hp => hpre p (List.mem_cons_of_mem _ hp)
    refine ⟨extra ++ extra', visited'', ?_, hvis ∘ hvis'⟩
    rw [List.length_cons, ← Nat.add_assoc, List.cons_append, hstep, List.append_assoc, hrun,
      List.append_assoc]

/-! ## The step budget -/

/-- Folding the bound over a list of classes gives at least each class's share. -/
theorem le_foldl_bound (l : List ClassHeader) (init : Nat) :
    init ≤ l.foldl (fun n h => n + 1 + h.interfaces.length) init := by
  induction l generalizing init with
  | nil => exact le_rfl
  | cons x l ih => exact Nat.le_trans (by omega) (ih (init + 1 + x.interfaces.length))

theorem share_le_foldl_bound {h : ClassHeader} {l : List ClassHeader} (hmem : h ∈ l)
    (init : Nat) :
    init + 1 + h.interfaces.length ≤ l.foldl (fun n h => n + 1 + h.interfaces.length) init := by
  induction l generalizing init with
  | nil => cases hmem
  | cons x l ih =>
    rcases List.mem_cons.1 hmem with rfl | hmem
    · exact le_foldl_bound l _
    · exact Nat.le_trans (by omega) (ih hmem (init + 1 + x.interfaces.length))

/-- The step budget lets the search take a class and every one of its direct supertypes. -/
theorem le_searchBound {c : ClassId} (hc : c < env.size) :
    2 + (env.getD c default).interfaces.length ≤ env.searchBound := by
  have hmem : env.getD c default ∈ env.toList := by
    rw [Array.getD_eq_getD_getElem?, Array.getElem?_eq_getElem hc, Option.getD_some]
    exact Array.getElem_mem_toList hc
  have := share_le_foldl_bound hmem 1
  rw [searchBound, ← Array.foldl_toList]
  omega

theorem length_expand_obj (c : ClassId) (args : List Ty) (n : Bool) (d : Nat) (vi : Bool) :
    (env.expand (.obj c args n) d vi).length ≤ 1 + (env.getD c default).interfaces.length := by
  simp only [expand, supertypes, Ty.classOf?, List.length_append, List.length_map]
  cases (env.getD c default).superclass <;> simp

/-! ## The first direct instance -/

/-- **The search stops at the first direct supertype of the target class.** The class's own
supertypes are queued first, one step away; nodes of other classes before it are passed over,
and the target class is not visited yet when it is reached. -/
theorem ancestor_first_direct {c : ClassId} {args : List Ty} {n : Bool} {u : Ty} {vi : Bool}
    (hc : c < env.size) (hct : c ≠ target)
    (hfirst : (env.expand (.obj c args n) 0 false).find? (·.1.classOf? == some target) =
      some (u, 1, vi)) :
    (Ty.obj c args n).ancestor env target = some ⟨u, 1, vi⟩ := by
  obtain ⟨hu, pre, post, hsplit, hpre⟩ := List.find?_eq_some_iff_append.1 hfirst
  have hpre' : ∀ p ∈ pre, p.1.classOf? ≠ some target := by
    intro p hp
    simpa using hpre p hp
  -- the budget covers the class, the nodes before the instance, and the instance
  have hlen : pre.length + 1 ≤ (env.expand (.obj c args n) 0 false).length := by
    rw [hsplit, List.length_append, List.length_cons]
    omega
  have hbound := le_searchBound hc
  have hexp := @length_expand_obj env c args n 0 false
  obtain ⟨k, hk⟩ : ∃ k, env.searchBound = k + 1 + pre.length + 1 :=
    ⟨env.searchBound - (pre.length + 2), by omega⟩
  unfold Ty.ancestor
  simp only [Ty.classOf?]
  rw [hk, ancestorSearch_expand rfl List.not_mem_nil hct, List.nil_append, hsplit]
  obtain ⟨extra, visited', hrun, hvis⟩ :=
    @ancestorSearch_pass_all env target pre ((u, 1, vi) :: post) (k + 1) [c] hpre'
  rw [hrun, List.cons_append]
  refine ancestorSearch_found (by simpa using hu) fun hmem => ?_
  exact hct (List.mem_singleton.1 (hvis hmem)).symm

end ClassEnv

namespace Ty

/-- **A class converts to another class only at its first direct instance.** When one of the
direct supertypes of class `c` is an instance of class `i`, the first such, `u`, decides: `c`
converts to an instance of `i` exactly when its arguments are those of `u`, whatever instances of
`i` the ancestors of `c` name. -/
theorem conversionCost_first_direct {env : ClassEnv} {c i : ClassId} {args bs : List Ty} {u : Ty}
    {vi : Bool} (hc : c < env.size) (hci : c ≠ i) (hroot : (env.getD i default).isRoot = false)
    (hfirst : (env.expand (.obj c args false) 0 false).find? (·.1.classOf? == some i) =
      some (u, 1, vi)) :
    conversionCost env (.obj c args false) (.obj i bs false) =
      if sameArgs u (.obj i bs false) then some (if vi then interfaceCost else 2) else none := by
  have hanc := ClassEnv.ancestor_first_direct hc hci hfirst
  unfold conversionCost baseCost
  simp only [isError, isNever, nullable, classOf?, hroot, withNullable, hanc, beq_iff_eq, hci,
    Bool.or_false, Bool.false_and, Bool.and_false, Bool.false_eq_true, if_false, Nat.add_zero,
    Nat.mul_one, Option.map_id']

/-- The classes `Object`, an interface `I<T>`, `B` extending `Object` with `I<Int>`, and `C`
extending `B` with `I<Bool>`. -/
def hiddenInstanceEnv : ClassEnv := #[
  { name := "Object", qualifiedName := "Am.Lang.Object", isRoot := true },
  { name := "I", qualifiedName := "I", generics := ["T"] },
  { name := "B", qualifiedName := "B", superclass := some (.obj 0 [] false),
    interfaces := [.obj 1 [.int] false] },
  { name := "C", qualifiedName := "C", superclass := some (.obj 2 [] false),
    interfaces := [.obj 1 [.bool] false] }]

/-- `C` converts to `B` and `B` to `I<Int>`, but `C` does not convert to `I<Int>`: its own
`I<Bool>` is met first and hides the instance that `B` names. -/
theorem hidden_instance_breaks_transitivity :
    conversionCost hiddenInstanceEnv (.obj 3 [] false) (.obj 2 [] false) = some 2 ∧
      conversionCost hiddenInstanceEnv (.obj 2 [] false) (.obj 1 [.int] false) =
        some interfaceCost ∧
      conversionCost hiddenInstanceEnv (.obj 3 [] false) (.obj 1 [.int] false) = none := by
  have hcb := @conversionCost_first_direct hiddenInstanceEnv 3 2 [] [] (.obj 2 [] false) false
    (by decide) (by decide) rfl rfl
  have hbi := @conversionCost_first_direct hiddenInstanceEnv 2 1 [] [.int] (.obj 1 [.int] false)
    true (by decide) (by decide) rfl rfl
  have hci := @conversionCost_first_direct hiddenInstanceEnv 3 1 [] [.int] (.obj 1 [.bool] false)
    true (by decide) (by decide) rfl rfl
  rw [hcb, hbi, hci]
  simp only [sameArgs, equalList, equal, equalShape, nullable, int, bool]
  decide

/-! ## Reflexivity -/

theorem baseCost_self (env : ClassEnv) (t : Ty) : baseCost env t t = some 0 := by
  unfold baseCost
  cases t with
  | prim k n => cases k <;> rfl
  | obj c args n =>
    simp only [classOf?]
    -- a root class converts to itself as the root, any other class as itself
    by_cases hr : (env.getD c default).isRoot = true
    · simp only [hr, if_true]
    · simp only [hr, Bool.false_eq_true, if_false]
      simp [sameArgs, equalList_self]
  | _ => simp [classOf?, equalShape_self]

/-- **Every type converts to itself for free.** -/
theorem conversionCost_self (env : ClassEnv) (t : Ty) : conversionCost env t t = some 0 := by
  unfold conversionCost
  cases t <;> simp [isError, isNever, nullable, baseCost_self]

end Ty

end AmLang
