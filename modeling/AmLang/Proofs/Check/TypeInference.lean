import AmLang.Check.Overload
import AmLang.Proofs.Types.ConversionOrder
/-!
# Inferring the generic arguments of a call

`inferTypeArgs` matches each parameter type of a generic function against its argument's type
(`unify`) and binds each generic parameter to a type met at one of its occurrences. This module
shows that the binding does not depend on the order of the arguments when each parameter has a
widest type among those it meets.

`unify` walks the parameter type and the argument type together, and at each occurrence of a
generic parameter it proposes a value: the type facing it, without its nullable mark when the
occurrence has one. Those proposals (`offers`) depend on the two types only; the binding is a
left fold over them (`unify_eq_foldl`), and each parameter's binding is a fold over its own
proposals alone (`lookup_foldl_offer`). The fold keeps the bound type unless a new value is
strictly wider: the bound type converts to it and it does not convert back (`Ty.rebind`).

So when every proposal converts to one of them and that one converts to no other, the fold ends
at it, whatever the order (`foldl_rebind_widest`). Conversion is antisymmetric on the sized types of a
sound class table (`Ty.canConvert_antisymm`), and unification proposes only such types when the
arguments are sized (`offers_good`): there a proposal that every other converts to converts to
none of them.

## Main results

* `unify_eq_foldl` — unification is a fold of one binding step over its proposals.
* `foldl_rebind_widest` — the fold ends at the widest proposal.
* `inferTypeArgs_widest` — the inferred arguments are the widest types, in every order of the
  arguments.
-/

namespace AmLang

/-! ## What unification proposes -/

mutual

/-- The values that `unify` proposes for the generic parameters `names`, in the order it meets
them, when matching `param` against `arg`. -/
def offers (env : ClassEnv) (names : List String) (param arg : Ty) : List (String × Ty) :=
  if arg.isError || arg.isNever then []
  else match param with
    | .param x nullable =>
      if !names.contains x then []
      else match arg with
        | .null => []
        | _ => [(x, if nullable then arg.withNullable false else arg)]
    | .obj target targs _ =>
      if targs.isEmpty then []
      else match arg with
        | .obj .. => match (arg.withNullable false).ancestor env target with
          | some v => match v.type with
            | .obj _ vargs _ => offersLists env names targs vargs
            | _ => []
          | none => []
        | _ => []
    | .array pe _ => match arg with
      | .array ae _ => offers env names pe ae
      | _ => []
    | .func pps pr _ => match arg with
      | .func aps ar _ => offersLists env names pps aps ++ offers env names pr ar
      | _ => []
    | _ => []

/-- The proposals of two lists matched pointwise, as far as the shorter goes. -/
def offersLists (env : ClassEnv) (names : List String) :
    List Ty → List Ty → List (String × Ty)
  | p :: ps, a :: as => offers env names p a ++ offersLists env names ps as
  | _, _ => []

end

/-- The binding of a parameter after one more proposed value: the first value binds it, and a
later one replaces the bound type when that converts to it and it does not convert back. -/
def Ty.rebind (env : ClassEnv) : Option Ty → Ty → Option Ty
  | none, v => some v
  | some old, v => if !canConvert env v old && canConvert env old v then some v else some old

/-- What `unify` does with one proposal. -/
def Subst.offer (env : ClassEnv) (bound : Subst) (o : String × Ty) : Subst :=
  match bound.lookup o.1 with
  | none => bound.set o.1 o.2
  | some old =>
    if !Ty.canConvert env o.2 old && Ty.canConvert env old o.2 then bound.set o.1 o.2 else bound

section Lists

variable {env : ClassEnv} {names : List String}

@[simp] theorem offersLists_nil_left (as : List Ty) : offersLists env names [] as = [] := rfl

@[simp] theorem offersLists_nil_right (ps : List Ty) : offersLists env names ps [] = [] := by
  cases ps <;> rfl

theorem offersLists_cons_cons (p a : Ty) (ps as : List Ty) :
    offersLists env names (p :: ps) (a :: as) = offers env names p a ++ offersLists env names ps as :=
  rfl

/-- The proposals of two lists are those of their pairs, in order. -/
theorem offersLists_eq_flatMap :
    ∀ ps as : List Ty, offersLists env names ps as = (ps.zip as).flatMap fun p => offers env names p.1 p.2
  | p :: ps, a :: as => by
    rw [offersLists_cons_cons, List.zip_cons_cons, List.flatMap_cons, offersLists_eq_flatMap ps as]
  | [], _ => by rw [offersLists_nil_left, List.zip_nil_left, List.flatMap_nil]
  | _ :: _, [] => by rw [offersLists_nil_right, List.zip_nil_right, List.flatMap_nil]

end Lists

section Unify

variable (env : ClassEnv) (names : List String)

mutual

/-- **Unification is a left fold of one binding step over its proposals.** -/
theorem unify_eq_foldl :
    ∀ (param arg : Ty) (bound : Subst),
      unify env names param arg bound = (offers env names param arg).foldl (Subst.offer env) bound
  | .param x nb, arg, bound => by
    unfold unify offers
    dsimp only
    split
    · rfl
    split
    · rfl
    -- `null` binds nothing; any other type is proposed
    cases arg <;> rfl
  | .obj target targs n, arg, bound => by
    unfold unify offers
    dsimp only
    split
    · rfl
    split
    · rfl
    cases arg with
    | obj c args m =>
      -- the argument seen as an instance of the parameter's class
      cases (Ty.obj c args m |>.withNullable false).ancestor env target with
      | none => rfl
      | some v =>
        dsimp only
        cases v.type with
        | obj _ vargs _ => exact unifyLists_eq_foldl targs vargs bound
        | prim _ _ | array _ _ | func _ _ _ | param _ _ | null | error | never => rfl
    | prim _ _ | array _ _ | func _ _ _ | param _ _ | null | error | never => rfl
  | .array pe n, arg, bound => by
    unfold unify offers
    dsimp only
    split
    · rfl
    cases arg with
    | array ae _ => exact unify_eq_foldl pe ae bound
    | prim _ _ | obj _ _ _ | func _ _ _ | param _ _ | null | error | never => rfl
  | .func pps pr n, arg, bound => by
    unfold unify offers
    dsimp only
    split
    · rfl
    cases arg with
    | func aps ar _ =>
      dsimp only
      rw [List.foldl_append, unifyLists_eq_foldl pps aps bound]
      exact unify_eq_foldl pr ar _
    | prim _ _ | obj _ _ _ | array _ _ | param _ _ | null | error | never => rfl
  | .prim k n, arg, bound => by
    unfold unify offers
    dsimp only
    split <;> rfl
  | .null, arg, bound => by
    unfold unify offers
    dsimp only
    split <;> rfl
  | .error, arg, bound => by
    unfold unify offers
    dsimp only
    split <;> rfl
  | .never, arg, bound => by
    unfold unify offers
    dsimp only
    split <;> rfl

theorem unifyLists_eq_foldl :
    ∀ (ps as : List Ty) (bound : Subst),
      unifyLists env names ps as bound =
        (offersLists env names ps as).foldl (Subst.offer env) bound
  | p :: ps, a :: as, bound => by
    rw [unifyLists, offersLists, List.foldl_append, unify_eq_foldl p a bound]
    exact unifyLists_eq_foldl ps as _
  | [], _, _ => rfl
  | _ :: _, [], _ => rfl

end

end Unify

/-! ## One parameter's binding -/

section Binding

variable {env : ClassEnv}

theorem lookup_offer (bound : Subst) (o : String × Ty) (y : String) :
    (Subst.offer env bound o).lookup y =
      if o.1 = y then Ty.rebind env (bound.lookup o.1) o.2 else bound.lookup y := by
  unfold Subst.offer
  cases hb : bound.lookup o.1 with
  | none => simp only [Subst.lookup_set, Ty.rebind]
  | some old =>
    by_cases hr : (!Ty.canConvert env o.2 old && Ty.canConvert env old o.2) = true
    · simp only [hr, if_true, Subst.lookup_set, Ty.rebind]
    · -- the bound type stays, which is what `rebind` keeps
      simp only [hr, Bool.false_eq_true, if_false, Ty.rebind]
      split
      · next h => rw [← h, hb]
      · rfl

/-- **Each parameter's binding is a fold over its own proposals.** -/
theorem lookup_foldl_offer (os : List (String × Ty)) (bound : Subst) (x : String) :
    (os.foldl (Subst.offer env) bound).lookup x =
      ((os.filter (·.1 == x)).map (·.2)).foldl (Ty.rebind env) (bound.lookup x) := by
  induction os generalizing bound with
  | nil => rfl
  | cons o os ih =>
    rw [List.foldl_cons, ih, lookup_offer]
    by_cases h : o.1 = x
    · subst h
      simp
    · simp [h]

/-- `rebind` either takes the new value or keeps the binding. -/
theorem rebind_cases (o : Option Ty) (v : Ty) : Ty.rebind env o v = some v ∨ Ty.rebind env o v = o := by
  cases o with
  | none => exact .inl rfl
  | some old =>
    by_cases h : (!Ty.canConvert env v old && Ty.canConvert env old v) = true
    · exact .inl (by simp only [Ty.rebind, h, if_true])
    · exact .inr (by simp only [Ty.rebind, h, Bool.false_eq_true, if_false])

/-- A fold of `rebind` ends at its start or at one of its values. -/
theorem foldl_rebind_mem {vs : List Ty} {o : Option Ty} {w : Ty}
    (h : vs.foldl (Ty.rebind env) o = some w) : o = some w ∨ w ∈ vs := by
  induction vs generalizing o with
  | nil => exact .inl h
  | cons v vs ih =>
    rcases ih h with h' | h'
    · rcases rebind_cases o v with hv | hv
      · rw [hv, Option.some.injEq] at h'
        exact .inr (h' ▸ List.mem_cons_self)
      · exact .inl (hv ▸ h')
    · exact .inr (List.mem_cons_of_mem v h')

/-- A binding that every value converts to is kept. -/
theorem foldl_rebind_top {vs : List Ty} {u : Ty} (h : ∀ v ∈ vs, Ty.canConvert env v u = true) :
    vs.foldl (Ty.rebind env) (some u) = some u := by
  induction vs with
  | nil => rfl
  | cons v vs ih =>
    have hv : Ty.rebind env (some u) v = some u := by
      simp [Ty.rebind, h v List.mem_cons_self]
    rw [List.foldl_cons, hv]
    exact ih fun w hw => h w (List.mem_cons_of_mem v hw)

/-- The widest value replaces any binding that converts to it and that it does not convert to,
unless the two are equal. -/
theorem rebind_widest {o : Option Ty} {u : Ty}
    (ho : ∀ w, o = some w → Ty.canConvert env w u = true ∧ (Ty.canConvert env u w = true → w = u)) :
    Ty.rebind env o u = some u := by
  cases o with
  | none => rfl
  | some w =>
    obtain ⟨hwu, huw⟩ := ho w rfl
    by_cases h : Ty.canConvert env u w = true
    · obtain rfl := huw h
      simp only [Ty.rebind, ite_self]
    · simp [Ty.rebind, h, hwu]

/-- **The fold ends at the widest value**, whatever the order: the one that every value converts
to and that converts to no other. -/
theorem foldl_rebind_widest {vs : List Ty} {u : Ty} (hu : u ∈ vs)
    (hall : ∀ v ∈ vs, Ty.canConvert env v u = true)
    (hstrict : ∀ v ∈ vs, Ty.canConvert env u v = true → v = u) :
    vs.foldl (Ty.rebind env) none = some u := by
  obtain ⟨pre, post, rfl⟩ := List.append_of_mem hu
  -- before `u` the binding is one of the values before it, which `u` replaces
  have hpre : ∀ w, pre.foldl (Ty.rebind env) none = some w →
      Ty.canConvert env w u = true ∧ (Ty.canConvert env u w = true → w = u) := by
    intro w hw
    rcases foldl_rebind_mem hw with h | h
    · cases h
    · have hmem : w ∈ pre ++ u :: post := List.mem_append_left _ h
      exact ⟨hall w hmem, hstrict w hmem⟩
  rw [List.foldl_append, List.foldl_cons, rebind_widest hpre]
  exact foldl_rebind_top fun v hv => hall v (List.mem_append_right _ (List.mem_cons_of_mem u hv))

end Binding

/-! ## What the proposals are -/

section Proposals

variable {env : ClassEnv} (names : List String)

/-- One proposal: the argument type, without its nullable mark when the occurrence has one. -/
theorem proposal_good {arg : Ty} (hp : arg.Proper) (ha : arg.sized env = true) (nb : Bool) :
    (if nb then arg.withNullable false else arg).Proper ∧
      (if nb then arg.withNullable false else arg).sized env = true := by
  cases nb
  · exact ⟨hp, ha⟩
  · rw [if_pos rfl, Ty.sized_withNullable]
    exact ⟨(Ty.proper_withNullable arg false).2 hp, ha⟩

mutual

/-- **Unification proposes only sized types that values have**, when the argument type is
sized: never `null`, the error type or the never type. -/
theorem offers_good (hwf : env.Sound) :
    ∀ (param arg : Ty), arg.sized env = true →
      ∀ o ∈ offers env names param arg, o.2.Proper ∧ o.2.sized env = true
  | .param x nb, arg, ha => by
    unfold offers
    dsimp only
    split
    · simp
    next he =>
    split
    · simp
    cases arg
    case null => simp
    all_goals
      simp only [List.mem_singleton, forall_eq]
      exact proposal_good (Ty.proper_of (by simpa using he) (by simp)) ha nb
  | .obj target targs n, arg, ha => by
    unfold offers
    dsimp only
    split
    · simp
    split
    · simp
    cases arg with
    | obj c args m =>
      dsimp only
      cases hv : (Ty.obj c args m |>.withNullable false).ancestor env target with
      | none => simp
      | some v =>
        dsimp only
        -- the arguments of the view of the argument type are sized
        have hvs : v.type.sized env = true :=
          ClassEnv.sized_ancestor hwf (by rw [Ty.sized_withNullable]; exact ha) hv
        cases hvt : v.type with
        | obj _ vargs _ =>
          rw [hvt] at hvs
          simp only [Ty.sized, Bool.and_eq_true] at hvs
          exact offersLists_good hwf targs vargs hvs.2
        | prim _ _ | array _ _ | func _ _ _ | param _ _ | null | error | never => simp
    | prim _ _ | array _ _ | func _ _ _ | param _ _ | null | error | never => simp
  | .array pe n, arg, ha => by
    unfold offers
    dsimp only
    split
    · simp
    cases arg with
    | array ae _ => exact offers_good hwf pe ae ha
    | prim _ _ | obj _ _ _ | func _ _ _ | param _ _ | null | error | never => simp
  | .func pps pr n, arg, ha => by
    unfold offers
    dsimp only
    split
    · simp
    cases arg with
    | func aps ar _ =>
      simp only [Ty.sized, Bool.and_eq_true] at ha
      intro o ho
      rcases List.mem_append.1 ho with ho | ho
      · exact offersLists_good hwf pps aps ha.1 o ho
      · exact offers_good hwf pr ar ha.2 o ho
    | prim _ _ | obj _ _ _ | array _ _ | param _ _ | null | error | never => simp
  | .prim _ _, arg, _ => by
    unfold offers
    split <;> simp
  | .null, arg, _ => by
    unfold offers
    split <;> simp
  | .error, arg, _ => by
    unfold offers
    split <;> simp
  | .never, arg, _ => by
    unfold offers
    split <;> simp

theorem offersLists_good (hwf : env.Sound) :
    ∀ (ps as : List Ty), Ty.sizedAll env as = true →
      ∀ o ∈ offersLists env names ps as, o.2.Proper ∧ o.2.sized env = true
  | p :: ps, a :: as, h => by
    simp only [Ty.sizedAll, Bool.and_eq_true] at h
    intro o ho
    rcases List.mem_append.1 ho with ho | ho
    · exact offers_good hwf p a h.1 o ho
    · exact offersLists_good hwf ps as h.2 o ho
  | [], _, _ => by simp
  | _ :: _, [], _ => by simp

end

end Proposals

/-! ## Inference -/

section Inference

variable {env : ClassEnv} {names : List String}

/-- The types that unification proposes for the generic parameter `x` over all argument
positions, in order. -/
def proposals (env : ClassEnv) (names : List String) (params : List Ty) (args : List Argument)
    (x : String) : List Ty :=
  (((params.zip (args.map (·.type))).flatMap fun p => offers env names p.1 p.2).filter
    (·.1 == x)).map (·.2)

/-- A widest type of a list: one of them, and every one converts to it. -/
def Widest (env : ClassEnv) (vs : List Ty) (u : Ty) : Prop :=
  u ∈ vs ∧ ∀ v ∈ vs, Ty.canConvert env v u = true

/-- Inference binds each parameter to the fold of `rebind` over its proposals. -/
theorem inferTypeArgs_eq (params : List Ty) (args : List Argument) :
    inferTypeArgs env names params args =
      names.mapM fun x => (proposals env names params args x).foldl (Ty.rebind env) none := by
  unfold inferTypeArgs proposals
  dsimp only
  congr 1
  funext x
  rw [unifyLists_eq_foldl, lookup_foldl_offer, offersLists_eq_flatMap]
  rfl

/-- Permuting the (parameter, argument) pairs permutes each parameter's proposals. -/
theorem proposals_perm {params : List Ty} {args : List Argument} {pairs : List (Ty × Argument)}
    (hperm : pairs.Perm (params.zip args)) (x : String) :
    (proposals env names (pairs.map (·.1)) (pairs.map (·.2)) x).Perm
      (proposals env names params args x) := by
  unfold proposals
  have hl : (pairs.map (·.1)).zip ((pairs.map (·.2)).map (·.type)) =
      pairs.map fun p => (p.1, p.2.type) := by
    rw [List.map_map, List.zip_map']
    rfl
  have hr : params.zip (args.map (·.type)) = (params.zip args).map fun p => (p.1, p.2.type) := by
    rw [List.zip_map_right]
    rfl
  rw [hl, hr]
  exact (((hperm.map _).flatMap_right _).filter _).map _

/-- The proposals of sized arguments are sized types that values have. -/
theorem proposals_good (hwf : env.Sound) {params : List Ty} {args : List Argument}
    (hsized : ∀ a ∈ args, a.type.sized env = true) (x : String) :
    ∀ v ∈ proposals env names params args x, v.Proper ∧ v.sized env = true := by
  intro v hv
  unfold proposals at hv
  rw [← offersLists_eq_flatMap] at hv
  obtain ⟨o, ho, rfl⟩ := List.mem_map.1 hv
  have hall : Ty.sizedAll env (args.map (·.type)) = true := by
    rw [Ty.sizedAll_iff]
    intro t ht
    obtain ⟨a, ha, rfl⟩ := List.mem_map.1 ht
    exact hsized a ha
  exact offersLists_good names hwf params _ hall o (List.mem_filter.1 ho).1

theorem Widest.perm {vs ws : List Ty} {u : Ty} (hperm : vs.Perm ws) (h : Widest env ws u) :
    Widest env vs u :=
  ⟨hperm.mem_iff.2 h.1, fun v hv => h.2 v (hperm.mem_iff.1 hv)⟩

/-- The fold over proposals that have a widest one ends there: conversion is antisymmetric on
them, so the widest converts to no other. -/
theorem foldl_rebind_of_widest (hwf : env.Sound) {vs : List Ty} {u : Ty}
    (hgood : ∀ v ∈ vs, v.Proper ∧ v.sized env = true) (hw : Widest env vs u) :
    vs.foldl (Ty.rebind env) none = some u := by
  obtain ⟨hu, hall⟩ := hw
  refine foldl_rebind_widest hu hall fun v hv huv => ?_
  exact Ty.canConvert_antisymm hwf (hgood v hv).1 (hgood u hu).1 (hgood v hv).2 (hgood u hu).2
    (hall v hv) huv

/-- Inference gives each parameter its widest proposal. -/
theorem inferTypeArgs_of_widest (hwf : env.Sound) {params : List Ty} {args : List Argument}
    (hsized : ∀ a ∈ args, a.type.sized env = true) {u : String → Ty}
    (hu : ∀ x ∈ names, Widest env (proposals env names params args x) (u x)) :
    inferTypeArgs env names params args = some (names.map u) := by
  rw [inferTypeArgs_eq]
  -- each lookup succeeds, so `mapM` collects them all
  have hbind : ∀ x ∈ names,
      (proposals env names params args x).foldl (Ty.rebind env) none = some (u x) :=
    fun x hx => foldl_rebind_of_widest hwf (proposals_good hwf hsized x) (hu x hx)
  have hmapM : ∀ l : List String, (∀ x ∈ l,
      (proposals env names params args x).foldl (Ty.rebind env) none = some (u x)) →
      l.mapM (fun x => (proposals env names params args x).foldl (Ty.rebind env) none) =
        some (l.map u) := by
    intro l hl
    induction l with
    | nil => rfl
    | cons x xs ih =>
      rw [List.mapM_cons, hl x List.mem_cons_self,
        ih fun y hy => hl y (List.mem_cons_of_mem x hy)]
      rfl
  exact hmapM names hbind

/-- **Inference does not depend on the order of the arguments** when each generic parameter has
a widest proposal: it binds every parameter to such a type, and every permutation of the
(parameter, argument) pairs gives the same result. The class table and the argument types are
those of a checked program: the table sound, the types sized. -/
theorem inferTypeArgs_widest (hwf : env.Sound) (names : List String) (params : List Ty)
    (args : List Argument) (hsized : ∀ a ∈ args, a.type.sized env = true)
    (hwidest : ∀ x ∈ names, ∃ u, Widest env (proposals env names params args x) u) :
    ∃ us, inferTypeArgs env names params args = some us ∧
      List.Forall₂ (fun x u => Widest env (proposals env names params args x) u) names us ∧
      ∀ pairs : List (Ty × Argument), pairs.Perm (params.zip args) →
        inferTypeArgs env names (pairs.map (·.1)) (pairs.map (·.2)) = some us := by
  choose! u hu using hwidest
  refine ⟨names.map u, inferTypeArgs_of_widest hwf hsized hu, ?_, ?_⟩
  · rw [List.forall₂_map_right_iff, List.forall₂_same]
    exact hu
  · intro pairs hperm
    -- the permuted arguments are the same arguments, and give each parameter the same proposals
    have hsized' : ∀ a ∈ pairs.map (·.2), a.type.sized env = true := by
      intro a ha
      obtain ⟨p, hp, rfl⟩ := List.mem_map.1 ha
      exact hsized p.2 (List.of_mem_zip (hperm.mem_iff.1 hp)).2
    exact inferTypeArgs_of_widest hwf hsized' fun x hx => (hu x hx).perm (proposals_perm hperm x)

/-- The root class, a class `A` extending it, and a class `B` extending `A`. -/
def chainEnv : ClassEnv := #[
  { name := "Object", qualifiedName := "Am.Lang.Object", isRoot := true },
  { name := "A", qualifiedName := "A", superclass := some (.obj 0 [] false) },
  { name := "B", qualifiedName := "B", superclass := some (.obj 1 [] false) }]

theorem chainEnv_clauses (c : ClassId) :
    chainEnv.clauses c =
      if c = 1 then [.obj 0 [] false] else if c = 2 then [.obj 1 [] false] else [] := by
  rcases c with _ | _ | _ | c <;> rfl

theorem chainEnv_root {c : ClassId} (h : (chainEnv.getD c default).isRoot = true) : c = 0 := by
  rcases c with _ | _ | _ | c
  · rfl
  all_goals exact absurd h Bool.false_ne_true

theorem chainEnv_sound : ClassEnv.Sound chainEnv where
  clause_class c s hs := by
    rw [chainEnv_clauses] at hs
    split_ifs at hs <;> simp only [List.mem_singleton, List.not_mem_nil] at hs <;> subst hs <;> rfl
  clause_sized c s hs := by
    rw [chainEnv_clauses] at hs
    split_ifs at hs <;> simp only [List.mem_singleton, List.not_mem_nil] at hs <;> subst hs <;> rfl
  acyclic := ClassEnv.acyclic_of_lt fun c d ⟨s, hs, hd⟩ => by
    -- each class names only the class before it
    rw [chainEnv_clauses] at hs
    split_ifs at hs with h1 h2 <;> simp only [List.mem_singleton, List.not_mem_nil] at hs
    · subst hs h1
      cases hd
      decide
    · subst hs h2
      cases hd
      decide
  root_unique c d hc hd := (chainEnv_root hc).trans (chainEnv_root hd).symm
  root_clauses c h := by
    rw [chainEnv_root h]
    rfl
  root_generics c h := by
    rw [chainEnv_root h]
    rfl

/-- A `B` and an `A` passed to two parameters of one generic type bind it to `A`, in either
order. -/
theorem subclass_meets_superclass_either_order :
    inferTypeArgs chainEnv ["T"] [.param "T" false, .param "T" false]
        [⟨.obj 1 [] false, none⟩, ⟨.obj 2 [] false, none⟩] =
      inferTypeArgs chainEnv ["T"] [.param "T" false, .param "T" false]
        [⟨.obj 2 [] false, none⟩, ⟨.obj 1 [] false, none⟩] := by
  have hprops : proposals chainEnv ["T"] [.param "T" false, .param "T" false]
      [⟨.obj 2 [] false, none⟩, ⟨.obj 1 [] false, none⟩] "T" =
      [.obj 2 [] false, .obj 1 [] false] := rfl
  have hba : Ty.canConvert chainEnv (.obj 2 [] false) (.obj 1 [] false) = true := by
    have h := @Ty.conversionCost_first_direct chainEnv 2 1 [] [] (.obj 1 [] false) false
      (by decide) (by decide) rfl rfl
    unfold Ty.canConvert
    rw [h]
    simp only [Ty.sameArgs, Ty.equalList]
    rfl
  have haa : Ty.canConvert chainEnv (.obj 1 [] false) (.obj 1 [] false) = true := by
    unfold Ty.canConvert
    rw [Ty.conversionCost_self]
    rfl
  obtain ⟨us, h, -, hperm⟩ := inferTypeArgs_widest chainEnv_sound ["T"]
    [.param "T" false, .param "T" false] [⟨.obj 2 [] false, none⟩, ⟨.obj 1 [] false, none⟩]
    (by
      intro a ha
      simp only [List.mem_cons, List.not_mem_nil, or_false] at ha
      rcases ha with rfl | rfl <;> rfl) (by
      intro x hx
      rw [List.mem_singleton] at hx
      subst hx
      refine ⟨.obj 1 [] false, by simp [hprops], ?_⟩
      rw [hprops]
      simp only [List.mem_cons, List.not_mem_nil, or_false, forall_eq_or_imp, forall_eq]
      exact ⟨hba, haa⟩)
  rw [h]
  exact hperm _ (List.Perm.swap _ _ _)

end Inference

end AmLang
