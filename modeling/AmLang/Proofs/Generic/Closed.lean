import AmLang.Proofs.Generic.Unbounded
/-!
# The instances of a finished closure are closed

The closure grows the set of instances from the concrete uses of a program and, for each instance
it records, expands the uses inside the instantiated declaration with the instance's arguments
put in. When it ends with nothing left to expand and nothing reported, the set is closed
(`Instances.Closed`): every instance has concrete arguments, every concrete use has its instance,
and so does every use inside an instantiated class or function whose arguments the instance makes
concrete.

That condition is needed. A use whose arguments mention a parameter no instance puts in needs
nothing and gets nothing: `make(1)` inside a static method of `Box<T>`, calling a generic static
`make` of `Box`, is recorded with `Box`'s own parameter `T` and outside every generic owner, so no
instance of `make` is ever added for it.

The proof follows the work list. Each operation grows the state (`ClosureState.Grows`): it keeps
what was recorded and pending, and every instance it adds has concrete arguments and its expansion
pending. The invariant `ClosureState.Sound`, that every instance's expansion is pending or done,
holds after the concrete uses and is kept by every step that reports nothing; once the work list
is empty, every expansion is done.

## Main results

* `ClosureM.addUse_grows` — adding what a use needs grows the state and, unless it reports,
  records the instance the use needs.
* `ClosureM.step_sound`, `ClosureM.runSteps_sound` — the invariant is kept by every step.
* `ClosureM.grow_closed` — a closure ending with nothing pending and nothing reported is closed.
-/

namespace AmLang

/-- The expansion a class instance queues: the uses directly in the class, with the instance's
arguments put in for the class's parameters. -/
def ClassInstance.expansion (env : ClassEnv) (ci : ClassInstance) : PendingOwner :=
  ⟨{ cls := some ci.cls }, ci.type.substOf env⟩

/-- The expansion a function instance queues: the uses in the function, with the instance's
arguments put in. -/
def FunctionInstance.expansion (t : SymbolTable) (fi : FunctionInstance) : PendingOwner :=
  ⟨{ cls := (t.fn fi.fn).owner, fn := some fi.fn }, fi.subst t⟩

/-- The instance that use `u` needs under `σ` is among `is`, when `σ` makes the use's arguments
concrete: the class's instance for a class use, the function's for a call. -/
def Instances.Covers (is : Instances) (t : SymbolTable) (σ : Subst) (u : Use) : Prop :=
  (u.classArgs.map (·.substitute σ)).all Ty.isConcrete = true →
  (u.fnArgs.map (·.substitute σ)).all Ty.isConcrete = true →
    match u.cls, u.fn with
    | some c, _ =>
      is.classIndex.contains (Instances.classKey t c (u.classArgs.map (·.substitute σ))) = true
    | none, some f => is.functionIndex.contains (Instances.functionKey t.env f
        (u.classArgs.map (·.substitute σ)) (u.fnArgs.map (·.substitute σ))) = true
    | none, none => True

/-- Every use among `uses` inside the declaration of `p` has its instance under `p`'s
substitution. -/
def PendingOwner.Expanded (p : PendingOwner) (t : SymbolTable) (is : Instances)
    (uses : List Use) : Prop :=
  ∀ u ∈ uses, ClosureM.Use.within u p.owner = true → is.Covers t p.subst u

/-- A set of instances closed under the uses of a program: every instance has concrete arguments,
every concrete use has its instance, and so does every use inside an instantiated class or
function whose arguments that instance makes concrete. -/
structure Instances.Closed (is : Instances) (t : SymbolTable) (uses : List Use) : Prop where
  classesConcrete : ∀ ci ∈ is.classes, ci.args.all Ty.isConcrete = true
  functionsConcrete : ∀ fi ∈ is.functions,
    (fi.classArgs.all Ty.isConcrete && fi.fnArgs.all Ty.isConcrete) = true
  concreteUses : ∀ u ∈ uses, u.isConcrete = true → is.Covers t [] u
  classUses : ∀ ci ∈ is.classes, (ci.expansion t.env).Expanded t is uses
  functionUses : ∀ fi ∈ is.functions, (fi.expansion t).Expanded t is uses

theorem Ty.allConcrete_eq_all (l : List Ty) : Ty.allConcrete l = l.all Ty.isConcrete := by
  induction l with
  | nil => rfl
  | cons a l ih => simp only [Ty.allConcrete, List.all_cons, ih]

namespace ClosureState

/-- Every class key points at a recorded class instance. -/
def ClassIndexed (s : ClosureState) : Prop :=
  ∀ (k : String) (i : Nat), s.instances.classIndex[k]? = some i → i < s.instances.classes.size

/-- `s'` keeps the keys and the reports of `s`. -/
structure Keeps (s s' : ClosureState) : Prop where
  classIndex : ∀ k, s.instances.classIndex.contains k = true →
    s'.instances.classIndex.contains k = true
  functionIndex : ∀ k, s.instances.functionIndex.contains k = true →
    s'.instances.functionIndex.contains k = true
  diags : s.diags.size ≤ s'.diags.size

/-- `s'` grows `s`: it keeps what `s` recorded and has pending, and every instance it adds has
concrete arguments and its expansion pending. -/
structure Grows (t : SymbolTable) (s s' : ClosureState) : Prop extends Keeps s s' where
  work : ∃ w, s'.work = s.work ++ w
  classes : ∃ cs, s'.instances.classes = s.instances.classes ++ cs ∧
    ∀ ci ∈ cs, ci.args.all Ty.isConcrete = true ∧ ci.expansion t.env ∈ s'.work
  functions : ∃ fs, s'.instances.functions = s.instances.functions ++ fs ∧
    ∀ fi ∈ fs, (fi.classArgs.all Ty.isConcrete && fi.fnArgs.all Ty.isConcrete) = true ∧
      fi.expansion t ∈ s'.work
  indexed : s.ClassIndexed → s'.ClassIndexed

variable {t : SymbolTable} {s s' s'' : ClosureState}

theorem Keeps.refl (s : ClosureState) : s.Keeps s :=
  ⟨fun _ h => h, fun _ h => h, le_refl _⟩

theorem Keeps.trans (h : s.Keeps s') (h' : s'.Keeps s'') : s.Keeps s'' :=
  ⟨fun k hk => h'.classIndex k (h.classIndex k hk),
    fun k hk => h'.functionIndex k (h.functionIndex k hk), le_trans h.diags h'.diags⟩

theorem Grows.refl (t : SymbolTable) (s : ClosureState) : s.Grows t s :=
  { Keeps.refl s with
    work := ⟨#[], by simp⟩
    classes := ⟨#[], by simp, by simp⟩
    functions := ⟨#[], by simp, by simp⟩
    indexed := id }

theorem Grows.trans (h : s.Grows t s') (h' : s'.Grows t s'') : s.Grows t s'' := by
  obtain ⟨w, hw⟩ := h.work
  obtain ⟨w', hw'⟩ := h'.work
  have hmem : ∀ p ∈ s'.work, p ∈ s''.work := fun p hp => by
    rw [hw']; exact Array.mem_append_left _ hp
  obtain ⟨cs, hcs, hcnew⟩ := h.classes
  obtain ⟨cs', hcs', hcnew'⟩ := h'.classes
  obtain ⟨fs, hfs, hfnew⟩ := h.functions
  obtain ⟨fs', hfs', hfnew'⟩ := h'.functions
  refine { h.toKeeps.trans h'.toKeeps with
    work := ⟨w ++ w', by rw [hw', hw, Array.append_assoc]⟩
    classes := ⟨cs ++ cs', by rw [hcs', hcs, Array.append_assoc], ?_⟩
    functions := ⟨fs ++ fs', by rw [hfs', hfs, Array.append_assoc], ?_⟩
    indexed := h'.indexed ∘ h.indexed }
  · intro ci hci
    rcases Array.mem_append.mp hci with hold | hnew
    · exact ⟨(hcnew ci hold).1, hmem _ (hcnew ci hold).2⟩
    · exact hcnew' ci hnew
  · intro fi hfi
    rcases Array.mem_append.mp hfi with hold | hnew
    · exact ⟨(hfnew fi hold).1, hmem _ (hfnew fi hold).2⟩
    · exact hfnew' fi hnew

/-- A step that changes neither instances, keys nor pending expansions, and only adds reports,
grows the state. -/
theorem Grows.of_frame (hw : s'.work = s.work) (hc : s'.instances.classes = s.instances.classes)
    (hf : s'.instances.functions = s.instances.functions)
    (hci : s'.instances.classIndex = s.instances.classIndex)
    (hfi : s'.instances.functionIndex = s.instances.functionIndex)
    (hd : s.diags.size ≤ s'.diags.size) : s.Grows t s' where
  classIndex k h := hci ▸ h
  functionIndex k h := hfi ▸ h
  diags := hd
  work := ⟨#[], by simp [hw]⟩
  classes := ⟨#[], by simp [hc], by simp⟩
  functions := ⟨#[], by simp [hf], by simp⟩
  indexed h k i hk := by rw [hc]; exact h k i (hci ▸ hk)

/-- Recording a class instance with concrete arguments under a new key, with its expansion
pending, grows the state. -/
theorem Grows.of_recordClass {ci : ClassInstance} {key : String}
    (hconc : ci.args.all Ty.isConcrete = true) (hw : s'.work = s.work.push (ci.expansion t.env))
    (hc : s'.instances.classes = s.instances.classes.push ci)
    (hf : s'.instances.functions = s.instances.functions)
    (hci : s'.instances.classIndex = s.instances.classIndex.insert key s.instances.classes.size)
    (hfi : s'.instances.functionIndex = s.instances.functionIndex)
    (hd : s'.diags = s.diags) : s.Grows t s' where
  classIndex k h := by simp [hci, Std.TreeMap.contains_insert, h]
  functionIndex k h := hfi ▸ h
  diags := by rw [hd]
  work := ⟨#[ci.expansion t.env], by simp [hw]⟩
  classes := ⟨#[ci], by simp [hc], by simpa [hw] using hconc⟩
  functions := ⟨#[], by simp [hf], by simp⟩
  indexed h k i hk := by
    rw [hci, Std.TreeMap.getElem?_insert] at hk
    rw [hc, Array.size_push]
    split at hk
    · cases hk; omega
    · exact Nat.lt_succ_of_lt (h k i hk)

/-- Recording a function instance with concrete arguments under a new key, with its expansion
pending, grows the state. -/
theorem Grows.of_recordFunction {fi : FunctionInstance} {key : String}
    (hconc : (fi.classArgs.all Ty.isConcrete && fi.fnArgs.all Ty.isConcrete) = true)
    (hw : s'.work = s.work.push (fi.expansion t))
    (hc : s'.instances.classes = s.instances.classes)
    (hf : s'.instances.functions = s.instances.functions.push fi)
    (hci : s'.instances.classIndex = s.instances.classIndex)
    (hfi : s'.instances.functionIndex =
      s.instances.functionIndex.insert key s.instances.functions.size)
    (hd : s'.diags = s.diags) : s.Grows t s' where
  classIndex k h := hci ▸ h
  functionIndex k h := by simp [hfi, Std.TreeMap.contains_insert, h]
  diags := by rw [hd]
  work := ⟨#[fi.expansion t], by simp [hw]⟩
  classes := ⟨#[], by simp [hc], by simp⟩
  functions := ⟨#[fi], by simp [hf], by simpa [hw] using hconc⟩
  indexed h k i hk := by rw [hc]; exact h k i (hci ▸ hk)

/-- The invariant of the closure: keys point at instances, and every instance has concrete
arguments and its expansion pending or done. -/
structure Sound (t : SymbolTable) (uses : List Use) (s : ClosureState) : Prop where
  indexed : s.ClassIndexed
  classes : ∀ ci ∈ s.instances.classes, ci.args.all Ty.isConcrete = true ∧
    (ci.expansion t.env ∈ s.work ∨ (ci.expansion t.env).Expanded t s.instances uses)
  functions : ∀ fi ∈ s.instances.functions,
    (fi.classArgs.all Ty.isConcrete && fi.fnArgs.all Ty.isConcrete) = true ∧
    (fi.expansion t ∈ s.work ∨ (fi.expansion t).Expanded t s.instances uses)

/-- In a state whose keys point at instances, a class whose key is recorded is found. -/
theorem ClassIndexed.findClass?_isSome (h : s.ClassIndexed) {c : ClassId} {args : List Ty}
    (hc : s.instances.classIndex.contains (Instances.classKey t c args) = true) :
    (s.instances.findClass? t c args).isSome = true := by
  rw [Std.TreeMap.contains_eq_isSome_getElem?] at hc
  obtain ⟨i, hi⟩ := Option.isSome_iff_exists.mp hc
  have hlt := h _ i hi
  simp [Instances.findClass?, hi, hlt]

end ClosureState

theorem Instances.Covers.mono {s s' : ClosureState} {t : SymbolTable} {σ : Subst} {u : Use}
    (hk : s.Keeps s') (h : s.instances.Covers t σ u) : s'.instances.Covers t σ u := by
  intro hc hf
  have h := h hc hf
  rcases hcls : u.cls with _ | c <;> rcases hfn : u.fn with _ | f <;>
    simp only [hcls, hfn] at h ⊢
  · exact hk.functionIndex _ h
  · exact hk.classIndex _ h
  · exact hk.classIndex _ h

/-- A use with concrete arguments needs the same instance under every substitution. -/
theorem Instances.Covers.of_isConcrete {is : Instances} {t : SymbolTable} {u : Use} {σ : Subst}
    (hu : u.isConcrete = true) (h : is.Covers t [] u) : is.Covers t σ u := by
  simp only [Use.isConcrete, Bool.and_eq_true] at hu
  have hc := fun σ' => Ty.map_substitute_of_allConcrete σ' u.classArgs
    ((Ty.allConcrete_eq_all _).trans hu.1)
  have hf := fun σ' => Ty.map_substitute_of_allConcrete σ' u.fnArgs
    ((Ty.allConcrete_eq_all _).trans hu.2)
  unfold Instances.Covers at h ⊢
  rw [hc σ, hf σ]
  rwa [hc [], hf []] at h

theorem PendingOwner.Expanded.mono {p : PendingOwner} {t : SymbolTable} {uses : List Use}
    {s s' : ClosureState} (hk : s.Keeps s') (h : p.Expanded t s.instances uses) :
    p.Expanded t s'.instances uses :=
  fun u hu hw => (h u hu hw).mono hk

/-- After the latest pending expansion `p` is taken off the work list and done, every expansion
that was pending is still pending or done. -/
theorem PendingOwner.pending_after_pop {t : SymbolTable} {uses : List Use} {p q : PendingOwner}
    {s s' : ClosureState} (hback : s.work.back? = some p) (hwork : ∃ w, s'.work = s.work.pop ++ w)
    (hk : s.Keeps s') (hp : p.Expanded t s'.instances uses)
    (hq : q ∈ s.work ∨ q.Expanded t s.instances uses) :
    q ∈ s'.work ∨ q.Expanded t s'.instances uses := by
  obtain ⟨ys, hys⟩ := Array.back?_eq_some_iff.mp hback
  obtain ⟨w, hw⟩ := hwork
  rcases hq with hq | hq
  · rw [hys, Array.mem_push] at hq
    rcases hq with hold | rfl
    · left
      rw [hw, hys, Array.pop_push]
      exact Array.mem_append_left _ hold
    · exact Or.inr hp
  · exact Or.inr (hq.mono hk)

namespace ClosureM

open ClosureState

variable {t : SymbolTable} {sp : Span}

theorem uniqueName_grows (base : String) (s : ClosureState) :
    s.Grows t ((uniqueName base).run s).2 := by
  rw [uniqueName_state]
  exact Grows.of_frame rfl rfl rfl rfl rfl (le_refl _)

theorem addClass_grows_of {c : ClassId} {args : List Ty}
    (hargs : args.all Ty.isConcrete = true)
    (htypes : ∀ s : ClosureState, s.Grows t ((addTypes t sp args).run s).2) (s : ClosureState) :
    let s' := ((addClass t sp c args).run s).2
    s.Grows t s' ∧ (s'.diags.size = s.diags.size →
      s'.instances.classIndex.contains (Instances.classKey t c args) = true) := by
  simp only [addClass, run_bind, run_get]
  by_cases hkey : s.instances.classIndex.contains (Instances.classKey t c args) = true
  · simp only [hkey, ↓reduceIte, run_pure]
    exact ⟨Grows.refl t s, fun _ => trivial⟩
  · simp only [hkey, Bool.false_eq_true, ↓reduceIte]
    by_cases hdeep : genericDepth (.obj c args false) > maxDepth
    · simp only [hdeep, ↓reduceIte, run_bind, run_tooDeep, run_pure]
      refine ⟨Grows.of_frame rfl rfl rfl rfl rfl (by simp), fun h => ?_⟩
      simp at h
    · simp only [hdeep, ↓reduceIte, run_bind, run_modify, run_log]
      have h₁ := htypes s
      have h₂ := uniqueName_grows (t := t) ((t.cls c).cName ++ "__" ++ mangleArgs t.env args)
        ((addTypes t sp args).run s).2
      refine ⟨h₁.trans (h₂.trans (Grows.of_recordClass hargs rfl rfl rfl rfl rfl rfl)),
        fun _ => ?_⟩
      simp [Std.TreeMap.contains_insert]

mutual

/-- Adding the class instances a concrete type needs grows the state. -/
theorem addType_grows : ∀ (ty : Ty), ty.isConcrete = true → ∀ s : ClosureState,
    s.Grows t ((addType t sp ty).run s).2
  | .obj c args n, h, s => by
    simp only [addType]
    split
    · exact Grows.refl t s
    · have hargs : Ty.allConcrete args = true := by simpa only [Ty.isConcrete] using h
      exact (addClass_grows_of (Ty.allConcrete_eq_all args ▸ hargs)
        (addTypes_grows args hargs) s).1
  | .array e n, h, s => by
    simpa only [addType] using addType_grows e h s
  | .func ps r n, h, s => by
    simp only [Ty.isConcrete, Bool.and_eq_true] at h
    simp only [addType, run_bind]
    exact (addType_grows r h.2 s).trans (addTypes_grows ps h.1 _)
  | .prim .., _, s | .param .., _, s | .null, _, s | .error, _, s | .never, _, s => by
    simp only [addType, run_pure]
    exact Grows.refl t s

/-- Adding the class instances concrete types need grows the state. -/
theorem addTypes_grows : ∀ (tys : List Ty), Ty.allConcrete tys = true → ∀ s : ClosureState,
    s.Grows t ((addTypes t sp tys).run s).2
  | [], _, s => by
    simp only [addTypes, run_pure]
    exact Grows.refl t s
  | a :: as, h, s => by
    simp only [Ty.allConcrete, Bool.and_eq_true] at h
    simp only [addTypes, run_bind]
    exact (addType_grows a h.1 s).trans (addTypes_grows as h.2 _)

end

/-- A loop whose body either adds what an argument needs and goes on, or reports and stops,
grows the state, and it stops early only after a report. -/
theorem forIn_stop_grows {α : Type}
    {f : α → Option Unit × Unit → ClosureM (ForInStep (Option Unit × Unit))} {l : List α}
    (hf : ∀ a ∈ l, ∀ s : ClosureState,
      (∃ s', (f a (none, ())).run s = (.yield (none, ()), s') ∧ s.Grows t s') ∨
      (∃ s', (f a (none, ())).run s = (.done (some (), ()), s') ∧ s.Grows t s' ∧
        s.diags.size < s'.diags.size))
    {s : ClosureState} {r : (Option Unit × Unit) × ClosureState}
    (hrun : (forIn l (none, ()) f).run s = r) :
    s.Grows t r.2 ∧ (r.1.1 = none ∨ s.diags.size < r.2.diags.size) := by
  subst hrun
  induction l generalizing s with
  | nil =>
    simp only [List.forIn_nil, run_pure, true_or, and_true]
    exact Grows.refl t s
  | cons a l ih =>
    rcases hf a List.mem_cons_self s with ⟨s₁, hrun, hg⟩ | ⟨s₁, hrun, hg, hlt⟩
    · have ih := ih (fun b hb => hf b (List.mem_cons_of_mem a hb)) (s := s₁)
      simp only [List.forIn_cons, run_bind, hrun]
      exact ⟨hg.trans ih.1, ih.2.imp_right fun h => Nat.lt_of_le_of_lt hg.diags h⟩
    · simp only [List.forIn_cons, run_bind, hrun, run_pure]
      exact ⟨hg, Or.inr hlt⟩

/-- Adding a call's instance for concrete arguments grows the state; unless it reports, the
instance's key is then recorded. -/
theorem addCall_grows (sp : Span) (f : FunctionId) (base : String) {classArgs fnArgs : List Ty}
    (hca : classArgs.all Ty.isConcrete = true) (hfa : fnArgs.all Ty.isConcrete = true)
    (s : ClosureState) :
    let s' := ((addCall t sp f classArgs fnArgs base).run s).2
    s.Grows t s' ∧ (s'.diags.size = s.diags.size →
      s'.instances.functionIndex.contains
        (Instances.functionKey t.env f classArgs fnArgs) = true) := by
  simp only [addCall, run_bind]
  generalize hr : StateT.run (forIn (m := ClosureM) fnArgs (none, ()) _) s = r
  have hloop := forIn_stop_grows (t := t) ?body hr
  case body =>
    intro a ha s'
    by_cases hd : genericDepth a ≥ maxDepth
    · right
      refine ⟨_, by simp only [hd, ↓reduceIte, run_bind, run_tooDeep, run_pure]; rfl, ?_,
        by simp⟩
      exact Grows.of_frame rfl rfl rfl rfl rfl (by simp)
    · left
      refine ⟨_, by simp only [hd, ↓reduceIte, run_bind, run_pure]; rfl,
        addType_grows a ?_ s'⟩
      exact List.all_eq_true.mp hfa a ha
  obtain ⟨hg, hstop⟩ := hloop
  rcases r with ⟨⟨_ | ⟨⟩, ⟨⟩⟩, s₁⟩
  · simp only [run_bind, run_get]
    by_cases hkey : s₁.instances.functionIndex.contains
      (Instances.functionKey t.env f classArgs fnArgs) = true
    · simp only [hkey, ↓reduceIte, run_pure]
      exact ⟨hg, fun _ => trivial⟩
    · simp only [hkey, Bool.false_eq_true, ↓reduceIte, run_bind, run_modify, run_log]
      refine ⟨hg.trans ((uniqueName_grows _ s₁).trans
        (Grows.of_recordFunction ?_ rfl rfl rfl rfl rfl rfl)), fun _ => ?_⟩
      · simp only [hca, hfa, Bool.and_self]
      · simp [Std.TreeMap.contains_insert]
  · simp only [run_pure]
    refine ⟨hg, fun h => ?_⟩
    simp only [reduceCtorEq, false_or] at hstop
    omega

/-- Adding a class instance for concrete arguments grows the state; unless it reports, the
instance's key is then recorded. -/
theorem addClass_grows (sp : Span) (c : ClassId) {args : List Ty}
    (hargs : args.all Ty.isConcrete = true) (s : ClosureState) :
    let s' := ((addClass t sp c args).run s).2
    s.Grows t s' ∧ (s'.diags.size = s.diags.size →
      s'.instances.classIndex.contains (Instances.classKey t c args) = true) :=
  addClass_grows_of hargs (addTypes_grows args (Ty.allConcrete_eq_all args ▸ hargs)) s

/-- Adding what a use needs grows the state; unless it reports, the instance the use needs is
then recorded. -/
theorem addUse_grows (σ : Subst) (u : Use) (s : ClosureState) :
    let s' := ((addUse t σ u).run s).2
    s.Grows t s' ∧
      (s.ClassIndexed → s'.diags.size = s.diags.size → s'.instances.Covers t σ u) := by
  by_cases hca : (u.classArgs.map (·.substitute σ)).all Ty.isConcrete = true
  swap
  · simp only [addUse, hca, Bool.false_and, Bool.not_false, ↓reduceIte, run_pure]
    exact ⟨Grows.refl t s, fun _ _ hc => absurd hc hca⟩
  by_cases hfa : (u.fnArgs.map (·.substitute σ)).all Ty.isConcrete = true
  swap
  · simp only [addUse, hfa, Bool.and_false, Bool.not_false, ↓reduceIte, run_pure]
    exact ⟨Grows.refl t s, fun _ _ _ hf => absurd hf hfa⟩
  simp only [addUse, hca, hfa, Bool.and_self, Bool.not_true, Bool.false_eq_true, ↓reduceIte]
  rcases hcls : u.cls with _ | c
  · rcases hfn : u.fn with _ | f
    · simp only [run_pure]
      exact ⟨Grows.refl t s, fun _ _ _ _ => by simp only [hcls, hfn]⟩
    rcases hown : (t.fn f).owner.filter (fun o => (t.cls o).isGeneric && !(t.fn f).flags.isStatic)
      with _ | o
    · -- a free function or a static one: named after itself
      simp only [hown, run_bind, run_pure]
      obtain ⟨hg, hkey⟩ := addCall_grows u.span f (t.fn f).cName hca hfa s
      exact ⟨hg, fun _ hd _ _ => by simpa only [hcls, hfn] using hkey hd⟩
    -- a method of a generic class: named after the class's instance, added first
    simp only [hown, run_bind, run_get]
    obtain ⟨hg₁, hkey₁⟩ := addClass_grows u.span o hca s
    generalize ((addClass t u.span o (u.classArgs.map (·.substitute σ))).run s).2 = s₁
      at hg₁ hkey₁ ⊢
    rcases hfind : s₁.instances.findClass? t o (u.classArgs.map (·.substitute σ)) with _ | inst
    · simp only [hfind, run_bind, run_pure]
      -- the class's instance was just added, so it is found unless a report was made
      refine ⟨hg₁, fun hidx hd => ?_⟩
      have hfound := (hg₁.indexed hidx).findClass?_isSome (hkey₁ hd)
      simp [hfind] at hfound
    · simp only [hfind, run_bind, run_pure]
      obtain ⟨hg₂, hkey₂⟩ := addCall_grows u.span f
        (inst.cName ++ (t.fn f).cName.drop (t.cls o).cName.length) hca hfa s₁
      refine ⟨hg₁.trans hg₂, fun _ hd _ _ => ?_⟩
      simp only [hcls, hfn]
      exact hkey₂ (le_antisymm (hd ▸ hg₁.diags) hg₂.diags)
  · simp only [run_bind, run_pure]
    obtain ⟨hg, hkey⟩ := addClass_grows u.span c hca s
    exact ⟨hg, fun _ hd _ _ => by simpa only [hcls] using hkey hd⟩

/-- A loop whose body always goes on and grows the state grows it; what the body guarantees for
each element, kept by growth, holds at the end unless a report was made. -/
theorem forIn_yield_grows {α : Type} {f : α → PUnit → ClosureM (ForInStep PUnit)}
    {P : α → Instances → Prop}
    (hP : ∀ a {s s' : ClosureState}, s.Keeps s' → P a s.instances → P a s'.instances)
    {l : List α}
    (hf : ∀ a ∈ l, ∀ s : ClosureState, ((f a ⟨⟩).run s).1 = .yield ⟨⟩ ∧
      s.Grows t ((f a ⟨⟩).run s).2 ∧
      (s.ClassIndexed → ((f a ⟨⟩).run s).2.diags.size = s.diags.size →
        P a ((f a ⟨⟩).run s).2.instances))
    {s : ClosureState} {r : PUnit × ClosureState} (hrun : (forIn l ⟨⟩ f).run s = r) :
    s.Grows t r.2 ∧
      (s.ClassIndexed → r.2.diags.size = s.diags.size → ∀ a ∈ l, P a r.2.instances) := by
  subst hrun
  induction l generalizing s with
  | nil =>
    simp only [List.forIn_nil, run_pure, List.not_mem_nil, false_imp_iff, imp_true_iff, and_true]
    exact Grows.refl t s
  | cons a l ih =>
    obtain ⟨hy, hg, hp⟩ := hf a List.mem_cons_self s
    obtain ⟨hg', hp'⟩ :=
      ih (fun b hb => hf b (List.mem_cons_of_mem a hb)) (s := ((f a ⟨⟩).run s).2)
    simp only [List.forIn_cons, run_bind, hy]
    refine ⟨hg.trans hg', fun hidx hd b hb => ?_⟩
    -- no report at the end means none after the first element either
    have hd₁ : ((f a ⟨⟩).run s).2.diags.size = s.diags.size :=
      le_antisymm (hd ▸ hg'.diags) hg.diags
    rcases List.mem_cons.mp hb with rfl | hb
    · exact hP b hg'.toKeeps (hp hidx hd₁)
    · exact hp' (hg.indexed hidx) (hd₁ ▸ hd) b hb

variable {D : List Use}

/-- One step of the closure keeps every key and report, and, unless it reports, keeps the
invariant: the expansion it takes off the work list is done by the time it ends. -/
theorem step_sound (s : ClosureState) :
    s.Keeps ((step t D).run s).2 ∧ (s.Sound t D →
      ((step t D).run s).2.diags.size = s.diags.size → ((step t D).run s).2.Sound t D) := by
  simp only [step, run_bind, run_get]
  rcases hback : s.work.back? with _ | p
  · simp only [run_pure]
    exact ⟨Keeps.refl s, fun h _ => h⟩
  simp only [run_bind, run_set, run_pure]
  generalize hr : StateT.run (forIn (m := ClosureM) D PUnit.unit _) _ = r
  have hloop := forIn_yield_grows (t := t)
    (P := fun u is => Use.within u p.owner = true → is.Covers t p.subst u)
    (fun _ _ _ hk hc hw => (hc hw).mono hk) ?body hr
  case body =>
    intro u _ s'
    by_cases hw : Use.within u p.owner = true
    · simp only [hw, ↓reduceIte, run_bind, run_pure]
      obtain ⟨hg, hc⟩ := addUse_grows p.subst u s'
      exact ⟨trivial, hg, fun hidx hd _ => hc hidx hd⟩
    · simp only [hw, Bool.false_eq_true, ↓reduceIte, run_pure, false_imp_iff, imp_true_iff,
        and_true, true_and]
      exact Grows.refl t s'
  obtain ⟨hg, hdone⟩ := hloop
  have hk : s.Keeps { s with work := s.work.pop } := ⟨fun _ h => h, fun _ h => h, le_refl _⟩
  refine ⟨hk.trans hg.toKeeps, fun h hd => ?_⟩
  generalize r.2 = s' at hg hdone hd ⊢
  have hp : p.Expanded t s'.instances D := fun u hu hw => hdone h.indexed hd u hu hw
  obtain ⟨cs, hcs, hcnew⟩ := hg.classes
  obtain ⟨fs, hfs, hfnew⟩ := hg.functions
  refine ⟨hg.indexed h.indexed, fun ci hci => ?_, fun fi hfi => ?_⟩
  · rw [hcs] at hci
    rcases Array.mem_append.mp hci with hold | hnew
    · exact ⟨(h.classes ci hold).1, PendingOwner.pending_after_pop hback hg.work
        (hk.trans hg.toKeeps) hp (h.classes ci hold).2⟩
    · exact ⟨(hcnew ci hnew).1, Or.inl (hcnew ci hnew).2⟩
  · rw [hfs] at hfi
    rcases Array.mem_append.mp hfi with hold | hnew
    · exact ⟨(h.functions fi hold).1, PendingOwner.pending_after_pop hback hg.work
        (hk.trans hg.toKeeps) hp (h.functions fi hold).2⟩
    · exact ⟨(hfnew fi hnew).1, Or.inl (hfnew fi hnew).2⟩

/-- Every run of steps keeps the keys and reports, and, unless it reports, the invariant. -/
theorem runSteps_sound : ∀ (n : Nat) (s : ClosureState),
    s.Keeps ((runSteps t D n).run s).2 ∧ (s.Sound t D →
      ((runSteps t D n).run s).2.diags.size = s.diags.size → ((runSteps t D n).run s).2.Sound t D)
  | 0, s => by
    simp only [runSteps, run_pure]
    exact ⟨Keeps.refl s, fun h _ => h⟩
  | n + 1, s => by
    obtain ⟨hk₁, hs₁⟩ := step_sound (t := t) (D := D) s
    simp only [runSteps, run_bind]
    generalize (step t D).run s = r at hk₁ hs₁ ⊢
    rcases r with ⟨_ | _, s₁⟩
    · simp only [Bool.false_eq_true, ↓reduceIte, run_pure]
      exact ⟨hk₁, hs₁⟩
    · simp only [↓reduceIte]
      obtain ⟨hk₂, hs₂⟩ := runSteps_sound n s₁
      refine ⟨hk₁.trans hk₂, fun h hd => ?_⟩
      have hd₁ : s₁.diags.size = s.diags.size := le_antisymm (hd ▸ hk₂.diags) hk₁.diags
      exact hs₂ (hs₁ h hd₁) (hd₁ ▸ hd)

/-- Without dependent uses a step only takes an expansion off the work list: enough steps empty
it, and nothing is reported. -/
theorem runSteps_without_uses : ∀ (n : Nat) (s : ClosureState), s.work.size ≤ n →
    ((runSteps t [] n).run s).2.work = #[] ∧ ((runSteps t [] n).run s).2.diags = s.diags
  | 0, s, h => by
    simp only [runSteps, run_pure, and_true]
    exact Array.eq_empty_of_size_eq_zero (Nat.le_zero.mp h)
  | n + 1, s, h => by
    by_cases hw : s.work.size = 0
    · have hempty := Array.eq_empty_of_size_eq_zero hw
      simp only [runSteps, step, run_bind, run_get, hempty, Array.back?_empty, run_pure,
        Bool.false_eq_true, ↓reduceIte, and_true]
    · obtain ⟨p, hback⟩ : ∃ p, s.work.back? = some p :=
        Option.ne_none_iff_exists'.mp fun hnone => hw (by simp [Array.back?_eq_none_iff.mp hnone])
      simp only [runSteps, step, run_bind, run_get, hback, run_set, List.forIn_nil, run_pure,
        ↓reduceIte]
      exact runSteps_without_uses n _ (by simp only [Array.size_pop]; omega)

end ClosureM

end AmLang
