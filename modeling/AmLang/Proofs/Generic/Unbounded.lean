import AmLang.Proofs.Generic.Steps
import AmLang.Proofs.Dispatch.Builtins
/-!
# A generic recursion the closure never finishes

`genericDepth` counts the nesting of generic class arguments only: an array or a function type
adds no level. So the bound `maxDepth`, which stops `Box<Box<T>>` inside `Box<T>`, cannot stop a
generic function that calls itself on an array of its parameter,

    fun <T> wrap(x: T) { wrap([x]) }

called once as `wrap(1)`. Each instance `wrap<Int[]…[]>` needs the next one, an array deeper and
still at depth zero; each step of the closure expands the latest and finds a new one. Nothing is
ever reported and an expansion is always pending, so the worklist never empties: the closure
reaches no fixed point however many steps it is given.

## Main results

* `ClosureM.addUse_call_records` — a call of a free generic function on a new argument without
  generic classes records its instance and queues its expansion.
* `ClosureM.grow_selfWrapping_unbounded` — after any number of steps one expansion is pending,
  nothing was reported, and there is one instance more than steps were taken.
* `wrap_closure_never_settles` — the same for `wrap` above, at the steps `close` allows.
-/

namespace AmLang

/-- `t` inside `k` arrays. -/
def Ty.arrayed (t : Ty) : Nat → Ty
  | 0 => t
  | k + 1 => .array (t.arrayed k) false

/-- The call of the generic function `f` on an array of its parameter `x`, inside `f`. -/
def Use.selfWrapping (f : FunctionId) (x : String) (sp : Span) : Use :=
  { fn := some f, fnArgs := [.array (.param x false) false], owner := { fn := some f }, span := sp }

/-- The call of `f` on `a` outside every generic declaration. -/
def Use.entry (f : FunctionId) (a : Ty) (sp : Span) : Use :=
  { fn := some f, fnArgs := [a], span := sp }

namespace Ty

variable {a : Ty}

@[simp] theorem isConcrete_arrayed (k : Nat) : (a.arrayed k).isConcrete = a.isConcrete := by
  induction k with
  | zero => rfl
  | succ k ih => simp [arrayed, isConcrete, ih]

@[simp] theorem genericDepth_arrayed (k : Nat) : genericDepth (a.arrayed k) = genericDepth a := by
  induction k with
  | zero => rfl
  | succ k ih => simp [arrayed, genericDepth, ih]

/-- Each array adds `[]` to the key of a type. -/
theorem length_key_arrayed (env : ClassEnv) (k : Nat) :
    ((a.arrayed k).key env).length = (a.key env).length + 2 * k := by
  induction k with
  | zero => rfl
  | succ k ih =>
    have hbrackets : ("[]" : String).length = 2 := rfl
    simp only [key, arrayed, render, nullMark] at ih ⊢
    simp [ih, hbrackets]
    omega

/-- The self-call's argument under the instance for `a` inside `k` arrays is one array deeper. -/
theorem substitute_selfWrapping (x : String) (k : Nat) :
    (Ty.array (.param x false) false).substitute [(x, a.arrayed k)] = a.arrayed (k + 1) := by
  simp [substitute, Subst.lookup, arrayed]

end Ty

/-- The instance keys of `f` on `a` inside more arrays are longer. -/
theorem length_functionKey_arrayed (env : ClassEnv) (f : FunctionId) (a : Ty) (k : Nat) :
    (Instances.functionKey env f [] [a.arrayed k]).length =
      (Instances.functionKey env f [] [a]).length + 2 * k := by
  simp only [Instances.functionKey, argsKey, List.map_cons, List.map_nil,
    String.length_append]
  simp [Ty.length_key_arrayed]
  omega

namespace ClosureM

variable {t : SymbolTable} {f : FunctionId} {x : String}

/-- A call of the free generic function `f` whose argument, after substitution, is a concrete
type `b` without generic classes and not yet instantiated: the instance `f<b>` is recorded
under its key and its expansion, with `x` standing for `b`, is queued. Nothing is reported. -/
theorem addUse_call_records (hgen : (t.fn f).generics = [x]) (hown : (t.fn f).owner = none)
    {σ : Subst} {u : Use} {b : Ty} (hcls : u.cls = none) (hfn : u.fn = some f)
    (hca : u.classArgs = []) (harg : u.fnArgs.map (·.substitute σ) = [b])
    (hc : b.isConcrete = true) (hd : genericDepth b = 0) {s : ClosureState}
    (hkey : s.instances.functionIndex.contains (Instances.functionKey t.env f [] [b]) = false) :
    let s' := ((addUse t σ u).run s).2
    s'.work = s.work.push ⟨{ fn := some f }, [(x, b)]⟩ ∧ s'.diags = s.diags ∧
      s'.instances.functions.size = s.instances.functions.size + 1 ∧
      s'.instances.functionIndex =
        s.instances.functionIndex.insert (Instances.functionKey t.env f [] [b])
          s.instances.functions.size := by
  have hlt : ¬ maxDepth ≤ genericDepth b := by simp [hd, maxDepth]
  simp only [addUse, addCall, hcls, hfn, hca, harg, hown, List.map_nil, List.all_nil, List.all_cons, hc,
    Option.filter_none]
  simp only [Bool.and_self, Bool.not_true, Bool.false_eq_true, ↓reduceIte, List.forIn_cons,
    List.forIn_nil, run_bind, run_pure, run_get, run_modify, run_log, hlt,
    addType_run_of_depth t u.span b _ hd, hkey, uniqueName_state]
  simp [FunctionInstance.subst, hown, hgen, Subst.set]

/-- The closure `k` steps into the recursion of `f` from `f<a>`: one expansion is pending, that
of `f` on `a` inside `k` arrays; nothing was reported; there are `k + 1` instances, and no key
recorded is longer than the latest one. -/
structure Wrapping (t : SymbolTable) (f : FunctionId) (x : String) (a : Ty) (k : Nat)
    (s : ClosureState) : Prop where
  work : s.work = #[⟨{ fn := some f }, [(x, a.arrayed k)]⟩]
  diags : s.diags = #[]
  size : s.instances.functions.size = k + 1
  keys : ∀ key, s.instances.functionIndex.contains key = true →
    key.length ≤ (Instances.functionKey t.env f [] [a.arrayed k]).length

variable {a : Ty} {k : Nat}

/-- The latest instance's expansion finds the self-call, whose instance one array deeper has a
key longer than every key recorded, so it is new: the recursion goes one step further. -/
theorem Wrapping.next (sp : Span) (hgen : (t.fn f).generics = [x])
    (hown : (t.fn f).owner = none) (hc : a.isConcrete = true) (hd : genericDepth a = 0)
    {s : ClosureState}
    (hw : Wrapping t f x a k s) :
    (ClosureM.step t [Use.selfWrapping f x sp]).run s =
      (true, ((ClosureM.step t [Use.selfWrapping f x sp]).run s).2) ∧
    Wrapping t f x a (k + 1) ((ClosureM.step t [Use.selfWrapping f x sp]).run s).2 := by
  -- the step pops the one pending expansion, whose owner is `f`, then expands the self-call
  let s₀ : ClosureState := { s with work := #[] }
  have hlen := length_functionKey_arrayed t.env f a
  have hkey : s₀.instances.functionIndex.contains
      (Instances.functionKey t.env f [] [a.arrayed (k + 1)]) = false := by
    rw [Bool.eq_false_iff]
    intro hin
    have := hw.keys _ hin
    rw [hlen, hlen] at this
    omega
  obtain ⟨hwork, hdiags, hsize, hindex⟩ := addUse_call_records (σ := [(x, a.arrayed k)])
    (u := Use.selfWrapping f x sp) hgen hown rfl rfl rfl
    (by simp [Use.selfWrapping, Ty.substitute_selfWrapping]) (by simp [hc]) (by simp [hd]) hkey
  have hrun : (ClosureM.step t [Use.selfWrapping f x sp]).run s =
      (true, ((addUse t [(x, a.arrayed k)] (Use.selfWrapping f x sp)).run s₀).2) := by
    simp [ClosureM.step, hw.work, s₀, Use.within, Use.selfWrapping]
    rfl
  rw [hrun]
  refine ⟨rfl, ⟨?_, ?_, ?_, ?_⟩⟩
  · simpa [s₀] using hwork
  · simpa [s₀, hw.diags] using hdiags
  · simp only [s₀] at hsize
    rw [hsize, hw.size]
  · intro key hin
    rw [hindex, Std.TreeMap.contains_insert] at hin
    rcases Bool.or_eq_true_iff.mp hin with heq | hold
    · rw [← Std.compare_eq_iff_eq.mp (beq_iff_eq.mp heq)]
    · have := hw.keys key hold
      rw [hlen] at this ⊢
      omega

/-- Every run of `n` steps of the recursion goes `n` levels deeper and leaves one expansion. -/
theorem Wrapping.run (sp : Span) (hgen : (t.fn f).generics = [x])
    (hown : (t.fn f).owner = none) (hc : a.isConcrete = true) (hd : genericDepth a = 0) (n : Nat) :
    ∀ {k : Nat} {s : ClosureState}, Wrapping t f x a k s →
      Wrapping t f x a (k + n) ((runSteps t [Use.selfWrapping f x sp] n).run s).2 := by
  induction n with
  | zero => intro k s hw; simpa only [ClosureM.runSteps, run_pure, Nat.add_zero] using hw
  | succ n ih =>
    intro k s hw
    obtain ⟨hstep, hnext⟩ := hw.next sp hgen hown hc hd
    have hrun : (runSteps t [Use.selfWrapping f x sp] (n + 1)).run s =
        (runSteps t [Use.selfWrapping f x sp] n).run
          ((ClosureM.step t [Use.selfWrapping f x sp]).run s).2 := by
      rw [ClosureM.runSteps, run_bind, hstep]
      rfl
    rw [hrun, show k + (n + 1) = (k + 1) + n by omega]
    exact ih hnext

/-- The concrete pass records `f<a>` from the empty state: the recursion at depth zero. -/
theorem Wrapping.start (sp₁ : Span) (hgen : (t.fn f).generics = [x])
    (hown : (t.fn f).owner = none) (hc : a.isConcrete = true) (hd : genericDepth a = 0) :
    Wrapping t f x a 0 ((addUse t [] (Use.entry f a sp₁)).run {}).2 := by
  obtain ⟨hwork, hdiags, hsize, hindex⟩ := addUse_call_records (σ := [])
    (u := Use.entry f a sp₁) (s := {}) hgen hown rfl rfl rfl
    (by simp [Use.entry, Ty.substitute_of_isConcrete _ a hc]) hc hd (by simp)
  refine ⟨by simpa [Ty.arrayed] using hwork, by simpa using hdiags, by simpa using hsize, ?_⟩
  intro key hin
  simp [hindex] at hin
  rw [← hin]
  rfl

/-- A program whose only concrete use is `f<a>` and whose only dependent use is `f`'s call of
itself on an array of its parameter: however many steps the closure takes, one expansion is
still pending, nothing was reported, and the instances outnumber the steps by one. The worklist
never empties, so the closure never finishes. -/
theorem grow_selfWrapping_unbounded (hgen : (t.fn f).generics = [x])
    (hown : (t.fn f).owner = none) (hc : a.isConcrete = true) (hd : genericDepth a = 0)
    {logs : List UseLog} {sp sp₁ : Span}
    (hconc : (UseLog.allUses logs).filter Use.isConcrete = [Use.entry f a sp₁])
    (hdep : (UseLog.allUses logs).filter (fun u => !u.isConcrete) = [Use.selfWrapping f x sp])
    (fuel : Nat) :
    let s := ((grow t logs fuel).run {}).2
    s.work.size = 1 ∧ s.diags = #[] ∧ s.instances.functions.size = fuel + 1 := by
  have hrun : (grow t logs fuel).run {} =
      (runSteps t [Use.selfWrapping f x sp] fuel).run ((addUse t [] (Use.entry f a sp₁)).run {}).2 := by
    simp [ClosureM.grow, hconc, hdep]
    rfl
  have hw := Wrapping.run sp hgen hown hc hd fuel (Wrapping.start sp₁ hgen hown hc hd)
  rw [Nat.zero_add] at hw
  simp only [hrun]
  exact ⟨by simp [hw.work], hw.diags, hw.size⟩

end ClosureM

/-- `fun <T> wrap(x: T) { wrap([x]) }` with `wrap(1)` in `main`, whose instances grow without end:
even the steps `close` allows leave an expansion pending, with nothing reported and a million and
one instances. -/
theorem wrap_closure_never_settles :
    let t : SymbolTable :=
      { functions := #[{ name := "wrap", qualifiedName := "wrap", ns := "", generics := ["T"] }] }
    let logs : List UseLog :=
      [{ uses := #[Use.selfWrapping 0 "T" default, Use.entry 0 Ty.int default] }]
    let s := ((ClosureM.grow t logs closureFuel).run {}).2
    s.work.size = 1 ∧ s.diags = #[] ∧ s.instances.functions.size = closureFuel + 1 :=
  ClosureM.grow_selfWrapping_unbounded rfl rfl rfl (by decide) rfl rfl closureFuel

end AmLang
