import AmLang.Proofs.Emit.CIntegers
import AmLang.Run.Eval
/-!
# Counted loops

A counted loop `for x in lo..hi` runs its body once for each value of the closed range, in
order, without ever stepping its variable past the end: a loop up to the largest value of its
type ends there rather than wrapping round. The loop does not compare the variable with the end
before each round as a `<=` test would; it keeps a flag `more`, which starts as `lo <= hi` and
is recomputed as `x != hi` before each body, and it adds the flag (as `0` or `1`) to the variable
after the body. The variable so moves to the next value below `hi`, stays at `hi` after the last
round, and the sum never leaves the type (`Value.arith_add_step`).

`countedLoop` is the loop in closed form, whose round `i` runs with the variable at `a + i` while
`a + i ≤ b`. `execStmt_forRange_counted` shows the evaluator's loop equal to it, by a simulation
of the two loops round by round (`RoundRel`, `forIn_range'_agrees`). Its invariant `CountedInv`
ties the flag to `a + i ≤ b` and the variable to `a + i`, and one round of the evaluator's loop
(`forRangeRound`) passes it on (`forRangeRound_agrees`) when the body leaves the variable alone.
Within the loop bound the closed form is `rangeRun` over the list `a, a + 1, …, b`
(`countedLoop_eq_rangeRun`), so the body runs `max 0 (b - a + 1)` times, `continue` goes on to
the next value and `break` leaves the loop.
-/
namespace AmLang

namespace CInt

/-- Reduction into the range of an integer type leaves a value of the type alone. -/
theorem wrap_of_mem {t : CInt} {v : Int} (h : t.InRange v) : t.prim.wrap v = v := by
  rw [← convert_eq_wrap, convert_of_mem h]

/-- A value between two values of an integer type is a value of the type. -/
theorem InRange.of_between {t : CInt} {a b v : Int} (ha : t.InRange a) (hb : t.InRange b)
    (hav : a ≤ v) (hvb : v ≤ b) : t.InRange v := by
  unfold InRange at *
  split at ha <;> simp_all only [if_true, if_false, Bool.false_eq_true] <;> omega

end CInt

namespace Value

/-- Integers compare as the integers they are. -/
theorem compare_le_int (a b : Int) : compare .le (.int a) (.int b) = decide (a ≤ b) := rfl

theorem compare_eq_int (a b : Int) : compare .eq (.int a) (.int b) = (a == b) := rfl

/-- An integer type holds `0` and `1` as they are. -/
theorem convert_bit {t : CInt} {s : Int} (hs : s = 0 ∨ s = 1) :
    (Value.int s).convert .int t.prim = .int s := by
  rcases hs with rfl | rfl <;> cases t <;> rfl

/-- Adding the step of a counted loop to its variable at `v`, between the bounds `a` and `b` of
its integer type: the flag `v != b` is `1` below `b` and `0` at it, so the sum is the next value,
or `b` again, and never leaves the type. -/
theorem arith_add_step {t : CInt} {a b v : Int} (ha : t.InRange a) (hb : t.InRange b)
    (hav : a ≤ v) (hvb : v ≤ b) :
    arith .add t.prim (.int v)
        ((Value.int (if (!compare .eq (.int v) (.int b)) = true then 1 else 0)).convert .int
          t.prim) =
      some (.int (min (v + 1) b)) := by
  have hnext : min (v + 1) b = v + (if (!compare .eq (.int v) (.int b)) = true then 1 else 0) := by
    simp only [compare_eq_int, Bool.not_eq_true', beq_eq_false_iff_ne, ne_eq]
    split <;> omega
  rw [convert_bit (by split <;> simp), hnext]
  show some (Value.int (t.prim.wrap _)) = _
  rw [CInt.wrap_of_mem (hnext ▸ CInt.InRange.of_between ha hb (by omega) (by omega))]
  rfl

end Value

namespace RunM

variable {α β σ τ : Type}

/-- A bind runs its first part, then the rest from the machine the first part leaves, unless the
first part stops. -/
theorem run_bind (x : RunM α) (f : α → RunM β) (m : Machine) :
    (x >>= f).run.run m = match x.run.run m with
      | (.ok a, m') => (f a).run.run m'
      | (.error e, m') => (.error e, m') := by
  rw [ExceptT.run_bind, StateT.run_bind]
  rcases x.run.run m with ⟨_ | _, m'⟩ <;> rfl

theorem run_pure (a : α) (m : Machine) : (pure a : RunM α).run.run m = (.ok a, m) := rfl

theorem run_setLocal (x : LocalId) (v : Value) (m : Machine) :
    (setLocal x v).run.run m =
      (.ok (), { m with frame := { m.frame with locals := m.frame.locals.insert x v } }) := rfl

theorem run_getLocal (x : LocalId) (m : Machine) :
    (getLocal x).run.run m = (.ok ((m.frame.locals[x]?).getD .null), m) := rfl

theorem run_get (m : Machine) : (get : RunM Machine).run.run m = (.ok m, m) := rfl

theorem run_typeOf (e : TypedExpr) (m : Machine) :
    (typeOf e).run.run m =
      (.ok (if m.frame.subst.isEmpty then e.type else e.type.substitute m.frame.subst), m) := rfl

/-- A step of the budget leaves the running frame alone. -/
theorem tick_frame (m : Machine) : (tick.run.run m).2.frame = m.frame := by
  unfold tick
  rw [run_bind, run_get]
  dsimp only
  split <;> rfl

/-- How a round of one loop and a round of another, run from the same machine, agree seen
through `proj`: both stop in the same way, or both finish, or both go on with the projected state,
on the same machine; a round that goes on leaves its state and machine in `next`. -/
inductive RoundRel (proj : σ → τ) (next : σ → Machine → Prop) :
    Except Stop (ForInStep σ) × Machine → Except Stop (ForInStep τ) × Machine → Prop
  | stop (e : Stop) (m : Machine) : RoundRel proj next (.error e, m) (.error e, m)
  | done (s : σ) (m : Machine) : RoundRel proj next (.ok (.done s), m) (.ok (.done (proj s)), m)
  | yield (s : σ) (m : Machine) (h : next s m) :
      RoundRel proj next (.ok (.yield s), m) (.ok (.yield (proj s)), m)

/-- Loops over consecutive rounds whose rounds agree, from an invariant that each round passes on
to the next, agree, and so do their continuations when these read only the projected state. -/
theorem forIn_range'_agrees (proj : σ → τ) (inv : Nat → σ → Machine → Prop)
    {f : Nat → σ → RunM (ForInStep σ)} {g : Nat → τ → RunM (ForInStep τ)}
    {k : σ → RunM α} {k' : τ → RunM α}
    (hround : ∀ i s m, inv i s m →
      RoundRel proj (inv (i + 1)) ((f i s).run.run m) ((g i (proj s)).run.run m))
    (hk : ∀ s, k s = k' (proj s)) (len : Nat) :
    ∀ i s m, inv i s m →
      (forIn (List.range' i len) s f >>= k).run.run m =
        (forIn (List.range' i len) (proj s) g >>= k').run.run m := by
  -- induction on the rounds left; the invariant moves with the first round
  induction len with
  | zero =>
    intro i s m _
    simp only [List.range'_zero, List.forIn_nil, pure_bind, hk]
  | succ len ih =>
    intro i s m hinv
    have hr := hround i s m hinv
    simp only [List.range'_succ, List.forIn_cons, bind_assoc]
    rw [run_bind, run_bind]
    generalize (f i s).run.run m = rf at hr
    generalize (g i (proj s)).run.run m = rg at hr
    cases hr with
    | stop e m' => rfl
    | done s' m' => simp only [pure_bind, hk]
    | yield s' m' hnext => exact ih (i + 1) s' m' hnext

/-- Round `i` of a counted loop from `a` to `b`, in closed form: past `b` the loop is done;
otherwise the round takes a step of the budget and runs the body, with the variable at `a + i`,
and after a round that goes on the variable moves to the next value, or stays at `b` after the
last one. -/
def countedRound (x : LocalId) (a b : Int) (body : RunM Flow) (i : Nat) :
    RunM (ForInStep (Option Flow)) := do
  if b < a + i then return .done (some .normal)
  tick
  match ← body with
  | .breakLoop => return .done (some .normal)
  | .returned v => return .done (some (.returned v))
  | _ =>
    setLocal x (.int (min (a + i + 1) b))
    return .yield none

/-- What a loop gives once its rounds are over: the outcome a round stopped it with, or a
timeout when it used up the loop bound. -/
def loopResult : Option Flow → RunM Flow
  | some f => pure f
  | none => throw .timeout

/-- A counted loop from `a` to `b` in closed form: the variable starts at `a`, and rounds
`0, 1, …` run as `countedRound` within the loop bound. -/
def countedLoop (x : LocalId) (a b : Int) (body : RunM Flow) : RunM Flow := do
  setLocal x (.int a)
  let r ← forIn [:loopBound] (none : Option Flow) fun i _ => countedRound x a b body i
  loopResult r

/-- The body run once for each of the values `vs` in order, until it leaves by `break` or
`return`; after each round the variable moves to the value after, or stays at `b`. -/
def rangeRun (x : LocalId) (b : Int) (body : RunM Flow) : List Int → RunM Flow
  | [] => pure .normal
  | v :: vs => do
    tick
    match ← body with
    | .breakLoop => pure .normal
    | .returned r => pure (.returned r)
    | _ =>
      setLocal x (.int (min (v + 1) b))
      rangeRun x b body vs

/-- One round of the evaluator's counted loop, whose state is the outcome it stopped with and
the flag `more`: with `more` false the loop is done; otherwise the budget is charged, the flag
becomes `x != b` read before the body, and after a body that goes on the flag, as `0` or `1` of
the loop's kind, is added to the variable. -/
def forRangeRound (x : LocalId) (b : Value) (kind : Prim) (body : RunM Flow)
    (s : Option Flow × Bool) : RunM (ForInStep (Option Flow × Bool)) :=
  if (!s.2) = true then pure (.done (some .normal, s.2))
  else do
    tick
    let cur ← getLocal x
    match ← body with
    | .breakLoop => pure (.done (some .normal, !Value.compare .eq cur b))
    | .returned v => pure (.done (some (.returned v), !Value.compare .eq cur b))
    | _ => do
      match Value.arith .add kind (← getLocal x)
          ((Value.int (if (!Value.compare .eq cur b) = true then 1 else 0)).convert .int kind) with
      | some v => do
        setLocal x v
        pure (.yield (none, !Value.compare .eq cur b))
      | none => pure (.yield (none, !Value.compare .eq cur b))

/-- What holds before round `i` of a counted loop from `a` to `b`: the flag says whether `a + i`
is still within the range, and if it is, the variable holds it. -/
def CountedInv (x : LocalId) (a b : Int) (i : Nat) (s : Option Flow × Bool) (m : Machine) :
    Prop :=
  s.2 = decide (a + i ≤ b) ∧ (a + i ≤ b → m.frame.locals[x]? = some (.int (a + i)))

/-- A round of the evaluator's loop agrees with the closed form's, and passes the invariant on. -/
theorem forRangeRound_agrees {x : LocalId} {a b : Int} {t : CInt} {body : RunM Flow}
    {i : Nat} {s : Option Flow × Bool} {m : Machine}
    (ha : t.InRange a) (hb : t.InRange b)
    (hbody : ∀ m' f m'', body.run.run m' = (.ok f, m'') →
      m''.frame.locals[x]? = m'.frame.locals[x]?)
    (hinv : CountedInv x a b i s m) :
    RoundRel Prod.fst (CountedInv x a b (i + 1))
      ((forRangeRound x (.int b) t.prim body s).run.run m)
      ((countedRound x a b body i).run.run m) := by
  obtain ⟨hmore, hx⟩ := hinv
  by_cases hab : a + i ≤ b
  case neg =>
    -- past `b` both loops finish at once
    have hs2 : s.2 = false := hmore.trans (decide_eq_false hab)
    have hlt : b < a + i := by omega
    simp only [forRangeRound, countedRound, hs2, Bool.not_false, if_true, hlt]
    exact .done _ _
  -- a round that runs: the budget, then the body, then the step
  have hs2 : s.2 = true := hmore.trans (decide_eq_true hab)
  have hnot : ¬b < a + i := by omega
  simp only [forRangeRound, countedRound, hs2, Bool.not_true, Bool.false_eq_true, if_false, hnot]
  rw [run_bind, run_bind]
  rcases htick : tick.run.run m with ⟨_ | _, m'⟩
  · exact .stop _ _
  have hframe : m'.frame = m.frame := by
    have := tick_frame m
    rwa [htick] at this
  have hv : m'.frame.locals[x]? = some (.int (a + i)) := by rw [hframe]; exact hx hab
  dsimp only
  rw [run_bind, run_getLocal]
  dsimp only
  rw [hv, Option.getD_some, run_bind, run_bind]
  rcases hrun : body.run.run m' with ⟨_ | f, m''⟩
  · exact .stop _ _
  have hv' : m''.frame.locals[x]? = some (.int (a + i)) := (hbody _ _ _ hrun).trans hv
  rcases f with _ | _ | _ | v
  -- a round that finishes: both leave through `break` or `return`
  case breakLoop => exact .done _ _
  case returned => exact .done _ _
  -- a round that goes on: the step is the next value, or `b` again after the last
  all_goals
    dsimp only
    rw [run_bind, run_getLocal, hv', Option.getD_some]
    dsimp only
    rw [Value.arith_add_step ha hb (by omega) hab]
    simp only [run_bind, run_setLocal, run_pure]
    refine .yield _ _ ⟨?_, fun h => ?_⟩
    · rw [Value.compare_eq_int]
      by_cases hlast : a + i = b
      · simp only [hlast, beq_self_eq_true, Bool.not_true]
        exact (decide_eq_false (by omega)).symm
      · simp only [beq_eq_false_iff_ne.2 hlast, Bool.not_false]
        exact (decide_eq_true (by omega)).symm
    · have hnext : min (a + i + 1) b = a + (i + 1 : Nat) := by omega
      simp only [Std.TreeMap.getElem?_insert_self, hnext]

/-- Reading its bounds once, at the type of its variable, the evaluator's counted loop is the
closed form: its flag `more` only ever says whether the next value is within the range, and the
variable holds that value, as long as the body leaves the variable alone. -/
theorem execStmt_forRange_counted {n : Nat} {x : LocalId} {lo hi : TypedExpr} {body : TypedStmt}
    {sp : Span} {t : CInt} {ty : Ty} {a b : Int} {m m1 m2 : Machine}
    (hty : (localType x).run.run m = (.ok ty, m)) (hkind : ty.prim? = some t.prim)
    (hlo : (evalAs n lo ty).run.run m = (.ok (.int a), m1))
    (hhi : (evalAs n hi ty).run.run m1 = (.ok (.int b), m2))
    (ha : t.InRange a) (hb : t.InRange b)
    (hbody : ∀ m' f m'', (execStmt n body).run.run m' = (.ok f, m'') →
      m''.frame.locals[x]? = m'.frame.locals[x]?) :
    (execStmt (n + 1) (.mk (.forRange x lo hi body) sp)).run.run m =
      (countedLoop x a b (execStmt n body)).run.run m2 := by
  rw [execStmt, run_bind, hty]
  dsimp only
  rw [run_bind, hlo]
  dsimp only
  rw [run_bind, hhi]
  dsimp only
  rw [run_bind, run_setLocal]
  dsimp only
  unfold countedLoop
  conv_rhs => rw [run_bind, run_setLocal]
  dsimp only
  rw [Std.Legacy.Range.forIn_eq_forIn_range', Std.Legacy.Range.forIn_eq_forIn_range']
  simp only [hkind, Option.getD_some, Value.compare_le_int]
  refine forIn_range'_agrees Prod.fst (CountedInv x a b)
    (fun i s m h => forRangeRound_agrees ha hb hbody h) ?_ _ _ _ _ ⟨by simp, fun _ => by simp⟩
  -- both continuations read the outcome the loop stopped with
  rintro ⟨_ | _, _⟩ <;> rfl

/-- From round `i` on, with the range ending at round `len` before the loop bound does, the
closed-form loop runs the body once for each value `a + j` with `i ≤ j < len`, in order. -/
theorem forIn_countedRound {x : LocalId} {a b : Int} {body : RunM Flow} {len : Nat}
    (hlen : len = (b + 1 - a).toNat) (L : Nat) :
    ∀ i, i ≤ len → len < i + L →
      (forIn (List.range' i L) (none : Option Flow) (fun i _ => countedRound x a b body i) >>=
          loopResult) =
        rangeRun x b body ((List.range' i (len - i)).map fun j : Nat => a + j) := by
  -- induction on the rounds left before the loop bound
  induction L with
  | zero => intro i hi hL; omega
  | succ L ih =>
    intro i hi hL
    rw [List.range'_succ, List.forIn_cons, bind_assoc]
    by_cases hend : i = len
    · -- the round after the last value: the loop is done
      subst hend
      have hpast : b < a + i := by omega
      simp only [countedRound, hpast, if_true, pure_bind, Nat.sub_self, List.range'_zero,
        List.map_nil, rangeRun, loopResult]
    · -- a round with the value `a + i`
      have hwithin : ¬b < a + i := by omega
      have hrest : len - i = (len - (i + 1)) + 1 := by omega
      rw [hrest, List.range'_succ, List.map_cons, rangeRun]
      simp only [countedRound, hwithin, if_false, bind_assoc]
      refine bind_congr fun _ => bind_congr fun r => ?_
      cases r with
      | breakLoop => simp only [pure_bind, loopResult]
      | returned v => simp only [pure_bind, loopResult]
      | _ =>
        -- the body went on: both step the variable and run the rest of the range
        simp only [bind_assoc, pure_bind]
        exact bind_congr fun _ => ih (i + 1) (by omega) (by omega)

/-- Within the loop bound, the closed-form loop runs the body once for each of `a, a + 1, …, b`
in order: `max 0 (b - a + 1)` times, until the body leaves by `break` or `return`. -/
theorem countedLoop_eq_rangeRun {x : LocalId} {a b : Int} {body : RunM Flow}
    (hfit : (b + 1 - a).toNat < loopBound) :
    countedLoop x a b body =
      (do
        setLocal x (.int a)
        rangeRun x b body ((List.range (b + 1 - a).toNat).map fun j : Nat => a + j)) := by
  unfold countedLoop
  rw [Std.Legacy.Range.forIn_eq_forIn_range', List.range_eq_range']
  exact bind_congr fun _ =>
    forIn_countedRound rfl loopBound 0 (Nat.zero_le _) (by simpa using hfit)

/-- A counted loop over values `a` and `b` of an integer type, read once each before the loop,
runs its body for `a, a + 1, …, b` in order with the variable at each value in turn; `continue`
goes on to the next value, `break` leaves the loop, and after the last value the variable stays
at `b`, the largest value of the type included. -/
theorem counted_for_runs_closed_range {n : Nat} {x : LocalId} {lo hi : TypedExpr}
    {body : TypedStmt} {sp : Span} {t : CInt} {ty : Ty} {a b : Int} {m m1 m2 : Machine}
    (hty : (localType x).run.run m = (.ok ty, m)) (hkind : ty.prim? = some t.prim)
    (hlo : (evalAs n lo ty).run.run m = (.ok (.int a), m1))
    (hhi : (evalAs n hi ty).run.run m1 = (.ok (.int b), m2))
    (ha : t.InRange a) (hb : t.InRange b)
    (hbody : ∀ m' f m'', (execStmt n body).run.run m' = (.ok f, m'') →
      m''.frame.locals[x]? = m'.frame.locals[x]?)
    (hfit : (b + 1 - a).toNat < loopBound) :
    (execStmt (n + 1) (.mk (.forRange x lo hi body) sp)).run.run m =
      (do
        setLocal x (.int a)
        rangeRun x b (execStmt n body)
          ((List.range (b + 1 - a).toNat).map fun j : Nat => a + j)).run.run m2 := by
  rw [execStmt_forRange_counted hty hkind hlo hhi ha hb hbody, countedLoop_eq_rangeRun hfit]

theorem byte_loop_reaches_max :
    (execStmt 4 (.mk (.forRange 0
        (.mk (.literal ⟨.intLit, {}, "125", .number (.int 125)⟩) {}
          { type := .prim .byte false })
        (.mk (.literal ⟨.intLit, {}, "127", .number (.int 127)⟩) {}
          { type := .prim .byte false })
        (.mk .continueStmt {})) {})).run.run ({ layout := default, steps := 10 } : Machine) =
      (do
        setLocal 0 (.int 125)
        rangeRun 0 127 (execStmt 3 (.mk .continueStmt {}))
          ((List.range (127 + 1 - 125 : Int).toNat).map fun j : Nat => 125 + j)).run.run
        ({ layout := default, steps := 10 } : Machine) := by
  have heq : (Ty.prim .byte false).equal (.prim .byte false) = true := by
    simp only [Ty.equal, Ty.equalShape]
    rfl
  refine @counted_for_runs_closed_range 3 0 _ _ _ _ .i8 (.prim .byte false) 125 127 _
    { layout := default, steps := 10 } { layout := default, steps := 10 } rfl rfl ?_ ?_
    (by decide) (by decide) ?_ (by decide)
  rotate_right
  · -- `continue` leaves every local alone
    intro m' f m'' h
    rw [execStmt] at h
    cases h
    rfl
  -- each bound is a literal read at its own type
  all_goals
    simp only [evalAs, evalOperandAs]
    rw [show (1 : Nat) = 0 + 1 from rfl, evalOperand]
    simp only [bind_assoc, pure_bind, run_bind, run_typeOf, coerceOperand, convertsInPlace, coerce,
      evalLiteral, List.isEmpty_nil, if_true, TypedExpr.type, TypedExpr.info, heq, Bool.true_or]
    rfl

end RunM
end AmLang
