import AmLang.Run.Eval
/-!
# What a run can end in

Many properties of running code hold whatever the machine: a statement that cannot complete
never ends normally, a loop without a `break` of its own never leaves an enclosing loop. They are
properties of the values a computation of `RunM` can return, which the standard library names
`MonadAttach.CanReturn`: for `RunM` it holds of `x` and `a` when some run of `x` from some machine
ends, without stopping, with `a` (`canReturn_iff_run`). A run that stops (an exception propagates,
the process crashes, steps or fuel run out) returns nothing, so a fact about what can be returned
says nothing about those runs and holds of them as well.

The library gives the two facts every proof here starts from: what `x >>= f` can return, `x` and
then `f` can (`LawfulMonadAttach.canReturn_bind_imp'`), and `pure a` can return only `a`
(`LawfulMonadAttach.eq_of_canReturn_pure`). This module adds what `throw` can return (nothing)
and the loop rule: a property of the loop state that the start has and every round keeps holds of
what the loop returns, for loops over lists (`canReturn_forIn`) and over ranges
(`canReturn_forIn_range`).
-/

namespace AmLang

namespace RunM

open MonadAttach

variable {α β γ : Type}

/-- `x` can return `a` exactly when a run of it from some machine ends normally with `a`. -/
theorem canReturn_iff_run {x : RunM α} {a : α} :
    CanReturn x a ↔ ∃ m m', x.run.run m = (.ok a, m') := Iff.rfl

/-- A computation that stops returns nothing. -/
theorem not_canReturn_throw (e : Stop) (a : α) : ¬ CanReturn (throw e : RunM α) a := by
  rintro ⟨m, m', h⟩
  cases h

/-- A value that `pure a` can return is `a`. -/
theorem eq_of_canReturn_pure {a b : α} (h : CanReturn (pure a : RunM α) b) : b = a :=
  (LawfulMonadAttach.eq_of_canReturn_pure h).symm

/-- The loop rule for a loop over a list: a property `P` of the loop state that holds at the
start, and that every round keeps for the state it goes on with or stops with, holds of the
state the loop returns. -/
theorem canReturn_forIn (xs : List γ) {init : β} {f : γ → β → RunM (ForInStep β)}
    (P : β → Prop) (hinit : P init)
    (hround : ∀ x ∈ xs, ∀ b, P b → ∀ r, CanReturn (f x b) r → P r.value)
    {b : β} (h : CanReturn (forIn xs init f) b) : P b := by
  induction xs generalizing init with
  | nil =>
    simp only [List.forIn_nil] at h
    rw [eq_of_canReturn_pure h]
    exact hinit
  | cons x xs ih =>
    simp only [List.forIn_cons] at h
    obtain ⟨r, hx, hrest⟩ := LawfulMonadAttach.canReturn_bind_imp' h
    have hr : P r.value := hround x (by simp) init hinit r hx
    cases r with
    | done c =>
      rw [eq_of_canReturn_pure hrest]
      exact hr
    | yield c =>
      exact ih hr (fun y hy => hround y (by simp [hy])) hrest

/-- The loop rule for a loop over a range of numbers, such as the bounded loops of running
code. -/
theorem canReturn_forIn_range (r : Std.Legacy.Range) {init : β}
    {f : Nat → β → RunM (ForInStep β)} (P : β → Prop) (hinit : P init)
    (hround : ∀ i b, P b → ∀ s, CanReturn (f i b) s → P s.value)
    {b : β} (h : CanReturn (forIn r init f) b) : P b := by
  rw [Std.Legacy.Range.forIn_eq_forIn_range'] at h
  exact canReturn_forIn _ P hinit (fun i _ => hround i) h

end RunM

end AmLang
