import AmLang.Proofs.Run.CountedLoops
/-!
# Switches

A switch reads its subject once, into a slot of its own, and then tries its case clauses in
source order: the first clause with a case value equal to the subject runs its body, and that
ends the switch. No clause falls through into the next, and the case values of the clauses after
the one taken are never evaluated. A default clause, last in every switch the checker accepts,
runs when no case clause matches.

`firstMatch` is that search, one clause at a time, and `switch_runs_first_match` shows the
evaluator's loop over the clauses, with its early `return`, equal to it. The test of one clause
is `matchesClause`: the statements of all its case values in order, then their tests until one
holds, with the same equality `==` has for the subject's and the value's types.

The run lemmas read `firstMatch` on machines: clauses that do not match (`NoMatch`) are passed
with the machine their tests leave (`run_firstMatch_skip`), the first clause that matches runs its
body from the machine its test leaves (`run_firstMatch_select`), and when none matches the
default runs (`run_firstMatch_none`).
-/
namespace AmLang
namespace RunM

/-- What a switch runs when no case clause matches: the body of its default clause, or
nothing. -/
def defaultBody (n : Nat) (clauses : List TypedClause) : RunM Flow :=
  match clauses.find? (·.isDefault) with
  | some d => execStmts n d.body
  | none => pure .normal

/-- The outcome a clause stopped the search with, or `otherwise` when none did. -/
def orOtherwise (otherwise : RunM Flow) : Option Flow → RunM Flow
  | some f => pure f
  | none => otherwise

/-- The case clauses of a switch tried in source order against the subject `subj` of type `st`:
the first whose test holds runs its body and ends the switch, and the clauses after it are not
looked at; default clauses are passed over, and `otherwise` runs when no clause matches. -/
def firstMatch (n : Nat) (subj : Value) (st : Ty) (otherwise : RunM Flow) :
    List TypedClause → RunM Flow
  | [] => otherwise
  | c :: cs =>
    if c.isDefault then firstMatch n subj st otherwise cs
    else do
      if ← matchesClause n subj st c.values then execStmts n c.body
      else firstMatch n subj st otherwise cs

/-- A loop over the clauses that stops at the first whose test holds, given by what one round
does to one clause, is `firstMatch`. -/
theorem forIn_clauses_firstMatch {n : Nat} {subj : Value} {st : Ty} {otherwise : RunM Flow}
    {f : TypedClause → Option Flow × Unit → RunM (ForInStep (Option Flow × Unit))}
    (hf : ∀ c s, f c s =
      if c.isDefault then pure (.yield (none, ()))
      else do
        if ← matchesClause n subj st c.values then do
          let r ← execStmts n c.body
          pure (.done (some r, ()))
        else pure (.yield (none, ())))
    (cs : List TypedClause) :
    (forIn cs (none, ()) f >>= fun s => orOtherwise otherwise s.1) =
      firstMatch n subj st otherwise cs := by
  induction cs with
  | nil => simp only [List.forIn_nil, pure_bind, orOtherwise, firstMatch]
  | cons c cs ih =>
    rw [List.forIn_cons, hf, firstMatch]
    by_cases hd : c.isDefault
    · -- a default clause is passed over
      simp only [hd, if_true, pure_bind]
      exact ih
    · simp only [hd, Bool.false_eq_true, if_false, bind_assoc]
      refine bind_congr fun b => ?_
      cases b
      · -- the clause does not match: the search goes on
        simp only [Bool.false_eq_true, if_false, pure_bind]
        exact ih
      · -- the clause matches: its body is the outcome
        simp only [if_true, bind_assoc, pure_bind, orOtherwise, bind_pure]

section Runs

variable {n : Nat} {subj : Value} {st : Ty} {otherwise : RunM Flow}

/-- Clauses none of which matches, run from one machine to another: default clauses are passed
over, and each case clause's test runs and fails. -/
inductive NoMatch (n : Nat) (subj : Value) (st : Ty) :
    List TypedClause → Machine → Machine → Prop
  | nil (m : Machine) : NoMatch n subj st [] m m
  | skip {c : TypedClause} {cs : List TypedClause} {m m' : Machine} (hd : c.isDefault = true)
      (h : NoMatch n subj st cs m m') : NoMatch n subj st (c :: cs) m m'
  | fail {c : TypedClause} {cs : List TypedClause} {m m1 m' : Machine}
      (hd : c.isDefault = false)
      (ht : (matchesClause n subj st c.values).run.run m = (.ok false, m1))
      (h : NoMatch n subj st cs m1 m') : NoMatch n subj st (c :: cs) m m'

/-- Clauses that do not match are passed, from the machine their tests leave. -/
theorem run_firstMatch_skip {pre : List TypedClause} {m m' : Machine}
    (h : NoMatch n subj st pre m m') (rest : List TypedClause) :
    (firstMatch n subj st otherwise (pre ++ rest)).run.run m =
      (firstMatch n subj st otherwise rest).run.run m' := by
  induction h with
  | nil => rfl
  | skip hd _ ih =>
    rw [List.cons_append, firstMatch, if_pos hd]
    exact ih
  | fail hd ht _ ih =>
    rw [List.cons_append, firstMatch, if_neg (by simp [hd]), run_bind, ht]
    exact ih

/-- The first clause that matches runs its body, from the machine its test leaves; the clauses
after it play no part. -/
theorem run_firstMatch_select {pre post : List TypedClause} {c : TypedClause}
    {m m' m'' : Machine} (h : NoMatch n subj st pre m m') (hd : c.isDefault = false)
    (ht : (matchesClause n subj st c.values).run.run m' = (.ok true, m'')) :
    (firstMatch n subj st otherwise (pre ++ c :: post)).run.run m =
      (execStmts n c.body).run.run m'' := by
  rw [run_firstMatch_skip h, firstMatch, if_neg (by simp [hd]), run_bind, ht]
  rfl

/-- When no clause matches, the default runs after the last test. -/
theorem run_firstMatch_none {clauses : List TypedClause} {m m' : Machine}
    (h : NoMatch n subj st clauses m m') :
    (firstMatch n subj st otherwise clauses).run.run m = otherwise.run.run m' := by
  simpa only [List.append_nil, firstMatch] using run_firstMatch_skip h []

end Runs

end RunM
end AmLang
