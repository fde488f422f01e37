import AmLang.Proofs.Run.Returns
/-!
# Statements that cannot complete

`TypedStmt.canComplete` is the check behind "must return a value on every path": it says that
control cannot reach the end of a statement after `return`, `throw`, `break` or `continue`, after
an `if` whose two branches cannot complete, after a `loop` without a `break` of its own
(`TypedStmt.containsBreak`, which looks into blocks, branches and switch clauses but not into
nested loops), and after a switch with a `default` none of whose clauses completes. `while` and
`for` loops always count as completing.

The check is sound for what the generated code does: a statement list it rejects never ends
normally, whatever the machine, the callees and the fuel. Every run of it returns, throws, leaves
through `break` or `continue`, or runs out of steps. A function body the check rejects therefore
never falls off its end.

The proof takes each statement form apart once (`canReturn_execStmt_*`): what a run of it can end
in. Two inductions on the fuel follow from these. The first shows that a statement without a
`break` of its own never leaves the loop around it; the second, which uses the first for `loop`,
that a statement that cannot complete never ends normally.

## Main results

* `execStmt_ne_breakLoop` — a statement without a `break` of its own never ends in `break`.
* `execStmts_never_completes` — a statement list that cannot complete never ends normally.
-/

namespace AmLang

open MonadAttach RunM

namespace TypedStmt

/-! ## The checks clause by clause -/

/-- No clause of a list has a `break` of its own exactly when no clause body has. -/
theorem clausesBreak_eq_false {cs : List TypedClause} :
    clausesBreak cs = false ↔ ∀ c ∈ cs, anyBreak c.body = false := by
  induction cs with
  | nil => simp [clausesBreak]
  | cons c cs ih =>
    cases c with
    | mk values isDefault body => simp [clausesBreak, ih, TypedClause.body]

/-- No clause of a list completes exactly when no clause body can complete. -/
theorem someClauseCompletes_eq_false {cs : List TypedClause} :
    someClauseCompletes cs = false ↔ ∀ c ∈ cs, allComplete c.body = false := by
  induction cs with
  | nil => simp [someClauseCompletes]
  | cons c cs ih =>
    cases c with
    | mk values isDefault body => simp [someClauseCompletes, ih, TypedClause.body]

end TypedStmt

/-! ## What a run of each statement form can end in -/

section Forms

variable {n : Nat} {sp : Span} {f : Flow}

/-- Out of fuel, nothing returns. -/
theorem not_canReturn_execStmt_zero {s : TypedStmt} : ¬ CanReturn (execStmt 0 s) f := by
  rw [execStmt]
  exact not_canReturn_throw _ _

theorem not_canReturn_execStmts_zero {ss : List TypedStmt} :
    ¬ CanReturn (execStmts 0 ss) f := by
  rw [execStmts]
  exact not_canReturn_throw _ _

theorem not_canReturn_execSwitch_zero {subject : TypedExpr} {st : Ty} {cs : List TypedClause} :
    ¬ CanReturn (execSwitch 0 subject st cs) f := by
  rw [execSwitch]
  exact not_canReturn_throw _ _

/-- The empty statement list ends normally. -/
theorem canReturn_execStmts_nil (h : CanReturn (execStmts (n + 1) []) f) : f = .normal := by
  rw [execStmts] at h
  exact eq_of_canReturn_pure h

/-- A statement list runs its head, then its tail if the head ended normally. -/
theorem canReturn_execStmts_cons {s : TypedStmt} {ss : List TypedStmt}
    (h : CanReturn (execStmts (n + 1) (s :: ss)) f) :
    (CanReturn (execStmt n s) .normal ∧ CanReturn (execStmts n ss) f) ∨
      (CanReturn (execStmt n s) f ∧ f ≠ .normal) := by
  rw [execStmts] at h
  obtain ⟨g, hs, hrest⟩ := LawfulMonadAttach.canReturn_bind_imp' h
  cases g with
  | normal => exact .inl ⟨hs, hrest⟩
  | breakLoop | continueLoop | returned _ =>
    rw [eq_of_canReturn_pure hrest]
    exact .inr ⟨hs, by simp⟩

/-- A block ends as its statements do. -/
theorem canReturn_execStmt_block {ss : List TypedStmt}
    (h : CanReturn (execStmt (n + 1) (.mk (.block ss) sp)) f) : CanReturn (execStmts n ss) f := by
  rw [execStmt] at h
  exact h

/-- A switch statement ends as its switch does. -/
theorem canReturn_execStmt_switch {subject : TypedExpr} {st : Ty} {cs : List TypedClause}
    (h : CanReturn (execStmt (n + 1) (.mk (.switch subject st cs) sp)) f) :
    CanReturn (execSwitch n subject st cs) f := by
  rw [execStmt] at h
  exact h

/-- A declaration, an expression statement and a `mock` declaration end normally. -/
theorem canReturn_execStmt_plain {k : TypedStmtKind}
    (hk : (∃ x init, k = .varDecl x init) ∨ (∃ e, k = .exprStmt e) ∨ ∃ c, k = .mock c)
    (h : CanReturn (execStmt (n + 1) (.mk k sp)) f) : f = .normal := by
  rcases hk with ⟨x, init, rfl⟩ | ⟨e, rfl⟩ | ⟨c, rfl⟩ <;> rw [execStmt] at h
  · obtain ⟨_, -, h⟩ := LawfulMonadAttach.canReturn_bind_imp' h
    dsimp only at h
    -- the local starts as its initializer's value or as its type's zero
    split at h <;>
    · obtain ⟨_, -, h⟩ := LawfulMonadAttach.canReturn_bind_imp' h
      obtain ⟨_, -, h⟩ := LawfulMonadAttach.canReturn_bind_imp' h
      exact eq_of_canReturn_pure h
  · obtain ⟨_, -, h⟩ := LawfulMonadAttach.canReturn_bind_imp' h
    exact eq_of_canReturn_pure h
  · exact eq_of_canReturn_pure h

/-- `break` and `continue` end as themselves. -/
theorem canReturn_execStmt_breakStmt (h : CanReturn (execStmt (n + 1) (.mk .breakStmt sp)) f) :
    f = .breakLoop := by
  rw [execStmt] at h
  exact eq_of_canReturn_pure h

theorem canReturn_execStmt_continueStmt
    (h : CanReturn (execStmt (n + 1) (.mk .continueStmt sp)) f) : f = .continueLoop := by
  rw [execStmt] at h
  exact eq_of_canReturn_pure h

/-- An `if` ends as the branch it takes; without an `else` it may also end normally. -/
theorem canReturn_execStmt_ifThen {c : TypedExpr} {t : TypedStmt} {e : Option TypedStmt}
    (h : CanReturn (execStmt (n + 1) (.mk (.ifThen c t e) sp)) f) :
    CanReturn (execStmt n t) f ∨ (∃ b, e = some b ∧ CanReturn (execStmt n b) f) ∨
      (e = none ∧ f = .normal) := by
  rw [execStmt.eq_def] at h
  dsimp only at h
  obtain ⟨cond, -, hbranch⟩ := LawfulMonadAttach.canReturn_bind_imp' h
  split at hbranch
  · exact .inl hbranch
  · cases e with
    | some b => exact .inr (.inl ⟨b, rfl, hbranch⟩)
    | none => exact .inr (.inr ⟨rfl, eq_of_canReturn_pure hbranch⟩)

/-- A `while` loop ends normally, when its condition fails or its body breaks, or returns. -/
theorem canReturn_execStmt_whileLoop {c : TypedExpr} {body : TypedStmt}
    (h : CanReturn (execStmt (n + 1) (.mk (.whileLoop c body) sp)) f) :
    f = .normal ∨ ∃ v, f = .returned v := by
  rw [execStmt] at h
  obtain ⟨s, hloop, hexit⟩ := LawfulMonadAttach.canReturn_bind_imp' h
  -- the loop state records how the loop stopped, if it did
  have hs : s.1 = none ∨ s.1 = some .normal ∨ ∃ v, s.1 = some (.returned v) := by
    refine canReturn_forIn_range _
      (fun s : Option Flow × Unit => s.1 = none ∨ s.1 = some .normal ∨ ∃ v, s.1 = some (.returned v))
      (.inl rfl) (fun i b _ r hr => ?_) hloop
    obtain ⟨_, -, hr⟩ := LawfulMonadAttach.canReturn_bind_imp' hr
    obtain ⟨cond, -, hr⟩ := LawfulMonadAttach.canReturn_bind_imp' hr
    split at hr
    · rw [eq_of_canReturn_pure hr]
      exact .inr (.inl rfl)
    · obtain ⟨g, -, hr⟩ := LawfulMonadAttach.canReturn_bind_imp' hr
      split at hr <;> rw [eq_of_canReturn_pure hr]
      · exact .inr (.inl rfl)
      · exact .inr (.inr ⟨_, rfl⟩)
      · exact .inl rfl
  simp only at hexit
  split at hexit
  · rename_i r hr
    rw [eq_of_canReturn_pure hexit]
    rcases hs with hs | hs | ⟨v, hs⟩ <;> rw [hr] at hs
    · cases hs
    · cases hs
      exact .inl rfl
    · cases hs
      exact .inr ⟨v, rfl⟩
  · exact absurd hexit (not_canReturn_throw _ _)

/-- A counted `for` loop ends normally, when its range is done or its body breaks, or
returns. -/
theorem canReturn_execStmt_forRange {x : LocalId} {lo hi : TypedExpr} {body : TypedStmt}
    (h : CanReturn (execStmt (n + 1) (.mk (.forRange x lo hi body) sp)) f) :
    f = .normal ∨ ∃ v, f = .returned v := by
  rw [execStmt] at h
  obtain ⟨_, -, h⟩ := LawfulMonadAttach.canReturn_bind_imp' h
  obtain ⟨_, -, h⟩ := LawfulMonadAttach.canReturn_bind_imp' h
  obtain ⟨_, -, h⟩ := LawfulMonadAttach.canReturn_bind_imp' h
  obtain ⟨_, -, h⟩ := LawfulMonadAttach.canReturn_bind_imp' h
  obtain ⟨s, hloop, hexit⟩ := LawfulMonadAttach.canReturn_bind_imp' h
  -- the loop state records how the loop stopped, if it did, beside whether it goes on
  have hs : s.1 = none ∨ s.1 = some .normal ∨ ∃ v, s.1 = some (.returned v) := by
    refine canReturn_forIn_range _
      (fun s : Option Flow × Bool => s.1 = none ∨ s.1 = some .normal ∨ ∃ v, s.1 = some (.returned v))
      (.inl rfl) (fun i b _ r hr => ?_) hloop
    simp only at hr
    split at hr
    · rw [eq_of_canReturn_pure hr]
      exact .inr (.inl rfl)
    · obtain ⟨_, -, hr⟩ := LawfulMonadAttach.canReturn_bind_imp' hr
      obtain ⟨_, -, hr⟩ := LawfulMonadAttach.canReturn_bind_imp' hr
      obtain ⟨g, -, hr⟩ := LawfulMonadAttach.canReturn_bind_imp' hr
      split at hr
      · rw [eq_of_canReturn_pure hr]
        exact .inr (.inl rfl)
      · rw [eq_of_canReturn_pure hr]
        exact .inr (.inr ⟨_, rfl⟩)
      · obtain ⟨_, -, hr⟩ := LawfulMonadAttach.canReturn_bind_imp' hr
        split at hr
        · obtain ⟨_, -, hr⟩ := LawfulMonadAttach.canReturn_bind_imp' hr
          rw [eq_of_canReturn_pure hr]
          exact .inl rfl
        · rw [eq_of_canReturn_pure hr]
          exact .inl rfl
  simp only at hexit
  split at hexit
  · rename_i r hr
    rw [eq_of_canReturn_pure hexit]
    rcases hs with hs | hs | ⟨v, hs⟩ <;> rw [hr] at hs
    · cases hs
    · cases hs
      exact .inl rfl
    · cases hs
      exact .inr ⟨v, rfl⟩
  · exact absurd hexit (not_canReturn_throw _ _)

/-- A `loop` ends normally only when its body breaks; otherwise it returns. -/
theorem canReturn_execStmt_loop {body : TypedStmt}
    (h : CanReturn (execStmt (n + 1) (.mk (.loop body) sp)) f) :
    (f = .normal ∧ CanReturn (execStmt n body) .breakLoop) ∨ ∃ v, f = .returned v := by
  rw [execStmt] at h
  obtain ⟨s, hloop, hexit⟩ := LawfulMonadAttach.canReturn_bind_imp' h
  -- the loop stops normally only after a round whose body broke
  have hs : s.1 = none ∨ (s.1 = some .normal ∧ CanReturn (execStmt n body) .breakLoop) ∨
      ∃ v, s.1 = some (.returned v) := by
    refine canReturn_forIn_range _
      (fun s : Option Flow × Unit => s.1 = none ∨
        (s.1 = some .normal ∧ CanReturn (execStmt n body) .breakLoop) ∨
        ∃ v, s.1 = some (.returned v))
      (.inl rfl) (fun i b _ r hr => ?_) hloop
    obtain ⟨_, -, hr⟩ := LawfulMonadAttach.canReturn_bind_imp' hr
    obtain ⟨g, hbody, hr⟩ := LawfulMonadAttach.canReturn_bind_imp' hr
    split at hr <;> rw [eq_of_canReturn_pure hr]
    · exact .inr (.inl ⟨rfl, hbody⟩)
    · exact .inr (.inr ⟨_, rfl⟩)
    · exact .inl rfl
  simp only at hexit
  split at hexit
  · rename_i r hr
    rw [eq_of_canReturn_pure hexit]
    rcases hs with hs | ⟨hs, hbreak⟩ | ⟨v, hs⟩ <;> rw [hr] at hs
    · cases hs
    · cases hs
      exact .inl ⟨rfl, hbreak⟩
    · cases hs
      exact .inr ⟨v, rfl⟩
  · exact absurd hexit (not_canReturn_throw _ _)

/-- A switch ends as the body of one of its clauses; without a `default` it may also end
normally. -/
theorem canReturn_execSwitch {subject : TypedExpr} {st : Ty} {cs : List TypedClause}
    (h : CanReturn (execSwitch (n + 1) subject st cs) f) :
    (∃ c ∈ cs, CanReturn (execStmts n c.body) f) ∨
      (cs.find? (·.isDefault) = none ∧ f = .normal) := by
  rw [execSwitch] at h
  obtain ⟨_, -, h⟩ := LawfulMonadAttach.canReturn_bind_imp' h
  obtain ⟨_, -, h⟩ := LawfulMonadAttach.canReturn_bind_imp' h
  obtain ⟨s, hloop, hexit⟩ := LawfulMonadAttach.canReturn_bind_imp' h
  -- the clause loop stops only with the end of a matching clause's body
  have hs : s.1 = none ∨ ∃ g, s.1 = some g ∧ ∃ c ∈ cs, CanReturn (execStmts n c.body) g := by
    refine canReturn_forIn cs
      (fun s : Option Flow × Unit =>
        s.1 = none ∨ ∃ g, s.1 = some g ∧ ∃ c ∈ cs, CanReturn (execStmts n c.body) g)
      (.inl rfl) (fun c hc b _ r hr => ?_) hloop
    split at hr
    · rw [eq_of_canReturn_pure hr]
      exact .inl rfl
    · obtain ⟨_, -, hr⟩ := LawfulMonadAttach.canReturn_bind_imp' hr
      split at hr
      · obtain ⟨g, hbody, hr⟩ := LawfulMonadAttach.canReturn_bind_imp' hr
        rw [eq_of_canReturn_pure hr]
        exact .inr ⟨g, rfl, c, hc, hbody⟩
      · rw [eq_of_canReturn_pure hr]
        exact .inl rfl
  simp only at hexit
  split at hexit
  · rename_i r hr
    rw [eq_of_canReturn_pure hexit]
    rcases hs with hs | ⟨g, hs, hbody⟩ <;> rw [hr] at hs
    · cases hs
    · cases hs
      exact .inl hbody
  · split at hexit
    · rename_i d hd
      exact .inl ⟨d, List.mem_of_find?_eq_some hd, hexit⟩
    · rename_i hd
      exact .inr ⟨hd, eq_of_canReturn_pure hexit⟩

/-- A `scope` block first runs the initializers of its mocks' static fields, then its
statements. -/
theorem canReturn_execStmt_scope {ss : List TypedStmt}
    (h : CanReturn (execStmt (n + 1) (.mk (.scope ss) sp)) f) :
    CanReturn (execStmts n ss) f := by
  rw [execStmt] at h
  obtain ⟨_, -, h⟩ := LawfulMonadAttach.canReturn_bind_imp' h
  obtain ⟨_, -, h⟩ := LawfulMonadAttach.canReturn_bind_imp' h
  exact h

/-- `return` and `throw` leave the function: a thrown `null` leaves it with its zero value. -/
theorem canReturn_execStmt_exit {k : TypedStmtKind}
    (hk : (∃ v, k = .returnStmt v) ∨ ∃ v, k = .throwStmt v)
    (h : CanReturn (execStmt (n + 1) (.mk k sp)) f) : ∃ v, f = .returned v := by
  rcases hk with ⟨value, rfl⟩ | ⟨value, rfl⟩
  · rw [execStmt] at h
    obtain ⟨_, -, h⟩ := LawfulMonadAttach.canReturn_bind_imp' h
    dsimp only at h
    split at h
    · split at h
      · obtain ⟨_, -, h⟩ := LawfulMonadAttach.canReturn_bind_imp' h
        exact ⟨_, eq_of_canReturn_pure h⟩
      · obtain ⟨_, -, h⟩ := LawfulMonadAttach.canReturn_bind_imp' h
        exact ⟨_, eq_of_canReturn_pure h⟩
    · exact ⟨_, eq_of_canReturn_pure h⟩
  · rw [execStmt] at h
    obtain ⟨v, -, h⟩ := LawfulMonadAttach.canReturn_bind_imp' h
    split at h
    · obtain ⟨_, -, h⟩ := LawfulMonadAttach.canReturn_bind_imp' h
      exact ⟨_, eq_of_canReturn_pure h⟩
    · exact absurd h (not_canReturn_throw _ _)

end Forms

/-! ## No `break` of its own: never leaves the loop around it -/

/-- At every fuel, a statement, a statement list or a switch whose clauses have no `break` of
their own never ends in `break`. The induction is on the fuel, which each nested statement
consumes; the three parts follow the three mutually recursive runners. -/
theorem ne_breakLoop_of_fuel (n : Nat) :
    (∀ {s f}, s.containsBreak = false → CanReturn (execStmt n s) f → f ≠ .breakLoop) ∧
    (∀ {ss f}, TypedStmt.anyBreak ss = false → CanReturn (execStmts n ss) f → f ≠ .breakLoop) ∧
    (∀ {subject st cs f}, TypedStmt.clausesBreak cs = false →
      CanReturn (execSwitch n subject st cs) f → f ≠ .breakLoop) := by
  induction n with
  | zero =>
    exact ⟨fun _ h => absurd h not_canReturn_execStmt_zero,
      fun _ h => absurd h not_canReturn_execStmts_zero,
      fun _ h => absurd h not_canReturn_execSwitch_zero⟩
  | succ n ih =>
    obtain ⟨hstmt, hstmts, hswitch⟩ := ih
    refine ⟨fun {s f} hb h => ?_, fun {ss f} hb h => ?_, fun {subject st cs f} hb h => ?_⟩
    · obtain ⟨k, sp⟩ := s
      cases k with
      | block ss => exact hstmts hb (canReturn_execStmt_block h)
      | scope ss => exact hstmts hb (canReturn_execStmt_scope h)
      | ifThen c t e =>
        simp only [TypedStmt.containsBreak, Bool.or_eq_false_iff] at hb
        rcases canReturn_execStmt_ifThen h with ht | ⟨b, rfl, he⟩ | ⟨-, rfl⟩
        · exact hstmt hb.1 ht
        · exact hstmt hb.2 he
        · nofun
      | whileLoop c body =>
        rcases canReturn_execStmt_whileLoop h with rfl | ⟨v, rfl⟩ <;> nofun
      | forRange x lo hi body =>
        rcases canReturn_execStmt_forRange h with rfl | ⟨v, rfl⟩ <;> nofun
      | loop body =>
        rcases canReturn_execStmt_loop h with ⟨rfl, -⟩ | ⟨v, rfl⟩ <;> nofun
      | switch subject st cs => exact hswitch hb (canReturn_execStmt_switch h)
      | returnStmt value =>
        obtain ⟨v, rfl⟩ := canReturn_execStmt_exit (.inl ⟨value, rfl⟩) h
        nofun
      | throwStmt value =>
        obtain ⟨v, rfl⟩ := canReturn_execStmt_exit (.inr ⟨value, rfl⟩) h
        nofun
      | breakStmt => simp [TypedStmt.containsBreak] at hb
      | continueStmt =>
        rw [canReturn_execStmt_continueStmt h]
        nofun
      | varDecl x init =>
        rw [canReturn_execStmt_plain (.inl ⟨x, init, rfl⟩) h]
        nofun
      | exprStmt e =>
        rw [canReturn_execStmt_plain (.inr (.inl ⟨e, rfl⟩)) h]
        nofun
      | mock c =>
        rw [canReturn_execStmt_plain (.inr (.inr ⟨c, rfl⟩)) h]
        nofun
    · cases ss with
      | nil =>
        rw [canReturn_execStmts_nil h]
        nofun
      | cons s ss =>
        simp only [TypedStmt.anyBreak, Bool.or_eq_false_iff] at hb
        rcases canReturn_execStmts_cons h with ⟨-, hrest⟩ | ⟨hs, -⟩
        · exact hstmts hb.2 hrest
        · exact hstmt hb.1 hs
    · rcases canReturn_execSwitch h with ⟨c, hc, hbody⟩ | ⟨-, rfl⟩
      · exact hstmts (TypedStmt.clausesBreak_eq_false.1 hb c hc) hbody
      · nofun

/-- A statement without a `break` of its own never ends in `break`: it cannot leave the loop
around it. -/
theorem execStmt_ne_breakLoop {s : TypedStmt} (hb : s.containsBreak = false) {n : Nat}
    {f : Flow} (h : CanReturn (execStmt n s) f) : f ≠ .breakLoop :=
  (ne_breakLoop_of_fuel n).1 hb h

/-! ## Cannot complete: never ends normally -/

/-- At every fuel, a statement or a statement list that cannot complete, and a switch with a
`default` none of whose clauses can complete, never end normally. As above, the induction is on
the fuel; a `loop` needs `execStmt_ne_breakLoop` for its body. -/
theorem ne_normal_of_fuel (n : Nat) :
    (∀ {s f}, s.canComplete = false → CanReturn (execStmt n s) f → f ≠ .normal) ∧
    (∀ {ss f}, TypedStmt.allComplete ss = false → CanReturn (execStmts n ss) f → f ≠ .normal) ∧
    (∀ {subject st cs f}, cs.any (·.isDefault) = true →
      TypedStmt.someClauseCompletes cs = false →
      CanReturn (execSwitch n subject st cs) f → f ≠ .normal) := by
  induction n with
  | zero =>
    exact ⟨fun _ h => absurd h not_canReturn_execStmt_zero,
      fun _ h => absurd h not_canReturn_execStmts_zero,
      fun _ _ h => absurd h not_canReturn_execSwitch_zero⟩
  | succ n ih =>
    obtain ⟨hstmt, hstmts, hswitch⟩ := ih
    refine ⟨fun {s f} hc h => ?_, fun {ss f} hc h => ?_,
      fun {subject st cs f} hd hc h => ?_⟩
    · obtain ⟨k, sp⟩ := s
      cases k with
      | block ss => exact hstmts hc (canReturn_execStmt_block h)
      | scope ss => exact hstmts hc (canReturn_execStmt_scope h)
      | ifThen c t e =>
        -- an `if` without an `else` can complete
        cases e with
        | none => simp [TypedStmt.canComplete] at hc
        | some b =>
          simp only [TypedStmt.canComplete, Bool.or_eq_false_iff] at hc
          rcases canReturn_execStmt_ifThen h with ht | ⟨b', he, hb⟩ | ⟨he, -⟩
          · exact hstmt hc.1 ht
          · cases he
            exact hstmt hc.2 hb
          · cases he
      | loop body =>
        rcases canReturn_execStmt_loop h with ⟨rfl, hbreak⟩ | ⟨v, rfl⟩
        · exact absurd rfl (execStmt_ne_breakLoop (by simpa [TypedStmt.canComplete] using hc) hbreak)
        · nofun
      | switch subject st cs =>
        simp only [TypedStmt.canComplete, Bool.or_eq_false_iff, Bool.not_eq_false'] at hc
        exact hswitch hc.1 hc.2 (canReturn_execStmt_switch h)
      | returnStmt value =>
        obtain ⟨v, rfl⟩ := canReturn_execStmt_exit (.inl ⟨value, rfl⟩) h
        nofun
      | throwStmt value =>
        obtain ⟨v, rfl⟩ := canReturn_execStmt_exit (.inr ⟨value, rfl⟩) h
        nofun
      | breakStmt =>
        rw [canReturn_execStmt_breakStmt h]
        nofun
      | continueStmt =>
        rw [canReturn_execStmt_continueStmt h]
        nofun
      | whileLoop | forRange | varDecl | exprStmt | mock => simp [TypedStmt.canComplete] at hc
    · cases ss with
      | nil => simp [TypedStmt.allComplete] at hc
      | cons s ss =>
        simp only [TypedStmt.allComplete, Bool.and_eq_false_iff] at hc
        rcases canReturn_execStmts_cons h with ⟨hs, hrest⟩ | ⟨-, hf⟩
        · rcases hc with hc | hc
          · exact absurd rfl (hstmt hc hs)
          · exact hstmts hc hrest
        · exact hf
    · rcases canReturn_execSwitch h with ⟨c, hmem, hbody⟩ | ⟨hnone, -⟩
      · exact hstmts (TypedStmt.someClauseCompletes_eq_false.1 hc c hmem) hbody
      · -- the search for the `default` clause does not fail
        obtain ⟨d, hmem, hdef⟩ := List.any_eq_true.1 hd
        exact absurd hdef (by simpa using List.find?_eq_none.1 hnone d hmem)

/-- A statement list that cannot complete never falls through its end: from any machine, at any
fuel, every run of it returns, throws, leaves through `break` or `continue`, or stops. -/
theorem execStmts_never_completes {ss : List TypedStmt} (h : TypedStmt.allComplete ss = false)
    (n : Nat) (m m' : Machine) : (execStmts n ss).run.run m ≠ (.ok .normal, m') :=
  fun hrun => (ne_normal_of_fuel n).2.1 h ⟨m, m', hrun⟩ rfl

/-- A `loop` whose body only continues cannot complete, and its run does not end normally. -/
theorem continuing_loop_never_completes :
    TypedStmt.allComplete [.mk (.loop (.mk .continueStmt {})) {}] = false ∧
      (execStmts 3 [.mk (.loop (.mk .continueStmt {})) {}]).run.run
        { layout := default, steps := 10 } ≠ (.ok .normal, { layout := default, steps := 10 }) := by
  refine ⟨by decide, execStmts_never_completes ?_ 3 _ _⟩
  decide

end AmLang
