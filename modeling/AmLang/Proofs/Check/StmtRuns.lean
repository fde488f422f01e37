import AmLang.Proofs.Check.CallRuns
/-!
# Checking statements and declarations, seen by the lambdas around them

The statement and declaration parts of `CheckM.Specs (n + 1)`, and with them the whole induction:
`CheckM.specs n` says that every checking function, at every fuel, runs as the tree it builds
says. A statement's tree mentions what its expressions and nested statements do and declares the
locals it introduces; a checked function body or initializer is stored only after its own run,
which keeps every stored lambda exact.
-/

namespace AmLang

namespace CheckM

variable {n : Nat}

theorem Specs.checkStmts_succ (S : Specs n) (ss : List Stmt) :
    Checks (checkStmts (n + 1) ss) fun r => r.flatMap TypedStmt.mentions := by
  rw [checkStmts]
  exact checks_mapM fun st _ => S.stmt st

theorem Specs.checkBlock_succ (S : Specs n) (ss : List Stmt) (kind : ScopeKind)
    (facts : Narrowings) (hkind : kind ≠ .lambda) :
    Checks (checkBlock (n + 1) ss kind facts) fun r => r.flatMap TypedStmt.mentions := by
  rw [checkBlock]
  exact checks_inScope hkind (checks_quiet_bind (isQuiet_applyNarrowings facts) fun _ => S.stmts ss)

theorem Specs.checkBody_succ (S : Specs n) (st : Stmt) (kind : ScopeKind) (facts : Narrowings)
    (hkind : kind ≠ .lambda) : Checks (checkBody (n + 1) st kind facts) TypedStmt.mentions := by
  refine checks_of_runs fun s₀ h => ?_
  rw [checkBody.eq_def]
  dsimp -zeta only
  split
  · exact post_checks_bind (S.block _ _ _ hkind) h fun r s h => post_pure_runs h (by simp)
  · exact post_checks_tail (checks_inScope hkind
      (checks_quiet_bind (isQuiet_applyNarrowings facts) fun _ => S.stmt st)) h (by simp)

/-- A statement checks as its form says; the forms with a function of their own are checked by
it, one fuel lower. -/
theorem Specs.checkStmt_succ (S : Specs n) (st : Stmt) :
    Checks (checkStmt (n + 1) st) TypedStmt.mentions := by
  refine checks_of_runs fun s₀ h => ?_
  obtain ⟨k, span⟩ := st
  rw [checkStmt, post_get_bind]
  refine post_quiet_bind (isQuiet_modify fun _ => Quiet.of_eq rfl rfl rfl rfl rfl rfl) h
    fun _ s h => ?_
  cases k with
  | block ss =>
    exact post_checks_bind (S.block ss .block [] (by decide)) h fun r s h =>
      post_pure_runs h (by simp)
  | ifThen c t e => exact post_checks_tail (S.ifStmt c t e span) h (by simp)
  | whileLoop c body =>
    refine post_quiet_bind (isQuiet_forM _ fun _ _ => isQuiet_forgetName _) h fun _ s h => ?_
    refine post_checks_bind (S.cond c) h fun ct s h => ?_
    rw [post_get_bind]
    refine post_checks_bind (S.body body .loop _ (by decide)) h fun bt s h => ?_
    exact post_pure_runs h (by simp)
  | forRange var varSpan lo hi body =>
    exact post_checks_tail (S.forRange var varSpan lo hi body span) h (by simp)
  | loop body =>
    refine post_quiet_bind (isQuiet_forM _ fun _ _ => isQuiet_forgetName _) h fun _ s h => ?_
    refine post_checks_bind (S.body body .loop [] (by decide)) h fun bt s h => ?_
    exact post_pure_runs h (by simp)
  | switch subject clauses =>
    exact post_checks_tail (S.switchStmt subject clauses span) h (by simp)
  | varDecl isVal name nameSpan type init =>
    exact post_checks_tail (S.varDecl isVal name nameSpan type init span) h (by simp)
  | returnStmt value => exact post_checks_tail (S.returnStmt value span) h (by simp)
  | throwStmt value =>
    refine post_checks_bind (S.expr value _) h fun te s h => ?_
    refine post_quiet_bind (isQuiet_checkAssignable _ _ _ _ _) h fun _ s h => ?_
    exact post_pure_runs h (by simp)
  | breakStmt =>
    rw [post_get_bind]
    split
    · exact post_quiet_bind (isQuiet_misplaced _ _) h fun _ s h => post_pure_runs h (by simp)
    · exact post_pure_runs h (by simp)
  | continueStmt =>
    rw [post_get_bind]
    split
    · exact post_quiet_bind (isQuiet_misplaced _ _) h fun _ s h => post_pure_runs h (by simp)
    · exact post_pure_runs h (by simp)
  | exprStmt e =>
    refine post_quiet_bind (isQuiet_modify fun _ => Quiet.of_eq rfl rfl rfl rfl rfl rfl) h
      fun _ s h => ?_
    refine post_checks_bind (S.expr e _) h fun te s h => ?_
    refine post_quiet_bind (isQuiet_modify fun _ => Quiet.of_eq rfl rfl rfl rfl rfl rfl) h
      fun _ s h => ?_
    exact post_pure_runs h (by simp)
  | scope ss =>
    refine post_quiet_bind (isQuiet_modify fun _ => Quiet.of_eq rfl rfl rfl rfl rfl rfl) h
      fun _ s h => ?_
    -- the mocks of the scope are declared first, quietly
    refine post_checks_bind (checks_inScope (by decide)
      (checks_quiet_bind (isQuiet_forIn ss _ fun st _ u => ?_) fun _ => S.stmts ss)) h
      fun typed s h => ?_
    · split
      · exact isQuiet_bind (isQuiet_declareMock _) fun _ => isQuiet_pure _
      · exact isQuiet_pure _
    refine post_quiet_bind (isQuiet_modify fun _ => Quiet.of_eq rfl rfl rfl rfl rfl rfl) h
      fun _ s h => ?_
    exact post_pure_runs h (by simp)
  | mock d =>
    refine post_checks_bind (S.mock d) h fun _ s h => ?_
    refine post_quiet_bind (isQuiet_mockFor _) h fun _ s h => ?_
    exact post_pure_runs h (by simp)

theorem Specs.checkIf_succ (S : Specs n) (c : Expr) (thenB : Stmt) (elseB : Option Stmt)
    (span : Span) : Checks (checkIf (n + 1) c thenB elseB span) TypedStmt.mentions := by
  refine checks_of_runs fun s₀ h => ?_
  rw [checkIf]
  refine post_checks_bind (S.cond c) h fun ct s h => ?_
  rw [post_get_bind]
  refine post_checks_bind (S.body thenB _ _ (by decide)) h fun tt s h => ?_
  refine post_checks_bind (checks_optionMapM fun e => S.body e _ _ (by decide)) h
    fun et s h => ?_
  -- after the branches, only facts about locals change
  extract_lets +onlyGivenNames thenCompletes elseCompletes done
  have hdone : ∀ u s, Runs ([] ++ ct.mentions ++ tt.mentions ++
      et.toList.flatMap TypedStmt.mentions) s₀ s →
      Post (done u) (fun r s' => Runs r.mentions s₀ s') s := by
    intro u s h
    exact post_pure_runs h (by simp)
  split
  · refine post_quiet_bind (isQuiet_applyNarrowings _) h fun _ s h => ?_
    split
    · exact post_quiet_bind (isQuiet_forM _ fun _ _ => isQuiet_forgetName _) h
        fun u s h => hdone u s h
    · exact hdone () s h
  split
  · refine post_quiet_bind (isQuiet_applyNarrowings _) h fun _ s h => ?_
    exact post_quiet_bind (isQuiet_forM _ fun _ _ => isQuiet_forgetName _) h
      fun u s h => hdone u s h
  · exact hdone () s h

theorem Specs.checkFor_succ (S : Specs n) (var : String) (varSpan : Span) (lo hi : Expr)
    (body : Stmt) (span : Span) :
    Checks (checkFor (n + 1) var varSpan lo hi body span) TypedStmt.mentions := by
  refine checks_of_runs fun s₀ h => ?_
  rw [checkFor]
  refine post_checks_bind (S.expr lo _) h fun lt s h => ?_
  refine post_checks_bind (S.expr hi _) h fun ht s h => ?_
  extract_lets +onlyGivenNames ty loop
  -- the loop variable is declared in a scope of its own, around the body
  have hloop : ∀ u ty s, Runs ([] ++ lt.mentions ++ ht.mentions) s₀ s →
      Post (loop u ty) (fun r s' => Runs r.mentions s₀ s') s := by
    intro u ty s h
    dsimp only [loop]
    refine post_quiet_bind (isQuiet_forM _ fun _ _ => isQuiet_forgetName _) h fun _ s h => ?_
    refine post_checks_bind (checks_inScope (M := fun p => .declare p.1 :: p.2.mentions)
      (by decide) (checks_of_runs fun s₁ h₁ => ?_)) h fun p s h => ?_
    · refine post_checks_bind (checks_defineLocal _ _ _ _ _) h₁ fun x s h => ?_
      refine post_checks_bind (S.body body .loop [] (by decide)) h fun bt s h => ?_
      exact post_pure_runs h (by simp)
    · obtain ⟨x, bt⟩ := p
      exact post_pure_runs h (by simp)
  split
  · split
    · split
      · exact hloop () _ s h
      · refine post_quiet_bind (isQuiet_display _) h fun _ s h => ?_
        refine post_quiet_bind (isQuiet_display _) h fun _ s h => ?_
        exact post_quiet_bind (isQuiet_mismatch _ _) h fun u s h => hloop u _ s h
    · refine post_quiet_bind (isQuiet_display _) h fun _ s h => ?_
      refine post_quiet_bind (isQuiet_display _) h fun _ s h => ?_
      exact post_quiet_bind (isQuiet_mismatch _ _) h fun u s h => hloop u _ s h
  · exact hloop () _ s h

theorem Specs.checkVar_succ (S : Specs n) (isVal : Bool) (name : String) (nameSpan : Span)
    (type : Option TypeExpr) (init : Option Expr) (span : Span) :
    Checks (checkVar (n + 1) isVal name nameSpan type init span) TypedStmt.mentions := by
  refine checks_of_runs fun s₀ h => ?_
  rw [checkVar]
  refine post_quiet_bind (isQuiet_optionMapM _ fun te => isQuiet_checkResolveType te) h
    fun declared s h => ?_
  extract_lets +onlyGivenNames declare
  -- the variable is declared after its initializer, whatever type checking gave it
  have hdeclare : ∀ (ti : Option TypedExpr) (ty : Ty) (it : Option Ty) s,
      Runs ([] ++ ti.toList.flatMap TypedExpr.mentions) s₀ s →
      Post (pure (ti, ty, it) >>= declare) (fun r s' => Runs r.mentions s₀ s') s := by
    intro ti ty it s h
    rw [post_pure_bind]
    dsimp -zeta only [declare]
    extract_lets +onlyGivenNames define
    have hdefine : ∀ ty s, Runs ([] ++ ti.toList.flatMap TypedExpr.mentions) s₀ s →
        Post (define ty) (fun r s' => Runs r.mentions s₀ s') s := by
      intro ty s h
      dsimp only [define]
      refine post_checks_bind (checks_defineLocal _ _ _ _ _) h fun x s h => ?_
      split
      · split
        · refine post_quiet_bind (isQuiet_narrow _ _) h fun _ s h => ?_
          exact post_pure_runs h (by simp)
        · exact post_pure_runs h (by simp)
      · exact post_pure_runs h (by simp)
    split
    · refine post_quiet_bind (isQuiet_mismatch _ _) h fun _ s h => ?_
      rw [post_pure_bind]
      exact hdefine _ s h
    · rw [post_pure_bind]
      exact hdefine _ s h
  split
  · refine post_quiet_bind (isQuiet_mismatch _ _) h fun _ s h => ?_
    exact hdeclare none _ _ s (h.congr (by simp))
  · split
    · exact post_checks_bind (S.expr _ _) h fun te s h => hdeclare (some te) _ _ s (h.congr (by simp))
    · exact post_checks_bind (S.expect _ _ _) h fun te s h =>
        hdeclare (some te) _ _ s (h.congr (by simp))
  · refine post_checks_bind (S.expr _ _) h fun te s h => ?_
    dsimp only
    split
    · refine post_quiet_bind (isQuiet_mismatch _ _) h fun _ s h => ?_
      rw [post_pure_bind]
      exact hdeclare (some te) _ _ s (h.congr (by simp))
    split
    · refine post_quiet_bind (isQuiet_mismatch _ _) h fun _ s h => ?_
      rw [post_pure_bind]
      exact hdeclare (some te) _ _ s (h.congr (by simp))
    split
    · rw [post_pure_bind]
      exact hdeclare (some te) _ _ s (h.congr (by simp))
    · rw [post_pure_bind]
      exact hdeclare (some te) _ _ s (h.congr (by simp))

theorem Specs.checkReturn_succ (S : Specs n) (value : Option Expr) (span : Span) :
    Checks (checkReturn (n + 1) value span) TypedStmt.mentions := by
  refine checks_of_runs fun s₀ h => ?_
  rw [checkReturn, post_get_bind]
  split
  · refine post_quiet_bind (isQuiet_misplaced _ _) h fun _ s h => ?_
    refine post_checks_bind (checks_optionMapM fun v => S.expr v none) h fun vt s h => ?_
    exact post_pure_runs h (by simp)
  split
  · split
    · refine post_checks_bind (S.expr _ _) h fun vt s h => ?_
      split
      · refine post_quiet_bind (isQuiet_mismatch _ _) h fun _ s h => ?_
        exact post_pure_runs h (by simp)
      · exact post_pure_runs h (by simp)
    · refine post_checks_bind (S.expect _ _ _) h fun vt s h => ?_
      exact post_pure_runs h (by simp)
  · split
    · refine post_quiet_bind (isQuiet_display _) h fun _ s h => ?_
      refine post_quiet_bind (isQuiet_mismatch _ _) h fun _ s h => ?_
      exact post_pure_runs h (by simp)
    · exact post_pure_runs h (by simp)

theorem Specs.checkSwitch_succ (S : Specs n) (subject : Expr) (clauses : List Clause)
    (span : Span) : Checks (checkSwitch (n + 1) subject clauses span) TypedStmt.mentions := by
  refine checks_of_runs fun s₀ h => ?_
  rw [checkSwitch]
  refine post_checks_bind (S.expr subject _) h fun st s h => ?_
  -- the clauses checked so far are what the loop's state holds
  refine post_bind_of (post_forIn
    (fun b => [] ++ st.mentions ++ b.2.2.toList.flatMap TypedClause.mentions)
    (fun clause _ b s h => ?_) _ s (h.congr (by simp))) fun b s h => ?_
  · extract_lets +onlyGivenNames seen rest seenDefault typed seenDefault' values clauseDone
    have hdone : ∀ u s, Runs ([] ++ st.mentions ++ b.2.2.toList.flatMap TypedClause.mentions)
        s₀ s → Post (clauseDone u) (fun r s' => Runs ([] ++ st.mentions ++
          r.value.2.2.toList.flatMap TypedClause.mentions) s₀ s') s := by
      intro u s h
      dsimp only [clauseDone]
      -- the case values checked so far are what the inner loop's state holds
      refine post_bind_of (post_forIn
        (fun c => [] ++ st.mentions ++ b.2.2.toList.flatMap TypedClause.mentions ++
          c.2.toList.flatMap TypedExpr.mentions)
        (fun value _ c s h => ?_) _ s (h.congr (by simp [values]))) fun c s h => ?_
      · refine post_checks_bind (S.expr value _) h fun vt s h => ?_
        have hpush : ∀ m, m ∈ [] ++ st.mentions ++ b.2.2.toList.flatMap TypedClause.mentions ++
            c.2.toList.flatMap TypedExpr.mentions ++ vt.mentions ↔
            m ∈ [] ++ st.mentions ++ b.2.2.toList.flatMap TypedClause.mentions ++
              (c.2.push vt).toList.flatMap TypedExpr.mentions := by
          simp
        split
        · exact h.congr hpush
        refine post_quiet_bind (isQuiet_converts _ _) h fun _ s h => ?_
        refine post_quiet_bind (isQuiet_converts _ _) h fun _ s h => ?_
        split
        · refine post_quiet_bind (isQuiet_display _) h fun _ s h => ?_
          refine post_quiet_bind (isQuiet_display _) h fun _ s h => ?_
          refine post_quiet_bind (isQuiet_mismatch _ _) h fun _ s h => ?_
          exact h.congr hpush
        split
        · split
          · refine post_quiet_bind (isQuiet_report _) h fun _ s h => ?_
            exact h.congr hpush
          · exact h.congr hpush
        · exact h.congr hpush
      · refine post_checks_bind (S.block _ _ _ (by decide)) h fun body s h => ?_
        exact post_pure_runs h (by simp [typed, rest])
    split
    · exact post_quiet_bind (isQuiet_report _) h fun u s h => hdone u s h
    · exact hdone () s h
  · exact post_pure_runs h (by simp)

theorem Specs.checkConstructorBody_succ (S : Specs n) (f : FunctionId) (d : Decl)
    (stmts : List Stmt) :
    Checks (checkConstructorBody (n + 1) f d stmts) fun r => r.1.flatMap TypedStmt.mentions := by
  refine checks_of_runs fun s₀ h => ?_
  rw [checkConstructorBody]
  refine post_quiet_bind (isQuiet_modify fun _ => Quiet.of_eq rfl rfl rfl rfl rfl rfl) h
    fun _ s h => ?_
  -- the statements checked so far are what the loop's state holds
  refine post_bind_of (post_forIn (fun typed => typed.toList.flatMap TypedStmt.mentions)
    (fun p _ typed s h => ?_) _ s (h.congr (by simp))) fun typed s h => ?_
  · obtain ⟨st, i⟩ := p
    refine post_quiet_bind (isQuiet_modify fun _ => Quiet.of_eq rfl rfl rfl rfl rfl rfl) h
      fun _ s h => ?_
    refine post_checks_bind (S.stmt st) h fun t s h => ?_
    refine post_quiet_bind (isQuiet_modify fun _ => Quiet.of_eq rfl rfl rfl rfl rfl rfl) h
      fun _ s h => ?_
    exact post_pure_runs h (by simp)
  rw [post_get_bind]
  split
  · exact post_pure_runs h (by simp)
  dsimp only
  split
  · split
    · split
      · exact post_pure_runs h (by simp)
      · refine post_quiet_bind (isQuiet_mismatch _ _) h fun _ s h => ?_
        exact post_pure_runs h (by simp)
    · exact post_pure_runs h (by simp)
  · exact post_pure_runs h (by simp)

/-- A function body is checked on a body of its own, and stored once checked. -/
theorem Specs.checkFunction_succ (S : Specs n) (f : FunctionId) (d : Decl) :
    Checks (checkFunction (n + 1) f d) fun _ => [] := by
  refine checks_of_runs fun s₀ h => ?_
  rw [checkFunction, post_get_bind]
  extract_lets +onlyGivenNames t fs isStatic ownerCls
  refine post_checks_tail (checks_inBody (fun s => ?_) fun s₁ hs => ?_) h (by simp)
  · exact ⟨rfl, rfl, rfl, rfl, rfl, rfl⟩
  have h₁ := Runs.rfl' hs
  split
  refine post_checks_bind (checks_mapM (M := fun x => [Mention.declare x]) fun pi _ => ?_) h₁
    fun paramLocals s h => ?_
  · obtain ⟨p, i⟩ := pi
    exact checks_defineLocal _ _ _ _ _
  extract_lets +onlyGivenNames store
  -- storing the checked body: the run mentions everything in it
  have hstore : ∀ (tb : Option (List TypedStmt)) (sc : Option FunctionId) s,
      Runs ([] ++ paramLocals.flatMap (fun x => [Mention.declare x]) ++
        (tb.getD []).flatMap TypedStmt.mentions) s₁ s →
      Post (pure (tb, sc) >>= store) (fun _ s' => ∃ ms, Runs ms s₁ s') s := by
    intro tb sc s h
    exact ⟨_, h.storeFunction fun m hm => List.mem_append_right _ hm⟩
  split
  · extract_lets +onlyGivenNames r checked
    have hchecked : ∀ (typed : List TypedStmt) (sc : Option FunctionId) s,
        Runs ([] ++ paramLocals.flatMap (fun x => [Mention.declare x]) ++
          typed.flatMap TypedStmt.mentions) s₁ s →
        Post (checked (typed, sc)) (fun _ s' => ∃ ms, Runs ms s₁ s') s := by
      intro typed sc s h
      dsimp only [checked]
      split
      · refine post_quiet_bind (isQuiet_display _) h fun _ s h => ?_
        exact post_quiet_bind (isQuiet_mismatch _ _) h fun _ s h => hstore (some typed) sc s h
      · exact hstore (some typed) sc s h
    split
    · exact post_checks_bind (S.constructorBody _ _ _) h fun p s h => hchecked p.1 p.2 s h
    · refine post_checks_bind (S.stmts _) h fun typed s h => ?_
      rw [post_pure_bind]
      exact hchecked typed none s h
  · exact hstore none none s (h.congr (by simp))

/-- An initializer is checked on a body of its own, and stored once checked. -/
theorem Specs.checkInitializer_succ (S : Specs n) (f : FieldId) (d : Decl) :
    Checks (checkInitializer (n + 1) f d) fun _ => [] := by
  refine checks_of_runs fun s₀ h => ?_
  rw [checkInitializer]
  split
  · rw [post_get_bind]
    extract_lets +onlyGivenNames t fd isStatic ownerCls
    refine post_checks_tail (checks_inBody (fun s => ?_) fun s₁ hs => ?_) h (by simp)
    · exact ⟨rfl, rfl, rfl, rfl, rfl, rfl⟩
    have h₁ := Runs.rfl' hs
    dsimp only
    split
    · exact post_checks_bind (S.expr _ _) h₁ fun te s h =>
        ⟨_, h.storeInitializer fun m hm => List.mem_append_right _ hm⟩
    · exact post_checks_bind (S.expect _ _ _) h₁ fun te s h =>
        ⟨_, h.storeInitializer fun m hm => List.mem_append_right _ hm⟩
  · exact post_pure_runs h (by simp)

theorem Specs.checkMembers_succ (S : Specs n) (c : ClassId) (members : List (Decl × MemberSymbol)) :
    Checks (checkMembers (n + 1) c members) fun _ => [] := by
  refine checks_of_runs fun s₀ h => ?_
  rw [checkMembers, post_get_bind]
  refine post_quiet_bind (isQuiet_modify fun _ => Quiet.of_eq rfl rfl rfl rfl rfl rfl) h
    fun _ s h => ?_
  refine post_bind_of (post_forIn (fun _ => []) (fun m _ u s h => ?_) _ s h) fun _ s h => ?_
  · obtain ⟨d, sym⟩ := m
    cases sym with
    | field f => exact post_checks_bind (S.initializer f d) h fun _ s h => h
    | function f => exact post_checks_bind (S.function f d) h fun _ s h => h
    | none => exact h
  · exact h.quiet (Quiet.of_eq rfl rfl rfl rfl rfl rfl)

theorem Specs.checkMock_succ (S : Specs n) (d : Decl) :
    Checks (checkMock (n + 1) d) fun _ => [] := by
  refine checks_of_runs fun s₀ h => ?_
  rw [checkMock]
  refine post_quiet_bind (isQuiet_declareMock _) h fun _ s h => ?_
  refine post_quiet_bind (isQuiet_mockFor _) h fun m s h => ?_
  split
  · exact post_checks_tail (S.members _ _) h (by simp)
  · exact h

/-- One more fuel: every checking function runs as its tree says when the ones it calls do. -/
theorem Specs.succ (S : Specs n) : Specs (n + 1) where
  expr := S.checkExpr_succ
  expect := S.checkExpect_succ
  cond := S.checkCond_succ
  unary := S.checkUnary_succ
  binary := S.checkBinary_succ
  assign := S.checkAssign_succ
  index := S.checkIndex_succ
  interpolation := S.checkInterpolation_succ
  arrayLit := S.checkArrayLit_succ
  lambda := S.checkLambda_succ
  ifExpr := S.checkIfExpr_succ
  args := S.checkArgs_succ
  call := S.checkCall_succ
  valueCall := S.checkValueCall_succ
  superCall := S.checkSuperCall_succ
  nameCall := S.checkNameCall_succ
  methodCall := S.checkMethodCall_succ
  member := S.checkMember_succ
  newObject := S.checkNew_succ
  newArray := S.checkNewArray_succ
  stmt := S.checkStmt_succ
  stmts := S.checkStmts_succ
  block := S.checkBlock_succ
  body := S.checkBody_succ
  ifStmt := S.checkIf_succ
  forRange := S.checkFor_succ
  switchStmt := S.checkSwitch_succ
  varDecl := S.checkVar_succ
  returnStmt := S.checkReturn_succ
  mock := S.checkMock_succ
  members := S.checkMembers_succ
  function := S.checkFunction_succ
  constructorBody := S.checkConstructorBody_succ
  initializer := S.checkInitializer_succ

/-- Every checking function, at every fuel, runs as the tree it builds says. -/
theorem specs (n : Nat) : Specs n := by
  induction n with
  | zero => exact specs_zero
  | succ n ih => exact ih.succ

end CheckM

end AmLang
