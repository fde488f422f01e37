import AmLang.Check.Body
import AmLang.Proofs.Check.CaptureSteps
/-!
# Checking expressions, seen by the lambdas around them

The checking functions call each other with one less fuel, so what each of them does to the
scopes and frames is proved for all of them at once, by induction on the fuel. `CheckM.Specs n`
says that every checking function, run with fuel `n`, runs as the tree it builds says
(`CheckM.Checks`); this module proves each expression function's part of `Specs (n + 1)` from
`Specs n`, one lemma per function, following the function's code step by step.

Where a function's code continues at a join point from several branches (the code after an `if`
without `else`, or after a `match` whose branches report differently), the join point's part is
stated once as a `have` and used from each branch.
-/

namespace AmLang

namespace CheckM

/-- Every checking function, run with fuel `n`, runs as the tree it builds says: expressions and
statements mention what their trees do, and a checked declaration leaves the code around it
alone. Blocks and bodies are of a kind other than a lambda's. -/
structure Specs (n : Nat) : Prop where
  expr : ∀ e expected, Checks (checkExpr n e expected) TypedExpr.mentions
  expect : ∀ e target what, Checks (checkExpect n e target what) TypedExpr.mentions
  cond : ∀ e, Checks (checkCond n e) TypedExpr.mentions
  unary : ∀ op operand expected span,
    Checks (checkUnary n op operand expected span) TypedExpr.mentions
  binary : ∀ op l r span, Checks (checkBinary n op l r span) TypedExpr.mentions
  assign : ∀ op target value span, Checks (checkAssign n op target value span) TypedExpr.mentions
  index : ∀ obj idx span, Checks (checkIndex n obj idx span) TypedExpr.mentions
  interpolation : ∀ segs span, Checks (checkInterpolation n segs span) TypedExpr.mentions
  arrayLit : ∀ es expected span, Checks (checkArrayLit n es expected span) TypedExpr.mentions
  lambda : ∀ ps result body span, Checks (checkLambda n ps result body span) TypedExpr.mentions
  ifExpr : ∀ c a b expected span, Checks (checkIfExpr n c a b expected span) TypedExpr.mentions
  args : ∀ args, Checks (checkArgs n args) fun r => r.1.flatMap TypedExpr.mentions
  call : ∀ callee args span, Checks (checkCall n callee args span) TypedExpr.mentions
  valueCall : ∀ callee args span, Checks (checkValueCall n callee args span) TypedExpr.mentions
  superCall : ∀ callee args span, Checks (checkSuperCall n callee args span) TypedExpr.mentions
  nameCall : ∀ name calleeSpan args span,
    Checks (checkNameCall n name calleeSpan args span) TypedExpr.mentions
  methodCall : ∀ obj name safe nameSpan calleeSpan args span,
    Checks (checkMethodCall n obj name safe nameSpan calleeSpan args span) TypedExpr.mentions
  member : ∀ obj name safe nameSpan span,
    Checks (checkMember n obj name safe nameSpan span) TypedExpr.mentions
  newObject : ∀ te args span, Checks (checkNew n te args span) TypedExpr.mentions
  newArray : ∀ te size span, Checks (checkNewArray n te size span) TypedExpr.mentions
  stmt : ∀ st, Checks (checkStmt n st) TypedStmt.mentions
  stmts : ∀ ss, Checks (checkStmts n ss) fun r => r.flatMap TypedStmt.mentions
  block : ∀ ss kind facts, kind ≠ .lambda →
    Checks (checkBlock n ss kind facts) fun r => r.flatMap TypedStmt.mentions
  body : ∀ st kind facts, kind ≠ .lambda → Checks (checkBody n st kind facts) TypedStmt.mentions
  ifStmt : ∀ c t e span, Checks (checkIf n c t e span) TypedStmt.mentions
  forRange : ∀ var varSpan lo hi body span,
    Checks (checkFor n var varSpan lo hi body span) TypedStmt.mentions
  switchStmt : ∀ subject clauses span, Checks (checkSwitch n subject clauses span) TypedStmt.mentions
  varDecl : ∀ isVal name nameSpan type init span,
    Checks (checkVar n isVal name nameSpan type init span) TypedStmt.mentions
  returnStmt : ∀ value span, Checks (checkReturn n value span) TypedStmt.mentions
  mock : ∀ d, Checks (checkMock n d) fun _ => []
  members : ∀ c ms, Checks (checkMembers n c ms) fun _ => []
  function : ∀ f d, Checks (checkFunction n f d) fun _ => []
  constructorBody : ∀ f d stmts,
    Checks (checkConstructorBody n f d stmts) fun r => r.1.flatMap TypedStmt.mentions
  initializer : ∀ f d, Checks (checkInitializer n f d) fun _ => []

variable {n : Nat}

/-- Code checked with no fuel left is not checked: it mentions nothing. -/
theorem specs_zero : Specs 0 where
  expr e _ := by rw [checkExpr]; exact checks_pure (by simp [TypedExpr.unchecked])
  expect e _ _ := by rw [checkExpect]; exact checks_pure (by simp [TypedExpr.unchecked])
  cond e := by rw [checkCond]; exact checks_pure (by simp [TypedExpr.unchecked])
  unary _ operand _ _ := by rw [checkUnary]; exact checks_pure (by simp [TypedExpr.unchecked])
  binary _ l _ _ := by rw [checkBinary]; exact checks_pure (by simp [TypedExpr.unchecked])
  assign _ target _ _ := by rw [checkAssign]; exact checks_pure (by simp [TypedExpr.unchecked])
  index obj _ _ := by rw [checkIndex]; exact checks_pure (by simp [TypedExpr.unchecked])
  interpolation _ _ := by rw [checkInterpolation]; exact checks_pure (by simp)
  arrayLit _ _ _ := by rw [checkArrayLit]; exact checks_pure (by simp)
  lambda _ _ _ _ := by rw [checkLambda]; exact checks_pure (by simp)
  ifExpr c _ _ _ _ := by rw [checkIfExpr]; exact checks_pure (by simp [TypedExpr.unchecked])
  args _ := by rw [checkArgs]; exact checks_pure (by simp)
  call callee _ _ := by rw [checkCall]; exact checks_pure (by simp [TypedExpr.unchecked])
  valueCall callee _ _ := by rw [checkValueCall]; exact checks_pure (by simp [TypedExpr.unchecked])
  superCall callee _ _ := by rw [checkSuperCall]; exact checks_pure (by simp [TypedExpr.unchecked])
  nameCall _ _ _ _ := by rw [checkNameCall]; exact checks_pure (by simp)
  methodCall obj _ _ _ _ _ _ := by
    rw [checkMethodCall]; exact checks_pure (by simp [TypedExpr.unchecked])
  member obj _ _ _ _ := by rw [checkMember]; exact checks_pure (by simp [TypedExpr.unchecked])
  newObject _ _ _ := by rw [checkNew]; exact checks_pure (by simp)
  newArray _ _ _ := by rw [checkNewArray]; exact checks_pure (by simp)
  stmt st := by obtain ⟨k, span⟩ := st; rw [checkStmt]; exact checks_pure (by simp)
  stmts _ := by rw [checkStmts]; exact checks_pure (by simp)
  block _ _ _ _ := by rw [checkBlock]; exact checks_pure (by simp)
  body st _ _ _ := by obtain ⟨k, span⟩ := st; rw [checkBody]; exact checks_pure (by simp)
  ifStmt _ _ _ _ := by rw [checkIf]; exact checks_pure (by simp)
  forRange _ _ _ _ _ _ := by rw [checkFor]; exact checks_pure (by simp)
  switchStmt _ _ _ := by rw [checkSwitch]; exact checks_pure (by simp)
  varDecl _ _ _ _ _ _ := by rw [checkVar]; exact checks_pure (by simp)
  returnStmt _ _ := by rw [checkReturn]; exact checks_pure (by simp)
  mock _ := by rw [checkMock]; exact checks_pure rfl
  members _ _ := by rw [checkMembers]; exact checks_pure rfl
  function _ _ := by rw [checkFunction]; exact checks_pure rfl
  constructorBody _ _ _ := by rw [checkConstructorBody]; exact checks_pure (by simp)
  initializer _ _ := by rw [checkInitializer]; exact checks_pure rfl

/-- Code checked in a block of its own, under facts about the locals around it, mentions what the
code does. -/
theorem checks_narrowedBlock {x : CheckM α} {M : α → List Mention}
    (facts : CheckState → Narrowings) (hx : Checks x M) :
    Checks (inScope .block (get >>= fun s => applyNarrowings (facts s) >>= fun _ => x)) M :=
  checks_inScope (by decide) <| checks_quiet_bind isQuiet_get fun s =>
    checks_quiet_bind (isQuiet_applyNarrowings (facts s)) fun _ => hx

/-! ## One expression function at a time -/

theorem Specs.checkExpect_succ (S : Specs n) (e : Expr) (target : Ty) (what : String) :
    Checks (checkExpect (n + 1) e target what) TypedExpr.mentions := by
  refine checks_of_runs fun s₀ h => ?_
  rw [checkExpect]
  refine post_checks_bind (S.expr e _) h fun te s h => ?_
  refine post_quiet_bind (isQuiet_checkAssignable _ _ _ _ _) h fun _ s h => ?_
  exact post_pure_runs h (by simp)

theorem Specs.checkCond_succ (S : Specs n) (e : Expr) : Checks (checkCond (n + 1) e) TypedExpr.mentions := by
  refine checks_of_runs fun s₀ h => ?_
  rw [checkCond]
  refine post_checks_bind (S.expr e _) h fun te s h => ?_
  refine post_quiet_bind (isQuiet_checkCondition _ _) h fun _ s h => ?_
  exact post_pure_runs h (by simp)

theorem Specs.checkUnary_succ (S : Specs n) (op : UnaryOp) (operand : Expr) (expected : Option Ty)
    (span : Span) : Checks (checkUnary (n + 1) op operand expected span) TypedExpr.mentions := by
  refine checks_of_runs fun s₀ h => ?_
  cases op with
  | not =>
    rw [checkUnary]
    refine post_checks_bind (S.cond operand) h fun o s h => ?_
    exact post_pure_runs h (by simp)
  | neg | bitNot =>
    rw [checkUnary.eq_3 _ _ _ _ _ (by decide)]
    refine post_checks_bind (S.expr operand _) h fun o s h => ?_
    refine post_quiet_bind (isQuiet_unaryType _ _ _) h fun _ s h => ?_
    exact post_pure_runs h (by simp)

theorem Specs.checkBinary_succ (S : Specs n) (op : BinaryOp) (l r : Expr) (span : Span) :
    Checks (checkBinary (n + 1) op l r span) TypedExpr.mentions := by
  refine checks_of_runs fun s₀ h => ?_
  rw [checkBinary]
  split
  · -- `&&` and `||`: the right side is checked under the facts of the left
    refine post_checks_bind (S.cond l) h fun lt s h => ?_
    refine post_checks_bind (checks_narrowedBlock _ (S.cond r)) h fun rt s h => ?_
    exact post_pure_runs h (by simp)
  · refine post_checks_bind (S.expr l _) h fun lt s h => ?_
    refine post_checks_bind (S.expr r _) h fun rt s h => ?_
    split
    · exact post_pure_runs h (by simp)
    refine post_quiet_bind (isQuiet_binaryType _ _ _ _) h fun q s h => ?_
    split
    split
    · exact post_setStringify_bind fun lt' hl => post_setStringify_bind fun rt' hr =>
        post_pure_runs h (by simp [hl, hr])
    · exact post_pure_runs h (by simp)

theorem Specs.checkIndex_succ (S : Specs n) (obj idx : Expr) (span : Span) :
    Checks (checkIndex (n + 1) obj idx span) TypedExpr.mentions := by
  refine checks_of_runs fun s₀ h => ?_
  rw [checkIndex]
  refine post_checks_bind (S.expr obj _) h fun o s h => ?_
  refine post_checks_bind (S.expr idx _) h fun i s h => ?_
  extract_lets node typed
  -- whatever is reported about the index, the tree reads what its parts read
  have htyped : ∀ u s, Runs ([] ++ o.mentions ++ i.mentions) s₀ s →
      Post (typed u) (fun r s' => Runs r.mentions s₀ s') s := by
    intro u s h
    dsimp only [typed]
    split
    · exact post_pure_runs h (by simp)
    · split
      · refine post_quiet_bind (isQuiet_nullSafetyNoted _ _ _) h fun _ s h => ?_
        exact post_pure_runs h (by simp)
      · exact post_pure_runs h (by simp)
    · refine post_quiet_bind (isQuiet_display _) h fun _ s h => ?_
      refine post_quiet_bind (isQuiet_mismatch _ _) h fun _ s h => ?_
      exact post_pure_runs h (by simp)
  split
  · refine post_quiet_bind (isQuiet_display _) h fun _ s h => ?_
    exact post_quiet_bind (isQuiet_mismatch _ _) h fun u s h => htyped u s h
  · exact htyped () s h

theorem Specs.checkInterpolation_succ (S : Specs n) (segs : List Segment) (span : Span) :
    Checks (checkInterpolation (n + 1) segs span) TypedExpr.mentions := by
  refine checks_of_runs fun s₀ h => ?_
  rw [checkInterpolation]
  refine post_checks_bind (checks_mapM (M := TypedSegment.mentions) fun seg _ => ?_) h
    fun typed s h => ?_
  · refine checks_of_runs fun s₁ h₁ => ?_
    cases seg with
    | text t _ => exact post_pure_runs h₁ (by simp)
    | expr e segSpan =>
      refine post_checks_bind (S.expr e _) h₁ fun te s h => ?_
      split
      · refine post_quiet_bind (isQuiet_mismatch _ _) h fun _ s h => ?_
        exact post_pure_runs h (by simp)
      · exact post_setStringify_bind fun te' hte => post_pure_runs h (by simp [hte])
  · exact post_pure_runs h (by simp)

theorem Specs.checkIfExpr_succ (S : Specs n) (c a b : Expr) (expected : Option Ty) (span : Span) :
    Checks (checkIfExpr (n + 1) c a b expected span) TypedExpr.mentions := by
  refine checks_of_runs fun s₀ h => ?_
  rw [checkIfExpr]
  refine post_checks_bind (S.cond c) h fun ct s h => ?_
  refine post_checks_bind (checks_narrowedBlock _ (S.expr a expected)) h fun thenT s h => ?_
  refine post_checks_bind (checks_narrowedBlock _ (S.expr b expected)) h fun elseT s h => ?_
  refine post_quiet_bind (isQuiet_branchType _ _ _ _) h fun _ s h => ?_
  exact post_pure_runs h (by simp)

theorem Specs.checkArgs_succ (S : Specs n) (args : List Expr) :
    Checks (checkArgs (n + 1) args) fun r => r.1.flatMap TypedExpr.mentions := by
  refine checks_of_runs fun s₀ h => ?_
  rw [checkArgs]
  refine post_checks_bind (checks_mapM fun a _ => S.expr a none) h fun typed s h => ?_
  exact post_pure_runs h (by simp)

theorem Specs.checkNewArray_succ (S : Specs n) (te : TypeExpr) (size : Expr) (span : Span) :
    Checks (checkNewArray (n + 1) te size span) TypedExpr.mentions := by
  refine checks_of_runs fun s₀ h => ?_
  rw [checkNewArray]
  refine post_quiet_bind (isQuiet_checkResolveType _) h fun element s h => ?_
  refine post_checks_bind (S.expr size _) h fun st s h => ?_
  extract_lets element' t node
  have hnode : ∀ u s, Runs ([] ++ st.mentions) s₀ s →
      Post (node u) (fun r s' => Runs r.mentions s₀ s') s := by
    intro u s h
    dsimp only [node]
    split
    · exact post_pure_runs h (by simp)
    · refine post_quiet_bind (isQuiet_recordType _ _) h fun _ s h => ?_
      exact post_pure_runs h (by simp)
  split
  · refine post_quiet_bind (isQuiet_display _) h fun _ s h => ?_
    exact post_quiet_bind (isQuiet_mismatch _ _) h fun u s h => hnode u s h
  · exact hnode () s h

theorem Specs.checkArrayLit_succ (S : Specs n) (es : List Expr) (expected : Option Ty)
    (span : Span) : Checks (checkArrayLit (n + 1) es expected span) TypedExpr.mentions := by
  refine checks_of_runs fun s₀ h => ?_
  rw [checkArrayLit.eq_def]
  dsimp only
  split
  · -- against the expected element type
    refine post_checks_bind (checks_mapM fun e _ => S.expect e _ _) h fun typed s h => ?_
    refine post_quiet_bind (isQuiet_recordType _ _) h fun _ s h => ?_
    exact post_pure_runs h (by simp)
  split
  · refine post_quiet_bind (isQuiet_mismatchNoted _ _ _) h fun _ s h => ?_
    exact post_pure_runs h (by simp)
  -- the loop's state holds the elements checked so far, which the run mentions
  refine post_bind_of (post_forIn (fun st => st.2.2.toList.flatMap TypedExpr.mentions)
    (fun e _ st s h => ?_) _ s₀ (h.congr (by simp))) fun st s h => ?_
  · refine post_checks_bind (S.expr e _) h fun te s h => ?_
    have hpush : ∀ m, m ∈ st.2.2.toList.flatMap TypedExpr.mentions ++ te.mentions ↔
        m ∈ (st.2.2.push te).toList.flatMap TypedExpr.mentions := by simp
    split
    · exact h.congr hpush
    split
    · exact h.congr hpush
    refine post_quiet_bind isQuiet_env h fun _ s h => ?_
    split
    · exact h.congr hpush
    refine post_quiet_bind (isQuiet_display _) h fun _ s h => ?_
    refine post_quiet_bind (isQuiet_display _) h fun _ s h => ?_
    refine post_quiet_bind (isQuiet_mismatch _ _) h fun _ s h => ?_
    exact h.congr hpush
  · split
    · split
      · refine post_quiet_bind (isQuiet_mismatch _ _) h fun _ s h => ?_
        exact post_pure_runs h (by simp)
      · refine post_quiet_bind (isQuiet_recordType _ _) h fun _ s h => ?_
        exact post_pure_runs h (by simp)
    · exact post_pure_runs h (by simp)

/-- A lambda captures exactly when the frame its body was checked in holds, each once, the locals
the body reads from before the lambda, those being the ones it does not declare, and `this` when
the body uses the running object. -/
theorem capturesExact_of_frame {ps : List LocalId} {body : TypedLambdaBody} {frame : LambdaFrame}
    {size : Nat} (hnodup : frame.captures.toList.Nodup)
    (hdecl : ∀ y, .read y ∈ ps.map .declare ++ body.mentions →
      (y < size ↔ .declare y ∉ ps.map .declare ++ body.mentions))
    (hframe : (∀ y, y ∈ frame.captures ↔ .read y ∈ ps.map .declare ++ body.mentions ∧ y < size) ∧
      (frame.capturesThis = true ↔ .self ∈ ps.map .declare ++ body.mentions)) :
    CapturesExact ps body frame.captures.toList frame.capturesThis := by
  refine ⟨hnodup, fun y => ?_, by simpa using hframe.2⟩
  rw [Array.mem_toList_iff, hframe.1 y]
  constructor
  · rintro ⟨hr, hlt⟩
    have hnd := (hdecl y hr).1 hlt
    simp only [List.mem_append, List.mem_map, reduceCtorEq, and_false,
      exists_false, false_or, Mention.declare.injEq, exists_eq_right, not_or] at hr hnd
    exact ⟨hr, hnd⟩
  · rintro ⟨hr, hps, hbody⟩
    have hr' : Mention.read y ∈ ps.map .declare ++ body.mentions := List.mem_append_right _ hr
    refine ⟨hr', (hdecl y hr').2 ?_⟩
    simp [hps, hbody]

theorem Specs.checkLambda_succ (S : Specs n) (ps : List Param) (result : Option TypeExpr)
    (body : LambdaBody) (span : Span) :
    Checks (checkLambda (n + 1) ps result body span) TypedExpr.mentions := by
  refine checks_of_runs fun s₀ h => ?_
  rw [checkLambda]
  rw [post_get_bind]
  refine post_quiet_bind (isQuiet_modify fun _ => Quiet.of_eq rfl rfl rfl rfl rfl rfl) h
    fun _ s h => ?_
  refine post_quiet_bind (isQuiet_mapM _ fun p _ => isQuiet_checkResolveType _) h
    fun paramTypes s h => ?_
  refine post_quiet_bind (isQuiet_optionMapM _ fun te => isQuiet_checkResolveType te) h
    fun declared s₁ h₁ => ?_
  rw [post_get_bind]
  refine post_bind_of (post_inLambda (M := fun a => a.1.map Mention.declare ++ a.2.1.mentions)
    (checks_of_runs fun s₂ h₂ => ?_) h₁.inv) fun r s h => ?_
  · -- the body, in its own scope and frame after its parameters
    refine post_checks_bind (checks_mapM (M := fun x => [Mention.declare x]) fun pt _ => ?_) h₂
      fun params s h => ?_
    · obtain ⟨p, t⟩ := pt
      exact checks_defineLocal _ _ _ _ _
    extract_lets finish r stmtsDone
    have hfinish : ∀ (tb : TypedLambdaBody) (t : Ty) s, Runs ([] ++
        params.flatMap (fun x => [Mention.declare x]) ++ tb.mentions) s₂ s →
        Post (pure (tb, t) >>= finish) (fun r s' =>
          Runs (r.1.map Mention.declare ++ r.2.1.mentions) s₂ s') s := by
      intro tb t s h
      exact post_pure_runs h (by simp [eq_comm])
    split
    · refine post_quiet_bind (isQuiet_modify fun _ => Quiet.of_eq rfl rfl rfl rfl rfl rfl) h
        fun _ s h => ?_
      split
      · split
        · exact post_checks_bind (S.expr _ _) h fun te s h => hfinish (.expr te) _ s h
        · exact post_checks_bind (S.expect _ _ _) h fun te s h => hfinish (.expr te) _ s h
      · refine post_checks_bind (S.expr _ _) h fun te s h => ?_
        split
        · refine post_quiet_bind (isQuiet_mismatch _ _) h fun _ s h => ?_
          exact hfinish (.expr te) _ s h
        split
        · exact hfinish (.expr te) _ s h
        · exact hfinish (.expr te) _ s h
    · refine post_quiet_bind (isQuiet_modify fun _ => Quiet.of_eq rfl rfl rfl rfl rfl rfl) h
        fun _ s h => ?_
      have hdone : ∀ stmts s, Runs ([] ++ params.flatMap (fun x => [Mention.declare x]) ++
          stmts.flatMap TypedStmt.mentions) s₂ s → Post (stmtsDone stmts) (fun r s' =>
            Runs (r.1.map Mention.declare ++ r.2.1.mentions) s₂ s') s := by
        intro stmts s h
        dsimp only [stmtsDone]
        split
        · refine post_quiet_bind (isQuiet_display _) h fun _ s h => ?_
          refine post_quiet_bind (isQuiet_mismatch _ _) h fun _ s h => ?_
          exact hfinish (.block stmts) _ s (h.congr (by simp))
        · exact hfinish (.block stmts) _ s (h.congr (by simp))
      split
      · exact post_checks_bind (S.stmts _) h fun stmts s h => hdone stmts s h
      · refine post_checks_bind (S.stmt _) h fun st s h => ?_
        exact hdone [st] s (h.congr (by simp))
  · -- the lambda itself, with the captures its frame gathered
    obtain ⟨⟨params, typedBody, rt⟩, frame⟩ := r
    obtain ⟨h₂, -, hnodup, hdecl, hframe⟩ := h
    have hlam : Runs ([] ++ (params.map Mention.declare ++ typedBody.mentions) ++
        [.lambda params typedBody frame.captures.toList frame.capturesThis]) s₀ s :=
      (h₁.trans h₂).lambda fun he =>
        capturesExact_of_frame hnodup hdecl (hframe (diags_sandwich h₁.diags h₂.diags he).2)
    dsimp only
    refine post_quiet_bind (isQuiet_modify fun _ => Quiet.of_eq rfl rfl rfl rfl rfl rfl) hlam
      fun _ s h => ?_
    refine post_quiet_bind (isQuiet_recordType _ _) h fun _ s h => ?_
    refine post_quiet_bind (isQuiet_log _) h fun _ s h => ?_
    exact post_pure_runs h fun m => by simpa using or_rotate.symm

theorem Specs.checkAssign_succ (S : Specs n) (op : AssignOp) (target value : Expr)
    (span : Span) : Checks (checkAssign (n + 1) op target value span) TypedExpr.mentions := by
  refine checks_of_runs fun s₀ h => ?_
  rw [checkAssign.eq_def]
  dsimp -zeta only
  rw [post_get_bind]
  extract_lets localTarget assigned
  -- the value, and what assigning it teaches about the local assigned
  have hassigned : ∀ (p : TypedExpr × Ty × Ty × Option LocalId) s, Runs ([] ++ p.1.mentions) s₀ s →
      Post (assigned p) (fun r s' => Runs r.mentions s₀ s') s := by
    intro p s h
    dsimp -zeta only [assigned]
    extract_lets finish
    have hfinish : ∀ (vt : TypedExpr) (t : Ty) (concat : Bool) s,
        Runs ([] ++ p.1.mentions ++ vt.mentions) s₀ s →
        Post (pure (vt, t, concat) >>= finish) (fun r s' => Runs r.mentions s₀ s') s := by
      intro vt t concat s h
      rw [post_pure_bind]
      dsimp only [finish]
      split
      · refine post_quiet_bind (isQuiet_forget _) h fun _ s h => ?_
        refine post_quiet_bind (isQuiet_localVar _) h fun l s h => ?_
        split
        · refine post_quiet_bind (isQuiet_narrow _ _) h fun _ s h => ?_
          exact post_pure_runs h (by simp)
        · exact post_pure_runs h (by simp)
      · exact post_pure_runs h (by simp)
    split
    · split
      · exact post_checks_bind (S.expr _ _) h fun vt s h => hfinish vt _ _ s h
      · exact post_checks_bind (S.expect _ _ _) h fun vt s h => hfinish vt _ _ s h
    · refine post_checks_bind (S.expr _ _) h fun vt s h => ?_
      split
      · exact hfinish vt _ _ s h
      · refine post_quiet_bind (isQuiet_compoundType _ _ _ _) h fun q s h => ?_
        split
        · exact post_setStringify_bind fun vt' hv => hfinish vt' _ _ s (h.congr (by simp [hv]))
        · exact hfinish vt _ _ s h
  have hlt : ∀ name x, localTarget = some (name, x) → s₀.scopes.lookup name = some x := by
    intro name x hl
    simp only [localTarget] at hl
    split at hl
    · obtain ⟨hx, rfl⟩ := by simpa using hl
      exact hx
    · cases hl
  clear_value localTarget
  split
  · -- a local is assigned: the target reads it, capturing it only after an error
    rename_i _ name x
    have hx := hlt name x rfl
    rw [post_localVar_bind]
    extract_lets current ident
    have hident : ∀ s, Runs ([] ++ [.read x]) s₀ s →
        Post (ident ()) (fun r s' => Runs r.mentions s₀ s') s := by
      intro s h
      dsimp only [ident]
      rw [post_pure_bind]
      refine hassigned (_, _, _, _) s (h.congr ?_)
      simp
    have hvis : ∀ m ∈ [Mention.read x], m = .self ∨ ∃ y, m = .read y ∧ Visible s₀.scopes y := by
      simpa using visible_of_lookup hx
    split
    · exact post_reports_bind _ (reports_mismatch _ _) h hvis hident
    split
    · exact post_reports_bind _ (reports_mismatchNoted _ _ _) h hvis hident
    split
    · exact post_reports_bind _ (reports_mismatch _ _) h hvis hident
    · rename_i hcross
      exact hident s₀ (h.read_of_not_crosses hx (by simpa using hcross))
  · -- otherwise the target is checked as an expression
    split
    pick_goal 4
    · refine post_checks_bind (S.expr _ _) h fun tt s h => ?_
      refine post_quiet_bind (isQuiet_mismatch _ _) h fun _ s h => ?_
      rw [post_pure_bind]
      exact hassigned (tt, _, _, _) s h
    -- a name, member or element: the three forms share their code
    all_goals
      refine post_checks_bind (S.expr _ _) h fun tt s h => ?_
      extract_lets targetType done
      have hdone : ∀ u t s, Runs ([] ++ tt.mentions) s₀ s →
          Post (done u t) (fun r s' => Runs r.mentions s₀ s') s := by
        intro u t s h
        dsimp only [done]
        rw [post_pure_bind]
        exact hassigned (tt, _, _, _) s h
      split
      · split
        · exact post_quiet_bind (isQuiet_mismatch _ _) h fun _ s h => hdone () _ s h
        split
        · exact post_quiet_bind (isQuiet_mismatch _ _) h fun _ s h => hdone () _ s h
        rw [post_get_bind]
        extract_lets fd
        split
        · split
          · exact post_quiet_bind (isQuiet_mismatchNoted _ _ _) h fun u s h => hdone u _ s h
          · exact hdone () _ s h
        · exact hdone () _ s h
      · exact hdone () _ s h

/-- An expression checks as its form says: names, `this` and `super` by their own lemmas, every
other form by the function that checks it, one fuel lower. -/
theorem Specs.checkExpr_succ (S : Specs n) (e : Expr) (expected : Option Ty) :
    Checks (checkExpr (n + 1) e expected) TypedExpr.mentions := by
  obtain ⟨k, span⟩ := e
  cases k with
  | literal tok => rw [checkExpr]; exact checks_pure (by simp)
  | ident name => rw [checkExpr]; exact checks_checkIdent name span
  | thisRef => rw [checkExpr]; exact checks_checkThis span
  | superRef =>
    rw [checkExpr]
    refine checks_of_runs fun s₀ h => ?_
    exact post_reports_bind [.self] (reports_misplaced _ _) h (by simp) fun s h =>
      post_pure_runs h (by simp)
  | unary op operand => rw [checkExpr]; exact S.unary op operand expected span
  | binary op l r => rw [checkExpr]; exact S.binary op l r span
  | assign op target value => rw [checkExpr]; exact S.assign op target value span
  | call callee args => rw [checkExpr]; exact S.call callee args span
  | member obj name safe nameSpan => rw [checkExpr]; exact S.member obj name safe nameSpan span
  | index obj idx => rw [checkExpr]; exact S.index obj idx span
  | newObject te args => rw [checkExpr]; exact S.newObject te args span
  | newArray te size => rw [checkExpr]; exact S.newArray te size span
  | interpolation segs => rw [checkExpr]; exact S.interpolation segs span
  | arrayLit es => rw [checkExpr]; exact S.arrayLit es expected span
  | lambda ps result body => rw [checkExpr]; exact S.lambda ps result body span
  | cast operand te =>
    rw [checkExpr]
    refine checks_of_runs fun s₀ h => ?_
    refine post_checks_bind (S.expr operand _) h fun o s h => ?_
    refine post_quiet_bind (isQuiet_checkResolveType te) h fun target s h => ?_
    refine post_quiet_bind (isQuiet_recordType _ _) h fun _ s h => ?_
    refine post_quiet_bind (isQuiet_castType _ _ _) h fun t s h => ?_
    exact post_pure_runs h (by simp)
  | typeTest operand te =>
    rw [checkExpr]
    refine checks_of_runs fun s₀ h => ?_
    refine post_checks_bind (S.expr operand _) h fun o s h => ?_
    refine post_quiet_bind (isQuiet_checkResolveType te) h fun target s h => ?_
    refine post_quiet_bind (isQuiet_recordType _ _) h fun _ s h => ?_
    refine post_quiet_bind (isQuiet_checkTypeTest _ _ _ _) h fun _ s h => ?_
    exact post_pure_runs h (by simp)
  | cond c a b => rw [checkExpr]; exact S.ifExpr c a b expected span

end CheckM

end AmLang
