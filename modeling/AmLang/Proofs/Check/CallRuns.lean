import AmLang.Proofs.Check.ExprRuns
/-!
# Checking calls, members and `new`, seen by the lambdas around them

The parts of `CheckM.Specs (n + 1)` for the functions that check calls, member accesses and
object creation. Their trees read what the receiver and the arguments read, and use the running
object exactly where checking captured it: an instance method of the current class called by its
plain name, or `super`. A `super` call is only accepted outside every lambda, so it captures
nothing; where it is rejected, the error stands for the capture.

Resolving a call never marks it as reaching the running object (`yields_finishCall`,
`yields_closureCall`), so the information it returns adds nothing to what the tree mentions.
-/

namespace AmLang

namespace CheckM

variable {n : Nat}

theorem Specs.checkValueCall_succ (S : Specs n) (callee : Expr) (args : List Expr) (span : Span) :
    Checks (checkValueCall (n + 1) callee args span) TypedExpr.mentions := by
  refine checks_of_runs fun s₀ h => ?_
  rw [checkValueCall]
  refine post_checks_bind (S.expr _ _) h fun ct s h => ?_
  refine post_checks_bind (S.args _) h fun q s h => ?_
  split
  split
  · split
    · exact post_pure_runs h (by simp)
    · refine post_quiet_yields_bind (isQuiet_closureCall _ _ _ _ _) (yields_closureCall _ _ _ _ _)
        h fun r s hr h => ?_
      exact post_pure_runs h (by simp [hr])
  · exact post_pure_runs h (by simp)

theorem Specs.checkCall_succ (S : Specs n) (callee : Expr) (args : List Expr) (span : Span) :
    Checks (checkCall (n + 1) callee args span) TypedExpr.mentions := by
  refine checks_of_runs fun s₀ h => ?_
  rw [checkCall.eq_def]
  dsimp -zeta only
  split
  · exact S.superCall _ _ _ s₀ h.inv
  · exact S.methodCall _ _ _ _ _ _ _ s₀ h.inv
  · refine post_quiet_bind (isQuiet_isValueName _) h fun isValue s h => ?_
    split
    · exact post_checks_tail (S.valueCall _ _ _) h (by simp)
    · exact post_checks_tail (S.nameCall _ _ _ _) h (by simp)
  · exact S.valueCall _ _ _ s₀ h.inv

theorem Specs.checkSuperCall_succ (S : Specs n) (callee : Expr) (args : List Expr) (span : Span) :
    Checks (checkSuperCall (n + 1) callee args span) TypedExpr.mentions := by
  refine checks_of_runs fun s₀ h => ?_
  rw [checkSuperCall]
  refine post_checks_bind (S.args _) h fun q s h => ?_
  split
  rw [post_get_bind]
  extract_lets t node inConstructor
  split
  · -- rejected: the error stands for the use of the running object
    exact post_reports_bind [.self] (reports_misplaced _ _) h (by simp) fun s h =>
      post_pure_runs h (by simp [or_comm])
  -- accepted outside every lambda, where the running object needs no capture
  rename_i hallowed
  have hnil : s.lambdas = [] := List.isEmpty_iff.1 (by simp_all)
  refine post_quiet_bind (isQuiet_modify fun _ => Quiet.of_eq rfl rfl rfl rfl rfl rfl)
    (h.self_of_no_frames hnil) fun _ s h => ?_
  split
  · refine post_quiet_yields_bind (isQuiet_finishCall _ _ _ _ _ _) (yields_finishCall _ _ _ _ _ _)
      h fun r s hr h => ?_
    split
    split
    · exact post_pure_runs h (by simp [or_comm])
    · exact post_pure_runs h (by simp [or_comm])
  · exact post_pure_runs h (by simp [or_comm])

theorem Specs.checkNew_succ (S : Specs n) (te : TypeExpr) (args : List Expr) (span : Span) :
    Checks (checkNew (n + 1) te args span) TypedExpr.mentions := by
  refine checks_of_runs fun s₀ h => ?_
  rw [checkNew]
  refine post_checks_bind (S.args _) h fun q s h => ?_
  split
  extract_lets node
  split
  · refine post_quiet_bind (isQuiet_checkResolveType _) h fun ty s h => ?_
    split
    · exact post_pure_runs h (by simp)
    split
    · rw [post_get_bind]
      extract_lets t c k subst candidates info
      split
      · refine post_quiet_bind (isQuiet_mismatch _ _) h fun _ s h => ?_
        exact post_pure_runs h (by simp)
      split
      · split
        · refine post_quiet_bind (isQuiet_mismatch _ _) h fun _ s h => ?_
          exact post_pure_runs h (by simp)
        refine post_quiet_yields_bind (isQuiet_finishCall _ _ _ _ _ _)
          (yields_finishCall _ _ _ _ _ _) h fun r s hr h => ?_
        split
        simp only [info] at hr
        split
        · exact post_pure_runs h (by simp [hr])
        refine post_quiet_bind (isQuiet_recordType _ _) h fun _ s h => ?_
        split
        · refine post_quiet_bind (isQuiet_log _) h fun _ s h => ?_
          exact post_pure_runs h (by simp [hr])
        · exact post_pure_runs h (by simp [hr])
      · exact post_pure_runs h (by simp)
    · refine post_quiet_bind (isQuiet_display _) h fun _ s h => ?_
      refine post_quiet_bind (isQuiet_mismatch _ _) h fun _ s h => ?_
      exact post_pure_runs h (by simp)
  · refine post_quiet_bind (isQuiet_mismatch _ _) h fun _ s h => ?_
    exact post_pure_runs h (by simp)

theorem Specs.checkNameCall_succ (S : Specs n) (name : String) (calleeSpan : Span)
    (args : List Expr) (span : Span) :
    Checks (checkNameCall (n + 1) name calleeSpan args span) TypedExpr.mentions := by
  refine checks_of_runs fun s₀ h => ?_
  rw [checkNameCall]
  refine post_checks_bind (S.args _) h fun q s h => ?_
  split
  rename_i typedArgs bound
  rw [post_get_bind]
  extract_lets t calleeNode node
  split
  split
  · -- a method of the current class: an instance method captures the running object
    split
    · refine post_quiet_yields_bind (isQuiet_finishCall _ _ _ _ _ _)
        (yields_finishCall _ _ _ _ _ _) h fun r s hr h => ?_
      split
      simp only at hr
      split
      · extract_lets fs info called thisInfo
        have hcalled : ∀ u (i : ExprInfo) s, Runs ([] ++ typedArgs.flatMap TypedExpr.mentions ++
            i.selfMentions) s₀ s → Post (called u i) (fun r s' => Runs r.mentions s₀ s') s := by
          intro u i s h
          exact post_pure_runs h (by simp [calleeNode, or_comm])
        split
        · rw [post_get_bind]
          split
          · refine post_quiet_bind (isQuiet_mismatch _ _) h fun _ s h => ?_
            exact post_pure_runs h (by simp [hr, info, calleeNode])
          · exact post_captureThis_bind h fun s h => hcalled () _ s (h.congr (by simp [thisInfo]))
        · exact hcalled () _ s (h.congr (by simp [info, hr]))
      · exact post_pure_runs h (by simp [hr, calleeNode])
    · exact post_pure_runs h (by simp [calleeNode])
  · -- a function of the namespaces
    refine post_quiet_bind isQuiet_names h fun l s h => ?_
    split
    · split
      · refine post_quiet_bind (isQuiet_mismatch _ _) h fun _ s h => ?_
        exact post_pure_runs h (by simp [calleeNode])
      · refine post_quiet_bind (isQuiet_unresolved _ _ _) h fun _ s h => ?_
        exact post_pure_runs h (by simp [calleeNode])
    · split
      · refine post_quiet_yields_bind (isQuiet_finishCall _ _ _ _ _ _)
          (yields_finishCall _ _ _ _ _ _) h fun r s hr h => ?_
        split
        simp only at hr
        split
        · exact post_pure_runs h (by simp [hr, calleeNode])
        · exact post_pure_runs h (by simp [hr, calleeNode])
      · exact post_pure_runs h (by simp [calleeNode])

theorem Specs.checkMember_succ (S : Specs n) (obj : Expr) (name : String) (safe : Bool)
    (nameSpan span : Span) :
    Checks (checkMember (n + 1) obj name safe nameSpan span) TypedExpr.mentions := by
  refine checks_of_runs fun s₀ h => ?_
  rw [checkMember]
  rw [post_get_bind]
  extract_lets +onlyGivenNames t env node
  split
  · -- through `super`, which captures the running object unless an error was reported
    dsimp only
    split
    · split
      · exact post_reports_bind [.self] (reports_mismatch _ _) h (by simp) fun s h =>
          post_pure_runs h (by simp)
      · refine post_captureThis_bind h fun s h => ?_
        split
        · exact post_pure_runs h (by simp)
        · refine post_quiet_bind (isQuiet_unresolved _ _ _) h fun _ s h => ?_
          exact post_pure_runs h (by simp)
    · exact post_reports_bind [.self] (reports_mismatch _ _) h (by simp) fun s h =>
        post_pure_runs h (by simp)
  refine post_quiet_bind (isQuiet_staticPath _) h fun path s h => ?_
  split
  · -- a static field of a class, or a variable of a namespace
    dsimp only
    split
    · split
      · exact post_pure_runs h (by simp)
      split
      · refine post_quiet_bind (isQuiet_mismatch _ _) h fun _ s h => ?_
        exact post_pure_runs h (by simp)
      · refine post_quiet_bind (isQuiet_unresolved _ _ _) h fun _ s h => ?_
        exact post_pure_runs h (by simp)
    · refine post_quiet_bind isQuiet_names h fun l s h => ?_
      split
      · exact post_pure_runs h (by simp [TypedExpr.unchecked])
      · refine post_quiet_bind (isQuiet_unresolved _ _ _) h fun _ s h => ?_
        exact post_pure_runs h (by simp [TypedExpr.unchecked])
  -- a field of a value, which reads what the receiver reads
  refine post_checks_bind (S.expr _ _) h fun recv s h => ?_
  split
  · exact post_pure_runs h (by simp)
  split
  · refine post_quiet_bind (isQuiet_nullSafetyNoted _ _ _) h fun _ s h => ?_
    exact post_pure_runs h (by simp)
  extract_lets +onlyGivenNames safeChain target base result fieldNames field
  have hfield : ∀ u s, Runs ([] ++ recv.mentions) s₀ s →
      Post (field u) (fun r s' => Runs r.mentions s₀ s') s := by
    intro u s h
    dsimp only [field]
    split
    · exact post_pure_runs h (by simp [base])
    split
    · refine post_quiet_bind (isQuiet_mismatchNoted _ _ _) h fun _ s h => ?_
      exact post_pure_runs h (by simp [base])
    · refine post_quiet_bind (isQuiet_unresolvedAmong _ _ _ _) h fun _ s h => ?_
      exact post_pure_runs h (by simp [base])
  -- `length` of an array, or a field
  clear_value target
  split
  · split
    · exact post_pure_runs h (by simp [base])
    · exact hfield () s h
  · exact hfield () s h

theorem Specs.checkMethodCall_succ (S : Specs n) (obj : Expr) (name : String) (safe : Bool)
    (nameSpan calleeSpan : Span) (args : List Expr) (span : Span) :
    Checks (checkMethodCall (n + 1) obj name safe nameSpan calleeSpan args span)
      TypedExpr.mentions := by
  refine checks_of_runs fun s₀ h => ?_
  rw [checkMethodCall, post_get_bind]
  extract_lets +onlyGivenNames t env callNode
  split
  · -- through `super`, which captures the running object unless an error was reported
    refine post_checks_bind (S.args _) h fun q s h => ?_
    split
    dsimp only
    split
    · split
      · exact post_reports_bind [.self] (reports_mismatch _ _) h (by simp) fun s h =>
          post_pure_runs h (by simp [or_comm])
      refine post_captureThis_bind h fun s h => ?_
      split
      · refine post_quiet_bind (isQuiet_unresolved _ _ _) h fun _ s h => ?_
        exact post_pure_runs h (by simp [or_comm])
      split
      · refine post_quiet_yields_bind (isQuiet_finishCall _ _ _ _ _ _)
          (yields_finishCall _ _ _ _ _ _) h fun r s hr h => ?_
        split
        · split
          · refine post_quiet_bind (isQuiet_mismatch _ _) h fun _ s h => ?_
            exact post_pure_runs h (by simp [hr, or_comm])
          · exact post_pure_runs h (by simp [hr, or_comm])
        · exact post_pure_runs h (by simp [hr, or_comm])
      · exact post_pure_runs h (by simp [or_comm])
    · exact post_reports_bind [.self] (reports_mismatch _ _) h (by simp) fun s h =>
        post_pure_runs h (by simp [or_comm])
  refine post_quiet_bind (isQuiet_staticPath _) h fun path s h => ?_
  split
  · -- on a class or namespace path, which mentions nothing
    refine post_checks_bind (S.args _) h fun q s h => ?_
    split
    rename_i typedArgs bound
    extract_lets +onlyGivenNames kind called
    have hcalled : ∀ (objT : TypedExpr) cands s, objT.mentions = [] →
        Runs ([] ++ (typedArgs, bound).1.flatMap TypedExpr.mentions) s₀ s →
        Post (called (objT, cands)) (fun r s' => Runs r.mentions s₀ s') s := by
      intro objT cands s hobj h
      dsimp only [called]
      split
      · exact post_pure_runs h (by simp [hobj])
      split
      · refine post_quiet_yields_bind (isQuiet_finishCall _ _ _ _ _ _)
          (yields_finishCall _ _ _ _ _ _) h fun r s hr h => ?_
        split
        · exact post_pure_runs h (by simp [hr, hobj])
        · exact post_pure_runs h (by simp [hr, hobj])
      · exact post_pure_runs h (by simp [hobj])
    split
    · dsimp only
      split
      · refine post_quiet_bind (isQuiet_unresolved _ _ _) h fun _ s h => ?_
        rw [post_pure_bind]
        exact hcalled _ _ s rfl h
      · rw [post_pure_bind]
        exact hcalled _ _ s rfl h
    · dsimp only
      refine post_quiet_bind isQuiet_names h fun l s h => ?_
      split
      · rw [post_pure_bind]
        exact hcalled _ _ s (by simp [TypedExpr.unchecked]) h
      · refine post_quiet_bind (isQuiet_unresolved _ _ _) h fun _ s h => ?_
        rw [post_pure_bind]
        exact hcalled _ _ s (by simp [TypedExpr.unchecked]) h
  -- on a value, which the call reads
  refine post_checks_bind (S.expr _ _) h fun recv s h => ?_
  refine post_checks_bind (S.args _) h fun q s h => ?_
  split
  rename_i typedArgs bound
  split
  · exact post_pure_runs h (by simp)
  split
  · refine post_quiet_bind (isQuiet_nullSafetyNoted _ _ _) h fun _ s h => ?_
    exact post_pure_runs h (by simp)
  -- the receiver's information and the callee's are the same record, extracted once
  extract_lets +onlyGivenNames safeChain target base finish methodNames unresolvedCall
  clear_value target
  split
  split
  · -- no method of that name: a field holding a function, or an error
    have hunresolved : ∀ u s, Runs ([] ++ recv.mentions ++ typedArgs.flatMap TypedExpr.mentions) s₀ s →
        Post (unresolvedCall u) (fun r s' => Runs r.mentions s₀ s') s := by
      intro u s h
      dsimp only [unresolvedCall]
      refine post_quiet_bind (isQuiet_unresolvedAmong _ _ _ _) h fun _ s h => ?_
      exact post_pure_runs h (by simp [base])
    split
    · split
      · split
        · refine post_quiet_yields_bind (isQuiet_closureCall _ _ _ _ _)
            (yields_closureCall _ _ _ _ _) h fun r s hr h => ?_
          split
          simp only at hr
          exact post_pure_runs h (by simp [hr, base])
        · exact post_pure_runs h (by simp [base])
      · exact hunresolved () s h
    · exact hunresolved () s h
  · split
    · refine post_quiet_yields_bind (isQuiet_finishCall _ _ _ _ _ _)
        (yields_finishCall _ _ _ _ _ _) h fun r s hr h => ?_
      split
      simp only at hr
      split
      · split
        · refine post_quiet_bind (isQuiet_mismatch _ _) h fun _ s h => ?_
          exact post_pure_runs h (by simp [hr, base])
        · exact post_pure_runs h (by simp [hr, base])
      · exact post_pure_runs h (by simp [hr, base])
    · exact post_pure_runs h (by simp [base])

end CheckM

end AmLang
