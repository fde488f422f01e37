import AmLang.Check.Unit
import AmLang.Proofs.Check.StmtRuns
/-!
# Lambdas capture exactly what their bodies need

Checking a unit declares its locals in increasing order along the nesting of scopes, opens a
frame for each lambda whose first local is the lambda's first own local, and marks a local as
captured when a name reaching past a lambda scope reads it. `CheckM.specs` proves that each
checking function runs as the tree it builds says; here the declarations of a unit are checked
one after the other from the empty state, so every checked body and initializer the unit
stores holds lambdas whose captures are exact (`CapturesExact`), whenever the unit reports no
error.

## Main results

* `CheckM.checks_checkDecls` — checking declarations leaves the code around them alone.
* `checkUnit_capturesExact` — every lambda of an accepted unit captures each local once,
  exactly those its body reads and does not declare, and `this` exactly when its body uses the
  running object, nested lambdas included.
-/

namespace AmLang

namespace CheckM

/-- Checking the declarations of a list, namespaces included, leaves the code around them alone:
each checked body runs on its own. -/
theorem checks_checkDecls (fuel : Nat) (ix : SiteIndex) (ns : String) (path : List Nat) (i : Nat)
    (decls : List Decl) : Checks (checkDecls fuel ix ns path i decls) fun _ => [] := by
  have S := specs fuel
  fun_induction checkDecls fuel ix ns path i decls with
  | case1 => exact checks_pure rfl
  | case2 ns path i d rest here ihRest ihMembers =>
    refine checks_of_runs fun s₀ h => ?_
    refine post_quiet_bind (isQuiet_modify fun _ => Quiet.of_eq rfl rfl rfl rfl rfl rfl) h
      fun _ s h => ?_
    extract_lets +onlyGivenNames next
    have hnext : ∀ u s, Runs ([] ++ []) s₀ s → Post (next u) (fun _ s' => Runs [] s₀ s') s :=
      fun u s h => post_checks_tail ihRest h (by simp)
    split
    · exact post_checks_bind ihMembers h fun u s h => hnext u s h
    · split
      · exact post_checks_bind (S.members _ _) h fun u s h => hnext u s h
      · exact hnext () s (h.congr (by simp))
    · split
      · exact post_checks_bind (S.members _ _) h fun u s h => hnext u s h
      · exact hnext () s (h.congr (by simp))
    · split
      · refine post_quiet_bind isQuiet_table h fun _ s h => ?_
        extract_lets +onlyGivenNames fs run
        have hrun : ∀ u s, Runs [] s₀ s → Post (run u) (fun _ s' => Runs [] s₀ s') s := by
          intro u s h
          refine post_quiet_bind (isQuiet_modify fun _ => Quiet.of_eq rfl rfl rfl rfl rfl rfl) h
            fun _ s h => ?_
          exact post_checks_bind (S.function _ _) h fun u s h => hnext u s h
        split
        · rw [post_get_bind]
          split
          · exact post_quiet_bind (isQuiet_report _) h fun u s h => hrun u s h
          · exact post_quiet_bind (isQuiet_modify fun _ => Quiet.of_eq rfl rfl rfl rfl rfl rfl) h
              fun u s h => hrun u s h
        · exact hrun () s h
      · exact hnext () s (h.congr (by simp))
    · refine post_quiet_bind (isQuiet_modify fun _ => Quiet.of_eq rfl rfl rfl rfl rfl rfl) h
        fun _ s h => ?_
      split
      · exact post_checks_bind (S.initializer _ _) h fun u s h => hnext u s h
      · exact hnext () s (h.congr (by simp))
    · exact hnext () s (h.congr (by simp))

end CheckM

/-- `P` holds of every lambda in a checked unit's function bodies and initializers, nested lambdas
included: of its parameters, its body, the locals it captures and whether it captures `this`. -/
def CheckedUnit.AllLambdas (u : CheckedUnit)
    (P : List LocalId → TypedLambdaBody → List LocalId → Bool → Prop) : Prop :=
  (∀ (f : FunctionId) (tf : TypedFunction), u.functions[f]? = some tf →
    ∀ ps body cs ct, Mention.lambda ps body cs ct ∈ (tf.body.getD []).flatMap TypedStmt.mentions →
      P ps body cs ct) ∧
  (∀ (g : FieldId) (te : TypedExpr), u.initializers[g]? = some te →
    ∀ ps body cs ct, Mention.lambda ps body cs ct ∈ te.mentions → P ps body cs ct)

theorem CheckedUnit.AllLambdas.imp {u : CheckedUnit}
    {P Q : List LocalId → TypedLambdaBody → List LocalId → Bool → Prop} (h : u.AllLambdas P)
    (hPQ : ∀ ps body cs ct, P ps body cs ct → Q ps body cs ct) : u.AllLambdas Q :=
  ⟨fun f tf hf ps body cs ct hm => hPQ _ _ _ _ (h.1 f tf hf ps body cs ct hm),
    fun g te hg ps body cs ct hm => hPQ _ _ _ _ (h.2 g te hg ps body cs ct hm)⟩

namespace CheckM

/-- A unit's check starts with no scope, no lambda and nothing stored. -/
theorem inv_start (s : CheckState) (hscopes : s.scopes = []) (hlambdas : s.lambdas = []) :
    Inv s where
  fit := hscopes ▸ hlambdas ▸ .nil
  visible := fun x hx => by simp [Visible, hscopes] at hx
  first := by simp [hlambdas]
  nodup := by simp [hlambdas]

/-- Checking that leaves the code around it alone, run from a state with no scope, no lambda
and nothing stored, stores only exact lambdas when it reports no error. -/
theorem stored_of_checks {x : CheckM Unit} (hx : Checks x fun _ => []) {s : CheckState}
    (hscopes : s.scopes = []) (hlambdas : s.lambdas = []) (hfun : s.functions = ∅)
    (hinit : s.initializers = ∅) (hdiags : (x.run s).2.work.diags = s.work.diags) :
    Stored (x.run s).2 :=
  ((hx s (inv_start s hscopes hlambdas)).exact hdiags).2.2
    ⟨fun f tf hf => by simp [hfun] at hf, fun g te hg => by simp [hinit] at hg⟩

end CheckM

/-- A unit that reports no error stores only lambdas that capture exactly: each local once,
those a name in the lambda's body (nested lambdas included) stands for that neither its
parameters nor its body declare, and `this` exactly when its body uses the running object. -/
theorem checkUnit_capturesExact (t : SymbolTable) (strict : Bool) (index : Nat) (m : Module)
    (isTestUnit : Bool) (size : Nat)
    (hok : (checkUnit t strict index m isTestUnit size).unit.diagnostics = []) :
    (checkUnit t strict index m isTestUnit size).unit.AllLambdas CapturesExact := by
  unfold checkUnit at hok ⊢
  dsimp only at hok ⊢
  generalize hr : StateT.run _ _ = r at hok ⊢
  obtain ⟨⟨⟩, s⟩ := r
  show CheckM.Stored s
  rw [show s = _ from congrArg Prod.snd hr.symm] at hok ⊢
  refine CheckM.stored_of_checks ?_ rfl rfl rfl rfl (Array.toList_eq_nil_iff.1 hok)
  -- the unit's declarations, between two log lines
  refine CheckM.checks_of_runs fun s₀ h => ?_
  refine CheckM.post_quiet_bind (CheckM.isQuiet_log _) h fun _ s h => ?_
  refine CheckM.post_checks_bind (CheckM.checks_checkDecls _ _ _ _ _ _) h fun _ s h => ?_
  rw [CheckM.post_get_bind]
  exact (h.quiet (CheckM.isQuiet_log _ s)).congr (by simp)

end AmLang
