import AmLang.Generic.Instances
/-!
# Steps of growing the set of instances

The closure runs in `ClosureM`, a state monad over the instances found so far, the pending
expansions, the reports and the log. Its proofs evaluate its primitives on a state: one `run_*`
lemma for each, so that a computation is taken apart by `simp only` over these and never by
unfolding the monad.

A type without generic class arguments (`genericDepth` zero) needs no class instance:
`addType` leaves every state as it is on it.
-/

namespace AmLang

namespace ClosureM

variable {α β : Type}

theorem run_pure (a : α) (s : ClosureState) : (pure a : ClosureM α).run s = (a, s) := rfl

theorem run_bind (x : ClosureM α) (f : α → ClosureM β) (s : ClosureState) :
    (x >>= f).run s = (f (x.run s).1).run (x.run s).2 := rfl

theorem run_get (s : ClosureState) : (get : ClosureM ClosureState).run s = (s, s) := rfl

theorem run_set (s s' : ClosureState) : (set s' : ClosureM Unit).run s = ((), s') := rfl

theorem run_modify (g : ClosureState → ClosureState) (s : ClosureState) :
    (modify g : ClosureM Unit).run s = ((), g s) := rfl

theorem run_log (l : Log.Line) (s : ClosureState) :
    (log l).run s = ((), { s with journal := s.journal.push l }) := rfl

theorem run_tooDeep (name : String) (sp : Span) (notes : List String) (s : ClosureState) :
    (tooDeep name sp notes).run s = ((), { s with
      diags := s.diags.push (Diagnostic.errorNoted .typeMismatch Code.typeMismatch
        ("generic instantiation of '" ++ name ++ "' nests deeper than " ++ toString maxDepth ++
          " levels") sp notes),
      ok := false }) := rfl

/-- Naming an instance changes nothing but the set of names given. -/
theorem uniqueName_state (base : String) (s : ClosureState) :
    ((uniqueName base).run s).2 = { s with instances := { s.instances with
      names := s.instances.names.insert ((uniqueName base).run s).1 } } := rfl

end ClosureM

/-! ## Types without generic class arguments -/

/-- A maximum over a list is zero exactly when the start and every element are. -/
theorem foldl_max_eq_zero {b : Nat} {l : List Nat} :
    l.foldl max b = 0 ↔ b = 0 ∧ ∀ d ∈ l, d = 0 := by
  induction l generalizing b with
  | nil => simp
  | cons d l ih => simp [List.foldl_cons, ih, and_assoc]

mutual

/-- A type of nesting depth zero needs no class instance. -/
theorem addType_run_of_depth (t : SymbolTable) (sp : Span) :
    ∀ (ty : Ty) (s : ClosureState), genericDepth ty = 0 →
      (ClosureM.addType t sp ty).run s = ((), s)
  | .obj c args n, s, h => by
    -- depth zero leaves no argument: a class with arguments is one level deep
    cases args with
    | nil => simp only [ClosureM.addType, List.isEmpty_nil, if_true, ClosureM.run_pure]
    | cons a as => simp [genericDepth] at h
  | .array e n, s, h => by
    simp only [genericDepth] at h
    simpa only [ClosureM.addType] using addType_run_of_depth t sp e s h
  | .func ps r n, s, h => by
    obtain ⟨hr, hps⟩ := foldl_max_eq_zero.mp h
    simp only [ClosureM.addType, ClosureM.run_bind, addType_run_of_depth t sp r s hr]
    exact addTypes_run_of_depths t sp ps s hps
  | .prim .., _, _ | .param .., _, _ | .null, _, _ | .error, _, _ | .never, _, _ => by
    simp only [ClosureM.addType, ClosureM.run_pure]

/-- Types of nesting depth zero need no class instance. -/
theorem addTypes_run_of_depths (t : SymbolTable) (sp : Span) :
    ∀ (ts : List Ty) (s : ClosureState), (∀ d ∈ depths ts, d = 0) →
      (ClosureM.addTypes t sp ts).run s = ((), s)
  | [], _, _ => by simp only [ClosureM.addTypes, ClosureM.run_pure]
  | a :: as, s, h => by
    simp only [depths, List.mem_cons, forall_eq_or_imp] at h
    simp only [ClosureM.addTypes, ClosureM.run_bind, addType_run_of_depth t sp a s h.1]
    exact addTypes_run_of_depths t sp as s h.2

end

end AmLang
