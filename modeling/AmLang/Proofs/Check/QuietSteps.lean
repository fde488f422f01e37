import AmLang.Check.Body
/-!
# Steps of checking that leave the lambdas alone

What a lambda captures is decided by the scopes around the code being checked, the frames of the
lambdas around it and the locals declared so far. Most steps of checking touch none of these:
reporting, logging, recording generic uses, resolving annotations, reading the table, applying
and forgetting flow facts, declaring mocks. Such a step is *quiet* (`CheckM.Quiet`): it keeps
the kind and the locals of every scope, the lambda frames, the number of locals and the checked
bodies, and it only adds diagnostics after those already there.

That diagnostics are only ever added is what lets a run without a diagnostic say that none of
its parts reported one. For the phases of the symbol table that declaring a mock runs, this is
`TableM.Appends`.

Quiet steps compose (`isQuiet_bind`, `isQuiet_forIn`, …), so each helper of the checker is shown
quiet once, by following its definition.
-/

namespace AmLang

namespace TableM

/-- Every run of `x` keeps the diagnostics it started with, adding any new ones after them. -/
def Appends {α : Type} (x : TableM α) : Prop :=
  ∀ w, w.diags.toList <+: (x.run w).2.diags.toList

variable {α β γ : Type}

theorem appends_pure (a : α) : Appends (pure a : TableM α) := fun _ => List.prefix_refl _

theorem appends_bind {x : TableM α} {f : α → TableM β} (hx : Appends x)
    (hf : ∀ a, Appends (f a)) : Appends (x >>= f) :=
  fun w => (hx w).trans (hf _ _)

theorem appends_table : Appends table := fun _ => List.prefix_refl _

theorem appends_report (d : Diagnostic) : Appends (report d) := fun w => by
  show w.diags.toList <+: (w.diags.push d).toList
  simp

theorem appends_log (l : Log.Line) : Appends (log l) := fun _ => List.prefix_refl _

theorem appends_modifyTable (g : SymbolTable → SymbolTable) : Appends (modifyTable g) :=
  fun _ => List.prefix_refl _

theorem appends_addClass (k : ClassSymbol) : Appends (addClass k) := fun _ => List.prefix_refl _

theorem appends_addFunction (fs : FunctionSymbol) : Appends (addFunction fs) :=
  fun _ => List.prefix_refl _

theorem appends_addField (fd : FieldSymbol) : Appends (addField fd) := fun _ => List.prefix_refl _

theorem appends_mismatchAt (message : String) (span : Span) :
    Appends (SymbolTable.mismatchAt message span) := appends_report _

theorem appends_overrideError (message : String) (span : Span) (notes : List String) :
    Appends (SymbolTable.overrideError message span notes) := appends_report _

theorem appends_ite {p : Prop} [Decidable p] {x y : TableM α} (hx : Appends x) (hy : Appends y) :
    Appends (if p then x else y) := by
  split
  · exact hx
  · exact hy

/-- A loop appends when each of its rounds does. -/
theorem appends_forIn (xs : List γ) (b : β) {f : γ → β → TableM (ForInStep β)}
    (h : ∀ x ∈ xs, ∀ b, Appends (f x b)) : Appends (forIn xs b f) := by
  induction xs generalizing b with
  | nil => exact appends_pure b
  | cons x xs ih =>
    rw [List.forIn_cons]
    refine appends_bind (h x (by simp) b) fun r => ?_
    cases r with
    | done c => exact appends_pure c
    | yield c => exact ih c fun y hy => h y (by simp [hy])

/-- Building a class's dispatch table only reports what it finds wrong. -/
theorem appends_buildVtable (c : ClassId) : Appends (SymbolTable.buildVtable c) := by
  unfold SymbolTable.buildVtable
  dsimp only
  repeat' first
    | with_reducible exact appends_pure _
    | with_reducible exact appends_table
    | with_reducible exact appends_mismatchAt _ _
    | with_reducible exact appends_overrideError _ _ _
    | with_reducible exact appends_modifyTable _
    | with_reducible refine appends_bind ?_ fun _ => ?_
    | with_reducible refine appends_forIn _ _ fun _ _ _ => ?_
    | with_reducible refine appends_ite ?_ ?_
    | split

/-- Building a class's interface tables only reports what it finds wrong. -/
theorem appends_buildItables (c : ClassId) : Appends (SymbolTable.buildItables c) := by
  unfold SymbolTable.buildItables
  dsimp only
  repeat' first
    | with_reducible exact appends_pure _
    | with_reducible exact appends_table
    | with_reducible exact appends_mismatchAt _ _
    | with_reducible exact appends_overrideError _ _ _
    | with_reducible exact appends_modifyTable _
    | with_reducible refine appends_bind ?_ fun _ => ?_
    | with_reducible refine appends_forIn _ _ fun _ _ _ => ?_
    | with_reducible refine appends_ite ?_ ?_
    | split

end TableM

namespace CheckM

/-- The scopes as lambdas see them: each scope's kind and locals, without its flow facts. -/
def scopeShapes (ss : Scopes) : List (ScopeKind × List (String × LocalId)) :=
  ss.map fun S => (S.kind, S.locals)

/-- A step of checking that leaves alone what lambdas depend on: the kinds and locals of the
scopes, the lambda frames, the number of locals, and the checked bodies; it may add
diagnostics after those already reported. -/
structure Quiet (s s' : CheckState) : Prop where
  scopes : scopeShapes s'.scopes = scopeShapes s.scopes
  lambdas : s'.lambdas = s.lambdas
  size : s'.locals.size = s.locals.size
  diags : s.work.diags.toList <+: s'.work.diags.toList
  functions : s'.functions = s.functions
  initializers : s'.initializers = s.initializers

namespace Quiet

variable {s s' s'' : CheckState}

theorem refl (s : CheckState) : Quiet s s :=
  ⟨rfl, rfl, rfl, List.prefix_refl _, rfl, rfl⟩

theorem trans (h : Quiet s s') (h' : Quiet s' s'') : Quiet s s'' :=
  ⟨h'.scopes.trans h.scopes, h'.lambdas.trans h.lambdas, h'.size.trans h.size,
    h.diags.trans h'.diags, h'.functions.trans h.functions,
    h'.initializers.trans h.initializers⟩

/-- A state that differs only in what lambdas do not depend on. -/
theorem of_eq (hscopes : s'.scopes = s.scopes) (hlambdas : s'.lambdas = s.lambdas)
    (hlocals : s'.locals = s.locals) (hwork : s'.work = s.work)
    (hfunctions : s'.functions = s.functions) (hinit : s'.initializers = s.initializers) :
    Quiet s s' :=
  ⟨by rw [hscopes], hlambdas, by rw [hlocals], hwork ▸ List.prefix_refl _, hfunctions, hinit⟩

/-- A state whose work only has diagnostics added. -/
theorem withWork (s : CheckState) (w : TableWork) (env : ClassEnv)
    (hw : s.work.diags.toList <+: w.diags.toList) : Quiet s { s with work := w, env } :=
  ⟨rfl, rfl, rfl, hw, rfl, rfl⟩

end Quiet

/-- Every run of `x` is a quiet step. -/
def IsQuiet {α : Type} (x : CheckM α) : Prop := ∀ s, Quiet s (x.run s).2

variable {α β γ : Type}

theorem isQuiet_pure (a : α) : IsQuiet (pure a : CheckM α) := fun s => Quiet.refl s

theorem isQuiet_bind {x : CheckM α} {f : α → CheckM β} (hx : IsQuiet x)
    (hf : ∀ a, IsQuiet (f a)) : IsQuiet (x >>= f) :=
  fun s => (hx s).trans (hf _ _)

theorem isQuiet_get : IsQuiet (get : CheckM CheckState) := fun s => Quiet.refl s

theorem isQuiet_modify {g : CheckState → CheckState} (h : ∀ s, Quiet s (g s)) :
    IsQuiet (modify g) := fun s => h s

theorem isQuiet_ite {p : Prop} [Decidable p] {x y : CheckM α} (hx : IsQuiet x)
    (hy : IsQuiet y) : IsQuiet (if p then x else y) := by
  split
  · exact hx
  · exact hy

/-- A step taken only when a condition holds. -/
theorem isQuiet_if {c : Bool} {x : CheckM Unit} (hx : IsQuiet x) :
    IsQuiet (if c = true then x else pure ()) :=
  isQuiet_ite hx (isQuiet_pure _)

theorem isQuiet_map {x : CheckM α} (f : α → β) (hx : IsQuiet x) : IsQuiet (f <$> x) := hx

/-- A loop is quiet when each of its rounds is. -/
theorem isQuiet_forIn (xs : List γ) (b : β) {f : γ → β → CheckM (ForInStep β)}
    (h : ∀ x ∈ xs, ∀ b, IsQuiet (f x b)) : IsQuiet (forIn xs b f) := by
  induction xs generalizing b with
  | nil => exact isQuiet_pure b
  | cons x xs ih =>
    rw [List.forIn_cons]
    refine isQuiet_bind (h x (by simp) b) fun r => ?_
    cases r with
    | done c => exact isQuiet_pure c
    | yield c => exact ih c fun y hy => h y (by simp [hy])

theorem isQuiet_mapM (xs : List γ) {f : γ → CheckM α} (h : ∀ x ∈ xs, IsQuiet (f x)) :
    IsQuiet (xs.mapM f) := by
  induction xs with
  | nil => exact isQuiet_pure []
  | cons x xs ih =>
    rw [List.mapM_cons]
    exact isQuiet_bind (h x (by simp)) fun _ =>
      isQuiet_bind (ih fun y hy => h y (by simp [hy])) fun _ => isQuiet_pure _

theorem isQuiet_forM (xs : List γ) {f : γ → CheckM Unit} (h : ∀ x ∈ xs, IsQuiet (f x)) :
    IsQuiet (xs.forM f) := by
  induction xs with
  | nil => exact isQuiet_pure ()
  | cons x xs ih =>
    show IsQuiet (f x >>= fun _ => xs.forM f)
    exact isQuiet_bind (h x (by simp)) fun _ => ih fun y hy => h y (by simp [hy])

theorem isQuiet_optionMapM (o : Option γ) {f : γ → CheckM α} (h : ∀ x, IsQuiet (f x)) :
    IsQuiet (o.mapM f) := by
  cases o with
  | none => exact isQuiet_pure none
  | some x => exact isQuiet_bind (h x) fun _ => isQuiet_pure _

/-! ## The primitives -/

theorem isQuiet_report (d : Diagnostic) : IsQuiet (report d) := fun s =>
  Quiet.withWork s _ s.env (by simp)

theorem isQuiet_reporterReport (d : Diagnostic) : IsQuiet (Reporter.report d : CheckM Unit) :=
  isQuiet_report d

theorem isQuiet_log (l : Log.Line) : IsQuiet (log l) := fun s =>
  Quiet.withWork s _ s.env (List.prefix_refl _)

theorem isQuiet_reporterLog (l : Log.Line) : IsQuiet (Reporter.log l : CheckM Unit) :=
  isQuiet_log l

/-- A phase of the table that only appends diagnostics is quiet. -/
theorem isQuiet_onTable {x : TableM α} (hx : TableM.Appends x) : IsQuiet (onTable x) := fun s =>
  Quiet.withWork s _ _ (hx s.work)

theorem isQuiet_table : IsQuiet table := isQuiet_bind isQuiet_get fun _ => isQuiet_pure _

theorem isQuiet_env : IsQuiet env := isQuiet_bind isQuiet_get fun _ => isQuiet_pure _

theorem isQuiet_display (t : Ty) : IsQuiet (display t) :=
  isQuiet_bind isQuiet_env fun _ => isQuiet_pure _

theorem isQuiet_converts (a b : Ty) : IsQuiet (converts a b) :=
  isQuiet_bind isQuiet_env fun _ => isQuiet_pure _

theorem isQuiet_names : IsQuiet names := isQuiet_bind isQuiet_get fun _ => isQuiet_pure _

theorem isQuiet_context : IsQuiet context := isQuiet_bind isQuiet_get fun _ => isQuiet_pure _

theorem isQuiet_localVar (x : LocalId) : IsQuiet (localVar x) :=
  isQuiet_bind isQuiet_get fun _ => isQuiet_pure _

theorem isQuiet_mismatchNoted (message : String) (span : Span) (notes : List String) :
    IsQuiet (mismatchNoted message span notes) := isQuiet_report _

theorem isQuiet_mismatch (message : String) (span : Span) : IsQuiet (mismatch message span) :=
  isQuiet_report _

theorem isQuiet_nullSafetyNoted (message : String) (span : Span) (notes : List String) :
    IsQuiet (nullSafetyNoted message span notes) := isQuiet_report _

theorem isQuiet_nullSafety (message : String) (span : Span) : IsQuiet (nullSafety message span) :=
  isQuiet_report _

theorem isQuiet_misplaced (message : String) (span : Span) : IsQuiet (misplaced message span) :=
  isQuiet_report _

theorem isQuiet_unresolvedAmong (what name : String) (span : Span) (extra : List String) :
    IsQuiet (unresolvedAmong what name span extra) :=
  isQuiet_bind isQuiet_names fun _ => isQuiet_bind isQuiet_get fun _ => isQuiet_report _

theorem isQuiet_unresolved (what name : String) (span : Span) :
    IsQuiet (unresolved what name span) := isQuiet_unresolvedAmong _ _ _ _

theorem isQuiet_recordType (t : Ty) (span : Span) : IsQuiet (recordType t span) := fun s =>
  Quiet.withWork s _ s.env (List.prefix_refl _)

theorem isQuiet_recordCall (f : FunctionId) (classArgs fnArgs : List Ty) (span : Span) :
    IsQuiet (recordCall f classArgs fnArgs span) := fun s =>
  Quiet.withWork s _ s.env (List.prefix_refl _)

/-- Narrowing a local keeps every scope's kind and locals. -/
theorem isQuiet_narrow (x : LocalId) (t : Ty) : IsQuiet (narrow x t) :=
  isQuiet_modify fun s => by
    refine ⟨?_, rfl, rfl, List.prefix_refl _, rfl, rfl⟩
    -- the facts go to the innermost scope, whose kind and locals stay
    rcases hs : s.scopes with _ | ⟨top, rest⟩ <;> rfl

theorem isQuiet_applyNarrowings (facts : Narrowings) : IsQuiet (applyNarrowings facts) :=
  isQuiet_forM facts fun (x, t) _ => isQuiet_narrow x t

theorem scopeShapes_forget (x : LocalId) (ss : Scopes) :
    scopeShapes (Scopes.forget x ss) = scopeShapes ss := by
  induction ss with
  | nil => rfl
  | cons S ss ih =>
    simp only [Scopes.forget]
    split
    · rfl
    · simp only [scopeShapes, List.map_cons] at ih ⊢
      rw [ih]
      rfl

theorem isQuiet_forget (x : LocalId) : IsQuiet (forget x) := fun s =>
  ⟨scopeShapes_forget x s.scopes, rfl, rfl, List.prefix_refl _, rfl, rfl⟩

theorem isQuiet_forgetName (name : String) : IsQuiet (forgetName name) := by
  refine isQuiet_bind isQuiet_get fun s => ?_
  split
  · exact isQuiet_forget _
  · exact isQuiet_pure ()

/-! ## Resolving annotations -/

section Lookup

variable (l : NameLookup) (ctx : LookupContext)

theorem isQuiet_resolveClass (path : List String) (span : Span) :
    IsQuiet (l.resolveClass path span ctx : CheckM (Option ClassId)) := by
  unfold NameLookup.resolveClass
  split
  · exact isQuiet_pure _
  · exact isQuiet_bind (isQuiet_report _) fun _ => isQuiet_pure _

theorem isQuiet_lookupMismatch (message : String) (span : Span) :
    IsQuiet (NameLookup.mismatch message span : CheckM Ty) :=
  isQuiet_bind (isQuiet_report _) fun _ => isQuiet_pure _

mutual

theorem isQuiet_resolveType : ∀ te : TypeExpr, IsQuiet (l.resolveType ctx te : CheckM Ty)
  | .array e _ _ => by
    rw [NameLookup.resolveType]
    refine isQuiet_bind (isQuiet_resolveType e) fun _ => ?_
    repeat' first
      | with_reducible exact isQuiet_pure _
      | with_reducible exact isQuiet_lookupMismatch _ _
      | with_reducible refine isQuiet_bind ?_ fun _ => ?_
      | with_reducible refine isQuiet_ite ?_ ?_
  | .func ps r _ _ => by
    rw [NameLookup.resolveType]
    refine isQuiet_bind (isQuiet_resolveTypes ps) fun _ =>
      isQuiet_bind (isQuiet_resolveType r) fun _ => ?_
    exact isQuiet_ite (isQuiet_pure _) (isQuiet_pure _)
  | .named path args _ _ => by
    unfold NameLookup.resolveType
    dsimp only
    repeat' first
      | with_reducible exact isQuiet_pure _
      | with_reducible exact isQuiet_lookupMismatch _ _
      | with_reducible exact isQuiet_resolveClass _ _ _ _
      | with_reducible exact isQuiet_resolveTypes args
      | exact isQuiet_reporterLog _
      | with_reducible refine isQuiet_bind ?_ fun _ => ?_
      | with_reducible refine isQuiet_ite ?_ ?_
      | split

theorem isQuiet_resolveTypes : ∀ tes : List TypeExpr,
    IsQuiet (l.resolveTypes ctx tes : CheckM (List Ty))
  | [] => by
    rw [NameLookup.resolveTypes]
    exact isQuiet_pure _
  | te :: tes => by
    rw [NameLookup.resolveTypes]
    exact isQuiet_bind (isQuiet_resolveType te) fun _ =>
      isQuiet_bind (isQuiet_resolveTypes tes) fun _ => isQuiet_pure _

end

theorem isQuiet_initializerType (e : Expr) :
    IsQuiet (l.initializerType ctx e : CheckM (Option Ty)) := by
  unfold NameLookup.initializerType
  split
  all_goals first
    | with_reducible exact isQuiet_pure _
    | with_reducible exact isQuiet_map _ (isQuiet_resolveType l ctx _)
    | with_reducible exact isQuiet_bind (isQuiet_resolveType l ctx _) fun _ => isQuiet_pure _

theorem isQuiet_signatureOf (d : Option Decl) :
    IsQuiet (l.signatureOf ctx d : CheckM (List Ty × Ty)) := by
  unfold NameLookup.signatureOf
  dsimp only
  repeat' first
    | with_reducible exact isQuiet_pure _
    | with_reducible exact isQuiet_resolveType l ctx _
    | with_reducible exact isQuiet_resolveTypes l ctx _
    | with_reducible refine isQuiet_bind ?_ fun _ => ?_
    | split

end Lookup

theorem isQuiet_checkResolveType (te : TypeExpr) : IsQuiet (resolveType te) :=
  isQuiet_bind isQuiet_names fun l => isQuiet_bind isQuiet_context fun ctx =>
    isQuiet_resolveType l ctx te

/-! ## The typing rules -/

theorem isQuiet_checkAssignable (source target : Ty) (span : Span) (what : String)
    (value : Option TypedExpr) : IsQuiet (checkAssignable source target span what value) := by
  unfold checkAssignable
  repeat' first
    | with_reducible exact isQuiet_pure _
    | with_reducible exact isQuiet_converts _ _
    | with_reducible exact isQuiet_display _
    | with_reducible exact isQuiet_nullSafetyNoted _ _ _
    | with_reducible exact isQuiet_mismatch _ _
    | with_reducible refine isQuiet_bind ?_ fun _ => ?_
    | with_reducible refine isQuiet_ite ?_ ?_
    | split

theorem isQuiet_checkCondition (t : Ty) (span : Span) : IsQuiet (checkCondition t span) := by
  unfold checkCondition
  repeat' first
    | with_reducible exact isQuiet_pure _
    | with_reducible exact isQuiet_display _
    | with_reducible exact isQuiet_nullSafety _ _
    | with_reducible exact isQuiet_mismatch _ _
    | with_reducible refine isQuiet_bind ?_ fun _ => ?_
    | with_reducible refine isQuiet_ite ?_ ?_

theorem isQuiet_unaryType (op : UnaryOp) (t : Ty) (span : Span) :
    IsQuiet (unaryType op t span) := by
  unfold unaryType
  repeat' first
    | with_reducible exact isQuiet_pure _
    | with_reducible exact isQuiet_display _
    | with_reducible exact isQuiet_mismatch _ _
    | with_reducible refine isQuiet_bind ?_ fun _ => ?_
    | with_reducible refine isQuiet_ite ?_ ?_
    | split

theorem isQuiet_binaryType (op : BinaryOp) (left right : TypedExpr) (span : Span) :
    IsQuiet (binaryType op left right span) := by
  unfold binaryType
  dsimp only
  repeat' first
    | with_reducible exact isQuiet_pure _
    | with_reducible exact isQuiet_env
    | with_reducible exact isQuiet_display _
    | with_reducible exact isQuiet_localVar _
    | with_reducible exact isQuiet_mismatch _ _
    | with_reducible exact isQuiet_nullSafetyNoted _ _ _
    | with_reducible refine isQuiet_bind ?_ fun _ => ?_
    | with_reducible refine isQuiet_ite ?_ ?_
    | split

theorem isQuiet_compoundType (op : AssignOp) (current value : Ty) (span : Span) :
    IsQuiet (compoundType op current value span) := by
  unfold compoundType
  repeat' first
    | with_reducible exact isQuiet_pure _
    | with_reducible exact isQuiet_display _
    | with_reducible exact isQuiet_mismatch _ _
    | with_reducible exact isQuiet_nullSafety _ _
    | with_reducible refine isQuiet_bind ?_ fun _ => ?_
    | with_reducible refine isQuiet_ite ?_ ?_

theorem isQuiet_castType (source target : Ty) (span : Span) :
    IsQuiet (castType source target span) := by
  unfold castType
  dsimp only
  repeat' first
    | with_reducible exact isQuiet_pure _
    | with_reducible exact isQuiet_env
    | with_reducible exact isQuiet_table
    | with_reducible exact isQuiet_display _
    | with_reducible exact isQuiet_mismatch _ _
    | with_reducible exact isQuiet_nullSafety _ _
    | with_reducible exact isQuiet_nullSafetyNoted _ _ _
    | with_reducible refine isQuiet_bind ?_ fun _ => ?_
    | with_reducible refine isQuiet_ite ?_ ?_

theorem isQuiet_checkTypeTest (source target : Ty) (operandSpan typeSpan : Span) :
    IsQuiet (checkTypeTest source target operandSpan typeSpan) := by
  unfold checkTypeTest
  dsimp only
  repeat' first
    | with_reducible exact isQuiet_pure _
    | with_reducible exact isQuiet_display _
    | with_reducible exact isQuiet_mismatch _ _
    | with_reducible refine isQuiet_bind ?_ fun _ => ?_
    | with_reducible refine isQuiet_ite ?_ ?_

theorem isQuiet_branchType (a b : Ty) (expected : Option Ty) (span : Span) :
    IsQuiet (branchType a b expected span) := by
  unfold branchType
  repeat' first
    | with_reducible exact isQuiet_pure _
    | with_reducible exact isQuiet_env
    | with_reducible exact isQuiet_display _
    | with_reducible exact isQuiet_mismatch _ _
    | with_reducible refine isQuiet_bind ?_ fun _ => ?_
    | with_reducible refine isQuiet_ite ?_ ?_
    | split

theorem isQuiet_isValueName (name : String) : IsQuiet (isValueName name) := by
  unfold isValueName
  repeat' first
    | with_reducible exact isQuiet_pure _
    | with_reducible exact isQuiet_get
    | with_reducible exact isQuiet_names
    | with_reducible refine isQuiet_bind ?_ fun _ => ?_
    | with_reducible refine isQuiet_ite ?_ ?_

theorem isQuiet_staticPath (e : Expr) : IsQuiet (staticPath e) := by
  unfold staticPath
  repeat' first
    | with_reducible exact isQuiet_pure _
    | with_reducible exact isQuiet_get
    | with_reducible exact isQuiet_names
    | with_reducible exact isQuiet_isValueName _
    | with_reducible refine isQuiet_bind ?_ fun _ => ?_
    | with_reducible refine isQuiet_ite ?_ ?_
    | split

/-! ## Calls -/

theorem isQuiet_describeArgs (args : List Argument) : IsQuiet (describeArgs args) :=
  isQuiet_bind isQuiet_env fun _ => isQuiet_pure _

theorem isQuiet_closureCall (info : ExprInfo) (calleeType : Ty) (args : List Argument)
    (safe : Bool) (span : Span) : IsQuiet (closureCall info calleeType args safe span) := by
  unfold closureCall
  repeat' first
    | with_reducible exact isQuiet_pure _
    | with_reducible exact isQuiet_env
    | with_reducible exact isQuiet_display _
    | with_reducible exact isQuiet_mismatch _ _
    | with_reducible exact isQuiet_nullSafetyNoted _ _ _
    | with_reducible refine isQuiet_bind ?_ fun _ => ?_
    | with_reducible refine isQuiet_ite ?_ ?_
    | with_reducible refine isQuiet_forIn _ _ fun _ _ _ => ?_
    | split
    | dsimp only

theorem isQuiet_finishCall (info : ExprInfo) (name : String) (candidates : List Candidate)
    (args : List Argument) (argExprs : List TypedExpr) (span : Span) :
    IsQuiet (finishCall info name candidates args argExprs span) := by
  unfold finishCall
  repeat' first
    | with_reducible exact isQuiet_pure _
    | with_reducible exact isQuiet_env
    | with_reducible exact isQuiet_table
    | with_reducible exact isQuiet_report _
    | with_reducible exact isQuiet_log _
    | with_reducible exact isQuiet_recordCall _ _ _ _
    | with_reducible exact isQuiet_recordType _ _
    | with_reducible exact isQuiet_describeArgs _
    | with_reducible exact isQuiet_mismatchNoted _ _ _
    | with_reducible exact isQuiet_checkAssignable _ _ _ _ _
    | with_reducible refine isQuiet_bind ?_ fun _ => ?_
    | with_reducible refine isQuiet_ite ?_ ?_
    | with_reducible refine isQuiet_forIn _ _ fun _ _ _ => ?_
    | split
    | dsimp only

/-! ## Mocks -/

theorem isQuiet_mockFor (d : Decl) : IsQuiet (mockFor? d) :=
  isQuiet_bind isQuiet_get fun _ => isQuiet_pure _

theorem isQuiet_declareMockField (m target : ClassId) (member : Decl) :
    IsQuiet (declareMockField m target member) := by
  unfold declareMockField
  repeat' first
    | with_reducible exact isQuiet_pure _
    | with_reducible exact isQuiet_get
    | with_reducible exact isQuiet_table
    | with_reducible exact isQuiet_names
    | with_reducible exact isQuiet_report _
    | with_reducible exact isQuiet_mismatch _ _
    | with_reducible exact isQuiet_onTable (TableM.appends_addField _)
    | with_reducible exact isQuiet_onTable (TableM.appends_modifyTable _)
    | with_reducible exact isQuiet_map _ (isQuiet_resolveType _ _ _)
    | with_reducible exact isQuiet_initializerType _ _ _
    | with_reducible refine isQuiet_bind ?_ fun _ => ?_
    | with_reducible refine isQuiet_ite ?_ ?_
    | split
    | dsimp only

theorem isQuiet_declareMockFunction (m : ClassId) (member : Decl) :
    IsQuiet (declareMockFunction m member) := by
  unfold declareMockFunction
  repeat' first
    | with_reducible exact isQuiet_pure _
    | with_reducible exact isQuiet_get
    | with_reducible exact isQuiet_table
    | with_reducible exact isQuiet_names
    | with_reducible exact isQuiet_misplaced _ _
    | with_reducible exact isQuiet_signatureOf _ _ _
    | with_reducible exact isQuiet_onTable (TableM.appends_addFunction _)
    | with_reducible exact isQuiet_onTable (TableM.appends_modifyTable _)
    | with_reducible refine isQuiet_bind ?_ fun _ => ?_
    | with_reducible refine isQuiet_ite ?_ ?_
    | split

theorem isQuiet_forwardConstructors (m target : ClassId) :
    IsQuiet (forwardConstructors m target) := by
  unfold forwardConstructors
  repeat' first
    | with_reducible exact isQuiet_pure _
    | with_reducible exact isQuiet_table
    | with_reducible exact isQuiet_onTable (TableM.appends_addFunction _)
    | with_reducible exact isQuiet_onTable (TableM.appends_modifyTable _)
    | with_reducible refine isQuiet_bind ?_ fun _ => ?_
    | with_reducible refine isQuiet_ite ?_ ?_
    | with_reducible refine isQuiet_forIn _ _ fun _ _ _ => ?_

theorem isQuiet_activateMock (target m : ClassId) : IsQuiet (activateMock target m) :=
  isQuiet_modify fun _ => Quiet.of_eq rfl rfl rfl rfl rfl rfl

/-- Declaring a mock adds a class to the table and activates it; it touches no scope, lambda
or local. -/
theorem isQuiet_declareMock (d : Decl) : IsQuiet (declareMock d) := by
  unfold declareMock
  repeat' first
    | with_reducible exact isQuiet_pure _
    | with_reducible exact isQuiet_get
    | with_reducible exact isQuiet_names
    | with_reducible exact isQuiet_log _
    | with_reducible exact isQuiet_mockFor _
    | with_reducible exact isQuiet_unresolved _ _ _
    | with_reducible exact isQuiet_mismatch _ _
    | with_reducible exact isQuiet_declareMockField _ _ _
    | with_reducible exact isQuiet_declareMockFunction _ _
    | with_reducible exact isQuiet_forwardConstructors _ _
    | with_reducible exact isQuiet_activateMock _ _
    | with_reducible exact isQuiet_onTable (TableM.appends_addClass _)
    | with_reducible exact isQuiet_onTable (TableM.appends_buildVtable _)
    | with_reducible exact isQuiet_onTable (TableM.appends_buildItables _)
    | with_reducible exact isQuiet_onTable (TableM.appends_modifyTable _)
    | with_reducible refine isQuiet_modify fun _ => Quiet.of_eq rfl rfl rfl rfl rfl rfl
    | with_reducible refine isQuiet_bind ?_ fun _ => ?_
    | with_reducible refine isQuiet_ite ?_ ?_
    | with_reducible refine isQuiet_forIn _ _ fun _ _ _ => ?_
    | split

end CheckM

end AmLang
