import AmLang.Proofs.Check.CaptureRuns
/-!
# The steps of checking that lambdas see

Most steps of checking are quiet (`CheckM.IsQuiet`): they leave scopes and frames alone. This
module specifies, as runs (`CheckM.Runs`), the steps that are not, and the ways checking
combines steps.

* A name that stands for a local declared outside the innermost lambda is recorded by
  `capture` in every frame that lacks it (`Runs.capture`); a use of the running object is
  recorded by `captureThis` in every frame (`Runs.captureThis`). A name found before any lambda
  scope is owed no capture (`Runs.read_of_not_crosses`), and once an error is reported the run
  owes the frames nothing (`post_reports_bind`).
* `defineLocal` declares the next local (`checks_defineLocal`), and `checkIdent` and
  `checkThis` build trees that mention what they recorded.
* `inScope` runs code in a block scope and keeps its run; `inLambda` runs a lambda's body and
  gives the frame, which then holds exactly the locals the body reads that were declared before
  the lambda, and `this` exactly when the body uses the running object (`post_inLambda`);
  `inBody` checks a separate body and leaves the code around it alone (`checks_inBody`).
* Lists and loops: `checks_mapM`, `checks_optionMapM` and `post_forIn`.
-/

namespace AmLang

namespace CheckM

variable {α β γ : Type} {ms ns : List Mention} {s₀ s s' : CheckState}

/-! ## Frames that take in what code mentions -/

/-- A step that changes only the frames, each gaining what `ns` mentions, extends the run by
`ns`: the reads of visible locals and the uses of the running object. -/
theorem Runs.frames (h : Runs ms s₀ s) (hscopes : s'.scopes = s.scopes) (hwork : s'.work = s.work)
    (hsize : s'.locals.size = s.locals.size) (hstored : Stored s → Stored s')
    (hns : ∀ m ∈ ns, m = .self ∨ ∃ x, m = .read x ∧ Visible s.scopes x)
    (hfirsts : s'.lambdas.map (·.firstLocal) = s.lambdas.map (·.firstLocal))
    (hnodup : ∀ f ∈ s'.lambdas, f.captures.toList.Nodup)
    (hgrow : s.work.diags = s₀.work.diags → List.Forall₂ (Grow ns) s.lambdas s'.lambdas) :
    Runs (ms ++ ns) s₀ s' where
  inv :=
    { fit := h.inv.fit.congr (by rw [hscopes]) hfirsts
      visible := fun x hx => hsize ▸ h.inv.visible x (hscopes ▸ hx)
      first := fun f hf => by
        obtain ⟨g, hg, hgf⟩ := exists_of_firsts hfirsts hf
        rw [← hgf, hsize]
        exact h.inv.first g hg
      nodup := hnodup }
  diags := hwork ▸ h.diags
  size := hsize ▸ h.size
  declared := fun x hx => by
    rcases List.mem_append.1 hx with hx | hx
    · exact hsize ▸ h.declared x hx
    · rcases hns _ hx with h' | ⟨y, h', -⟩ <;> cases h'
  read := fun x hx => by
    rcases List.mem_append.1 hx with hx | hx
    · exact (h.read x hx).imp id (List.mem_append_left _)
    · rcases hns _ hx with h' | ⟨y, h', hy⟩
      · cases h'
      · cases h'
        exact (h.visible_back hy).imp id (List.mem_append_left _)
  scopes := hscopes ▸ h.scopes.imp fun _ _ hs =>
    ⟨hs.1, fun y hy => (hs.2 y hy).imp id (List.mem_append_left _)⟩
  firsts := hfirsts.trans h.firsts
  exact := fun he => by
    have he' : s.work.diags = s₀.work.diags := hwork ▸ he
    obtain ⟨hg, hl, hst⟩ := h.exact he'
    refine ⟨forall₂_trans (fun a b c (h₁ : Grow ms a b) (h₂ : Grow ns b c) => h₁.trans h₂) hg
      (hgrow he'), LambdasExact.append hl fun ps body cs ct hm => ?_, hstored ∘ hst⟩
    rcases hns _ hm with h' | ⟨y, h', -⟩ <;> cases h'

/-- Mentions the frames already hold extend a run with no step. -/
theorem Runs.extend (h : Runs ms s₀ s)
    (hns : ∀ m ∈ ns, m = .self ∨ ∃ x, m = .read x ∧ Visible s.scopes x)
    (hheld : s.work.diags = s₀.work.diags → ∀ f ∈ s.lambdas,
      (∀ x, .read x ∈ ns → x < f.firstLocal → x ∈ f.captures) ∧
      (.self ∈ ns → f.capturesThis = true)) : Runs (ms ++ ns) s₀ s :=
  h.frames rfl rfl rfl id hns rfl h.inv.nodup fun he =>
    List.forall₂_same.2 fun f hf => by
      obtain ⟨hcap, hself⟩ := hheld he f hf
      refine ⟨rfl, fun x => ⟨.inl, ?_⟩, ⟨.inl, ?_⟩⟩
      · rintro (hx | ⟨hr, hlt⟩)
        · exact hx
        · exact hcap x hr hlt
      · rintro (hx | hs)
        · exact hx
        · exact hself hs

/-- After an error was reported the run owes the frames nothing. -/
theorem Runs.errored (h : Runs ms s₀ s) (hne : s.work.diags ≠ s₀.work.diags)
    (hns : ∀ m ∈ ns, m = .self ∨ ∃ x, m = .read x ∧ Visible s.scopes x) :
    Runs (ms ++ ns) s₀ s :=
  h.extend hns fun he => absurd he hne

/-- A name whose local is found before any lambda scope is owed no capture: every frame around
starts at or before that local. -/
theorem Runs.read_of_not_crosses (h : Runs ms s₀ s) {name : String} {x : LocalId}
    (hx : s.scopes.lookup name = some x) (hcross : Scopes.crossesLambda name x s.scopes = false) :
    Runs (ms ++ [.read x]) s₀ s := by
  refine h.extend (fun m hm => .inr ⟨x, List.mem_singleton.1 hm, visible_of_lookup hx⟩)
    fun _ f hf => ⟨fun y hy hlt => ?_, by simp⟩
  have hle := h.inv.fit.le_of_not_crosses hx hcross f hf
  obtain rfl : y = x := by simpa using hy
  exact absurd hlt (Nat.not_lt.2 hle)

/-- With no lambda around, a use of the running object is owed no capture. -/
theorem Runs.self_of_no_frames (h : Runs ms s₀ s) (hnil : s.lambdas = []) :
    Runs (ms ++ [.self]) s₀ s :=
  h.extend (fun m hm => .inl (List.mem_singleton.1 hm)) fun _ f hf => by simp [hnil] at hf

/-- What `capture x` does to one frame. -/
theorem grow_capture (x : LocalId) (f : LambdaFrame) :
    Grow [.read x] f (if x < f.firstLocal && !f.captures.contains x then
      { f with captures := f.captures.push x } else f) := by
  by_cases hc : x < f.firstLocal ∧ x ∉ f.captures
  · have hcond : (x < f.firstLocal && !f.captures.contains x) = true := by simp [hc.1, hc.2]
    simp only [hcond, ↓reduceIte]
    refine ⟨rfl, fun y => ?_, by simp⟩
    simp only [Array.mem_push, List.mem_singleton, Mention.read.injEq]
    constructor
    · rintro (hy | rfl)
      · exact .inl hy
      · exact .inr ⟨rfl, hc.1⟩
    · rintro (hy | ⟨rfl, -⟩)
      · exact .inl hy
      · exact .inr rfl
  · have hcond : (x < f.firstLocal && !f.captures.contains x) = false := by
      simpa using hc
    simp only [hcond, Bool.false_eq_true, ↓reduceIte]
    refine ⟨rfl, fun y => ?_, by simp⟩
    simp only [List.mem_singleton, Mention.read.injEq]
    constructor
    · exact .inl
    · rintro (hy | ⟨rfl, hlt⟩)
      · exact hy
      · simpa [hlt] using hc

theorem nodup_capture (x : LocalId) (f : LambdaFrame) (hf : f.captures.toList.Nodup) :
    (if x < f.firstLocal && !f.captures.contains x then
      { f with captures := f.captures.push x } else f).captures.toList.Nodup := by
  split
  · rename_i hc
    have hx : x ∉ f.captures := by
      simp at hc
      exact hc.2
    simp only [Array.toList_push, List.nodup_append, List.nodup_cons, List.not_mem_nil,
      not_false_eq_true, List.nodup_nil, and_self, List.mem_singleton, true_and]
    refine ⟨hf, fun a ha b hb => ?_⟩
    rintro rfl
    exact hx (by simpa [hb] using ha)
  · exact hf

/-- `capture x` records a read of visible local `x` in every frame that lacks it. -/
theorem Runs.capture (h : Runs ms s₀ s) {x : LocalId} (hx : Visible s.scopes x) :
    Runs (ms ++ [.read x]) s₀ ((capture x).run s).2 := by
  refine h.frames rfl rfl Array.size_modify id
    (fun m hm => .inr ⟨x, List.mem_singleton.1 hm, hx⟩) ?_ ?_ fun _ => ?_
  · show (s.lambdas.map _).map _ = _
    rw [List.map_map]
    refine List.map_congr_left fun f _ => ?_
    simp only [Function.comp_apply]
    split <;> rfl
  · show ∀ f ∈ s.lambdas.map _, _
    simp only [List.mem_map]
    rintro _ ⟨f, hf, rfl⟩
    exact nodup_capture x f (h.inv.nodup f hf)
  · exact List.forall₂_map_right_iff.2 (List.forall₂_same.2 fun f _ => grow_capture x f)

/-- `captureThis` records a use of the running object in every frame. -/
theorem Runs.captureThis (h : Runs ms s₀ s) : Runs (ms ++ [.self]) s₀ (captureThis.run s).2 := by
  refine h.frames rfl rfl rfl id (fun m hm => .inl (List.mem_singleton.1 hm)) ?_ ?_ fun _ => ?_
  · show (s.lambdas.map _).map _ = _
    simp
  · show ∀ f ∈ s.lambdas.map _, _
    simp only [List.mem_map]
    rintro _ ⟨f, hf, rfl⟩
    exact h.inv.nodup f hf
  · refine List.forall₂_map_right_iff.2 (List.forall₂_same.2 fun f _ => ⟨rfl, by simp, by simp⟩)

/-- A lambda whose captures are exact when no error was reported extends the run. -/
theorem Runs.lambda (h : Runs ms s₀ s) {ps : List LocalId} {body : TypedLambdaBody}
    {cs : List LocalId} {ct : Bool}
    (hex : s.work.diags = s₀.work.diags → CapturesExact ps body cs ct) :
    Runs (ms ++ [.lambda ps body cs ct]) s₀ s where
  inv := h.inv
  diags := h.diags
  size := h.size
  declared := fun x hx => by
    rcases List.mem_append.1 hx with hx | hx
    · exact h.declared x hx
    · cases List.mem_singleton.1 hx
  read := fun x hx => by
    rcases List.mem_append.1 hx with hx | hx
    · exact (h.read x hx).imp id (List.mem_append_left _)
    · cases List.mem_singleton.1 hx
  scopes := h.scopes.imp fun _ _ hs =>
    ⟨hs.1, fun y hy => (hs.2 y hy).imp id (List.mem_append_left _)⟩
  firsts := h.firsts
  exact := fun he => by
    obtain ⟨hg, hl, hst⟩ := h.exact he
    refine ⟨hg.imp fun f f' hf => hf.trans (Grow.still (by simp) (by simp) f'),
      LambdasExact.append hl fun ps' body' cs' ct' hm => ?_, hst⟩
    simp only [List.mem_singleton, Mention.lambda.injEq] at hm
    obtain ⟨rfl, rfl, rfl, rfl⟩ := hm
    exact hex he

/-- Storing a checked function whose body the run mentions keeps the stored bodies exact. -/
theorem Runs.storeFunction (h : Runs ms s₀ s) {f : FunctionId} {tf : TypedFunction}
    (hbody : ∀ m ∈ (tf.body.getD []).flatMap TypedStmt.mentions, m ∈ ms) :
    Runs ms s₀ { s with functions := s.functions.insert f tf } where
  inv := ⟨h.inv.fit, h.inv.visible, h.inv.first, h.inv.nodup⟩
  diags := h.diags
  size := h.size
  declared := h.declared
  read := h.read
  scopes := h.scopes
  firsts := h.firsts
  exact := fun he => by
    obtain ⟨hg, hl, hst⟩ := h.exact he
    refine ⟨hg, hl, fun hs => ⟨fun g tg hg' => ?_, (hst hs).2⟩⟩
    simp only [Std.TreeMap.getElem?_insert] at hg'
    split at hg'
    · cases hg'
      exact fun ps body cs ct hm => hl ps body cs ct (hbody _ hm)
    · exact (hst hs).1 g tg hg'

/-- Storing a checked initializer that the run mentions keeps the stored bodies exact. -/
theorem Runs.storeInitializer (h : Runs ms s₀ s) {g : FieldId} {te : TypedExpr}
    (hinit : ∀ m ∈ te.mentions, m ∈ ms) :
    Runs ms s₀ { s with initializers := s.initializers.insert g te } where
  inv := ⟨h.inv.fit, h.inv.visible, h.inv.first, h.inv.nodup⟩
  diags := h.diags
  size := h.size
  declared := h.declared
  read := h.read
  scopes := h.scopes
  firsts := h.firsts
  exact := fun he => by
    obtain ⟨hg, hl, hst⟩ := h.exact he
    refine ⟨hg, hl, fun hs => ⟨(hst hs).1, fun g' tg hg' => ?_⟩⟩
    simp only [Std.TreeMap.getElem?_insert] at hg'
    split at hg'
    · cases hg'
      exact fun ps body cs ct hm => hl ps body cs ct (hinit _ hm)
    · exact (hst hs).2 g' tg hg'

/-! ## Reporting an error -/

/-- `x` is quiet and reports a diagnostic each time it runs. -/
def Reports (x : CheckM Unit) : Prop :=
  IsQuiet x ∧ ∀ s, s.work.diags.size < (x.run s).2.work.diags.size

theorem reports_report (d : Diagnostic) : Reports (report d) :=
  ⟨isQuiet_report d, fun s => by
    show s.work.diags.size < (s.work.diags.push d).size
    simp⟩

theorem reports_mismatchNoted (message : String) (span : Span) (notes : List String) :
    Reports (mismatchNoted message span notes) :=
  reports_report _

theorem reports_mismatch (message : String) (span : Span) : Reports (mismatch message span) :=
  reports_report _

theorem reports_misplaced (message : String) (span : Span) : Reports (misplaced message span) :=
  reports_report _

/-- Once an error is reported, the code after it may read visible locals and use the running
object without capturing them. -/
theorem post_reports_bind (ns : List Mention) {x : CheckM Unit} {k : Unit → CheckM α}
    {Q : α → CheckState → Prop} (hx : Reports x) (h : Runs ms s₀ s)
    (hns : ∀ m ∈ ns, m = .self ∨ ∃ y, m = .read y ∧ Visible s.scopes y)
    (hk : ∀ s₁, Runs (ms ++ ns) s₀ s₁ → Post (k ()) Q s₁) : Post (x >>= k) Q s := by
  have hq := hx.1 s
  refine hk _ ((h.quiet hq).errored (fun he => ?_) fun m hm => ?_)
  · -- the run ends with more diagnostics than it started with
    have hle : s₀.work.diags.size ≤ s.work.diags.size := by simpa using h.diags.length_le
    have hlt := hx.2 s
    rw [he] at hlt
    omega
  · rcases hns m hm with hself | ⟨y, rfl, hy⟩
    · exact .inl hself
    · exact .inr ⟨y, rfl, (visible_congr hq.scopes).2 hy⟩

/-! ## Names, `this` and declarations -/

/-- Reading the local a name stands for, with the capture checking makes when the name reaches
past a lambda scope. -/
theorem post_readLocal {k : Unit → CheckM α} {Q : α → CheckState → Prop} (h : Runs ms s₀ s)
    {name : String} {x : LocalId} (hx : s.scopes.lookup name = some x)
    (hk : ∀ s₁, Runs (ms ++ [.read x]) s₀ s₁ → Post (k ()) Q s₁) :
    Post (if Scopes.crossesLambda name x s.scopes = true then capture x >>= k else k ()) Q s := by
  split
  · exact hk _ (h.capture (visible_of_lookup hx))
  · rename_i hcross
    exact hk _ (h.read_of_not_crosses hx (by simpa using hcross))

theorem post_captureThis_bind {k : Unit → CheckM α} {Q : α → CheckState → Prop}
    (h : Runs ms s₀ s) (hk : ∀ s₁, Runs (ms ++ [.self]) s₀ s₁ → Post (k ()) Q s₁) :
    Post (captureThis >>= k) Q s :=
  hk _ h.captureThis

/-- A plain name stands for a local, which it reads, for a field reached through `this`, which
uses the running object, or for something that mentions neither. -/
theorem checks_checkIdent (name : String) (span : Span) :
    Checks (checkIdent name span) TypedExpr.mentions := by
  refine checks_of_runs fun s h => ?_
  unfold checkIdent
  rw [post_get_bind]
  extract_lets done t isMethod extra tail
  split
  · -- a local
    rename_i x hx
    refine post_readLocal h hx fun s₁ h₁ => ?_
    refine post_quiet_bind (isQuiet_localVar x) h₁ fun l s₂ h₂ => ?_
    split <;> exact post_pure_runs h₂ (by simp)
  · -- a global, or an error: nothing is mentioned
    have htail : ∀ s₁, Runs [] s s₁ → Post (tail ()) (fun r s' => Runs r.mentions s s') s₁ := by
      intro s₁ h₁
      refine post_quiet_bind isQuiet_names h₁ fun l s₂ h₂ => ?_
      split
      · exact post_pure_runs h₂ (by simp)
      split
      · refine post_quiet_bind (isQuiet_mismatchNoted _ _ _) h₂ fun _ s₃ h₃ => ?_
        exact post_pure_runs h₃ (by simp)
      split
      · refine post_quiet_bind (isQuiet_mismatch _ _) h₂ fun _ s₃ h₃ => ?_
        exact post_pure_runs h₃ (by simp)
      · refine post_quiet_bind (isQuiet_unresolvedAmong _ _ _ _) h₂ fun _ s₃ h₃ => ?_
        exact post_pure_runs h₃ (by simp)
    split
    · dsimp only
      split
      · -- an instance field of the class being checked
        split
        · refine post_quiet_bind (isQuiet_mismatch _ _) h fun _ s₁ h₁ => ?_
          exact post_pure_runs h₁ (by simp)
        · refine post_captureThis_bind h fun s₁ h₁ => ?_
          exact post_pure_runs h₁ (by simp)
      · split
        · exact post_pure_runs h (by simp)
        · exact htail s h
    · exact htail s h

/-- `this` uses the running object; outside an instance method that is an error. -/
theorem checks_checkThis (span : Span) : Checks (checkThis span) TypedExpr.mentions := by
  refine checks_of_runs fun s h => ?_
  unfold checkThis
  rw [post_get_bind]
  split
  · split
    · refine post_reports_bind [.self] (reports_mismatch _ _) h (by simp) fun s₁ h₁ => ?_
      exact post_pure_runs h₁ (by simp)
    · refine post_captureThis_bind h fun s₁ h₁ => ?_
      exact post_pure_runs h₁ (by simp)
  · refine post_reports_bind [.self] (reports_mismatch _ _) h (by simp) fun s₁ h₁ => ?_
    exact post_pure_runs h₁ (by simp)

/-- Adding the next local, and its name to the innermost scope or to none, declares it. -/
theorem runs_declare (hs : Inv s) (hsize : s'.locals.size = s.locals.size + 1)
    (hlam : s'.lambdas = s.lambdas) (hwork : s'.work = s.work)
    (hfun : s'.functions = s.functions) (hinit : s'.initializers = s.initializers)
    (hscopes : s'.scopes = s.scopes ∨ ∃ top rest name, s.scopes = top :: rest ∧
      s'.scopes = { top with locals := top.locals ++ [(name, s.locals.size)] } :: rest) :
    Runs [.declare s.locals.size] s s' := by
  -- the locals now visible are those visible before and the new one
  have hvis : ∀ y, Visible s'.scopes y → Visible s.scopes y ∨ y = s.locals.size := by
    intro y hy
    rcases hscopes with hsc | ⟨top, rest, name, hsc, hsc'⟩
    · exact .inl (hsc ▸ hy)
    · rw [hsc', visible_cons] at hy
      rw [hsc, visible_cons]
      simp only [Scope.ids, List.map_append, List.mem_append, List.map_cons, List.map_nil,
        List.mem_singleton] at hy
      rcases hy with (hy | rfl) | hy
      · exact .inl (.inl hy)
      · exact .inr rfl
      · exact .inl (.inr hy)
  refine
    { inv := ⟨?_, fun y hy => ?_, fun f hf => ?_, fun f hf => hs.nodup f (hlam ▸ hf)⟩
      diags := hwork ▸ List.prefix_refl _
      size := by omega
      declared := fun y hy => by
        obtain rfl : y = s.locals.size := by simpa using hy
        exact ⟨Nat.le_refl _, hsize ▸ Nat.lt_succ_self _⟩
      read := by simp
      scopes := ?_
      firsts := by rw [hlam]
      exact := fun _ => ⟨hlam ▸ List.forall₂_same.2 fun f _ => Grow.still (by simp) (by simp) f,
        by simp [Mention.LambdasExact], Stored.congr hfun hinit⟩ }
  · rw [hlam]
    rcases hscopes with hsc | ⟨top, rest, name, hsc, hsc'⟩
    · exact hsc ▸ hs.fit
    · rw [hsc']
      exact (hsc ▸ hs.fit).declare name hs.first
  · rcases hvis y hy with hy | rfl
    · exact hsize ▸ Nat.lt_succ_of_lt (hs.visible y hy)
    · exact hsize ▸ Nat.lt_succ_self _
  · exact hsize ▸ Nat.le_succ_of_le (hs.first f (hlam ▸ hf))
  · rcases hscopes with hsc | ⟨top, rest, name, hsc, hsc'⟩
    · rw [hsc]
      exact List.forall₂_same.2 fun S _ => ⟨rfl, fun y hy => .inl hy⟩
    · rw [hsc, hsc']
      refine .cons ⟨rfl, fun y hy => ?_⟩ (List.forall₂_same.2 fun S _ => ⟨rfl, fun y hy => .inl hy⟩)
      simp only [Scope.ids, List.map_append, List.mem_append, List.map_cons, List.map_nil,
        List.mem_singleton] at hy
      rcases hy with hy | rfl
      · exact .inl hy
      · exact .inr (List.mem_singleton_self _)

/-- `defineLocal` declares the next local. -/
theorem checks_defineLocal (name : String) (type : Ty) (isVal isParam : Bool) (span : Span) :
    Checks (defineLocal name type isVal isParam span) (fun x => [.declare x]) := by
  intro s hs
  unfold defineLocal
  rw [post_get_bind]
  dsimp only
  rw [post_set_bind]
  split
  · rename_i top rest hsc
    split
    · -- the name is taken in the innermost scope: the local is reachable only where declared
      refine post_quiet_bind (isQuiet_report _)
        (runs_declare hs (by simp) rfl rfl rfl rfl (.inl rfl)) fun _ s₁ h₁ => ?_
      exact post_quiet_bind (isQuiet_recordType _ _) h₁ fun _ _ h₂ => h₂
    · rw [post_modify_bind]
      exact post_quiet_bind (isQuiet_recordType _ _)
        (runs_declare hs (by simp) rfl rfl rfl rfl (.inr ⟨top, rest, name, hsc, rfl⟩))
        fun _ _ h₂ => h₂
  · exact post_quiet_bind (isQuiet_recordType _ _)
      (runs_declare hs (by simp) rfl rfl rfl rfl (.inl rfl)) fun _ _ h₂ => h₂

/-! ## Scopes, lambdas and bodies -/

/-- A block scope holds no local yet: opening one keeps the invariant. -/
theorem inv_pushScope (hs : Inv s) {kind : ScopeKind} (hkind : kind ≠ .lambda) :
    Inv { s with scopes := { kind } :: s.scopes } where
  fit := .plain hkind (by simp [Scope.ids]) hs.fit
  visible := fun x hx => hs.visible x (by simpa [visible_cons, Scope.ids] using hx)
  first := hs.first
  nodup := hs.nodup

/-- Closing the block scope a run started in leaves a run from the state before it. -/
theorem Runs.closeBlock {kind : ScopeKind} (hkind : kind ≠ .lambda)
    (h : Runs ms { s with scopes := { kind } :: s.scopes } s') :
    Runs ms s { s' with scopes := s'.scopes.drop 1 } := by
  obtain ⟨S', ss', hstep, hrest, hsc⟩ := List.forall₂_cons_left_iff.1 h.scopes
  have hfit : Fit ss' s'.lambdas := (hsc ▸ h.inv.fit).tail (hstep.1 ▸ hkind)
  have hdrop : s'.scopes.drop 1 = ss' := by rw [hsc]; rfl
  refine
    { inv := ⟨by simpa [hdrop] using hfit, fun y hy => h.inv.visible y ?_, h.inv.first,
        h.inv.nodup⟩
      diags := h.diags
      size := h.size
      declared := h.declared
      read := fun y hy => (h.read y hy).imp (fun hv => by simpa [visible_cons, Scope.ids] using hv) id
      scopes := by simpa [hdrop] using hrest
      firsts := h.firsts
      exact := h.exact }
  simp only [hdrop] at hy
  rw [hsc]
  exact visible_cons.2 (.inr hy)

/-- Code run in a block scope runs as it would without the scope. -/
theorem checks_inScope {kind : ScopeKind} (hkind : kind ≠ .lambda) {x : CheckM α}
    {M : α → List Mention} (hx : Checks x M) : Checks (inScope kind x) M :=
  fun _ hs => (hx _ (inv_pushScope hs hkind)).closeBlock hkind

/-- Opening a lambda: a lambda scope with no local yet, and a frame that starts at the next
local. -/
theorem inv_openLambda (hs : Inv s) :
    Inv { s with
      scopes := { kind := .lambda } :: s.scopes
      lambdas := { firstLocal := s.locals.size } :: s.lambdas } where
  fit := .lambda rfl (by simp [Scope.ids]) hs.first hs.fit
  visible := fun x hx => hs.visible x (by simpa [visible_cons, Scope.ids] using hx)
  first := by
    simp only [List.mem_cons, forall_eq_or_imp]
    exact ⟨Nat.le_refl _, hs.first⟩
  nodup := by
    simp only [List.mem_cons, forall_eq_or_imp]
    exact ⟨List.nodup_nil, hs.nodup⟩

/-- A lambda's body is checked in a frame of its own. The frame starts at the first local the
body declares and lists each capture once; when no error was reported it holds exactly the
locals the body reads that were declared before the lambda, and `this` exactly when the body
uses the running object. Of the locals the body reads, those declared before the lambda are the
ones the body does not declare. -/
theorem post_inLambda {x : CheckM α} {M : α → List Mention} (hx : Checks x M) (hs : Inv s) :
    Post (inLambda x) (fun r s' => Runs (M r.1) s s' ∧ r.2.firstLocal = s.locals.size ∧
      r.2.captures.toList.Nodup ∧
      (∀ y, .read y ∈ M r.1 → (y < s.locals.size ↔ .declare y ∉ M r.1)) ∧
      (s'.work.diags = s.work.diags →
        (∀ y, y ∈ r.2.captures ↔ .read y ∈ M r.1 ∧ y < s.locals.size) ∧
        (r.2.capturesThis = true ↔ .self ∈ M r.1))) s := by
  unfold inLambda pushScope
  rw [post_modify_bind, post_modify_bind]
  refine post_bind_of (hx _ (inv_openLambda hs)) fun a s₂ h => ?_
  rw [post_get_bind]
  unfold popScope
  rw [post_modify_bind, post_modify_bind, post_pure]
  -- after the body, the lambda's scope and frame are on top
  obtain ⟨S', ss', hstep, hrest, hsc⟩ := List.forall₂_cons_left_iff.1 h.scopes
  have hfirsts : s₂.lambdas.map (·.firstLocal) = s.locals.size :: s.lambdas.map (·.firstLocal) :=
    h.firsts
  obtain ⟨f', fs', hlam, hf', hfs'⟩ := List.map_eq_cons_iff.1 hfirsts
  have hfit : Fit ss' fs' := by
    have hf := h.inv.fit
    rw [hsc, hlam] at hf
    cases hf with
    | plain hk => exact absurd hstep.1 hk
    | lambda _ _ _ hrest' => exact hrest'
  have hmem : ∀ g ∈ fs', g ∈ s₂.lambdas := fun g hg => hlam ▸ List.mem_cons_of_mem _ hg
  simp only [hsc, hlam, List.drop_succ_cons, List.drop_zero, List.head?_cons, Option.getD_some]
  refine ⟨?_, hf', h.inv.nodup f' (by simp [hlam]), fun y hy => ?_, fun he => ?_⟩
  · exact
      { inv := ⟨hfit, fun y hy => h.inv.visible y (hsc ▸ visible_cons.2 (.inr hy)),
          fun g hg => h.inv.first g (hmem g hg), fun g hg => h.inv.nodup g (hmem g hg)⟩
        diags := h.diags
        size := h.size
        declared := h.declared
        read := fun y hy => (h.read y hy).imp
          (fun hv => by simpa [visible_cons, Scope.ids] using hv) id
        scopes := hrest
        firsts := hfs'
        exact := fun he => by
          obtain ⟨hg, hl, hst⟩ := h.exact he
          rw [hlam] at hg
          exact ⟨(List.forall₂_cons.1 hg).2, hl, hst⟩ }
  · -- a local the body reads was declared before the lambda unless the body declares it
    constructor
    · intro hlt hd
      have := (h.declared y hd).1
      exact absurd hlt (Nat.not_lt.2 this)
    · intro hnd
      rcases h.read y hy with hv | hd
      · exact hs.visible y (by simpa [visible_cons, Scope.ids] using hv)
      · exact absurd hd hnd
  · obtain ⟨hg, -, -⟩ := h.exact he
    rw [hlam] at hg
    obtain ⟨-, hcap, hthis⟩ := (List.forall₂_cons.1 hg).1
    refine ⟨fun y => ?_, ?_⟩
    · simpa using hcap y
    · simpa using hthis

/-- A separate body starts in a function scope with no lambda around. -/
theorem inv_enterBody {s' : CheckState} (hsc : s'.scopes = [{ kind := .function }])
    (hlam : s'.lambdas = []) : Inv s' where
  fit := by
    rw [hsc, hlam]
    exact .plain (by decide) (by simp [Scope.ids]) .nil
  visible := fun x hx => by
    rw [hsc] at hx
    simp [Visible, Scope.ids] at hx
  first := by simp [hlam]
  nodup := by simp [hlam]

/-- Checking a separate body, one that `enter` sets up with a function scope and no lambda
around, leaves the scopes and frames of the code around it as they were and mentions nothing
there. -/
theorem checks_inBody {enter : CheckState → CheckState}
    (henter : ∀ s, (enter s).scopes = [{ kind := .function }] ∧ (enter s).lambdas = [] ∧
      (enter s).locals = s.locals ∧ (enter s).work = s.work ∧
      (enter s).functions = s.functions ∧ (enter s).initializers = s.initializers)
    {x : CheckM α} (hx : ∀ s, Inv s → Post x (fun _ s' => ∃ ms, Runs ms s s') s) :
    Checks (inBody enter x) (fun _ => []) := by
  intro s hs
  obtain ⟨hsc, hlam, hloc, hwork, hfun, hinit⟩ := henter s
  unfold inBody saveBody restoreBody
  rw [post_bind, post_get_bind, post_pure, post_modify_bind]
  refine post_bind_of (hx _ (inv_enterBody hsc hlam)) fun a s₂ h => ?_
  obtain ⟨ms, h⟩ := h
  have hsize : s.locals.size ≤ s₂.locals.size := hloc ▸ h.size
  exact
    { inv := ⟨hs.fit, fun y hy => Nat.lt_of_lt_of_le (hs.visible y hy) hsize,
        fun f hf => Nat.le_trans (hs.first f hf) hsize, hs.nodup⟩
      diags := hwork ▸ h.diags
      size := hsize
      declared := by simp
      read := by simp
      scopes := List.forall₂_same.2 fun S _ => ScopeStep.refl S
      firsts := rfl
      exact := fun he => ⟨List.forall₂_same.2 fun f _ => Grow.refl f,
        by simp [Mention.LambdasExact], fun hst =>
          ((h.exact (hwork ▸ he)).2.2 (hst.congr hfun hinit)).congr rfl rfl⟩ }

/-! ## Lists, loops and results -/

/-- Checking each element of a list in turn mentions what the results mention. -/
theorem checks_mapM {xs : List γ} {f : γ → CheckM α} {M : α → List Mention}
    (hf : ∀ x ∈ xs, Checks (f x) M) : Checks (xs.mapM f) (fun rs => rs.flatMap M) := by
  induction xs with
  | nil => exact fun s hs => Runs.rfl' hs
  | cons x xs ih =>
    rw [List.mapM_cons]
    refine checks_of_runs fun s h => ?_
    refine post_checks_bind (hf x List.mem_cons_self) h fun a s₁ h₁ => ?_
    refine post_checks_bind (ih fun y hy => hf y (List.mem_cons_of_mem _ hy)) h₁
      fun as s₂ h₂ => ?_
    exact post_pure_runs h₂ (by simp)

theorem checks_optionMapM {o : Option γ} {f : γ → CheckM α} {M : α → List Mention}
    (hf : ∀ x, Checks (f x) M) : Checks (o.mapM f) (fun r => r.toList.flatMap M) := by
  cases o with
  | none => exact fun s hs => Runs.rfl' hs
  | some x =>
    refine fun s hs => (hf x s hs).congr fun m => ?_
    show m ∈ M _ ↔ m ∈ [_].flatMap M
    simp only [List.flatMap_cons, List.flatMap_nil, List.append_nil]
    exact Iff.rfl

/-- A loop extends a run by what its state says the rounds so far mention, when each round
does. -/
theorem post_forIn {xs : List γ} {f : γ → β → CheckM (ForInStep β)} (I : β → List Mention)
    (hf : ∀ x ∈ xs, ∀ b s, Runs (I b) s₀ s →
      Post (f x b) (fun r s' => Runs (I r.value) s₀ s') s) :
    ∀ b s, Runs (I b) s₀ s → Post (forIn xs b f) (fun b' s' => Runs (I b') s₀ s') s := by
  induction xs with
  | nil => exact fun b s h => h
  | cons x xs ih =>
    intro b s h
    rw [List.forIn_cons]
    refine post_bind_of (hf x List.mem_cons_self b s h) fun r s₁ h₁ => ?_
    cases r with
    | done b' => exact h₁
    | yield b' => exact ih (fun y hy => hf y (List.mem_cons_of_mem _ hy)) b' s₁ h₁

/-- Choosing how a value is written into a string changes nothing it mentions. -/
theorem post_setStringify_bind {e : TypedExpr} {k : TypedExpr → CheckM α}
    {Q : α → CheckState → Prop} (hk : ∀ e', e'.mentions = e.mentions → Post (k e') Q s) :
    Post (setStringify e >>= k) Q s :=
  hk _ (e.mentions_withInfo _ rfl rfl rfl rfl)

/-- Every run of `x` gives a result with property `P`. -/
def Yields (x : CheckM α) (P : α → Prop) : Prop := ∀ s, P (x.run s).1

theorem yields_pure {P : α → Prop} {a : α} (h : P a) : Yields (pure a) P := fun _ => h

theorem yields_bind {x : CheckM β} {k : β → CheckM α} {P : α → Prop}
    (hk : ∀ b, Yields (k b) P) : Yields (x >>= k) P := fun _ => hk _ _

theorem yields_bind_of {x : CheckM β} {k : β → CheckM α} {P : β → Prop} {R : α → Prop}
    (hx : Yields x P) (hk : ∀ b, P b → Yields (k b) R) : Yields (x >>= k) R :=
  fun s => hk _ (hx s) _

/-- A loop's state keeps a property that every round keeps. -/
theorem yields_forIn {xs : List γ} {f : γ → β → CheckM (ForInStep β)} (I : β → Prop)
    (hf : ∀ x ∈ xs, ∀ b, I b → Yields (f x b) fun r => I r.value) :
    ∀ b, I b → Yields (forIn xs b f) I := by
  induction xs with
  | nil => exact fun b hb _ => hb
  | cons x xs ih =>
    intro b hb
    rw [List.forIn_cons]
    refine yields_bind_of (hf x List.mem_cons_self b hb) fun r hr => ?_
    cases r with
    | done b' => exact yields_pure hr
    | yield b' => exact ih (fun y hy => hf y (List.mem_cons_of_mem _ hy)) b' hr

/-- A quiet step keeps the run, and the code after it may use what is known of its result. -/
theorem post_quiet_yields_bind {x : CheckM β} {P : β → Prop} {k : β → CheckM α}
    {Q : α → CheckState → Prop} (hx : IsQuiet x) (hy : Yields x P) (h : Runs ms s₀ s)
    (hk : ∀ b s₁, P b → Runs ms s₀ s₁ → Post (k b) Q s₁) : Post (x >>= k) Q s :=
  hk _ _ (hy s) (h.quiet (hx s))

/-- Resolving a call keeps whether it reaches a member through `this`. -/
theorem yields_finishCall (info : ExprInfo) (name : String) (candidates : List Candidate)
    (args : List Argument) (argExprs : List TypedExpr) (span : Span) :
    Yields (finishCall info name candidates args argExprs span)
      fun r => r.2.implicitThis = info.implicitThis := by
  unfold finishCall
  repeat' first
    | exact yields_pure rfl
    | refine yields_bind fun _ => ?_
    | split
    | dsimp only

/-- Calling a function value keeps whether the call reaches a member through `this`. -/
theorem yields_closureCall (info : ExprInfo) (calleeType : Ty) (args : List Argument)
    (safe : Bool) (span : Span) :
    Yields (closureCall info calleeType args safe span)
      fun r => r.2.implicitThis = info.implicitThis := by
  unfold closureCall
  refine yields_bind fun env => ?_
  split
  · split
    · exact yields_bind fun _ => yields_bind fun _ => yields_pure rfl
    split
    · exact yields_bind fun _ => yields_bind fun _ => yields_pure rfl
    -- the argument loop stops with an error result that keeps `info`
    refine yields_bind_of (yields_forIn
      (fun r : Option (Ty × ExprInfo) × Unit => ∀ a, r.1 = some a → a.2.implicitThis = info.implicitThis)
      (fun x _ b _ => ?_) _ (by simp)) fun r hr => ?_
    · obtain ⟨⟨a, p⟩, i⟩ := x
      dsimp only
      split
      · exact yields_bind fun _ => yields_bind fun _ => yields_bind fun _ =>
          yields_pure (by simp [ForInStep.value])
      · exact yields_pure (by simp [ForInStep.value])
    · dsimp only
      split
      · rename_i a ha
        exact yields_pure (hr a ha)
      · exact yields_pure rfl
  · exact yields_bind fun _ => yields_bind fun _ => yields_pure rfl

end CheckM

end AmLang
