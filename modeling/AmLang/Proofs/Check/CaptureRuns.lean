import Mathlib.Data.List.Forall2
import AmLang.Proofs.Check.Mentions
import AmLang.Proofs.Check.QuietSteps
/-!
# Runs of checking, seen by the lambdas around them

While a lambda's body is checked, its frame collects captures: each time a name stands for a
local declared before the lambda, that local is added to every enclosing frame that lacks it
(`CheckM.capture`), and each use of the running object marks every enclosing frame
(`CheckM.captureThis`). This module says what a run of checking does to the frames, in terms of
what the tree it builds mentions.

## The invariant

`CheckM.Inv` holds of every state checking passes through. The scopes fit the lambda frames
(`CheckM.Fit`): the lambda scopes and the frames match one to one, innermost first, and each
local a scope declares comes at or after the first local of every lambda around that scope. So
a name that does not reach past a lambda scope stands for a local that no enclosing frame counts
as its own capture (`Fit.le_of_not_crosses`); `crossesLambda` and the numbering of locals agree.
Every visible local has been declared, every frame starts at or before the next local, and no
frame lists a capture twice.

## Runs

`CheckM.Runs ms s s'` relates the state before some code is checked to the state after, where
`ms` is what the checked code mentions. It keeps the invariant, only adds diagnostics and locals,
declares fresh locals, reads only visible or newly declared ones, and keeps the scopes and
frames in shape. When no diagnostic was added it also says what the frames gained
(`CheckM.Grow`): each frame gains the locals read before it starts and `this` when the code uses
the running object, every lambda the code holds captures exactly (`Mention.LambdasExact`), and
the checked bodies stay exact (`CheckM.Stored`).

Runs compose (`Runs.trans`). Code is shown to run this way (`CheckM.Checks`) by following it
step by step: quiet steps keep a run (`post_quiet_bind`), a checked part extends it
(`post_checks_bind`), and the result's mentions must be what the run gathered (`post_pure_runs`).
-/

namespace AmLang

/-- The locals a scope declares. -/
def Scope.ids (S : Scope) : List LocalId := S.locals.map (·.2)

theorem Scope.mem_ids_of_find {S : Scope} {name : String} {x : LocalId}
    (h : S.find? name = some x) : x ∈ S.ids := by
  simp only [Scope.find?, Option.map_eq_some_iff] at h
  obtain ⟨p, hp, rfl⟩ := h
  exact List.mem_map_of_mem (List.mem_of_find?_eq_some hp)

theorem Scopes.lookup_cons_of_find {S : Scope} {name : String} {x : LocalId}
    (h : S.find? name = some x) (ss : Scopes) : Scopes.lookup (S :: ss) name = some x := by
  simp [Scopes.lookup, h]

theorem Scopes.lookup_cons_of_find_none {S : Scope} {name : String} (h : S.find? name = none)
    (ss : Scopes) : Scopes.lookup (S :: ss) name = Scopes.lookup ss name := by
  simp [Scopes.lookup, h]

theorem ScopeKind.beq_lambda (k : ScopeKind) : (k == .lambda) = decide (k = .lambda) := by
  cases k <;> rfl

namespace CheckM

/-- Local `x` is visible when one of the scopes declares it. -/
def Visible (ss : Scopes) (x : LocalId) : Prop := ∃ S ∈ ss, x ∈ S.ids

theorem visible_cons {S : Scope} {ss : Scopes} {x : LocalId} :
    Visible (S :: ss) x ↔ x ∈ S.ids ∨ Visible ss x := by
  simp [Visible]

/-- The local a name stands for is visible. -/
theorem visible_of_lookup {ss : Scopes} {name : String} {x : LocalId}
    (h : ss.lookup name = some x) : Visible ss x := by
  induction ss with
  | nil => simp [Scopes.lookup] at h
  | cons S ss ih =>
    cases hfind : S.find? name with
    | some y =>
      rw [Scopes.lookup_cons_of_find hfind] at h
      cases h
      exact visible_cons.2 (.inl (Scope.mem_ids_of_find hfind))
    | none =>
      rw [Scopes.lookup_cons_of_find_none hfind] at h
      exact visible_cons.2 (.inr (ih h))

/-- Visibility reads only the locals of the scopes. -/
theorem visible_congr {ss ss' : Scopes} (h : scopeShapes ss' = scopeShapes ss) {x : LocalId} :
    Visible ss' x ↔ Visible ss x := by
  have hids : ∀ ss : Scopes, Visible ss x ↔ ∃ p ∈ scopeShapes ss, x ∈ p.2.map (·.2) := by
    simp [Visible, scopeShapes, Scope.ids]
  rw [hids, hids, h]

/-- Of two lists of frames with the same first locals, each frame of one starts where a frame
of the other does. -/
theorem exists_of_firsts {fs fs' : List LambdaFrame}
    (h : fs'.map (·.firstLocal) = fs.map (·.firstLocal)) {f : LambdaFrame} (hf : f ∈ fs') :
    ∃ g ∈ fs, g.firstLocal = f.firstLocal := by
  have : f.firstLocal ∈ fs.map (·.firstLocal) := h ▸ List.mem_map_of_mem hf
  simpa using this

/-- The scopes fit the lambda frames: lambda scopes and frames match one to one, innermost
first, and every local a scope declares comes at or after the first local of each lambda the
scope lies in. -/
inductive Fit : Scopes → List LambdaFrame → Prop
  | nil : Fit [] []
  | plain {S : Scope} {ss : Scopes} {fs : List LambdaFrame} :
      S.kind ≠ .lambda → (∀ y ∈ S.ids, ∀ f ∈ fs, f.firstLocal ≤ y) → Fit ss fs →
      Fit (S :: ss) fs
  | lambda {S : Scope} {ss : Scopes} {f : LambdaFrame} {fs : List LambdaFrame} :
      S.kind = .lambda → (∀ y ∈ S.ids, ∀ g ∈ f :: fs, g.firstLocal ≤ y) →
      (∀ g ∈ fs, g.firstLocal ≤ f.firstLocal) → Fit ss fs → Fit (S :: ss) (f :: fs)

namespace Fit

variable {ss ss' : Scopes} {fs fs' : List LambdaFrame}

/-- A name whose local is found before any lambda scope stands for a local that no lambda
around counts as declared before it. -/
theorem le_of_not_crosses (hfit : Fit ss fs) {name : String} {x : LocalId}
    (hx : ss.lookup name = some x) (hcross : Scopes.crossesLambda name x ss = false) :
    ∀ f ∈ fs, f.firstLocal ≤ x := by
  induction hfit with
  | nil => simp [Scopes.lookup] at hx
  | @plain S ss fs hkind hin _ ih =>
    cases hfind : S.find? name with
    | some y =>
      rw [Scopes.lookup_cons_of_find hfind] at hx
      cases hx
      exact hin x (Scope.mem_ids_of_find hfind)
    | none =>
      rw [Scopes.lookup_cons_of_find_none hfind] at hx
      simp [Scopes.crossesLambda, hfind, ScopeKind.beq_lambda, hkind] at hcross
      exact ih hx hcross
  | @lambda S ss f fs hkind hin _ _ _ =>
    cases hfind : S.find? name with
    | some y =>
      rw [Scopes.lookup_cons_of_find hfind] at hx
      cases hx
      exact hin x (Scope.mem_ids_of_find hfind)
    | none =>
      simp [Scopes.crossesLambda, hfind, ScopeKind.beq_lambda, hkind] at hcross

/-- The fit reads only the kinds and locals of the scopes and the first locals of the frames. -/
theorem congr (hfit : Fit ss fs) (hss : scopeShapes ss' = scopeShapes ss)
    (hfs : fs'.map (·.firstLocal) = fs.map (·.firstLocal)) : Fit ss' fs' := by
  induction hfit generalizing ss' fs' with
  | nil =>
    cases ss' <;> cases fs' <;> simp_all [scopeShapes]
    exact .nil
  | @plain S ss fs hkind hin _ ih =>
    obtain _ | ⟨S', ss'⟩ := ss'
    · simp [scopeShapes] at hss
    simp only [scopeShapes, List.map_cons, List.cons.injEq, Prod.mk.injEq] at hss
    obtain ⟨⟨hk, hl⟩, hrest⟩ := hss
    refine .plain (by rw [hk]; exact hkind) (fun y hy f hf => ?_) (ih hrest hfs)
    obtain ⟨g, hg, hgf⟩ := exists_of_firsts hfs hf
    rw [← hgf]
    exact hin y (by simpa [Scope.ids, hl] using hy) g hg
  | @lambda S ss f fs hkind hin hout _ ih =>
    obtain _ | ⟨S', ss'⟩ := ss'
    · simp [scopeShapes] at hss
    obtain _ | ⟨f', fs'⟩ := fs'
    · simp at hfs
    simp only [scopeShapes, List.map_cons, List.cons.injEq, Prod.mk.injEq] at hss hfs
    obtain ⟨⟨hk, hl⟩, hrest⟩ := hss
    obtain ⟨hf, hfs⟩ := hfs
    refine .lambda (by rw [hk]; exact hkind) (fun y hy g hg => ?_) (fun g hg => ?_)
      (ih hrest hfs)
    · have hy' : y ∈ S.ids := by simpa [Scope.ids, hl] using hy
      rcases List.mem_cons.1 hg with rfl | hg
      · rw [hf]
        exact hin y hy' f (by simp)
      · obtain ⟨h, hh, hhg⟩ := exists_of_firsts hfs hg
        rw [← hhg]
        exact hin y hy' h (by simp [hh])
    · obtain ⟨h, hh, hhg⟩ := exists_of_firsts hfs hg
      rw [← hhg, hf]
      exact hout h hh

/-- A local declared in the innermost scope, at or after every frame's first local, keeps the
fit. -/
theorem declare {S : Scope} (hfit : Fit (S :: ss) fs) {y : LocalId} (name : String)
    (hy : ∀ f ∈ fs, f.firstLocal ≤ y) :
    Fit ({ S with locals := S.locals ++ [(name, y)] } :: ss) fs := by
  cases hfit with
  | plain hkind hin hrest =>
    refine .plain hkind (fun z hz f hf => ?_) hrest
    simp only [Scope.ids, List.map_append, List.mem_append, List.map_cons, List.map_nil,
      List.mem_singleton] at hz
    rcases hz with hz | rfl
    · exact hin z hz f hf
    · exact hy f hf
  | lambda hkind hin hout hrest =>
    refine .lambda hkind (fun z hz g hg => ?_) hout hrest
    simp only [Scope.ids, List.map_append, List.mem_append, List.map_cons, List.map_nil,
      List.mem_singleton] at hz
    rcases hz with hz | rfl
    · exact hin z hz g hg
    · exact hy g hg

/-- Below a scope that is not a lambda's, the scopes fit the same frames. -/
theorem tail {S : Scope} (hfit : Fit (S :: ss) fs) (hkind : S.kind ≠ .lambda) : Fit ss fs := by
  cases hfit with
  | plain _ _ hrest => exact hrest
  | lambda hk => exact absurd hk hkind

end Fit

/-- What holds of every state that checking passes through. -/
structure Inv (s : CheckState) : Prop where
  fit : Fit s.scopes s.lambdas
  visible : ∀ x, Visible s.scopes x → x < s.locals.size
  first : ∀ f ∈ s.lambdas, f.firstLocal ≤ s.locals.size
  nodup : ∀ f ∈ s.lambdas, f.captures.toList.Nodup

/-- A scope after some code is checked: of the same kind, with locals added only where the code
declares them. -/
def ScopeStep (ms : List Mention) (S S' : Scope) : Prop :=
  S'.kind = S.kind ∧ ∀ y ∈ S'.ids, y ∈ S.ids ∨ .declare y ∈ ms

/-- What a lambda frame gains from code that mentions `ms`: the locals it reads that were
declared before the lambda, and `this` when it uses the running object. -/
def Grow (ms : List Mention) (f f' : LambdaFrame) : Prop :=
  f'.firstLocal = f.firstLocal ∧
  (∀ x, x ∈ f'.captures ↔ x ∈ f.captures ∨ (.read x ∈ ms ∧ x < f.firstLocal)) ∧
  (f'.capturesThis = true ↔ f.capturesThis = true ∨ .self ∈ ms)

/-- Every lambda in the checked bodies so far captures exactly. -/
def Stored (s : CheckState) : Prop :=
  (∀ (f : FunctionId) (tf : TypedFunction), s.functions[f]? = some tf →
    Mention.LambdasExact ((tf.body.getD []).flatMap TypedStmt.mentions)) ∧
  (∀ (g : FieldId) (te : TypedExpr), s.initializers[g]? = some te →
    Mention.LambdasExact te.mentions)

/-- Checking code that mentions `ms` leads from `s` to `s'`. -/
structure Runs (ms : List Mention) (s s' : CheckState) : Prop where
  inv : Inv s'
  diags : s.work.diags.toList <+: s'.work.diags.toList
  size : s.locals.size ≤ s'.locals.size
  declared : ∀ x, .declare x ∈ ms → s.locals.size ≤ x ∧ x < s'.locals.size
  read : ∀ x, .read x ∈ ms → Visible s.scopes x ∨ .declare x ∈ ms
  scopes : List.Forall₂ (ScopeStep ms) s.scopes s'.scopes
  firsts : s'.lambdas.map (·.firstLocal) = s.lambdas.map (·.firstLocal)
  exact : s'.work.diags = s.work.diags →
    List.Forall₂ (Grow ms) s.lambdas s'.lambdas ∧ Mention.LambdasExact ms ∧ (Stored s → Stored s')

theorem forall₂_trans {α β γ : Type} {R : α → β → Prop} {S : β → γ → Prop} {T : α → γ → Prop}
    (h : ∀ a b c, R a b → S b c → T a c) {l₁ : List α} {l₂ : List β} {l₃ : List γ}
    (h₁ : List.Forall₂ R l₁ l₂) (h₂ : List.Forall₂ S l₂ l₃) : List.Forall₂ T l₁ l₃ := by
  induction h₁ generalizing l₃ with
  | nil => cases h₂; exact .nil
  | cons hab _ ih =>
    cases h₂ with
    | cons hbc hrest => exact .cons (h _ _ _ hab hbc) (ih hrest)

/-- An element of the right list of `List.Forall₂ R` is related to one of the left list. -/
theorem exists_of_forall₂_of_mem {α β : Type} {R : α → β → Prop} {l₁ : List α} {l₂ : List β}
    (h : List.Forall₂ R l₁ l₂) {b : β} (hb : b ∈ l₂) : ∃ a ∈ l₁, R a b := by
  induction h with
  | nil => cases hb
  | cons hab _ ih =>
    rcases List.mem_cons.1 hb with rfl | hb
    · exact ⟨_, List.mem_cons_self, hab⟩
    · obtain ⟨a, ha, hr⟩ := ih hb
      exact ⟨a, List.mem_cons_of_mem _ ha, hr⟩

/-- Diagnostics that grow in two steps and end as they started did not change in either. -/
theorem diags_sandwich {a b c : Array Diagnostic} (hab : a.toList <+: b.toList)
    (hbc : b.toList <+: c.toList) (hca : c = a) : b = a ∧ c = b := by
  subst hca
  have hlen : b.toList.length = c.toList.length :=
    Nat.le_antisymm hbc.length_le hab.length_le
  have hb : c = b := Array.toList_inj.1 (hab.eq_of_length hlen.symm)
  exact ⟨hb.symm, hb⟩

namespace ScopeStep

theorem refl (S : Scope) : ScopeStep [] S S := ⟨rfl, fun _ hy => .inl hy⟩

theorem trans {ms ns : List Mention} {S S₁ S₂ : Scope} (h : ScopeStep ms S S₁)
    (h' : ScopeStep ns S₁ S₂) : ScopeStep (ms ++ ns) S S₂ := by
  refine ⟨h'.1.trans h.1, fun y hy => ?_⟩
  rcases h'.2 y hy with hy | hy
  · rcases h.2 y hy with hy | hy
    · exact .inl hy
    · exact .inr (List.mem_append_left _ hy)
  · exact .inr (List.mem_append_right _ hy)

theorem congr {ms ns : List Mention} {S S' : Scope} (h : ScopeStep ms S S')
    (hmn : ∀ m, m ∈ ms ↔ m ∈ ns) : ScopeStep ns S S' :=
  ⟨h.1, fun y hy => (h.2 y hy).imp id (hmn _).1⟩

end ScopeStep

namespace Grow

theorem refl (f : LambdaFrame) : Grow [] f f := ⟨rfl, by simp, by simp⟩

theorem trans {ms ns : List Mention} {f f₁ f₂ : LambdaFrame} (h : Grow ms f f₁)
    (h' : Grow ns f₁ f₂) : Grow (ms ++ ns) f f₂ := by
  obtain ⟨hfirst, hcap, hthis⟩ := h
  obtain ⟨hfirst', hcap', hthis'⟩ := h'
  refine ⟨hfirst'.trans hfirst, fun x => ?_, ?_⟩
  · rw [hcap', hcap, hfirst]
    simp only [List.mem_append]
    tauto
  · rw [hthis', hthis]
    simp only [List.mem_append]
    tauto

/-- Code that neither reads a local nor uses the running object leaves a frame as it is. -/
theorem still {ns : List Mention} (hread : ∀ x, .read x ∉ ns) (hself : .self ∉ ns)
    (f : LambdaFrame) : Grow ns f f :=
  ⟨rfl, fun x => by simp [hread x], by simp [hself]⟩

theorem congr {ms ns : List Mention} {f f' : LambdaFrame} (h : Grow ms f f')
    (hmn : ∀ m, m ∈ ms ↔ m ∈ ns) : Grow ns f f' :=
  ⟨h.1, fun x => by rw [h.2.1]; exact or_congr_right (and_congr_left' (hmn _)),
    by rw [h.2.2]; exact or_congr_right (hmn _)⟩

end Grow

theorem LambdasExact.append {ms ns : List Mention} (h : Mention.LambdasExact ms)
    (h' : Mention.LambdasExact ns) : Mention.LambdasExact (ms ++ ns) := by
  intro ps body cs ct hmem
  rcases List.mem_append.1 hmem with hm | hm
  · exact h ps body cs ct hm
  · exact h' ps body cs ct hm

/-- Only the checked bodies matter to `Stored`. -/
theorem Stored.congr {s s' : CheckState} (hfun : s'.functions = s.functions)
    (hinit : s'.initializers = s.initializers) (h : Stored s) : Stored s' := by
  unfold Stored
  rw [hfun, hinit]
  exact h

namespace Runs

variable {ms ns : List Mention} {s s₁ s₂ s' : CheckState}

/-- A local visible after a run was visible before it or declared by it. -/
theorem visible_back (h : Runs ms s s') {x : LocalId} (hx : Visible s'.scopes x) :
    Visible s.scopes x ∨ .declare x ∈ ms := by
  obtain ⟨S, hS, hxS⟩ := hx
  obtain ⟨S₀, hS₀, hstep⟩ := exists_of_forall₂_of_mem h.scopes hS
  exact (hstep.2 x hxS).imp (fun hx' => ⟨S₀, hS₀, hx'⟩) id

/-- Checking nothing. -/
theorem rfl' (hs : Inv s) : Runs [] s s where
  inv := hs
  diags := List.prefix_refl _
  size := Nat.le_refl _
  declared := by simp
  read := by simp
  scopes := List.forall₂_same.2 fun S _ => ScopeStep.refl S
  firsts := rfl
  exact := fun _ => ⟨List.forall₂_same.2 fun f _ => Grow.refl f, by simp [Mention.LambdasExact],
    id⟩

/-- Checking one piece of code after another. -/
theorem trans (h : Runs ms s s₁) (h' : Runs ns s₁ s₂) : Runs (ms ++ ns) s s₂ where
  inv := h'.inv
  diags := h.diags.trans h'.diags
  size := Nat.le_trans h.size h'.size
  declared := fun x hx => by
    rcases List.mem_append.1 hx with hx | hx
    · have := h.declared x hx
      exact ⟨this.1, Nat.lt_of_lt_of_le this.2 h'.size⟩
    · have := h'.declared x hx
      exact ⟨Nat.le_trans h.size this.1, this.2⟩
  read := fun x hx => by
    rcases List.mem_append.1 hx with hx | hx
    · exact (h.read x hx).imp id (List.mem_append_left _)
    · rcases h'.read x hx with hv | hd
      · exact (h.visible_back hv).imp id (List.mem_append_left _)
      · exact .inr (List.mem_append_right _ hd)
  scopes := forall₂_trans (fun a b c (h₁ : ScopeStep ms a b) (h₂ : ScopeStep ns b c) =>
    h₁.trans h₂) h.scopes h'.scopes
  firsts := h'.firsts.trans h.firsts
  exact := fun he => by
    obtain ⟨he₁, he₂⟩ := diags_sandwich h.diags h'.diags he
    obtain ⟨hg, hl, hst⟩ := h.exact he₁
    obtain ⟨hg', hl', hst'⟩ := h'.exact he₂
    exact ⟨forall₂_trans (fun a b c (h₁ : Grow ms a b) (h₂ : Grow ns b c) => h₁.trans h₂) hg hg',
      LambdasExact.append hl hl', hst' ∘ hst⟩

/-- A run is about what its code mentions, not in which order. -/
theorem congr (h : Runs ms s s') (hmn : ∀ m, m ∈ ms ↔ m ∈ ns) : Runs ns s s' where
  inv := h.inv
  diags := h.diags
  size := h.size
  declared := fun x hx => h.declared x ((hmn _).2 hx)
  read := fun x hx => (h.read x ((hmn _).2 hx)).imp id (hmn _).1
  scopes := h.scopes.imp fun _ _ hs => hs.congr hmn
  firsts := h.firsts
  exact := fun he => by
    obtain ⟨hg, hl, hst⟩ := h.exact he
    exact ⟨hg.imp fun _ _ hf => hf.congr hmn,
      fun ps body cs ct hm => hl ps body cs ct ((hmn _).2 hm), hst⟩

theorem inv_of_quiet (hs : Inv s) (hq : Quiet s s') : Inv s' where
  fit := hs.fit.congr hq.scopes (by rw [hq.lambdas])
  visible := fun x hx => hq.size ▸ hs.visible x ((visible_congr hq.scopes).1 hx)
  first := fun f hf => by
    rw [hq.size]
    exact hs.first f (hq.lambdas ▸ hf)
  nodup := fun f hf => hs.nodup f (hq.lambdas ▸ hf)

/-- A quiet step keeps a run going. -/
theorem quiet (h : Runs ms s s₁) (hq : Quiet s₁ s₂) : Runs ms s s₂ where
  inv := inv_of_quiet h.inv hq
  diags := h.diags.trans hq.diags
  size := hq.size ▸ h.size
  declared := fun x hx => hq.size ▸ h.declared x hx
  read := h.read
  scopes := by
    refine forall₂_trans (fun S S₁ S₂ hstep (heq : (S₂.kind, S₂.locals) = (S₁.kind, S₁.locals)) => ?_)
      h.scopes (?_ : List.Forall₂ (fun S₁ S₂ : Scope => (S₂.kind, S₂.locals) = (S₁.kind, S₁.locals))
        s₁.scopes s₂.scopes)
    · simp only [Prod.mk.injEq] at heq
      exact ⟨heq.1.trans hstep.1, fun y hy => hstep.2 y (by simpa [Scope.ids, heq.2] using hy)⟩
    · have hshape := hq.scopes
      simp only [scopeShapes] at hshape
      generalize s₁.scopes = l₁ at hshape
      generalize s₂.scopes = l₂ at hshape
      induction l₂ generalizing l₁ with
      | nil => cases l₁ <;> simp_all
      | cons S₂ l₂ ih =>
        cases l₁ with
        | nil => simp at hshape
        | cons S₁ l₁ =>
          simp only [List.map_cons, List.cons.injEq] at hshape
          exact .cons hshape.1 (ih l₁ hshape.2)
  firsts := by rw [hq.lambdas]; exact h.firsts
  exact := fun he => by
    obtain ⟨he₁, -⟩ := diags_sandwich h.diags hq.diags he
    obtain ⟨hg, hl, hst⟩ := h.exact he₁
    refine ⟨hq.lambdas ▸ hg, hl, fun hs => ?_⟩
    obtain ⟨hf, hi⟩ := hst hs
    exact ⟨hq.functions ▸ hf, hq.initializers ▸ hi⟩

end Runs

/-! ## Following the code -/

/-- `Q` holds of the result and the state after a run of `x` from `s`. -/
def Post {α : Type} (x : CheckM α) (Q : α → CheckState → Prop) (s : CheckState) : Prop :=
  Q (x.run s).1 (x.run s).2

/-- Checking `x` from any state of the invariant runs code that mentions what its result does. -/
def Checks {α : Type} (x : CheckM α) (M : α → List Mention) : Prop :=
  ∀ s, Inv s → Post x (fun r s' => Runs (M r) s s') s

variable {α β γ : Type} {ms : List Mention} {s₀ s : CheckState}

@[simp] theorem post_bind (x : CheckM β) (f : β → CheckM α) {Q : α → CheckState → Prop} :
    Post (x >>= f) Q s ↔ Post x (fun b s' => Post (f b) Q s') s := Iff.rfl

@[simp] theorem post_pure (a : α) {Q : α → CheckState → Prop} : Post (pure a) Q s ↔ Q a s :=
  Iff.rfl

@[simp] theorem post_get {Q : CheckState → CheckState → Prop} : Post get Q s ↔ Q s s := Iff.rfl

theorem post_get_bind {k : CheckState → CheckM α} {Q : α → CheckState → Prop} :
    Post (get >>= k) Q s ↔ Post (k s) Q s := Iff.rfl

theorem post_set_bind {s' : CheckState} {k : PUnit → CheckM α} {Q : α → CheckState → Prop} :
    Post (set s' >>= k) Q s ↔ Post (k ⟨⟩) Q s' := Iff.rfl

theorem post_modify_bind {g : CheckState → CheckState} {k : PUnit → CheckM α}
    {Q : α → CheckState → Prop} : Post (modify g >>= k) Q s ↔ Post (k ⟨⟩) Q (g s) := Iff.rfl

theorem post_pure_bind {a : β} {k : β → CheckM α} {Q : α → CheckState → Prop} :
    Post (pure a >>= k) Q s ↔ Post (k a) Q s := Iff.rfl

theorem post_localVar_bind {x : LocalId} {k : LocalSymbol → CheckM α}
    {Q : α → CheckState → Prop} :
    Post (localVar x >>= k) Q s ↔ Post (k (s.locals.getD x default)) Q s := Iff.rfl

/-- What holds after `x` is what the rest of the code starts from. -/
theorem post_bind_of {x : CheckM β} {k : β → CheckM α} {P : β → CheckState → Prop}
    {Q : α → CheckState → Prop} (hx : Post x P s) (hk : ∀ b s₁, P b s₁ → Post (k b) Q s₁) :
    Post (x >>= k) Q s :=
  hk _ _ hx

/-- A checked part extends the run. -/
theorem post_checks_bind {x : CheckM β} {M : β → List Mention} {k : β → CheckM α}
    {Q : α → CheckState → Prop} (hx : Checks x M) (h : Runs ms s₀ s)
    (hk : ∀ b s₁, Runs (ms ++ M b) s₀ s₁ → Post (k b) Q s₁) : Post (x >>= k) Q s :=
  hk _ _ (h.trans (hx s h.inv))

/-- A quiet step keeps the run. -/
theorem post_quiet_bind {x : CheckM β} {k : β → CheckM α} {Q : α → CheckState → Prop}
    (hx : IsQuiet x) (h : Runs ms s₀ s) (hk : ∀ b s₁, Runs ms s₀ s₁ → Post (k b) Q s₁) :
    Post (x >>= k) Q s :=
  hk _ _ (h.quiet (hx s))

/-- The run ends with a result that mentions what the run gathered. -/
theorem post_pure_runs {M : α → List Mention} {a : α} (h : Runs ms s₀ s)
    (hm : ∀ m, m ∈ ms ↔ m ∈ M a) : Post (pure a) (fun r s' => Runs (M r) s₀ s') s :=
  h.congr hm

/-- A checked part at the end of the code ends the run. -/
theorem post_checks_tail {x : CheckM α} {M N : α → List Mention} (hx : Checks x M)
    (h : Runs ms s₀ s) (hm : ∀ r m, m ∈ ms ++ M r ↔ m ∈ N r) :
    Post x (fun r s' => Runs (N r) s₀ s') s :=
  (h.trans (hx s h.inv)).congr (hm _)

/-- Code after a quiet step mentions what the code does. -/
theorem checks_quiet_bind {q : CheckM β} {x : β → CheckM α} {M : α → List Mention}
    (hq : IsQuiet q) (hx : ∀ b, Checks (x b) M) : Checks (q >>= x) M :=
  fun s hs => post_quiet_bind hq (Runs.rfl' hs) fun b _ h => post_checks_tail (hx b) h (by simp)

/-- A result that mentions nothing, computed with no step. -/
theorem checks_pure {a : α} {M : α → List Mention} (h : M a = []) : Checks (pure a) M :=
  fun s hs => show Runs (M a) s s from h ▸ Runs.rfl' hs

/-- A part shown to check by following it from a run of nothing. -/
theorem checks_of_runs {x : CheckM α} {M : α → List Mention}
    (h : ∀ s, Runs [] s s → Post x (fun r s' => Runs (M r) s s') s) : Checks x M :=
  fun s hs => h s (Runs.rfl' hs)

end CheckM

end AmLang
