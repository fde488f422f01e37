import Mathlib.Logic.Relation
import AmLang.Symbols.Declarations
/-!
# Steps of a table phase

The phases that complete the symbol table run in `TableM`, a state monad over the table, the
diagnostics, the log and the recorded generic uses. Two kinds of facts are proved about them.

What a phase may change is a relation between the table before and after it: a phase *keeps*
`R` when the table after any run is reached from the table before by steps of `R`
(`TableM.Keeps`). Reading the table, reporting and logging keep every relation, a change of the
table keeps `R` if it is a step of `R`, and sequencing and loops keep what their parts keep; so a
frame (what a phase leaves alone) is proved once for each kind of change, not for each phase.

What a phase computes is proved with the loop rule (`TableM.forIn_rule`): an invariant of the
loop's remaining elements, its carried value and the state that each round keeps.

The table's own accessors get their lemmas here too: what `cls` and `fn` give after a class or
function is changed or added.
-/

namespace AmLang

namespace SymbolTable

variable {t : SymbolTable}

@[simp] theorem classes_size_modifyClass (c : ClassId) (g : ClassSymbol → ClassSymbol) :
    (t.modifyClass c g).classes.size = t.classes.size := by
  simp [modifyClass]

@[simp] theorem functions_modifyClass (c : ClassId) (g : ClassSymbol → ClassSymbol) :
    (t.modifyClass c g).functions = t.functions := rfl

@[simp] theorem classes_modifyFunction (f : FunctionId) (g : FunctionSymbol → FunctionSymbol) :
    (t.modifyFunction f g).classes = t.classes := rfl

@[simp] theorem functions_size_modifyFunction (f : FunctionId)
    (g : FunctionSymbol → FunctionSymbol) :
    (t.modifyFunction f g).functions.size = t.functions.size := by
  simp [modifyFunction]

/-- Changing a class changes only that class, and only if it exists. -/
theorem cls_modifyClass (c d : ClassId) (g : ClassSymbol → ClassSymbol) :
    (t.modifyClass c g).cls d = if c = d ∧ d < t.classes.size then g (t.cls d) else t.cls d := by
  simp only [cls, modifyClass, Array.getD_eq_getD_getElem?, Array.getElem?_modify]
  by_cases hcd : c = d
  · subst hcd
    by_cases hd : c < t.classes.size <;> simp [hd]
  · simp [hcd]

@[simp] theorem cls_modifyClass_self {c : ClassId} (hc : c < t.classes.size)
    (g : ClassSymbol → ClassSymbol) : (t.modifyClass c g).cls c = g (t.cls c) := by
  simp [cls_modifyClass, hc]

@[simp] theorem cls_modifyClass_of_ne {c d : ClassId} (h : c ≠ d)
    (g : ClassSymbol → ClassSymbol) : (t.modifyClass c g).cls d = t.cls d := by
  simp [cls_modifyClass, h]

/-- Changing a function changes only that function, and only if it exists. -/
theorem fn_modifyFunction (f e : FunctionId) (g : FunctionSymbol → FunctionSymbol) :
    (t.modifyFunction f g).fn e = if f = e ∧ e < t.functions.size then g (t.fn e) else t.fn e := by
  simp only [fn, modifyFunction, Array.getD_eq_getD_getElem?, Array.getElem?_modify]
  by_cases hfe : f = e
  · subst hfe
    by_cases he : f < t.functions.size <;> simp [he]
  · simp [hfe]

@[simp] theorem fn_modifyFunction_self {f : FunctionId} (hf : f < t.functions.size)
    (g : FunctionSymbol → FunctionSymbol) : (t.modifyFunction f g).fn f = g (t.fn f) := by
  simp [fn_modifyFunction, hf]

@[simp] theorem fn_modifyFunction_of_ne {f e : FunctionId} (h : f ≠ e)
    (g : FunctionSymbol → FunctionSymbol) : (t.modifyFunction f g).fn e = t.fn e := by
  simp [fn_modifyFunction, h]

@[simp] theorem cls_modifyFunction (f : FunctionId) (g : FunctionSymbol → FunctionSymbol)
    (c : ClassId) : (t.modifyFunction f g).cls c = t.cls c := rfl

@[simp] theorem fn_modifyClass (c : ClassId) (g : ClassSymbol → ClassSymbol) (f : FunctionId) :
    (t.modifyClass c g).fn f = t.fn f := rfl

@[simp] theorem classes_size_addClass (k : ClassSymbol) :
    (t.addClass k).2.classes.size = t.classes.size + 1 := by
  simp [addClass]

@[simp] theorem functions_addClass (k : ClassSymbol) : (t.addClass k).2.functions = t.functions :=
  rfl

@[simp] theorem classes_addFunction (fs : FunctionSymbol) :
    (t.addFunction fs).2.classes = t.classes := rfl

@[simp] theorem functions_size_addFunction (fs : FunctionSymbol) :
    (t.addFunction fs).2.functions.size = t.functions.size + 1 := by
  simp [addFunction]

@[simp] theorem classes_addField (fd : FieldSymbol) : (t.addField fd).2.classes = t.classes := rfl

@[simp] theorem functions_addField (fd : FieldSymbol) : (t.addField fd).2.functions = t.functions :=
  rfl

/-- Adding a class puts it at the end and changes no other class. -/
theorem cls_addClass (k : ClassSymbol) (c : ClassId) :
    (t.addClass k).2.cls c = if c = t.classes.size then k else t.cls c := by
  simp only [cls, addClass, Array.getD_eq_getD_getElem?, Array.getElem?_push]
  split <;> simp

/-- Adding a function puts it at the end and changes no other function. -/
theorem fn_addFunction (fs : FunctionSymbol) (f : FunctionId) :
    (t.addFunction fs).2.fn f = if f = t.functions.size then fs else t.fn f := by
  simp only [fn, addFunction, Array.getD_eq_getD_getElem?, Array.getElem?_push]
  split <;> simp

@[simp] theorem classes_ensureNamespace (n : String) : (t.ensureNamespace n).classes = t.classes := by
  unfold ensureNamespace
  split <;> rfl

@[simp] theorem functions_ensureNamespace (n : String) :
    (t.ensureNamespace n).functions = t.functions := by
  unfold ensureNamespace
  split <;> rfl

@[simp] theorem classes_modifyNamespace (n : String) (g : NamespaceSymbol → NamespaceSymbol) :
    (t.modifyNamespace n g).classes = t.classes := by
  simp [modifyNamespace]

@[simp] theorem functions_modifyNamespace (n : String) (g : NamespaceSymbol → NamespaceSymbol) :
    (t.modifyNamespace n g).functions = t.functions := by
  simp [modifyNamespace]

@[simp] theorem classes_registerClass (c : ClassId) : (t.registerClass c).classes = t.classes := by
  simp [registerClass]

@[simp] theorem functions_registerClass (c : ClassId) :
    (t.registerClass c).functions = t.functions := by
  simp [registerClass]

/-- A class outside the table reads as the default class. -/
theorem cls_of_size_le {c : ClassId} (h : t.classes.size ≤ c) : t.cls c = default := by
  simp [cls, Array.getD_eq_getD_getElem?, Array.getElem?_eq_none h]

theorem superId_of_size_le {c : ClassId} (h : t.classes.size ≤ c) : (t.cls c).superId? = none := by
  rw [cls_of_size_le h]
  rfl

theorem vtable_of_size_le {c : ClassId} (h : t.classes.size ≤ c) : (t.cls c).vtable = [] := by
  rw [cls_of_size_le h]
  rfl

end SymbolTable

namespace TableM

variable {α β γ : Type}

@[simp] theorem run_pure (a : α) (w : TableWork) : (pure a : TableM α).run w = (a, w) := rfl

@[simp] theorem run_bind (x : TableM α) (f : α → TableM β) (w : TableWork) :
    (x >>= f).run w = (f (x.run w).1).run (x.run w).2 := rfl

theorem run_ite {p : Prop} [Decidable p] (x y : TableM α) (w : TableWork) :
    (if p then x else y).run w = if p then x.run w else y.run w := by
  split <;> rfl

@[simp] theorem run_get (w : TableWork) : (get : TableM TableWork).run w = (w, w) := rfl

@[simp] theorem run_table (w : TableWork) : table.run w = (w.table, w) := rfl

@[simp] theorem run_modifyTable (g : SymbolTable → SymbolTable) (w : TableWork) :
    (modifyTable g).run w = ((), { w with table := g w.table }) := rfl

@[simp] theorem run_report (d : Diagnostic) (w : TableWork) :
    (report d).run w = ((), { w with diags := w.diags.push d }) := rfl

@[simp] theorem run_log (l : Log.Line) (w : TableWork) :
    (log l).run w = ((), { w with journal := w.journal.push l }) := rfl

@[simp] theorem run_addClass (k : ClassSymbol) (w : TableWork) :
    (TableM.addClass k).run w = (w.table.classes.size, { w with table := (w.table.addClass k).2 }) :=
  rfl

@[simp] theorem run_addFunction (fs : FunctionSymbol) (w : TableWork) :
    (TableM.addFunction fs).run w =
      (w.table.functions.size, { w with table := (w.table.addFunction fs).2 }) :=
  rfl

@[simp] theorem run_addField (fd : FieldSymbol) (w : TableWork) :
    (TableM.addField fd).run w = (w.table.fields.size, { w with table := (w.table.addField fd).2 }) :=
  rfl

/-! ## Frames -/

/-- Every run of `x` leaves a table reached from the one it started with by steps of `R`. -/
def Keeps (R : SymbolTable → SymbolTable → Prop) (x : TableM α) : Prop :=
  ∀ w, Relation.ReflTransGen R w.table (x.run w).2.table

variable {R : SymbolTable → SymbolTable → Prop}

theorem keeps_pure (a : α) : Keeps R (pure a : TableM α) := fun _ => .refl

theorem keeps_bind {x : TableM α} {f : α → TableM β} (hx : Keeps R x)
    (hf : ∀ a, Keeps R (f a)) : Keeps R (x >>= f) :=
  fun w => (hx w).trans (hf _ _)

theorem keeps_get : Keeps R (get : TableM TableWork) := fun _ => .refl

theorem keeps_table : Keeps R table := fun _ => .refl

theorem keeps_report (d : Diagnostic) : Keeps R (report d) := fun _ => .refl

theorem keeps_log (l : Log.Line) : Keeps R (log l) := fun _ => .refl

theorem keeps_mismatchAt (message : String) (span : Span) :
    Keeps R (SymbolTable.mismatchAt message span) := fun _ => .refl

theorem keeps_overrideError (message : String) (span : Span) (notes : List String) :
    Keeps R (SymbolTable.overrideError message span notes) := fun _ => .refl

theorem keeps_modifyTable {g : SymbolTable → SymbolTable} (h : ∀ t, R t (g t)) :
    Keeps R (modifyTable g) := fun w => .single (h w.table)

theorem keeps_addClass {k : ClassSymbol} (h : ∀ t, R t (t.addClass k).2) :
    Keeps R (TableM.addClass k) := fun w => .single (h w.table)

theorem keeps_addFunction {fs : FunctionSymbol} (h : ∀ t, R t (t.addFunction fs).2) :
    Keeps R (TableM.addFunction fs) := fun w => .single (h w.table)

theorem keeps_addField {fd : FieldSymbol} (h : ∀ t, R t (t.addField fd).2) :
    Keeps R (TableM.addField fd) := fun w => .single (h w.table)

/-- A function added and then filed somewhere: the step from the table before the addition to
the table after the filing is one change. -/
theorem keeps_addFunction_bind {fs : FunctionSymbol} {g : FunctionId → SymbolTable → SymbolTable}
    {k : Unit → TableM α} (h : ∀ t, R t (g t.functions.size (t.addFunction fs).2))
    (hk : ∀ u, Keeps R (k u)) :
    Keeps R (TableM.addFunction fs >>= fun f => modifyTable (g f) >>= k) :=
  fun w => (Relation.ReflTransGen.single (h w.table)).trans
    (hk () { w with table := g w.table.functions.size (w.table.addFunction fs).2 })

/-- A function added and then filed somewhere, as the last step of a phase. -/
theorem keeps_addFunction_then {fs : FunctionSymbol} {g : FunctionId → SymbolTable → SymbolTable}
    (h : ∀ t, R t (g t.functions.size (t.addFunction fs).2)) :
    Keeps R (TableM.addFunction fs >>= fun f => modifyTable (g f)) :=
  fun w => .single (h w.table)

theorem keeps_ite {p : Prop} [Decidable p] {x y : TableM α} (hx : Keeps R x) (hy : Keeps R y) :
    Keeps R (if p then x else y) := by
  split
  · exact hx
  · exact hy

/-- A loop keeps what each of its rounds keeps. -/
theorem keeps_forIn (xs : List γ) (b : β) {f : γ → β → TableM (ForInStep β)}
    (h : ∀ x ∈ xs, ∀ b, Keeps R (f x b)) : Keeps R (forIn xs b f) := by
  induction xs generalizing b with
  | nil => exact keeps_pure b
  | cons x xs ih =>
    rw [List.forIn_cons]
    refine keeps_bind (h x (by simp) b) fun r => ?_
    cases r with
    | done c => exact keeps_pure c
    | yield c => exact ih c fun y hy => h y (by simp [hy])

theorem keeps_map {x : TableM α} (f : α → β) (hx : Keeps R x) : Keeps R (f <$> x) := hx

theorem keeps_recordType (ty : Ty) (owner : GenericOwner) (span : Span) :
    Keeps R (SymbolTable.recordType ty owner span) := fun _ => .refl

/-! ### Phases that only read the table

Resolving an annotation reads the table and reports what it cannot resolve; so do the checks
built on it. -/

section Lookup

variable (l : NameLookup) (ctx : LookupContext)

theorem keeps_resolveClass (path : List String) (span : Span) :
    Keeps R (l.resolveClass path span ctx : TableM (Option ClassId)) := by
  unfold NameLookup.resolveClass
  split
  · exact keeps_pure _
  · exact keeps_bind (keeps_report _) fun _ => keeps_pure _

theorem keeps_mismatch (message : String) (span : Span) :
    Keeps R (NameLookup.mismatch message span : TableM Ty) :=
  keeps_bind (keeps_report _) fun _ => keeps_pure _

mutual

theorem keeps_resolveType : ∀ te : TypeExpr, Keeps R (l.resolveType ctx te : TableM Ty)
  | .array e _ _ => by
    rw [NameLookup.resolveType]
    refine keeps_bind (keeps_resolveType e) fun _ => ?_
    repeat' first
      | with_reducible exact keeps_pure _
      | with_reducible exact keeps_mismatch _ _
      | with_reducible refine keeps_bind ?_ fun _ => ?_
      | with_reducible refine keeps_ite ?_ ?_
  | .func ps r _ _ => by
    rw [NameLookup.resolveType]
    refine keeps_bind (keeps_resolveTypes ps) fun _ => keeps_bind (keeps_resolveType r) fun _ => ?_
    exact keeps_ite (keeps_pure _) (keeps_pure _)
  | .named path args _ _ => by
    unfold NameLookup.resolveType
    dsimp only
    repeat' first
      | with_reducible exact keeps_pure _
      | with_reducible exact keeps_mismatch _ _
      | with_reducible exact keeps_resolveClass _ _ _ _
      | with_reducible exact keeps_resolveTypes args
      | exact keeps_log _
      | with_reducible refine keeps_bind ?_ fun _ => ?_
      | with_reducible refine keeps_ite ?_ ?_
      | split

theorem keeps_resolveTypes : ∀ tes : List TypeExpr, Keeps R (l.resolveTypes ctx tes : TableM (List Ty))
  | [] => by
    rw [NameLookup.resolveTypes]
    exact keeps_pure _
  | te :: tes => by
    rw [NameLookup.resolveTypes]
    exact keeps_bind (keeps_resolveType te) fun _ =>
      keeps_bind (keeps_resolveTypes tes) fun _ => keeps_pure _

end

theorem keeps_initializerType (e : Expr) :
    Keeps R (l.initializerType ctx e : TableM (Option Ty)) := by
  unfold NameLookup.initializerType
  split
  all_goals first
    | with_reducible exact keeps_pure _
    | with_reducible exact keeps_map _ (keeps_resolveType l ctx _)
    | with_reducible exact keeps_bind (keeps_resolveType l ctx _) fun _ => keeps_pure _

theorem keeps_signatureOf (d : Option Decl) :
    Keeps R (l.signatureOf ctx d : TableM (List Ty × Ty)) := by
  unfold NameLookup.signatureOf
  dsimp only
  repeat' first
    | with_reducible exact keeps_pure _
    | with_reducible exact keeps_resolveType l ctx _
    | with_reducible exact keeps_resolveTypes l ctx _
    | with_reducible refine keeps_bind ?_ fun _ => ?_
    | split

end Lookup

/-- Checking a supertype clause reads the table and reports. -/
theorem keeps_checkLink (strict : Bool) (c : ClassId) (te : TypeExpr) (want : Bool) :
    Keeps R (SymbolTable.checkLink strict c te want) := by
  unfold SymbolTable.checkLink
  dsimp only
  repeat' first
    | with_reducible exact keeps_pure _
    | with_reducible exact keeps_table
    | with_reducible exact keeps_mismatchAt _ _
    | with_reducible exact keeps_recordType _ _ _
    | with_reducible exact keeps_resolveType _ _ _
    | with_reducible refine keeps_bind ?_ fun _ => ?_
    | with_reducible refine keeps_ite ?_ ?_
    | split

/-- Checking overloads for duplicates only reports. -/
theorem keeps_checkDuplicates (overloads : List FunctionId) (what : String) :
    Keeps R (SymbolTable.checkDuplicates overloads what) := by
  unfold SymbolTable.checkDuplicates
  dsimp only
  repeat' first
    | with_reducible exact keeps_pure _
    | with_reducible exact keeps_table
    | with_reducible exact keeps_report _
    | with_reducible refine keeps_forIn _ _ fun _ _ _ => ?_
    | with_reducible refine keeps_bind ?_ fun _ => ?_
    | split

/-- What the steps of `R` keep, a phase that keeps `R` keeps. -/
theorem Keeps.preserves {x : TableM α} (hx : Keeps R x) {P : SymbolTable → Prop}
    (hP : ∀ t t', R t t' → P t → P t') {w : TableWork} (hw : P w.table) :
    P (x.run w).2.table := by
  have hsteps := hx w
  generalize (x.run w).2.table = t' at hsteps
  induction hsteps with
  | refl => exact hw
  | tail _ hstep ih => exact hP _ _ hstep ih

/-! ## What a run ends with -/

/-- `Q` holds of the result and the final state of the run of `x` from `w`. Stated this way, the
rest of a computation is the postcondition of its first step (`post_bind`), so a goal about a
whole phase unfolds, step by step, down to the loop or the call it is about. -/
def Post (x : TableM α) (Q : α → TableWork → Prop) (w : TableWork) : Prop :=
  Q (x.run w).1 (x.run w).2

variable {Q : α → TableWork → Prop} {w : TableWork}

@[simp] theorem post_pure (a : α) : Post (pure a) Q w ↔ Q a w := Iff.rfl

@[simp] theorem post_bind (x : TableM β) (f : β → TableM α) :
    Post (x >>= f) Q w ↔ Post x (fun b w' => Post (f b) Q w') w := Iff.rfl

@[simp] theorem post_table {Q : SymbolTable → TableWork → Prop} :
    Post table Q w ↔ Q w.table w := Iff.rfl

@[simp] theorem post_get {Q : TableWork → TableWork → Prop} : Post get Q w ↔ Q w w := Iff.rfl

@[simp] theorem post_modifyTable (g : SymbolTable → SymbolTable) {Q : Unit → TableWork → Prop} :
    Post (modifyTable g) Q w ↔ Q () { w with table := g w.table } := Iff.rfl

@[simp] theorem post_report (d : Diagnostic) {Q : Unit → TableWork → Prop} :
    Post (report d) Q w ↔ Q () { w with diags := w.diags.push d } := Iff.rfl

@[simp] theorem post_log (l : Log.Line) {Q : Unit → TableWork → Prop} :
    Post (log l) Q w ↔ Q () { w with journal := w.journal.push l } := Iff.rfl

@[simp] theorem post_addClass (k : ClassSymbol) {Q : ClassId → TableWork → Prop} :
    Post (TableM.addClass k) Q w ↔ Q w.table.classes.size { w with table := (w.table.addClass k).2 } :=
  Iff.rfl

@[simp] theorem post_addFunction (fs : FunctionSymbol) {Q : FunctionId → TableWork → Prop} :
    Post (TableM.addFunction fs) Q w ↔
      Q w.table.functions.size { w with table := (w.table.addFunction fs).2 } :=
  Iff.rfl

@[simp] theorem post_map (f : β → α) (x : TableM β) :
    Post (f <$> x) Q w ↔ Post x (fun b w' => Q (f b) w') w := Iff.rfl

@[simp] theorem post_recordType (ty : Ty) (owner : GenericOwner) (span : Span)
    {Q : Unit → TableWork → Prop} :
    Post (SymbolTable.recordType ty owner span) Q w ↔
      Q () { w with uses := w.uses.recordType w.table.env owner span ty } := Iff.rfl

theorem post_ite {p : Prop} [Decidable p] {x y : TableM α} (hx : p → Post x Q w)
    (hy : ¬ p → Post y Q w) : Post (if p then x else y) Q w := by
  split
  · exact hx ‹_›
  · exact hy ‹_›

theorem Post.mono {x : TableM α} {Q' : α → TableWork → Prop} (h : Post x Q w)
    (hQ : ∀ a w', Q a w' → Q' a w') : Post x Q' w :=
  hQ _ _ h

/-- What a phase that keeps `R` ends with: a table reached by steps of `R`. -/
theorem Keeps.post {R : SymbolTable → SymbolTable → Prop} {x : TableM α} (hx : Keeps R x)
    (w : TableWork) : Post x (fun _ w' => Relation.ReflTransGen R w.table w'.table) w :=
  hx w

/-- The invariant after one round: of the elements still to come if the loop goes on, of none
if it stops. -/
def StepPost (P : List γ → β → TableWork → Prop) (rest : List γ) :
    ForInStep β → TableWork → Prop
  | .yield b, w => P rest b w
  | .done b, w => P [] b w

@[simp] theorem stepPost_yield (P : List γ → β → TableWork → Prop) (rest : List γ) (b : β) :
    StepPost P rest (.yield b) w ↔ P rest b w := Iff.rfl

@[simp] theorem stepPost_done (P : List γ → β → TableWork → Prop) (rest : List γ) (b : β) :
    StepPost P rest (.done b) w ↔ P [] b w := Iff.rfl

/-- The loop rule: an invariant of the elements still to come, the carried value and the state,
that holds at the start and that each round keeps, holds when the loop ends. -/
theorem post_forIn (xs : List γ) {b : β} {f : γ → β → TableM (ForInStep β)} {Q : β → TableWork → Prop}
    (P : List γ → β → TableWork → Prop) (h0 : P xs b w)
    (hstep : ∀ x rest b w, P (x :: rest) b w → Post (f x b) (StepPost P rest) w)
    (hpost : ∀ b w, P [] b w → Q b w) : Post (forIn xs b f) Q w := by
  induction xs generalizing b w with
  | nil => exact hpost b w h0
  | cons x xs ih =>
    have hx := hstep x xs b w h0
    rw [List.forIn_cons, post_bind]
    revert hx
    unfold Post
    generalize (f x b).run w = r
    rcases r with ⟨_ | _, w'⟩ <;> intro hx
    · exact hpost _ _ hx
    · exact ih hx

/-- The loop rule with an invariant that may mention the loop's starting value. -/
theorem post_forIn_from (xs : List γ) {b : β} {f : γ → β → TableM (ForInStep β)}
    {Q : β → TableWork → Prop} (P : β → List γ → β → TableWork → Prop) (h0 : P b xs b w)
    (hstep : ∀ x rest v w, P b (x :: rest) v w → Post (f x v) (StepPost (P b) rest) w)
    (hpost : ∀ v w, P b [] v w → Q v w) : Post (forIn xs b f) Q w :=
  post_forIn xs (P b) h0 hstep hpost

/-- What holds of every state reached from the start by steps of `R` holds after a phase that
keeps `R`. -/
theorem Keeps.post_of_steps (R : SymbolTable → SymbolTable → Prop) {x : TableM α}
    (hx : Keeps R x) (hQ : ∀ a w', Relation.ReflTransGen R w.table w'.table → Q a w') :
    Post x Q w :=
  hQ _ _ (hx w)

/-- A phase that never changes the table leaves it as it was. -/
theorem Keeps.table_eq {x : TableM α} (hx : Keeps (fun _ _ => False) x) (w : TableWork) :
    (x.run w).2.table = w.table := by
  have hsteps := hx w
  generalize (x.run w).2.table = t' at hsteps
  induction hsteps with
  | refl => rfl
  | tail _ hstep => exact hstep.elim

/-- What holds of every state with the table a phase started from holds after a phase that
never changes the table. -/
theorem Keeps.post_of_table_eq {x : TableM α} (hx : Keeps (fun _ _ => False) x)
    (hQ : ∀ a w', w'.table = w.table → Q a w') : Post x Q w :=
  hQ _ _ (hx.table_eq w)

end TableM

end AmLang
