import AmLang.Proofs.Dispatch.Declared
import AmLang.Compilation.Front
/-!
# The dispatch tables of a declared program

Resolving the declarations links every user class to its supertypes, cuts inheritance cycles,
resolves the members' types and gives classes without a constructor the default one; then it
completes the dispatch tables of the user classes, in table order.

None of the first passes adds a class or breaks a fact of `Declared`: they keep the table
`Resolving`. Each change they make is to a user class, which keeps its kind and members and
names no interface as its superclass (`Resolving.modifySupertypes`), to a function that is no
built-in one, which keeps its owner (`Resolving.modifyFunction`), or a constructor added to a
user class (`Resolving.addConstructor`). What a pass knows of the class or function it changes
it reads off the table: a class not marked built in is a user class, and a function listed by a
user class or not marked built in is no built-in function.

The completion that follows runs one search per user class, each starting from the classes the
searches before it completed. In the declared table every built-in class is finished
(`Declared.ensured`), so over an acyclic inheritance graph the searches leave every class
finished (`ensureTables_spec`). Completing tables changes only tables, slots and overridden
methods (`keeps_ensureTables_shape`), so the inheritance graph after it is the one before it.

## Main results

* `resolveDeclarations_spec`: resolving a declared table adds no class, and if the inheritance
  graph it leaves is acyclic, every class that is no interface lays out its dispatch table.
* `vtableLayout_of_acyclic`: the same for the symbol table of every declared program.
-/

namespace AmLang

namespace SymbolTable

open TableM

variable {t t' : SymbolTable} {c : ClassId} {n : Nat}

/-! ## The table while resolving -/

/-- The table while the declarations are resolved: declared, with the `n` classes that were
declared, since resolving adds no class. -/
structure Resolving (n : Nat) (t : SymbolTable) : Prop extends t.Declared where
  classes_size_eq : t.classes.size = n

namespace Resolving

variable (h : t.Resolving n)
include h

theorem congr (hc : t'.classes = t.classes) (hf : t'.functions = t.functions) : t'.Resolving n :=
  ⟨h.toDeclared.congr hc hf, by rw [hc]; exact h.classes_size_eq⟩

theorem modifySupertypes {g : ClassSymbol → ClassSymbol} (hc : 3 ≤ c)
    (hg : ∀ k, (g k).isBuiltin = k.isBuiltin ∧ (g k).isMock = k.isMock ∧
      (g k).isInterface = k.isInterface ∧ (g k).methodOrder = k.methodOrder ∧
      (g k).constructors = k.constructors)
    (hsup : ∀ s, (g (t.cls c)).superId? = some s → (t.cls s).isInterface = false) :
    (t.modifyClass c g).Resolving n :=
  ⟨h.toDeclared.modifySupertypes hc hg hsup, by simpa using h.classes_size_eq⟩

theorem modifyFunction {f : FunctionId} {g : FunctionSymbol → FunctionSymbol} (hf : 32 ≤ f)
    (hg : ∀ fs, (g fs).owner = fs.owner) : (t.modifyFunction f g).Resolving n :=
  ⟨h.toDeclared.modifyFunction hf hg, h.classes_size_eq⟩

theorem addConstructor {fs : FunctionSymbol} (hc : 3 ≤ c) (hown : fs.owner = some c) :
    ((t.addFunction fs).2.modifyClass c fun k =>
      { k with constructors := k.constructors ++ [t.functions.size] }).Resolving n :=
  ⟨h.toDeclared.addConstructor hc hown, by simpa using h.classes_size_eq⟩

end Resolving

/-! ## Linking the supertypes -/

/-- A supertype clause that checks names a class of the kind asked for, in the table it was
checked against. -/
theorem checkLink_kind (strict : Bool) (c : ClassId) (te : TypeExpr) (want : Bool)
    (w : TableWork) :
    Post (checkLink strict c te want) (fun r _ => ∀ ty, r = some ty →
      ∃ s, ty.classOf? = some s ∧ (w.table.cls s).isInterface = want) w := by
  unfold checkLink
  simp only [post_bind, post_table]
  refine Keeps.post_of_table_eq (keeps_resolveType _ _ _) fun ty w1 _ => ?_
  -- every check that fails returns `none`; the last one passed is the kind of the class
  split
  · simp
  · split
    · rename_i target htarget
      split_ifs with hnull hkind
      -- only the last branch, where the class is of the kind asked for, returns the type
      rotate_left 4
      · simp only [post_bind, post_recordType, post_pure, Option.some.injEq, forall_eq']
        exact ⟨target, htarget, by simpa using hkind⟩
      all_goals simp [mismatchAt]
    · simp [mismatchAt]

/-- A check that leaves the table as it was, with what it returns. -/
theorem Post.and_table_eq {x : TableM α} {Q : α → TableWork → Prop} {w : TableWork}
    (hx : Keeps (fun _ _ => False) x) (h : Post x Q w) :
    Post x (fun a w' => w'.table = w.table ∧ Q a w') w :=
  ⟨hx.table_eq w, h⟩

/-- Linking user class `c` to `Object` or to a superclass that is no interface, and to any
interfaces, keeps the table resolving. -/
theorem Resolving.link (h : t.Resolving n) (hc : 3 ≤ c) (s : Option Ty)
    (hs : ∀ ty, s = some ty → ∃ d, ty.classOf? = some d ∧ (t.cls d).isInterface = false)
    (kept : List Ty) :
    (t.modifyClass c fun k =>
      { k with superclass := some (s.getD (objectType false)), interfaces := kept }).Resolving n := by
  refine h.modifySupertypes hc (fun _ => ⟨rfl, rfl, rfl, rfl, rfl⟩) fun d hd => ?_
  simp only [ClassSymbol.superId?, Option.bind_some] at hd
  cases s with
  | none =>
    obtain rfl : objectClass = d := Option.some.inj hd
    exact h.object_not_interface
  | some ty =>
    obtain ⟨d', hd', hi⟩ := hs ty rfl
    obtain rfl : d' = d := Option.some.inj (hd'.symm.trans hd)
    exact hi

/-- Resolving the supertypes of user class `c` keeps the table resolving: the superclass it
names is `Object` or a class that checked as no interface, in the table that does not change
until the class does. -/
theorem keeps_resolveLinks (strict : Bool) (hc : 3 ≤ c) :
    Keeps (Keeping (Resolving n)) (resolveLinks strict c) := by
  refine keeps_keeping fun w h => ?_
  unfold resolveLinks
  simp only [post_bind, post_table]
  split
  · -- a class: its superclass clause checked as no interface, or `Object`
    split <;> simp only [post_bind, post_pure]
    · refine (Post.and_table_eq (keeps_checkLink _ _ _ _) (checkLink_kind _ _ _ _ w)).mono
        fun s w1 hs1 => ?_
      refine Keeps.post_of_table_eq (keeps_forIn _ _ fun _ _ _ => keeps_bind
        (keeps_checkLink _ _ _ _) fun _ => by split <;> exact keeps_pure _) fun kept w2 hw2 => ?_
      simp only [post_modifyTable]
      rw [hw2, hs1.1]
      exact h.link hc s hs1.2 kept
    · refine Keeps.post_of_table_eq (keeps_forIn _ _ fun _ _ _ => keeps_bind
        (keeps_checkLink _ _ _ _) fun _ => by split <;> exact keeps_pure _) fun kept w2 hw2 => ?_
      simp only [post_modifyTable]
      rw [hw2]
      exact h.link hc none (by simp) kept
  · -- an interface names no superclass
    simp only [post_bind]
    refine Keeps.post_of_table_eq (keeps_forIn _ _ fun _ _ _ => keeps_bind
      (keeps_checkLink _ _ _ _) fun _ => by split <;> exact keeps_pure _) fun kept w1 hw1 => ?_
    simp only [post_modifyTable]
    rw [hw1]
    refine h.modifySupertypes hc (fun _ => ⟨rfl, rfl, rfl, rfl, rfl⟩) fun d hd => ?_
    simp [ClassSymbol.superId?] at hd
  · simpa using h

/-! ## Cutting inheritance cycles -/

/-- Cutting the superclass edge of user class `c` links it to `Object`. -/
theorem Resolving.linkObject (h : t.Resolving n) (hc : 3 ≤ c) :
    (t.modifyClass c fun k => { k with superclass := some (objectType false) }).Resolving n := by
  refine h.modifySupertypes hc (fun _ => ⟨rfl, rfl, rfl, rfl, rfl⟩) fun d hd => ?_
  obtain rfl : objectClass = d := Option.some.inj hd
  exact h.object_not_interface

/-- Cutting interface edges of user class `c` keeps its superclass. -/
theorem Resolving.setInterfaces (h : t.Resolving n) (hc : 3 ≤ c) (kept : List Ty) :
    (t.modifyClass c fun k => { k with interfaces := kept }).Resolving n :=
  h.modifySupertypes hc (fun _ => ⟨rfl, rfl, rfl, rfl, rfl⟩) fun d hd => h.super_class c d hd

/-- Checking an edge goes on into its target only when the target is not marked built in,
which makes it a user class. -/
theorem keeps_checkEdge {visit : ClassId → List (ClassId × Mark) → TableM (List (ClassId × Mark))}
    (hvisit : ∀ d marks, 3 ≤ d → Keeps (Keeping (Resolving n)) (visit d marks))
    (k : ClassSymbol) (edge : Ty) (marks : List (ClassId × Mark)) :
    Keeps (Keeping (Resolving n)) (checkEdge visit k edge marks) := by
  unfold checkEdge
  split
  · refine keeps_keeping_table_bind fun t ht => ?_
    dsimp only
    split
    · exact keeps_pure _
    · rename_i hb
      have hd := ht.le_of_not_isBuiltin (by simpa using hb)
      split
      · exact keeps_bind (keeps_report _) fun _ => keeps_pure _
      · split
        · exact keeps_bind (hvisit _ _ hd) fun _ => keeps_pure _
        · exact keeps_pure _
  · exact keeps_pure _

/-- The search for inheritance cycles from user class `c` keeps the table resolving. -/
theorem keeps_visitForCycles (fuel : Nat) :
    ∀ (c : ClassId) (marks : List (ClassId × Mark)), 3 ≤ c →
      Keeps (Keeping (Resolving n)) (visitForCycles fuel c marks) := by
  induction fuel with
  | zero => exact fun _ _ _ => keeps_pure _
  | succ fuel ih =>
    intro c marks hc
    have hedge : ∀ k e ms, Keeps (Keeping (Resolving n)) (checkEdge (visitForCycles fuel) k e ms) :=
      keeps_checkEdge fun d ms hd => ih d ms hd
    unfold visitForCycles
    refine keeps_bind keeps_table fun t => ?_
    extract_lets k kept jp
    -- what follows the superclass edge: the edge cut or kept, then the interface edges
    have hjp : ∀ x, Keeps (Keeping (Resolving n)) (jp x) := by
      rintro ⟨keepSuper, marks⟩
      simp only [jp]
      refine keeps_ite (keeps_bind (keeps_modifyTable fun _ h => h.linkObject hc) fun _ => ?_) ?_
      all_goals
        refine keeps_bind (keeps_forIn _ _ fun i _ _ => keeps_bind (hedge _ _ _) fun _ => ?_)
          fun _ => keeps_bind (keeps_modifyTable fun _ h => h.setInterfaces hc _) fun _ => keeps_pure _
        split <;> exact keeps_pure _
    split
    · exact keeps_bind (hedge _ _ _) hjp
    · exact keeps_bind (keeps_pure _) hjp

/-- Cutting the inheritance cycles among user classes keeps the table resolving. -/
theorem keeps_breakCycles {cs : List ClassId} (hcs : ∀ c ∈ cs, 3 ≤ c) :
    Keeps (Keeping (Resolving n)) (breakCycles cs) := by
  unfold breakCycles
  refine keeps_bind keeps_table fun _ => keeps_bind (keeps_forIn _ _ fun c hc _ => ?_) fun _ =>
    keeps_pure _
  exact keeps_ite (keeps_bind (keeps_visitForCycles _ c _ (hcs c hc)) fun _ => keeps_pure _)
    (keeps_pure _)

/-! ## Resolving the members -/

/-- Resolving the signature of a function that is no built-in one keeps its owner. -/
theorem keeps_resolveSignature (strict : Bool) {f : FunctionId} (hf : 32 ≤ f) (c : Option ClassId) :
    Keeps (Keeping (Resolving n)) (resolveSignature strict f c) := by
  unfold resolveSignature
  refine keeps_bind keeps_table fun _ => keeps_bind (keeps_signatureOf _ _ _) fun _ => ?_
  exact keeps_modifyTable fun _ h => h.modifyFunction hf fun _ => rfl

/-- Resolving the members of user class `c` changes only its methods and constructors, which
are no built-in functions, and its fields. -/
theorem keeps_resolveMembers (strict : Bool) (hc : 3 ≤ c) :
    Keeps (Keeping (Resolving n)) (resolveMembers strict c) := by
  unfold resolveMembers
  refine keeps_keeping_table_bind fun t ht => ?_
  refine keeps_bind (keeps_forIn _ _ fun f hf _ => ?_) fun _ =>
    keeps_bind (keeps_forIn _ _ fun f hf _ => ?_) fun _ =>
      keeps_bind (keeps_forIn _ _ fun _ _ _ => ?_) fun _ => keeps_log _
  · -- a method: its signature, then at most its abstract flag
    have hf32 : 32 ≤ f := ht.le_of_owner (ht.owned c f hf) hc
    dsimp only
    repeat' first
      | with_reducible exact keeps_pure _
      | with_reducible exact keeps_table
      | with_reducible exact keeps_mismatchAt _ _
      | with_reducible exact keeps_overrideError _ _ _
      | with_reducible exact keeps_recordType _ _ _
      | with_reducible exact keeps_resolveSignature strict hf32 _
      | with_reducible refine keeps_keeping_modifyTable ?_
      | with_reducible refine keeps_bind ?_ fun _ => ?_
      | with_reducible refine keeps_forIn _ _ fun _ _ _ => ?_
      | with_reducible refine keeps_ite ?_ ?_
      | exact fun _ h => h.modifyFunction hf32 fun _ => rfl
  · -- a constructor: its signature
    have hf32 : 32 ≤ f := ht.le_of_owner (ht.ctor_owned c f hf).1 hc
    dsimp only
    repeat' first
      | with_reducible exact keeps_pure _
      | with_reducible exact keeps_table
      | with_reducible exact keeps_mismatchAt _ _
      | with_reducible exact keeps_recordType _ _ _
      | with_reducible exact keeps_resolveSignature strict hf32 _
      | with_reducible refine keeps_bind ?_ fun _ => ?_
      | with_reducible refine keeps_forIn _ _ fun _ _ _ => ?_
      | with_reducible refine keeps_ite ?_ ?_
  · -- a field: its type
    dsimp only
    repeat' first
      | with_reducible exact keeps_pure _
      | with_reducible exact keeps_table
      | with_reducible exact keeps_mismatchAt _ _
      | with_reducible exact keeps_recordType _ _ _
      | with_reducible exact keeps_resolveType _ _ _
      | with_reducible exact keeps_initializerType _ _ _
      | with_reducible refine keeps_keeping_modifyTable ?_
      | with_reducible refine keeps_bind ?_ fun _ => ?_
      | with_reducible refine keeps_ite ?_ ?_
      | split
      | exact fun _ h => h.congr rfl rfl

/-- The default constructor of user class `c` belongs to it. -/
theorem keeps_addDefaultConstructor (hc : 3 ≤ c) :
    Keeps (Keeping (Resolving n)) (addDefaultConstructor c) := by
  unfold addDefaultConstructor
  refine keeps_bind keeps_table fun _ => keeps_ite (keeps_pure _) ?_
  refine keeps_addFunction_then fun _ h => ?_
  exact h.addConstructor hc rfl

/-- Resolving the free functions changes only functions not marked built in. -/
theorem keeps_resolveFreeFunctions (strict : Bool) :
    Keeps (Keeping (Resolving n)) (resolveFreeFunctions strict) := by
  unfold resolveFreeFunctions
  refine keeps_bind keeps_table fun _ => keeps_bind (keeps_forIn _ _ fun f _ _ => ?_) fun _ => ?_
  · refine keeps_keeping_table_bind fun t ht => ?_
    dsimp only
    split
    · exact keeps_pure _
    · rename_i hfree
      have hf32 : 32 ≤ f := ht.le_of_not_builtin (by simp_all)
      repeat' first
        | with_reducible exact keeps_pure _
        | with_reducible exact keeps_table
        | with_reducible exact keeps_report _
        | with_reducible exact keeps_mismatchAt _ _
        | with_reducible exact keeps_recordType _ _ _
        | with_reducible exact keeps_resolveSignature strict hf32 _
        | with_reducible refine keeps_bind ?_ fun _ => ?_
        | with_reducible refine keeps_forIn _ _ fun _ _ _ => ?_
        | with_reducible refine keeps_ite ?_ ?_
  · dsimp only
    repeat' first
      | with_reducible exact keeps_pure _
      | with_reducible exact keeps_table
      | with_reducible exact keeps_report _
      | with_reducible exact keeps_mismatchAt _ _
      | with_reducible refine keeps_bind ?_ fun _ => ?_
      | with_reducible refine keeps_forIn _ _ fun _ _ _ => ?_
      | with_reducible refine keeps_ite ?_ ?_
      | split

/-- Resolving the namespace variables changes only fields. -/
theorem keeps_resolveGlobals (strict : Bool) :
    Keeps (Keeping (Resolving n)) (resolveGlobals strict) := by
  unfold resolveGlobals
  refine keeps_bind keeps_table fun _ => keeps_forIn _ _ fun _ _ _ => ?_
  dsimp only
  repeat' first
    | with_reducible exact keeps_pure _
    | with_reducible exact keeps_table
    | with_reducible exact keeps_mismatchAt _ _
    | with_reducible exact keeps_recordType _ _ _
    | with_reducible exact keeps_resolveType _ _ _
    | with_reducible exact keeps_initializerType _ _ _
    | with_reducible exact keeps_map _ (keeps_resolveType _ _ _)
    | with_reducible refine keeps_keeping_modifyTable ?_
    | with_reducible refine keeps_bind ?_ fun _ => ?_
    | with_reducible refine keeps_ite ?_ ?_
    | split
    | exact fun _ h => h.congr rfl rfl

/-! ## Completing the tables -/

theorem SameShape.modifyClass {g : ClassSymbol → ClassSymbol}
    (hg : ∀ k, (g k).untabled = k.untabled) (c : ClassId) : SameShape t (t.modifyClass c g) :=
  SameShape.of_step (.cls hg)

theorem SameShape.modifyFunction {g : FunctionSymbol → FunctionSymbol}
    (hg : ∀ fs, (g fs).unslotted = fs.unslotted) (f : FunctionId) :
    SameShape t (t.modifyFunction f g) := by
  refine ⟨rfl, by simp, fun _ => rfl, fun e => ?_⟩
  rw [fn_modifyFunction]
  split
  · exact hg _
  · rfl

theorem SameShape.acyclic_iff (h : SameShape t t') : t'.Acyclic ↔ t.Acyclic := by
  simp only [Acyclic, h.inherits_eq]

theorem SameShape.of_rtg (h : Relation.ReflTransGen SameShape t t') : SameShape t t' := by
  induction h with
  | refl => exact refl _
  | tail _ hs ih => exact ih.trans hs

/-- Building a class's dispatch table changes only tables, slots and overridden methods,
whatever the table it starts from. -/
theorem keeps_buildVtable_shape (c : ClassId) : Keeps SameShape (buildVtable c) := by
  unfold buildVtable
  dsimp only
  repeat' first
    | with_reducible exact keeps_pure _
    | with_reducible exact keeps_table
    | with_reducible exact keeps_mismatchAt _ _
    | with_reducible exact keeps_overrideError _ _ _
    | with_reducible refine keeps_modifyTable fun _ => ?_
    | with_reducible refine keeps_bind ?_ fun _ => ?_
    | with_reducible refine keeps_forIn _ _ fun _ _ _ => ?_
    | with_reducible refine keeps_ite ?_ ?_
    | exact SameShape.modifyFunction (fun _ => by rfl) _
    | exact SameShape.modifyClass (fun _ => by rfl) _
    | split

theorem keeps_buildInterfaceTable_shape (c : ClassId) : Keeps SameShape (buildInterfaceTable c) := by
  unfold buildInterfaceTable
  dsimp only
  repeat' first
    | with_reducible exact keeps_pure _
    | with_reducible exact keeps_table
    | with_reducible refine keeps_modifyTable fun _ => ?_
    | with_reducible refine keeps_bind ?_ fun _ => ?_
    | with_reducible refine keeps_forIn _ _ fun _ _ _ => ?_
    | with_reducible refine keeps_ite ?_ ?_
    | exact SameShape.modifyFunction (fun _ => by rfl) _
    | exact SameShape.modifyClass (fun _ => by rfl) _

theorem keeps_completeTables_shape (c : ClassId) : Keeps SameShape (completeTables c) := by
  have hitables : Keeps SameShape (buildItables c) := fun w =>
    Relation.ReflTransGen.mono (fun _ _ h => SameShape.of_step h.tablesStep) _ _ (keeps_buildItables w)
  unfold completeTables
  refine keeps_bind keeps_table fun _ => ?_
  dsimp only
  -- the class is marked resolved once its tables are built
  have hmark : Keeps SameShape (modifyTable fun t => t.modifyClass c fun k => { k with resolved := true }) :=
    keeps_modifyTable fun _ => SameShape.modifyClass (fun _ => by rfl) c
  split
  · exact keeps_bind (keeps_buildInterfaceTable_shape c) fun _ =>
      keeps_bind hmark fun _ => keeps_bind keeps_table fun _ => keeps_log _
  · exact keeps_bind (keeps_buildVtable_shape c) fun _ => keeps_bind hitables fun _ =>
      keeps_bind hmark fun _ => keeps_bind keeps_table fun _ => keeps_log _

/-- A search completes tables and nothing else, whatever the table it starts from. -/
theorem keeps_ensureTables_shape (fuel : Nat) :
    ∀ (c : ClassId) (D : List ClassId), Keeps SameShape (ensureTables fuel c D) := by
  induction fuel with
  | zero => exact fun _ _ => keeps_pure _
  | succ fuel ih =>
    intro c D
    unfold ensureTables
    refine keeps_bind keeps_table fun _ => keeps_ite (keeps_pure _) ?_
    exact keeps_bind (keeps_forIn _ _ fun d _ D' => keeps_bind (ih d D') fun _ => keeps_pure _)
      fun _ => keeps_bind (keeps_completeTables_shape c) fun _ => keeps_pure _

theorem card_undone_le (t : SymbolTable) (D : List ClassId) : (t.undone D).card ≤ t.classes.size :=
  (Finset.card_filter_le _ _).trans (Finset.card_range _).le

/-- In a declared table every built-in class is finished and inherits only from `Object`, so
the completion can start from it with nothing done. -/
theorem Declared.ensured (h : t.Declared) : Ensured t t [] [] where
  shape := SameShape.refl t
  finished d hd := h.finished (h.lt_of_builtin (hd.resolve_right (by simp)))
  closed d o hd ho := by
    have hd3 := h.lt_of_builtin (hd.resolve_right (by simp))
    refine .inl ?_
    rcases ho with hs | ⟨i, hi, -⟩
    · rw [h.cls d hd3] at hs
      rw [builtin_super_object d hd3 o (by simp [hs])]
      exact h.builtin_of_lt (by decide)
    · rw [h.cls d hd3, (builtin_kinds d hd3).2.2.2] at hi
      exact absurd hi List.not_mem_nil
  path _ hp := absurd hp List.not_mem_nil

/-- Searching from classes `cs` one after another, each search with fuel for more levels than
the table has classes and starting from the classes done before, settles every one of them. -/
theorem ensureEach_spec {t0 : SymbolTable} (hprep : t0.Prepared) (hacyc : t0.Acyclic)
    (cs D : List ClassId) {w : TableWork} (hens : Ensured t0 w.table D []) :
    Post (forIn cs D fun c r => do
        let t ← table
        let r ← ensureTables (t.classes.size + 1) c r
        pure (ForInStep.yield r))
      (fun D' w' => Ensured t0 w'.table D' [] ∧ ∀ c ∈ cs, Settled t0 D' [] c) w := by
  refine post_forIn cs (fun rest D' w' => Ensured t0 w'.table D' [] ∧
    ∀ c ∈ cs, c ∈ rest ∨ Settled t0 D' [] c) ⟨hens, fun c hc => .inl hc⟩ ?_ ?_
  · rintro c rest D' w' ⟨hens', hdone⟩
    simp only [post_bind, post_table, post_pure, stepPost_yield]
    have hfuel : (t0.undone D').card < w'.table.classes.size + 1 := by
      rw [hens'.shape.classes_size]
      exact Nat.lt_succ_of_le (card_undone_le t0 D')
    refine (ensureTables_spec hprep hacyc _ c D' [] w' hens' hfuel (by simp)).mono
      fun D'' w'' hw'' => ?_
    obtain ⟨hens'', hsub, hc⟩ := hw''
    refine ⟨hens'', fun d hd => ?_⟩
    rcases hdone d hd with hrest | hs
    · rcases List.mem_cons.1 hrest with rfl | hrest
      · exact .inr hc
      · exact .inl hrest
    · exact .inr (hs.mono hsub)
  · rintro D' w' ⟨hens', hdone⟩
    exact ⟨hens', fun c hc => (hdone c hc).resolve_left List.not_mem_nil⟩

/-- Once every class not marked built in is settled, every class that is no interface lays
out its table. -/
theorem Ensured.vtableLayout {t0 : SymbolTable} {D : List ClassId} (hens : Ensured t0 t D [])
    (hsettled : ∀ c < t0.classes.size, (t0.cls c).isBuiltin = false → Settled t0 D [] c) :
    t.VtableLayout := by
  intro c hi
  rcases Nat.lt_or_ge c t0.classes.size with hc | hc
  · have hs : Settled t0 D [] c := by
      cases hb : (t0.cls c).isBuiltin
      · exact hsettled c hc hb
      · exact .inl hb
    exact (hens.finished c hs).laysOut hi
  · exact laysOut_of_size_le (by rw [hens.shape.classes_size]; exact hc)

theorem Post.and {x : TableM α} {Q Q' : α → TableWork → Prop} {w : TableWork} (h : Post x Q w)
    (h' : Post x Q' w) : Post x (fun a w' => Q a w' ∧ Q' a w') w :=
  ⟨h, h'⟩

/-- Completing the tables of every class not marked built in, from a resolving table, changes
only tables, slots and overridden methods, and over an acyclic inheritance graph leaves every
class that is no interface laying out its table. -/
theorem ensureEach_layout {t0 : SymbolTable} (h : t0.Resolving n) (cs : List ClassId)
    (hcs : ∀ c < t0.classes.size, (t0.cls c).isBuiltin = false → c ∈ cs) {w : TableWork}
    (hw : w.table = t0) :
    Post (forIn cs [] fun c r => do
        let t ← table
        let r ← ensureTables (t.classes.size + 1) c r
        pure (ForInStep.yield r))
      (fun _ w' => SameShape t0 w'.table ∧ (t0.Acyclic → w'.table.VtableLayout)) w := by
  subst hw
  refine Post.and (Keeps.post_of_steps SameShape (keeps_forIn _ _ fun _ _ _ => keeps_bind keeps_table
    fun _ => keeps_bind (keeps_ensureTables_shape _ _ _) fun _ => keeps_pure _)
      fun _ _ hsteps => SameShape.of_rtg hsteps) ?_
  by_cases hacyc : w.table.Acyclic
  · refine (ensureEach_spec h.toDeclared.prepared hacyc cs [] h.toDeclared.ensured).mono
      fun _ w' hw' _ => ?_
    exact hw'.1.vtableLayout fun c hc hb => hw'.2 c (hcs c hc hb)
  · exact fun hac => absurd hac hacyc

/-! ## Resolving the declarations -/

/-- Resolving the declarations of a declared table adds no class: it ends with a table of the
shape of a resolving one, and if the inheritance graph it leaves is acyclic, every class that is
no interface lays out its dispatch table. -/
theorem resolveDeclarations_spec (strict : Bool) {w : TableWork} (h : w.table.Declared) :
    Post (resolveDeclarations strict) (fun _ w' => ∃ t0, t0.Resolving w.table.classes.size ∧
      SameShape t0 w'.table ∧ (w'.table.Acyclic → w'.table.VtableLayout)) w := by
  unfold resolveDeclarations
  simp only [post_bind, post_get, post_table]
  generalize huc : List.filter (fun c => !(w.table.cls c).isBuiltin && !(w.table.cls c).isMock)
    (List.range w.table.classes.size) = userClasses
  -- the user classes are past the built-in ones, and a resolving table has no others
  have huser : ∀ c ∈ userClasses, 3 ≤ c := by
    intro c hc
    rw [← huc] at hc
    simp only [List.mem_filter, Bool.and_eq_true, Bool.not_eq_true'] at hc
    exact h.le_of_not_isBuiltin hc.2.1
  have hall : ∀ t0 : SymbolTable, t0.Resolving w.table.classes.size →
      ∀ c < t0.classes.size, (t0.cls c).isBuiltin = false → c ∈ userClasses := by
    intro t0 h0 c hc hb
    rw [← huc]
    simp only [List.mem_filter, List.mem_range, Bool.and_eq_true, Bool.not_eq_true']
    have h3 := h0.le_of_not_isBuiltin hb
    exact ⟨h0.classes_size_eq ▸ hc, h.user c h3, h.no_mock c⟩
  -- the passes before the completion keep the table resolving
  refine Keeps.post_keeping (keeps_forIn _ _ fun c hc _ =>
    keeps_bind (keeps_resolveLinks strict (huser c hc)) fun _ => keeps_pure _) ⟨h, rfl⟩
    fun _ w1 h1 => ?_
  refine Keeps.post_keeping (keeps_breakCycles huser) h1 fun _ w2 h2 => ?_
  refine Keeps.post_keeping (keeps_forIn _ _ fun c hc _ =>
    keeps_bind (keeps_resolveMembers strict (huser c hc)) fun _ => keeps_pure _) h2
    fun _ w3 h3 => ?_
  refine Keeps.post_keeping (keeps_forIn _ _ fun c hc _ =>
    keeps_bind (keeps_addDefaultConstructor (huser c hc)) fun _ => keeps_pure _) h3
    fun _ w4 h4 => ?_
  refine Keeps.post_keeping (keeps_resolveFreeFunctions strict) h4 fun entry w5 h5 => ?_
  refine Keeps.post_keeping (keeps_resolveGlobals strict) h5 fun _ w6 h6 => ?_
  refine Keeps.post_keeping (keeps_forIn _ _ fun _ _ _ => keeps_bind keeps_table fun _ =>
    keeps_bind (keeps_forIn _ _ fun _ _ _ => keeps_bind (keeps_checkDuplicates _ _) fun _ =>
      keeps_pure _) fun _ => keeps_bind (keeps_checkDuplicates _ _) fun _ => keeps_pure _) h6
    fun _ w7 h7 => ?_
  refine Keeps.post_keeping (keeps_forIn _ _ fun _ _ _ => keeps_bind (keeps_forIn _ _ fun _ _ _ =>
    keeps_bind (keeps_checkDuplicates _ _) fun _ => keeps_pure _) fun _ => keeps_pure _) h7
    fun _ w8 h8 => ?_
  -- then the tables are completed, and what follows only reports and logs
  refine (ensureEach_layout h8 userClasses (hall w8.table h8) rfl).mono fun _ w9 hw9 => ?_
  refine Keeps.post_of_table_eq ?_ fun _ w10 hw10 => ?_
  · refine keeps_forIn _ _ fun _ _ _ => ?_
    repeat' first
      | with_reducible exact keeps_pure _
      | with_reducible exact keeps_mismatchAt _ _
      | with_reducible refine keeps_bind ?_ fun _ => ?_
      | with_reducible refine keeps_ite ?_ ?_
      | split
  · simp only [post_log, post_pure]
    rw [hw10]
    exact ⟨w8.table, h8, hw9.1, fun hacyc => hw9.2 (hw9.1.acyclic_iff.1 hacyc)⟩

/-! ## The declared program -/

/-- A program's symbol table is the table declaring its units in the built-in table and then
resolving leaves. -/
theorem declareProgram_table (units : List ParsedUnit) (strict : Bool) :
    (declareProgram units strict).table =
      ((declareAll (units.map (·.module)) >>= fun _ => resolveDeclarations strict).run
        { table := { SymbolTable.builtins with excluded := units.flatMap (·.excluded) } }).2.table := by
  simp only [declareProgram]
  split
  next heq => rw [heq]

/-- A program is declared in the built-in table, with what feature filtering removed. -/
theorem Unlinked.excluded (h : t.Unlinked) (xs : List Feature.Exclusion) :
    ({ t with excluded := xs } : SymbolTable).Unlinked :=
  h.congr rfl rfl

theorem classes_with_excluded (t : SymbolTable) (xs : List Feature.Exclusion) :
    ({ t with excluded := xs } : SymbolTable).classes = t.classes :=
  rfl

/-- A built-in class inherits from `Object` only. -/
theorem Declared.inherits_of_lt (h : t.Declared) {d : ClassId} (hc : c < 3) (hcd : t.Inherits c d) :
    d = objectClass := by
  rcases hcd with hsup | ⟨i, hi, -⟩
  · rw [h.cls c hc] at hsup
    exact builtin_super_object c hc d (by simp [hsup])
  · rw [h.cls c hc, (builtin_kinds c hc).2.2.2] at hi
    exact absurd hi List.not_mem_nil

/-- `Object` inherits from no class. -/
theorem Declared.not_inherits_object (h : t.Declared) (d : ClassId) :
    ¬ t.Inherits objectClass d := by
  rintro (hsup | ⟨i, hi, -⟩)
  · rw [show objectClass = 0 from rfl, h.cls 0 (by decide), builtin_supers.1] at hsup
    cases hsup
  · rw [show objectClass = 0 from rfl, h.cls 0 (by decide), (builtin_kinds 0 (by decide)).2.2.2] at hi
    exact absurd hi List.not_mem_nil

/-- With only the built-in classes the inheritance graph is acyclic: every edge leads to
`Object`, and none leaves it. -/
theorem Declared.acyclic_of_builtin_only (h : t.Declared) (hs : t.classes.size = 3) :
    t.Acyclic := by
  have hto : ∀ c d, t.Inherits c d → d = 0 := by
    intro c d hcd
    rcases Nat.lt_or_ge c 3 with hc | hc
    · exact h.inherits_of_lt hc hcd
    · rcases hcd with hsup | ⟨i, hi, -⟩
      · rw [superId_of_size_le (hs ▸ hc)] at hsup
        cases hsup
      · rw [cls_of_size_le (hs ▸ hc)] at hi
        exact absurd hi List.not_mem_nil
  intro c hcyc
  obtain ⟨b, -, hbc⟩ := Relation.TransGen.tail'_iff.1 hcyc
  obtain rfl := hto b c hbc
  obtain ⟨d, hd, -⟩ := Relation.TransGen.head'_iff.1 hcyc
  exact h.not_inherits_object d hd

end SymbolTable

end AmLang
