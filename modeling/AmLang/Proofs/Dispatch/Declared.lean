import AmLang.Proofs.Dispatch.Builtins
/-!
# What declaring and resolving keep

From the built-in table on, through declaring every unit and resolving the declarations, up to
completing the dispatch tables, the symbol table keeps the facts of `Declared`: the built-in
classes and functions are as the built-in table has them, every other class is a user class
(neither built in nor a mock), each method and constructor belongs to the class that lists it,
no class lists a method twice, every listed member is a function of the table, and no class
extends an interface. While the units are declared, before any supertype is resolved, every
superclass is moreover `Object` (`Unlinked`), which is what lets a class be added without
turning an existing superclass into an interface.

Each way these phases change the table keeps the facts, given what the code knows at that
point: a class changed is a user class, a function changed is no built-in one, a function filed
among a class's members belongs to it, and a resolved superclass is no interface
(`Declared.modifyClass`, `Declared.modifyFunction`, `Declared.addFunction`,
`Unlinked.addClass`). A phase keeps them when each of its changes does (`Keeping`).
-/

namespace AmLang

namespace SymbolTable

open TableM

variable {t t' : SymbolTable} {c d : ClassId}

/-- The facts about the symbol table that hold from the built-in table on, through declaring
and resolving, up to completing the dispatch tables. -/
structure Declared (t : SymbolTable) : Prop extends t.AgreesWithBuiltins where
  classes_size : 3 ≤ t.classes.size
  functions_size : 32 ≤ t.functions.size
  user : ∀ c, 3 ≤ c → (t.cls c).isBuiltin = false
  no_mock : ∀ c, (t.cls c).isMock = false
  owned : t.Owned
  ctor_owned : ∀ d, ∀ f ∈ (t.cls d).constructors, (t.fn f).owner = some d ∧ f < t.functions.size
  nodup : ∀ d, (t.cls d).methodOrder.Nodup
  valid : ∀ d, ∀ f ∈ (t.cls d).methodOrder, f < t.functions.size
  super_class : ∀ d s, (t.cls d).superId? = some s → (t.cls s).isInterface = false

namespace Declared

variable (h : t.Declared)
include h

theorem prepared : t.Prepared := ⟨h.owned, h.nodup, h.valid, h.super_class⟩

theorem builtin_of_lt (hc : c < 3) : (t.cls c).isBuiltin = true := by
  rw [h.cls c hc]
  exact (builtin_kinds c hc).1

/-- The built-in classes are the first three. -/
theorem lt_of_builtin (hb : (t.cls c).isBuiltin = true) : c < 3 := by
  rcases Nat.lt_or_ge c 3 with hc | hc
  · exact hc
  · rw [h.user c hc] at hb
    exact absurd hb (by decide)

/-- A function that belongs to a user class is no built-in function. -/
theorem le_of_owner {f : FunctionId} (hown : (t.fn f).owner = some c) (hc : 3 ≤ c) : 32 ≤ f := by
  rcases Nat.lt_or_ge f 32 with hf | hf
  · have howner := (builtin_functions f hf).2
    rw [← h.fn f hf, hown] at howner
    exact absurd howner (by simpa using hc)
  · exact hf

/-- A function not marked built in is no built-in function. -/
theorem le_of_not_builtin {f : FunctionId} (hb : (t.fn f).isBuiltin = false) : 32 ≤ f := by
  rcases Nat.lt_or_ge f 32 with hf | hf
  · have hbuiltin := (builtin_functions f hf).1
    rw [← h.fn f hf, hb] at hbuiltin
    exact absurd hbuiltin (by decide)
  · exact hf

/-- A class not marked built in is a user class. -/
theorem le_of_not_isBuiltin (hb : (t.cls c).isBuiltin = false) : 3 ≤ c :=
  Nat.le_of_not_lt fun hc => by simp [h.builtin_of_lt hc] at hb

theorem object_not_interface : (t.cls objectClass).isInterface = false := by
  rw [h.cls objectClass (by decide)]
  exact (builtin_kinds 0 (by decide)).2.2.1

/-- The facts read only the classes and the functions. -/
theorem congr (hc : t'.classes = t.classes) (hf : t'.functions = t.functions) : t'.Declared := by
  have hcls : t'.cls = t.cls := by
    funext d
    simp only [cls, hc]
  have hfn : t'.fn = t.fn := by
    funext f
    simp only [fn, hf]
  obtain ⟨⟨hac, haf⟩, hcs, hfs, huser, hmock, hown, hctor, hnodup, hvalid, hsuper⟩ := h
  refine ⟨⟨?_, ?_⟩, ?_, ?_, ?_, ?_, ?_, ?_, ?_, ?_, ?_⟩ <;> simp only [Owned, hcls, hfn, hc, hf] <;>
    assumption

/-- A change to user class `c` that keeps what kind of class it is, lists only functions of the
table that belong to it, each method once, and names no interface as its superclass. -/
theorem modifyClass {g : ClassSymbol → ClassSymbol} (hc : 3 ≤ c)
    (hkind : ∀ k, (g k).isBuiltin = k.isBuiltin ∧ (g k).isMock = k.isMock ∧
      (g k).isInterface = k.isInterface)
    (hmeth : (g (t.cls c)).methodOrder.Nodup ∧ ∀ f ∈ (g (t.cls c)).methodOrder,
      (t.fn f).owner = some c ∧ f < t.functions.size)
    (hctor : ∀ f ∈ (g (t.cls c)).constructors, (t.fn f).owner = some c ∧ f < t.functions.size)
    (hsup : ∀ s, (g (t.cls c)).superId? = some s → (t.cls s).isInterface = false) :
    (t.modifyClass c g).Declared := by
  -- every class is the old one, or `c` changed by `g`
  have hcases : ∀ d, (t.modifyClass c g).cls d = t.cls d ∨
      d = c ∧ (t.modifyClass c g).cls d = g (t.cls c) := by
    intro d
    rw [cls_modifyClass]
    split
    · rename_i hd
      exact .inr ⟨hd.1.symm, by rw [hd.1]⟩
    · exact .inl rfl
  have hkind' : ∀ d, ((t.modifyClass c g).cls d).isBuiltin = (t.cls d).isBuiltin ∧
      ((t.modifyClass c g).cls d).isMock = (t.cls d).isMock ∧
      ((t.modifyClass c g).cls d).isInterface = (t.cls d).isInterface := by
    intro d
    rcases hcases d with hd | ⟨rfl, hd⟩ <;> rw [hd]
    · exact ⟨rfl, rfl, rfl⟩
    · exact hkind _
  refine ⟨⟨fun d hd => ?_, fun f hf => h.fn f hf⟩, by simpa using h.classes_size,
    h.functions_size, fun d hd => ?_, fun d => ?_, fun d f hf => ?_, fun d f hf => ?_,
    fun d => ?_, fun d f hf => ?_, fun d s hs => ?_⟩
  · rw [cls_modifyClass_of_ne (Nat.lt_of_lt_of_le hd hc).ne']
    exact h.cls d hd
  · rw [(hkind' d).1]
    exact h.user d hd
  · rw [(hkind' d).2.1]
    exact h.no_mock d
  · rcases hcases d with hcd | ⟨rfl, hcd⟩ <;> rw [hcd] at hf
    · exact h.owned d f hf
    · exact (hmeth.2 f hf).1
  · rcases hcases d with hcd | ⟨rfl, hcd⟩ <;> rw [hcd] at hf
    · exact h.ctor_owned d f hf
    · exact hctor f hf
  · rcases hcases d with hcd | ⟨rfl, hcd⟩ <;> rw [hcd]
    · exact h.nodup d
    · exact hmeth.1
  · rcases hcases d with hcd | ⟨rfl, hcd⟩ <;> rw [hcd] at hf
    · exact h.valid d f hf
    · exact (hmeth.2 f hf).2
  · rw [(hkind' s).2.2]
    rcases hcases d with hcd | ⟨rfl, hcd⟩ <;> rw [hcd] at hs
    · exact h.super_class d s hs
    · exact hsup s hs

/-- A change to user class `c` that keeps its kind and members: at most its supertypes change,
and the superclass it names, if any, is no interface. -/
theorem modifySupertypes {g : ClassSymbol → ClassSymbol} (hc : 3 ≤ c)
    (hg : ∀ k, (g k).isBuiltin = k.isBuiltin ∧ (g k).isMock = k.isMock ∧
      (g k).isInterface = k.isInterface ∧ (g k).methodOrder = k.methodOrder ∧
      (g k).constructors = k.constructors)
    (hsup : ∀ s, (g (t.cls c)).superId? = some s → (t.cls s).isInterface = false) :
    (t.modifyClass c g).Declared := by
  obtain ⟨-, -, -, hmo, hctor⟩ := hg (t.cls c)
  refine h.modifyClass hc (fun k => ⟨(hg k).1, (hg k).2.1, (hg k).2.2.1⟩) ?_ ?_ hsup
  · rw [hmo]
    exact ⟨h.nodup c, fun f hf => ⟨h.owned c f hf, h.valid c f hf⟩⟩
  · rw [hctor]
    exact h.ctor_owned c

/-- A change to user class `c` that keeps its kind, members and superclass. -/
theorem modifyClass_of_members {g : ClassSymbol → ClassSymbol} (hc : 3 ≤ c)
    (hg : ∀ k, (g k).isBuiltin = k.isBuiltin ∧ (g k).isMock = k.isMock ∧
      (g k).isInterface = k.isInterface ∧ (g k).methodOrder = k.methodOrder ∧
      (g k).constructors = k.constructors ∧ (g k).superclass = k.superclass) :
    (t.modifyClass c g).Declared := by
  refine h.modifySupertypes hc (fun k => ⟨(hg k).1, (hg k).2.1, (hg k).2.2.1, (hg k).2.2.2.1,
    (hg k).2.2.2.2.1⟩) fun s hs => ?_
  rw [ClassSymbol.superId?, (hg _).2.2.2.2.2] at hs
  exact h.super_class c s hs

/-- Adding a function keeps every fact: the functions already there keep their ids. -/
theorem addFunction (fs : FunctionSymbol) : (t.addFunction fs).2.Declared := by
  have hfn : ∀ f, f < t.functions.size → (t.addFunction fs).2.fn f = t.fn f := fun f hf => by
    rw [fn_addFunction, if_neg (Nat.ne_of_lt hf)]
  have hcls : ∀ d, (t.addFunction fs).2.cls d = t.cls d := fun _ => rfl
  refine ⟨⟨fun d hd => h.cls d hd, fun f hf => ?_⟩, h.classes_size, ?_, fun d hd => h.user d hd,
    fun d => h.no_mock d, fun d f hf => ?_, fun d f hf => ?_, fun d => h.nodup d,
    fun d f hf => ?_, fun d s hs => h.super_class d s hs⟩
  · rw [hfn f (Nat.lt_of_lt_of_le hf h.functions_size)]
    exact h.fn f hf
  · have := h.functions_size
    simp only [functions_size_addFunction]
    omega
  · rw [hcls] at hf
    rw [hfn f (h.valid d f hf)]
    exact h.owned d f hf
  · rw [hcls] at hf
    obtain ⟨hown, hlt⟩ := h.ctor_owned d f hf
    rw [hfn f hlt, functions_size_addFunction]
    exact ⟨hown, Nat.lt_succ_of_lt hlt⟩
  · rw [hcls] at hf
    rw [functions_size_addFunction]
    exact Nat.lt_succ_of_lt (h.valid d f hf)

/-- A new function filed among the methods of user class `c`, which it belongs to. -/
theorem addMethod {fs : FunctionSymbol} (hc : 3 ≤ c) (hown : fs.owner = some c) (name : String) :
    ((t.addFunction fs).2.modifyClass c (·.addMethod name t.functions.size)).Declared := by
  have h1 := h.addFunction fs
  have hnew : (t.addFunction fs).2.fn t.functions.size = fs := by rw [fn_addFunction, if_pos rfl]
  have hold : ∀ f ∈ (t.cls c).methodOrder, f < t.functions.size := h.valid c
  refine h1.modifyClass hc (fun _ => ⟨rfl, rfl, rfl⟩) ⟨?_, fun f hf => ?_⟩ (h1.ctor_owned c)
    (h1.super_class c)
  · show ((t.cls c).methodOrder ++ [t.functions.size]).Nodup
    refine List.nodup_append.2 ⟨h.nodup c, List.nodup_singleton _, ?_⟩
    intro a ha b hb
    rw [List.mem_singleton] at hb
    exact hb ▸ Nat.ne_of_lt (hold a ha)
  · change f ∈ (t.cls c).methodOrder ++ [t.functions.size] at hf
    rcases List.mem_append.1 hf with hf | hf
    · exact ⟨h1.owned c f hf, h1.valid c f hf⟩
    · rw [List.mem_singleton] at hf
      subst hf
      rw [hnew, functions_size_addFunction]
      exact ⟨hown, Nat.lt_succ_self _⟩

/-- A new function filed among the constructors of user class `c`, which it belongs to. -/
theorem addConstructor {fs : FunctionSymbol} (hc : 3 ≤ c) (hown : fs.owner = some c) :
    ((t.addFunction fs).2.modifyClass c fun k =>
      { k with constructors := k.constructors ++ [t.functions.size] }).Declared := by
  have h1 := h.addFunction fs
  have hnew : (t.addFunction fs).2.fn t.functions.size = fs := by rw [fn_addFunction, if_pos rfl]
  refine h1.modifyClass hc (fun _ => ⟨rfl, rfl, rfl⟩)
    ⟨h1.nodup c, fun f hf => ⟨h1.owned c f hf, h1.valid c f hf⟩⟩ (fun f hf => ?_)
    (h1.super_class c)
  change f ∈ ((t.addFunction fs).2.cls c).constructors ++ [t.functions.size] at hf
  rcases List.mem_append.1 hf with hf | hf
  · exact h1.ctor_owned c f hf
  · rw [List.mem_singleton] at hf
    subst hf
    rw [hnew, functions_size_addFunction]
    exact ⟨hown, Nat.lt_succ_self _⟩

/-- A change to a function that is no built-in one and keeps its owner. -/
theorem modifyFunction {f : FunctionId} {g : FunctionSymbol → FunctionSymbol} (hf : 32 ≤ f)
    (hg : ∀ fs, (g fs).owner = fs.owner) : (t.modifyFunction f g).Declared := by
  have howner : ∀ e, ((t.modifyFunction f g).fn e).owner = (t.fn e).owner := by
    intro e
    rw [fn_modifyFunction]
    split
    · exact hg _
    · rfl
  have hcls : ∀ d, (t.modifyFunction f g).cls d = t.cls d := fun _ => rfl
  refine ⟨⟨fun d hd => h.cls d hd, fun e he => ?_⟩, h.classes_size, ?_, fun d hd => h.user d hd,
    fun d => h.no_mock d, fun d e he => ?_, fun d e he => ?_, fun d => h.nodup d,
    fun d e he => ?_, fun d s hs => h.super_class d s hs⟩
  · rw [fn_modifyFunction_of_ne (Nat.lt_of_lt_of_le he hf).ne']
    exact h.fn e he
  · simpa using h.functions_size
  · rw [howner]
    exact h.owned d e he
  · rw [howner, functions_size_modifyFunction]
    exact h.ctor_owned d e he
  · rw [functions_size_modifyFunction]
    exact h.valid d e he

end Declared

/-- The table while the units are declared: declared, with every superclass `Object`. -/
structure Unlinked (t : SymbolTable) : Prop extends t.Declared where
  super_object : ∀ d s, (t.cls d).superId? = some s → s = objectClass

theorem superId_modifyClass (g : ClassSymbol → ClassSymbol)
    (hg : ∀ k, (g k).superclass = k.superclass) (c d : ClassId) :
    ((t.modifyClass c g).cls d).superId? = (t.cls d).superId? := by
  rw [cls_modifyClass]
  split
  · simp only [ClassSymbol.superId?, hg]
  · rfl

/-- Nothing past the built-in classes is in the built-in table. -/
theorem builtins_cls_of_le (hd : 3 ≤ d) : builtins.cls d = default :=
  cls_of_size_le (by rw [builtins_classes_size]; exact hd)

/-- The built-in table is the first table declared. -/
theorem builtins_unlinked : builtins.Unlinked := by
  have hsup : ∀ d s, (builtins.cls d).superId? = some s → s = objectClass := by
    intro d s hs
    rcases Nat.lt_or_ge d 3 with hd | hd
    · exact builtin_super_object d hd s (by simp [hs])
    · rw [superId_of_size_le (by rw [builtins_classes_size]; exact hd)] at hs
      exact absurd hs (by simp)
  refine ⟨⟨⟨fun _ _ => rfl, fun _ _ => rfl⟩, by rw [builtins_classes_size],
    by rw [builtins_functions_size], fun d hd => ?_, fun d => ?_, fun d f hf => ?_,
    fun d f hf => ?_, fun d => ?_, fun d f hf => ?_, fun d s hs => ?_⟩, hsup⟩
  · rw [builtins_cls_of_le hd]
    rfl
  all_goals first
    | rcases Nat.lt_or_ge d 3 with hd | hd
  · exact (builtin_kinds d hd).2.1
  · rw [builtins_cls_of_le hd]
    rfl
  · exact ((builtin_members d hd).1 f hf).1
  · rw [builtins_cls_of_le hd] at hf
    exact absurd hf List.not_mem_nil
  · rw [builtins_functions_size]
    exact (builtin_members d hd).2.1 f hf
  · rw [builtins_cls_of_le hd] at hf
    exact absurd hf List.not_mem_nil
  · exact (builtin_members d hd).2.2
  · rw [builtins_cls_of_le hd]
    exact List.nodup_nil
  · rw [builtins_functions_size]
    exact ((builtin_members d hd).1 f hf).2
  · rw [builtins_cls_of_le hd] at hf
    exact absurd hf List.not_mem_nil
  all_goals
    rw [hsup d s hs]
    exact (builtin_kinds 0 (by decide)).2.2.1

namespace Unlinked

variable (h : t.Unlinked)
include h

theorem congr (hc : t'.classes = t.classes) (hf : t'.functions = t.functions) : t'.Unlinked := by
  refine ⟨h.toDeclared.congr hc hf, fun d s hs => h.super_object d s ?_⟩
  simpa only [cls, hc] using hs

theorem modifyClass_of_members {g : ClassSymbol → ClassSymbol} (hc : 3 ≤ c)
    (hg : ∀ k, (g k).isBuiltin = k.isBuiltin ∧ (g k).isMock = k.isMock ∧
      (g k).isInterface = k.isInterface ∧ (g k).methodOrder = k.methodOrder ∧
      (g k).constructors = k.constructors ∧ (g k).superclass = k.superclass) :
    (t.modifyClass c g).Unlinked := by
  refine ⟨h.toDeclared.modifyClass_of_members hc hg, fun d s hs => h.super_object d s ?_⟩
  rwa [superId_modifyClass g fun k => (hg k).2.2.2.2.2] at hs

theorem addFunction (fs : FunctionSymbol) : (t.addFunction fs).2.Unlinked :=
  ⟨h.toDeclared.addFunction fs, h.super_object⟩

theorem addMethod {fs : FunctionSymbol} (hc : 3 ≤ c) (hown : fs.owner = some c) (name : String) :
    ((t.addFunction fs).2.modifyClass c (·.addMethod name t.functions.size)).Unlinked := by
  refine ⟨h.toDeclared.addMethod hc hown name, fun d s hs => h.super_object d s ?_⟩
  rw [superId_modifyClass (·.addMethod name t.functions.size) fun _ => rfl] at hs
  exact hs

theorem addConstructor {fs : FunctionSymbol} (hc : 3 ≤ c) (hown : fs.owner = some c) :
    ((t.addFunction fs).2.modifyClass c fun k =>
      { k with constructors := k.constructors ++ [t.functions.size] }).Unlinked := by
  refine ⟨h.toDeclared.addConstructor hc hown, fun d s hs => h.super_object d s ?_⟩
  rw [superId_modifyClass (fun k => { k with constructors := k.constructors ++ [t.functions.size] })
    fun _ => rfl] at hs
  exact hs

/-- Adding a user class with no members and no superclass yet. -/
theorem addClass {k : ClassSymbol} (hk : k.isBuiltin = false ∧ k.isMock = false ∧
    k.methodOrder = [] ∧ k.constructors = [] ∧ k.superclass = none) : (t.addClass k).2.Unlinked := by
  obtain ⟨hb, hm, hmo, hctor, hsup⟩ := hk
  have hn := h.classes_size
  -- every class is the old one, or the new one at the end
  have hcases : ∀ d, ((t.addClass k).2.cls d = t.cls d ∧ d ≠ t.classes.size) ∨
      (t.addClass k).2.cls d = k := by
    intro d
    rw [cls_addClass]
    split
    · exact .inr rfl
    · exact .inl ⟨rfl, ‹_›⟩
  have hobj : (t.addClass k).2.cls objectClass = t.cls objectClass := by
    rw [cls_addClass, if_neg (Nat.ne_of_lt (Nat.lt_of_lt_of_le (by decide) hn))]
  have hsuper : ∀ d s, ((t.addClass k).2.cls d).superId? = some s → s = objectClass := by
    intro d s hs
    rcases hcases d with ⟨hd, -⟩ | hd <;> rw [hd] at hs
    · exact h.super_object d s hs
    · simp [ClassSymbol.superId?, hsup] at hs
  refine ⟨⟨⟨fun d hd => ?_, fun f hf => h.fn f hf⟩, ?_, h.functions_size,
    fun d hd => ?_, fun d => ?_, fun d f hf => ?_, fun d f hf => ?_, fun d => ?_,
    fun d f hf => ?_, fun d s hs => ?_⟩, hsuper⟩
  · rw [cls_addClass, if_neg (Nat.ne_of_lt (Nat.lt_of_lt_of_le hd hn))]
    exact h.cls d hd
  · rw [classes_size_addClass]
    exact Nat.le_succ_of_le hn
  · rcases hcases d with ⟨hd', -⟩ | hd' <;> rw [hd']
    · exact h.user d hd
    · exact hb
  · rcases hcases d with ⟨hd', -⟩ | hd' <;> rw [hd']
    · exact h.no_mock d
    · exact hm
  · rcases hcases d with ⟨hd', -⟩ | hd' <;> rw [hd'] at hf
    · exact h.owned d f hf
    · rw [hmo] at hf
      exact absurd hf List.not_mem_nil
  · rcases hcases d with ⟨hd', -⟩ | hd' <;> rw [hd'] at hf
    · exact h.ctor_owned d f hf
    · rw [hctor] at hf
      exact absurd hf List.not_mem_nil
  · rcases hcases d with ⟨hd', -⟩ | hd' <;> rw [hd']
    · exact h.nodup d
    · rw [hmo]
      exact List.nodup_nil
  · rcases hcases d with ⟨hd', -⟩ | hd' <;> rw [hd'] at hf
    · exact h.valid d f hf
    · rw [hmo] at hf
      exact absurd hf List.not_mem_nil
  · -- the only superclass is `Object`, which is no interface
    rw [hsuper d s hs, hobj, h.cls objectClass (by decide)]
    exact (builtin_kinds 0 (by decide)).2.2.1

end Unlinked

/-! ## Phases that keep an invariant -/

/-- A change to the table that keeps invariant `P`. -/
def Keeping (P : SymbolTable → Prop) (t t' : SymbolTable) : Prop := P t → P t'

/-- A phase each of whose changes keeps `P` keeps `P`. -/
theorem Keeps.keeping_post {P : SymbolTable → Prop} {x : TableM α} (hx : Keeps (Keeping P) x)
    {w : TableWork} (hw : P w.table) : Post x (fun _ w' => P w'.table) w :=
  hx.preserves (fun _ _ h => h) hw

/-- A phase that keeps `P` from every state where it holds is one change that keeps `P`. -/
theorem keeps_keeping {P : SymbolTable → Prop} {x : TableM α}
    (h : ∀ w, P w.table → Post x (fun _ w' => P w'.table) w) : Keeps (Keeping P) x :=
  fun w => .single (h w)

theorem keeps_keeping_modifyTable {P : SymbolTable → Prop} {g : SymbolTable → SymbolTable}
    (h : ∀ t, P t → P (g t)) : Keeps (Keeping P) (modifyTable g) :=
  keeps_modifyTable h

/-- A phase that reads the table may rely on the invariant holding of the table it read: from
a table where it fails, every change keeps it. -/
theorem keeps_keeping_table_bind {P : SymbolTable → Prop} {f : SymbolTable → TableM α}
    (h : ∀ t, P t → Keeps (Keeping P) (f t)) : Keeps (Keeping P) (table >>= f) := by
  intro w
  by_cases hw : P w.table
  · exact h w.table hw w
  · exact .single fun h' => absurd h' hw

/-- A phase that keeps `P`, run from a state where `P` holds, ends in one where it holds. -/
theorem Keeps.post_keeping {P : SymbolTable → Prop} {x : TableM α} {Q : α → TableWork → Prop}
    (hx : Keeps (Keeping P) x) {w : TableWork} (hw : P w.table)
    (hQ : ∀ a w', P w'.table → Q a w') : Post x Q w :=
  (Keeps.keeping_post hx hw).mono hQ

/-! ## Declaring the units -/

/-- Declaring the members of user class `c` keeps the table unlinked. -/
theorem keeps_declareMembers (unit : Nat) (path : List Nat) (members : List Decl) (hc : 3 ≤ c) :
    Keeps (Keeping Unlinked) (declareMembers unit c path members) := by
  unfold declareMembers
  refine keeps_forIn _ _ fun m _ _ => ?_
  dsimp only
  split
  · -- a field is added and listed
    refine keeps_bind keeps_table fun _ => keeps_ite
      (keeps_bind (keeps_report _) fun _ => keeps_pure _) ?_
    refine keeps_bind (keeps_addField fun t h => h.congr rfl rfl) fun _ => keeps_bind
      (keeps_modifyTable fun t h => h.modifyClass_of_members hc fun k => ?_) fun _ => keeps_pure _
    split <;> exact ⟨rfl, rfl, rfl, rfl, rfl, rfl⟩
  · -- a constructor or a method is added and filed
    refine keeps_bind keeps_table fun _ => keeps_ite ?_ ?_
    · exact keeps_addFunction_bind (fun t h => h.addConstructor hc rfl) fun _ => keeps_pure _
    · exact keeps_addFunction_bind (fun t h => h.addMethod hc rfl _) fun _ => keeps_pure _
  · exact keeps_pure _

/-- Declaring a class adds a user class with no members and no superclass yet, and declares its
members. -/
theorem keeps_declareClass (unit : Nat) (ns : String) (path : List Nat) (d : Decl) :
    Keeps (Keeping Unlinked) (declareClass unit ns path d) := by
  refine keeps_keeping fun w h => ?_
  unfold declareClass
  simp only [post_bind, post_table]
  split
  · simpa using h
  · split
    · simpa using h
    · simp only [post_bind, post_addClass, post_modifyTable]
      refine (Keeps.keeping_post (keeps_declareMembers unit path _ h.classes_size) ?_).mono
        fun _ w' h' => h'
      refine (h.addClass ?_).congr (by rw [classes_registerClass])
        (by rw [functions_registerClass])
      split <;> exact ⟨rfl, rfl, rfl, rfl, rfl⟩

theorem keeps_bindSingle {β : Type} [BEq β] (R : SymbolTable → SymbolTable → Prop)
    (name qualified : String) (d : Decl) (m : Std.TreeMap String β)
    (boundBy : Std.TreeMap String String) (sym : β) :
    Keeps R (bindSingle name qualified d m boundBy sym) := by
  unfold bindSingle
  dsimp only
  split
  · exact keeps_ite (keeps_bind (keeps_report _) fun _ => keeps_pure _) (keeps_pure _)
  · exact keeps_pure _

/-- Declaring a free function adds a function of no class and files it in its namespace. -/
theorem keeps_declareFreeFunction (unit : Nat) (ns : String) (path : List Nat) (d : Decl) :
    Keeps (Keeping Unlinked) (declareFreeFunction unit ns path d) := by
  unfold declareFreeFunction
  dsimp only
  repeat' first
    | with_reducible exact keeps_pure _
    | with_reducible exact keeps_table
    | with_reducible refine keeps_addFunction ?_
    | with_reducible refine keeps_modifyTable ?_
    | with_reducible refine keeps_bind ?_ fun _ => ?_
    | with_reducible refine keeps_ite ?_ ?_
    | split
    | exact fun _ h => h.addFunction _
    | exact fun _ h => h.congr (by simp) (by simp)

/-- Declaring a variable adds a field, which no fact is about. -/
theorem keeps_declareGlobal (unit : Nat) (ns : String) (path : List Nat) (d : Decl) :
    Keeps (Keeping Unlinked) (declareGlobal unit ns path d) := by
  unfold declareGlobal
  dsimp only
  repeat' first
    | with_reducible exact keeps_pure _
    | with_reducible exact keeps_table
    | with_reducible exact keeps_report _
    | with_reducible refine keeps_addField ?_
    | with_reducible refine keeps_modifyTable ?_
    | with_reducible refine keeps_bind ?_ fun _ => ?_
    | with_reducible refine keeps_ite ?_ ?_
    | split
    | exact fun _ h => h.congr rfl rfl
    | exact fun _ h => h.congr (by simp) (by simp)

/-- Declaring a unit's declarations, those of nested namespaces included, keeps the table
unlinked. -/
theorem keeps_declareDecls (unit : Nat) (ns : String) (path : List Nat) (i : Nat) (ds : List Decl) :
    Keeps (Keeping Unlinked) (declareDecls unit ns path i ds) := by
  fun_induction declareDecls unit ns path i ds
  case case1 => exact keeps_pure _
  case case2 ih_rest ih_members =>
    -- the namespace is made, then its members are declared, then the rest
    exact keeps_bind (keeps_modifyTable fun _ h => h.congr (by simp) (by simp)) fun _ =>
      keeps_bind ih_members fun _ => ih_rest
  case case3 ih_rest => exact keeps_bind (keeps_declareClass _ _ _ _) fun _ => ih_rest
  case case4 ih_rest => exact keeps_bind (keeps_declareClass _ _ _ _) fun _ => ih_rest
  case case5 ih_rest => exact keeps_bind (keeps_declareFreeFunction _ _ _ _) fun _ => ih_rest
  case case6 ih_rest => exact keeps_bind (keeps_declareGlobal _ _ _ _) fun _ => ih_rest
  case case7 ih_rest => exact ih_rest

theorem keeps_declareModule (unit : Nat) (m : Module) :
    Keeps (Keeping Unlinked) (declareModule unit m) :=
  keeps_bind (keeps_log _) fun _ =>
    keeps_bind (keeps_modifyTable fun _ h => h.congr (by simp) (by simp)) fun _ =>
      keeps_declareDecls _ _ _ _ _

/-- Resolving a unit's imports changes only the table's imports. -/
theorem keeps_resolveImports (unit : Nat) (m : Module) :
    Keeps (Keeping Unlinked) (resolveImports unit m) := by
  unfold resolveImports
  dsimp only
  repeat' first
    | with_reducible exact keeps_pure _
    | with_reducible exact keeps_table
    | with_reducible exact keeps_report _
    | with_reducible exact keeps_log _
    | with_reducible exact keeps_bindSingle _ _ _ _ _ _ _
    | with_reducible refine keeps_modifyTable ?_
    | with_reducible refine keeps_forIn _ _ fun _ _ _ => ?_
    | with_reducible refine keeps_bind ?_ fun _ => ?_
    | with_reducible refine keeps_ite ?_ ?_
    | split
    | exact fun _ h => h.congr rfl rfl

/-- Both passes over the units keep the table unlinked. -/
theorem keeps_declareAll (modules : List Module) : Keeps (Keeping Unlinked) (declareAll modules) := by
  unfold declareAll
  refine keeps_bind (keeps_forIn _ _ fun _ _ _ => ?_) fun _ =>
    keeps_bind (keeps_forIn _ _ fun _ _ _ => ?_) fun _ =>
      keeps_bind keeps_table fun _ => keeps_log _
  · exact keeps_bind (keeps_declareModule _ _) fun _ => keeps_pure _
  · exact keeps_bind (keeps_resolveImports _ _) fun _ => keeps_pure _

end SymbolTable

end AmLang
