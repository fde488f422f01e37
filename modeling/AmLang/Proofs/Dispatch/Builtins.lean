import AmLang.Proofs.Dispatch.Order
/-!
# The built-in classes

Every program starts from the table `SymbolTable.builtins`, which holds `Object`, `String` and
`Exception` with dispatch tables laid out by hand: `Object` has the three slots `toString`,
`equals` and `hashCode`, `String` overrides all three, and `Exception` overrides `toString` and
inherits the other two. This module checks that these tables lay out as a completed class's table
does, and that a table which still agrees with the built-in one on the built-in classes and
functions (`AgreesWithBuiltins`) has them finished (`AgreesWithBuiltins.finished`).

The facts about the built-in table itself are computed: they are closed statements about a fixed
table, checked by evaluation. Only the parameter types of the overridden methods are compared by
reduction, since type equality is not evaluated by the kernel; these types mention no generic
parameter, so they are the same seen from any class (`paramsSeenFrom_of_allConcrete`).
-/

namespace AmLang

namespace Ty

mutual

theorem equalShape_self : ∀ a : Ty, equalShape a a = true
  | .prim k _ => by
    simp only [equalShape]
    cases k <;> rfl
  | .obj _ as _ => by simp [equalShape, equalList_self as]
  | .array a _ => by simp [equalShape, equal, equalShape_self a]
  | .func ps r _ => by simp [equalShape, equal, equalList_self ps, equalShape_self r]
  | .param _ _ => by simp [equalShape]
  | .null => by simp [equalShape]
  | .error => by simp [equalShape]
  | .never => by simp [equalShape]

theorem equalList_self : ∀ l : List Ty, equalList l l = true
  | [] => by simp [equalList]
  | a :: l => by simp [equalList, equal, equalShape_self a, equalList_self l]

end

mutual

theorem substitute_of_isConcrete (s : Subst) : ∀ a : Ty, a.isConcrete = true → a.substitute s = a
  | .prim _ _, _ => by simp [substitute]
  | .obj _ as _, h => by
    simp only [isConcrete] at h
    simp only [substitute, substituteAll_of_allConcrete s as h]
  | .array a _, h => by
    simp only [isConcrete] at h
    simp only [substitute, substitute_of_isConcrete s a h]
  | .func ps r _, h => by
    simp only [isConcrete, Bool.and_eq_true] at h
    simp only [substitute, substituteAll_of_allConcrete s ps h.1, substitute_of_isConcrete s r h.2]
  | .param _ _, h => by simp [isConcrete] at h
  | .null, _ => by simp [substitute]
  | .error, _ => by simp [substitute]
  | .never, _ => by simp [substitute]

theorem substituteAll_of_allConcrete (s : Subst) :
    ∀ l : List Ty, allConcrete l = true → substituteAll s l = l
  | [], _ => by simp [substituteAll]
  | a :: l, h => by
    simp only [allConcrete, Bool.and_eq_true] at h
    simp only [substituteAll, substitute_of_isConcrete s a h.1, substituteAll_of_allConcrete s l h.2]

end

theorem map_substitute_of_allConcrete (s : Subst) :
    ∀ l : List Ty, allConcrete l = true → l.map (·.substitute s) = l
  | [], _ => rfl
  | a :: l, h => by
    simp only [allConcrete, Bool.and_eq_true] at h
    simp only [List.map_cons, substitute_of_isConcrete s a h.1, map_substitute_of_allConcrete s l h.2]

end Ty

namespace SymbolTable

variable {t : SymbolTable} {c : ClassId}

/-- A method whose parameter types mention no generic parameter has the same parameter types
seen from any class. -/
theorem paramsSeenFrom_of_allConcrete {m : FunctionSymbol} (h : Ty.allConcrete m.params = true)
    (c : ClassId) : t.paramsSeenFrom c m = m.params := by
  unfold paramsSeenFrom
  split
  · rfl
  · exact Ty.map_substitute_of_allConcrete _ _ h

/-! ## The built-in table

The facts about the fixed table are evaluated by the kernel in one conjunction, so the table is
computed once; each fact is then read off it.
-/

/-- The overriding built-in methods, each with its class and the method it overrides:
`String`'s `toString`, `equals` and `hashCode`, and `Exception`'s `toString`. -/
def builtinOverrides : List (ClassId × FunctionId × FunctionId) :=
  [(1, 8, 0), (1, 9, 1), (1, 10, 2), (2, 13, 0)]

set_option synthInstance.maxSize 1024 in
private theorem builtin_table_evaluated :
    builtins.classes.size = 3 ∧ builtins.functions.size = 32 ∧
    (∀ c < 3, (builtins.cls c).isBuiltin = true ∧ (builtins.cls c).isMock = false ∧
      (builtins.cls c).isInterface = false ∧ (builtins.cls c).interfaces = []) ∧
    (∀ c < 3, (∀ f ∈ (builtins.cls c).methodOrder, (builtins.fn f).owner = some c ∧ f < 32) ∧
      (∀ f ∈ (builtins.cls c).constructors, (builtins.fn f).owner = some c ∧ f < 32) ∧
      (builtins.cls c).methodOrder.Nodup) ∧
    (∀ f < 32, (builtins.fn f).isBuiltin = true ∧ (builtins.fn f).owner.getD 0 < 3) ∧
    ((builtins.cls 0).superId? = none ∧ (builtins.cls 1).superId? = some 0 ∧
      (builtins.cls 2).superId? = some 0) ∧
    (∀ c < 3, ∀ s ∈ (builtins.cls c).superId?.toList, s = objectClass) ∧
    (∀ c < 3, ∀ p ∈ (builtins.cls c).vtable.zipIdx,
      (builtins.fn p.1).slot = some p.2 ∧ p.1 < 32 ∧ (p.1 ∈ (builtins.cls c).methodOrder ∨
        (builtins.cls c).superId? = some 0 ∧ p.1 ∈ (builtins.cls 0).methodOrder)) ∧
    (∀ p ∈ builtinOverrides, p.1 < 3 ∧ p.2.1 < 32 ∧ p.2.2 < 32 ∧
      p.2.1 ∈ (builtins.cls p.1).methodOrder ∧
      (builtins.fn p.2.1).name = (builtins.fn p.2.2).name ∧
      (builtins.fn p.2.1).overrides = some p.2.2) ∧
    (∀ c < 3, ∀ s ∈ (builtins.cls c).superId?.toList, s < 3 ∧
      (builtins.cls s).vtable.length ≤ (builtins.cls c).vtable.length) ∧
    (∀ c < 3, ∀ s ∈ (builtins.cls c).superId?.toList,
      ∀ p ∈ (builtins.cls s).vtable.zipIdx, (builtins.cls c).vtable[p.2]? = some p.1 ∨
        ∃ e ∈ (builtins.cls c).vtable, (builtins.cls c).vtable[p.2]? = some e ∧
          (c, e, p.1) ∈ builtinOverrides) := by
  decide +kernel

theorem builtins_classes_size : builtins.classes.size = 3 := builtin_table_evaluated.1

theorem builtins_functions_size : builtins.functions.size = 32 := builtin_table_evaluated.2.1

/-- The three built-in classes are built in, no mocks and no interfaces, and implement no
interface. -/
theorem builtin_kinds : ∀ c < 3, (builtins.cls c).isBuiltin = true ∧
    (builtins.cls c).isMock = false ∧ (builtins.cls c).isInterface = false ∧
    (builtins.cls c).interfaces = [] :=
  builtin_table_evaluated.2.2.1

/-- Each built-in method and constructor belongs to the class that lists it, and no class lists
a method twice. -/
theorem builtin_members : ∀ c < 3, (∀ f ∈ (builtins.cls c).methodOrder,
    (builtins.fn f).owner = some c ∧ f < 32) ∧
    (∀ f ∈ (builtins.cls c).constructors, (builtins.fn f).owner = some c ∧ f < 32) ∧
    (builtins.cls c).methodOrder.Nodup :=
  builtin_table_evaluated.2.2.2.1

/-- Every built-in function is marked built in and belongs to a built-in class, if to any. -/
theorem builtin_functions : ∀ f < 32, (builtins.fn f).isBuiltin = true ∧
    (builtins.fn f).owner.getD 0 < 3 :=
  builtin_table_evaluated.2.2.2.2.1

/-- `Object` has no superclass and the other two extend it. -/
theorem builtin_supers : (builtins.cls 0).superId? = none ∧ (builtins.cls 1).superId? = some 0 ∧
    (builtins.cls 2).superId? = some 0 :=
  builtin_table_evaluated.2.2.2.2.2.1

/-- The superclass of a built-in class, if any, is `Object`. -/
theorem builtin_super_object : ∀ c < 3, ∀ s ∈ (builtins.cls c).superId?.toList, s = objectClass :=
  builtin_table_evaluated.2.2.2.2.2.2.1

/-- Each entry of a built-in table knows its slot, and is a method of the class or of `Object`. -/
theorem builtin_entries : ∀ c < 3, ∀ p ∈ (builtins.cls c).vtable.zipIdx,
    (builtins.fn p.1).slot = some p.2 ∧ p.1 < 32 ∧ (p.1 ∈ (builtins.cls c).methodOrder ∨
      (builtins.cls c).superId? = some 0 ∧ p.1 ∈ (builtins.cls 0).methodOrder) :=
  builtin_table_evaluated.2.2.2.2.2.2.2.1

/-- Each overriding built-in method is its class's, has the name of the method it overrides and
records it. -/
theorem builtin_overrides : ∀ p ∈ builtinOverrides, p.1 < 3 ∧ p.2.1 < 32 ∧ p.2.2 < 32 ∧
    p.2.1 ∈ (builtins.cls p.1).methodOrder ∧
    (builtins.fn p.2.1).name = (builtins.fn p.2.2).name ∧
    (builtins.fn p.2.1).overrides = some p.2.2 :=
  builtin_table_evaluated.2.2.2.2.2.2.2.2.1

set_option maxRecDepth 20000 in
/-- The overriding built-in methods take the parameter types of the methods they override,
which mention no generic parameter. -/
theorem builtin_override_params : ∀ p ∈ builtinOverrides,
    (builtins.fn p.2.1).params = (builtins.fn p.2.2).params ∧
      Ty.allConcrete (builtins.fn p.2.2).params = true := by
  simp only [builtinOverrides, List.mem_cons, List.not_mem_nil, or_false, forall_eq_or_imp,
    forall_eq]
  refine ⟨⟨rfl, ?_⟩, ⟨rfl, ?_⟩, ⟨rfl, ?_⟩, ⟨rfl, ?_⟩⟩ <;>
    simp [show (builtins.fn 0).params = [] from rfl, show (builtins.fn 1).params =
      [.obj 0 [] true] from rfl, show (builtins.fn 2).params = [] from rfl, Ty.allConcrete,
      Ty.isConcrete]

/-- A built-in class's superclass is built in, with a table no longer than the class's. -/
theorem builtin_super_tables : ∀ c < 3, ∀ s ∈ (builtins.cls c).superId?.toList, s < 3 ∧
    (builtins.cls s).vtable.length ≤ (builtins.cls c).vtable.length :=
  builtin_table_evaluated.2.2.2.2.2.2.2.2.2.1

/-- Each slot of a built-in class's superclass holds, in the class's table, the same method or
one of the listed overrides of it. -/
theorem builtin_inherited : ∀ c < 3, ∀ s ∈ (builtins.cls c).superId?.toList,
    ∀ p ∈ (builtins.cls s).vtable.zipIdx, (builtins.cls c).vtable[p.2]? = some p.1 ∨
      ∃ e ∈ (builtins.cls c).vtable, (builtins.cls c).vtable[p.2]? = some e ∧
        (c, e, p.1) ∈ builtinOverrides :=
  builtin_table_evaluated.2.2.2.2.2.2.2.2.2.2

/-! ## Tables that agree with the built-in one -/

/-- Table `t` still has the built-in classes and functions as the built-in table has them. -/
structure AgreesWithBuiltins (t : SymbolTable) : Prop where
  cls : ∀ c < 3, t.cls c = builtins.cls c
  fn : ∀ f < 32, t.fn f = builtins.fn f

namespace AgreesWithBuiltins

variable (h : t.AgreesWithBuiltins)
include h

/-- An override among the built-in methods is one in the agreeing table. -/
theorem overrides {e b : FunctionId} (hp : (c, e, b) ∈ builtinOverrides) : t.Overrides c e b := by
  obtain ⟨hc, he, hb, hmem, hname, hover⟩ := builtin_overrides _ hp
  obtain ⟨hparams, hconc⟩ := builtin_override_params _ hp
  refine ⟨?_, ?_, ?_, ?_⟩
  · rw [h.cls c hc]
    exact hmem
  · rw [h.fn e he, h.fn b hb]
    exact hname
  · rw [h.fn e he, h.fn b hb, paramsSeenFrom_of_allConcrete hconc, hparams]
    exact Ty.equalList_self _
  · rw [h.fn e he]
    exact hover

/-- Each entry of a built-in class's table knows its slot. -/
theorem slot_eq (hc : c < 3) (i : Nat) (e : FunctionId) (he : (t.cls c).vtable[i]? = some e) :
    (t.fn e).slot = some i := by
  rw [h.cls c hc] at he
  obtain ⟨hslot, hlt, -⟩ := builtin_entries c hc (e, i) (List.mk_mem_zipIdx_iff_getElem?.2 he)
  rw [h.fn e hlt]
  exact hslot

theorem laysOut (hc : c < 3) : t.LaysOut c where
  length_le s hs := by
    rw [h.cls c hc] at hs ⊢
    obtain ⟨hs3, hlen⟩ := builtin_super_tables c hc s (by simp [hs])
    rw [h.cls s hs3]
    exact hlen
  inherits s hs i b hb := by
    rw [h.cls c hc] at hs ⊢
    have hs' : s ∈ (builtins.cls c).superId?.toList := by simp [hs]
    rw [h.cls s (builtin_super_tables c hc s hs').1] at hb
    rcases builtin_inherited c hc s hs' (b, i) (List.mk_mem_zipIdx_iff_getElem?.2 hb) with h' | ⟨e, -, he, hp⟩
    · exact .inl h'
    · exact .inr ⟨e, he, h.overrides hp⟩
  slot_eq := h.slot_eq hc

/-- The built-in classes are finished: each lays out its table, whose entries are its own
methods or `Object`'s. -/
theorem finished (hc : c < 3) : t.Finished c where
  laysOut _ := h.laysOut hc
  entries _ f hf := by
    rw [h.cls c hc] at hf
    obtain ⟨i, hi⟩ := List.mem_iff_getElem?.1 hf
    obtain ⟨-, -, hown | ⟨hsup, hobj⟩⟩ :=
      builtin_entries c hc (f, i) (List.mk_mem_zipIdx_iff_getElem?.2 hi)
    · exact ⟨c, .refl, by rw [h.cls c hc]; exact hown⟩
    · refine ⟨0, .single (.inl ?_), by rw [h.cls 0 (by decide)]; exact hobj⟩
      rw [h.cls c hc]
      exact hsup

end AgreesWithBuiltins

end SymbolTable

end AmLang
