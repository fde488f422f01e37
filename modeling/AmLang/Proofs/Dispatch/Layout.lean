import AmLang.Proofs.Symbols.Steps
/-!
# The layout of dispatch tables

A class's `vtable` lists the implementation of each virtual slot. Dispatch through a superclass
works because the tables line up: a class's table starts with its superclass's, slot for slot,
each slot holding the inherited method or one of the class's own methods that overrides it (same
name, same parameter types seen from the class, and recording what it overrides), and every
method knows its own slot number. `SymbolTable.LaysOut` says this of one class and
`SymbolTable.VtableLayout` of every class that is not an interface.

Completing the tables changes little: the tables and resolved mark of the class being
completed, and the slot and overridden method of its own methods (`SymbolTable.TablesStep`).
Everything else, the class headers that the type relations read, every member list and every
function's declaration, stays as it was; the lemmas of this module say so for any number of such
steps, so that the proofs about the phase never look at a step twice.
-/

namespace AmLang

namespace ClassSymbol

/-- The class without its dispatch tables and resolved mark: what completing the tables leaves
unchanged. -/
def untabled (k : ClassSymbol) : ClassSymbol := { k with vtable := [], itables := [], resolved := false }

end ClassSymbol

namespace FunctionSymbol

/-- The function without its slot and overridden method: what completing the tables leaves
unchanged. -/
def unslotted (f : FunctionSymbol) : FunctionSymbol := { f with slot := none, overrides := none }

theorem name_eq_of_unslotted {f f' : FunctionSymbol} (h : f'.unslotted = f.unslotted) :
    f'.name = f.name := by
  have h' := congrArg FunctionSymbol.name h
  exact h'

theorem params_eq_of_unslotted {f f' : FunctionSymbol} (h : f'.unslotted = f.unslotted) :
    f'.params = f.params := by
  have h' := congrArg FunctionSymbol.params h
  exact h'

theorem owner_eq_of_unslotted {f f' : FunctionSymbol} (h : f'.unslotted = f.unslotted) :
    f'.owner = f.owner := by
  have h' := congrArg FunctionSymbol.owner h
  exact h'

end FunctionSymbol

namespace SymbolTable

/-! ## The layout -/

/-- Method `e` of class `c` overrides `b`: it is one of `c`'s own methods, with `b`'s name and,
seen from `c`, `b`'s parameter types, and it records `b` as the method it overrides. -/
structure Overrides (t : SymbolTable) (c : ClassId) (e b : FunctionId) : Prop where
  mem : e ∈ (t.cls c).methodOrder
  name_eq : (t.fn e).name = (t.fn b).name
  params_eq : Ty.equalList (t.paramsSeenFrom c (t.fn b)) (t.fn e).params = true
  overrides_eq : (t.fn e).overrides = some b

/-- Class `c`'s table lines up with its superclass's: it is at least as long, each inherited slot
holds the inherited method or an override of it, and each method in the table knows its slot. -/
structure LaysOut (t : SymbolTable) (c : ClassId) : Prop where
  length_le : ∀ s, (t.cls c).superId? = some s →
    (t.cls s).vtable.length ≤ (t.cls c).vtable.length
  inherits : ∀ s, (t.cls c).superId? = some s → ∀ (i : Nat) (b : FunctionId),
    (t.cls s).vtable[i]? = some b →
    (t.cls c).vtable[i]? = some b ∨ ∃ e, (t.cls c).vtable[i]? = some e ∧ t.Overrides c e b
  slot_eq : ∀ (i : Nat) (e : FunctionId), (t.cls c).vtable[i]? = some e → (t.fn e).slot = some i

/-- An id past the table names no class; its table is empty and lays out trivially. -/
theorem laysOut_of_size_le {t : SymbolTable} {c : ClassId} (h : t.classes.size ≤ c) :
    t.LaysOut c := by
  refine ⟨fun s hs => ?_, fun s hs => ?_, fun i e he => ?_⟩ <;>
    simp [superId_of_size_le h, vtable_of_size_le h] at *

/-- Every class that is not an interface lays out its table. -/
def VtableLayout (t : SymbolTable) : Prop :=
  ∀ c, (t.cls c).isInterface = false → t.LaysOut c

/-! ## The inheritance graph -/

/-- Class `c` names `d` as its superclass or as one of its interfaces. -/
def Inherits (t : SymbolTable) (c d : ClassId) : Prop :=
  (t.cls c).superId? = some d ∨ ∃ i ∈ (t.cls c).interfaces, i.classOf? = some d

/-- No class inherits from itself, directly or through others. -/
def Acyclic (t : SymbolTable) : Prop := ∀ c, ¬ Relation.TransGen t.Inherits c c

/-! ## What completing the tables changes -/

/-- One change made while completing the tables of class `c`: to `c`'s tables or resolved mark,
or to the slot and overridden method of one of `c`'s own methods. -/
inductive TablesStep (c : ClassId) : SymbolTable → SymbolTable → Prop
  | cls {t : SymbolTable} {g : ClassSymbol → ClassSymbol}
      (hg : ∀ k, (g k).untabled = k.untabled) : TablesStep c t (t.modifyClass c g)
  | fn {t : SymbolTable} {f : FunctionId} (hf : f ∈ (t.cls c).methodOrder)
      {g : FunctionSymbol → FunctionSymbol}
      (hg : ∀ fs, (g fs).unslotted = fs.unslotted) : TablesStep c t (t.modifyFunction f g)

variable {c d : ClassId} {t t' : SymbolTable}

namespace TablesStep

theorem untabled_eq (h : TablesStep c t t') (d : ClassId) :
    (t'.cls d).untabled = (t.cls d).untabled := by
  cases h with
  | cls hg =>
    rw [cls_modifyClass]
    split
    · exact hg _
    · rfl
  | fn => rfl

theorem cls_of_ne (h : TablesStep c t t') (hd : c ≠ d) : t'.cls d = t.cls d := by
  cases h with
  | cls => exact cls_modifyClass_of_ne hd _
  | fn => rfl

theorem unslotted_eq (h : TablesStep c t t') (f : FunctionId) :
    (t'.fn f).unslotted = (t.fn f).unslotted := by
  cases h with
  | cls => rfl
  | fn _ hg =>
    rw [fn_modifyFunction]
    split
    · exact hg _
    · rfl

theorem fn_of_not_mem (h : TablesStep c t t') {f : FunctionId}
    (hf : f ∉ (t.cls c).methodOrder) : t'.fn f = t.fn f := by
  cases h with
  | cls => rfl
  | fn hmem =>
    refine fn_modifyFunction_of_ne ?_ _
    rintro rfl
    exact hf hmem

theorem classes_size_eq (h : TablesStep c t t') : t'.classes.size = t.classes.size := by
  cases h <;> simp

end TablesStep

/-! ### Any number of steps -/

section Steps

variable (h : Relation.ReflTransGen (TablesStep c) t t')
include h

theorem tables_untabled_eq (d : ClassId) : (t'.cls d).untabled = (t.cls d).untabled := by
  induction h with
  | refl => rfl
  | tail _ hs ih => exact (hs.untabled_eq d).trans ih

theorem tables_methodOrder_eq (d : ClassId) :
    (t'.cls d).methodOrder = (t.cls d).methodOrder := by
  have h' := congrArg ClassSymbol.methodOrder (tables_untabled_eq h d)
  exact h'

theorem tables_cls_of_ne (hd : c ≠ d) : t'.cls d = t.cls d := by
  induction h with
  | refl => rfl
  | tail _ hs ih => exact (hs.cls_of_ne hd).trans ih

theorem tables_unslotted_eq (f : FunctionId) : (t'.fn f).unslotted = (t.fn f).unslotted := by
  induction h with
  | refl => rfl
  | tail _ hs ih => exact (hs.unslotted_eq f).trans ih

theorem tables_fn_of_not_mem {f : FunctionId} (hf : f ∉ (t.cls c).methodOrder) :
    t'.fn f = t.fn f := by
  induction h with
  | refl => rfl
  | tail hsteps hs ih =>
    rw [← tables_methodOrder_eq hsteps c] at hf
    exact (hs.fn_of_not_mem hf).trans ih

theorem tables_classes_size_eq : t'.classes.size = t.classes.size := by
  induction h with
  | refl => rfl
  | tail _ hs ih => exact hs.classes_size_eq.trans ih

end Steps

/-! ## Tables of the same shape -/

/-- Two tables that differ at most in dispatch tables, resolved marks, slots and overridden
methods. -/
structure SameShape (t t' : SymbolTable) : Prop where
  classes_size : t'.classes.size = t.classes.size
  functions_size : t'.functions.size = t.functions.size
  untabled : ∀ d, (t'.cls d).untabled = (t.cls d).untabled
  unslotted : ∀ f, (t'.fn f).unslotted = (t.fn f).unslotted

namespace SameShape

theorem refl (t : SymbolTable) : SameShape t t := ⟨rfl, rfl, fun _ => rfl, fun _ => rfl⟩

theorem trans {t'' : SymbolTable} (h : SameShape t t') (h' : SameShape t' t'') :
    SameShape t t'' :=
  ⟨h'.classes_size.trans h.classes_size, h'.functions_size.trans h.functions_size,
    fun d => (h'.untabled d).trans (h.untabled d), fun f => (h'.unslotted f).trans (h.unslotted f)⟩

theorem of_step (hs : TablesStep c t t') : SameShape t t' := by
  refine ⟨hs.classes_size_eq, ?_, hs.untabled_eq, hs.unslotted_eq⟩
  cases hs <;> simp

theorem of_steps (h : Relation.ReflTransGen (TablesStep c) t t') : SameShape t t' := by
  induction h with
  | refl => exact refl _
  | tail _ hs ih => exact ih.trans (of_step hs)

variable (h : SameShape t t')
include h

theorem methodOrder_eq (d : ClassId) : (t'.cls d).methodOrder = (t.cls d).methodOrder := by
  have h' := congrArg ClassSymbol.methodOrder (h.untabled d)
  exact h'

theorem toClassHeader_eq (d : ClassId) : (t'.cls d).toClassHeader = (t.cls d).toClassHeader := by
  have h' := congrArg ClassSymbol.toClassHeader (h.untabled d)
  exact h'

theorem superId_eq (d : ClassId) : (t'.cls d).superId? = (t.cls d).superId? := by
  have h' := congrArg ClassHeader.superclass (h.toClassHeader_eq d)
  simp only [ClassSymbol.superId?]
  exact congrArg (·.bind Ty.classOf?) h'

theorem interfaces_eq (d : ClassId) : (t'.cls d).interfaces = (t.cls d).interfaces :=
  congrArg ClassHeader.interfaces (h.toClassHeader_eq d)

theorem isInterface_eq (d : ClassId) : (t'.cls d).isInterface = (t.cls d).isInterface := by
  have h' := congrArg ClassSymbol.isInterface (h.untabled d)
  exact h'

theorem isBuiltin_eq (d : ClassId) : (t'.cls d).isBuiltin = (t.cls d).isBuiltin := by
  have h' := congrArg ClassSymbol.isBuiltin (h.untabled d)
  exact h'

theorem name_eq (f : FunctionId) : (t'.fn f).name = (t.fn f).name :=
  FunctionSymbol.name_eq_of_unslotted (h.unslotted f)

theorem params_eq (f : FunctionId) : (t'.fn f).params = (t.fn f).params :=
  FunctionSymbol.params_eq_of_unslotted (h.unslotted f)

theorem owner_eq (f : FunctionId) : (t'.fn f).owner = (t.fn f).owner :=
  FunctionSymbol.owner_eq_of_unslotted (h.unslotted f)

/-- The class headers, and so every type relation, are the same. -/
theorem env_eq : t'.env = t.env := by
  have hcls : ∀ i (hi : i < t.classes.size), t.cls i = t.classes[i] := fun i hi => by
    simp [cls, Array.getD_eq_getD_getElem?, hi]
  have hcls' : ∀ i (hi : i < t'.classes.size), t'.cls i = t'.classes[i] := fun i hi => by
    simp [cls, Array.getD_eq_getD_getElem?, hi]
  apply Array.ext
  · simp [env, h.classes_size]
  · intro i h1 h2
    simp only [env, Array.getElem_map]
    have hi : i < t.classes.size := by simpa [env] using h2
    rw [← hcls i hi, ← hcls' i (h.classes_size ▸ hi)]
    exact h.toClassHeader_eq i

/-- The inheritance graph is the same. -/
theorem inherits_eq : t'.Inherits = t.Inherits := by
  funext c d
  simp only [Inherits, h.superId_eq, h.interfaces_eq]

/-- A method's parameter types seen from a class are the same. -/
theorem paramsSeenFrom_eq (d : ClassId) (m : FunctionSymbol) :
    t'.paramsSeenFrom d m = t.paramsSeenFrom d m := by
  have hgen : (t'.cls d).generics = (t.cls d).generics :=
    congrArg ClassHeader.generics (h.toClassHeader_eq d)
  simp only [paramsSeenFrom, inheritedSubst, ClassSymbol.selfType, hgen, h.env_eq]

end SameShape

/-- Seen from a class, a method's parameter types depend only on its owner and parameters. -/
theorem paramsSeenFrom_congr {m m' : FunctionSymbol} (howner : m'.owner = m.owner)
    (hparams : m'.params = m.params) (d : ClassId) :
    t.paramsSeenFrom d m' = t.paramsSeenFrom d m := by
  simp only [paramsSeenFrom, inheritedSubst, howner, hparams]

/-- An override stays one in a table of the same shape where the overriding method still
records it. -/
theorem Overrides.of_sameShape {e b : FunctionId} (ho : t.Overrides c e b) (h : SameShape t t')
    (he : (t'.fn e).overrides = (t.fn e).overrides) : t'.Overrides c e b where
  mem := (h.methodOrder_eq c).symm ▸ ho.mem
  name_eq := by rw [h.name_eq, h.name_eq]; exact ho.name_eq
  params_eq := by
    rw [h.paramsSeenFrom_eq, paramsSeenFrom_congr (h.owner_eq b) (h.params_eq b), h.params_eq]
    exact ho.params_eq
  overrides_eq := he.trans ho.overrides_eq

/-- A layout reads only the shape of the table, the class's and its superclass's dispatch tables
and the functions in the class's table: it survives any change that keeps these. -/
theorem LaysOut.of_frame (hl : t.LaysOut c) (h : SameShape t t')
    (hc : (t'.cls c).vtable = (t.cls c).vtable)
    (hs : ∀ s, (t.cls c).superId? = some s → (t'.cls s).vtable = (t.cls s).vtable)
    (hf : ∀ e ∈ (t.cls c).vtable, t'.fn e = t.fn e) : t'.LaysOut c where
  length_le s hsup := by
    rw [h.superId_eq] at hsup
    rw [hs s hsup, hc]
    exact hl.length_le s hsup
  inherits s hsup i b hb := by
    rw [h.superId_eq] at hsup
    rw [hs s hsup] at hb
    rw [hc]
    rcases hl.inherits s hsup i b hb with h' | ⟨e, he, ho⟩
    · exact .inl h'
    · exact .inr ⟨e, he, ho.of_sameShape h (by rw [hf e (List.mem_of_getElem? he)])⟩
  slot_eq i e he := by
    rw [hc] at he
    rw [hf e (List.mem_of_getElem? he)]
    exact hl.slot_eq i e he

end SymbolTable

end AmLang
