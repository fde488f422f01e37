import AmLang.Proofs.Dispatch.Layout
/-!
# Building one class's table

`buildVtable` starts from the superclass's table and walks the class's own methods in
declaration order: a static or generic method gets no slot, a method with the name and parameter
types (seen from the class) of an inherited slot takes that slot and records what it overrides,
and any other method gets a new slot at the end.

The loop keeps `VtableInv`: the table built so far still has every inherited slot, each holding
the inherited method or an override of it by a method already walked; the slots past the
inherited ones hold methods already walked; and every method in the table knows its slot. Two
facts about the class carry the proof: each method belongs to one class only (so a method found
in an inherited slot whose owner is another class is the inherited method itself), and no method
is declared twice (so a method walked later is not yet in the table).

## Main results

* `buildVtable_spec` — the table a class gets lays out its superclass's, and every entry is an
  inherited method or one of the class's own.
-/

namespace AmLang

namespace SymbolTable

open TableM

variable {t0 t : SymbolTable} {c : ClassId} {base rest V : List FunctionId} {f : FunctionId}

/-- The invariant of the loop that builds the table of class `c` of `t0`, starting from the
inherited table `base`: before the methods `rest`, the table built so far is `V` and the symbol
table `t`. -/
structure VtableInv (t0 : SymbolTable) (c : ClassId) (base rest V : List FunctionId)
    (t : SymbolTable) : Prop where
  steps : Relation.ReflTransGen (TablesStep c) t0 t
  suffix : rest <:+ (t0.cls c).methodOrder
  length_le : base.length ≤ V.length
  inherited : ∀ (i : Nat) (b : FunctionId), base[i]? = some b →
    V[i]? = some b ∨ ∃ e, V[i]? = some e ∧ e ∉ rest ∧ t.Overrides c e b
  own : ∀ (i : Nat) (e : FunctionId), base.length ≤ i → V[i]? = some e →
    e ∈ (t0.cls c).methodOrder ∧ e ∉ rest
  slot_eq : ∀ (i : Nat) (e : FunctionId), V[i]? = some e → (t.fn e).slot = some i

namespace VtableInv

variable (hbase : ∀ b ∈ base, b ∉ (t0.cls c).methodOrder)

theorem mem_methodOrder (hinv : VtableInv t0 c base (f :: rest) V t) :
    f ∈ (t.cls c).methodOrder := by
  rw [tables_methodOrder_eq hinv.steps]
  exact hinv.suffix.subset (by simp)

include hbase in
/-- The method about to be walked is not yet in the table. -/
theorem getElem?_ne (hinv : VtableInv t0 c base (f :: rest) V t) (i : Nat) :
    V[i]? ≠ some f := by
  intro hi
  have hf : f ∈ (t0.cls c).methodOrder := hinv.suffix.subset (by simp)
  by_cases hlt : i < base.length
  · obtain ⟨b, hb⟩ : ∃ b, base[i]? = some b := ⟨base[i], by simp [hlt]⟩
    rcases hinv.inherited i b hb with h | ⟨e, he, hrest, -⟩
    · have hbf : b = f := Option.some.inj (h.symm.trans hi)
      exact hbase b (List.mem_of_getElem? hb) (hbf ▸ hf)
    · have hef : e = f := Option.some.inj (he.symm.trans hi)
      exact hrest (by simp [hef])
  · exact (hinv.own i f (Nat.le_of_not_lt hlt) hi).2 (by simp)

theorem not_mem_rest (hinv : VtableInv t0 c base (f :: rest) V t)
    (hnodup : (t0.cls c).methodOrder.Nodup) : f ∉ rest :=
  (List.nodup_cons.1 (hnodup.sublist hinv.suffix.sublist)).1

/-- An override survives a change to another method's slot. -/
theorem overrides_of_ne {g : FunctionSymbol → FunctionSymbol}
    (hg : ∀ fs, (g fs).unslotted = fs.unslotted) (hinv : VtableInv t0 c base (f :: rest) V t)
    {e b : FunctionId} (ho : t.Overrides c e b) (hef : f ≠ e) :
    (t.modifyFunction f g).Overrides c e b :=
  ho.of_sameShape (SameShape.of_step (.fn hinv.mem_methodOrder hg))
    (by rw [fn_modifyFunction_of_ne hef])

include hbase in
/-- A static or generic method gets no slot: the table stays as it is. -/
theorem unslot (hinv : VtableInv t0 c base (f :: rest) V t)
    {g : FunctionSymbol → FunctionSymbol} (hg : ∀ fs, (g fs).unslotted = fs.unslotted) :
    VtableInv t0 c base rest V (t.modifyFunction f g) := by
  have hfV := hinv.getElem?_ne hbase
  refine ⟨hinv.steps.tail (.fn hinv.mem_methodOrder hg), (List.suffix_cons f rest).trans hinv.suffix,
    hinv.length_le, ?_, ?_, ?_⟩
  · intro i b hb
    rcases hinv.inherited i b hb with h | ⟨e, he, hrest, ho⟩
    · exact .inl h
    · have hef : f ≠ e := fun h => hfV i (h ▸ he)
      exact .inr ⟨e, he, fun h => hrest (List.mem_cons_of_mem f h), hinv.overrides_of_ne hg ho hef⟩
  · intro i e hi he
    obtain ⟨hmem, hrest⟩ := hinv.own i e hi he
    exact ⟨hmem, fun h => hrest (List.mem_cons_of_mem f h)⟩
  · intro i e he
    have hef : f ≠ e := fun h => hfV i (h ▸ he)
    rw [fn_modifyFunction_of_ne hef]
    exact hinv.slot_eq i e he

/-- A method that matches a slot already taken by another method of the class is skipped. -/
theorem skip (hinv : VtableInv t0 c base (f :: rest) V t) : VtableInv t0 c base rest V t := by
  refine ⟨hinv.steps, (List.suffix_cons f rest).trans hinv.suffix, hinv.length_le, ?_, ?_,
    hinv.slot_eq⟩
  · intro i b hb
    rcases hinv.inherited i b hb with h | ⟨e, he, hrest, ho⟩
    · exact .inl h
    · exact .inr ⟨e, he, fun h => hrest (List.mem_cons_of_mem f h), ho⟩
  · intro i e hi he
    obtain ⟨hmem, hrest⟩ := hinv.own i e hi he
    exact ⟨hmem, fun h => hrest (List.mem_cons_of_mem f h)⟩

include hbase in
/-- A method that matches an inherited slot of a method of another class takes the slot. -/
theorem override (hinv : VtableInv t0 c base (f :: rest) V t)
    (hown : ∀ d e, e ∈ (t0.cls d).methodOrder → (t0.fn e).owner = some d)
    (hnodup : (t0.cls c).methodOrder.Nodup) (hvalid : f < t.functions.size)
    {b : FunctionId} {slot : Nat} (hfound : V[slot]? = some b) (hb : (t.fn b).owner ≠ some c)
    (hname : (t.fn b).name = (t.fn f).name)
    (hparams : Ty.equalList (t.paramsSeenFrom c (t.fn b)) (t.fn f).params = true)
    {g : FunctionSymbol → FunctionSymbol} (hg : ∀ fs, (g fs).unslotted = fs.unslotted)
    (hgslot : (g (t.fn f)).slot = some slot) (hgover : (g (t.fn f)).overrides = some b) :
    VtableInv t0 c base rest (V.set slot f) (t.modifyFunction f g) := by
  have hfV := hinv.getElem?_ne hbase
  have hshape := SameShape.of_steps hinv.steps
  have hstep : TablesStep c t (t.modifyFunction f g) := .fn hinv.mem_methodOrder hg
  -- the method in the matched slot belongs to another class, so it is no method of this one
  have hbM : b ∉ (t0.cls c).methodOrder := fun hbM =>
    hb ((hshape.owner_eq b).trans (hown c b hbM))
  have hslot : slot < base.length := by
    rcases Nat.lt_or_ge slot base.length with h | hge
    · exact h
    · exact absurd (hinv.own slot b hge hfound).1 hbM
  -- and so it is the inherited method of that slot
  have hbase_slot : base[slot]? = some b := by
    obtain ⟨b0, hb0⟩ : ∃ b0, base[slot]? = some b0 := ⟨base[slot], by simp [hslot]⟩
    rcases hinv.inherited slot b0 hb0 with h | ⟨e, he, -, ho⟩
    · rw [hb0, ← Option.some.inj (h.symm.trans hfound)]
    · have heb : e = b := Option.some.inj (he.symm.trans hfound)
      have hmem := ho.mem
      rw [tables_methodOrder_eq hinv.steps] at hmem
      exact absurd (heb ▸ hmem) hbM
  have hbf : f ≠ b := fun h => hbM (h ▸ hinv.suffix.subset (by simp))
  have hslotV : slot < V.length := (List.getElem?_eq_some_iff.1 hfound).1
  have hfrest := hinv.not_mem_rest hnodup
  refine ⟨hinv.steps.tail hstep, (List.suffix_cons f rest).trans hinv.suffix,
    by simpa using hinv.length_le, ?_, ?_, ?_⟩
  · intro i b' hb'
    by_cases hi : slot = i
    · subst hi
      have hb'b : b' = b := Option.some.inj (hb'.symm.trans hbase_slot)
      subst hb'b
      refine .inr ⟨f, by simp [hslotV], hfrest, ?_⟩
      have hgf : (g (t.fn f)).unslotted = (t.fn f).unslotted := hg _
      refine ⟨?_, ?_, ?_, ?_⟩
      · exact hinv.mem_methodOrder
      · rw [fn_modifyFunction_self hvalid, fn_modifyFunction_of_ne hbf,
          FunctionSymbol.name_eq_of_unslotted hgf, hname]
      · rw [(SameShape.of_step hstep).paramsSeenFrom_eq, fn_modifyFunction_of_ne hbf,
          fn_modifyFunction_self hvalid,
          FunctionSymbol.params_eq_of_unslotted hgf]
        exact hparams
      · rw [fn_modifyFunction_self hvalid]
        exact hgover
    · rw [List.getElem?_set_ne hi]
      rcases hinv.inherited i b' hb' with h | ⟨e, he, hrest, ho⟩
      · exact .inl h
      · have hef : f ≠ e := fun h => hfV i (h ▸ he)
        exact .inr ⟨e, he, fun h => hrest (List.mem_cons_of_mem f h),
          hinv.overrides_of_ne hg ho hef⟩
  · intro i e hi he
    have hne : slot ≠ i := by omega
    rw [List.getElem?_set_ne hne] at he
    obtain ⟨hmem, hrest⟩ := hinv.own i e hi he
    exact ⟨hmem, fun h => hrest (List.mem_cons_of_mem f h)⟩
  · intro i e he
    by_cases hi : slot = i
    · subst hi
      have hef : e = f := by simpa [List.getElem?_set, hslotV] using he.symm
      subst hef
      rw [fn_modifyFunction_self hvalid]
      exact hgslot
    · rw [List.getElem?_set_ne hi] at he
      have hef : f ≠ e := fun h => hfV i (h ▸ he)
      rw [fn_modifyFunction_of_ne hef]
      exact hinv.slot_eq i e he

include hbase in
/-- Any other method gets a new slot at the end. -/
theorem append (hinv : VtableInv t0 c base (f :: rest) V t)
    (hnodup : (t0.cls c).methodOrder.Nodup) (hvalid : f < t.functions.size)
    {g : FunctionSymbol → FunctionSymbol} (hg : ∀ fs, (g fs).unslotted = fs.unslotted)
    (hgslot : (g (t.fn f)).slot = some V.length) :
    VtableInv t0 c base rest (V ++ [f]) (t.modifyFunction f g) := by
  have hfV := hinv.getElem?_ne hbase
  have hfrest := hinv.not_mem_rest hnodup
  refine ⟨hinv.steps.tail (.fn hinv.mem_methodOrder hg), (List.suffix_cons f rest).trans hinv.suffix,
    by simp only [List.length_append]; have := hinv.length_le; omega, ?_, ?_, ?_⟩
  · intro i b hb
    have hi : i < V.length :=
      Nat.lt_of_lt_of_le (List.getElem?_eq_some_iff.1 hb).1 hinv.length_le
    rw [List.getElem?_append_left hi]
    rcases hinv.inherited i b hb with h | ⟨e, he, hrest, ho⟩
    · exact .inl h
    · have hef : f ≠ e := fun h => hfV i (h ▸ he)
      exact .inr ⟨e, he, fun h => hrest (List.mem_cons_of_mem f h), hinv.overrides_of_ne hg ho hef⟩
  · intro i e hi he
    by_cases hlt : i < V.length
    · rw [List.getElem?_append_left hlt] at he
      obtain ⟨hmem, hrest⟩ := hinv.own i e hi he
      exact ⟨hmem, fun h => hrest (List.mem_cons_of_mem f h)⟩
    · rw [List.getElem?_append_right (Nat.le_of_not_lt hlt)] at he
      have hef : e = f := by
        rcases hk : i - V.length with _ | k
        · simpa [hk] using he.symm
        · simp [hk] at he
      subst hef
      exact ⟨hinv.suffix.subset (by simp), hfrest⟩
  · intro i e he
    by_cases hlt : i < V.length
    · rw [List.getElem?_append_left hlt] at he
      have hef : f ≠ e := fun h => hfV i (h ▸ he)
      rw [fn_modifyFunction_of_ne hef]
      exact hinv.slot_eq i e he
    · rw [List.getElem?_append_right (Nat.le_of_not_lt hlt)] at he
      have hi : i = V.length := by
        rcases hk : i - V.length with _ | k
        · omega
        · simp [hk] at he
      subst hi
      have hef : e = f := by simpa using he.symm
      subst hef
      rw [fn_modifyFunction_self hvalid]
      exact hgslot

/-- The table a class starts from: its superclass's, or none. -/
structure StartsFrom (t : SymbolTable) (c : ClassId) (base : List FunctionId) : Prop where
  eq_super : ∀ s, (t.cls c).superId? = some s → base = (t.cls s).vtable
  eq_nil : (t.cls c).superId? = none → base = []

variable (hsuper : ∀ s, (t0.cls c).superId? = some s → ∀ (i : Nat) (b : FunctionId),
  (t0.cls s).vtable[i]? = some b → (t0.fn b).slot = some i ∧ b ∉ (t0.cls c).methodOrder)
include hsuper

/-- No inherited method is one of the class's own. -/
theorem StartsFrom.not_mem (hstart : StartsFrom t0 c base) :
    ∀ b ∈ base, b ∉ (t0.cls c).methodOrder := by
  intro b hb
  rcases hs : (t0.cls c).superId? with _ | s
  · rw [hstart.eq_nil hs] at hb
    simp at hb
  · rw [hstart.eq_super s hs] at hb
    obtain ⟨i, hi⟩ := List.mem_iff_getElem?.1 hb
    exact (hsuper s hs i b hi).2

/-- Before any method is walked, the table is the inherited one. -/
theorem start (hstart : StartsFrom t0 c base) :
    StartsFrom t0 c base ∧ VtableInv t0 c base (t0.cls c).methodOrder base t0 := by
  refine ⟨hstart, .refl, List.suffix_refl _, Nat.le_refl _, fun _ _ hb => .inl hb, ?_, ?_⟩
  · intro i e hi he
    rw [List.getElem?_eq_none hi] at he
    exact absurd he (by simp)
  · intro i e he
    rcases hs : (t0.cls c).superId? with _ | s
    · rw [hstart.eq_nil hs] at he
      simp at he
    · rw [hstart.eq_super s hs] at he
      exact (hsuper s hs i e he).1

omit hsuper

/-- Once every method is walked, the class's table is the one built: it lays out the
superclass's, and every entry is inherited or one of the class's own methods. -/
theorem finish (hinv : VtableInv t0 c base [] V t) (hstart : StartsFrom t0 c base)
    (hself : (t0.cls c).superId? ≠ some c) :
    Relation.ReflTransGen (TablesStep c) t0 (t.modifyClass c fun k => { k with vtable := V }) ∧
      (t.modifyClass c fun k => { k with vtable := V }).LaysOut c ∧
      ∀ e ∈ ((t.modifyClass c fun k => { k with vtable := V }).cls c).vtable,
        e ∈ (t0.cls c).methodOrder ∨ ∃ s, (t0.cls c).superId? = some s ∧ e ∈ (t0.cls s).vtable := by
  have hshape := SameShape.of_steps hinv.steps
  have hstep : TablesStep c t (t.modifyClass c fun k => { k with vtable := V }) := .cls fun _ => rfl
  have hshape' := SameShape.of_step hstep
  refine ⟨hinv.steps.tail hstep, ?_⟩
  by_cases hout : t.classes.size ≤ c
  · -- past the table there is no class to store the table in
    have hout' : (t.modifyClass c fun k => { k with vtable := V }).classes.size ≤ c := by
      simpa using hout
    refine ⟨laysOut_of_size_le hout', fun e he => ?_⟩
    simp [vtable_of_size_le hout'] at he
  have hc' : c < t.classes.size := Nat.lt_of_not_le hout
  have hself' : (t.cls c).superId? = (t0.cls c).superId? := hshape.superId_eq c
  have hV : ((t.modifyClass c fun k => { k with vtable := V }).cls c).vtable = V := by
    rw [cls_modifyClass_self hc']
  -- the superclass is another class, so its table is still the one the class started from
  have hbase : ∀ s, (t0.cls c).superId? = some s →
      ((t.modifyClass c fun k => { k with vtable := V }).cls s).vtable = base := by
    intro s hs
    have hsc : c ≠ s := fun h => hself (h ▸ hs)
    rw [cls_modifyClass_of_ne hsc, tables_cls_of_ne hinv.steps hsc, hstart.eq_super s hs]
  refine ⟨⟨?_, ?_, ?_⟩, ?_⟩
  · intro s hs
    rw [hshape'.superId_eq, hself'] at hs
    rw [hbase s hs, hV]
    exact hinv.length_le
  · intro s hs i b hb
    rw [hshape'.superId_eq, hself'] at hs
    rw [hbase s hs] at hb
    rw [hV]
    rcases hinv.inherited i b hb with h | ⟨e, he, -, ho⟩
    · exact .inl h
    · exact .inr ⟨e, he, ho.of_sameShape hshape' rfl⟩
  · intro i e he
    rw [hV] at he
    exact hinv.slot_eq i e he
  · intro e he
    rw [hV] at he
    obtain ⟨i, hi⟩ := List.mem_iff_getElem?.1 he
    by_cases hlt : i < base.length
    · obtain ⟨b, hb⟩ : ∃ b, base[i]? = some b := ⟨base[i], by simp [hlt]⟩
      rcases hinv.inherited i b hb with h | ⟨e', he', -, ho⟩
      · have hbe : b = e := Option.some.inj (h.symm.trans hi)
        rcases hs : (t0.cls c).superId? with _ | s
        · rw [hstart.eq_nil hs] at hb
          simp at hb
        · refine .inr ⟨s, rfl, ?_⟩
          rw [← hstart.eq_super s hs, ← hbe]
          exact List.mem_of_getElem? hb
      · have he'e : e' = e := Option.some.inj (he'.symm.trans hi)
        have hmem := ho.mem
        rw [tables_methodOrder_eq hinv.steps, he'e] at hmem
        exact .inl hmem
    · exact .inl (hinv.own i e (Nat.le_of_not_lt hlt) hi).1

end VtableInv

/-- What building class `c`'s table needs of the symbol table: each method belongs to the class
that lists it, `c` lists no method twice and each is a function of the
table, `c` is not its own superclass, and every method in the superclass's table knows its slot
and is not one of `c`'s. -/
structure VtableReady (t : SymbolTable) (c : ClassId) : Prop where
  owner : ∀ d f, f ∈ (t.cls d).methodOrder → (t.fn f).owner = some d
  nodup : (t.cls c).methodOrder.Nodup
  valid : ∀ f ∈ (t.cls c).methodOrder, f < t.functions.size
  not_self : (t.cls c).superId? ≠ some c
  super_slot : ∀ s, (t.cls c).superId? = some s → ∀ (i : Nat) (b : FunctionId),
    (t.cls s).vtable[i]? = some b → (t.fn b).slot = some i ∧ b ∉ (t.cls c).methodOrder

open VtableInv in
/-- The table class `c` gets lays out its superclass's table, and every entry is inherited or
one of `c`'s own methods. -/
theorem buildVtable_spec {w : TableWork} (hready : VtableReady w.table c) :
    Post (buildVtable c) (fun _ w' => Relation.ReflTransGen (TablesStep c) w.table w'.table ∧
      w'.table.LaysOut c ∧ ∀ e ∈ (w'.table.cls c).vtable, e ∈ (w.table.cls c).methodOrder ∨
        ∃ s, (w.table.cls c).superId? = some s ∧ e ∈ (w.table.cls s).vtable) w := by
  obtain ⟨hown, hnodup, hvalid, hself, hsuper⟩ := hready
  unfold buildVtable
  simp only [post_bind, post_table]
  refine post_forIn_from _ (fun base rest V w' =>
    StartsFrom w.table c base ∧ VtableInv w.table c base rest V w'.table)
    (start hsuper ⟨fun s hs => by simp [hs], fun hs => by simp [hs]⟩) ?_ ?_
  · rintro f rest V w' ⟨hstart, hinv⟩
    have hbase := hstart.not_mem hsuper
    have hvalid' : f < w'.table.functions.size :=
      (SameShape.of_steps hinv.steps).functions_size ▸ hvalid f (hinv.suffix.subset (by simp))
    simp only [post_bind, post_table]
    split
    · -- a static or generic method gets no slot
      simp only [post_bind, post_modifyTable]
      split <;> simp only [overrideError, post_bind, post_report, post_pure, stepPost_yield] <;>
        exact ⟨hstart, hinv.unslot hbase fun _ => rfl⟩
    · split
      · -- a method with the name and parameter types of a slot of the table
        rename_i b slot hfound
        have hp := List.find?_some hfound
        simp only [Bool.and_eq_true, beq_iff_eq] at hp
        have hV : V[slot]? = some b :=
          List.mk_mem_zipIdx_iff_getElem?.mp (List.mem_of_find?_eq_some hfound)
        split
        · simp only [post_pure, stepPost_yield]
          exact ⟨hstart, hinv.skip⟩
        · rename_i hb
          have hb' : (w'.table.fn b).owner ≠ some c := fun h => hb (by simp [h])
          split <;>
            simp only [mismatchAt, post_bind, post_report, post_modifyTable, post_pure,
              stepPost_yield] <;>
            exact ⟨hstart, hinv.override hbase hown hnodup hvalid' hV hb' hp.1 hp.2
              (fun _ => rfl) rfl rfl⟩
      · -- any other method gets a new slot
        split <;>
          simp only [overrideError, post_bind, post_report, post_modifyTable, post_pure,
            stepPost_yield] <;>
          exact ⟨hstart, hinv.append hbase hnodup hvalid' (fun _ => rfl) rfl⟩
  · rintro V w1 ⟨hstart, hinv⟩
    simp only [post_modifyTable]
    -- what follows only reports abstract methods left unimplemented
    refine Keeps.post_of_table_eq (keeps_ite (keeps_bind keeps_table fun _ =>
      keeps_bind (keeps_forIn _ _ fun _ _ _ => keeps_ite (keeps_bind (keeps_overrideError _ _ _)
        fun _ => keeps_pure _) (keeps_pure _)) fun _ => keeps_pure _) (keeps_pure _))
      fun _ w' hw' => ?_
    rw [hw']
    exact hinv.finish hstart hself

/-! ## Completing a class -/

/-- A change to the interface tables or the resolved mark of class `c` alone. -/
inductive Retags (c : ClassId) : SymbolTable → SymbolTable → Prop
  | mk {t : SymbolTable} {g : ClassSymbol → ClassSymbol} (hg : ∀ k, (g k).untabled = k.untabled)
      (hv : ∀ k, (g k).vtable = k.vtable) : Retags c t (t.modifyClass c g)

namespace Retags

theorem tablesStep {t t' : SymbolTable} (h : Retags c t t') : TablesStep c t t' := by
  cases h with
  | mk hg _ => exact .cls hg

theorem vtable_eq {t t' : SymbolTable} (h : Retags c t t') (d : ClassId) :
    (t'.cls d).vtable = (t.cls d).vtable := by
  cases h with
  | mk _ hv =>
    rw [cls_modifyClass]
    split
    · exact hv _
    · rfl

theorem fn_eq {t t' : SymbolTable} (h : Retags c t t') (f : FunctionId) : t'.fn f = t.fn f := by
  cases h
  rfl

end Retags

section Retagging

variable {t t' : SymbolTable} (h : Relation.ReflTransGen (Retags c) t t')
include h

theorem retags_tables : Relation.ReflTransGen (TablesStep c) t t' :=
  Relation.ReflTransGen.mono (fun _ _ => Retags.tablesStep) _ _ h

theorem retags_vtable_eq (d : ClassId) : (t'.cls d).vtable = (t.cls d).vtable := by
  induction h with
  | refl => rfl
  | tail _ hstep ih => rw [hstep.vtable_eq, ih]

theorem retags_fn_eq (f : FunctionId) : t'.fn f = t.fn f := by
  induction h with
  | refl => rfl
  | tail _ hstep ih => rw [hstep.fn_eq, ih]

/-- Building the interface tables and marking the class resolved keep every layout. -/
theorem LaysOut.of_retags {d : ClassId} (hl : t.LaysOut d) : t'.LaysOut d :=
  hl.of_frame (SameShape.of_steps (retags_tables h)) (retags_vtable_eq h d)
    (fun s _ => retags_vtable_eq h s) fun e _ => retags_fn_eq h e

end Retagging

/-- Building the interface tables changes nothing but the class's interface tables. -/
theorem keeps_buildItables : Keeps (Retags c) (buildItables c) := by
  unfold buildItables
  refine keeps_bind keeps_table fun t => keeps_bind (keeps_forIn _ _ fun iface _ _ => ?_) fun _ =>
    keeps_modifyTable fun _ => .mk (fun _ => rfl) fun _ => rfl
  refine keeps_bind (keeps_forIn _ _ fun mId _ _ => ?_) fun _ => keeps_pure _
  -- each method of the interface is looked up in the table and at most reported
  dsimp only
  repeat' first
    | with_reducible exact keeps_pure _
    | with_reducible exact keeps_mismatchAt _ _
    | with_reducible exact keeps_overrideError _ _ _
    | with_reducible refine keeps_bind ?_ fun _ => ?_
    | with_reducible refine keeps_ite ?_ ?_
    | split

/-- Building an interface's table changes only the interface's table and its own methods'
slots. -/
theorem buildInterfaceTable_steps (w : TableWork) :
    Post (buildInterfaceTable c)
      (fun _ w' => Relation.ReflTransGen (TablesStep c) w.table w'.table) w := by
  unfold buildInterfaceTable
  simp only [post_bind, post_table]
  -- the methods of the extended interfaces are gathered without touching the table
  refine Keeps.post_of_table_eq (keeps_forIn _ _ fun _ _ _ => keeps_bind
    (keeps_forIn _ _ fun _ _ _ => keeps_ite (keeps_pure _) (keeps_pure _)) fun _ => keeps_pure _)
    fun V w1 hw1 => ?_
  refine post_forIn _ (fun rest _ w' => rest <:+ (w.table.cls c).methodOrder ∧
    Relation.ReflTransGen (TablesStep c) w.table w'.table) ⟨List.suffix_refl _, by rw [hw1]⟩ ?_ ?_
  · rintro f rest V w' ⟨hsuf, hsteps⟩
    simp only [post_bind, post_modifyTable, post_pure, stepPost_yield]
    have hf : f ∈ (w'.table.cls c).methodOrder := by
      rw [tables_methodOrder_eq hsteps]
      exact hsuf.subset (by simp)
    exact ⟨(List.suffix_cons f rest).trans hsuf, hsteps.tail (.fn hf fun _ => rfl)⟩
  · rintro V w' ⟨-, hsteps⟩
    simp only [post_modifyTable]
    exact hsteps.tail (.cls fun _ => rfl)

/-- Completing class `c` changes only its tables and its own methods' slots; a class that is not
an interface then lays out its table, every entry inherited or one of its own methods. -/
theorem completeTables_spec {w : TableWork}
    (hready : (w.table.cls c).isInterface = false → VtableReady w.table c) :
    Post (completeTables c) (fun _ w' => Relation.ReflTransGen (TablesStep c) w.table w'.table ∧
      ((w.table.cls c).isInterface = false → w'.table.LaysOut c ∧
        ∀ e ∈ (w'.table.cls c).vtable, e ∈ (w.table.cls c).methodOrder ∨
          ∃ s, (w.table.cls c).superId? = some s ∧ e ∈ (w.table.cls s).vtable)) w := by
  unfold completeTables
  have hmark : ∀ t : SymbolTable, Retags c t (t.modifyClass c fun k => { k with resolved := true }) :=
    fun _ => .mk (fun _ => rfl) fun _ => rfl
  simp only [post_bind, post_table]
  split <;> simp only [post_bind, post_table, post_modifyTable, post_log]
  · rename_i hi
    refine (buildInterfaceTable_steps w).mono fun _ w1 hsteps => ⟨hsteps.tail (hmark _).tablesStep,
      fun h => ?_⟩
    rw [h] at hi
    exact absurd hi (by decide)
  · rename_i hi
    refine (buildVtable_spec (hready (by simpa using hi))).mono fun _ w0 hw0 => ?_
    obtain ⟨hsteps, hlays, hentries⟩ := hw0
    refine Keeps.post_of_steps (Retags c) keeps_buildItables fun _ w1 hw1 => ?_
    have hall := hw1.tail (hmark w1.table)
    refine ⟨hsteps.trans (retags_tables hall), fun _ => ⟨LaysOut.of_retags hall hlays, ?_⟩⟩
    rw [retags_vtable_eq hall]
    exact hentries

end SymbolTable

end AmLang
