import AmLang.Proofs.Dispatch.Build
import Mathlib.Data.Finset.Card
/-!
# The order in which tables are completed

`ensureTables` completes a class after the classes it inherits from: it marks the class done,
completes its superclass and its interfaces, superclass first, and then builds the class's own
tables. A class's table is built from its superclass's, so the order matters; it is right when
the inheritance graph has no cycle.

The search keeps `Ensured`: every class that needs nothing more (`Settled`: built in, or marked
done and no longer on the path of the search) is `Finished`, and every class such a class
inherits from is settled too. Completing a class on the path changes only that class's tables and
its own methods' slots, which no settled class reads, because a class on the path is not one a
settled class inherits from and each method belongs to one class only
(`Finished.of_steps`). Without cycles, a class the search comes back to while it is on the path
would be one that inherits from itself, so every class the search reaches ends settled. The fuel,
one more than the number of classes, bounds the depth of the search: each level marks one more
class done.

## Main results

* `ensureTables_spec` — a search from a class leaves it settled and keeps `Ensured`.
-/

namespace AmLang

namespace SymbolTable

open TableM

variable {t t' t0 : SymbolTable} {c d e : ClassId}

/-! ## The parents of a class -/

theorem inherits_iff_mem_parents : t.Inherits c d ↔ d ∈ (t.cls c).parents := by
  simp [Inherits, ClassSymbol.parents, Option.mem_toList]

theorem SameShape.parents_eq (h : SameShape t t') (d : ClassId) :
    (t'.cls d).parents = (t.cls d).parents := by
  simp only [ClassSymbol.parents, h.superId_eq, h.interfaces_eq]

theorem parents_of_size_le (h : t.classes.size ≤ c) : (t.cls c).parents = [] := by
  rw [cls_of_size_le h]
  rfl

/-- Only a class of the table has parents. -/
theorem lt_size_of_mem_parents (h : d ∈ (t.cls c).parents) : c < t.classes.size := by
  rcases Nat.lt_or_ge c t.classes.size with hc | hc
  · exact hc
  · rw [parents_of_size_le hc] at h
    exact absurd h List.not_mem_nil

/-! ## Owned methods -/

/-- Each method belongs to the class that lists it. -/
def Owned (t : SymbolTable) : Prop :=
  ∀ d f, f ∈ (t.cls d).methodOrder → (t.fn f).owner = some d

theorem Owned.of_sameShape (h : t.Owned) (hs : SameShape t t') : t'.Owned := by
  intro d f hf
  rw [hs.methodOrder_eq] at hf
  rw [hs.owner_eq]
  exact h d f hf

/-- A method of one class is no method of another. -/
theorem Owned.not_mem (h : t.Owned) {f : FunctionId} (hf : f ∈ (t.cls d).methodOrder)
    (hde : d ≠ e) : f ∉ (t.cls e).methodOrder := fun hfe =>
  hde (Option.some.inj ((h d f hf).symm.trans (h e f hfe)))

/-- What the search needs of the table it starts from, besides the absence of cycles: each
method belongs to the class that lists it, no class lists a method twice, every method is a
function of the table, and no class extends an interface. -/
structure Prepared (t : SymbolTable) : Prop where
  owned : t.Owned
  nodup : ∀ d, (t.cls d).methodOrder.Nodup
  valid : ∀ d, ∀ f ∈ (t.cls d).methodOrder, f < t.functions.size
  super_class : ∀ d s, (t.cls d).superId? = some s → (t.cls s).isInterface = false

/-! ## Finished classes -/

/-- Class `c` is finished: if it is not an interface, it lays out its table, and every entry of
the table is a method of `c` or of a class `c` inherits from. -/
structure Finished (t : SymbolTable) (c : ClassId) : Prop where
  laysOut : (t.cls c).isInterface = false → t.LaysOut c
  entries : (t.cls c).isInterface = false → ∀ f ∈ (t.cls c).vtable,
    ∃ o, Relation.ReflTransGen t.Inherits c o ∧ f ∈ (t.cls o).methodOrder

/-- A finished class stays finished while a class it does not inherit from is completed. -/
theorem Finished.of_step (hfin : t.Finished d) (hown : t.Owned) (hstep : TablesStep e t t')
    (hreach : ∀ o, Relation.ReflTransGen t.Inherits d o → o ≠ e) : t'.Finished d := by
  have hshape := SameShape.of_step hstep
  have hcls : t'.cls d = t.cls d := hstep.cls_of_ne fun h => hreach d .refl h.symm
  constructor
  · intro hi
    rw [hcls] at hi
    refine (hfin.laysOut hi).of_frame hshape (by rw [hcls]) (fun s hs => ?_) (fun f hf => ?_)
    · rw [hstep.cls_of_ne fun h => hreach s (.single (.inl hs)) h.symm]
    · -- an entry is a method of a class `d` inherits from, so not one of `e`'s
      obtain ⟨o, ho, hmem⟩ := hfin.entries hi f hf
      exact hstep.fn_of_not_mem (hown.not_mem hmem (hreach o ho))
  · intro hi f hf
    rw [hcls] at hi hf
    obtain ⟨o, ho, hmem⟩ := hfin.entries hi f hf
    exact ⟨o, hshape.inherits_eq ▸ ho, by rw [hshape.methodOrder_eq]; exact hmem⟩

theorem Finished.of_steps (hfin : t.Finished d) (hown : t.Owned)
    (hsteps : Relation.ReflTransGen (TablesStep e) t t')
    (hreach : ∀ o, Relation.ReflTransGen t.Inherits d o → o ≠ e) : t'.Finished d := by
  induction hsteps with
  | refl => exact hfin
  | tail hprev hstep ih =>
    have hshape := SameShape.of_steps hprev
    exact ih.of_step (hown.of_sameShape hshape) hstep (by rw [hshape.inherits_eq]; exact hreach)

/-! ## The search -/

/-- Class `d` needs nothing more: it is built in, or marked done and no longer on the path `P`
of the search. -/
def Settled (t0 : SymbolTable) (D P : List ClassId) (d : ClassId) : Prop :=
  (t0.cls d).isBuiltin = true ∨ (d ∈ D ∧ d ∉ P)

theorem Settled.mono {D D' P : List ClassId} (h : Settled t0 D P d) (hD : D ⊆ D') :
    Settled t0 D' P d :=
  h.imp id fun h' => ⟨hD h'.1, h'.2⟩

/-- The invariant of the search over the table `t0` it started from: the table has the shape of
`t0`, every settled class is finished and inherits only from settled classes, and the path is
marked done. -/
structure Ensured (t0 t : SymbolTable) (D P : List ClassId) : Prop where
  shape : SameShape t0 t
  finished : ∀ d, Settled t0 D P d → t.Finished d
  closed : ∀ d o, Settled t0 D P d → t0.Inherits d o → Settled t0 D P o
  path : ∀ p ∈ P, p ∈ D

namespace Ensured

variable {D P : List ClassId}

/-- Every class a settled class inherits from, directly or not, is settled. -/
theorem reach (h : Ensured t0 t D P) (hd : Settled t0 D P d)
    (ho : Relation.ReflTransGen t0.Inherits d e) : Settled t0 D P e := by
  induction ho with
  | refl => exact hd
  | tail _ hstep ih => exact h.closed _ _ ih hstep

/-- Completing a class that is not settled keeps the invariant. -/
theorem complete (h : Ensured t0 t D P) (hown : t0.Owned) (hc : ¬ Settled t0 D P c)
    (hsteps : Relation.ReflTransGen (TablesStep c) t t') : Ensured t0 t' D P where
  shape := h.shape.trans (SameShape.of_steps hsteps)
  finished d hd := by
    refine (h.finished d hd).of_steps (hown.of_sameShape h.shape) hsteps fun o ho hoc => ?_
    rw [h.shape.inherits_eq] at ho
    exact hc (hoc ▸ h.reach hd ho)
  closed := h.closed
  path := h.path

/-- Marking a class that is not done puts it on the path: nothing becomes settled. -/
theorem push (h : Ensured t0 t D P) (hcD : c ∉ D) : Ensured t0 t (c :: D) (c :: P) := by
  have hiff : ∀ d, Settled t0 (c :: D) (c :: P) d ↔ Settled t0 D P d := by
    intro d
    by_cases hdc : d = c
    · subst hdc
      simp [Settled, hcD]
    · simp [Settled, hdc]
  exact ⟨h.shape, fun d hd => h.finished d ((hiff d).1 hd),
    fun d o hd ho => (hiff o).2 (h.closed d o ((hiff d).1 hd) ho),
    fun p hp => List.mem_cons.2 ((List.mem_cons.1 hp).imp id (h.path p))⟩

/-- What completing class `c` needs, once every class it inherits from is settled. -/
theorem ready (h : Ensured t0 t D P) (hprep : t0.Prepared) (hacyc : t0.Acyclic)
    (hparents : ∀ o, t0.Inherits c o → Settled t0 D P o) : VtableReady t c where
  owner := hprep.owned.of_sameShape h.shape
  nodup := by
    rw [h.shape.methodOrder_eq]
    exact hprep.nodup c
  valid f hf := by
    rw [h.shape.methodOrder_eq] at hf
    rw [h.shape.functions_size]
    exact hprep.valid c f hf
  not_self hc := by
    rw [h.shape.superId_eq] at hc
    exact hacyc c (.single (.inl hc))
  super_slot s hs i b hb := by
    rw [h.shape.superId_eq] at hs
    have hfin := h.finished s (hparents s (.inl hs))
    have hsi : (t.cls s).isInterface = false := by
      rw [h.shape.isInterface_eq]
      exact hprep.super_class c s hs
    refine ⟨(hfin.laysOut hsi).slot_eq i b hb, fun hbc => ?_⟩
    -- an inherited method of `c` is a method of a class the superclass inherits from; were it
    -- one of `c`'s, that class would be `c`, which would inherit from itself
    obtain ⟨o, ho, hmem⟩ := hfin.entries hsi b (List.mem_of_getElem? hb)
    have hown := hprep.owned.of_sameShape h.shape
    have hoc : o = c := Option.some.inj ((hown o b hmem).symm.trans (hown c b hbc))
    rw [h.shape.inherits_eq, hoc] at ho
    exact hacyc c (Relation.TransGen.head' (.inl hs) ho)

/-- A class completed once the classes it inherits from are settled is finished. -/
theorem finished_of_complete (h : Ensured t0 t D P) (hprep : t0.Prepared)
    (hparents : ∀ o, t0.Inherits c o → Settled t0 D P o)
    (hsteps : Relation.ReflTransGen (TablesStep c) t t')
    (hbuilt : (t.cls c).isInterface = false → t'.LaysOut c ∧ ∀ f ∈ (t'.cls c).vtable,
      f ∈ (t.cls c).methodOrder ∨ ∃ s, (t.cls c).superId? = some s ∧ f ∈ (t.cls s).vtable) :
    t'.Finished c := by
  have hshape := SameShape.of_steps hsteps
  constructor
  · intro hi
    rw [hshape.isInterface_eq] at hi
    exact (hbuilt hi).1
  · intro hi f hf
    rw [hshape.isInterface_eq] at hi
    rw [hshape.inherits_eq]
    rcases (hbuilt hi).2 f hf with hown | ⟨s, hs, hfs⟩
    · exact ⟨c, .refl, by rw [hshape.methodOrder_eq]; exact hown⟩
    · -- an inherited entry is a method of a class the finished superclass inherits from
      have hs0 : (t0.cls c).superId? = some s := by rw [← h.shape.superId_eq]; exact hs
      have hfin := h.finished s (hparents s (.inl hs0))
      have hsi : (t.cls s).isInterface = false := by
        rw [h.shape.isInterface_eq]
        exact hprep.super_class c s hs0
      obtain ⟨o, ho, hmem⟩ := hfin.entries hsi f hfs
      exact ⟨o, .head (.inl hs) ho, by rw [hshape.methodOrder_eq]; exact hmem⟩

/-- Once the class on top of the path is finished and the classes it inherits from are settled,
it leaves the path settled. -/
theorem pop (h : Ensured t0 t D (c :: P)) (hcD : c ∈ D) (hcP : c ∉ P) (hfin : t.Finished c)
    (hparents : ∀ o, t0.Inherits c o → Settled t0 D (c :: P) o) : Ensured t0 t D P := by
  have hiff : ∀ d, d ≠ c → (Settled t0 D P d ↔ Settled t0 D (c :: P) d) := by
    intro d hdc
    simp [Settled, hdc]
  have hlift : ∀ d, Settled t0 D (c :: P) d → Settled t0 D P d := fun d hd =>
    hd.imp id fun h' => ⟨h'.1, fun hp => h'.2 (List.mem_cons_of_mem c hp)⟩
  refine ⟨h.shape, fun d hd => ?_, fun d o hd ho => ?_,
    fun p hp => h.path p (List.mem_cons_of_mem c hp)⟩
  · by_cases hdc : d = c
    · exact hdc ▸ hfin
    · exact h.finished d ((hiff d hdc).1 hd)
  · by_cases hdc : d = c
    · subst hdc
      exact hlift o (hparents o ho)
    · exact hlift o (h.closed d o ((hiff d hdc).1 hd) ho)

end Ensured

/-! ## Counting the classes not yet done -/

/-- The classes of `t` not marked done. -/
def undone (t : SymbolTable) (D : List ClassId) : Finset ClassId :=
  (Finset.range t.classes.size).filter (· ∉ D)

theorem undone_anti {D D' : List ClassId} (h : D ⊆ D') : t.undone D' ⊆ t.undone D := by
  intro x hx
  simp only [undone, Finset.mem_filter, Finset.mem_range] at hx ⊢
  exact ⟨hx.1, fun hxD => hx.2 (h hxD)⟩

/-- Marking a class of the table done leaves fewer classes undone. -/
theorem card_undone_cons_lt {D : List ClassId} (hc : c < t.classes.size) (hcD : c ∉ D) :
    (t.undone (c :: D)).card < (t.undone D).card := by
  refine Finset.card_lt_card ⟨undone_anti (List.subset_cons_self c D), fun hsub => ?_⟩
  have hmem : c ∈ t.undone D := by simp [undone, hc, hcD]
  simpa [undone] using hsub hmem

/-! ## The search -/

/-- A search from class `c` that is not on the path leaves `c` settled and keeps the invariant,
given fuel for more levels than there are classes not yet done. -/
theorem ensureTables_spec (hprep : t0.Prepared) (hacyc : t0.Acyclic) (fuel : Nat) :
    ∀ (c : ClassId) (D P : List ClassId) (w : TableWork), Ensured t0 w.table D P →
      (t0.undone D).card < fuel → (∀ p ∈ P, ¬ Relation.ReflTransGen t0.Inherits c p) →
      Post (ensureTables fuel c D)
        (fun D' w' => Ensured t0 w'.table D' P ∧ D ⊆ D' ∧ Settled t0 D' P c) w := by
  induction fuel with
  | zero =>
    intro c D P w _ hfuel
    exact absurd hfuel (Nat.not_lt_zero _)
  | succ fuel ih =>
    intro c D P w hens hfuel hpath
    have hcP : c ∉ P := fun hc => hpath c hc .refl
    unfold ensureTables
    simp only [post_bind, post_table]
    split
    · -- a built-in class, or one already done
      rename_i hdone
      simp only [Bool.or_eq_true, List.contains_iff_mem] at hdone
      refine ⟨hens, List.Subset.refl _, ?_⟩
      rcases hdone with hb | hD
      · exact .inl (by rw [← hens.shape.isBuiltin_eq]; exact hb)
      · exact .inr ⟨hD, hcP⟩
    · rename_i hnew
      simp only [Bool.or_eq_true, List.contains_iff_mem, not_or] at hnew
      obtain ⟨hb, hcD⟩ := hnew
      have hb0 : (t0.cls c).isBuiltin = false := by
        rw [← hens.shape.isBuiltin_eq]
        simpa using hb
      have hunsettled : ∀ {D'}, ¬ Settled t0 D' (c :: P) c := fun hc =>
        hc.elim (fun h => by simp [hb0] at h) fun h => h.2 (List.mem_cons_self)
      have hparent : ∀ d ∈ (w.table.cls c).parents, t0.Inherits c d := fun d hd =>
        inherits_iff_mem_parents.2 (hens.shape.parents_eq c ▸ hd)
      have hparents : ∀ {D'}, (∀ d ∈ (w.table.cls c).parents, Settled t0 D' (c :: P) d) →
          ∀ o, t0.Inherits c o → Settled t0 D' (c :: P) o := fun h o ho =>
        h o (hens.shape.parents_eq c ▸ inherits_iff_mem_parents.1 ho)
      simp only [post_bind]
      -- the parents first, each searched with `c` on the path
      refine post_forIn _ (fun rest D' w' => rest <:+ (w.table.cls c).parents ∧
          Ensured t0 w'.table D' (c :: P) ∧ c :: D ⊆ D' ∧
          ∀ d ∈ (w.table.cls c).parents, d ∈ rest ∨ Settled t0 D' (c :: P) d)
        ⟨List.suffix_refl _, hens.push hcD, List.Subset.refl _, fun d hd => .inl hd⟩ ?_ ?_
      · rintro d rest D' w' ⟨hsuf, hens', hsub, hdone⟩
        simp only [post_bind, post_pure, stepPost_yield]
        have hd : d ∈ (w.table.cls c).parents := hsuf.subset (by simp)
        have hc : c < t0.classes.size := hens.shape.classes_size ▸ lt_size_of_mem_parents hd
        have hfuel' : (t0.undone D').card < fuel :=
          calc (t0.undone D').card ≤ (t0.undone (c :: D)).card := Finset.card_le_card (undone_anti hsub)
            _ < (t0.undone D).card := card_undone_cons_lt hc hcD
            _ ≤ fuel := Nat.le_of_lt_succ hfuel
        -- `d` reaches nothing on the path: `c` would inherit from itself, or `c` would reach
        -- the path
        have hpath' : ∀ p ∈ c :: P, ¬ Relation.ReflTransGen t0.Inherits d p := by
          intro p hp hdp
          rcases List.mem_cons.1 hp with rfl | hp
          · exact hacyc p (Relation.TransGen.head' (hparent d hd) hdp)
          · exact hpath p hp (.head (hparent d hd) hdp)
        refine (ih d D' (c :: P) w' hens' hfuel' hpath').mono fun D'' w'' hw'' => ?_
        obtain ⟨hens'', hsub', hsettled⟩ := hw''
        refine ⟨(List.suffix_cons d rest).trans hsuf, hens'', fun x hx => hsub' (hsub hx), fun d' hd' => ?_⟩
        rcases hdone d' hd' with hrest | hs
        · rcases List.mem_cons.1 hrest with rfl | hrest
          · exact .inr hsettled
          · exact .inl hrest
        · exact .inr (hs.mono hsub')
      · rintro D' w' ⟨-, hens', hsub, hdone⟩
        have hparents' := hparents fun d hd => (hdone d hd).resolve_left List.not_mem_nil
        -- then the class itself, which leaves the path finished
        refine (completeTables_spec fun _ => hens'.ready hprep hacyc hparents').mono
          fun _ w'' hw'' => ?_
        obtain ⟨hsteps, hbuilt⟩ := hw''
        simp only [post_pure]
        have hcD' : c ∈ D' := hsub List.mem_cons_self
        have hfin := hens'.finished_of_complete hprep hparents' hsteps hbuilt
        refine ⟨((hens'.complete hprep.owned hunsettled hsteps).pop hcD' hcP hfin hparents'),
          fun x hx => hsub (List.mem_cons_of_mem c hx), .inr ⟨hcD', hcP⟩⟩

end SymbolTable

end AmLang
