import AmLang.Proofs.Dispatch.Resolution
import AmLang.Proofs.Symbols.CNames
import Mathlib.Data.Finset.Card
/-!
# Cutting inheritance cycles

Once the supertypes of the user classes are linked, a depth-first search over the superclass and
interface edges cuts each edge that leads back into the path it is on: a superclass edge is
replaced by one to `Object`, an interface edge is dropped (`breakCycles`, `visitForCycles`,
`checkEdge`). A class is marked active while the search is inside it, and done once all its edges
are checked.

The search keeps `Cutting`: the table differs from the one it started from only in the supertypes
of marked classes; each edge is one of the first table or leads to `Object`; each edge of the
first table that is missing leads back to where it starts, along edges of the first table; and a
class marked done inherits only from classes that are built in or done (`Searched`), along chains
of supertypes that all end (`Grounded`). A class is done once each of its kept edges leads to a
searched class, so it is grounded too. Every class on the path reaches the class being searched,
so an edge into the path closes a cycle of the first table.

The fuel, one more than the number of classes, bounds the depth: each level below the first
marks one more class of the table.

## Main results

* `visitForCycles_spec` — a search from an unmarked user class leaves it done, keeps `Cutting`
  and the marks it started with, and changes no class marked before it.
* `breakCycles_cuts_cycles` — after the searches from every user class the inheritance graph is
  acyclic, each of its edges is one of the graph before or leads to `Object`, and each edge of
  the graph before that is missing closes a cycle of it.
-/

namespace AmLang

namespace SymbolTable

open TableM

/-- The search's marks compare as they are equal. -/
instance : LawfulBEq Mark where
  eq_of_beq {a b} h := by cases a <;> cases b <;> first | rfl | exact absurd h (by decide)
  rfl {a} := by cases a <;> rfl

variable {t t' t'' t0 : SymbolTable} {c d e p x y : ClassId} {M M' M'' : List (ClassId × Mark)}

/-! ## Marks -/

@[simp] theorem markOf_nil (d : ClassId) : markOf [] d = none := rfl

theorem markOf_cons (m : Mark) (M : List (ClassId × Mark)) (d : ClassId) :
    markOf ((e, m) :: M) d = if e = d then some m else markOf M d := by
  by_cases h : e = d <;> simp [markOf, h]

@[simp] theorem markOf_cons_self (m : Mark) (M : List (ClassId × Mark)) :
    markOf ((e, m) :: M) e = some m := by
  simp [markOf_cons]

theorem markOf_cons_of_ne (h : e ≠ d) (m : Mark) (M : List (ClassId × Mark)) :
    markOf ((e, m) :: M) d = markOf M d := by
  simp [markOf_cons, h]

/-- The marks name a class exactly when it has a mark. -/
theorem any_fst_eq_iff : (M.any (·.1 == d)) = true ↔ markOf M d ≠ none := by
  simp [markOf, List.any_eq_true, List.find?_eq_none]

/-- The marks `M'` keep every mark of `M` and put no other class on the path. -/
structure Extends (M M' : List (ClassId × Mark)) : Prop where
  keep : ∀ d m, markOf M d = some m → markOf M' d = some m
  path : ∀ d, markOf M' d = some .active → markOf M d = some .active

namespace Extends

theorem refl (M : List (ClassId × Mark)) : Extends M M := ⟨fun _ _ h => h, fun _ h => h⟩

theorem trans (h : Extends M M') (h' : Extends M' M'') : Extends M M'' :=
  ⟨fun d m hm => h'.keep d m (h.keep d m hm), fun d hd => h.path d (h'.path d hd)⟩

theorem marked (h : Extends M M') (hd : markOf M d ≠ none) : markOf M' d ≠ none := by
  obtain ⟨m, hm⟩ := Option.ne_none_iff_exists'.1 hd
  simp [h.keep d m hm]

/-- A search that starts at an unmarked class and leaves it done puts no class on the path. -/
theorem finish (hfresh : markOf M c = none) (h : Extends ((c, .active) :: M) M') :
    Extends M ((c, .done) :: M') := by
  constructor
  · intro d m hm
    have hcd : c ≠ d := by
      rintro rfl
      simp [hfresh] at hm
    rw [markOf_cons_of_ne hcd]
    exact h.keep d m (by rw [markOf_cons_of_ne hcd]; exact hm)
  · intro d hd
    have hcd : c ≠ d := by
      rintro rfl
      simp at hd
    rw [markOf_cons_of_ne hcd] at hd
    simpa [markOf_cons_of_ne hcd] using h.path d hd

end Extends

/-- The classes marked in `M` are in `t'` as they were in `t`. -/
def Untouched (M : List (ClassId × Mark)) (t t' : SymbolTable) : Prop :=
  ∀ d, markOf M d ≠ none → t'.cls d = t.cls d

theorem Untouched.refl (M : List (ClassId × Mark)) (t : SymbolTable) : Untouched M t t :=
  fun _ _ => rfl

theorem Untouched.trans (h : Untouched M t t') (h' : Untouched M' t' t'') (hext : Extends M M') :
    Untouched M t t'' :=
  fun d hd => (h' d (hext.marked hd)).trans (h d hd)

/-! ## Counting the unmarked classes -/

/-- The classes among the first `n` that the marks do not name. -/
def unmarked (n : Nat) (M : List (ClassId × Mark)) : Finset ClassId :=
  (Finset.range n).filter fun d => (markOf M d).isNone

theorem card_unmarked_le (h : Extends M M') (n : Nat) :
    (unmarked n M').card ≤ (unmarked n M).card := by
  refine Finset.card_le_card fun d hd => ?_
  simp only [unmarked, Finset.mem_filter, Finset.mem_range, Option.isNone_iff_eq_none] at hd ⊢
  exact ⟨hd.1, Classical.byContradiction fun hm => h.marked hm hd.2⟩

/-- Marking a class of the table leaves fewer classes unmarked. -/
theorem card_unmarked_cons_lt {n : Nat} (hc : c < n) (hfresh : markOf M c = none) (m : Mark) :
    (unmarked n ((c, m) :: M)).card < (unmarked n M).card := by
  refine Finset.card_lt_card ⟨fun d hd => ?_, fun hsub => ?_⟩
  · simp only [unmarked, Finset.mem_filter, Finset.mem_range, Option.isNone_iff_eq_none,
      markOf_cons] at hd ⊢
    refine ⟨hd.1, ?_⟩
    have h2 := hd.2
    split at h2
    · cases h2
    · exact h2
  · have hmem : c ∈ unmarked n M := by simp [unmarked, hc, hfresh]
    simpa [unmarked] using hsub hmem

/-! ## Chains of supertypes that end -/

/-- Every chain of supertypes from class `c` ends. -/
def Grounded (t : SymbolTable) (c : ClassId) : Prop := Acc (fun d e => t.Inherits e d) c

theorem grounded_of_inherits (h : ∀ d, t.Inherits c d → t.Grounded d) : t.Grounded c :=
  Acc.intro c h

/-- A class whose chains of supertypes all end does not inherit from itself. -/
theorem Grounded.not_cycle (h : t.Grounded c) : ¬ Relation.TransGen t.Inherits c c := by
  induction h with
  | intro c _ ih =>
    intro hcyc
    obtain ⟨d, hcd, hdc⟩ := Relation.TransGen.head'_iff.1 hcyc
    exact ih d hcd (Relation.TransGen.tail' hdc hcd)

/-- Grounding carries over to a table whose edges from a set of classes that the edges do not
leave are edges of the first table. -/
theorem Grounded.of_agree (S : ClassId → Prop) (hclosed : ∀ x y, S x → t.Inherits x y → S y)
    (hagree : ∀ x y, S x → t'.Inherits x y → t.Inherits x y) (h : t.Grounded c) (hc : S c) :
    t'.Grounded c := by
  induction h with
  | intro c _ ih =>
    exact Acc.intro c fun d hd =>
      have hd' := hagree c d hc hd
      ih d hd' (hclosed c d hc hd')

theorem acyclic_of_grounded (h : ∀ c, t.Grounded c) : t.Acyclic := fun c => (h c).not_cycle

/-- A class out of the table has no supertype. -/
theorem not_inherits_of_size_le (h : t.classes.size ≤ c) : ¬ t.Inherits c d := by
  rintro (hsup | ⟨i, hi, -⟩)
  · rw [superId_of_size_le h] at hsup
    cases hsup
  · rw [cls_of_size_le h] at hi
    exact absurd hi List.not_mem_nil

/-- Only a class of the table has a superclass. -/
theorem lt_size_of_superclass {s : Ty} (h : (t.cls c).superclass = some s) :
    c < t.classes.size := by
  rcases Nat.lt_or_ge c t.classes.size with hc | hc
  · exact hc
  · rw [cls_of_size_le hc] at h
    cases h

theorem lt_size_of_superId (h : (t.cls c).superId? = some y) : c < t.classes.size := by
  rcases Nat.lt_or_ge c t.classes.size with hc | hc
  · exact hc
  · rw [superId_of_size_le hc] at h
    cases h

/-- Only a class of the table has interfaces. -/
theorem lt_size_of_mem_interfaces {i : Ty} (h : i ∈ (t.cls c).interfaces) :
    c < t.classes.size := by
  rcases Nat.lt_or_ge c t.classes.size with hc | hc
  · exact hc
  · rw [cls_of_size_le hc] at h
    exact absurd h List.not_mem_nil

/-- A class whose superclass is cut to `Object` inherits from `Object` and its interfaces. -/
theorem inherits_cutSuper (hc : c < t.classes.size) :
    (t.modifyClass c fun k => { k with superclass := some (objectType false) }).Inherits c y ↔
      y = objectClass ∨ ∃ i ∈ (t.cls c).interfaces, i.classOf? = some y := by
  simp [Inherits, cls_modifyClass_self hc, ClassSymbol.superId?, objectType, Ty.classOf?, eq_comm]

theorem superId_cutSuper (hc : c < t.classes.size) :
    ((t.modifyClass c fun k => { k with superclass := some (objectType false) }).cls c).superId? =
      some objectClass := by
  rw [cls_modifyClass_self hc]
  rfl

/-- A class given some of its interfaces inherits from its superclass and those. -/
theorem inherits_setInterfaces {l : List Ty} (hl : ∀ i ∈ l, i ∈ (t.cls c).interfaces) :
    (t.modifyClass c fun k => { k with interfaces := l }).Inherits c y ↔
      (t.cls c).superId? = some y ∨ ∃ i ∈ l, i.classOf? = some y := by
  rcases Nat.lt_or_ge c t.classes.size with hc | hc
  · simp [Inherits, cls_modifyClass_self hc, ClassSymbol.superId?]
  · -- out of the table nothing changes, and there is no supertype to keep
    have hnil : l = [] := List.eq_nil_iff_forall_not_mem.2 fun i hi => by
      have hi' := hl i hi
      rw [cls_of_size_le hc] at hi'
      exact absurd hi' List.not_mem_nil
    subst hnil
    have hsame : (t.modifyClass c fun k => { k with interfaces := [] }).cls c = t.cls c := by
      rw [cls_modifyClass]
      simp [Nat.not_lt.2 hc]
    constructor
    · intro h'
      simp only [Inherits, hsame] at h'
      exact absurd h' (not_inherits_of_size_le hc)
    · rintro (h' | ⟨i, hi, -⟩)
      · rw [superId_of_size_le hc] at h'
        cases h'
      · exact absurd hi List.not_mem_nil

/-! ## The invariant of the search -/

/-- Class `d` needs no search: it is built in, or marked done. -/
def Searched (t0 : SymbolTable) (M : List (ClassId × Mark)) (d : ClassId) : Prop :=
  (t0.cls d).isBuiltin = true ∨ markOf M d = some .done

theorem Searched.mono (h : Searched t0 M d) (hext : Extends M M') : Searched t0 M' d :=
  h.imp id (hext.keep d _)

theorem Searched.finish (h : Searched t0 M d) : Searched t0 ((c, .done) :: M) d :=
  h.imp id fun hd => by
    rw [markOf_cons]
    split <;> simp [hd]

/-- What the search keeps, over the table `t0` it started from: the table `t` differs from `t0`
only in the supertypes of marked classes, which are user classes; each edge of `t` is one of `t0`
or leads to `Object`; each edge of `t0` missing from `t` leads back to where it starts; and a
class marked done inherits only from searched classes, along chains that all end. -/
structure Cutting (t0 t : SymbolTable) (M : List (ClassId × Mark)) : Prop where
  size_eq : t.classes.size = t0.classes.size
  builtin_eq : ∀ d, (t.cls d).isBuiltin = (t0.cls d).isBuiltin
  unmarked : ∀ d, markOf M d = none → t.cls d = t0.cls d
  user : ∀ d, markOf M d ≠ none → (t0.cls d).isBuiltin = false
  kept : ∀ c d, t.Inherits c d → t0.Inherits c d ∨ d = objectClass
  cut : ∀ c d, t0.Inherits c d → ¬ t.Inherits c d → Relation.ReflTransGen t0.Inherits d c
  closed : ∀ c d, markOf M c = some .done → t.Inherits c d → Searched t0 M d
  grounded : ∀ c, markOf M c = some .done → t.Grounded c

namespace Cutting

theorem start : Cutting t0 t0 [] where
  size_eq := rfl
  builtin_eq _ := rfl
  unmarked _ _ := rfl
  user _ h := absurd rfl h
  kept _ _ h := .inl h
  cut _ _ h h' := absurd h h'
  closed _ _ h := by simp at h
  grounded _ h := by simp at h

section

variable (h : Cutting t0 t M)
include h

/-- A built-in class is never marked, so it is as it was. -/
theorem cls_of_builtin (hb : (t0.cls d).isBuiltin = true) : t.cls d = t0.cls d :=
  h.unmarked d (Classical.byContradiction fun hm => by simp [h.user d hm] at hb)

theorem inherits_of_builtin (hb : (t0.cls d).isBuiltin = true) :
    t.Inherits d y ↔ t0.Inherits d y := by
  simp only [Inherits, h.cls_of_builtin hb]

/-- A class on the path is marked, so no built-in class, and not done. -/
theorem ne_of_searched (hc : markOf M c = some .active) (hd : Searched t0 M d) : d ≠ c := by
  rintro rfl
  rcases hd with hb | hdone
  · simp [h.user d (by simp [hc])] at hb
  · simp [hc] at hdone

/-- The searched classes are closed under the edges of the table. -/
theorem searched_closed (h0 : t0.Declared) (hx : Searched t0 M x) (hxy : t.Inherits x y) :
    Searched t0 M y := by
  rcases hx with hb | hdone
  · obtain rfl := h0.inherits_of_lt (h0.lt_of_builtin hb) ((h.inherits_of_builtin hb).1 hxy)
    exact .inl (h0.builtin_of_lt (by decide))
  · exact h.closed x y hdone hxy

/-- The chains of supertypes from a searched class all end: from a built-in class they lead to
`Object`, which has no supertype. -/
theorem grounded_of_searched (h0 : t0.Declared) (hd : Searched t0 M d) : t.Grounded d := by
  rcases hd with hb | hdone
  · refine grounded_of_inherits fun y hy => ?_
    obtain rfl := h0.inherits_of_lt (h0.lt_of_builtin hb) ((h.inherits_of_builtin hb).1 hy)
    refine grounded_of_inherits fun z hz => ?_
    have hob : (t0.cls objectClass).isBuiltin = true := h0.builtin_of_lt (by decide)
    exact absurd ((h.inherits_of_builtin hob).1 hz) (h0.not_inherits_object z)
  · exact h.grounded d hdone

/-- Putting an unmarked user class on the path. -/
theorem push (hfresh : markOf M c = none) (huser : (t0.cls c).isBuiltin = false) :
    Cutting t0 t ((c, .active) :: M) := by
  -- no class is done that was not before
  have hdone : ∀ d, markOf ((c, .active) :: M) d = some .done ↔ markOf M d = some .done := by
    intro d
    by_cases hcd : c = d
    · subst hcd
      simp [hfresh]
    · rw [markOf_cons_of_ne hcd]
  refine ⟨h.size_eq, h.builtin_eq, fun d hd => ?_, fun d hd => ?_, h.kept, h.cut,
    fun x y hx hxy => ?_, fun x hx => h.grounded x ((hdone x).1 hx)⟩
  · by_cases hcd : c = d
    · subst hcd
      simp at hd
    · exact h.unmarked d (by rwa [markOf_cons_of_ne hcd] at hd)
  · by_cases hcd : c = d
    · exact hcd ▸ huser
    · exact h.user d (by rwa [markOf_cons_of_ne hcd] at hd)
  · exact (h.closed x y ((hdone x).1 hx) hxy).imp id (hdone y).2

/-- Changing the supertypes of the class on top of the path keeps the invariant when each new
edge is one of `t0` or leads to `Object`, and each edge of `t0` it drops leads back to it. -/
theorem modifyClass (h0 : t0.Declared) {g : ClassSymbol → ClassSymbol}
    (hc : markOf M c = some .active) (hb : ∀ k, (g k).isBuiltin = k.isBuiltin)
    (hkept : ∀ y, (t.modifyClass c g).Inherits c y → t0.Inherits c y ∨ y = objectClass)
    (hcut : ∀ y, t0.Inherits c y → ¬ (t.modifyClass c g).Inherits c y →
      Relation.ReflTransGen t0.Inherits y c) :
    Cutting t0 (t.modifyClass c g) M := by
  have hsame : ∀ x y, x ≠ c → ((t.modifyClass c g).Inherits x y ↔ t.Inherits x y) :=
    fun x y hx => by simp only [Inherits, cls_modifyClass_of_ne (Ne.symm hx)]
  refine ⟨by simp [h.size_eq], fun d => ?_, fun d hd => ?_, h.user, fun x y hxy => ?_,
    fun x y hxy hnot => ?_, fun x y hx hxy => ?_, fun x hx => ?_⟩
  · rw [cls_modifyClass]
    split <;> simp [hb, h.builtin_eq]
  · have hcd : c ≠ d := by
      rintro rfl
      simp [hc] at hd
    rw [cls_modifyClass_of_ne hcd]
    exact h.unmarked d hd
  · by_cases hx : x = c
    · subst hx
      exact hkept y hxy
    · exact h.kept x y ((hsame x y hx).1 hxy)
  · by_cases hx : x = c
    · subst hx
      exact hcut y hxy hnot
    · exact h.cut x y hxy fun h' => hnot ((hsame x y hx).2 h')
  · exact h.closed x y hx ((hsame x y (h.ne_of_searched hc (.inr hx))).1 hxy)
  · -- the searched classes keep their edges, and the edges do not leave them
    exact Grounded.of_agree (Searched t0 M) (fun a b ha hab => h.searched_closed h0 ha hab)
      (fun a b ha hab => (hsame a b (h.ne_of_searched hc ha)).1 hab) (h.grounded x hx) (.inr hx)

/-- Cutting the superclass edge of the class on top of the path to one to `Object` keeps the
invariant when the edge leads back into the path. -/
theorem cutSuperclass (h0 : t0.Declared) (hc : markOf M c = some .active)
    (hcls : t.cls c = t0.cls c) (hsup : (t0.cls c).superId? = some y)
    (hback : Relation.ReflTransGen t0.Inherits y c) :
    Cutting t0 (t.modifyClass c fun k => { k with superclass := some (objectType false) }) M := by
  have hcs : c < t.classes.size := h.size_eq ▸ lt_size_of_superId hsup
  refine h.modifyClass h0 hc (fun _ => rfl) (fun z hz => ?_) (fun z hz hnot => ?_)
  · rcases (inherits_cutSuper hcs).1 hz with rfl | ⟨i, hi, hiz⟩
    · exact .inr rfl
    · exact .inl (.inr ⟨i, hcls ▸ hi, hiz⟩)
  · rcases hz with hsup' | ⟨i, hi, hiz⟩
    · -- the superclass edge is the one cut
      obtain rfl : y = z := Option.some.inj (hsup.symm.trans hsup')
      exact hback
    · exact absurd ((inherits_cutSuper hcs).2 (.inr ⟨i, hcls ▸ hi, hiz⟩)) hnot

/-- The class on top of the path is done once each of its edges leads to a searched class. -/
theorem finish (h0 : t0.Declared) (hc : markOf M c = some .active)
    (hedges : ∀ y, t.Inherits c y → Searched t0 M y) : Cutting t0 t ((c, .done) :: M) := by
  refine ⟨h.size_eq, h.builtin_eq, fun d hd => ?_, fun d hd => ?_, h.kept, h.cut,
    fun x y hx hxy => ?_, fun x hx => ?_⟩
  · by_cases hcd : c = d
    · subst hcd
      simp at hd
    · exact h.unmarked d (by rwa [markOf_cons_of_ne hcd] at hd)
  · by_cases hcd : c = d
    · subst hcd
      exact h.user c (by simp [hc])
    · exact h.user d (by rwa [markOf_cons_of_ne hcd] at hd)
  · by_cases hcx : c = x
    · subst hcx
      exact (hedges y hxy).finish
    · rw [markOf_cons_of_ne hcx] at hx
      exact (h.closed x y hx hxy).finish
  · by_cases hcx : c = x
    · subst hcx
      exact grounded_of_inherits fun y hy => h.grounded_of_searched h0 (hedges y hy)
    · rw [markOf_cons_of_ne hcx] at hx
      exact h.grounded x hx

end

end Cutting

/-! ## One edge -/

/-- What a search from class `c` with marks `M` over table `t` needs: the invariant, `c` an
unmarked user class, every class on the path reaching `c` in `t0`, and more fuel than there are
unmarked classes. -/
structure CanVisit (t0 : SymbolTable) (fuel : Nat) (c : ClassId) (M : List (ClassId × Mark))
    (t : SymbolTable) : Prop where
  cutting : Cutting t0 t M
  fresh : markOf M c = none
  user : (t0.cls c).isBuiltin = false
  path : ∀ d, markOf M d = some .active → Relation.ReflTransGen t0.Inherits d c
  fuel : (unmarked t0.classes.size M).card < fuel

/-- What a search from class `c` that started with marks `M` over table `t` leaves: the
invariant, the marks of `M` with nothing more on the path, the classes marked in `M` as they
were, and `c` done. -/
structure Visited (t0 : SymbolTable) (c : ClassId) (M : List (ClassId × Mark)) (t : SymbolTable)
    (M' : List (ClassId × Mark)) (t' : SymbolTable) : Prop where
  cutting : Cutting t0 t' M'
  ext : Extends M M'
  untouched : Untouched M t t'
  done : markOf M' c = some .done

/-- The search with `fuel` levels does what it should. -/
def VisitSpec (t0 : SymbolTable) (fuel : Nat) : Prop :=
  ∀ c M w, CanVisit t0 fuel c M w.table →
    Post (visitForCycles fuel c M) (fun M' w' => Visited t0 c M w.table M' w'.table) w

/-- What checking an edge to `target` with marks `M` over table `t` leaves: the invariant, the
marks of `M` with nothing more on the path, the classes marked in `M` as they were, and the edge
kept when its target needs no search, cut only when its target is on the path. -/
structure EdgeChecked (t0 : SymbolTable) (M : List (ClassId × Mark)) (t : SymbolTable)
    (target : Option ClassId) (r : Bool × List (ClassId × Mark)) (t' : SymbolTable) : Prop where
  cutting : Cutting t0 t' r.2
  ext : Extends M r.2
  untouched : Untouched M t t'
  kept : ∀ y, target = some y → r.1 = true → Searched t0 r.2 y
  cut : r.1 = false → ∃ y, target = some y ∧ markOf M y = some .active

/-- No edge at all is kept, with nothing changed. -/
theorem EdgeChecked.none (h : Cutting t0 t M) : EdgeChecked t0 M t none (true, M) t :=
  ⟨h, .refl M, .refl M t, fun _ hy => by simp at hy, fun h => by simp at h⟩

theorem checkEdge_spec (hvisit : VisitSpec t0 fuel) (k : ClassSymbol) (edge : Ty) (w : TableWork)
    (hcut : Cutting t0 w.table M) (hedge : ∀ y, edge.classOf? = some y → t0.Inherits p y)
    (hpath : ∀ d, markOf M d = some .active → Relation.ReflTransGen t0.Inherits d p)
    (hfuel : (unmarked t0.classes.size M).card < fuel) :
    Post (checkEdge (visitForCycles fuel) k edge M)
      (fun r w' => EdgeChecked t0 M w.table edge.classOf? r w'.table) w := by
  unfold checkEdge
  split
  · next y hy =>
    -- the edge leads to `y`, which is kept unless it is on the path
    have hkept : ∀ (M' : List (ClassId × Mark)), Searched t0 M' y →
        ∀ y', edge.classOf? = some y' → Searched t0 M' y' := fun M' hs y' hy' => by
      obtain rfl : y = y' := Option.some.inj (hy.symm.trans hy')
      exact hs
    rw [post_bind]
    simp only [post_table]
    split
    · next hb =>
      rw [post_pure]
      exact ⟨hcut, .refl M, .refl M _, fun y' hy' _ =>
        hkept M (.inl (by rw [← hcut.builtin_eq]; exact hb)) y' hy', fun h => by simp at h⟩
    · next hb =>
      split
      · next hact =>
        rw [post_bind, post_report, post_pure]
        exact ⟨hcut, .refl M, .refl M _, fun _ _ h => by simp at h,
          fun _ => ⟨y, hy, by simpa using hact⟩⟩
      · next hact =>
        split
        · next hnone =>
          -- an unmarked target is searched now, one level further down the path
          have hfresh : markOf M y = none := by simpa using hnone
          have huser : (t0.cls y).isBuiltin = false := by
            rw [← hcut.builtin_eq]
            simpa using hb
          rw [post_bind]
          refine (hvisit y M w ⟨hcut, hfresh, huser, fun d hd => (hpath d hd).tail (hedge y hy),
            hfuel⟩).mono fun M' w' hv => ?_
          rw [post_pure]
          exact ⟨hv.cutting, hv.ext, hv.untouched, fun y' hy' _ => hkept M' (.inr hv.done) y' hy',
            fun h => by simp at h⟩
        · next hnone =>
          -- a target neither on the path nor unmarked is done
          have hdone : markOf M y = some .done := by
            cases hm : markOf M y with
            | none => simp [hm] at hnone
            | some m => cases m <;> simp_all
          rw [post_pure]
          exact ⟨hcut, .refl M, .refl M _, fun y' hy' _ => hkept M (.inr hdone) y' hy',
            fun h => by simp at h⟩
  · next _ hnone =>
    have hnone' : edge.classOf? = none := Option.eq_none_iff_forall_ne_some.2 hnone
    rw [post_pure]
    show EdgeChecked t0 M w.table edge.classOf? (true, M) w.table
    rw [hnone']
    exact EdgeChecked.none hcut

/-! ## The interfaces of a class -/

/-- The interface edges `L` of a class checked so far by a search that had marks `M2` over
table `t2` after the superclass edge, with `rest` still to check and `s` the marks and the kept
interfaces: the invariant, the marks of `M2` with nothing more on the path, the classes marked in
`M2` as they were, every kept interface leading to a searched class, and every checked interface
kept or leading into the path. -/
structure InterfacesChecked (t0 : SymbolTable) (L : List Ty) (M2 : List (ClassId × Mark))
    (t2 : SymbolTable) (rest : List Ty) (s : List (ClassId × Mark) × List Ty) (t : SymbolTable) :
    Prop where
  suffix : rest <:+ L
  cutting : Cutting t0 t s.1
  ext : Extends M2 s.1
  untouched : Untouched M2 t2 t
  kept : ∀ i ∈ s.2, i ∈ L ∧ ∀ y, i.classOf? = some y → Searched t0 s.1 y
  cut : ∀ i ∈ L, i ∈ rest ∨ i ∈ s.2 ∨ ∃ y, i.classOf? = some y ∧ markOf M2 y = some .active

namespace InterfacesChecked

variable {L rest : List Ty} {M2 : List (ClassId × Mark)} {t2 : SymbolTable}
  {s : List (ClassId × Mark) × List Ty}

theorem start (h : Cutting t0 t2 M2) : InterfacesChecked t0 L M2 t2 L (M2, []) t2 :=
  ⟨List.suffix_refl L, h, .refl M2, .refl M2 t2, by simp, fun _ hi => .inl hi⟩

/-- Checking the next interface: kept or cut as the edge check decides. -/
theorem step {i : Ty} {r : Bool × List (ClassId × Mark)} {kept : List Ty}
    (h : InterfacesChecked t0 L M2 t2 (i :: rest) s t)
    (hr : EdgeChecked t0 s.1 t i.classOf? r t')
    (hkept : kept = if r.1 = true then s.2 ++ [i] else s.2) :
    InterfacesChecked t0 L M2 t2 rest (r.2, kept) t' := by
  have hiL : i ∈ L := h.suffix.subset List.mem_cons_self
  have hsub : ∀ j ∈ s.2, j ∈ kept := fun j hj => by
    rw [hkept]
    split <;> simp [hj]
  refine ⟨(List.suffix_cons i rest).trans h.suffix, hr.cutting, h.ext.trans hr.ext,
    h.untouched.trans hr.untouched h.ext, fun j hj => ?_, fun j hj => ?_⟩
  · have hold : j ∈ s.2 → j ∈ L ∧ ∀ y, j.classOf? = some y → Searched t0 r.2 y := fun hj' =>
      (h.kept j hj').imp id fun hs y hy => (hs y hy).mono hr.ext
    rw [hkept] at hj
    split at hj
    · next hkeep =>
      rcases List.mem_append.1 hj with hj | hj
      · exact hold hj
      · obtain rfl := List.mem_singleton.1 hj
        exact ⟨hiL, fun y hy => hr.kept y hy hkeep⟩
    · exact hold hj
  · rcases h.cut j hj with hrest | hkeep | hpath
    · rcases List.mem_cons.1 hrest with rfl | hrest
      · -- the interface just checked: kept, or cut because it leads into the path
        cases hr1 : r.1
        · obtain ⟨y, hy, hact⟩ := hr.cut hr1
          exact .inr (.inr ⟨y, hy, h.ext.path y hact⟩)
        · exact .inr (.inl (by simp [hkept, hr1]))
      · exact .inl hrest
    · exact .inr (.inl (hsub j hkeep))
    · exact .inr (.inr hpath)

/-- One interface edge of class `c`, checked one level further down the path: every class on the
path reaches `c`, and the level below has fuel for every class still unmarked. -/
theorem check {fuel : Nat} {w : TableWork} {k : ClassSymbol} {i : Ty} (hvisit : VisitSpec t0 fuel)
    (hL : k.interfaces = (t0.cls c).interfaces)
    (h : InterfacesChecked t0 k.interfaces M2 t2 (i :: rest) s w.table)
    (hback : ∀ d, markOf M2 d = some .active → Relation.ReflTransGen t0.Inherits d c)
    (hfuel : c < t0.classes.size → (unmarked t0.classes.size M2).card < fuel) :
    Post (do
        let r ← checkEdge (visitForCycles fuel) k i s.1
        if r.1 = true then pure (ForInStep.yield (r.2, s.2 ++ [i]))
        else pure (ForInStep.yield (r.2, s.2)))
      (StepPost (fun rest s w => InterfacesChecked t0 k.interfaces M2 t2 rest s w.table) rest) w := by
  have hi : i ∈ (t0.cls c).interfaces := hL ▸ h.suffix.subset List.mem_cons_self
  rw [post_bind]
  refine (checkEdge_spec hvisit k i w h.cutting (fun y hy => .inr ⟨i, hi, hy⟩)
    (fun d hd => hback d (h.ext.path d hd))
    (Nat.lt_of_le_of_lt (card_unmarked_le h.ext _) (hfuel (lt_size_of_mem_interfaces hi)))).mono
    fun r w' hr => ?_
  split
  · next hr1 =>
    rw [post_pure]
    exact h.step hr (by simp [hr1])
  · next hr1 =>
    rw [post_pure]
    exact h.step hr (by simp [hr1])

/-- Once every interface of class `c` is checked, giving `c` the kept interfaces and marking it
done keeps the invariant, given what the superclass edge left: an edge of `t0` or to `Object`,
leading to a searched class, or a cut edge of `t0` that leads back to `c`. -/
theorem finish (h0 : t0.Declared) (h : InterfacesChecked t0 L M2 t2 [] s t)
    (hc : markOf M2 c = some .active) (hL : (t2.cls c).interfaces = L)
    (hL0 : L = (t0.cls c).interfaces)
    (hback : ∀ y, markOf M2 y = some .active → Relation.ReflTransGen t0.Inherits y c)
    (hsup : ∀ y, (t2.cls c).superId? = some y →
      (t0.Inherits c y ∨ y = objectClass) ∧ Searched t0 M2 y)
    (hsupcut : ∀ y, (t0.cls c).superId? = some y → (t2.cls c).superId? ≠ some y →
      Relation.ReflTransGen t0.Inherits y c) :
    Cutting t0 (t.modifyClass c fun k => { k with interfaces := s.2 }) ((c, .done) :: s.1) := by
  have hcls : t.cls c = t2.cls c := h.untouched c (by simp [hc])
  have hc' : markOf s.1 c = some .active := h.ext.keep c _ hc
  have hl : ∀ i ∈ s.2, i ∈ (t.cls c).interfaces := fun i hi => by
    rw [hcls, hL]
    exact (h.kept i hi).1
  have hmod : Cutting t0 (t.modifyClass c fun k => { k with interfaces := s.2 }) s.1 := by
    refine h.cutting.modifyClass h0 hc' (fun _ => rfl) (fun y hy => ?_) (fun y hy hnot => ?_)
    · rcases (inherits_setInterfaces hl).1 hy with hsup' | ⟨i, hi, hiy⟩
      · rw [hcls] at hsup'
        exact (hsup y hsup').1
      · exact .inl (.inr ⟨i, hL0 ▸ (h.kept i hi).1, hiy⟩)
    · -- an edge of `t0` that is gone was cut: the superclass edge, or an interface not kept
      rcases hy with hsup0 | ⟨i, hi, hiy⟩
      · refine hsupcut y hsup0 fun hsup2 => hnot ?_
        exact (inherits_setInterfaces hl).2 (.inl (hcls ▸ hsup2))
      · rcases h.cut i (hL0 ▸ hi) with hrest | hkeep | ⟨y', hy', hact⟩
        · exact absurd hrest List.not_mem_nil
        · exact absurd ((inherits_setInterfaces hl).2 (.inr ⟨i, hkeep, hiy⟩)) hnot
        · obtain rfl : y' = y := Option.some.inj (hy'.symm.trans hiy)
          exact hback y' hact
  refine hmod.finish h0 hc' fun y hy => ?_
  rcases (inherits_setInterfaces hl).1 hy with hsup' | ⟨i, hi, hiy⟩
  · rw [hcls] at hsup'
    exact (hsup y hsup').2.mono h.ext
  · exact (h.kept i hi).2 y hiy

end InterfacesChecked

/-! ## The search -/

/-- A search from an unmarked user class whose every class on the path reaches it, with more fuel
than there are unmarked classes, leaves it done, keeps the invariant and the marks it started
with, and changes no class marked before it. -/
theorem visitForCycles_spec (h0 : t0.Declared) (fuel : Nat) : VisitSpec t0 fuel := by
  induction fuel with
  | zero => exact fun c M w hpre => absurd hpre.fuel (Nat.not_lt_zero _)
  | succ fuel ih =>
    intro c M w hpre
    have hk : w.table.cls c = t0.cls c := hpre.cutting.unmarked c hpre.fresh
    have hc1 : markOf ((c, .active) :: M) c = some .active := markOf_cons_self _ _
    have hcut1 : Cutting t0 w.table ((c, .active) :: M) := hpre.cutting.push hpre.fresh hpre.user
    -- every class on the path reaches `c`
    have hpath1 : ∀ d, markOf ((c, .active) :: M) d = some .active →
        Relation.ReflTransGen t0.Inherits d c := by
      intro d hd
      by_cases hcd : c = d
      · exact hcd ▸ .refl
      · exact hpre.path d (by rwa [markOf_cons_of_ne hcd] at hd)
    -- a class with a supertype is a class of the table, so the level below has fuel left
    have hfuel1 : c < t0.classes.size →
        (unmarked t0.classes.size ((c, .active) :: M)).card < fuel := fun hc =>
      Nat.lt_of_lt_of_le (card_unmarked_cons_lt hc hpre.fresh _) (Nat.le_of_lt_succ hpre.fuel)
    unfold visitForCycles
    simp -zeta only [post_bind, post_table]
    extract_lets k kept jp
    have hfresh : ∀ d, markOf M d ≠ none → c ≠ d := by
      rintro d hd rfl
      exact hd hpre.fresh
    have hkL : k.interfaces = (t0.cls c).interfaces := by
      show (w.table.cls c).interfaces = _
      rw [hk]
    -- after the superclass edge, cut to `Object` or kept, come the interface edges
    have hjp : ∀ (r : Bool × List (ClassId × Mark)) (w2 : TableWork),
        EdgeChecked t0 ((c, .active) :: M) w.table (t0.cls c).superId? r w2.table →
        Post (jp r) (fun M' w' => Visited t0 c M w.table M' w'.table) w2 := by
      intro r w2 hr
      have hc2 : markOf r.2 c = some .active := hr.ext.keep c _ hc1
      have hmarked : ∀ d, markOf M d ≠ none → markOf r.2 d ≠ none := fun d hd => by
        refine hr.ext.marked ?_
        rwa [markOf_cons_of_ne (hfresh d hd)]
      have hun2 : Untouched M w.table w2.table := fun d hd =>
        hr.untouched d (by rwa [markOf_cons_of_ne (hfresh d hd)])
      have hcls2 : w2.table.cls c = t0.cls c := (hr.untouched c (by simp [hc1])).trans hk
      simp -zeta only [jp]
      extract_lets marks rest
      have hrest : ∀ w3 : TableWork, Cutting t0 w3.table r.2 → Untouched M w.table w3.table →
          (w3.table.cls c).interfaces = (t0.cls c).interfaces →
          (∀ y, (w3.table.cls c).superId? = some y →
            (t0.Inherits c y ∨ y = objectClass) ∧ Searched t0 r.2 y) →
          (∀ y, (t0.cls c).superId? = some y → (w3.table.cls c).superId? ≠ some y →
            Relation.ReflTransGen t0.Inherits y c) →
          Post (rest ()) (fun M' w' => Visited t0 c M w.table M' w'.table) w3 := by
        intro w3 hcut3 hun3 hL3 hsup3 hsupcut3
        simp only [rest, post_bind]
        refine post_forIn _
          (fun rest' s w4 => InterfacesChecked t0 k.interfaces r.2 w3.table rest' s w4.table)
          (InterfacesChecked.start hcut3) (fun i rest' s w4 hI => ?_) (fun s w4 hI => ?_)
        · exact InterfacesChecked.check ih hkL hI (fun d hd => hpath1 d (hr.ext.path d hd))
            fun hc => Nat.lt_of_le_of_lt (card_unmarked_le hr.ext _) (hfuel1 hc)
        · -- the kept interfaces set, and `c` done
          rw [post_modifyTable, post_pure]
          refine ⟨hI.finish h0 hc2 (hL3.trans hkL.symm) hkL
              (fun y hy => hpath1 y (hr.ext.path y hy)) hsup3 hsupcut3,
            Extends.finish hpre.fresh (hr.ext.trans hI.ext), fun d hd => ?_, markOf_cons_self _ _⟩
          have hcd : c ≠ d := hfresh d hd
          show (w4.table.modifyClass c _).cls d = _
          rw [cls_modifyClass_of_ne hcd, hI.untouched d (hmarked d hd), hun3 d hd]
      split
      · next hneg =>
        -- the superclass edge leads into the path: cut to `Object`
        have hr1 : r.1 = false := by simpa using hneg
        obtain ⟨y0, hy0, hact0⟩ := hr.cut hr1
        have hcs : c < w2.table.classes.size := hr.cutting.size_eq ▸ lt_size_of_superId hy0
        rw [post_bind, post_modifyTable]
        refine hrest _ (hr.cutting.cutSuperclass h0 hc2 hcls2 hy0 (hpath1 y0 hact0))
          (fun d hd => ?_) ?_ (fun y hy => ?_) (fun y hy _ => ?_)
        · show (w2.table.modifyClass c _).cls d = _
          rw [cls_modifyClass_of_ne (hfresh d hd)]
          exact hun2 d hd
        · show ((w2.table.modifyClass c _).cls c).interfaces = _
          rw [cls_modifyClass_self hcs, hcls2]
        · obtain rfl : objectClass = y := Option.some.inj ((superId_cutSuper hcs).symm.trans hy)
          exact ⟨.inr rfl, .inl (h0.builtin_of_lt (by decide))⟩
        · obtain rfl : y0 = y := Option.some.inj (hy0.symm.trans hy)
          exact hpath1 y0 hact0
      · next hpos =>
        -- the superclass edge is kept
        have hr1 : r.1 = true := by simpa using hpos
        refine hrest w2 hr.cutting hun2 (by rw [hcls2]) (fun y hy => ?_)
          (fun y hy hne => absurd (hcls2 ▸ hy) hne)
        rw [hcls2] at hy
        exact ⟨.inl (.inl hy), hr.kept y hy hr1⟩
    split
    · next sup hsup =>
      have hsup0 : (t0.cls c).superclass = some sup := by
        rw [← hk]
        exact hsup
      have hsid : (t0.cls c).superId? = sup.classOf? := by
        simp [ClassSymbol.superId?, hsup0]
      rw [post_bind]
      refine (checkEdge_spec ih k sup w hcut1 (fun y hy => .inl (hsid.trans hy)) hpath1
        (hfuel1 (lt_size_of_superclass hsup0))).mono fun r w2 hr => hjp r w2 (hsid ▸ hr)
    · next hnone =>
      have hsid : (t0.cls c).superId? = none := by
        rw [← hk]
        simp [ClassSymbol.superId?, show (w.table.cls c).superclass = none from hnone]
      rw [post_bind, post_pure]
      exact hjp _ _ (hsid ▸ EdgeChecked.none hcut1)

/-! ## The searches from every user class -/

theorem card_unmarked_le_size (n : Nat) (M : List (ClassId × Mark)) : (unmarked n M).card ≤ n :=
  (Finset.card_filter_le _ _).trans_eq (Finset.card_range n)

/-- Searching from each class of user classes `cs` that is not marked yet, with fuel for more
levels than the table has classes, leaves every class of `cs` done. -/
theorem breakCycles_spec (h0 : t0.Declared) {cs : List ClassId}
    (hcs : ∀ c ∈ cs, (t0.cls c).isBuiltin = false) {w : TableWork} (hw : w.table = t0) :
    Post (breakCycles cs)
      (fun _ w' => ∃ M, Cutting t0 w'.table M ∧ ∀ c ∈ cs, markOf M c = some .done) w := by
  unfold breakCycles
  simp only [post_bind, post_table, hw]
  -- between two searches no class is on a path, and the classes searched from are marked
  refine post_forIn cs (fun rest M w' => rest <:+ cs ∧ Cutting t0 w'.table M ∧
      (∀ d, markOf M d ≠ some .active) ∧ ∀ c ∈ cs, c ∈ rest ∨ markOf M c ≠ none)
    ⟨List.suffix_refl cs, hw ▸ Cutting.start, by simp, fun c hc => .inl hc⟩ ?_ ?_
  · rintro c rest M w' ⟨hsuf, hcut, hidle, hmarked⟩
    -- the class is marked after this step, and the others as before
    have hnext : ∀ M', Extends M M' → markOf M' c ≠ none →
        ∀ d ∈ cs, d ∈ rest ∨ markOf M' d ≠ none := by
      intro M' hext hc' d hd
      rcases hmarked d hd with hrest | hm
      · rcases List.mem_cons.1 hrest with rfl | hrest
        · exact .inr hc'
        · exact .inl hrest
      · exact .inr (hext.marked hm)
    have hsuf' : rest <:+ cs := (List.suffix_cons c rest).trans hsuf
    split
    · next hfresh =>
      have hfresh' : markOf M c = none := not_not.1 fun hne => by
        rw [Bool.not_eq_true', any_fst_eq_iff.2 hne] at hfresh
        cases hfresh
      rw [post_bind]
      refine (visitForCycles_spec h0 _ c M w' ⟨hcut, hfresh',
        hcs c (hsuf.subset List.mem_cons_self), fun d hd => absurd hd (hidle d),
        Nat.lt_succ_of_le (card_unmarked_le_size _ M)⟩).mono fun M' w'' hv => ?_
      rw [post_pure]
      exact ⟨hsuf', hv.cutting, fun d hd => hidle d (hv.ext.path d hd),
        hnext M' hv.ext (by simp [hv.done])⟩
    · next hmark =>
      rw [Bool.not_eq_true', Bool.not_eq_false] at hmark
      rw [post_pure]
      exact ⟨hsuf', hcut, hidle, hnext M (Extends.refl M) (any_fst_eq_iff.1 hmark)⟩
  · rintro M w' ⟨-, hcut, hidle, hmarked⟩
    rw [post_pure]
    refine ⟨M, hcut, fun c hc => ?_⟩
    have hm := (hmarked c hc).resolve_left List.not_mem_nil
    cases h : markOf M c with
    | none => exact absurd h hm
    | some m => cases m with
      | active => exact absurd h (hidle c)
      | done => rfl

end SymbolTable

end AmLang
