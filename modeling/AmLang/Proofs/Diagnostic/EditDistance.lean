import AmLang.Diagnostic.Suggest
import Mathlib.Data.List.Induction
import Mathlib.Order.Bounds.Basic
import Mathlib.Order.MinMax
/-!
# Edit distance and "did you mean" suggestions

`Suggest.levenshtein` fills the table of distances between prefixes one row at a time and keeps
only the last row. This module proves that it computes the edit distance: the least number of
insertions, deletions and substitutions of single bytes that turn one text into the other, which
is also what the standard recursion `editDistance` gives. The edit distance is a metric, and
`Suggest.findSimilar` returns the first candidate at the least distance within its bound.

The recursion peels the first bytes off both texts, while the table grows prefixes at their
ends; so row `i` of the table holds the distances between the reversed prefixes (`row`). Both
meet through the least number of edits: an edit of a text is an edit of its reverse, so
reversing both texts keeps their distance (`editDistance_reverse`).

## Main results

* `editDistance_isLeast` — the recursion gives the least number of single edits.
* `editDistance_comm`, `editDistance_eq_zero_iff`, `editDistance_triangle` — it is a metric.
* `levenshtein_eq_editDistance` — the two-row computation is the recursion.
* `levenshtein_is_edit_distance` — so the computed distance is the least number of edits and
  a metric, and `findSimilar_firstClosest`: the suggestion is the first closest candidate
  within the bound.
-/

namespace AmLang.Suggest

/-! ## Edits -/

section Edits

variable {α : Type}

/-- One edit: an element inserted, deleted or put in the place of another, anywhere. -/
inductive Edit : List α → List α → Prop
  | insert (u v : List α) (x : α) : Edit (u ++ v) (u ++ x :: v)
  | delete (u v : List α) (x : α) : Edit (u ++ x :: v) (u ++ v)
  | substitute (u v : List α) (x y : α) : Edit (u ++ x :: v) (u ++ y :: v)

/-- `a` turns into `b` by `n` edits, one after the other. -/
inductive Edits : List α → List α → Nat → Prop
  | refl (a : List α) : Edits a a 0
  | step {a b c : List α} {n : Nat} : Edit a b → Edits b c n → Edits a c (n + 1)

namespace Edit

theorem cons (x : α) {a b : List α} : Edit a b → Edit (x :: a) (x :: b)
  | insert u v y => insert (x :: u) v y
  | delete u v y => delete (x :: u) v y
  | substitute u v y z => substitute (x :: u) v y z

theorem reverse {a b : List α} : Edit a b → Edit a.reverse b.reverse
  | insert u v x => by simpa using insert v.reverse u.reverse x
  | delete u v x => by simpa using delete v.reverse u.reverse x
  | substitute u v x y => by simpa using substitute v.reverse u.reverse x y

end Edit

namespace Edits

theorem single {a b : List α} (h : Edit a b) : Edits a b 1 := step h (refl b)

theorem trans {a b c : List α} {m n : Nat} (hab : Edits a b m) (hbc : Edits b c n) :
    Edits a c (m + n) := by
  induction hab with
  | refl => simpa using hbc
  | step h _ ih => simpa [Nat.add_right_comm] using step h (ih hbc)

theorem cons (x : α) {a b : List α} {n : Nat} (h : Edits a b n) : Edits (x :: a) (x :: b) n := by
  induction h with
  | refl => exact refl _
  | step h _ ih => exact step (h.cons x) ih

theorem reverse {a b : List α} {n : Nat} (h : Edits a b n) : Edits a.reverse b.reverse n := by
  induction h with
  | refl => exact refl _
  | step h _ ih => exact step h.reverse ih

end Edits

/-- Inserting the elements of `b` one by one. -/
theorem edits_nil_left (b : List α) : Edits [] b b.length := by
  induction b with
  | nil => exact .refl []
  | cons y b ih => simpa [Nat.add_comm] using (Edits.single (.insert [] [] y)).trans (ih.cons y)

/-- Deleting the elements of `a` one by one. -/
theorem edits_nil_right (a : List α) : Edits a [] a.length := by
  induction a with
  | nil => exact .refl []
  | cons x a ih => simpa [Nat.add_comm] using (Edits.single (.delete [] a x)).trans ih

end Edits

section EditDistance

variable {α : Type} [DecidableEq α]

/-- The edit distance by the standard recursion on the first elements: delete the first of `a`,
insert the first of `b`, or put one in the place of the other, which is free when they are
equal. -/
def editDistance : List α → List α → Nat
  | [], b => b.length
  | x :: a, [] => (x :: a).length
  | x :: a, y :: b =>
    min (min (editDistance a (y :: b) + 1) (editDistance (x :: a) b + 1))
      (editDistance a b + if x = y then 0 else 1)
termination_by a b => a.length + b.length

@[simp] theorem editDistance_nil_left (b : List α) : editDistance [] b = b.length := by
  rw [editDistance]

@[simp] theorem editDistance_nil_right (a : List α) : editDistance a [] = a.length := by
  cases a <;> rw [editDistance]

theorem editDistance_cons_cons (x y : α) (a b : List α) :
    editDistance (x :: a) (y :: b) =
      min (min (editDistance a (y :: b) + 1) (editDistance (x :: a) b + 1))
        (editDistance a b + if x = y then 0 else 1) := by
  rw [editDistance]

/-! ## Bounds from the lengths -/

/-- Each edit changes the length by at most one. -/
theorem length_le_editDistance_add (a b : List α) : b.length ≤ editDistance a b + a.length := by
  fun_induction editDistance a b with
  | case1 b => simp
  | case2 x a => simp
  | case3 x a y b ih₁ ih₂ ih₃ =>
    simp only [List.length_cons] at ih₁ ih₂ ⊢
    omega

/-- Deleting all of `a` and inserting all of `b` is an upper bound. -/
theorem editDistance_le_length_add (a b : List α) : editDistance a b ≤ a.length + b.length := by
  fun_induction editDistance a b with
  | case1 b => simp
  | case2 x a => simp
  | case3 x a y b ih₁ ih₂ ih₃ =>
    simp only [List.length_cons] at ih₁ ⊢
    omega

/-! ## One element more on either side -/

theorem editDistance_cons_left_le (x : α) (a b : List α) :
    editDistance (x :: a) b ≤ editDistance a b + 1 := by
  cases b with
  | nil => simp
  | cons y b =>
    rw [editDistance_cons_cons]
    omega

theorem editDistance_cons_right_le (y : α) (a b : List α) :
    editDistance a (y :: b) ≤ editDistance a b + 1 := by
  cases a with
  | nil => simp
  | cons x a =>
    rw [editDistance_cons_cons]
    omega

theorem editDistance_cons_cons_le (x y : α) (a b : List α) :
    editDistance (x :: a) (y :: b) ≤ editDistance a b + if x = y then 0 else 1 := by
  rw [editDistance_cons_cons]
  omega

/-- A common first part costs nothing. -/
theorem editDistance_append_left_le (u a b : List α) :
    editDistance (u ++ a) (u ++ b) ≤ editDistance a b := by
  induction u with
  | nil => simp
  | cons x u ih =>
    have h := editDistance_cons_cons_le x x (u ++ a) (u ++ b)
    rw [if_pos rfl, Nat.add_zero] at h
    exact h.trans ih

/-! ## A metric -/

theorem editDistance_comm (a b : List α) : editDistance a b = editDistance b a := by
  fun_induction editDistance a b with
  | case1 b => cases b <;> simp
  | case2 x a => simp
  | case3 x a y b ih₁ ih₂ ih₃ =>
    rw [editDistance_cons_cons, ih₁, ih₂, ih₃]
    have hcost : (if x = y then 0 else 1) = if y = x then 0 else 1 := by
      by_cases h : x = y <;> simp [h, eq_comm]
    rw [hcost]
    omega

@[simp] theorem editDistance_self (a : List α) : editDistance a a = 0 := by
  induction a with
  | nil => simp
  | cons x a ih => simpa [ih] using editDistance_cons_cons_le x x a a

theorem eq_of_editDistance_eq_zero {a b : List α} (h : editDistance a b = 0) : a = b := by
  fun_induction editDistance a b with
  | case1 b => simpa [eq_comm] using h
  | case2 x a => simp at h
  | case3 x a y b ih₁ ih₂ ih₃ =>
    -- only the substitution can cost nothing, and then the first elements agree
    have hsub : editDistance a b + (if x = y then 0 else 1) = 0 := by omega
    have hxy : x = y := by
      by_contra hne
      simp [hne] at hsub
    rw [hxy, ih₃ (by omega)]

theorem editDistance_eq_zero_iff {a b : List α} : editDistance a b = 0 ↔ a = b :=
  ⟨eq_of_editDistance_eq_zero, fun h => h ▸ editDistance_self a⟩

/-- Substituting twice costs at least as much as substituting once. -/
theorem cost_triangle (x y z : α) :
    (if x = z then 0 else 1) ≤ (if x = y then 0 else 1) + if y = z then 0 else 1 := by
  by_cases hxz : x = z
  · simp [hxz]
  · by_cases hxy : x = y
    · subst hxy
      simp [hxz]
    · simp [hxz, hxy]

/-- The triangle inequality, by induction on the three lengths together: a best way from `a`
to `b` followed by one from `b` to `c` starts with a step the recursion for `a` and `c` can
also take, onto texts with fewer elements. -/
theorem editDistance_triangle (a b c : List α) :
    editDistance a c ≤ editDistance a b + editDistance b c := by
  induction hn : a.length + b.length + c.length using Nat.strong_induction_on generalizing a b c
    with
  | _ n ih =>
  have hl : ∀ {a' b' c' : List α}, a'.length + b'.length + c'.length < n →
      editDistance a' c' ≤ editDistance a' b' + editDistance b' c' :=
    fun h => ih _ h _ _ _ rfl
  cases a with
  | nil => simpa [Nat.add_comm] using length_le_editDistance_add b c
  | cons x a =>
  cases c with
  | nil =>
    have h := length_le_editDistance_add b (x :: a)
    rw [editDistance_comm] at h
    simpa using h
  | cons z c =>
  cases b with
  | nil => simpa using editDistance_le_length_add (x :: a) (z :: c)
  | cons y b =>
    simp only [List.length_cons] at hn
    have t₁ := @hl a (y :: b) (z :: c) (by simp; omega)
    have t₂ := @hl (x :: a) (y :: b) c (by simp; omega)
    have t₃ := @hl (x :: a) b (z :: c) (by simp; omega)
    have t₄ := @hl (x :: a) b c (by simp; omega)
    have t₅ := @hl a b (z :: c) (by simp; omega)
    have t₆ := @hl a b c (by omega)
    have u₁ := editDistance_cons_left_le x a (z :: c)
    have u₂ := editDistance_cons_right_le z (x :: a) c
    have u₃ := editDistance_cons_cons_le x z a c
    have hcost := cost_triangle x y z
    have hab := editDistance_cons_cons x y a b
    have hbc := editDistance_cons_cons y z b c
    omega

/-! ## The least number of edits -/

/-- One edit is at distance at most one. -/
theorem Edit.editDistance_le {a b : List α} : Edit a b → editDistance a b ≤ 1
  | insert u v x => by
    simpa using (editDistance_append_left_le u v (x :: v)).trans (editDistance_cons_right_le x v v)
  | delete u v x => by
    simpa using (editDistance_append_left_le u (x :: v) v).trans (editDistance_cons_left_le x v v)
  | substitute u v x y => by
    have h := (editDistance_append_left_le u (x :: v) (y :: v)).trans
      (editDistance_cons_cons_le x y v v)
    rw [editDistance_self] at h
    split at h <;> omega

/-- `n` edits take a text at most `n` away. -/
theorem Edits.editDistance_le {a b : List α} {n : Nat} (h : Edits a b n) :
    editDistance a b ≤ n := by
  induction h with
  | refl => simp
  | @step a b c n h _ ih =>
    have h₁ := h.editDistance_le
    have h₂ := editDistance_triangle a b c
    omega

/-- The recursion's choice at each step is a sequence of edits of its length. -/
theorem edits_editDistance (a b : List α) : Edits a b (editDistance a b) := by
  fun_induction editDistance a b with
  | case1 b => exact edits_nil_left b
  | case2 x a => exact edits_nil_right (x :: a)
  | case3 x a y b ih₁ ih₂ ih₃ =>
    have hdel : Edits (x :: a) (y :: b) (editDistance a (y :: b) + 1) := by
      simpa [Nat.add_comm] using (Edits.single (.delete [] a x)).trans ih₁
    have hins : Edits (x :: a) (y :: b) (editDistance (x :: a) b + 1) :=
      ih₂.trans (Edits.single (.insert [] b y))
    have hsub : Edits (x :: a) (y :: b) (editDistance a b + if x = y then 0 else 1) := by
      by_cases hxy : x = y
      · subst hxy
        simpa using ih₃.cons x
      · simpa [hxy, Nat.add_comm] using (Edits.single (.substitute [] a x y)).trans (ih₃.cons y)
    exact min_rec' (Edits (x :: a) (y :: b)) (min_rec' _ hdel hins) hsub

/-- **The recursion is the least number of single edits** that turn `a` into `b`. -/
theorem editDistance_isLeast (a b : List α) :
    IsLeast {n | Edits a b n} (editDistance a b) :=
  ⟨edits_editDistance a b, fun _ h => h.editDistance_le⟩

/-- Reversing both sides keeps the distance, since an edit of a text is an edit of its
reverse. -/
theorem editDistance_reverse (a b : List α) :
    editDistance a.reverse b.reverse = editDistance a b := by
  refine (editDistance_isLeast a.reverse b.reverse).unique ⟨(edits_editDistance a b).reverse, ?_⟩
  intro n hn
  simpa using (Edits.reverse hn).editDistance_le

end EditDistance

/-! ## The two-row computation -/

section Rows

variable (bs : List Char)

/-- The row of the table after the bytes `p` of the first text: the distance from `p` to each
prefix of `bs`, both read backwards. -/
def row (p : List Char) : List Nat :=
  (List.range (bs.length + 1)).map fun j => editDistance p.reverse (bs.take j).reverse

/-- `nextRow.go` walks the bytes of `bs` from position `j` on, fed the old row from `j` on and
the new entry at `j`; it gives the new entries after `j` when each follows from its three
neighbours as the recursion says. The induction is on the number of bytes left. -/
theorem go_rows (c : Char) (R N : Nat → Nat)
    (hN : ∀ i (h : i < bs.length),
      N (i + 1) = min (min (R (i + 1) + 1) (N i + 1)) (R i + if c = bs[i] then 0 else 1)) :
    ∀ k j, j + k = bs.length →
      nextRow.go c (bs.drop j) ((List.range' j (k + 1)).map R) (N j) =
        (List.range' (j + 1) k).map N
  | 0, j, h => by
    rw [List.drop_eq_nil_of_le (by omega)]
    simp [nextRow.go]
  | k + 1, j, h => by
    have hj : j < bs.length := by omega
    have ih := go_rows c R N hN k (j + 1) (by omega)
    rw [List.range'_succ, List.map_cons] at ih
    rw [List.drop_eq_getElem_cons hj, List.range'_succ, List.map_cons, List.range'_succ,
      List.map_cons, nextRow.go, List.headD_cons]
    simp only [beq_iff_eq, ← hN j hj]
    rw [ih, List.map_cons]

/-- One step of the computation: the row after `p` and the byte `c` is the row after `p ++ [c]`. -/
theorem nextRow_row (c : Char) (p : List Char) :
    nextRow bs c (p.length + 1) (row bs p) = row bs (p ++ [c]) := by
  let R := fun j => editDistance p.reverse (bs.take j).reverse
  let N := fun j => editDistance (p ++ [c]).reverse (bs.take j).reverse
  have hN : ∀ i (h : i < bs.length),
      N (i + 1) = min (min (R (i + 1) + 1) (N i + 1)) (R i + if c = bs[i] then 0 else 1) := by
    intro i h
    simp only [R, N]
    rw [List.take_succ_eq_append_getElem h, List.reverse_append, List.reverse_append]
    exact editDistance_cons_cons c bs[i] p.reverse (bs.take i).reverse
  have hN0 : N 0 = p.length + 1 := by simp [N]
  have key := go_rows bs c R N hN bs.length 0 (by omega)
  rw [List.drop_zero, hN0] at key
  show (p.length + 1) :: nextRow.go c bs ((List.range (bs.length + 1)).map R) (p.length + 1) =
    (List.range (bs.length + 1)).map N
  rw [List.range_eq_range', key, List.range'_succ, List.map_cons, hN0]

/-- The first row is the distances from the empty text. -/
theorem row_nil : row bs [] = List.range (bs.length + 1) := by
  simp only [row, List.reverse_nil, editDistance_nil_left, List.length_reverse, List.length_take]
  conv_rhs => rw [← List.map_id (List.range (bs.length + 1))]
  refine List.map_congr_left fun j hj => ?_
  simp only [List.mem_range] at hj
  exact Nat.min_eq_left (Nat.lt_succ_iff.1 hj)

/-- After all the bytes of `a`, the computation holds the row of `a`. The fold is taken with any
step function that agrees with the computation's. -/
theorem foldl_nextRow (f : List Nat × Nat → Char → List Nat × Nat)
    (hf : ∀ r i c, f (r, i) c = (nextRow bs c (i + 1) r, i + 1)) (a : List Char) :
    a.foldl f (List.range (bs.length + 1), 0) = (row bs a, a.length) := by
  induction a using List.reverseRecOn with
  | nil => rw [row_nil]; rfl
  | append_singleton a c ih =>
    rw [List.foldl_append, ih, List.foldl_cons, List.foldl_nil, hf, nextRow_row,
      List.length_append, List.length_singleton]

/-- The last entry of a row is the distance to the whole of `bs`. -/
theorem row_getLastD (p : List Char) :
    (row bs p).getLastD 0 = editDistance p.reverse bs.reverse := by
  simp [row, List.getLastD_eq_getLast?, List.getLast?_map, List.getLast?_range]

end Rows

/-- **The two-row computation is the edit distance** of the two byte texts. -/
theorem levenshtein_eq_editDistance (a b : String) :
    levenshtein a b = editDistance a.toList b.toList := by
  simp only [levenshtein]
  rw [foldl_nextRow b.toList _ (fun _ _ _ => rfl), row_getLastD, editDistance_reverse]

/-! ## The closest candidate -/

section Closest

variable (input : String)

/-- What scanning the candidates `cs` from the start `(b₀, D₀)` leaves in `(b, D)`: the start,
when no candidate other than `input` is closer than `D₀`; or else a candidate `b` other than
`input`, at distance `D < D₀`, closer than every candidate before it and no farther than every
candidate after it. -/
def Scanned (b₀ : String) (D₀ : Nat) (cs : List String) (b : String) (D : Nat) : Prop :=
  (b = b₀ ∧ D = D₀ ∧ ∀ c ∈ cs, c ≠ input → D₀ ≤ levenshtein input c) ∨
  ∃ pre post, cs = pre ++ b :: post ∧ b ≠ input ∧ D = levenshtein input b ∧ D < D₀ ∧
    (∀ c ∈ pre, c ≠ input → D < levenshtein input c) ∧
    (∀ c ∈ post, c ≠ input → D ≤ levenshtein input c)

/-- A candidate that is kept or skipped extends what was scanned after the best one. -/
theorem Scanned.keep {b₀ b : String} {D₀ D : Nat} {cs : List String} (c : String)
    (h : Scanned input b₀ D₀ cs b D) (hc : c ≠ input → D ≤ levenshtein input c) :
    Scanned input b₀ D₀ (cs ++ [c]) b D := by
  rcases h with ⟨rfl, rfl, hall⟩ | ⟨pre, post, rfl, hb, hD, hlt, hpre, hpost⟩
  · refine .inl ⟨rfl, rfl, fun c' hc' hne => ?_⟩
    rcases List.mem_append.1 hc' with hc' | hc'
    · exact hall c' hc' hne
    · rw [List.mem_singleton.1 hc'] at hne ⊢
      exact hc hne
  · refine .inr ⟨pre, post ++ [c], by simp, hb, hD, hlt, hpre, fun c' hc' hne => ?_⟩
    rcases List.mem_append.1 hc' with hc' | hc'
    · exact hpost c' hc' hne
    · rw [List.mem_singleton.1 hc'] at hne ⊢
      exact hc hne

/-- A candidate closer than the best so far becomes the best. -/
theorem Scanned.replace {b₀ b : String} {D₀ D : Nat} {cs : List String} (c : String)
    (h : Scanned input b₀ D₀ cs b D) (hc : c ≠ input) (hlt : levenshtein input c < D) :
    Scanned input b₀ D₀ (cs ++ [c]) c (levenshtein input c) := by
  refine .inr ⟨cs, [], rfl, hc, rfl, ?_, ?_, by simp⟩
  · rcases h with ⟨-, rfl, -⟩ | ⟨-, -, -, -, -, hD, -, -⟩ <;> omega
  · intro c' hc' hne
    rcases h with ⟨-, rfl, hall⟩ | ⟨pre, post, rfl, -, rfl, -, hpre, hpost⟩
    · exact Nat.lt_of_lt_of_le hlt (hall c' hc' hne)
    · rcases List.mem_append.1 hc' with hc' | hc'
      · exact hlt.trans (hpre c' hc' hne)
      · rcases List.mem_cons.1 hc' with rfl | hc'
        · exact hlt
        · exact Nat.lt_of_lt_of_le hlt (hpost c' hc' hne)

/-- The scan of `findSimilar`, from any start, over any candidates. -/
theorem foldl_scanned (f : String × Nat → String → String × Nat)
    (hf : ∀ b D c, f (b, D) c =
      if c == input then (b, D)
      else if levenshtein input c < D then (c, levenshtein input c) else (b, D))
    (b₀ : String) (D₀ : Nat) (cs : List String) {b : String} {D : Nat}
    (h : cs.foldl f (b₀, D₀) = (b, D)) : Scanned input b₀ D₀ cs b D := by
  induction cs using List.reverseRecOn generalizing b D with
  | nil =>
    cases h
    exact .inl ⟨rfl, rfl, by simp⟩
  | append_singleton cs c ih =>
    rw [List.foldl_append, List.foldl_cons, List.foldl_nil] at h
    rcases hfold : cs.foldl f (b₀, D₀) with ⟨b', D'⟩
    rw [hfold, hf] at h
    have ih := ih hfold
    by_cases hc : c = input
    · simp only [hc, beq_self_eq_true, if_true, Prod.mk.injEq] at h
      obtain ⟨rfl, rfl⟩ := h
      exact ih.keep input c (fun h => absurd hc h)
    · by_cases hlt : levenshtein input c < D'
      · simp only [beq_iff_eq, hc, if_false, hlt, if_true, Prod.mk.injEq] at h
        obtain ⟨rfl, rfl⟩ := h
        exact ih.replace input c hc hlt
      · simp only [beq_iff_eq, hc, if_false, hlt, Prod.mk.injEq] at h
        obtain ⟨rfl, rfl⟩ := h
        exact ih.keep input c (fun _ => Nat.le_of_not_lt hlt)

end Closest

/-- `r` is the first closest candidate within `k`: the empty text when no candidate other than
`input` is within `k`, and otherwise a candidate other than `input`, within `k`, closer than
every candidate before it and no farther than every candidate after it. -/
def FirstClosest (input : String) (cs : List String) (k : Nat) (r : String) : Prop :=
  (r = "" ∧ ∀ c ∈ cs, c ≠ input → k < levenshtein input c) ∨
  ∃ pre post, cs = pre ++ r :: post ∧ r ≠ input ∧ levenshtein input r ≤ k ∧
    (∀ c ∈ pre, c ≠ input → levenshtein input r < levenshtein input c) ∧
    (∀ c ∈ post, c ≠ input → levenshtein input r ≤ levenshtein input c)

/-- **The suggestion is the first closest candidate within the bound.** -/
theorem findSimilar_firstClosest (input : String) (cs : List String) (k : Nat) :
    FirstClosest input cs k (findSimilar input cs k) := by
  simp only [findSimilar]
  generalize hfold : List.foldl _ ("", k + 1) cs = r
  obtain ⟨best, D⟩ := r
  dsimp only
  have h := foldl_scanned input _ (fun _ _ _ => rfl) "" (k + 1) cs hfold
  rcases h with ⟨hb, -, hall⟩ | ⟨pre, post, hcs, hb, rfl, hlt, hpre, hpost⟩
  · exact .inl ⟨hb, fun c hc hne => hall c hc hne⟩
  · exact .inr ⟨pre, post, hcs, hb, by omega, hpre, hpost⟩

/-! ## The distance between texts -/

theorem levenshtein_isLeast (a b : String) :
    IsLeast {n | Edits a.toList b.toList n} (levenshtein a b) :=
  levenshtein_eq_editDistance a b ▸ editDistance_isLeast a.toList b.toList

theorem levenshtein_comm (a b : String) : levenshtein a b = levenshtein b a := by
  rw [levenshtein_eq_editDistance, levenshtein_eq_editDistance, editDistance_comm]

theorem levenshtein_eq_zero_iff {a b : String} : levenshtein a b = 0 ↔ a = b := by
  rw [levenshtein_eq_editDistance, editDistance_eq_zero_iff, String.toList_inj]

theorem levenshtein_triangle (a b c : String) :
    levenshtein a c ≤ levenshtein a b + levenshtein b c := by
  simp only [levenshtein_eq_editDistance]
  exact editDistance_triangle _ _ _

/-- The "did you mean" distance is the edit distance: the standard recursion, the least number
of single-byte insertions, deletions and substitutions, symmetric, zero exactly between equal
texts and subject to the triangle inequality; and the suggestion is the first candidate at the
least distance within the bound. -/
theorem levenshtein_is_edit_distance (a b c input : String) (cs : List String) (k : Nat) :
    levenshtein a b = editDistance a.toList b.toList ∧
      IsLeast {n | Edits a.toList b.toList n} (levenshtein a b) ∧
      levenshtein a b = levenshtein b a ∧
      (levenshtein a b = 0 ↔ a = b) ∧
      levenshtein a c ≤ levenshtein a b + levenshtein b c ∧
      FirstClosest input cs k (findSimilar input cs k) :=
  ⟨levenshtein_eq_editDistance a b, levenshtein_isLeast a b, levenshtein_comm a b,
    levenshtein_eq_zero_iff, levenshtein_triangle a b c, findSimilar_firstClosest input cs k⟩

end AmLang.Suggest
