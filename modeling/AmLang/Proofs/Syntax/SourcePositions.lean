import Mathlib.Data.List.DropRight
import Mathlib.Data.List.GetD
import AmLang.Syntax.Source
/-!
# Positions by counting newlines

`Source.location` finds the line of an offset by binary search in the index of line starts, and
`Source.line` reads a line between two entries of that index. Both agree with counting: the line
of an offset is one more than the number of newline bytes before it, and its column counts from
just after the last of them; lines `1` to `lineCount` are the pieces of the text between
newlines, each without the line-end bytes it ends with.

The binary search is right for any array that the value sought cuts in two, entries at most the
value and then entries above it (`upperBound_eq_cut`); it needs no other order. The index of
line starts is cut so by every offset: its entries from the first `offset` bytes are at most
`offset`, and those from the bytes after are above it.

## Main results

* `upperBound_eq_cut` — binary search returns the cut of an array cut in two.
* `lineIndex_eq_count` — the line index of an offset is the number of newlines before it.
* `lines_split` — the lines a text is read as are its pieces between newlines.
* `positions_by_counting` — positions and lines of a source agree with counting newlines.
-/

namespace AmLang.Source

/-! ## Binary search -/

/-- Binary search finds the cut of an array whose entries before `k` are at most `x` and whose
entries from `k` on are above it, starting from any window `[lo, hi]` around the cut. -/
theorem upperBound_eq_cut {a : Array Nat} {x k : Nat}
    (hle : ∀ i < k, a.getD i 0 ≤ x) (hgt : ∀ i, k ≤ i → i < a.size → x < a.getD i 0) :
    ∀ lo hi, lo ≤ k → k ≤ hi → hi ≤ a.size → upperBound a x lo hi = k := by
  intro lo hi
  fun_induction upperBound a x lo hi with
  | case1 lo hi hlt mid hmid ih =>
    intro hlo hhi hsize
    have hmid_eq : mid = (lo + hi) / 2 := rfl
    -- the middle entry is at most `x`, so the cut lies after it
    have hcut : mid < k := by
      by_contra hk
      have := hgt mid (by omega) (by omega)
      omega
    exact ih hcut hhi hsize
  | case2 lo hi hlt mid hmid ih =>
    intro hlo hhi hsize
    have hmid_eq : mid = (lo + hi) / 2 := rfl
    -- the middle entry is above `x`, so the cut is at or before it
    have hcut : k ≤ mid := by
      by_contra hk
      exact hmid (hle mid (by omega))
    exact ih hlo hcut (by omega)
  | case3 lo hi hlt =>
    intro hlo hhi _
    omega

/-! ## The offsets after newlines -/

/-- The offsets just past the newline bytes of `cs`, whose first byte stands at offset `k`. -/
def newlineEnds (cs : List Char) (k : Nat) : List Nat :=
  (cs.zipIdx k).filterMap fun (c, i) => if c = '\n' then some (i + 1) else none

theorem lineStartsOf_toList (bytes : Array Char) :
    (lineStartsOf bytes).toList = 0 :: newlineEnds bytes.toList 0 := by
  simp [lineStartsOf, newlineEnds]

@[simp] theorem newlineEnds_nil (k : Nat) : newlineEnds [] k = [] := rfl

theorem newlineEnds_cons (c : Char) (cs : List Char) (k : Nat) :
    newlineEnds (c :: cs) k = (if c = '\n' then [k + 1] else []) ++ newlineEnds cs (k + 1) := by
  by_cases h : c = '\n' <;> simp [newlineEnds, h]

theorem newlineEnds_append (p q : List Char) (k : Nat) :
    newlineEnds (p ++ q) k = newlineEnds p k ++ newlineEnds q (k + p.length) := by
  simp [newlineEnds, List.zipIdx_append]

theorem length_newlineEnds (cs : List Char) (k : Nat) :
    (newlineEnds cs k).length = cs.count '\n' := by
  induction cs generalizing k with
  | nil => rfl
  | cons c cs ih => by_cases h : c = '\n' <;> simp [newlineEnds_cons, h, ih]

/-- Moving the text moves the offsets after its newlines by as much. -/
theorem newlineEnds_shift (cs : List Char) (k j : Nat) :
    newlineEnds cs (k + j) = (newlineEnds cs k).map (· + j) := by
  induction cs generalizing k with
  | nil => rfl
  | cons c cs ih =>
    rw [newlineEnds_cons, newlineEnds_cons, Nat.add_right_comm, ih]
    by_cases h : c = '\n' <;> simp [h, Nat.add_right_comm]

/-- An offset after a newline of the text lies past its start and by its end. -/
theorem bounds_of_mem_newlineEnds {cs : List Char} {k e : Nat} (h : e ∈ newlineEnds cs k) :
    k < e ∧ e ≤ k + cs.length := by
  obtain ⟨⟨c, i⟩, hmem, hsome⟩ := List.mem_filterMap.1 h
  obtain ⟨hk, hlt, -⟩ := List.mem_zipIdx hmem
  by_cases hc : c = '\n'
  · simp only [hc, if_true, Option.some.injEq] at hsome
    omega
  · simp [hc] at hsome

theorem newlineEnds_of_not_mem {cs : List Char} (h : '\n' ∉ cs) (k : Nat) :
    newlineEnds cs k = [] := by
  rw [← List.length_eq_zero_iff, length_newlineEnds, List.count_eq_zero]
  exact h

/-- The last line start of a text is just past its last newline, or its start when it has
none. -/
theorem getLast_lineStarts (cs : List Char) :
    (0 :: newlineEnds cs 0).getLast (List.cons_ne_nil _ _) =
      (cs.rdropWhile (· != '\n')).length := by
  induction cs using List.reverseRecOn with
  | nil => simp
  | append_singleton cs c ih =>
    have hsplit : 0 :: newlineEnds (cs ++ [c]) 0 =
        (0 :: newlineEnds cs 0) ++ (if c = '\n' then [cs.length + 1] else []) := by
      by_cases h : c = '\n' <;> simp [newlineEnds_append, newlineEnds_cons, h]
    by_cases h : c = '\n'
    · subst h
      simp [hsplit, List.rdropWhile_concat_neg]
    · have hc : (c != '\n') = true := by simpa using h
      simpa [hsplit, h, List.rdropWhile_concat_pos _ _ _ hc] using ih

/-! ## The line of an offset -/

theorem getD_lineStarts (s : Source) (i : Nat) :
    s.lineStarts.getD i 0 = (0 :: newlineEnds s.bytes.toList 0).getD i 0 := by
  rw [Array.getD_eq_getD_getElem?, ← Array.getElem?_toList, s.lineStarts_eq, lineStartsOf_toList,
    List.getD_eq_getElem?_getD]

theorem size_lineStarts (s : Source) : s.lineStarts.size = s.bytes.toList.count '\n' + 1 := by
  rw [← Array.length_toList, s.lineStarts_eq, lineStartsOf_toList, List.length_cons,
    length_newlineEnds]

/-- The line starts split at an offset: those up to the first `n` bytes, then those after. -/
theorem lineStarts_split (cs : List Char) (n : Nat) :
    0 :: newlineEnds cs 0 =
      (0 :: newlineEnds (cs.take n) 0) ++ newlineEnds (cs.drop n) (cs.take n).length := by
  conv_lhs => rw [← List.take_append_drop n cs]
  rw [newlineEnds_append, Nat.zero_add, List.cons_append]

/-- The line starts of the first `offset` bytes are at most `offset`, and the later ones are
above it. -/
theorem lineStarts_cut (cs : List Char) (offset : Nat) :
    (∀ e ∈ 0 :: newlineEnds (cs.take offset) 0, e ≤ offset) ∧
      ∀ e ∈ newlineEnds (cs.drop offset) (cs.take offset).length, offset < e := by
  constructor
  · intro e he
    rcases List.mem_cons.1 he with rfl | he
    · exact Nat.zero_le _
    · have := (bounds_of_mem_newlineEnds he).2
      have := List.length_take_le offset cs
      omega
  · intro e he
    have hlt := (bounds_of_mem_newlineEnds he).1
    -- bytes after the first `offset` exist only when the first `offset` are all there
    have hne : cs.drop offset ≠ [] := by
      rintro hnil
      rw [hnil] at he
      cases he
    have hoff : offset < cs.length := by
      by_contra hge
      exact hne (List.drop_eq_nil_of_le (by omega))
    rw [List.length_take_of_le hoff.le] at hlt
    exact hlt

/-- The line of an offset, counted from 0, is the number of newlines before it. -/
theorem lineIndex_eq_count (s : Source) (offset : Nat) :
    s.lineIndex offset = (s.bytes.toList.take offset).count '\n' := by
  obtain ⟨hle, hgt⟩ := lineStarts_cut s.bytes.toList offset
  have hsplit := lineStarts_split s.bytes.toList offset
  set A := 0 :: newlineEnds (s.bytes.toList.take offset) 0
  set B := newlineEnds (s.bytes.toList.drop offset) (s.bytes.toList.take offset).length
  have hA : A.length = (s.bytes.toList.take offset).count '\n' + 1 := by
    simp [A, length_newlineEnds]
  have hsize : s.lineStarts.size = A.length + B.length := by
    rw [← Array.length_toList, s.lineStarts_eq, lineStartsOf_toList, hsplit, List.length_append]
  have hcut : upperBound s.lineStarts offset 0 s.lineStarts.size = A.length := by
    refine upperBound_eq_cut (fun i hi => ?_) (fun i hi hsz => ?_) 0 _ (Nat.zero_le _)
      (by omega) le_rfl
    · rw [getD_lineStarts, hsplit, List.getD_append _ _ _ _ hi]
      exact hle _ (List.getD_eq_getElem _ _ hi ▸ List.getElem_mem hi)
    · have hiB : i - A.length < B.length := by omega
      rw [getD_lineStarts, hsplit, List.getD_append_right _ _ _ _ hi]
      exact hgt _ (List.getD_eq_getElem _ _ hiB ▸ List.getElem_mem hiB)
  rw [lineIndex, hcut, hA, Nat.add_sub_cancel]

/-- The line holding an offset starts just past the last newline before the offset. -/
theorem lineStart_eq (s : Source) (offset : Nat) :
    s.lineStarts.getD (s.lineIndex offset) 0 =
      ((s.bytes.toList.take offset).rdropWhile (· != '\n')).length := by
  have hlen : (s.bytes.toList.take offset).count '\n' <
      (0 :: newlineEnds (s.bytes.toList.take offset) 0).length := by
    simp [length_newlineEnds]
  rw [lineIndex_eq_count, getD_lineStarts, lineStarts_split s.bytes.toList offset,
    List.getD_append _ _ _ _ hlen, List.getD_eq_getElem _ _ hlen, ← getLast_lineStarts,
    List.getLast_eq_getElem]
  simp [length_newlineEnds]

theorem location_line (s : Source) (offset : Nat) :
    (s.location offset).line = (s.bytes.toList.take offset).count '\n' + 1 := by
  simp [location, lineIndex_eq_count]

theorem location_column (s : Source) (offset : Nat) :
    (s.location offset).column =
      offset - ((s.bytes.toList.take offset).rdropWhile (· != '\n')).length + 1 := by
  simp only [location, lineStart_eq]

/-! ## Lines -/

/-- What `line` reads of the text `cs` for line `n` (from 1), before it trims the line end: from
the line's start up to the start of the next line, or to the end of the text. -/
def lineSpan (cs : List Char) (n : Nat) : List Char :=
  let starts := 0 :: newlineEnds cs 0
  let start := starts.getD (n - 1) 0
  (cs.drop start).take ((if n < starts.length then starts.getD n 0 else cs.length) - start)

theorem line_eq_lineSpan (s : Source) {n : Nat} (h1 : 1 ≤ n) (h2 : n ≤ s.lineCount) :
    s.line n = String.ofList (trimLineEnd (lineSpan s.bytes.toList n)) := by
  have hsize : s.lineCount = (0 :: newlineEnds s.bytes.toList 0).length := by
    rw [lineCount, size_lineStarts, List.length_cons, length_newlineEnds]
  rw [line, if_neg (by omega)]
  simp only [hsize, getD_lineStarts, lineSpan, size, Array.toList_extract,
    List.extract_eq_take_drop, Array.length_toList]

theorem trimLineEnd_eq_rdropWhile (cs : List Char) :
    trimLineEnd cs = cs.rdropWhile fun c => c == '\n' || c == '\r' := by
  simp only [trimLineEnd, List.rdropWhile]
  congr 3
  funext c
  simp only [beq_eq_decide, Bool.decide_or]

theorem trimLineEnd_newline (cs : List Char) : trimLineEnd (cs ++ ['\n']) = trimLineEnd cs := by
  rw [trimLineEnd_eq_rdropWhile, trimLineEnd_eq_rdropWhile, List.rdropWhile_concat_pos]
  rfl

/-- A text with a newline splits at its first one. -/
theorem first_newline {cs : List Char} (h : '\n' ∈ cs) :
    ∃ p r, cs = p ++ '\n' :: r ∧ '\n' ∉ p := by
  induction cs with
  | nil => cases h
  | cons c cs ih =>
    by_cases hc : c = '\n'
    · exact ⟨[], cs, by rw [hc, List.nil_append], List.not_mem_nil⟩
    · obtain ⟨p, r, rfl, hp⟩ := ih ((List.mem_cons.1 h).resolve_left (Ne.symm hc))
      exact ⟨c :: p, r, rfl, by simp [hp, Ne.symm hc]⟩

/-- The line starts of a text whose first line is `p`: the start, then those of the rest moved
past `p` and its newline. -/
theorem lineStarts_first_line {p : List Char} (hp : '\n' ∉ p) (r : List Char) :
    0 :: newlineEnds (p ++ '\n' :: r) 0 =
      0 :: (0 :: newlineEnds r 0).map (· + (p.length + 1)) := by
  rw [newlineEnds_append, newlineEnds_of_not_mem hp, newlineEnds_cons, if_pos rfl,
    show 0 + p.length + 1 = 0 + (p.length + 1) by omega, newlineEnds_shift r 0 (p.length + 1)]
  simp

/-- The first line of a text, read up to the start of the second, is its first piece and the
newline after it. -/
theorem lineSpan_first {p : List Char} (hp : '\n' ∉ p) (r : List Char) :
    lineSpan (p ++ '\n' :: r) 1 = p ++ ['\n'] := by
  simp only [lineSpan, lineStarts_first_line hp]
  simp [List.take_append, List.take_of_length_le]

/-- Every later line of a text is a line of the text after its first newline. -/
theorem lineSpan_succ {p : List Char} (hp : '\n' ∉ p) (r : List Char) {m : Nat}
    (hm : m < r.count '\n' + 1) :
    lineSpan (p ++ '\n' :: r) (m + 2) = lineSpan r (m + 1) := by
  have hlen : (0 :: newlineEnds r 0).length = r.count '\n' + 1 := by
    simp [length_newlineEnds]
  -- a line start of the whole text is one of the rest moved past the first line
  have hshift : ∀ i < (0 :: newlineEnds r 0).length,
      (0 :: (0 :: newlineEnds r 0).map (· + (p.length + 1))).getD (i + 1) 0 =
        (0 :: newlineEnds r 0).getD i 0 + (p.length + 1) := by
    intro i hi
    rw [List.getD_cons_succ, List.getD_eq_getElem _ _ (by simpa using hi), List.getElem_map,
      List.getD_eq_getElem _ _ hi]
  have hdrop : ∀ a, (p ++ '\n' :: r).drop (a + (p.length + 1)) = r.drop a := by
    intro a
    rw [Nat.add_comm, ← List.drop_drop]
    simp
  simp only [lineSpan]
  rw [lineStarts_first_line hp, show m + 2 - 1 = m + 1 by omega, show m + 1 - 1 = m by omega]
  simp only [List.length_cons, List.length_map]
  rw [hshift m (by omega), hdrop]
  by_cases hlt : m + 1 < (newlineEnds r 0).length + 1
  · rw [if_pos (by omega), if_pos hlt, hshift (m + 1) (by simpa using hlt),
      Nat.add_sub_add_right]
  · rw [if_neg (by omega), if_neg hlt, List.length_append, List.length_cons,
      show p.length + (r.length + 1) = r.length + (p.length + 1) by omega, Nat.add_sub_add_right]

/-- The lines of a text are its pieces between newlines, each without the line-end bytes it ends
with. The induction is on the length of the text, split at its first newline. -/
theorem lines_split (cs : List Char) :
    (List.range' 1 (cs.count '\n' + 1)).map (fun n => trimLineEnd (lineSpan cs n)) =
      (cs.splitOn '\n').map fun seg => seg.rdropWhile fun c => c == '\n' || c == '\r' := by
  induction h : cs.length using Nat.strong_induction_on generalizing cs with
  | _ len ih =>
  by_cases hnl : '\n' ∈ cs
  · obtain ⟨p, r, rfl, hp⟩ := first_newline hnl
    have hcount : (p ++ '\n' :: r).count '\n' = r.count '\n' + 1 := by
      simp [List.count_append, List.count_eq_zero.2 hp]
    have hrest := ih r.length (by simp at h; omega) r rfl
    rw [hcount, List.range'_succ, List.map_cons, lineSpan_first hp, trimLineEnd_newline,
      List.splitOn_append_cons_self_of_not_mem hp, List.map_cons, trimLineEnd_eq_rdropWhile,
      ← hrest, ← List.map_add_range', List.map_map]
    congr 1
    -- the later lines are the lines of the text after the first newline
    refine List.map_congr_left fun m hm => ?_
    obtain ⟨h1, h2⟩ := List.mem_range'_1.1 hm
    obtain ⟨k, rfl⟩ : ∃ k, m = k + 1 := ⟨m - 1, by omega⟩
    simp only [Function.comp_apply]
    rw [show 1 + (k + 1) = k + 2 by omega, lineSpan_succ hp r (by omega)]
  · -- a text without newlines is one line
    rw [List.count_eq_zero.2 hnl, List.splitOn_eq_singleton hnl]
    simp [lineSpan, newlineEnds_of_not_mem hnl, trimLineEnd_eq_rdropWhile]

end AmLang.Source
