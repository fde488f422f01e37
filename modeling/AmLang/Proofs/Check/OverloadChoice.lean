import Mathlib.Data.List.Basic
import AmLang.Check.Overload
/-!
# Overload resolution chooses the unique best candidate

`resolveOverload` scans the viable candidates twice: once for the best, once for those that tie
with it. Two viable candidates compare by the sum of their argument costs and, at equal sums, a
non-generic candidate comes first. That order is the order of one number, the candidate's key
(`Viable.key`), so the first scan settles on the first viable candidate of least key, and the
second finds the others of that key.

`Resolves` says what the answer must be without either scan: no match when no candidate is
viable; the candidate at position `i` when its key is below the key of every other viable
candidate; otherwise the positions of all viable candidates of least key, in order, the first
of them being the one the first scan settles on.

## Main results

* `resolveOverload_iff` — `resolveOverload` answers `r` exactly when `Resolves` holds of `r`.
* `resolveOverload_perm` — reordering the candidates chooses the same candidate, with the same
  rank, inferred arguments and types, or reports the same tied candidates.
* `resolveOverload_unique_best` — both, with the three kinds of answer spelled out.
-/

namespace AmLang

namespace Viable

/-- The number candidates are ranked by: twice the rank, plus one for a generic candidate, so
that of two equal ranks the non-generic candidate comes first. -/
def key (v : Viable) : Nat := 2 * v.rank + v.generic.toNat

/-- The candidate the first scan keeps of the best so far and the next one. -/
def pick (best v : Viable) : Viable := if v.better best then v else best

theorem better_eq_true_iff (a b : Viable) : a.better b = true ↔ a.key < b.key := by
  unfold better key
  by_cases h : a.rank = b.rank
  · cases a.generic <;> cases b.generic <;> simp [h]
  · simp only [bne_iff_ne, ne_eq, h, not_false_eq_true, ↓reduceIte, decide_eq_true_eq]
    cases a.generic <;> cases b.generic <;> simp <;> omega

theorem better_eq_false_iff (a b : Viable) : a.better b = false ↔ b.key ≤ a.key := by
  rw [← Bool.not_eq_true, better_eq_true_iff, Nat.not_lt]

end Viable

section Resolution

variable (env : ClassEnv) (fnOf : FunctionId → FunctionSymbol) (args : List Argument)

/-! ## One candidate -/

/-- A viable candidate records the position it was given, and nothing else depends on it. -/
theorem Candidate.viable_reindex (c : Candidate) (fs : FunctionSymbol) (i j : Nat) :
    c.viable env fs args j = (c.viable env fs args i).map fun v => { v with index := j } := by
  unfold Candidate.viable
  by_cases hlen : (c.params.length != args.length) = true
  · simp [hlen]
  · simp only [hlen, Bool.false_eq_true, ↓reduceIte]
    cases fs.isGeneric <;> simp [Option.map_bind, Function.comp_def]

theorem Candidate.index_of_viable {c : Candidate} {fs : FunctionSymbol} {i : Nat} {v : Viable}
    (h : c.viable env fs args i = some v) : v.index = i := by
  rw [c.viable_reindex env args fs i i] at h
  obtain ⟨w, -, rfl⟩ := Option.map_eq_some_iff.1 h
  rfl

/-- The key of a candidate, when the arguments can call it. -/
def Candidate.key? (c : Candidate) : Option Nat :=
  (c.viable env (fnOf c.fn) args 0).map Viable.key

theorem Candidate.map_key_viable (c : Candidate) (i : Nat) :
    (c.viable env (fnOf c.fn) args i).map Viable.key = c.key? env fnOf args := by
  rw [Candidate.key?, c.viable_reindex env args _ 0 i, Option.map_map]
  rfl

/-! ## The specification -/

/-- The candidate at position `i`, as a viable one, when the arguments can call it. -/
def viableAt (cs : List Candidate) (i : Nat) : Option Viable :=
  cs[i]?.bind fun c => c.viable env (fnOf c.fn) args i

/-- The positions of the viable candidates of key `m`, in order. -/
def tiedAt (cs : List Candidate) (m : Nat) : List Nat :=
  (cs.zipIdx.filter fun p => p.1.key? env fnOf args == some m).map (·.2)

/-- What overload resolution must answer for the candidates `cs`. -/
inductive Resolves (cs : List Candidate) : Resolution → Prop
  /-- No candidate is viable. -/
  | noMatch : (∀ i, viableAt env fnOf args cs i = none) → Resolves cs .noMatch
  /-- The candidate at `i` is viable with a key below the key of every other viable one. -/
  | chosen (i : Nat) (v : Viable) : viableAt env fnOf args cs i = some v →
      (∀ j w, j ≠ i → viableAt env fnOf args cs j = some w → v.key < w.key) →
      Resolves cs (.chosen i v.rank v.typeArgs v.params v.result)
  /-- At least two viable candidates share the least key `m`: all of them are reported. -/
  | ambiguous (m : Nat) : (∀ j w, viableAt env fnOf args cs j = some w → m ≤ w.key) →
      2 ≤ (tiedAt env fnOf args cs m).length →
      Resolves cs (.ambiguous (tiedAt env fnOf args cs m))

variable {env fnOf args}

theorem index_of_viableAt {cs : List Candidate} {i : Nat} {v : Viable}
    (h : viableAt env fnOf args cs i = some v) : v.index = i := by
  obtain ⟨c, -, hv⟩ := Option.bind_eq_some_iff.1 h
  exact Candidate.index_of_viable env args hv

theorem key_of_viableAt {cs : List Candidate} {i : Nat} {v : Viable}
    (h : viableAt env fnOf args cs i = some v) :
    ∃ c, cs[i]? = some c ∧ c.key? env fnOf args = some v.key := by
  obtain ⟨c, hc, hv⟩ := Option.bind_eq_some_iff.1 h
  refine ⟨c, hc, ?_⟩
  rw [← c.map_key_viable env fnOf args i, hv, Option.map_some]

theorem mem_tiedAt {cs : List Candidate} {m j : Nat} :
    j ∈ tiedAt env fnOf args cs m ↔ ∃ w, viableAt env fnOf args cs j = some w ∧ w.key = m := by
  simp only [tiedAt, List.mem_map, List.mem_filter, beq_iff_eq]
  constructor
  · rintro ⟨⟨c, i⟩, ⟨hmem, hkey⟩, rfl⟩
    have hc : cs[i]? = some c := List.mem_zipIdx_iff_getElem?.1 hmem
    rw [← c.map_key_viable env fnOf args i] at hkey
    obtain ⟨w, hw, rfl⟩ := Option.map_eq_some_iff.1 hkey
    exact ⟨w, by simp [viableAt, hc, hw], rfl⟩
  · rintro ⟨w, hw, rfl⟩
    obtain ⟨c, hc, hkey⟩ := key_of_viableAt hw
    exact ⟨(c, j), ⟨List.mem_zipIdx_iff_getElem?.2 hc, hkey⟩, rfl⟩

variable (env fnOf args) in
theorem nodup_tiedAt (cs : List Candidate) (m : Nat) : (tiedAt env fnOf args cs m).Nodup := by
  have hnd : (cs.zipIdx.map (·.2)).Nodup := by
    rw [List.zipIdx_map_snd]
    exact List.nodup_range'
  exact hnd.sublist (List.filter_sublist.map _)

/-- Two listed positions of key `m`: one of them is not `i`. -/
theorem exists_tied_ne {cs : List Candidate} {m : Nat} (i : Nat)
    (hlen : 2 ≤ (tiedAt env fnOf args cs m).length) :
    ∃ j w, j ≠ i ∧ viableAt env fnOf args cs j = some w ∧ w.key = m := by
  have hnd := nodup_tiedAt env fnOf args cs m
  match htied : tiedAt env fnOf args cs m, hlen with
  | j₁ :: j₂ :: _, _ =>
    rw [htied, List.nodup_cons, List.mem_cons, not_or] at hnd
    have hne : j₁ ≠ j₂ := hnd.1.1
    by_cases hi : j₁ = i
    · obtain ⟨w, hw, hk⟩ := mem_tiedAt.1 (htied ▸ List.mem_cons_of_mem _ List.mem_cons_self)
      exact ⟨j₂, w, fun h => hne (hi.trans h.symm), hw, hk⟩
    · obtain ⟨w, hw, hk⟩ := mem_tiedAt.1 (htied ▸ List.mem_cons_self)
      exact ⟨j₁, w, hi, hw, hk⟩

/-- The answer `Resolves` describes is unique. -/
theorem Resolves.unique {cs : List Candidate} {r r' : Resolution}
    (h : Resolves env fnOf args cs r) (h' : Resolves env fnOf args cs r') : r = r' := by
  cases h with
  | noMatch hnone =>
    cases h' with
    | noMatch => rfl
    | chosen i v hv _ => simp [hnone i] at hv
    | ambiguous m _ hlen =>
      obtain ⟨j, w, -, hw, -⟩ := exists_tied_ne 0 hlen
      simp [hnone j] at hw
  | chosen i v hv hleast =>
    cases h' with
    | noMatch hnone => simp [hnone i] at hv
    | chosen i' v' hv' hleast' =>
      by_cases hi : i = i'
      · subst hi
        rw [hv] at hv'
        cases hv'
        rfl
      · have := hleast i' v' (Ne.symm hi) hv'
        have := hleast' i v hi hv
        omega
    | ambiguous m hmin hlen =>
      obtain ⟨j, w, hj, hw, hk⟩ := exists_tied_ne i hlen
      have := hleast j w hj hw
      have := hmin i v hv
      omega
  | ambiguous m hmin hlen =>
    cases h' with
    | noMatch hnone =>
      obtain ⟨j, w, -, hw, -⟩ := exists_tied_ne 0 hlen
      simp [hnone j] at hw
    | chosen i v hv hleast =>
      obtain ⟨j, w, hj, hw, hk⟩ := exists_tied_ne i hlen
      have := hleast j w hj hw
      have := hmin i v hv
      omega
    | ambiguous m' hmin' hlen' =>
      obtain ⟨j, w, -, hw, hk⟩ := exists_tied_ne 0 hlen
      obtain ⟨j', w', -, hw', hk'⟩ := exists_tied_ne 0 hlen'
      have := hmin j' w' hw'
      have := hmin' j w hw
      have hm : m = m' := by omega
      rw [hm]

/-! ## The scans -/

variable (env fnOf args) in
/-- The viable candidates in order, as `resolveOverload` lists them. -/
def viables (cs : List Candidate) : List Viable :=
  cs.zipIdx.filterMap fun (c, i) => c.viable env (fnOf c.fn) args i

/-- The scans of `resolveOverload` over the viable candidates. -/
def scan : List Viable → Resolution
  | [] => .noMatch
  | first :: rest =>
    let best := (first :: rest).foldl Viable.pick first
    let tied := (first :: rest).filter fun v => v.index != best.index && !best.better v
    if tied.isEmpty then .chosen best.index best.rank best.typeArgs best.params best.result
    else .ambiguous (best.index :: tied.map (·.index))

theorem resolveOverload_eq_scan (cs : List Candidate) :
    resolveOverload env fnOf cs args = scan (viables env fnOf args cs) := by
  unfold resolveOverload viables
  dsimp only
  split <;> rename_i heq <;> rw [heq] <;> rfl

theorem mem_viables {cs : List Candidate} {v : Viable} :
    v ∈ viables env fnOf args cs ↔ viableAt env fnOf args cs v.index = some v := by
  simp only [viables, List.mem_filterMap, viableAt]
  constructor
  · rintro ⟨⟨c, i⟩, hmem, hv⟩
    have hc : cs[i]? = some c := List.mem_zipIdx_iff_getElem?.1 hmem
    rw [Candidate.index_of_viable env args hv, hc, Option.bind_some]
    exact hv
  · intro h
    obtain ⟨c, hc, hv⟩ := Option.bind_eq_some_iff.1 h
    exact ⟨(c, v.index), List.mem_zipIdx_iff_getElem?.2 hc, hv⟩

variable (env fnOf args) in
/-- Positions increase along the viable candidates. -/
theorem viables_pairwise (cs : List Candidate) :
    (viables env fnOf args cs).Pairwise fun v w => v.index < w.index := by
  have hlt : cs.zipIdx.Pairwise fun p q => p.2 < q.2 := by
    have h : (cs.zipIdx.map (·.2)).Pairwise (· < ·) := by
      rw [List.zipIdx_map_snd]
      exact List.pairwise_lt_range'
    exact List.pairwise_map.1 h
  refine List.pairwise_filterMap.2 (hlt.imp fun hpq v hv w hw => ?_)
  rw [Candidate.index_of_viable env args hv, Candidate.index_of_viable env args hw]
  exact hpq

variable (env fnOf args) in
/-- The viable candidates of key `m`, as positions, are `tiedAt`. -/
theorem map_index_filter_viables (cs : List Candidate) (m : Nat) :
    ((viables env fnOf args cs).filter fun v => v.key == m).map (·.index) =
      tiedAt env fnOf args cs m := by
  simp only [viables, tiedAt, List.filter_filterMap, List.map_filterMap]
  rw [← List.filterMap_eq_map', List.filterMap_filter]
  refine List.filterMap_congr fun ⟨c, i⟩ _ => ?_
  rw [← c.map_key_viable env fnOf args i]
  cases hv : c.viable env (fnOf c.fn) args i with
  | none => simp
  | some v =>
    by_cases hk : v.key = m
    · simp [hk, Candidate.index_of_viable env args hv]
    · simp [hk]

/-- **The first scan** keeps the first candidate of least key: every candidate before it has a
greater key and none after it a smaller one. -/
theorem foldl_pick_split (a : Viable) (l : List Viable) :
    (l.foldl Viable.pick a = a ∧ ∀ v ∈ l, a.key ≤ v.key) ∨
      ∃ pre post, l = pre ++ l.foldl Viable.pick a :: post ∧
        (l.foldl Viable.pick a).key < a.key ∧
        (∀ v ∈ pre, (l.foldl Viable.pick a).key < v.key) ∧
        ∀ v ∈ post, (l.foldl Viable.pick a).key ≤ v.key := by
  induction l generalizing a with
  | nil => exact .inl ⟨rfl, by simp⟩
  | cons v l ih =>
    simp only [List.foldl_cons]
    by_cases hv : v.better a = true
    · have hlt := (Viable.better_eq_true_iff v a).1 hv
      have hpick : a.pick v = v := if_pos hv
      rw [hpick]
      rcases ih v with ⟨hb, hle⟩ | ⟨pre, post, hl, hlt', hpre, hpost⟩
      · rw [hb]
        exact .inr ⟨[], l, rfl, hlt, by simp, hle⟩
      · refine .inr ⟨v :: pre, post, congrArg (v :: ·) hl, by omega, ?_, hpost⟩
        simp only [List.mem_cons, forall_eq_or_imp]
        exact ⟨hlt', hpre⟩
    · have hle := (Viable.better_eq_false_iff v a).1 (Bool.eq_false_iff.2 hv)
      have hpick : a.pick v = a := if_neg hv
      rw [hpick]
      rcases ih a with ⟨hb, hle'⟩ | ⟨pre, post, hl, hlt', hpre, hpost⟩
      · refine .inl ⟨hb, ?_⟩
        simp only [List.mem_cons, forall_eq_or_imp]
        exact ⟨hle, hle'⟩
      · refine .inr ⟨v :: pre, post, congrArg (v :: ·) hl, hlt', ?_, hpost⟩
        simp only [List.mem_cons, forall_eq_or_imp]
        exact ⟨by omega, hpre⟩

/-- From a nonempty list the first scan returns a candidate of least key with only greater keys
before it. -/
theorem foldl_pick_first (first : Viable) (rest : List Viable) :
    ∃ pre post, first :: rest = pre ++ (first :: rest).foldl Viable.pick first :: post ∧
      (∀ v ∈ pre, ((first :: rest).foldl Viable.pick first).key < v.key) ∧
      ∀ v ∈ post, ((first :: rest).foldl Viable.pick first).key ≤ v.key := by
  have hself : first.pick first = first :=
    if_neg (by rw [Viable.better_eq_true_iff]; exact Nat.lt_irrefl _)
  simp only [List.foldl_cons, hself]
  rcases foldl_pick_split first rest with ⟨hb, hle⟩ | ⟨pre, post, hl, hlt, hpre, hpost⟩
  · rw [hb]
    exact ⟨[], rest, rfl, by simp, hle⟩
  · refine ⟨first :: pre, post, congrArg (first :: ·) hl, ?_, hpost⟩
    simp only [List.mem_cons, forall_eq_or_imp]
    exact ⟨hlt, hpre⟩

section Split

variable {pre post : List Viable} {b : Viable}

/-- Around the first candidate `b` of least key, the second scan keeps the candidates after it
of its key. -/
theorem filter_tied_split (hpair : (pre ++ b :: post).Pairwise fun v w => v.index < w.index)
    (hpre : ∀ v ∈ pre, b.key < v.key) (hpost : ∀ v ∈ post, b.key ≤ v.key) :
    (pre ++ b :: post).filter (fun v => v.index != b.index && !b.better v) =
      post.filter fun v => v.key == b.key := by
  have hafter : ∀ v ∈ post, b.index < v.index := by
    rw [List.pairwise_append, List.pairwise_cons] at hpair
    exact hpair.2.1.1
  rw [List.filter_append, List.filter_cons]
  have hnil : pre.filter (fun v => v.index != b.index && !b.better v) = [] :=
    List.filter_eq_nil_iff.2 fun v hv => by
      simp [(Viable.better_eq_true_iff b v).2 (hpre v hv)]
  rw [hnil, List.nil_append]
  simp only [bne_self_eq_false, Bool.false_and, Bool.false_eq_true, ↓reduceIte]
  refine List.filter_congr fun v hv => ?_
  have hne : (v.index != b.index) = true := bne_iff_ne.2 (Nat.ne_of_gt (hafter v hv))
  have hle := hpost v hv
  rw [hne, Bool.true_and]
  cases hb : b.better v
  · have := (Viable.better_eq_false_iff b v).1 hb
    rw [Bool.not_false, eq_comm, beq_iff_eq]
    omega
  · have := (Viable.better_eq_true_iff b v).1 hb
    rw [Bool.not_true, eq_comm, beq_eq_false_iff_ne]
    omega

/-- Around the first candidate `b` of least key, the candidates of its key are `b` and those
after it. -/
theorem filter_key_split (hpre : ∀ v ∈ pre, b.key < v.key) :
    (pre ++ b :: post).filter (fun v => v.key == b.key) =
      b :: post.filter fun v => v.key == b.key := by
  have hnil : pre.filter (fun v => v.key == b.key) = [] :=
    List.filter_eq_nil_iff.2 fun v hv => by
      have := hpre v hv
      simp only [beq_iff_eq]
      omega
  rw [List.filter_append, hnil, List.nil_append, List.filter_cons_of_pos (by simp)]

end Split

variable (env fnOf args) in
/-- **The scans meet the specification.** -/
theorem resolveOverload_resolves (cs : List Candidate) :
    Resolves env fnOf args cs (resolveOverload env fnOf cs args) := by
  rw [resolveOverload_eq_scan]
  have hpair := viables_pairwise env fnOf args cs
  have hmem : ∀ v, v ∈ viables env fnOf args cs ↔ viableAt env fnOf args cs v.index = some v :=
    fun _ => mem_viables
  have htied := map_index_filter_viables env fnOf args cs
  generalize viables env fnOf args cs = V at hpair hmem htied
  cases V with
  | nil =>
    refine .noMatch fun i => ?_
    cases h : viableAt env fnOf args cs i with
    | none => rfl
    | some v =>
      have hv := (hmem v).2 (by rw [index_of_viableAt h]; exact h)
      simp at hv
  | cons first rest =>
    obtain ⟨pre, post, hsplit, hpre, hpost⟩ := foldl_pick_first first rest
    simp only [scan]
    generalize (first :: rest).foldl Viable.pick first = b at hsplit hpre hpost
    rw [hsplit] at hpair hmem htied ⊢
    rw [filter_tied_split hpair hpre hpost]
    -- every viable candidate is before `b`, `b` itself, or after it
    have hwhere : ∀ j w, viableAt env fnOf args cs j = some w →
        w = b ∨ b.key < w.key ∨ (w ∈ post ∧ b.key ≤ w.key) := by
      intro j w hw
      have hin := (hmem w).2 (by rw [index_of_viableAt hw]; exact hw)
      simp only [List.mem_append, List.mem_cons] at hin
      rcases hin with hin | rfl | hin
      · exact .inr (.inl (hpre w hin))
      · exact .inl rfl
      · exact .inr (.inr ⟨hin, hpost w hin⟩)
    have hb : viableAt env fnOf args cs b.index = some b := (hmem b).1 (by simp)
    have hlist : tiedAt env fnOf args cs b.key =
        b.index :: (post.filter fun v => v.key == b.key).map (·.index) := by
      rw [← htied, filter_key_split hpre, List.map_cons]
    split
    · rename_i hempty
      refine .chosen b.index b hb fun j w hj hw => ?_
      rcases hwhere j w hw with rfl | hlt | ⟨hin, hle⟩
      · exact absurd (index_of_viableAt hw).symm hj
      · exact hlt
      · rcases Nat.lt_or_eq_of_le hle with hlt | heq
        · exact hlt
        · have : w ∈ post.filter fun v => v.key == b.key := List.mem_filter.2 ⟨hin, by simp [heq]⟩
          simp [List.isEmpty_iff.1 hempty] at this
    · rename_i hne
      rw [← hlist]
      refine .ambiguous b.key (fun j w hw => ?_) ?_
      · rcases hwhere j w hw with rfl | hlt | ⟨-, hle⟩
        · exact Nat.le_refl _
        · exact Nat.le_of_lt hlt
        · exact hle
      · rw [hlist, List.length_cons, List.length_map]
        have := List.length_pos_iff.2 (fun h => hne (List.isEmpty_iff.2 h))
        omega

/-- **`resolveOverload` answers exactly what `Resolves` describes.** -/
theorem resolveOverload_iff (cs : List Candidate) (r : Resolution) :
    resolveOverload env fnOf cs args = r ↔ Resolves env fnOf args cs r := by
  constructor
  · rintro rfl
    exact resolveOverload_resolves env fnOf args cs
  · intro h
    exact (resolveOverload_resolves env fnOf args cs).unique h

/-! ## The order of the candidates -/

/-- The positions an answer names: the chosen candidate's, or the tied ones. -/
def Resolution.positions : Resolution → List Nat
  | .chosen i .. => [i]
  | .noMatch => []
  | .ambiguous tied => tied

/-- The candidates at the positions of key `m` are those of key `m`, in order. -/
theorem map_getElem?_tiedAt (cs : List Candidate) (m : Nat) :
    (tiedAt env fnOf args cs m).map (cs[·]?) =
      (cs.filter fun c => c.key? env fnOf args == some m).map some := by
  have hzip : (cs.zipIdx.filter fun p => p.1.key? env fnOf args == some m).map Prod.fst =
      cs.filter fun c => c.key? env fnOf args == some m := by
    conv_rhs => rw [← List.zipIdx_map_fst 0 cs]
    rw [List.filter_map]
    rfl
  rw [tiedAt, List.map_map, ← hzip, List.map_map]
  refine List.map_congr_left fun p hp => ?_
  exact List.mem_zipIdx_iff_getElem?.1 (List.mem_filter.1 hp).1

theorem Resolves.chosen_inv {cs : List Candidate} {i rank : Nat} {typeArgs params : List Ty}
    {result : Ty} (h : Resolves env fnOf args cs (.chosen i rank typeArgs params result)) :
    ∃ v, viableAt env fnOf args cs i = some v ∧ v.rank = rank ∧ v.typeArgs = typeArgs ∧
      v.params = params ∧ v.result = result ∧
      ∀ j w, j ≠ i → viableAt env fnOf args cs j = some w → v.key < w.key := by
  cases h with
  | chosen i v hv hleast => exact ⟨v, hv, rfl, rfl, rfl, rfl, hleast⟩

theorem Resolves.ambiguous_inv {cs : List Candidate} {tied : List Nat}
    (h : Resolves env fnOf args cs (.ambiguous tied)) :
    ∃ m, (∀ j w, viableAt env fnOf args cs j = some w → m ≤ w.key) ∧
      tied = tiedAt env fnOf args cs m ∧ 2 ≤ tied.length := by
  cases h with
  | ambiguous m hmin hlen => exact ⟨m, hmin, rfl, hlen⟩

/-- Whatever `Resolves` answers names the positions of the least key `m`, which some candidate
has unless none is viable. -/
theorem Resolves.positions_eq {cs : List Candidate} {r : Resolution}
    (h : Resolves env fnOf args cs r) :
    ∃ m, (∀ c ∈ cs, ∀ k, c.key? env fnOf args = some k → m ≤ k) ∧
      ((∀ c ∈ cs, c.key? env fnOf args = none) ∨ ∃ c ∈ cs, c.key? env fnOf args = some m) ∧
      r.positions = tiedAt env fnOf args cs m := by
  -- a bound on the keys of positions is a bound on the keys of candidates
  have hbound : ∀ m, (∀ j w, viableAt env fnOf args cs j = some w → m ≤ w.key) →
      ∀ c ∈ cs, ∀ k, c.key? env fnOf args = some k → m ≤ k := by
    intro m hmin c hc k hk
    obtain ⟨i, hi⟩ := List.mem_iff_getElem?.1 hc
    rw [← c.map_key_viable env fnOf args i] at hk
    obtain ⟨w, hw, rfl⟩ := Option.map_eq_some_iff.1 hk
    exact hmin i w (by simp [viableAt, hi, hw])
  -- a position of key `m` is a candidate of key `m`
  have hat : ∀ {j w m}, viableAt env fnOf args cs j = some w → w.key = m →
      ∃ c ∈ cs, c.key? env fnOf args = some m := by
    intro j w m hw hk
    obtain ⟨c, hc, hkey⟩ := key_of_viableAt hw
    exact ⟨c, List.mem_of_getElem? hc, hk ▸ hkey⟩
  cases h with
  | noMatch hnone =>
    refine ⟨0, hbound 0 fun j w hw => by simp [hnone j] at hw, .inl fun c hc => ?_, ?_⟩
    · obtain ⟨i, hi⟩ := List.mem_iff_getElem?.1 hc
      have := hnone i
      rw [viableAt, hi, Option.bind_some] at this
      rw [← c.map_key_viable env fnOf args i, this, Option.map_none]
    · symm
      refine List.eq_nil_iff_forall_not_mem.2 fun j hj => ?_
      obtain ⟨w, hw, -⟩ := mem_tiedAt.1 hj
      simp [hnone j] at hw
  | chosen i v hv hleast =>
    refine ⟨v.key, hbound v.key fun j w hw => ?_, .inr (hat hv rfl), ?_⟩
    · by_cases hj : j = i
      · subst hj
        rw [hv] at hw
        cases hw
        exact Nat.le_refl _
      · exact Nat.le_of_lt (hleast j w hj hw)
    · -- `i` is the only position of key `v.key`
      have hsub : ∀ j ∈ tiedAt env fnOf args cs v.key, j = i := fun j hj => by
        obtain ⟨w, hw, hk⟩ := mem_tiedAt.1 hj
        by_cases hji : j = i
        · exact hji
        · have := hleast j w hji hw
          omega
      have hi : i ∈ tiedAt env fnOf args cs v.key := mem_tiedAt.2 ⟨v, hv, rfl⟩
      have hnd := nodup_tiedAt env fnOf args cs v.key
      match htied : tiedAt env fnOf args cs v.key with
      | [] => simp [htied] at hi
      | [j] => rw [hsub j (by simp [htied])]; rfl
      | j₁ :: j₂ :: _ =>
        rw [htied] at hsub hnd
        have h₁ := hsub j₁ List.mem_cons_self
        have h₂ := hsub j₂ (List.mem_cons_of_mem _ List.mem_cons_self)
        simp [h₁, h₂] at hnd
  | ambiguous m hmin hlen =>
    obtain ⟨j, w, -, hw, hk⟩ := exists_tied_ne 0 hlen
    exact ⟨m, hbound m hmin, .inr (hat hw hk), rfl⟩

/-- How many positions an answer names tells which kind of answer it is. -/
theorem Resolves.length_positions {cs : List Candidate} {r : Resolution}
    (h : Resolves env fnOf args cs r) :
    (r = .noMatch ↔ r.positions.length = 0) ∧
      ((∃ i rank typeArgs params result, r = .chosen i rank typeArgs params result) ↔
        r.positions.length = 1) := by
  cases h with
  | noMatch => simp [Resolution.positions]
  | chosen => simp [Resolution.positions]
  | ambiguous m _ hlen =>
    simp only [Resolution.positions, reduceCtorEq, false_iff, exists_false]
    omega

variable (env fnOf args) in
/-- Reordering the candidates reorders the candidates an answer names. -/
theorem named_perm {cs cs' : List Candidate} (hperm : cs.Perm cs') :
    ((resolveOverload env fnOf cs args).positions.map (cs[·]?)).Perm
      ((resolveOverload env fnOf cs' args).positions.map (cs'[·]?)) := by
  obtain ⟨m, hmin, hat, hpos⟩ := (resolveOverload_resolves env fnOf args cs).positions_eq
  obtain ⟨m', hmin', hat', hpos'⟩ := (resolveOverload_resolves env fnOf args cs').positions_eq
  rw [hpos, hpos', map_getElem?_tiedAt, map_getElem?_tiedAt]
  rcases hat with hnone | ⟨c, hc, hk⟩
  · -- no candidate is viable, in either order
    have hnone' : ∀ c ∈ cs', c.key? env fnOf args = none :=
      fun c hc => hnone c (hperm.mem_iff.2 hc)
    rw [List.filter_eq_nil_iff.2 fun c hc => by simp [hnone c hc],
      List.filter_eq_nil_iff.2 fun c hc => by simp [hnone' c hc]]
  · -- the least keys agree
    have hm : m = m' := by
      rcases hat' with hnone' | ⟨c', hc', hk'⟩
      · simp [hnone' c (hperm.mem_iff.1 hc)] at hk
      · have := hmin c' (hperm.mem_iff.2 hc') m' hk'
        have := hmin' c (hperm.mem_iff.1 hc) m hk
        omega
    subst hm
    exact (hperm.filter _).map _

/-- **Reordering the candidates** chooses the same candidate, with the same rank, inferred
arguments and types, or reports the same tied candidates. -/
theorem resolveOverload_perm {cs cs' : List Candidate} (hperm : cs.Perm cs') :
    (resolveOverload env fnOf cs args = .noMatch ↔ resolveOverload env fnOf cs' args = .noMatch) ∧
    (∀ i rank typeArgs params result,
      resolveOverload env fnOf cs args = .chosen i rank typeArgs params result →
      ∃ i', cs'[i']? = cs[i]? ∧
        resolveOverload env fnOf cs' args = .chosen i' rank typeArgs params result) ∧
    (∀ tied, resolveOverload env fnOf cs args = .ambiguous tied →
      ∃ tied', resolveOverload env fnOf cs' args = .ambiguous tied' ∧
        (tied.map (cs[·]?)).Perm (tied'.map (cs'[·]?))) := by
  have h := resolveOverload_resolves env fnOf args cs
  have h' := resolveOverload_resolves env fnOf args cs'
  have hnamed := named_perm env fnOf args hperm
  have hlen := hnamed.length_eq
  simp only [List.length_map] at hlen
  obtain ⟨hnone, hone⟩ := h.length_positions
  obtain ⟨hnone', hone'⟩ := h'.length_positions
  refine ⟨by rw [hnone, hnone', hlen], fun i rank typeArgs params result hr => ?_,
    fun tied hr => ?_⟩
  · obtain ⟨i', rank', typeArgs', params', result', hr'⟩ :=
      hone'.2 (hlen ▸ hone.1 ⟨_, _, _, _, _, hr⟩)
    rw [hr, hr'] at hnamed
    have hsame : cs'[i']? = cs[i]? := by
      simpa [Resolution.positions] using hnamed.symm
    rw [hr] at h
    rw [hr'] at h' ⊢
    obtain ⟨v, hv, rfl, rfl, rfl, rfl, -⟩ := h.chosen_inv
    obtain ⟨v', hv', rfl, rfl, rfl, rfl, -⟩ := h'.chosen_inv
    -- the same candidate at two positions is viable alike
    obtain ⟨c, hc, hcv⟩ := Option.bind_eq_some_iff.1 hv
    obtain ⟨c', hc', hcv'⟩ := Option.bind_eq_some_iff.1 hv'
    have hcc : c' = c := by rw [hsame, hc] at hc'; exact (Option.some.inj hc').symm
    subst hcc
    rw [c'.viable_reindex env args _ i i', hcv, Option.map_some, Option.some.injEq] at hcv'
    subst hcv'
    exact ⟨i', hsame, rfl⟩
  · rw [hr] at hnamed h
    obtain ⟨-, -, -, htwo⟩ := h.ambiguous_inv
    cases hr' : resolveOverload env fnOf cs' args with
    | noMatch =>
      rw [hr, hr'] at hlen
      simp only [Resolution.positions, List.length_nil] at hlen
      omega
    | chosen i' rank' typeArgs' params' result' =>
      rw [hr, hr'] at hlen
      simp only [Resolution.positions, List.length_singleton] at hlen
      omega
    | ambiguous tied' =>
      rw [hr'] at hnamed
      exact ⟨tied', rfl, hnamed⟩

/-- **Overload resolution picks the unique best candidate.** No match exactly when no candidate
is viable; the candidate at `i`, with its rank, inferred arguments and types, exactly when its
key is below the key of every other viable candidate; ambiguity exactly when two or more viable
candidates share the least key, all of them listed in order; and the chosen candidate and the
tied ones do not depend on the order of the candidates. -/
theorem resolveOverload_unique_best (cs : List Candidate) :
    (resolveOverload env fnOf cs args = .noMatch ↔ ∀ i, viableAt env fnOf args cs i = none) ∧
    (∀ i rank typeArgs params result,
      resolveOverload env fnOf cs args = .chosen i rank typeArgs params result ↔
        ∃ v, viableAt env fnOf args cs i = some v ∧ v.rank = rank ∧ v.typeArgs = typeArgs ∧
          v.params = params ∧ v.result = result ∧
          ∀ j w, j ≠ i → viableAt env fnOf args cs j = some w → v.key < w.key) ∧
    (∀ tied, resolveOverload env fnOf cs args = .ambiguous tied ↔
      ∃ m, (∀ j w, viableAt env fnOf args cs j = some w → m ≤ w.key) ∧
        tied = tiedAt env fnOf args cs m ∧ 2 ≤ tied.length) ∧
    (∀ cs', cs.Perm cs' →
      (resolveOverload env fnOf cs args = .noMatch ↔
        resolveOverload env fnOf cs' args = .noMatch) ∧
      (∀ i rank typeArgs params result,
        resolveOverload env fnOf cs args = .chosen i rank typeArgs params result →
        ∃ i', cs'[i']? = cs[i]? ∧
          resolveOverload env fnOf cs' args = .chosen i' rank typeArgs params result) ∧
      (∀ tied, resolveOverload env fnOf cs args = .ambiguous tied →
        ∃ tied', resolveOverload env fnOf cs' args = .ambiguous tied' ∧
          (tied.map (cs[·]?)).Perm (tied'.map (cs'[·]?)))) := by
  refine ⟨?_, fun i rank typeArgs params result => ?_, fun tied => ?_,
    fun cs' hperm => resolveOverload_perm hperm⟩
  · rw [resolveOverload_iff]
    constructor
    · rintro (hnone | _ | _)
      exact hnone
    · exact .noMatch
  · rw [resolveOverload_iff]
    constructor
    · exact Resolves.chosen_inv
    · rintro ⟨v, hv, rfl, rfl, rfl, rfl, hleast⟩
      exact .chosen i v hv hleast
  · rw [resolveOverload_iff]
    constructor
    · exact Resolves.ambiguous_inv
    · rintro ⟨m, hmin, rfl, hlen⟩
      exact .ambiguous m hmin hlen

end Resolution

end AmLang
