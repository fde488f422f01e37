import Mathlib.Data.List.Induction
import AmLang.Emit.Layout
/-!
# The C files of a program's units

Each unit of a program is written to a C file named by its path (`moduleNamesFor`), and the
same name prefixes its initializer `<module>__init`. The name is the unit's stem (`moduleStem`):
its file name without the extension, made into an identifier, with `_mod` after the names of the
fixed files `aml_program`, `aml_main` and `aml_runtime`. The second, third, … unit of one stem
gets `_2`, `_3`, … after it (`numberedStem`).

Every name is a C identifier and none is a fixed file's. Numbering tells apart the units of one
stem, but not a numbered stem from the stem of another unit that already ends in that number:
the units `x/a.aml`, `y/a.aml` and `a_2.aml` are all named `a`, `a_2` and `a_2`. Two units get one
name only in that way.

## Main results

* `moduleNamesFor_getElem?` — the name of each unit: its stem, numbered by the units of that stem
  before it.
* `numberedStem_eq_numberedStem` — two numbered stems are equal only for one stem and one count,
  or when one stem is the other followed by `_` and a count of two or more.
* `moduleNamesFor_names` — the names are C identifiers, none a fixed file's, one per unit, and two
  units share one only when one's stem is the other's followed by `_k` for some `k ≥ 2`.
-/

namespace AmLang

/-! ## C identifiers -/

/-- A character that may stand in a C identifier: an ASCII letter or digit, or `_`. -/
def IsIdentChar (c : Char) : Prop := c.isAlphanum ∨ c = '_'

/-- A C identifier: an ASCII letter or `_`, then letters, digits and `_`. -/
def IsCIdentifier (s : String) : Prop :=
  ∃ c cs, s.toList = c :: cs ∧ (c.isAlpha ∨ c = '_') ∧ ∀ d ∈ cs, IsIdentChar d

theorem IsCIdentifier.append {s t : String} (hs : IsCIdentifier s)
    (ht : ∀ d ∈ t.toList, IsIdentChar d) : IsCIdentifier (s ++ t) := by
  obtain ⟨c, cs, hcs, hc, hrest⟩ := hs
  refine ⟨c, cs ++ t.toList, by simp [hcs], hc, fun d hd => ?_⟩
  rcases List.mem_append.1 hd with hd | hd
  · exact hrest d hd
  · exact ht d hd

theorem isIdentChar_of_isDigit {c : Char} (h : c.isDigit) : IsIdentChar c :=
  .inl (by simp [Char.isAlphanum, h])

/-- The digits of a count. -/
theorem isDigit_of_mem_toString {k : Nat} {c : Char} (h : c ∈ (toString k).toList) : c.isDigit :=
  @Nat.isDigit_of_mem_toDigits 10 k c (by decide) (by decide) (by simpa using h)

/-- `_` and a count may follow an identifier. -/
theorem isIdentChar_suffix (k : Nat) : ∀ d ∈ ("_" ++ toString k).toList, IsIdentChar d := by
  intro d hd
  simp only [String.toList_append, List.mem_append] at hd
  rcases hd with hd | hd
  · simp at hd
    exact .inr hd
  · exact isIdentChar_of_isDigit (isDigit_of_mem_toString hd)

/-! ## Stems -/

/-- The names of the fixed files of a program. -/
def fixedFileNames : List String := ["aml_program", "aml_main", "aml_runtime"]

/-- Every character of a cleaned file name may stand in an identifier. -/
theorem isIdentChar_clean (name : List Char) :
    ∀ d ∈ name.map (fun c => if c.toNat < 128 && c.isAlphanum then c else '_'), IsIdentChar d := by
  intro d hd
  obtain ⟨c, -, rfl⟩ := List.mem_map.1 hd
  split
  · next h =>
    simp only [Bool.and_eq_true] at h
    exact .inl h.2
  · exact .inr rfl

/-- A cleaned file name that is not empty and does not start with a digit is an identifier, and
so is `m_` before any cleaned name. -/
theorem isCIdentifier_prefixed {clean : String} (hclean : ∀ d ∈ clean.toList, IsIdentChar d) :
    IsCIdentifier (if clean.isEmpty || (clean.toList.headD ' ').isDigit then "m_" ++ clean
      else clean) := by
  split
  · exact ⟨'m', '_' :: clean.toList, by simp, .inl (by decide), fun d hd => by
      rcases List.mem_cons.1 hd with rfl | hd
      · exact .inr rfl
      · exact hclean d hd⟩
  · next h =>
    cases hcs : clean.toList with
    | nil => simp [String.isEmpty_iff, ← String.toList_inj, hcs] at h
    | cons c cs =>
      simp only [hcs, List.headD_cons, Bool.or_eq_true, not_or, Bool.not_eq_true] at h
      rw [hcs] at hclean
      refine ⟨c, cs, hcs, ?_, fun d hd => hclean d (List.mem_cons_of_mem c hd)⟩
      rcases hclean c List.mem_cons_self with hc | hc
      · -- a letter or digit that is no digit is a letter
        left
        simpa [Char.isAlphanum, h.2] using hc
      · exact .inr hc

/-- A name that is a fixed file's gets `_mod` after it. -/
def markFixed (p : String) : String :=
  if p == "aml_program" || p == "aml_main" || p == "aml_runtime" then p ++ "_mod" else p

/-- A stem is a cleaned file name, prefixed if it has to be, and marked if it is a fixed
file's. -/
theorem moduleStem_eq (file : String) :
    moduleStem file = markFixed (
      let clean := String.ofList ((dropExtension (fileName file.toList)).map fun c =>
        if c.toNat < 128 && c.isAlphanum then c else '_')
      if clean.isEmpty || (clean.toList.headD ' ').isDigit then "m_" ++ clean else clean) := rfl

theorem isCIdentifier_markFixed {p : String} (hp : IsCIdentifier p) : IsCIdentifier (markFixed p) := by
  unfold markFixed
  split
  · refine hp.append fun d hd => ?_
    have hmod : "_mod".toList = ['_', 'm', 'o', 'd'] := by decide
    rw [hmod] at hd
    simp only [List.mem_cons, List.not_mem_nil, or_false] at hd
    rcases hd with rfl | rfl | rfl | rfl
    · exact .inr rfl
    all_goals exact .inl (by decide)
  · exact hp

/-- The fixed names marked with `_mod` are fixed names no more, and other names are none. -/
theorem markFixed_not_fixed (p : String) : markFixed p ∉ fixedFileNames := by
  unfold markFixed
  split
  · next h =>
    simp only [Bool.or_eq_true, beq_iff_eq] at h
    rcases h with (rfl | rfl) | rfl <;> decide
  · next h =>
    simp only [Bool.or_eq_true, beq_iff_eq, not_or] at h
    simp only [fixedFileNames, List.mem_cons, List.not_mem_nil, or_false, not_or]
    exact ⟨h.1.1, h.1.2, h.2⟩

/-- Every stem is a C identifier. -/
theorem moduleStem_isCIdentifier (file : String) : IsCIdentifier (moduleStem file) := by
  rw [moduleStem_eq]
  refine isCIdentifier_markFixed (isCIdentifier_prefixed ?_)
  rw [String.toList_ofList]
  exact isIdentChar_clean _

/-- No stem is a fixed file's name. -/
theorem moduleStem_not_fixed (file : String) : moduleStem file ∉ fixedFileNames := by
  rw [moduleStem_eq]
  exact markFixed_not_fixed _

/-! ## Numbered stems -/

/-- The last character of a count is a digit. -/
theorem getLast?_numbered (s : String) (k : Nat) :
    ∃ c, (s ++ "_" ++ toString k).toList.getLast? = some c ∧ c.isDigit := by
  have hne : (toString k).toList ≠ [] := by simp [Nat.toDigits_ne_nil]
  obtain ⟨c, hc⟩ := List.getLast?_isSome.2 hne |> Option.isSome_iff_exists.1
  refine ⟨c, ?_, isDigit_of_mem_toString (List.mem_of_getLast? hc)⟩
  rw [String.toList_append, List.getLast?_append, hc]
  rfl

theorem numberedStem_isCIdentifier {s : String} (hs : IsCIdentifier s) (k : Nat) :
    IsCIdentifier (numberedStem s k) := by
  unfold numberedStem
  split
  · exact hs
  · rw [String.append_assoc]
    exact hs.append (isIdentChar_suffix k)

/-- A numbered stem is no fixed file's name: a fixed name ends in a letter, a number in a
digit. -/
theorem numberedStem_not_fixed {s : String} (hs : s ∉ fixedFileNames) (k : Nat) :
    numberedStem s k ∉ fixedFileNames := by
  unfold numberedStem
  split
  · exact hs
  · intro hmem
    obtain ⟨c, hc, hdigit⟩ := getLast?_numbered s k
    simp only [fixedFileNames, List.mem_cons, List.not_mem_nil, or_false] at hmem
    rcases hmem with h | h | h <;> rw [h] at hc <;> simp at hc <;> subst hc <;> simp at hdigit

/-- A list with one `_`, before which two lists have none, splits there the same way. -/
theorem append_underscore_inj {a a' b b' : List Char} (ha : '_' ∉ a) (ha' : '_' ∉ a')
    (h : a ++ '_' :: b = a' ++ '_' :: b') : a = a' ∧ b = b' := by
  induction a generalizing a' with
  | nil =>
    cases a' with
    | nil => simpa using h
    | cons x xs =>
      simp only [List.nil_append, List.cons_append, List.cons.injEq] at h
      exact absurd (h.1 ▸ List.mem_cons_self) ha'
  | cons x xs ih =>
    cases a' with
    | nil =>
      simp only [List.nil_append, List.cons_append, List.cons.injEq] at h
      exact absurd (h.1 ▸ List.mem_cons_self) ha
    | cons y ys =>
      simp only [List.cons_append, List.cons.injEq] at h
      obtain ⟨rfl, h⟩ := h
      obtain ⟨rfl, rfl⟩ := ih (fun hm => ha (List.mem_cons_of_mem x hm))
        (fun hm => ha' (List.mem_cons_of_mem x hm)) h
      exact ⟨rfl, rfl⟩

/-- Two stems followed by `_` and a count are equal only for one stem and one count: the count
is what follows the last `_`. -/
theorem numbered_inj {s s' : String} {k k' : Nat}
    (h : s ++ "_" ++ toString k = s' ++ "_" ++ toString k') : s = s' ∧ k = k' := by
  have hl := congrArg (fun t => t.toList.reverse) h
  have hunder : "_".toList = ['_'] := by decide
  simp only [String.toList_append, List.reverse_append, hunder, List.reverse_cons,
    List.append_assoc, List.singleton_append] at hl
  have hnot : ∀ n : Nat, '_' ∉ (toString n).toList.reverse := fun n hm =>
    @Nat.underscore_not_in_toDigits n (by simp at hm)
  obtain ⟨hdigits, hstem⟩ := append_underscore_inj (hnot k) (hnot k') hl
  refine ⟨String.toList_inj.1 (List.reverse_inj.1 hstem), ?_⟩
  have hk : Nat.toDigits 10 k = Nat.toDigits 10 k' := by simpa using hdigits
  rw [← @Nat.ofDigitChars_ten_toDigits k, hk, Nat.ofDigitChars_ten_toDigits]

/-- **Numbered stems.** Two numbered stems of counts from one on are equal only when stem and
count are, or when the first unit of one stem is named like a later unit of another: its stem
is the other's followed by `_` and a count of two or more. -/
theorem numberedStem_eq_numberedStem {s s' : String} {k k' : Nat} (hk : 1 ≤ k) (hk' : 1 ≤ k')
    (h : numberedStem s k = numberedStem s' k') :
    (s = s' ∧ k = k') ∨ (k = 1 ∧ 2 ≤ k' ∧ s = s' ++ "_" ++ toString k') ∨
      (k' = 1 ∧ 2 ≤ k ∧ s' = s ++ "_" ++ toString k) := by
  unfold numberedStem at h
  by_cases h1 : k = 1 <;> by_cases h1' : k' = 1 <;> simp only [h1, h1', beq_self_eq_true,
    if_true, beq_iff_eq, if_false] at h
  · exact .inl ⟨h, by omega⟩
  · exact .inr (.inl ⟨h1, by omega, h⟩)
  · exact .inr (.inr ⟨h1', by omega, h.symm⟩)
  · exact .inl (numbered_inj h)

/-! ## Naming the units one after another -/

/-- `seen` holds, for every stem, how many of `stems` have it. -/
def CountsStems (seen : List (String × Nat)) (stems : List String) : Prop :=
  ∀ s, ((seen.find? (·.1 == s)).map (·.2)).getD 0 = stems.count s

/-- Looking up a stem other than `stem` is not changed by dropping `stem`'s entry. -/
theorem find?_filter_ne {seen : List (String × Nat)} {stem s : String} (hs : stem ≠ s) :
    (seen.filter (·.1 != stem)).find? (·.1 == s) = seen.find? (·.1 == s) := by
  rw [List.find?_filter]
  congr 1
  funext p
  by_cases hp : p.1 = s
  · simp [hp, Ne.symm hs]
  · simp [hp]

/-- Naming a unit adds its stem to the counts. -/
theorem nameNext_counts {names : List String} {seen : List (String × Nat)} {stems : List String}
    (h : CountsStems seen stems) (file : String) :
    CountsStems (nameNext (names, seen) file).2 (stems ++ [moduleStem file]) := by
  intro s
  simp only [nameNext, List.count_append, List.count_singleton]
  by_cases hs : moduleStem file = s
  · subst hs
    simp [h (moduleStem file)]
  · rw [List.find?_cons_of_neg (by simpa using hs), find?_filter_ne hs, h s]
    simp [beq_iff_eq, hs]

/-- Naming a unit appends its stem, numbered by the units of that stem before it. -/
theorem nameNext_names (names : List String) {seen : List (String × Nat)} {stems : List String}
    (h : CountsStems seen stems) (file : String) :
    (nameNext (names, seen) file).1 =
      names ++ [numberedStem (moduleStem file) (stems.count (moduleStem file) + 1)] := by
  simp only [nameNext, h (moduleStem file)]

/-- What naming the units one after another keeps: one name per unit, and the counts of the
stems so far. -/
theorem foldl_nameNext (files : List String) :
    (files.foldl nameNext ([], [])).1.length = files.length ∧
      CountsStems (files.foldl nameNext ([], [])).2 (files.map moduleStem) ∧
      ∀ i f, files[i]? = some f → (files.foldl nameNext ([], [])).1[i]? =
        some (numberedStem (moduleStem f) (((files.take i).map moduleStem).count (moduleStem f) + 1)) := by
  induction files using List.reverseRecOn with
  | nil => exact ⟨rfl, fun s => by simp, fun i f h => by simp at h⟩
  | append_singleton files file ih =>
    rw [List.foldl_append, List.foldl_cons, List.foldl_nil, List.map_append, List.map_singleton]
    generalize files.foldl nameNext ([], []) = acc at ih ⊢
    obtain ⟨names, seen⟩ := acc
    obtain ⟨hlen, hcounts, hnames⟩ := ih
    have hnext := nameNext_names names hcounts file
    refine ⟨?_, nameNext_counts hcounts file, fun i f hf => ?_⟩
    · rw [hnext]
      simp [hlen]
    · rw [hnext]
      rcases Nat.lt_or_ge i files.length with hi | hi
      · -- a unit before the new one keeps its name
        rw [List.getElem?_append_left hi] at hf
        rw [List.getElem?_append_left (hlen ▸ hi), hnames i f hf,
          List.take_append_of_le_length (Nat.le_of_lt hi)]
      · -- the new unit, numbered by all the units before it
        obtain rfl : i = files.length := by
          by_contra hne
          rw [List.getElem?_eq_none (by simp; omega)] at hf
          cases hf
        rw [List.getElem?_concat_length] at hf
        obtain rfl := Option.some.inj hf
        rw [← hlen, List.getElem?_concat_length, hlen, List.take_left' rfl]

/-- The name of each unit: its stem, numbered by the units of that stem before it. -/
theorem moduleNamesFor_getElem? {files : List String} {i : Nat} {f : String}
    (h : files[i]? = some f) : (moduleNamesFor files)[i]? =
      some (numberedStem (moduleStem f) (((files.take i).map moduleStem).count (moduleStem f) + 1)) :=
  (foldl_nameNext files).2.2 i f h

theorem length_moduleNamesFor (files : List String) :
    (moduleNamesFor files).length = files.length :=
  (foldl_nameNext files).1

/-- A later unit of a stem counts one more unit of it before itself than an earlier one. -/
theorem count_take_lt {files : List String} {i j : Nat} (hij : i < j) {f : String}
    (hf : files[i]? = some f) :
    ((files.take i).map moduleStem).count (moduleStem f) <
      ((files.take j).map moduleStem).count (moduleStem f) := by
  have htake : files.take (i + 1) = files.take i ++ [f] := by
    rw [List.take_add_one, hf]
    rfl
  have hsub : List.Sublist ((files.take (i + 1)).map moduleStem) ((files.take j).map moduleStem) := by
    refine List.Sublist.map _ ?_
    rw [← Nat.min_eq_left (show i + 1 ≤ j by omega), ← List.take_take]
    exact List.take_sublist _ _
  calc ((files.take i).map moduleStem).count (moduleStem f)
      < ((files.take (i + 1)).map moduleStem).count (moduleStem f) := by
        rw [htake]
        simp
    _ ≤ ((files.take j).map moduleStem).count (moduleStem f) := hsub.count_le _

/-- **Module names.** The units of a compilation get one name each; every name is a C identifier
and none is the name of a fixed file. Two units get one name only when the stem of one is the
stem of the other followed by `_k` for some `k ≥ 2`, the suffix that numbering gives the `k`-th
unit of a stem; so units whose stems do not end that way get pairwise different names. -/
theorem moduleNamesFor_names (files : List String) :
    (moduleNamesFor files).length = files.length ∧
    (∀ n ∈ moduleNamesFor files, IsCIdentifier n ∧ n ∉ fixedFileNames) ∧
    ∀ (i j : Nat) (f g : String), i < j → files[i]? = some f → files[j]? = some g →
      (moduleNamesFor files)[i]? = (moduleNamesFor files)[j]? →
      ∃ k, 2 ≤ k ∧ (moduleStem f = moduleStem g ++ "_" ++ toString k ∨
        moduleStem g = moduleStem f ++ "_" ++ toString k) := by
  refine ⟨length_moduleNamesFor files, fun n hn => ?_, fun i j f g hij hf hg hsame => ?_⟩
  · -- every name is the numbered stem of some unit
    obtain ⟨i, hi, rfl⟩ := List.getElem_of_mem hn
    have hi' : i < files.length := length_moduleNamesFor files ▸ hi
    have hfi : files[i]? = some files[i] := List.getElem?_eq_getElem hi'
    have hname := moduleNamesFor_getElem? hfi
    rw [List.getElem?_eq_getElem hi, Option.some.injEq] at hname
    rw [hname]
    exact ⟨numberedStem_isCIdentifier (moduleStem_isCIdentifier _) _,
      numberedStem_not_fixed (moduleStem_not_fixed _) _⟩
  · rw [moduleNamesFor_getElem? hf, moduleNamesFor_getElem? hg, Option.some.injEq] at hsame
    rcases numberedStem_eq_numberedStem (by omega) (by omega) hsame with
      ⟨hstem, hcount⟩ | ⟨-, hk, hstem⟩ | ⟨-, hk, hstem⟩
    · -- one stem: the later unit counts the earlier one, so their counts differ
      have hlt := count_take_lt hij hf
      rw [hstem] at hcount hlt
      omega
    · exact ⟨_, hk, .inl hstem⟩
    · exact ⟨_, hk, .inr hstem⟩

/-- Units in different directories with one file name, and a third whose stem is the second
one's numbered name: all three are named `a`, `a_2` and `a_2`. -/
theorem numbered_stem_collides :
    moduleNamesFor ["x/a.aml", "y/a.aml", "a_2.aml"] = ["a", "a_2", "a_2"] ∧
    ∃ k, 2 ≤ k ∧ (moduleStem "y/a.aml" = moduleStem "a_2.aml" ++ "_" ++ toString k ∨
      moduleStem "a_2.aml" = moduleStem "y/a.aml" ++ "_" ++ toString k) :=
  ⟨by decide, (moduleNamesFor_names ["x/a.aml", "y/a.aml", "a_2.aml"]).2.2 1 2 _ _
    (by decide) rfl rfl (by decide)⟩

end AmLang
