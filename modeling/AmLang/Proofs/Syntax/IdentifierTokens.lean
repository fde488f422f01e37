import AmLang.Proofs.Syntax.TokenLayout
/-!
# Identifiers are names

An identifier token holds a name: a byte that starts an identifier, then bytes that continue
one, and no reserved word. Only `scanWord` makes identifiers, and it makes one exactly when the
word it read is reserved for nothing; the other scanners make literals, operators, directives,
string pieces and invalid tokens. A string's `${ … }` is lexed by a run over a smaller range,
so the fact for a range rests on the runs of smaller ones, as the layout of the tokens does.

## Main results

* `IsName` — the words the lexer reads as one identifier.
* `tokenize_names` — every identifier of a range's tokens is a name.
-/

namespace AmLang

namespace Lexer

/-- A word the lexer reads as one identifier: an identifier start, then identifier bytes, and
no reserved word. -/
def IsName (x : String) : Prop :=
  (∃ c cs, x.toList = c :: cs ∧ isIdentStart c = true ∧ ∀ d ∈ cs, isIdentContinue d = true) ∧
    TokenKind.keyword? x = none

/-- Every identifier among `ts` holds a name. -/
def NamesIn (ts : List Token) : Prop := ∀ tok ∈ ts, tok.kind = .identifier → IsName tok.lexeme

namespace NamesIn

theorem nil : NamesIn [] := by simp [NamesIn]

theorem append {xs ys : List Token} (hx : NamesIn xs) (hy : NamesIn ys) : NamesIn (xs ++ ys) := by
  intro tok htok
  rcases List.mem_append.1 htok with h | h
  · exact hx tok h
  · exact hy tok h

/-- A token of another kind than identifier says nothing. -/
theorem single {t : Token} (ht : t.kind ≠ .identifier) : NamesIn [t] := by
  intro tok htok hk
  rw [List.mem_singleton.1 htok] at hk
  exact absurd hk ht

end NamesIn

variable {l : Lexer}

/-! ## The bytes of a word -/

theorem peek_of_size_le {p : Nat} (h : l.source.size ≤ p) : l.peek p = '\x00' := by
  unfold peek
  split
  · simp [Source.byteAt, Array.getD_eq_getD_getElem?,
      Array.getElem?_eq_none (show l.source.bytes.size ≤ p from h)]
  · rfl

/-- Every byte skipped satisfies the test. -/
theorem skipWhile_all {q : Char → Bool} {pos : Nat} :
    ∀ i, pos ≤ i → i < l.skipWhile q pos → q (l.peek i) = true := by
  fun_induction l.skipWhile q pos with
  | case1 pos hlt hq ih =>
    intro i hi hlt'
    rcases Nat.eq_or_lt_of_le hi with rfl | hi
    · rwa [peek_of_lt_stop hlt]
    · exact ih i hi hlt'
  | case2 => intro i hi hlt; omega
  | case3 => intro i hi hlt; omega

theorem toList_slice {src : Source} {a b : Nat} (hab : a < b) (hb : b ≤ src.size) :
    (src.slice a b).toList = (src.bytes.toList.drop a).take (b - a) := by
  have h1 : ¬src.size ≤ a := by omega
  have h2 : ¬b < a := by omega
  simp [Source.slice, h1, h2, Nat.min_eq_left hb]

/-- The bytes of a slice inside the range, as the lexer reads them. -/
theorem toList_slice_peek {a b : Nat} (hab : a < b) (hstop : b ≤ l.stop)
    (hsize : b ≤ l.source.size) :
    (l.source.slice a b).toList = (List.range' a (b - a)).map l.peek := by
  rw [toList_slice hab hsize]
  apply List.ext_getElem
  · simp only [List.length_take, List.length_drop, Array.length_toList, List.length_map,
      List.length_range']
    unfold Source.size at hsize
    omega
  · intro i h1 h2
    have hi : a + i < b := by simp at h2; omega
    simp only [List.getElem_take, List.getElem_drop, Array.getElem_toList, List.getElem_map,
      List.getElem_range', Nat.one_mul]
    rw [peek_of_lt_stop (by omega), Source.byteAt, Array.getD_eq_getD_getElem?,
      Array.getElem?_eq_getElem (by unfold Source.size at hsize; omega), Option.getD_some]

/-- No reserved word lexes to an identifier. -/
theorem keyword?_ne_identifier {w : String} {k : TokenKind} (h : TokenKind.keyword? w = some k) :
    k ≠ .identifier := by
  unfold TokenKind.keyword? at h
  obtain ⟨p, hp, rfl⟩ := Option.map_eq_some_iff.1 h
  have hall : ∀ q ∈ TokenKind.reserved, q.2 ≠ .identifier := by decide
  exact hall p (List.mem_of_find?_eq_some hp)

/-! ## Each scanner -/

/-- The word read at an identifier start is an identifier only when it is a name. -/
theorem scanWord_names {a : Nat} (ha : a < l.stop) (hc : isIdentStart (l.peek a) = true) :
    NamesIn [(l.scanWord a).1] := by
  have hlt : a < l.skipWhile isIdentContinue a :=
    lt_skipWhile ha (by simp [isIdentContinue, hc])
  have hle := (l.skipWhile_mem isIdentContinue ha.le).2
  have hall : ∀ i, a ≤ i → i < l.skipWhile isIdentContinue a →
      isIdentContinue (l.peek i) = true := skipWhile_all
  simp only [scanWord]
  generalize l.skipWhile isIdentContinue a = b at hlt hle hall ⊢
  -- the last byte of the word continues an identifier, so it is no NUL past the source
  have hsize : b ≤ l.source.size := by
    by_contra h
    have := hall (b - 1) (by omega) (by omega)
    rw [peek_of_size_le (by omega)] at this
    exact absurd this (by decide)
  have hbytes := toList_slice_peek hlt hle hsize
  split
  · rename_i hkw
    intro tok htok _
    rw [List.mem_singleton.1 htok, lexeme_token]
    obtain ⟨m, hm⟩ : ∃ m, b - a = m + 1 := ⟨b - a - 1, by omega⟩
    rw [hm, List.range'_succ, List.map_cons] at hbytes
    refine ⟨⟨_, _, hbytes, hc, fun d hd => ?_⟩, hkw⟩
    obtain ⟨i, hi, rfl⟩ := List.mem_map.1 hd
    rw [List.mem_range'_1] at hi
    exact hall i (by omega) (by omega)
  · exact NamesIn.single (by simp)
  · rename_i k _ hk
    exact NamesIn.single (by simpa using keyword?_ne_identifier hk)

theorem scanNumber_kind (a : Nat) : (l.scanNumber a).1.kind ≠ .identifier := by
  unfold scanNumber
  dsimp only
  split
  · simp
  · split
    · simp
    · dsimp only [kind_token]
      split <;> decide

theorem scanChar_kind (a : Nat) : (l.scanChar a).1.kind ≠ .identifier := by
  unfold scanChar
  dsimp only
  repeat' split
  all_goals simp

theorem scanDirective_kind (a : Nat) : (l.scanDirective a).1.kind ≠ .identifier := by
  unfold scanDirective
  dsimp only
  repeat' split
  all_goals simp

theorem scanOperator_kind (a : Nat) : (l.scanOperator a).1.kind ≠ .identifier := by
  unfold scanOperator
  dsimp only
  repeat' split
  all_goals simp

/-- An unterminated block comment is an invalid token. -/
theorem skipTrivia_inr_kind {pos : Nat} {bad : Token} (h : l.skipTrivia pos = .inr bad) :
    bad.kind ≠ .identifier := by
  fun_induction l.skipTrivia pos with
  | case1 _ _ _ _ ih => exact ih h
  | case2 _ _ _ _ _ ih => exact ih h
  | case3 _ _ _ _ _ _ _ _ ih => exact ih h
  | case4 =>
    cases h
    simp
  | case5 => cases h
  | case6 => cases h

/-! ## Strings -/

/-- Closing a text segment adds a text piece to the run. -/
theorem StringState.flush_names {st : StringState} {p : Nat} (h : NamesIn st.run.toList) :
    NamesIn (st.flush l p).run.toList := by
  unfold StringState.flush
  split
  · exact h
  · rw [Array.toList_push]
    exact h.append (.single (by simp))

theorem finishString_names {a next : Nat} {st : StringState} (h : NamesIn st.run.toList) :
    NamesIn (l.finishString a next st).tokens := by
  unfold finishString
  split
  · exact .single (by simp)
  · split
    · exact .single (by simp)
    · dsimp only
      rw [Array.toList_push, ← List.singleton_append]
      exact (NamesIn.single (by simp)).append
        ((StringState.flush_names h).append (.single (by simp)))

theorem unbalanced_names {a pos : Nat} {st : StringState} :
    NamesIn (l.unbalanced a pos st).tokens :=
  .single (by simp)

section Nested

/- A string's `${ … }` is lexed by a run over a strictly smaller range: the fact holds for a
lexer once it holds for the runs of every smaller one. -/
variable
  (hrun : ∀ l' : Lexer, l'.stop < l.stop → ∀ pos fuel, NamesIn (l'.scanRun pos fuel).tokens.toList)
include hrun

/-- The run of a string holds the pieces of its text and the tokens of its `${ … }`. -/
theorem scanString_names {a : Nat} :
    ∀ {pos : Nat} {st : StringState}, NamesIn st.run.toList →
      NamesIn (l.scanString a pos st).tokens := by
  intro pos st hst
  -- each byte read moves `pos` right, so the induction is on the bytes left in the range
  induction hn : l.stop - pos using Nat.strong_induction_on generalizing pos st with
  | _ n ih =>
  rw [scanString]
  split
  case isFalse => exact .single (by simp)
  rename_i hpos
  have step : ∀ {p : Nat} {st' : StringState}, pos < p → NamesIn st'.run.toList →
      NamesIn (l.scanString a p st').tokens :=
    fun hp hst' => ih _ (by omega) hst' rfl
  dsimp only
  split
  · exact .single (by simp)
  split
  · exact finishString_names hst
  split
  · -- an escape changes the text, not the run
    apply step (Nat.lt_of_lt_of_le (Nat.lt_succ_self pos) (Nat.le_max_right _ _))
    split
    · exact hst
    · split <;> exact hst
  split
  · split
    · rename_i close _
      split
      · rename_i hc
        apply step (by omega)
        simp only [Array.toList_push, Array.toList_append]
        exact (((StringState.flush_names hst).append (.single (by simp))).append
          (hrun _ hc _ _)).append (.single (by simp))
      · exact unbalanced_names
    · exact unbalanced_names
  split
  · apply step (by omega)
    simp only [Array.toList_push]
    exact (StringState.flush_names hst).append (.single (by simp))
  · exact step (Nat.lt_succ_self pos) hst

theorem scan_names_of (pos : Nat) : NamesIn (l.scan pos).tokens := by
  rw [scan]
  split
  · rename_i bad hbad
    exact .single (skipTrivia_inr_kind hbad)
  · rename_i a _
    dsimp only
    split
    · rename_i hlt
      -- the byte at `a` decides the class of the token
      split
      · exact scanWord_names hlt ‹_›
      split
      · exact .single (scanNumber_kind a)
      split
      · exact scanString_names hrun NamesIn.nil
      split
      · exact .single (scanChar_kind a)
      split
      · exact .single (scanDirective_kind a)
      · exact .single (scanOperator_kind a)
    · exact .single (by simp)

theorem scanRun_names_of (fuel : Nat) : ∀ pos, NamesIn (l.scanRun pos fuel).tokens.toList := by
  induction fuel with
  | zero =>
    intro pos
    rw [scanRun]
    exact NamesIn.nil
  | succ fuel ih =>
    intro pos
    rw [scanRun]
    dsimp only
    have hs := scan_names_of hrun pos
    generalize l.scan pos = s at hs ⊢
    split
    · rename_i t ht
      split
      · exact NamesIn.nil
      · rw [Array.toList_append]
        exact (ht ▸ hs).append (ih _)
    · rw [Array.toList_append, List.toList_toArray]
      exact hs.append (ih _)

end Nested

/-- Every identifier of a run is a name. The induction is on the end of the range: a string's
`${ … }` is lexed by a run over a smaller one. -/
theorem scanRun_names (l : Lexer) (pos fuel : Nat) :
    NamesIn (l.scanRun pos fuel).tokens.toList := by
  induction hn : l.stop using Nat.strong_induction_on generalizing l pos fuel with
  | _ n ih =>
  exact scanRun_names_of (fun l' hl' pos' fuel' => ih _ (hn ▸ hl') l' pos' fuel' rfl) fuel pos

/-- **Identifiers are names**: every identifier among the tokens of a range starts with an
identifier byte, goes on with identifier bytes, and is no reserved word. -/
theorem tokenize_names (l : Lexer) :
    ∀ tok ∈ l.tokenize.1, tok.kind = .identifier → IsName tok.lexeme := by
  intro tok htok
  rcases Array.mem_push.1 htok with h | rfl
  · exact scanRun_names l _ _ tok (Array.mem_toList_iff.2 h)
  · intro hk
    cases hk

end Lexer

end AmLang
