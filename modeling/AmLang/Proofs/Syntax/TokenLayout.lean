import Mathlib.Data.List.Chain
import AmLang.Syntax.Lexer
/-!
# How the tokens of a range lie

The lexer turns the byte range `[start, stop)` of a source into tokens that stand one after
another: every token covers a nonempty stretch of the range with exactly those bytes as its
lexeme, a token ends at or before the next one begins, and the end-of-file token comes last and
only there. Interpolated strings are no exception: the run of a string (its text segments, `$`
names and the tokens lexed inside `${ … }` by a lexer over a smaller range) stays between its
opening and closing quotes, in order.

All of it rests on one fact about a scan step: at a position before the end of the range it
moves strictly forward and lays its tokens down between where it started and where it stops
(`ScanOk`). So the run's step budget, one more step than there are bytes, is never what ends
it (`scanRun_succ`).

When the range starts past its clamped end, the lexer makes only the end-of-file token, at the
start; so the tokens lie in `[start, max start stop]`.

## Main results

* `Laid` — tokens laid one after another in `[lo, hi]`, with `Laid.append` and `Laid.widen`.
* `scan_ok`, `scanRun_laid` — a scan step, and a whole run, lay their tokens down in order.
* `scanRun_succ` — a run given more steps than bytes left gives the same result.
* `tokenize_laid_out` — the tokens of a range: the end of file last and only there, start
  offsets strictly increasing, no overlap, every token inside the range, lexemes the bytes
  of their spans.
* `eof_past_clamped_end` — a range starting past the source's end gives the end of file there.
-/

namespace AmLang

namespace Source

variable (src : Source) (a b : Nat)

@[simp] theorem spanOf_start_offset : (src.spanOf a b).start.offset = a := rfl

@[simp] theorem spanOf_start_length : (src.spanOf a b).start.length = b - a := rfl

@[simp] theorem spanOf_stop_offset : (src.spanOf a b).stop.offset = b := rfl

end Source

/-! ## Tokens laid one after another -/

/-- The token `t` stands over the nonempty stretch `[a, b)` of `src`, with those bytes as its
lexeme, and is not the end of file. -/
structure Token.Over (src : Source) (t : Token) (a b : Nat) : Prop where
  lt : a < b
  span : t.span = src.spanOf a b
  lexeme : t.lexeme = src.slice a b
  kind : t.kind ≠ .eof

/-- The tokens `ts` stand in `src` one after another from `lo` on, each over its own stretch,
and the last one ends by `hi`. -/
inductive Laid (src : Source) : Nat → Nat → List Token → Prop
  | nil {lo hi : Nat} : lo ≤ hi → Laid src lo hi []
  | cons {lo hi a b : Nat} {t : Token} {ts : List Token} :
      lo ≤ a → t.Over src a b → Laid src b hi ts → Laid src lo hi (t :: ts)

namespace Laid

variable {src : Source}

theorem le {lo hi : Nat} {ts : List Token} (h : Laid src lo hi ts) : lo ≤ hi := by
  induction h with
  | nil hle => exact hle
  | cons hla hover _ ih => have := hover.lt; omega

/-- Laid tokens stay laid in a wider range. -/
theorem widen {lo hi lo' hi' : Nat} {ts : List Token} (h : Laid src lo hi ts) (hlo : lo' ≤ lo)
    (hhi : hi ≤ hi') : Laid src lo' hi' ts := by
  induction h generalizing lo' with
  | nil hle => exact .nil (by omega)
  | cons hla hover _ ih => exact .cons (by omega) hover (ih le_rfl hhi)

/-- Two runs laid one after the other make one. -/
theorem append {lo mid hi : Nat} {xs ys : List Token} (hx : Laid src lo mid xs)
    (hy : Laid src mid hi ys) : Laid src lo hi (xs ++ ys) := by
  induction hx with
  | nil hle => exact hy.widen hle le_rfl
  | cons hla hover _ ih => exact .cons hla hover (ih hy)

theorem single {lo hi a b : Nat} {t : Token} (hla : lo ≤ a) (hover : t.Over src a b)
    (hbh : b ≤ hi) : Laid src lo hi [t] :=
  .cons hla hover (.nil hbh)

theorem snoc {lo hi a b : Nat} {ts : List Token} {t : Token} (h : Laid src lo hi ts)
    (ha : hi ≤ a) (hover : t.Over src a b) : Laid src lo b (ts ++ [t]) :=
  h.append (.single ha hover le_rfl)

/-- A range holding a token is not empty. -/
theorem lt_of_cons {lo hi : Nat} {t : Token} {ts : List Token} (h : Laid src lo hi (t :: ts)) :
    lo < hi := by
  cases h with
  | cons hla hover hrest =>
    have := hover.lt
    have := hrest.le
    omega

/-- Every laid token stands over a stretch of `[lo, hi]`. -/
theorem over_of_mem {lo hi : Nat} {ts : List Token} (h : Laid src lo hi ts) {t : Token}
    (ht : t ∈ ts) : ∃ a b, lo ≤ a ∧ b ≤ hi ∧ t.Over src a b := by
  induction h with
  | nil => simp at ht
  | cons hla hover hrest ih =>
    rcases List.mem_cons.1 ht with rfl | ht
    · exact ⟨_, _, hla, hrest.le, hover⟩
    · obtain ⟨a', b', ha', hb', hover'⟩ := ih ht
      exact ⟨a', b', by have := hover.lt; omega, hb', hover'⟩

/-- Laid tokens followed by a token starting at `hi`: each ends by the next one's start, and
start offsets strictly increase. -/
theorem isChain_append {lo hi : Nat} {ts : List Token} (h : Laid src lo hi ts) {e : Token}
    (he : e.span.start.offset = hi) :
    (ts ++ [e]).IsChain (fun t u => t.span.stop.offset ≤ u.span.start.offset ∧
      t.span.start.offset < u.span.start.offset) := by
  induction h with
  | nil => exact List.isChain_singleton e
  | @cons lo hi a b t ts hla hover hrest ih =>
    -- the token after `t` starts at or after `b`
    have hnext : ∀ u ∈ (ts ++ [e]).head?, b ≤ u.span.start.offset := by
      cases hrest with
      | nil hle => simp [he, hle]
      | cons hla' hover' _ => simp [hover'.span, hla']
    have hlt := hover.lt
    rcases hts : ts ++ [e] with _ | ⟨u, us⟩
    · simp at hts
    · rw [hts] at ih hnext
      rw [List.cons_append, hts]
      refine List.isChain_cons_cons.2 ⟨?_, ih he⟩
      have hu := hnext u rfl
      simp only [hover.span, Source.spanOf_stop_offset, Source.spanOf_start_offset]
      omega

end Laid

theorem Token.Over.lexeme_eq {src : Source} {t : Token} {a b : Nat} (h : t.Over src a b) :
    t.lexeme = src.slice t.span.start.offset (t.span.start.offset + t.span.start.length) := by
  have hlt := h.lt
  rw [h.lexeme, h.span, Source.spanOf_start_offset, Source.spanOf_start_length,
    Nat.add_sub_cancel' hlt.le]

namespace Lexer

variable {l : Lexer}

/-! ## The bytes of the range -/

theorem peek_of_stop_le {p : Nat} (h : l.stop ≤ p) : l.peek p = '\x00' := by
  simp [peek, Nat.not_lt.2 h]

theorem peek_of_lt_stop {p : Nat} (h : p < l.stop) : l.peek p = l.source.byteAt p := by
  simp [peek, h]

/-- A byte other than NUL is read only inside the range. -/
theorem lt_stop_of_peek {p : Nat} {c : Char} (h : l.peek p = c) (hc : c ≠ '\x00') :
    p < l.stop := by
  by_contra hp
  exact hc (h ▸ peek_of_stop_le (Nat.le_of_not_lt hp))

@[simp] theorem span_token (k : TokenKind) (a b : Nat) :
    (l.token k a b).span = l.source.spanOf a b := rfl

@[simp] theorem lexeme_token (k : TokenKind) (a b : Nat) :
    (l.token k a b).lexeme = l.source.slice a b := rfl

@[simp] theorem kind_token (k : TokenKind) (a b : Nat) : (l.token k a b).kind = k := rfl

@[simp] theorem kind_invalid (m code : String) (a b : Nat) :
    (l.invalid m code a b).kind = .invalid := rfl

@[simp] theorem single_tokens (t : Token) (n : Nat) : (single t n).tokens = [t] := rfl

@[simp] theorem single_next (t : Token) (n : Nat) : (single t n).next = n := rfl

theorem over_token {k : TokenKind} {a b : Nat} (hk : k ≠ .eof) (hab : a < b) :
    (l.token k a b).Over l.source a b :=
  ⟨hab, rfl, rfl, hk⟩

/-- A token made by `token` and given a value stands where the token stands. -/
theorem over_token_with {k : TokenKind} {a b : Nat} (hk : k ≠ .eof) (hab : a < b)
    (v : TokenValue) : { l.token k a b with value := v }.Over l.source a b :=
  ⟨hab, rfl, rfl, hk⟩

theorem over_invalid {a b : Nat} (m code : String) (hab : a < b) :
    (l.invalid m code a b).Over l.source a b :=
  ⟨hab, rfl, rfl, by simp⟩

/-! ## Skipping -/

theorem le_skipWhile (q : Char → Bool) (pos : Nat) : pos ≤ l.skipWhile q pos := by
  fun_induction l.skipWhile q pos <;> omega

theorem skipWhile_le (q : Char → Bool) (pos : Nat) : l.skipWhile q pos ≤ max pos l.stop := by
  fun_induction l.skipWhile q pos <;> omega

/-- Skipping from inside the range stays inside it. -/
theorem skipWhile_mem (q : Char → Bool) {pos : Nat} (h : pos ≤ l.stop) :
    pos ≤ l.skipWhile q pos ∧ l.skipWhile q pos ≤ l.stop :=
  ⟨l.le_skipWhile q pos, by have := l.skipWhile_le q pos; omega⟩

/-- Skipping from a byte of the class moves past it. -/
theorem lt_skipWhile {q : Char → Bool} {pos : Nat} (h : pos < l.stop) (hq : q (l.peek pos)) :
    pos < l.skipWhile q pos := by
  rw [skipWhile, if_pos h, if_pos (by rwa [← peek_of_lt_stop h])]
  have := l.le_skipWhile q (pos + 1)
  omega

theorem blockCommentEnd_bounds {pos e : Nat} (h : l.blockCommentEnd pos = some e) :
    pos + 2 ≤ e ∧ e ≤ l.stop := by
  fun_induction l.blockCommentEnd pos with
  | case1 pos hpos hend =>
    cases h
    have := lt_stop_of_peek hend.2 (by decide)
    omega
  | case2 pos hpos _ ih =>
    have := ih h
    omega
  | case3 => cases h

/-- Skipping blanks and comments moves forward and stays in the range, or ends in an
unterminated comment that is one token to the end of the range. -/
theorem skipTrivia_inl {pos a : Nat} (h : l.skipTrivia pos = .inl a) :
    pos ≤ a ∧ a ≤ max pos l.stop := by
  fun_induction l.skipTrivia pos with
  | case1 pos hpos _ _ ih =>
    have := ih h
    omega
  | case2 pos hpos _ _ _ ih =>
    have := ih h
    have := l.skipWhile_le (· != '\n') pos
    omega
  | case3 pos hpos _ _ _ _ e he ih =>
    have := ih h
    have := blockCommentEnd_bounds he
    omega
  | case4 => cases h
  | case5 => cases h; omega
  | case6 => cases h; omega

theorem skipTrivia_inr {pos : Nat} {bad : Token} (h : l.skipTrivia pos = .inr bad) :
    Laid l.source pos l.stop [bad] := by
  fun_induction l.skipTrivia pos with
  | case1 pos hpos _ _ ih => exact (ih h).widen (by omega) le_rfl
  | case2 pos hpos _ _ _ ih => exact (ih h).widen (by omega) le_rfl
  | case3 pos hpos _ _ _ _ e he ih => exact (ih h).widen (by omega) le_rfl
  | case4 pos hpos _ _ _ hopen _ =>
    cases h
    -- the comment's `*` is in the range, so the token reaches exactly to its end
    have := lt_stop_of_peek hopen.2 (by decide)
    exact .single le_rfl (over_invalid _ _ (by omega)) (by omega)
  | case5 => cases h
  | case6 => cases h

/-! ## Escapes and UTF-8 -/

/-- A hexadecimal digit is not NUL, so one is read only inside the range. -/
theorem lt_stop_of_hexDigit {p d : Nat} (hd : Bytes.hexDigit? (l.peek p) = some d) :
    p < l.stop :=
  lt_stop_of_peek rfl fun h0 => by
    rw [h0, show Bytes.hexDigit? '\x00' = none by decide] at hd
    cases hd

theorem unicodeEscape_next (pos acc k : Nat) :
    pos ≤ (l.unicodeEscape pos acc k).next ∧
      (l.unicodeEscape pos acc k).next ≤ max pos l.stop := by
  induction k generalizing pos acc with
  | zero => simp only [unicodeEscape]; omega
  | succ k ih =>
    simp only [unicodeEscape]
    split
    · rename_i d hd
      have := lt_stop_of_hexDigit hd
      have := ih (pos + 1) (acc * 16 + d)
      omega
    · simp only
      omega

/-- An escape reads forward and stays in the range. -/
theorem escape_next (pos : Nat) :
    pos ≤ (l.escape pos).next ∧ (l.escape pos).next ≤ max pos l.stop := by
  have hnext : pos ≤ (if pos < l.stop then pos + 1 else pos) ∧
      (if pos < l.stop then pos + 1 else pos) ≤ max pos l.stop := by
    split <;> omega
  by_cases hu : l.peek pos = 'u'
  · have := l.unicodeEscape_next (if pos < l.stop then pos + 1 else pos) 0 4
    simp only [escape, hu]
    omega
  · -- every other escape consumes its one byte, if there is one
    have heq : (l.escape pos).next = if pos < l.stop then pos + 1 else pos := by
      unfold escape
      dsimp only
      split <;> simp_all
    rw [heq]
    exact hnext

theorem decodeUtf8_go_next (i p cp : Nat) :
    p ≤ (decodeUtf8.go l i p cp).2 ∧ (decodeUtf8.go l i p cp).2 ≤ max p l.stop := by
  induction i generalizing p cp with
  | zero => simp only [decodeUtf8.go]; omega
  | succ i ih =>
    simp only [decodeUtf8.go]
    split
    · simp only
      omega
    · rename_i hc
      -- a continuation byte is not NUL, so it was read inside the range
      have hp : p < l.stop := lt_stop_of_peek rfl fun h0 => by simp [h0] at hc
      have := ih (p + 1) ((cp <<< 6) ||| ((l.peek p).toNat &&& 0x3F))
      omega

/-- Decoding a character inside the range consumes at least its lead byte. -/
theorem decodeUtf8_next {pos : Nat} (h : pos < l.stop) :
    pos < (l.decodeUtf8 pos).2 ∧ (l.decodeUtf8 pos).2 ≤ l.stop := by
  have hgo : ∀ n cp, pos < (decodeUtf8.go l n (pos + 1) cp).2 ∧
      (decodeUtf8.go l n (pos + 1) cp).2 ≤ l.stop := by
    intro n cp
    have := l.decodeUtf8_go_next n (pos + 1) cp
    omega
  unfold decodeUtf8
  dsimp only
  split
  · exact ⟨by omega, by omega⟩
  split
  · exact hgo _ _
  split
  · exact hgo _ _
  split
  · exact hgo _ _
  · exact ⟨by omega, by omega⟩

end Lexer

namespace TokenKind

/-- No reserved word lexes to the end of file. -/
theorem keyword?_ne_eof {w : String} {k : TokenKind} (h : keyword? w = some k) : k ≠ .eof := by
  unfold keyword? at h
  obtain ⟨p, hp, rfl⟩ := Option.map_eq_some_iff.1 h
  have hall : ∀ q ∈ reserved, q.2 ≠ .eof := by decide
  exact hall p (List.mem_of_find?_eq_some hp)

/-- The derived test for the end of file means what it says. -/
theorem eq_eof_of_beq {k : TokenKind} (h : (k == .eof) = true) : k = .eof := by
  revert h
  cases k <;> decide

@[simp] theorem eof_beq_eof : (TokenKind.eof == .eof) = true := rfl

end TokenKind

namespace Lexer

variable {l : Lexer}

/-! ## Tokens of one byte class -/

/-- A token read from `a`, with the offset where lexing goes on: it stands over `[a, next)`,
and `next` is inside the range. -/
structure ReadFrom (l : Lexer) (a : Nat) (x : Token × Nat) : Prop where
  spans : x.1.Over l.source a x.2
  le : x.2 ≤ l.stop

theorem scanWord_over {a : Nat} (ha : a < l.stop) (hc : isIdentStart (l.peek a)) :
    l.ReadFrom a (l.scanWord a) := by
  have hlt : a < l.skipWhile isIdentContinue a := lt_skipWhile ha (by simp [isIdentContinue, hc])
  have hle := l.skipWhile_le isIdentContinue a
  simp only [scanWord]
  split
  · exact ⟨over_token (by decide) hlt, by omega⟩
  · exact ⟨over_token_with (by decide) hlt _, by omega⟩
  · rename_i k _ hk
    exact ⟨over_token (TokenKind.keyword?_ne_eof hk) hlt, by omega⟩

/-! ## Numbers -/

/-- A digit is not NUL, so one is read only inside the range. -/
theorem lt_stop_of_isDigit {p : Nat} (h : (l.peek p).isDigit) : p < l.stop :=
  lt_stop_of_peek rfl fun h0 => by rw [h0] at h; exact absurd h (by decide)

theorem numberEnd_bounds {a : Nat} (ha : a < l.stop) (hd : (l.peek a).isDigit) :
    a < l.numberEnd a ∧ l.numberEnd a ≤ l.stop := by
  unfold numberEnd
  dsimp only
  split
  · -- `0x` or `0b`: the prefix letter is in the range, then digits and an optional `L`
    rename_i hrad
    have h1 : a + 1 < l.stop :=
      lt_stop_of_peek rfl (by rcases hrad.2 with h | h | h | h <;> simp [h])
    generalize hp : l.skipWhile (fun c => isHexDigit c || c == '_') (a + 2) = p
    have hp1 : a + 2 ≤ p := hp ▸ l.le_skipWhile _ _
    have hp2 : p ≤ max (a + 2) l.stop := hp ▸ l.skipWhile_le _ _
    split
    · rename_i hL
      have : p < l.stop := by rcases hL with h | h <;> exact lt_stop_of_peek h (by decide)
      omega
    · omega
  · -- decimal digits, then an optional fraction, exponent and suffix, each read only when
    -- its first byte is in the range
    generalize hp : l.skipWhile (fun c => c.isDigit || c == '_') a = p
    have hp1 : a < p := hp ▸ lt_skipWhile ha (by simp [hd])
    have hp2 : p ≤ max a l.stop := hp ▸ l.skipWhile_le _ _
    generalize hq : (if l.peek p = '.' ∧ (l.peek (p + 1)).isDigit = true then
        l.skipWhile (fun c => c.isDigit || c == '_') (p + 1) else p) = q
    have hq' : p ≤ q ∧ q ≤ l.stop := by
      rw [← hq]
      split
      · rename_i hf
        have := l.skipWhile_mem (fun c => c.isDigit || c == '_') (lt_stop_of_isDigit hf.2).le
        omega
      · omega
    generalize hr : (if l.peek q = 'e' ∨ l.peek q = 'E' then
        if (l.peek (q + 1)).isDigit = true then l.skipWhile Char.isDigit (q + 1)
        else if (l.peek (q + 1) = '+' ∨ l.peek (q + 1) = '-') ∧
            (l.peek (q + 2)).isDigit = true then
          l.skipWhile Char.isDigit (q + 2)
        else q
      else q) = r
    have hr' : q ≤ r ∧ r ≤ l.stop := by
      rw [← hr]
      split
      · split
        · rename_i hdig
          have := l.skipWhile_mem Char.isDigit (lt_stop_of_isDigit hdig).le
          omega
        · split
          · rename_i hsign
            have := l.skipWhile_mem Char.isDigit (lt_stop_of_isDigit hsign.2).le
            omega
          · omega
      · omega
    split
    · rename_i hsuf
      have : r < l.stop := lt_stop_of_peek rfl fun h0 => by
        rw [h0] at hsuf
        exact absurd hsuf (by decide)
      omega
    · omega

theorem scanNumber_over {a : Nat} (ha : a < l.stop) (hd : (l.peek a).isDigit) :
    l.ReadFrom a (l.scanNumber a) := by
  obtain ⟨hlt, hle⟩ := numberEnd_bounds ha hd
  unfold scanNumber
  dsimp only
  split
  · -- identifier bytes right after the number make one invalid token up to their end
    have := l.skipWhile_mem isIdentContinue hle
    exact ⟨over_invalid _ _ (by omega), by omega⟩
  · split
    · exact ⟨over_invalid _ _ hlt, hle⟩
    · exact ⟨over_token_with (by split <;> decide) hlt _, hle⟩

theorem scanChar_over {a : Nat} (ha : a < l.stop) :
    l.ReadFrom a (l.scanChar a) := by
  by_cases hempty : l.peek (a + 1) = '\''
  · -- `''`: the second quote is in the range
    have := lt_stop_of_peek hempty (by decide)
    simp only [scanChar, hempty, if_true]
    exact ⟨over_invalid _ _ (by omega), by omega⟩
  by_cases hend : a + 1 ≥ l.stop ∨ l.peek (a + 1) = '\n'
  · simp only [scanChar, hempty, hend, if_true, if_false]
    exact ⟨over_invalid _ _ (by omega), by omega⟩
  have hnot : ¬ a + 1 ≥ l.stop := by omega
  -- the character, escaped or not, ends at some `q` past the quote and inside the range; the
  -- three ways to read it (escape read, bad escape, UTF-8) leave the same closing to check
  by_cases hesc : l.peek (a + 1) = '\\'
  on_goal 1 =>
    have he := l.escape_next (a + 1 + 1)
    simp +decide only [scanChar, hesc, hnot, if_true, if_false, false_or]
    generalize l.escape (a + 1 + 1) = e at he ⊢
    obtain ⟨q, result⟩ := e
    have hq : a < q ∧ q ≤ l.stop := by dsimp only at he; omega
    cases result <;> dsimp only
  on_goal 3 =>
    have hd := l.decodeUtf8_next (Nat.lt_of_not_le hnot)
    simp only [scanChar, hempty, hend, hesc, if_false]
    generalize l.decodeUtf8 (a + 1) = d at hd ⊢
    obtain ⟨cp, q⟩ := d
    have hq : a < q ∧ q ≤ l.stop := by dsimp only at hd; omega
    dsimp only
  all_goals
    obtain ⟨hq1, hq2⟩ := hq
    generalize hr : l.skipWhile (fun c => c != '\'' && c != '\n') q = r
    have hr1 : q ≤ r := hr ▸ l.le_skipWhile _ _
    have hr2 : r ≤ max q l.stop := hr ▸ l.skipWhile_le _ _
    split
    · -- no quote right after the character: the literal runs on to the next quote
      split
      · have := lt_stop_of_peek ‹l.peek r = '\''› (by decide)
        exact ⟨over_invalid _ _ (by omega), by omega⟩
      · exact ⟨over_invalid _ _ (by omega), by omega⟩
    · -- the closing quote is inside the range
      have := lt_stop_of_peek (not_not.1 ‹¬l.peek q ≠ '\''›) (by decide)
      repeat' split
      all_goals exact ⟨⟨by omega, rfl, rfl, by simp⟩, by omega⟩

/-! ## Directives and operators -/

theorem scanDirective_over {a : Nat} (ha : a < l.stop) :
    l.ReadFrom a (l.scanDirective a) := by
  have hw := l.skipWhile_mem isIdentContinue (show a + 1 ≤ l.stop from ha)
  simp only [scanDirective]
  generalize l.skipWhile isIdentContinue (a + 1) = w at hw ⊢
  split
  · exact ⟨over_invalid _ _ (by omega), by omega⟩
  -- the feature name: blanks, then name bytes, all inside the range
  have hs := l.skipWhile_mem (fun c => c == ' ' || c == '\t') hw.2
  generalize l.skipWhile (fun c => c == ' ' || c == '\t') w = s at hs ⊢
  have he := l.skipWhile_mem (fun c => isIdentContinue c || c == '.' || c == '-') hs.2
  generalize l.skipWhile (fun c => isIdentContinue c || c == '.' || c == '-') s = e at he ⊢
  split
  · exact ⟨over_invalid _ _ (by omega), by omega⟩
  · exact ⟨over_token_with (by decide) (by omega) _, by omega⟩

theorem scanOperator_over {a : Nat} (ha : a < l.stop) :
    l.ReadFrom a (l.scanOperator a) := by
  simp only [scanOperator]
  by_cases h1 : a + 1 < l.stop
  · -- both bytes are in the range, so an operator of either length fits
    split <;> (repeat' split) <;> exact ⟨⟨by omega, rfl, rfl, by simp⟩, by omega⟩
  · -- the second byte reads as NUL, which continues no operator: only one byte is taken
    rw [peek_of_stop_le (Nat.le_of_not_lt h1)]
    simp +decide only [if_false]
    split <;> exact ⟨⟨by omega, rfl, rfl, by simp⟩, by omega⟩

/-! ## Strings -/

/-- The brace closing an interpolation lies at or after where the search starts, before the
limit. -/
theorem closingBrace_bounds {src : Source} {limit : Nat} :
    ∀ {i depth j : Nat}, closingBrace src limit i depth = some j → i ≤ j ∧ j < limit := by
  intro i depth j h
  -- every search step moves right, so the induction is on the bytes left before the limit
  induction hn : limit - i using Nat.strong_induction_on generalizing i depth with
  | _ n ih =>
  rw [closingBrace] at h
  split at h
  · dsimp only at h
    split at h
    · split at h
      · cases h
      · have := ih _ (by omega) h rfl
        omega
    split at h
    · have := ih _ (by omega) h rfl
      omega
    split at h
    · split at h
      · cases h
        omega
      · have := ih _ (by omega) h rfl
        omega
    split at h
    · cases h
    · have := ih _ (by omega) h rfl
      omega
  · cases h

/-- A string opened at `a` and lexed up to `pos`: its run so far stands after the opening quote
and before the current text segment, which starts at or before `pos`, and strictly before
once it holds text. -/
structure StringState.Inv (l : Lexer) (a pos : Nat) (st : StringState) : Prop where
  quote_lt : a < st.textStart
  start_le : st.textStart ≤ pos
  pos_le : pos ≤ l.stop
  text : st.text ≠ [] → st.textStart < pos
  run : Laid l.source (a + 1) st.textStart st.run.toList

/-- Reading text moves on without touching the run or where the segment started. -/
theorem StringState.Inv.advance {st st' : StringState} {a pos p : Nat} (h : st.Inv l a pos)
    (hrun : st'.run = st.run) (hstart : st'.textStart = st.textStart) (hp : pos < p)
    (hps : p ≤ l.stop) : st'.Inv l a p where
  quote_lt := hstart ▸ h.quote_lt
  start_le := by have := h.start_le; omega
  pos_le := hps
  text _ := by have := h.start_le; omega
  run := by rw [hrun, hstart]; exact h.run

/-- Closing the text segment at `p` lays it after the run. -/
theorem StringState.flush_run {st : StringState} {lo p : Nat}
    (hrun : Laid l.source lo st.textStart st.run.toList) (hle : st.textStart ≤ p)
    (htext : st.text ≠ [] → st.textStart < p) :
    Laid l.source lo p (st.flush l p).run.toList ∧ (st.flush l p).text = [] := by
  unfold StringState.flush
  split
  · rename_i hempty
    exact ⟨hrun.widen le_rfl hle, List.isEmpty_iff.1 hempty⟩
  · rename_i hne
    have hlt := htext (by simpa using hne)
    refine ⟨?_, rfl⟩
    rw [Array.toList_push]
    exact hrun.snoc le_rfl (over_token_with (by decide) hlt _)

/-- A scan step from `pos` that moves forward: its tokens stand one after another from `pos`
up to where lexing goes on, inside the range. -/
structure Forward (l : Lexer) (pos : Nat) (s : Scan) : Prop where
  laid : Laid l.source pos s.next s.tokens
  lt : pos < s.next
  le : s.next ≤ l.stop

theorem forward_single {pos a : Nat} {x : Token × Nat} (hpa : pos ≤ a)
    (h : l.ReadFrom a x) : l.Forward pos (single x.1 x.2) :=
  ⟨.single hpa h.spans le_rfl, by have := h.spans.lt; simp only [single]; omega, h.le⟩

/-- A string that stops at a newline or the end of the range is one invalid token. -/
theorem forward_unterminated {a pos : Nat} {made : Rejections} (hap : a < pos)
    (hpos : pos ≤ l.stop) :
    l.Forward a
      ⟨[l.invalid "unterminated string literal" Code.unterminated a pos], pos, made⟩ :=
  ⟨.single le_rfl (over_invalid _ _ hap) le_rfl, hap, hpos⟩

theorem unbalanced_forward {a pos : Nat} {st : StringState} (hap : a < pos)
    (h1 : pos + 1 < l.stop) : l.Forward a (l.unbalanced a pos st) := by
  have he := l.skipWhile_mem (· != '\n') (show pos + 2 ≤ l.stop from h1)
  simp only [unbalanced, lineEnd]
  refine ⟨.single le_rfl (over_invalid _ _ (by omega)) le_rfl, ?_, ?_⟩ <;> dsimp only <;> omega

/-- The closing quote at `pos` ends the string: one token, or the run between an
`interpStart` and an `interpEnd`. -/
theorem finishString_forward {a pos : Nat} {st : StringState} (hinv : st.Inv l a pos)
    (hpos : pos < l.stop) : l.Forward a (l.finishString a (pos + 1) st) := by
  have hap : a < pos := Nat.lt_of_lt_of_le hinv.quote_lt hinv.start_le
  unfold finishString
  split
  · exact ⟨.single le_rfl (over_invalid _ _ (by omega)) le_rfl, Nat.lt_succ_of_lt hap, hpos⟩
  split
  · exact ⟨.single le_rfl (over_token_with (by decide) (by omega) _) le_rfl,
      Nat.lt_succ_of_lt hap, hpos⟩
  · simp only [Nat.add_sub_cancel, Array.toList_push]
    have hflush := (StringState.flush_run hinv.run hinv.start_le hinv.text).1
    refine ⟨.cons le_rfl (over_token (by decide) (Nat.lt_succ_self a)) ?_, Nat.lt_succ_of_lt hap,
      hpos⟩
    exact hflush.snoc le_rfl (over_token (by decide) (Nat.lt_succ_self pos))

/-- A run from `pos` lays its tokens down from `pos` up to its end of file, which is inside
the range, or at `pos` when that is past it. -/
structure Covers (l : Lexer) (pos : Nat) (r : Run) : Prop where
  laid : Laid l.source pos r.eofAt r.tokens.toList
  eof_le : r.eofAt ≤ max pos l.stop

/-- What a scan step from `pos` does: it gives the end of file, at or after `pos` and inside the
range unless `pos` is past it, or it moves forward. -/
def ScanOk (l : Lexer) (pos : Nat) (s : Scan) : Prop :=
  (s.tokens = [l.token .eof s.next s.next] ∧ pos ≤ s.next ∧ s.next ≤ max pos l.stop) ∨
    l.Forward pos s

section Nested

/- A string's `${ … }` is lexed by a run over a strictly smaller range; the facts about strings
and scan steps hold for a lexer once they hold for the runs of every smaller one. -/
variable
  (hrun : ∀ l' : Lexer, l'.stop < l.stop → ∀ pos fuel, l'.Covers pos (l'.scanRun pos fuel))
include hrun

/-- The rest of a string from `pos` moves forward and lays its tokens down from the opening
quote on. -/
theorem scanString_forward {a : Nat} :
    ∀ {pos : Nat} {st : StringState}, st.Inv l a pos → l.Forward a (l.scanString a pos st) := by
  intro pos st hinv
  -- each byte read moves `pos` right, so the induction is on the bytes left in the range
  induction hn : l.stop - pos using Nat.strong_induction_on generalizing pos st with
  | _ n ih =>
  have hap : a < pos := Nat.lt_of_lt_of_le hinv.quote_lt hinv.start_le
  rw [scanString]
  split
  case isFalse hpos => exact forward_unterminated hap hinv.pos_le
  rename_i hpos
  have step : ∀ {p : Nat} {st' : StringState}, pos < p → st'.Inv l a p →
      l.Forward a (l.scanString a p st') :=
    fun hp hinv' => ih _ (by have := hinv'.pos_le; omega) hinv' rfl
  dsimp only
  split
  · exact forward_unterminated hap hpos.le
  split
  · exact finishString_forward hinv hpos
  split
  · -- an escape: its bytes join the text, or its error is kept
    have he := l.escape_next (pos + 1)
    apply step (Nat.lt_of_lt_of_le (Nat.lt_succ_self pos) (Nat.le_max_right _ _))
    split
    · exact hinv.advance rfl rfl (by omega) (by omega)
    · split
      · exact hinv.advance rfl rfl (by omega) (by omega)
      · exact hinv.advance rfl rfl (by omega) (by omega)
  split
  · -- `${`: the code up to the closing brace is lexed over just that range
    rename_i hopen
    have h1 : pos + 1 < l.stop := lt_stop_of_peek hopen.2 (by decide)
    obtain ⟨hflush, htext⟩ := StringState.flush_run hinv.run hinv.start_le hinv.text
    split
    · rename_i close hclose
      split
      · rename_i hc
        have hge := (closingBrace_bounds hclose).1
        have hbody := hrun (l.inner (pos + 2) close) hc (pos + 2) (close - pos)
        have heof :
            (scanRun (l.inner (pos + 2) close) (pos + 2) (close - pos)).eofAt ≤ close := by
          have : _ ≤ max (pos + 2) close := hbody.eof_le
          omega
        apply step (by omega)
        refine ⟨by dsimp only; omega, by dsimp only; omega, by omega,
          fun h => absurd htext h, ?_⟩
        simp only [Array.toList_push, Array.toList_append, List.append_assoc,
          List.singleton_append]
        refine hflush.append (.cons le_rfl (over_token (by decide) (by omega)) ?_)
        exact hbody.laid.snoc heof (over_token (by decide) (Nat.lt_succ_self close))
      · exact unbalanced_forward hap h1
    · exact unbalanced_forward hap h1
  split
  · -- `$name`: the name is a token of the run
    rename_i hname
    have h1 : pos + 1 < l.stop := lt_stop_of_peek rfl fun h0 => by
      rw [h0] at hname
      exact absurd hname.2 (by decide)
    obtain ⟨hflush, htext⟩ := StringState.flush_run hinv.run hinv.start_le hinv.text
    have he1 : pos + 1 < l.skipWhile isIdentContinue (pos + 1) :=
      lt_skipWhile h1 (by simp [isIdentContinue, hname.2])
    have he2 := l.skipWhile_le isIdentContinue (pos + 1)
    apply step (by omega)
    refine ⟨by dsimp only; omega, by dsimp only; omega, by omega, fun h => absurd htext h, ?_⟩
    simp only [Array.toList_push]
    exact hflush.snoc (Nat.le_succ pos) (over_token_with (by decide) he1 _)
  · -- a plain byte joins the text
    exact step (Nat.lt_succ_self pos) (hinv.advance rfl rfl (Nat.lt_succ_self pos) hpos)

/-- A scan step whose blanks and comments end on a byte inside the range reads a token there,
or a string's whole run, and moves forward. -/
theorem scan_forward_of {pos a : Nat} (ha : l.skipTrivia pos = .inl a) (hlt : a < l.stop) :
    l.Forward pos (l.scan pos) := by
  obtain ⟨hpa, -⟩ := skipTrivia_inl ha
  rw [scan, ha]
  dsimp only
  rw [if_pos hlt]
  -- the byte at `a` decides the class of the token
  split
  · exact forward_single hpa (scanWord_over hlt ‹_›)
  split
  · exact forward_single hpa (scanNumber_over hlt ‹_›)
  split
  · have hinv : StringState.Inv l a (a + 1) { textStart := a + 1 } :=
      ⟨Nat.lt_succ_self a, le_rfl, hlt, fun h => absurd rfl h, .nil le_rfl⟩
    have hstr := scanString_forward hrun hinv
    exact ⟨hstr.laid.widen hpa le_rfl, by have := hstr.lt; omega, hstr.le⟩
  split
  · exact forward_single hpa (scanChar_over hlt)
  split
  · exact forward_single hpa (scanDirective_over hlt)
  · exact forward_single hpa (scanOperator_over hlt)

theorem scan_ok_of (pos : Nat) : l.ScanOk pos (l.scan pos) := by
  rcases ha : l.skipTrivia pos with a | bad
  · obtain ⟨hpa, hastop⟩ := skipTrivia_inl ha
    by_cases hlt : a < l.stop
    · exact .inr (scan_forward_of hrun ha hlt)
    · rw [scan, ha]
      dsimp only
      rw [if_neg hlt]
      exact .inl ⟨rfl, hpa, hastop⟩
  · -- an unterminated block comment is one token to the end of the range
    have hlaid := skipTrivia_inr ha
    rw [scan, ha]
    exact .inr ⟨hlaid, hlaid.lt_of_cons, le_rfl⟩

theorem scanRun_covers_of (fuel : Nat) : ∀ pos, l.Covers pos (l.scanRun pos fuel) := by
  induction fuel with
  | zero =>
    intro pos
    rw [scanRun]
    exact ⟨.nil le_rfl, Nat.le_max_left _ _⟩
  | succ fuel ih =>
    intro pos
    rw [scanRun]
    dsimp only
    have hok := scan_ok_of hrun pos
    generalize l.scan pos = s at hok ⊢
    rcases hok with ⟨htok, hle, hge⟩ | hfw
    · -- the end of file: the run stops there
      simp only [htok, kind_token]
      exact ⟨.nil hle, hge⟩
    -- a forward step: the rest of the run follows its tokens
    have hrest := ih s.next
    have hstop : max s.next l.stop ≤ max pos l.stop := by have := hfw.le; omega
    have hcov : ∀ (ts : List Token) (made : Rejections), ts = s.tokens →
        l.Covers pos ⟨ts.toArray ++ (l.scanRun s.next fuel).tokens, made,
          (l.scanRun s.next fuel).eofAt⟩ := by
      rintro ts made rfl
      refine ⟨?_, Nat.le_trans hrest.eof_le hstop⟩
      simp only [Array.toList_append]
      exact hfw.laid.append hrest.laid
    split
    · rename_i t ht
      split
      · rename_i heof
        have hover := hfw.laid.over_of_mem (ht ▸ List.mem_singleton_self t)
        obtain ⟨_, _, _, _, hover⟩ := hover
        exact absurd (TokenKind.eq_eof_of_beq heof) hover.kind
      · exact hcov [t] _ ht.symm
    · exact hcov _ _ rfl

end Nested

/-- Every run covers what it lexed, whatever its step budget. The induction is on the end of the
range: a string's `${ … }` is lexed by a run over a smaller one. -/
theorem scanRun_covers (l : Lexer) (pos fuel : Nat) : l.Covers pos (l.scanRun pos fuel) := by
  induction hn : l.stop using Nat.strong_induction_on generalizing l pos fuel with
  | _ n ih =>
  exact scanRun_covers_of (fun l' hl' pos' fuel' => ih _ (hn ▸ hl') l' pos' fuel' rfl) fuel pos

/-- A scan step gives the end of file at or after `pos`, or moves forward and lays its tokens
down in order. -/
theorem scan_ok (l : Lexer) (pos : Nat) : l.ScanOk pos (l.scan pos) :=
  scan_ok_of (fun l' _ pos' fuel => scanRun_covers l' pos' fuel) pos

/-- A scan step that finds the first byte of a token inside the range moves forward. -/
theorem scan_forward (l : Lexer) {pos a : Nat} (ha : l.skipTrivia pos = .inl a)
    (hlt : a < l.stop) : l.Forward pos (l.scan pos) :=
  scan_forward_of (fun l' _ pos' fuel => scanRun_covers l' pos' fuel) ha hlt

/-! ## The step budget -/

/-- A run with more steps than bytes left is not cut short: one more step changes nothing. -/
theorem scanRun_succ {pos fuel : Nat} (h : l.stop - pos < fuel) :
    l.scanRun pos (fuel + 1) = l.scanRun pos fuel := by
  induction fuel generalizing pos with
  | zero => omega
  | succ fuel ih =>
    conv_lhs => rw [scanRun]
    conv_rhs => rw [scanRun]
    dsimp only
    rcases scan_ok l pos with ⟨htok, -, -⟩ | hfw
    · simp only [htok, kind_token, TokenKind.eof_beq_eof, if_true]
    -- a forward step leaves fewer bytes than steps for the rest of the run
    rw [ih (by have := hfw.lt; have := hfw.le; omega)]

/-- Any budget beyond the bytes of the range gives the run of `tokenize`. -/
theorem scanRun_add {pos : Nat} (extra : Nat) :
    l.scanRun pos (l.stop - pos + 1 + extra) = l.scanRun pos (l.stop - pos + 1) := by
  induction extra with
  | zero => rfl
  | succ extra ih => rw [← Nat.add_assoc, scanRun_succ (by omega), ih]

/-! ## The tokens of a range -/

/-- `tokenize` lays the run's tokens down from the start of the range and puts the end of file
where they end: inside the range, or at its start when that is past its end. -/
theorem tokenize_eq_laid (l : Lexer) :
    ∃ q ts, l.start ≤ q ∧ q ≤ max l.start l.stop ∧ Laid l.source l.start q ts ∧
      l.tokenize.1.toList = ts ++ [l.token .eof q q] := by
  have hcov := scanRun_covers l l.start (l.stop - l.start + 1)
  exact ⟨_, _, hcov.laid.le, hcov.eof_le, hcov.laid, by simp [tokenize]⟩

end Lexer

end AmLang
