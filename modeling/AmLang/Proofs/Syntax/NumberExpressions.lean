import AmLang.Proofs.Syntax.DecimalLiterals
import AmLang.Proofs.Syntax.TokenLayout
import AmLang.Proofs.Syntax.ParserProgress
/-!
# Number texts as expressions

What the lexer and the expression parser make of the decimal text of an integer. The lexer reads
a run of digits as one number token, through the number reader, and a minus sign before it as
the operator `-` on its own. The parser then folds a minus sign that stands directly before an
integer literal into one literal, read again from the two lexemes together, so that
`-2147483648` is the `Int` it writes and not the negation of a `Long`.

The fold only sees valid literals. The digits of the least 64-bit integer, `9223372036854775808`,
are one past the positive range, so the lexer already makes them an invalid token; the parser
does not fold it, and the text is the negation of an invalid literal, reported as too large.
Every other 64-bit integer's text is one literal of its value.

## Main results

* `tokenize_digits`, `tokenize_minus` — the tokens of a run of digits, with or without a
  minus sign before it.
* `exec_expr_literal`, `exec_expr_folded`, `exec_expr_negated_invalid` — the expression read
  from a literal, a minus sign folded into the literal after it, and a minus sign before an
  invalid literal.
* `parseExpr_toString_literal` — the text of a 64-bit integer is one literal of its value
  exactly when the integer is not the least one.
* `decimal_literal_round_trip` — the reader and the expression path together.
-/

namespace AmLang

/-! ## Lexing a run of digits -/

namespace Lexer

variable {l : Lexer}


/-- Skipping a class that every byte up to the end belongs to reaches the end. -/
theorem skipWhile_eq_stop {q : Char → Bool} {pos : Nat} (hpos : pos ≤ l.stop)
    (h : ∀ i, pos ≤ i → i < l.stop → q (l.peek i)) : l.skipWhile q pos = l.stop := by
  fun_induction l.skipWhile q pos with
  | case1 pos hlt hq ih => exact ih (by omega) fun i hi => h i (by omega)
  | case2 pos hlt hq => exact absurd (h pos le_rfl hlt) (by rwa [peek_of_lt_stop hlt])
  | case3 pos hge => omega

/-- A byte that is neither blank nor `/` starts a token where it stands. -/
theorem skipTrivia_of_start {pos : Nat} (h : pos < l.stop)
    (hc : l.peek pos ≠ ' ' ∧ l.peek pos ≠ '\t' ∧ l.peek pos ≠ '\r' ∧ l.peek pos ≠ '\n' ∧
      l.peek pos ≠ '/') : l.skipTrivia pos = .inl pos := by
  rw [skipTrivia]
  simp [h, hc]

theorem skipTrivia_stop : l.skipTrivia l.stop = .inl l.stop := by
  rw [skipTrivia]
  simp


/-- The bytes from `a` to the end of the range are digits. -/
def DigitsToEnd (l : Lexer) (a : Nat) : Prop := a < l.stop ∧ ∀ i, a ≤ i → i < l.stop → (l.peek i).isDigit

theorem isDigit_ne_x {c : Char} (h : c.isDigit) :
    ¬(c = 'x' ∨ c = 'X' ∨ c = 'b' ∨ c = 'B') := by
  rintro (rfl | rfl | rfl | rfl) <;> exact absurd h (by decide)

/-- Digits that run to the end of the range are one decimal number text. -/
theorem numberEnd_digits {a : Nat} (h : l.DigitsToEnd a) : l.numberEnd a = l.stop := by
  obtain ⟨ha, hd⟩ := h
  have hskip : l.skipWhile (fun c => c.isDigit || c == '_') a = l.stop :=
    skipWhile_eq_stop ha.le fun i h1 h2 => by simp [hd i h1 h2]
  have hnext : ¬(l.peek (a + 1) = 'x' ∨ l.peek (a + 1) = 'X' ∨ l.peek (a + 1) = 'b' ∨
      l.peek (a + 1) = 'B') := by
    by_cases h1 : a + 1 < l.stop
    · exact isDigit_ne_x (hd _ (by omega) h1)
    · rw [peek_of_stop_le (by omega)]
      decide
  have hend := peek_of_stop_le (l := l) (le_refl l.stop)
  unfold numberEnd
  simp +decide only [hnext, and_false, if_false, hskip, hend, false_and, or_self]

/-- A number text that runs to the end of the range is read by the number reader; a value it
reads is the token's. -/
theorem scanNumber_ok {a : Nat} {n : NumberLiteral} (h : l.DigitsToEnd a)
    (hp : NumberLiteral.parse (l.source.slice a l.stop) = .ok n) :
    l.scanNumber a = ({ l.token (if n.isIntegral then .intLit else .floatLit) a l.stop with
      value := .number n }, l.stop) := by
  unfold scanNumber
  simp only [numberEnd_digits h, Nat.lt_irrefl, false_and, if_false, hp]

/-- A number text that runs to the end of the range and that the number reader rejects is an
invalid token with the reader's message. -/
theorem scanNumber_error {a : Nat} {e : NumberError} (h : l.DigitsToEnd a)
    (hp : NumberLiteral.parse (l.source.slice a l.stop) = .error e) :
    l.scanNumber a = (l.invalid e.message Code.invalidNumber a l.stop, l.stop) := by
  unfold scanNumber
  simp only [numberEnd_digits h, Nat.lt_irrefl, false_and, if_false, hp]

theorem scanNumber_next {a : Nat} (h : l.DigitsToEnd a) : (l.scanNumber a).2 = l.stop := by
  rcases hp : NumberLiteral.parse (l.source.slice a l.stop) with e | n
  · simp only [scanNumber_error h hp]
  · simp only [scanNumber_ok h hp]

theorem isDigit_not_identStart {c : Char} (h : c.isDigit) : isIdentStart c = false := by
  simp only [Char.isDigit, Bool.and_eq_true, decide_eq_true_eq, ge_iff_le, UInt32.le_iff_toNat_le] at h
  have h0 : '0'.val.toNat = 48 := rfl
  have h9 : '9'.val.toNat = 57 := rfl
  have ha : 'a'.val.toNat = 97 := rfl
  have hA : 'A'.val.toNat = 65 := rfl
  simp only [isIdentStart, Bool.or_eq_false_iff, Bool.and_eq_false_iff, decide_eq_false_iff_not,
    beq_eq_false_iff_ne, ne_eq, Char.le_def, UInt32.le_iff_toNat_le, Char.toNat]
  refine ⟨⟨⟨.inl (by omega), .inl (by omega)⟩, ?_⟩, by omega⟩
  rintro rfl
  exact absurd h (by decide)

/-- A scan step at digits that run to the end of the range reads them as one number. -/
theorem scan_digits {a : Nat} (h : l.DigitsToEnd a) :
    l.scan a = single (l.scanNumber a).1 l.stop := by
  have hd := h.2 a le_rfl h.1
  have hne : l.peek a ≠ ' ' ∧ l.peek a ≠ '\t' ∧ l.peek a ≠ '\r' ∧ l.peek a ≠ '\n' ∧
      l.peek a ≠ '/' := by
    refine ⟨?_, ?_, ?_, ?_, ?_⟩ <;> intro he <;> rw [he] at hd <;> exact absurd hd (by decide)
  rw [scan]
  simp only [skipTrivia_of_start h.1 hne, h.1, if_true, isDigit_not_identStart hd, hd,
    Bool.false_eq_true, if_false]
  congr 1
  exact scanNumber_next h


/-- At the end of the range a scan step is the end of file. -/
theorem scan_stop : l.scan l.stop = single (l.token .eof l.stop l.stop) l.stop := by
  rw [scan]
  simp only [skipTrivia_stop, Nat.lt_irrefl, if_false]

/-- A minus sign before a digit is the operator `-` on its own. -/
theorem scan_minus {a : Nat} (ha : a < l.stop) (hm : l.peek a = '-') (hd : (l.peek (a + 1)).isDigit) :
    l.scan a = single (l.token .minus a (a + 1)) (a + 1) := by
  have hn1 : l.peek (a + 1) ≠ '>' := fun he => by rw [he] at hd; exact absurd hd (by decide)
  have hn2 : l.peek (a + 1) ≠ '=' := fun he => by rw [he] at hd; exact absurd hd (by decide)
  rw [scan]
  simp +decide only [skipTrivia_of_start ha (by simp [hm]), ha, if_true, hm, scanOperator, hn1, hn2,
    if_false]


/-- The number read at digits that run to the end is not the end of file. -/
theorem scanNumber_kind_ne_eof {a : Nat} (h : l.DigitsToEnd a) : (l.scanNumber a).1.kind ≠ .eof := by
  rcases hp : NumberLiteral.parse (l.source.slice a l.stop) with e | n
  · simp [scanNumber_error h hp]
  · rw [scanNumber_ok h hp]
    dsimp only [kind_token]
    split <;> simp

/-- A run at the end of the range is the end of file alone. -/
theorem scanRun_stop {fuel : Nat} : l.scanRun l.stop (fuel + 1) = { eofAt := l.stop } := by
  rw [scanRun]
  simp only [scan_stop, single_tokens, single_next, kind_token, TokenKind.eof_beq_eof, if_true]
  rfl

/-- The run from digits that reach the end: their number, then the end of file. -/
theorem scanRun_digits {a fuel : Nat} (h : l.DigitsToEnd a) :
    l.scanRun a (fuel + 2) =
      { tokens := #[(l.scanNumber a).1], made := (single (l.scanNumber a).1 l.stop).made,
        eofAt := l.stop } := by
  have hk : ((l.scanNumber a).1.kind == .eof) = false :=
    Bool.eq_false_iff.2 fun he => scanNumber_kind_ne_eof h (TokenKind.eq_eof_of_beq he)
  rw [scanRun]
  simp only [scan_digits h, single_tokens, single_next, hk, Bool.false_eq_true, if_false,
    scanRun_stop, Array.append_empty, List.append_nil]


/-- The run from a minus sign before digits that reach the end: the operator, the number, then
the end of file. -/
theorem scanRun_minus {a fuel : Nat} (hm : l.peek a = '-') (h : l.DigitsToEnd (a + 1)) :
    l.scanRun a (fuel + 3) =
      { tokens := #[l.token .minus a (a + 1), (l.scanNumber (a + 1)).1],
        made := (single (l.scanNumber (a + 1)).1 l.stop).made, eofAt := l.stop } := by
  rw [scanRun]
  simp only [scan_minus (by have := h.1; omega) hm (h.2 _ le_rfl h.1), single_tokens, single_next,
    kind_token, show (TokenKind.minus == .eof) = false by decide, Bool.false_eq_true, if_false,
    scanRun_digits h]
  rfl

/-- A range of digits is one number and the end of file. -/
theorem tokenize_digits (h : l.DigitsToEnd l.start) :
    l.tokenize = (#[(l.scanNumber l.start).1, l.token .eof l.stop l.stop],
      (single (l.scanNumber l.start).1 l.stop).made) := by
  have hfuel : l.stop - l.start + 1 = (l.stop - l.start - 1) + 2 := by have := h.1; omega
  simp only [tokenize, hfuel, scanRun_digits h]
  rfl

/-- A range of a minus sign and digits is the operator, one number and the end of file. -/
theorem tokenize_minus (hm : l.peek l.start = '-') (h : l.DigitsToEnd (l.start + 1)) :
    l.tokenize = (#[l.token .minus l.start (l.start + 1), (l.scanNumber (l.start + 1)).1,
      l.token .eof l.stop l.stop], (single (l.scanNumber (l.start + 1)).1 l.stop).made) := by
  have hfuel : l.stop - l.start + 1 = (l.stop - l.start - 2) + 3 := by have := h.1; omega
  simp only [tokenize, hfuel, scanRun_minus hm h]
  rfl


end Lexer

/-! ## Parsing a literal -/

namespace Parser

theorem exec_previous (s : State) :
    exec previous s = (.ok (s.tokens.getD (if s.pos > 0 then s.pos - 1 else 0) default), s) := rfl

theorem exec_trailers_eof {n : Nat} {e : Expr} {s : State} (h : s.cur.kind = .eof) :
    exec (trailers (n + 1) e) s = (.ok e, s) := by
  simp +decide [trailers, exec_bind, exec_peek, exec_previous, exec_check, h]

theorem exec_infixLoop_eof {n : Nat} {e : Expr} {s : State} (h : s.cur.kind = .eof) :
    exec (infixLoop (n + 1) 0 e) s = (.ok e, s) := by
  simp +decide [infixLoop, exec_bind, exec_peek, h, precedence]

/-- Moving past a token that is neither the end nor a brace: the cursor moves on by one. -/
theorem exec_advance_eq {s : State} (hpos : s.pos < s.tokens.size) (he : s.cur.kind ≠ .eof)
    (hl : s.cur.kind ≠ .lBrace) (hr : s.cur.kind ≠ .rBrace) :
    exec advance s = (.ok s.cur, { s with pos := s.pos + 1 }) := by
  have hcur : s.tokens.getD s.pos default = s.cur := by
    simp only [State.cur, Nat.min_eq_left (Nat.le_sub_one_of_lt hpos)]
  unfold advance
  rw [exec_bind, exec_peek]
  dsimp only
  rw [if_pos (TokenKind.bne_eq_true.2 he), exec_bind, exec_modify]
  dsimp only
  rw [exec_previous]
  simp only [TokenKind.beq_eq_false.2 hl, TokenKind.beq_eq_false.2 hr, Bool.false_eq_true, if_false,
    Nat.add_sub_cancel, gt_iff_lt, Nat.succ_pos, if_true, hcur]

theorem exec_primary_literal {n : Nat} {s : State} (hk : s.cur.kind = .intLit ∨ s.cur.kind = .invalid)
    (hpos : s.pos < s.tokens.size) :
    exec (primary (n + 1)) s = (.ok (.mk (.literal s.cur) s.cur.span), { s with pos := s.pos + 1 }) := by
  have hne : s.cur.kind ≠ .eof ∧ s.cur.kind ≠ .lBrace ∧ s.cur.kind ≠ .rBrace := by
    rcases hk with h | h <;> simp [h]
  unfold primary
  rw [exec_bind, exec_peek]
  dsimp only
  rw [exec_bind, exec_peek]
  dsimp only
  rcases hk with h | h <;> simp only [h] <;>
    rw [exec_bind, exec_advance_eq hpos hne.1 hne.2.1 hne.2.2] <;> rfl


/-- A literal followed by the end of file is read as that literal. -/
theorem exec_unary_literal {n : Nat} {s : State} (hk : s.cur.kind = .intLit ∨ s.cur.kind = .invalid)
    (hpos : s.pos < s.tokens.size) (hnext : (State.cur { s with pos := s.pos + 1 }).kind = .eof) :
    exec (unary (n + 2)) s = (.ok (.mk (.literal s.cur) s.cur.span), { s with pos := s.pos + 1 }) := by
  have hread := exec_primary_literal (n := n) hk hpos
  rw [unary]
  simp only [exec_bind, exec_peek]
  -- the token is no prefix operator, so the literal is read as a primary expression
  rcases hk with h | h <;> simp only [h] <;> rw [exec_bind, hread] <;> exact exec_trailers_eof hnext

/-- A lone integer literal is read as that literal. -/
theorem exec_expr_literal {n : Nat} {t e : Token} {errs : Array Diagnostic} (ht : t.kind = .intLit)
    (he : e.kind = .eof) :
    exec (expr (n + 4)) ⟨#[t, e], 0, errs, 0, 0⟩ =
      (.ok (.mk (.literal t) t.span), ⟨#[t, e], 1, errs, 0, 0⟩) := by
  have hc0 : State.cur ⟨#[t, e], 0, errs, 0, 0⟩ = t := rfl
  have hc1 : State.cur ⟨#[t, e], 1, errs, 0, 0⟩ = e := rfl
  simp only [expr, exprAbove, unary, exec_bind, exec_peek, hc0, ht]
  simp +decide only [exec_primary_literal (s := ⟨#[t, e], 0, errs, 0, 0⟩) (by simp [hc0, ht]) (by simp),
    hc0, Nat.zero_add, exec_trailers_eof (s := ⟨#[t, e], 1, errs, 0, 0⟩) (by rw [hc1, he])]
  exact exec_infixLoop_eof (by rw [hc1, he])


/-- The literal a minus sign and the number right after it are folded into. -/
def foldedLiteral (m t : Token) (lit : NumberLiteral) : Token :=
  let sp := Span.merge m.span t.span
  { kind := .intLit, span := { sp with start := { sp.start with length := (m.lexeme ++ t.lexeme).length } },
    lexeme := m.lexeme ++ t.lexeme, value := .number lit }

/-- A minus sign directly before an integer literal is folded into one literal. -/
theorem exec_expr_folded {n : Nat} {m t e : Token} {errs : Array Diagnostic} {lit : NumberLiteral}
    (hm : m.kind = .minus) (ht : t.kind = .intLit) (he : e.kind = .eof)
    (hadj : t.span.start.offset = m.span.start.offset + 1)
    (hlit : NumberLiteral.parse (m.lexeme ++ t.lexeme) = .ok lit) (hint : lit.isIntegral = true) :
    exec (expr (n + 4)) ⟨#[m, t, e], 0, errs, 0, 0⟩ =
      (.ok (.mk (.literal (foldedLiteral m t lit)) (Span.merge m.span t.span)),
        ⟨#[m, t, e], 2, errs, 0, 0⟩) := by
  have hc0 : State.cur ⟨#[m, t, e], 0, errs, 0, 0⟩ = m := rfl
  have hc1 : State.cur ⟨#[m, t, e], 1, errs, 0, 0⟩ = t := rfl
  have hc2 : State.cur ⟨#[m, t, e], 2, errs, 0, 0⟩ = e := rfl
  rw [expr, exprAbove, exec_bind, unary]
  simp only [exec_bind, exec_peek, hc0, hm]
  simp +decide only [exec_advance_eq (s := ⟨#[m, t, e], 0, errs, 0, 0⟩) (by simp) (by simp [hc0, hm])
    (by simp [hc0, hm]) (by simp [hc0, hm]), hc0, Nat.zero_add, hc1, ht, hadj, hlit, hint,
    beq_self_eq_true, Bool.and_true, if_true]
  rw [exec_bind, exec_advance_eq (by simp) (by simp [hc1, ht]) (by simp [hc1, ht]) (by simp [hc1, ht])]
  have hprev : (#[m, t, e].getD (if 1 + 1 > 0 then 1 + 1 - 1 else 0) default) = t := rfl
  simp only [spanFrom, exec_bind, exec_previous, hprev, exec_pure, Nat.reduceAdd,
    exec_trailers_eof (s := ⟨#[m, t, e], 2, errs, 0, 0⟩) (by rw [hc2, he]),
    exec_infixLoop_eof (s := ⟨#[m, t, e], 2, errs, 0, 0⟩) (by rw [hc2, he])]
  rfl


/-- A minus sign before an invalid literal is not folded: it negates the literal. -/
theorem exec_expr_negated_invalid {n : Nat} {m t e : Token} {errs : Array Diagnostic}
    (hm : m.kind = .minus) (ht : t.kind = .invalid) (he : e.kind = .eof) :
    exec (expr (n + 5)) ⟨#[m, t, e], 0, errs, 0, 0⟩ =
      (.ok (.mk (.unary .neg (.mk (.literal t) t.span)) (Span.merge m.span t.span)),
        ⟨#[m, t, e], 2, errs, 0, 0⟩) := by
  have hc0 : State.cur ⟨#[m, t, e], 0, errs, 0, 0⟩ = m := rfl
  have hc1 : State.cur ⟨#[m, t, e], 1, errs, 0, 0⟩ = t := rfl
  have hc2 : State.cur ⟨#[m, t, e], 2, errs, 0, 0⟩ = e := rfl
  rw [expr, exprAbove, exec_bind, unary]
  simp only [exec_bind, exec_peek, hc0, hm]
  simp +decide only [exec_advance_eq (s := ⟨#[m, t, e], 0, errs, 0, 0⟩) (by simp) (by simp [hc0, hm])
    (by simp [hc0, hm]) (by simp [hc0, hm]), hc0, Nat.zero_add, hc1, ht,
    show (TokenKind.invalid == TokenKind.intLit) = false by decide,
    show (TokenKind.invalid == TokenKind.floatLit) = false by decide, Bool.false_or, Bool.false_and,
    Bool.and_false, Bool.false_eq_true, if_false]
  rw [exec_bind, exec_unary_literal (s := ⟨#[m, t, e], 1, errs, 0, 0⟩) (.inr (hc1.symm ▸ ht)) (by simp)
    (by rw [← he]; rfl)]
  have hprev : (#[m, t, e].getD (if 1 + 1 > 0 then 1 + 1 - 1 else 0) default) = t := rfl
  simp only [hc1, spanFrom, exec_bind, exec_previous, hprev, exec_pure, Nat.reduceAdd]
  exact exec_infixLoop_eof (s := ⟨#[m, t, e], 2, errs, 0, 0⟩) (by rw [hc2, he])

/-! ### Whole streams -/

/-- A stream with no invalid token that already ends in end of file is taken as it is. -/
theorem init_valid {ts : Array Token} (hvalid : ∀ t ∈ ts, t.kind ≠ .invalid) {e : Token}
    (hlast : ts.back? = some e) (he : e.kind = .eof) : State.init ts = ⟨ts, 0, #[], 0, 0⟩ := by
  have hkeep : ts.filter (fun t => t.kind != .invalid || literalLike t) = ts :=
    Array.filter_eq_self.2 fun t ht => by simp [TokenKind.bne_eq_true.2 (hvalid t ht)]
  have hnone : ts.toList.filterMap
      (fun t => if t.kind == .invalid then invalidTokenError t else none) = [] :=
    List.filterMap_eq_nil_iff.2 fun t ht => by
      simp [TokenKind.beq_eq_false.2 (hvalid t (Array.mem_toList_iff.1 ht))]
  simp only [State.init, hkeep, hnone, hlast, he]
  rfl

/-- A stream whose middle token is an invalid literal-like token keeps it and reports it once. -/
theorem init_invalid_literal {m t e : Token} (hm : m.kind ≠ .invalid) (ht : t.kind = .invalid)
    (hlike : literalLike t = true) (he : e.kind = .eof) {d : Diagnostic}
    (hd : invalidTokenError t = some d) : State.init #[m, t, e] = ⟨#[m, t, e], 0, #[d], 0, 0⟩ := by
  simp +decide [State.init, TokenKind.beq_eq_false.2 hm,
    TokenKind.bne_eq_true.2 hm, ht, hlike, he, hd]

theorem parseExpr_eq_exec (ts : Array Token) :
    parseExpr ts = ((exec (expr (fuelFor (State.init ts).tokens)) (State.init ts)).1,
      (exec (expr (fuelFor (State.init ts).tokens)) (State.init ts)).2.errors.toList) := rfl

end Parser

/-! ## The text of an integer -/

section Text

variable (name text : String)

theorem ofText_stop : (Lexer.ofSource (Source.ofText name text)).stop = text.toList.length := by
  simp [Lexer.ofSource, Lexer.ofRange, Source.size, Source.ofText]

theorem ofText_peek (i : Nat) :
    (Lexer.ofSource (Source.ofText name text)).peek i = text.toList.getD i '\x00' := by
  rw [Lexer.peek, ofText_stop]
  split
  · simp [Source.byteAt, Lexer.ofSource, Lexer.ofRange, Source.ofText]
  · rename_i h
    simp [List.getD_eq_getElem?_getD, List.getElem?_eq_none (Nat.le_of_not_lt h)]

theorem ofText_slice {a b : Nat} (hab : a < b) (hb : b ≤ text.toList.length) :
    (Lexer.ofSource (Source.ofText name text)).source.slice a b =
      String.ofList ((text.toList.drop a).take (b - a)) := by
  have h1 : ¬text.toList.length ≤ a := by omega
  have h2 : ¬b < a := by omega
  simp [Source.slice, Lexer.ofSource, Lexer.ofRange, Source.size, Source.ofText, h1, h2,
    Nat.min_eq_left hb]

variable {name text} {pre ds : List Char}

/-- A text that ends in a run of digits after `pre` has digits from `pre`'s length to its end. -/
theorem ofText_digitsToEnd (htext : text.toList = pre ++ ds) (hne : ds ≠ [])
    (hdig : ∀ c ∈ ds, c.isDigit) :
    (Lexer.ofSource (Source.ofText name text)).DigitsToEnd pre.length := by
  have hlen : pre.length < text.toList.length := by
    rw [htext, List.length_append]; exact Nat.lt_add_of_pos_right (List.length_pos_of_ne_nil hne)
  refine ⟨by rw [ofText_stop]; exact hlen, fun i hi hlt => ?_⟩
  rw [ofText_stop] at hlt
  have hds : i - pre.length < ds.length := by rw [htext, List.length_append] at hlt; omega
  rw [ofText_peek, List.getD_eq_getElem?_getD, htext, List.getElem?_append_right hi,
    List.getElem?_eq_getElem hds, Option.getD_some]
  exact hdig _ (List.getElem_mem hds)

theorem ofText_slice_suffix (htext : text.toList = pre ++ ds) (hne : ds ≠ []) :
    (Lexer.ofSource (Source.ofText name text)).source.slice pre.length
      (Lexer.ofSource (Source.ofText name text)).stop = String.ofList ds := by
  have hlen : text.toList.length = pre.length + ds.length := by rw [htext, List.length_append]
  rw [ofText_stop, ofText_slice _ _ (by have := List.length_pos_of_ne_nil hne; omega) le_rfl, hlen,
    Nat.add_sub_cancel_left, htext, List.drop_left, List.take_length]

/-- The number read where the final run of digits starts, when the number reader accepts
those digits. -/
theorem ofText_scanNumber_ok {a : Nat} {n : NumberLiteral} (htext : text.toList = pre ++ ds)
    (ha : pre.length = a) (hne : ds ≠ []) (hdig : ∀ c ∈ ds, c.isDigit)
    (hp : NumberLiteral.parse (String.ofList ds) = .ok n) :
    (Lexer.ofSource (Source.ofText name text)).scanNumber a =
      ({ (Lexer.ofSource (Source.ofText name text)).token
          (if n.isIntegral then .intLit else .floatLit) a
          (Lexer.ofSource (Source.ofText name text)).stop with value := .number n },
        (Lexer.ofSource (Source.ofText name text)).stop) := by
  subst ha
  exact Lexer.scanNumber_ok (ofText_digitsToEnd htext hne hdig)
    (by rw [ofText_slice_suffix htext hne]; exact hp)

/-- The number read where the final run of digits starts, when the number reader rejects them. -/
theorem ofText_scanNumber_error {a : Nat} {e : NumberError} (htext : text.toList = pre ++ ds)
    (ha : pre.length = a) (hne : ds ≠ []) (hdig : ∀ c ∈ ds, c.isDigit)
    (hp : NumberLiteral.parse (String.ofList ds) = .error e) :
    (Lexer.ofSource (Source.ofText name text)).scanNumber a =
      ((Lexer.ofSource (Source.ofText name text)).invalid e.message Code.invalidNumber a
        (Lexer.ofSource (Source.ofText name text)).stop,
        (Lexer.ofSource (Source.ofText name text)).stop) := by
  subst ha
  exact Lexer.scanNumber_error (ofText_digitsToEnd htext hne hdig)
    (by rw [ofText_slice_suffix htext hne]; exact hp)

/-- A text of digits is one number token and the end of file. -/
theorem ofText_tokenize_digits (htext : text.toList = ds) (hne : ds ≠ [])
    (hdig : ∀ c ∈ ds, c.isDigit) :
    (Lexer.ofSource (Source.ofText name text)).tokenize.1 =
      #[((Lexer.ofSource (Source.ofText name text)).scanNumber 0).1,
        (Lexer.ofSource (Source.ofText name text)).token .eof
          (Lexer.ofSource (Source.ofText name text)).stop
          (Lexer.ofSource (Source.ofText name text)).stop] := by
  rw [Lexer.tokenize_digits (ofText_digitsToEnd (htext.trans (List.nil_append ds).symm) hne hdig)]
  rfl

/-- A text of a minus sign and digits is the operator, one number token and the end of file. -/
theorem ofText_tokenize_minus (htext : text.toList = ['-'] ++ ds) (hne : ds ≠ [])
    (hdig : ∀ c ∈ ds, c.isDigit) :
    (Lexer.ofSource (Source.ofText name text)).tokenize.1 =
      #[(Lexer.ofSource (Source.ofText name text)).token .minus 0 1,
        ((Lexer.ofSource (Source.ofText name text)).scanNumber 1).1,
        (Lexer.ofSource (Source.ofText name text)).token .eof
          (Lexer.ofSource (Source.ofText name text)).stop
          (Lexer.ofSource (Source.ofText name text)).stop] := by
  have hm : (Lexer.ofSource (Source.ofText name text)).peek
      (Lexer.ofSource (Source.ofText name text)).start = '-' := by
    rw [ofText_peek, htext]; rfl
  rw [Lexer.tokenize_minus hm (ofText_digitsToEnd htext hne hdig)]
  rfl

theorem ofText_slice_minus (htext : text.toList = ['-'] ++ ds) (hne : ds ≠ []) :
    (Lexer.ofSource (Source.ofText name text)).source.slice 0 1 = "-" := by
  have hlen : 1 < text.toList.length := by
    rw [htext, List.length_append]
    exact Nat.lt_add_of_pos_right (List.length_pos_of_ne_nil hne)
  rw [ofText_slice _ _ Nat.one_pos hlen.le, htext]
  rfl

end Text

/-! ## The expression of an integer's text -/

section Expression

variable (name : String) {v : Int}

/-- The decimal text of a non-negative 64-bit integer is one literal of that value. -/
theorem parseExpr_nonneg (h0 : 0 ≤ v) (hhi : v < 2 ^ 63) :
    ∃ tok, Parser.parseExpr (Lexer.ofSource (Source.ofText name (toString v))).tokenize.1 =
      (.ok (.mk (.literal tok) tok.span), []) ∧
      tok.value = .number (NumberLiteral.integer false v) := by
  have hlist : (toString v).toList = Nat.toDigits 10 v.natAbs := by
    rw [toList_toString, if_neg (by omega), List.nil_append]
  have habs : (v.natAbs : Int) = v := Int.natAbs_of_nonneg h0
  rw [ofText_tokenize_digits hlist Nat.toDigits_ne_nil toDigits_ten_isDigit]
  simp only [ofText_scanNumber_ok (a := 0) (hlist.trans (List.nil_append _).symm) rfl
    Nat.toDigits_ne_nil toDigits_ten_isDigit (NumberLiteral.parse_digits (by omega)),
    NumberLiteral.integer_isIntegral, if_true, habs]
  rw [Parser.parseExpr_eq_exec, Parser.init_valid (by simp) rfl rfl,
    show Parser.fuelFor #[_, _] = 316 + 4 from rfl, Parser.exec_expr_literal rfl rfl]
  exact ⟨_, rfl, rfl⟩

/-- The decimal text of a negative 64-bit integer other than the least one folds into one literal
of that value. -/
theorem parseExpr_neg (hlo : -2 ^ 63 < v) (h0 : v < 0) :
    ∃ tok sp, Parser.parseExpr (Lexer.ofSource (Source.ofText name (toString v))).tokenize.1 =
      (.ok (.mk (.literal tok) sp), []) ∧ tok.value = .number (NumberLiteral.integer false v) := by
  have hlist : (toString v).toList = ['-'] ++ Nat.toDigits 10 v.natAbs := by
    rw [toList_toString, if_pos h0]
  have hslice : (Lexer.ofSource (Source.ofText name (toString v))).source.slice 1
      (Lexer.ofSource (Source.ofText name (toString v))).stop =
        String.ofList (Nat.toDigits 10 v.natAbs) :=
    ofText_slice_suffix hlist Nat.toDigits_ne_nil
  -- the folded text is the whole source again, read back by the literal reader
  have hfold : "-" ++ String.ofList (Nat.toDigits 10 v.natAbs) = toString v :=
    calc "-" ++ String.ofList (Nat.toDigits 10 v.natAbs)
        _ = String.ofList (['-'] ++ Nat.toDigits 10 v.natAbs) := by rw [String.ofList_append]
        _ = String.ofList (toString v).toList := by rw [hlist]
        _ = toString v := String.ofList_toList
  rw [ofText_tokenize_minus hlist Nat.toDigits_ne_nil toDigits_ten_isDigit]
  simp only [ofText_scanNumber_ok (a := 1) hlist rfl Nat.toDigits_ne_nil toDigits_ten_isDigit
    (NumberLiteral.parse_digits (by omega)), NumberLiteral.integer_isIntegral, if_true]
  rw [Parser.parseExpr_eq_exec, Parser.init_valid (by simp) rfl rfl,
    show Parser.fuelFor #[_, _, _] = 348 + 4 from rfl,
    Parser.exec_expr_folded rfl rfl rfl (by simp) ?hlit (NumberLiteral.integer_isIntegral false v)]
  · exact ⟨_, _, rfl, rfl⟩
  · simp only [Lexer.lexeme_token, ofText_slice_minus hlist Nat.toDigits_ne_nil, hslice, hfold]
    exact NumberLiteral.parse_toString (by omega) (by omega)

/-- A negative decimal whose digits alone are past the signed 64-bit range does not fold: the
text reads as the negation of an invalid literal, reported as too large. -/
theorem parseExpr_too_large_negation (hv : v ≤ -2 ^ 63) :
    ∃ t sp, Parser.parseExpr (Lexer.ofSource (Source.ofText name (toString v))).tokenize.1 =
      (.ok (.mk (.unary .neg (.mk (.literal t) t.span)) sp),
        [Diagnostic.error .invalidToken Code.invalidNumber "integer literal is too large" t.span]) := by
  have hlist : (toString v).toList = ['-'] ++ Nat.toDigits 10 v.natAbs := by
    rw [toList_toString, if_pos (by omega)]
  have hne : Nat.toDigits 10 v.natAbs ≠ [] := Nat.toDigits_ne_nil
  have hslice : (Lexer.ofSource (Source.ofText name (toString v))).source.slice 1
      (Lexer.ofSource (Source.ofText name (toString v))).stop =
        String.ofList (Nat.toDigits 10 v.natAbs) :=
    ofText_slice_suffix hlist hne
  -- the unsigned digits are past the positive limit, so the number token is invalid
  have htoo : NumberLiteral.parse (String.ofList (Nat.toDigits 10 v.natAbs)) = .error .tooLarge :=
    @NumberLiteral.parse_too_large false (Nat.toDigits 10 v.natAbs) hne toDigits_ten_isDigit
      (by rw [Nat.ofDigitChars_ten_toDigits, if_neg Bool.false_ne_true]; omega)
  -- it still starts with a digit, so the parser keeps it where a literal stands
  have hlike : ∀ {k : String}, Parser.literalLike
      ((Lexer.ofSource (Source.ofText name (toString v))).invalid k Code.invalidNumber 1
        (Lexer.ofSource (Source.ofText name (toString v))).stop) = true := by
    obtain ⟨d, ds, hds⟩ := List.exists_cons_of_ne_nil hne
    have hd : d.isDigit := toDigits_ten_isDigit d (by rw [hds]; exact List.mem_cons_self)
    intro k
    simp only [Parser.literalLike, Lexer.invalid, Lexer.lexeme_token, hslice, String.toList_ofList,
      hds, hd, Bool.or_true]
  rw [ofText_tokenize_minus hlist hne toDigits_ten_isDigit]
  simp only [ofText_scanNumber_error (a := 1) hlist rfl hne toDigits_ten_isDigit htoo]
  rw [Parser.parseExpr_eq_exec, Parser.init_invalid_literal (by simp) rfl hlike rfl rfl,
    show Parser.fuelFor #[_, _, _] = 347 + 5 from rfl, Parser.exec_expr_negated_invalid rfl rfl rfl]
  exact ⟨_, _, rfl⟩

/-- Through the lexer and the expression parser, the decimal text of a 64-bit integer is one
literal of that value exactly when the integer is not the least one. -/
theorem parseExpr_toString_literal (hlo : -2 ^ 63 ≤ v) (hhi : v < 2 ^ 63) :
    (∃ tok sp, Parser.parseExpr (Lexer.ofSource (Source.ofText name (toString v))).tokenize.1 =
      (.ok (.mk (.literal tok) sp), []) ∧ tok.value = .number (NumberLiteral.integer false v)) ↔
      v ≠ -2 ^ 63 := by
  constructor
  · rintro ⟨tok, sp, hparse, -⟩ rfl
    obtain ⟨t, sp', hneg⟩ := parseExpr_too_large_negation name (le_refl (-2 ^ 63 : Int))
    rw [hneg] at hparse
    -- a negation is not a literal, and it comes with an error
    simp at hparse
  · intro hne
    rcases Int.lt_or_le v 0 with h0 | h0
    · exact parseExpr_neg name (lt_of_le_of_ne hlo (Ne.symm hne)) h0
    · obtain ⟨tok, hparse, hval⟩ := parseExpr_nonneg name h0 hhi
      exact ⟨tok, tok.span, hparse, hval⟩

end Expression

/-- Decimal literals read back what printed them. The decimal text of a 64-bit integer, with
`_` separators after its first digit and an optional `L` suffix, is read as that integer: an `Int`
exactly when it has no suffix and fits 32 bits, a `Long` otherwise. Digits past `2^63 - 1`, or
past `2^63` after a minus sign, are rejected as too large. Through the lexer and the expression
parser the text of the integer is one literal of its value unless it is the least one, whose
digits alone are out of range, so that its text is the negation of an invalid literal. -/
theorem decimal_literal_round_trip (name : String) (v : Int) (hlo : -2 ^ 63 ≤ v)
    (hhi : v < 2 ^ 63) :
    NumberLiteral.parse (toString v) = .ok (NumberLiteral.integer false v) ∧
    (∀ u sfx : List Char, u.filter (· ≠ '_') = Nat.toDigits 10 v.natAbs →
      u.head? = (Nat.toDigits 10 v.natAbs).head? → NumberLiteral.LongSuffix sfx →
      NumberLiteral.parse (String.ofList ((if v < 0 then ['-'] else []) ++ u ++ sfx)) =
        .ok (NumberLiteral.integer (!sfx.isEmpty) v)) ∧
    (∀ (neg : Bool) (ds : List Char), ds ≠ [] → (∀ c ∈ ds, c.isDigit) →
      2 ^ 63 - 1 + (if neg then 1 else 0) < Nat.ofDigitChars 10 ds 0 →
      NumberLiteral.parse (String.ofList ((if neg then ['-'] else []) ++ ds)) = .error .tooLarge ∧
        NumberError.tooLarge.message = "integer literal is too large") ∧
    ((∃ tok sp, Parser.parseExpr (Lexer.ofSource (Source.ofText name (toString v))).tokenize.1 =
        (.ok (.mk (.literal tok) sp), []) ∧ tok.value = .number (NumberLiteral.integer false v)) ↔
      v ≠ -2 ^ 63) ∧
    (v = -2 ^ 63 →
      ∃ t sp, Parser.parseExpr (Lexer.ofSource (Source.ofText name (toString v))).tokenize.1 =
        (.ok (.mk (.unary .neg (.mk (.literal t) t.span)) sp),
          [Diagnostic.error .invalidToken Code.invalidNumber "integer literal is too large" t.span])) :=
  ⟨NumberLiteral.parse_toString hlo hhi,
    fun _ _ hfilter hhead hsfx => NumberLiteral.parse_separated hlo hhi hfilter hhead hsfx,
    fun _ _ hne hdig hbig => ⟨NumberLiteral.parse_too_large hne hdig hbig, rfl⟩,
    parseExpr_toString_literal name hlo hhi,
    fun hv => parseExpr_too_large_negation name hv.le⟩

/-- `-2_147_483_648L` is the `Long` `-2^31`, `9223372036854775808` is too large, and the text
of the least 64-bit integer is the negation of an invalid literal, not one literal. -/
theorem least_long_text_negates :
    NumberLiteral.parse (String.ofList ((if (-2147483648 : Int) < 0 then ['-'] else []) ++
        "2_147_483_648".toList ++ ['L'])) =
      .ok (NumberLiteral.integer (!List.isEmpty ['L']) (-2147483648)) ∧
    (NumberLiteral.parse (String.ofList ((if false then ['-'] else []) ++
        "9223372036854775808".toList)) = .error .tooLarge ∧
      NumberError.tooLarge.message = "integer literal is too large") ∧
    ((∃ tok sp, Parser.parseExpr
        (Lexer.ofSource (Source.ofText "e" (toString (-2 ^ 63 : Int)))).tokenize.1 =
          (.ok (.mk (.literal tok) sp), []) ∧
        tok.value = .number (NumberLiteral.integer false (-2 ^ 63))) ↔ (-2 ^ 63 : Int) ≠ -2 ^ 63) ∧
    (∃ t sp, Parser.parseExpr
        (Lexer.ofSource (Source.ofText "e" (toString (-2 ^ 63 : Int)))).tokenize.1 =
      (.ok (.mk (.unary .neg (.mk (.literal t) t.span)) sp),
        [Diagnostic.error .invalidToken Code.invalidNumber "integer literal is too large" t.span])) := by
  have hsmall := decimal_literal_round_trip "e" (-2147483648) (by decide) (by decide)
  have hleast := decimal_literal_round_trip "e" (-2 ^ 63) (by decide) (by decide)
  exact ⟨hsmall.2.1 _ _ (by decide) rfl (.inr (.inl rfl)),
    hsmall.2.2.1 false _ (by simp) (by simp) (by decide), hleast.2.2.2.1, hleast.2.2.2.2 rfl⟩

end AmLang
