import AmLang.Proofs.Syntax.TokenLayout
/-!
# Lexing one token at a time

`nextToken` hands out the tokens of a range one at a time. A scan step that lexes an
interpolated string makes the string's whole run at once: its first token is handed out and
the rest wait in the cursor, to be handed out before anything more is lexed. This module shows
that handing tokens out agrees with lexing the range at once: the first `n` tokens handed out
from the start are the first `n` tokens of `tokenize`, followed by the end of file again and
again; and that after a restart, lexing all that remains gives `tokenize` again, whatever was
handed out before.

Both rest on the stream of a position (`tokensFrom`): the tokens a run lexes from there, then
its end of file. A scan step that moves forward puts its tokens in front of the stream of the
position where it stops (`tokensFrom_forward`). A scan step that gives the end of file does so
at or past the end of the range, where every later scan step gives it again
(`tokensFrom_eof`, `scan_of_stop_le`).

## Main results

* `takeTokens_from` — the tokens handed out from any cursor: its pending tokens, then the
  stream of its position, then the end of file over and over.
* `drain_from` — with a call for each, draining a cursor hands out its pending tokens and then
  the stream of its position.
* `lazy_lexing_agrees` — lazy lexing agrees with `tokenize`, and a restart lexes the same tokens.
-/

namespace AmLang

namespace Laid

variable {src : Source}

/-- Laid tokens cover a byte each, so there are no more of them than bytes in their range. -/
theorem length_le {lo hi : Nat} {ts : List Token} (h : Laid src lo hi ts) :
    ts.length ≤ hi - lo := by
  induction h with
  | nil => exact Nat.zero_le _
  | cons hla hover hrest ih =>
    have := hover.lt
    have := hrest.le
    simp only [List.length_cons]
    omega

end Laid

/-- The derived test for the end of file fails on every other kind. -/
theorem TokenKind.beq_eof_of_ne {k : TokenKind} (h : k ≠ .eof) : (k == .eof) = false := by
  cases hk : k == .eof
  · rfl
  · exact absurd (TokenKind.eq_eof_of_beq hk) h

namespace Lexer

variable {l : Lexer}

/-! ## Scan steps -/

theorem skipTrivia_of_stop_le {pos : Nat} (h : l.stop ≤ pos) : l.skipTrivia pos = .inl pos := by
  rw [skipTrivia]
  simp [Nat.not_lt.2 h]

/-- At or past the end of the range a scan step is the end of file, where it stands. -/
theorem scan_of_stop_le {pos : Nat} (h : l.stop ≤ pos) :
    l.scan pos = single (l.token .eof pos pos) pos := by
  rw [scan, skipTrivia_of_stop_le h]
  simp [Nat.not_lt.2 h]

/-- A scan step gives the end of file only at or past the end of the range, and there it gives
it where the step stops. -/
theorem scan_eof {pos : Nat} {t : Token} (h : (l.scan pos).tokens = [t]) (ht : t.kind = .eof) :
    l.stop ≤ (l.scan pos).next ∧ t = l.token .eof (l.scan pos).next (l.scan pos).next := by
  rcases ha : l.skipTrivia pos with a | bad
  · by_cases hlt : a < l.stop
    · -- a token read inside the range is never the end of file
      obtain ⟨_, _, _, _, hover⟩ := (scan_forward l ha hlt).laid.over_of_mem (h ▸ List.mem_singleton_self t)
      exact absurd ht hover.kind
    · have hscan : l.scan pos = single (l.token .eof a a) a := by
        rw [scan, ha]
        simp [hlt]
      rw [hscan] at h ⊢
      simp only [single_tokens, List.cons.injEq, and_true] at h
      exact ⟨Nat.not_lt.1 hlt, h.symm⟩
  · -- an unterminated block comment is an invalid token
    have hscan : l.scan pos = single bad l.stop := by rw [scan, ha]
    obtain ⟨_, _, _, _, hover⟩ := (skipTrivia_inr ha).over_of_mem (List.mem_singleton_self bad)
    rw [hscan, single_tokens, List.cons.injEq] at h
    exact absurd (h.1 ▸ ht) hover.kind

/-- The rest of a string always gives a token: the string, its run, or an invalid token. -/
theorem scanString_ne_nil (a : Nat) : ∀ pos st, (l.scanString a pos st).tokens ≠ [] := by
  intro pos st
  -- each recursive call reads on from a later position, so the induction is on the bytes left
  induction hn : l.stop - pos using Nat.strong_induction_on generalizing pos st with
  | _ n ih =>
  rw [scanString]
  split
  case isFalse => simp
  rename_i hpos
  have step : ∀ {p : Nat} (st' : StringState), pos < p → (l.scanString a p st').tokens ≠ [] :=
    fun st' hp => ih _ (by omega) _ st' rfl
  dsimp only
  split
  · simp
  split
  · unfold finishString
    split
    · simp
    split <;> simp
  split
  · exact step _ (Nat.lt_of_lt_of_le (Nat.lt_succ_self pos) (Nat.le_max_right _ _))
  split
  · split
    · split
      · exact step _ (Nat.lt_of_lt_of_le (Nat.lt_succ_self pos) (Nat.le_max_right _ _))
      · simp [unbalanced]
    · simp [unbalanced]
  split
  · exact step _ (Nat.lt_of_lt_of_le (Nat.lt_succ_self pos) (Nat.le_max_right _ _))
  · exact step _ (Nat.lt_succ_self pos)

/-- Every scan step gives at least one token. -/
theorem scan_ne_nil (pos : Nat) : (l.scan pos).tokens ≠ [] := by
  rw [scan]
  split
  · simp
  dsimp only
  split
  · split
    · simp
    split
    · simp
    split
    · exact scanString_ne_nil _ _ _
    split
    · simp
    split <;> simp
  · simp

/-! ## The stream of a position -/

/-- Where the end of file of a run from `pos` stands. -/
def eofFrom (l : Lexer) (pos : Nat) : Nat := (l.scanRun pos (l.stop - pos + 1)).eofAt

/-- The tokens of the range from `pos` on: those a run lexes from there, then its end of file. -/
def tokensFrom (l : Lexer) (pos : Nat) : List Token :=
  (l.scanRun pos (l.stop - pos + 1)).tokens.toList ++
    [l.token .eof (l.eofFrom pos) (l.eofFrom pos)]

theorem tokenize_eq_tokensFrom (l : Lexer) : l.tokenize.1.toList = l.tokensFrom l.start := by
  simp [tokenize, tokensFrom, eofFrom]

/-- One step of a run that moves forward: its tokens, then the rest of the run. -/
theorem scanRun_forward {pos fuel : Nat} (hfw : l.Forward pos (l.scan pos)) :
    (l.scanRun pos (fuel + 1)).tokens.toList =
        (l.scan pos).tokens ++ (l.scanRun (l.scan pos).next fuel).tokens.toList ∧
      (l.scanRun pos (fuel + 1)).eofAt = (l.scanRun (l.scan pos).next fuel).eofAt := by
  rw [scanRun]
  dsimp only
  split
  · rename_i t ht
    -- a single token of a forward step is not the end of file, so the run goes on
    obtain ⟨_, _, _, _, hover⟩ := hfw.laid.over_of_mem (ht ▸ List.mem_singleton_self t)
    simp [TokenKind.beq_eof_of_ne hover.kind, ht]
  · simp

/-- A scan step that moves forward puts its tokens in front of the stream of where it stops. -/
theorem tokensFrom_forward {pos : Nat} (hfw : l.Forward pos (l.scan pos)) :
    l.tokensFrom pos = (l.scan pos).tokens ++ l.tokensFrom (l.scan pos).next ∧
      l.eofFrom pos = l.eofFrom (l.scan pos).next := by
  have hlt := hfw.lt
  have hle := hfw.le
  -- the budget left after the step covers the bytes after it
  have hfuel : l.stop - pos = l.stop - (l.scan pos).next + 1 +
      (l.stop - pos - (l.stop - (l.scan pos).next + 1)) := by omega
  have hrest : l.scanRun (l.scan pos).next (l.stop - pos) =
      l.scanRun (l.scan pos).next (l.stop - (l.scan pos).next + 1) := by
    conv_lhs => rw [hfuel]
    exact scanRun_add _
  obtain ⟨htok, heof⟩ := @scanRun_forward l pos (l.stop - pos) hfw
  rw [hrest] at htok heof
  simp only [tokensFrom, eofFrom, htok, heof, List.append_assoc, and_self]

/-- A scan step that gives the end of file is the whole stream. -/
theorem tokensFrom_eof {pos : Nat} {t : Token} (h : (l.scan pos).tokens = [t])
    (ht : t.kind = .eof) :
    l.tokensFrom pos = [t] ∧ l.eofFrom pos = (l.scan pos).next := by
  obtain ⟨-, rfl⟩ := scan_eof h ht
  have hrun : l.scanRun pos (l.stop - pos + 1) =
      { made := (l.scan pos).made, eofAt := (l.scan pos).next } := by
    rw [scanRun]
    simp [h]
  simp [tokensFrom, eofFrom, hrun]

/-- At or past the end of the range the stream is the end of file, where it stands. -/
theorem tokensFrom_of_stop_le {pos : Nat} (hpos : l.stop ≤ pos) :
    l.tokensFrom pos = [l.token .eof pos pos] ∧ l.eofFrom pos = pos := by
  have h := @tokensFrom_eof l pos _ (by rw [scan_of_stop_le hpos]; rfl) (kind_token ..)
  rwa [scan_of_stop_le hpos] at h

/-- What a scan step from `pos` does to the stream: it is the end of file, past the end of the
range, and the whole stream; or it moves forward, with at least one token, none of them the end
of file, in front of the stream of where it stops. -/
theorem scan_stream (l : Lexer) (pos : Nat) :
    (l.stop ≤ (l.scan pos).next ∧
        (l.scan pos).tokens = [l.token .eof (l.scan pos).next (l.scan pos).next] ∧
        l.tokensFrom pos = (l.scan pos).tokens ∧ l.eofFrom pos = (l.scan pos).next) ∨
      (∃ t rest, (l.scan pos).tokens = t :: rest ∧ (∀ u ∈ t :: rest, u.kind ≠ .eof) ∧
        l.tokensFrom pos = t :: rest ++ l.tokensFrom (l.scan pos).next ∧
        l.eofFrom pos = l.eofFrom (l.scan pos).next) := by
  rcases scan_ok l pos with ⟨htok, -, -⟩ | hfw
  · obtain ⟨hstop, -⟩ := scan_eof htok (kind_token ..)
    obtain ⟨hfrom, heof⟩ := tokensFrom_eof htok (kind_token ..)
    exact .inl ⟨hstop, htok, hfrom.trans htok.symm, heof⟩
  · obtain ⟨t, rest, htok⟩ := List.exists_cons_of_ne_nil (scan_ne_nil (l := l) pos)
    obtain ⟨hfrom, heof⟩ := tokensFrom_forward hfw
    refine .inr ⟨t, rest, htok, fun u hu => ?_, htok ▸ hfrom, heof⟩
    obtain ⟨_, _, _, _, hover⟩ := hfw.laid.over_of_mem (htok ▸ hu)
    exact hover.kind

/-! ## Handing tokens out -/

theorem nextToken_pending (l : Lexer) (pos : Nat) (t : Token) (rest : List Token) :
    l.nextToken ⟨pos, t :: rest⟩ = (t, ⟨pos, rest⟩, []) := rfl

theorem nextToken_scan {pos : Nat} {t : Token} {rest : List Token}
    (h : (l.scan pos).tokens = t :: rest) :
    l.nextToken ⟨pos, []⟩ = (t, ⟨(l.scan pos).next, rest⟩, (l.scan pos).made) := by
  simp [nextToken, h]

/-- Only the first `n` copies of a padding matter to the first `n` elements. -/
theorem take_append_replicate {α : Type} (xs : List α) (e : α) {m n : Nat} (h : n ≤ m) :
    (xs ++ List.replicate m e).take n = (xs ++ List.replicate n e).take n := by
  rw [List.take_append, List.take_append, List.take_replicate, List.take_replicate,
    Nat.min_eq_left (by omega), Nat.min_eq_left (by omega)]

/-- From any cursor, the tokens handed out are its pending tokens, then the stream of its
position, then the end of file over and over. -/
theorem takeTokens_from (l : Lexer) (n : Nat) :
    ∀ (pos : Nat) (pend : List Token), (l.takeTokens n ⟨pos, pend⟩).1 =
      (pend ++ l.tokensFrom pos ++
        List.replicate n (l.token .eof (l.eofFrom pos) (l.eofFrom pos))).take n := by
  induction n with
  | zero => simp [takeTokens]
  | succ n ih =>
    intro pos pend
    cases pend with
    | cons t rest =>
      -- a pending token is handed out first
      simp only [takeTokens, nextToken_pending, ih, List.cons_append, List.take_succ_cons]
      rw [take_append_replicate _ _ (Nat.le_succ n)]
    | nil =>
      simp only [takeTokens]
      rcases scan_stream l pos with ⟨hstop, htok, hfrom, heof⟩ | ⟨t, rest, htok, -, hfrom, heof⟩
      · -- the end of file, past the end of the range, where it is handed out again and again
        obtain ⟨hfrom', heof'⟩ := tokensFrom_of_stop_le hstop
        rw [nextToken_scan htok, ih, hfrom', heof', hfrom, heof, htok]
        simp only [List.nil_append, List.singleton_append, ← List.replicate_succ,
          List.take_replicate]
        congr 1
        omega
      · -- a forward step: its first token now, the rest pending
        rw [nextToken_scan htok, ih, hfrom, heof]
        simp only [List.nil_append, List.cons_append, List.take_succ_cons]
        rw [take_append_replicate _ _ (Nat.le_succ n)]

/-! ## Lexing all that remains -/

/-- The stream of a position holds no more tokens than bytes left, and its end of file. -/
theorem length_tokensFrom_le (l : Lexer) (pos : Nat) :
    (l.tokensFrom pos).length ≤ l.stop - pos + 1 := by
  have hcov := scanRun_covers l pos (l.stop - pos + 1)
  have hlen := hcov.laid.length_le
  have heof := hcov.eof_le
  simp only [tokensFrom, List.length_append, List.length_singleton]
  omega

/-- Given a call for each token, draining a cursor whose pending tokens are not the end of file
hands out those tokens and then the stream of its position. -/
theorem drain_from (l : Lexer) (fuel : Nat) :
    ∀ (pos : Nat) (pend : List Token), (∀ t ∈ pend, t.kind ≠ .eof) →
      pend.length + (l.tokensFrom pos).length ≤ fuel →
      (l.drain fuel ⟨pos, pend⟩).1 = pend ++ l.tokensFrom pos := by
  induction fuel with
  | zero =>
    intro pos pend _ hfuel
    have : (l.tokensFrom pos).length ≠ 0 := by simp [tokensFrom]
    omega
  | succ fuel ih =>
    intro pos pend hpend hfuel
    cases pend with
    | cons t rest =>
      -- a pending token is not the end of file, so draining goes on
      have hk := TokenKind.beq_eof_of_ne (hpend t List.mem_cons_self)
      simp only [drain, nextToken_pending, hk, Bool.false_eq_true, if_false, List.cons_append]
      rw [ih pos rest (fun u hu => hpend u (List.mem_cons_of_mem t hu))
        (by simp only [List.length_cons] at hfuel; omega)]
    | nil =>
      rcases scan_stream l pos with ⟨-, htok, hfrom, -⟩ | ⟨t, rest, htok, hkinds, hfrom, -⟩
      · -- the end of file ends the draining
        simp [drain, nextToken_scan htok, hfrom, htok]
      · -- a forward step: its first token now, the rest pending
        have hk := TokenKind.beq_eof_of_ne (hkinds t List.mem_cons_self)
        have hfuel' : rest.length + (l.tokensFrom (l.scan pos).next).length ≤ fuel := by
          rw [hfrom] at hfuel
          simp only [List.length_nil, List.length_append, List.length_cons] at hfuel
          omega
        simp only [drain, nextToken_scan htok, hk, Bool.false_eq_true, if_false, List.nil_append]
        rw [ih _ rest (fun u hu => hkinds u (List.mem_cons_of_mem t hu)) hfuel', hfrom,
          List.cons_append]

/-- Lexing all that remains from the start gives the tokens of `tokenize`. -/
theorem remaining_begin (l : Lexer) : (l.remaining l.begin).1 = l.tokenize.1.toList := by
  have hlen := length_tokensFrom_le l l.start
  simp only [remaining, begin, List.length_nil, Nat.zero_add]
  rw [tokenize_eq_tokensFrom, drain_from l _ l.start [] (by simp) (by simpa using hlen),
    List.nil_append]

/-- Handing tokens out one at a time agrees with lexing the range at once. For every number `n`
of calls from the start, the tokens handed out are the first `n` tokens of `tokenize`, then its
closing end of file once for each call past its length; and after those calls and a restart,
lexing all that remains gives exactly the tokens of `tokenize`. -/
theorem lazy_lexing_agrees (l : Lexer) :
    ∃ e, l.tokenize.1.toList.getLast? = some e ∧ e.kind = .eof ∧
      ∀ n, (l.takeTokens n l.begin).1 =
          l.tokenize.1.toList.take n ++ List.replicate (n - l.tokenize.1.size) e ∧
        (l.remaining (l.reset (l.takeTokens n l.begin).2)).1 = l.tokenize.1.toList := by
  refine ⟨l.token .eof (l.eofFrom l.start) (l.eofFrom l.start), ?_, kind_token .., fun n => ⟨?_, ?_⟩⟩
  · simp [tokenize_eq_tokensFrom, tokensFrom]
  · -- the stream from the start, padded with its end of file
    rw [← Array.length_toList, tokenize_eq_tokensFrom]
    have h := takeTokens_from l n l.start []
    rw [List.nil_append, List.take_append, List.take_replicate,
      Nat.min_eq_left (Nat.sub_le _ _)] at h
    exact h
  · -- a restart drops the cursor, pending tokens and all
    exact remaining_begin l

end Lexer

end AmLang
