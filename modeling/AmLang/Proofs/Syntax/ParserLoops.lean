import AmLang.Proofs.Syntax.ParserProgress
import Mathlib.Tactic.SplitIfs
/-!
# The parser's loops end

Every loop of the parser (the declarations of a file or a namespace, the members of a body, the
statements of a block or a switch clause, the clauses of a switch) runs one round per item, and
each round moves past a token or leaves the loop. The loops over declarations never fail, since
a failed declaration is reported and skipped by recovery, and recovery moves on unless it stands
on a `}` that closes the enclosing body.

* `synchronize_run`: recovery never fails, and it moves past the current token unless that is
  the end of file or a `}` at the recovery depth.
* `topLevel_run`: a declaration at file or namespace level never fails and, from any token but
  the end of file and `}`, moves on, whether it parses or is recovered from.
* `loops_yield`: the loops that return one item per round return no more items than the
  tokens they moved past.
* `namespaceMembers_ends`, `moduleDecls_ends`: given a round for every token left, the
  declaration loops succeed and stop only at a `}` or the end of file.
-/

namespace AmLang.Parser

variable {α β γ : Type}

/-! ## Steps that never fail -/

section Run

theorem exec_remaining (s : State) :
    exec remaining s = (.ok (s.tokens.size - s.pos + 1), s) := rfl

theorem exec_report (d : Diagnostic) (s : State) :
    exec (report d) s = (.ok (), { s with errors := s.errors.push d }) := rfl

theorem exec_skipSemis (s : State) :
    exec skipSemis s = (.ok (), { s with pos := s.pos + semisFrom s.tokens s.pos }) := rfl

theorem exec_spanFrom (start : Span) (s : State) :
    exec (spanFrom start) s =
      (.ok (Span.merge start (s.tokens.getD (if s.pos > 0 then s.pos - 1 else 0) default).span), s) :=
  rfl

/-- `advance` never fails. -/
theorem advance_ok (s : State) : ∃ t, exec advance s = (.ok t, (exec advance s).2) := by
  unfold advance
  rw [exec_bind, exec_peek]
  dsimp only
  split
  · exact ⟨_, rfl⟩
  · exact ⟨_, rfl⟩

/-- Directives are read one per token: the list has no more entries than the tokens passed. -/
theorem requirements_run : ∀ fuel s, ∃ reqs s', exec (requirements fuel) s = (.ok reqs, s') ∧
    s'.tokens = s.tokens ∧ s.pos + reqs.length ≤ s'.pos
  | 0, s => ⟨[], s, rfl, rfl, Nat.le_refl _⟩
  | fuel + 1, s => by
    rw [requirements.eq_2, exec_bind, exec_check]
    dsimp only
    split
    · -- a directive, then the semicolons after it
      rename_i hdir
      have hne : s.cur.kind ≠ .eof := by
        rw [TokenKind.beq_eq_true.1 hdir]
        decide
      obtain ⟨t, hadv⟩ := advance_ok s
      have htok1 := (advance_forward s).1
      have hpos1 := exec_advance s hne
      obtain ⟨reqs, s2, hrest, htok2, hpos2⟩ := requirements_run fuel
        { (exec advance s).2 with
          pos := (exec advance s).2.pos + semisFrom (exec advance s).2.tokens (exec advance s).2.pos }
      refine ⟨?req :: reqs, s2, ?run, htok2.trans htok1, ?len⟩
      case run =>
        rw [exec_bind, hadv]
        dsimp only
        rw [exec_bind, exec_skipSemis]
        dsimp only
        rw [exec_bind, hrest]
        rfl
      case len =>
        simp only [List.length_cons] at hpos2 ⊢
        omega
    · exact ⟨[], s, rfl, rfl, Nat.le_refl _⟩

/-- Skipping to a place where a declaration can start never fails. -/
theorem recoverLoop_ok (depth : Int) : ∀ fuel s, (exec (recoverLoop depth fuel) s).1 = .ok ()
  | 0, _ => rfl
  | fuel + 1, s => by
    rw [recoverLoop.eq_2, exec_bind, exec_peek]
    dsimp only
    split
    · rfl
    · rw [exec_bind, exec_get]
      dsimp only
      split
      · split <;> rfl
      · obtain ⟨t, hadv⟩ := advance_ok s
        rw [exec_bind, hadv]
        exact recoverLoop_ok depth fuel _

/-- **Recovery moves on.** It never fails, and it moves past the current token unless that is
the end of file or a `}` closing a body at or outside the recovery depth. -/
theorem synchronize_run (depth : Int) (s : State) :
    exec (synchronize depth) s = (.ok (), (exec (synchronize depth) s).2) ∧
      (s.cur.kind ≠ .eof → ¬(s.cur.kind = .rBrace ∧ s.braceDepth ≤ depth) →
        s.pos < (exec (synchronize depth) s).2.pos) := by
  unfold synchronize
  rw [exec_bind, exec_peek]
  dsimp only
  rw [exec_bind, exec_get]
  dsimp only
  split
  · -- the offending token is passed, then the loop skips on
    rename_i hcond
    have hne : s.cur.kind ≠ .eof := by
      simp only [Bool.and_eq_true] at hcond
      exact TokenKind.bne_eq_true.1 hcond.1
    obtain ⟨t, hadv⟩ := advance_ok s
    have hpos1 := exec_advance s hne
    rw [exec_bind, hadv]
    dsimp only
    rw [exec_bind, exec_remaining]
    dsimp only
    refine ⟨Prod.ext (recoverLoop_ok depth _ _) rfl, fun _ _ => ?_⟩
    have hloop := (recoverLoop_forward depth
      ((exec advance s).2.tokens.size - (exec advance s).2.pos + 1) (exec advance s).2).2
    omega
  · -- the token stays only where the condition fails
    rename_i hcond
    rw [exec_bind, exec_remaining]
    refine ⟨Prod.ext (recoverLoop_ok depth _ _) rfl, fun hne hrb => absurd ?_ hcond⟩
    simp only [Bool.and_eq_true, Bool.not_eq_true', Bool.and_eq_false_iff,
      TokenKind.bne_eq_true, TokenKind.beq_eq_false, decide_eq_false_iff_not]
    refine ⟨hne, ?_⟩
    by_cases hk : s.cur.kind = .rBrace
    · exact .inr fun hd => hrb ⟨hk, hd⟩
    · exact .inl hk

end Run

/-! ## A declaration at file or namespace level -/

/-- The current token depends on the tokens and the cursor only. -/
theorem State.cur_congr {s t : State} (htok : s.tokens = t.tokens) (hpos : s.pos = t.pos) :
    s.cur = t.cur := by
  unfold State.cur
  rw [htok, hpos]

/-- A token seen to be of a kind other than the end of file is not the end of file. -/
theorem notAtEnd_of_kind {t : Token} {k : TokenKind} (h : t.kind = k) (hk : k ≠ .eof) :
    ∀ u, Anywhere u ∧ u = t → NotAtEnd u := by
  rintro u ⟨-, rfl⟩
  rw [NotAtEnd, h]
  exact hk

/-- A failed declaration that ended at `s2`, no further back than `s` on the same tokens, is
reported and recovered from; the parser then stands past the token of `s`, unless that is the
end of file or a `}`. -/
theorem recovery_run (depth : Int) (e : Diagnostic) {s s2 : State} (htok : s2.tokens = s.tokens)
    (hpos : s.pos ≤ s2.pos) :
    ∃ s', exec (do report e; synchronize depth; pure none : P (Option Decl)) s2 = (.ok none, s') ∧
      s'.tokens = s.tokens ∧ s.pos ≤ s'.pos ∧
      (s.cur.kind ≠ .eof → s.cur.kind ≠ .rBrace → s.pos < s'.pos) := by
  rw [exec_bind, exec_report]
  dsimp only
  let s3 : State := { s2 with errors := s2.errors.push e }
  obtain ⟨hsync, hmove⟩ := synchronize_run depth s3
  obtain ⟨htok3, hpos3⟩ := synchronize_forward depth s3
  rw [exec_bind, hsync]
  refine ⟨_, rfl, htok3.trans htok, Nat.le_trans hpos hpos3, fun hne hrb => ?_⟩
  rcases Nat.lt_or_eq_of_le hpos with hlt | heq
  · exact Nat.lt_of_lt_of_le hlt hpos3
  · -- the declaration failed where it started: recovery stands on the same token
    have hcur : s3.cur = s.cur := State.cur_congr htok heq.symm
    rw [← hcur] at hne hrb
    have := hmove hne fun h => hrb h.1
    rw [heq]
    exact this

/-- **A declaration never fails, and moves on.** `topLevel` reads the directives, tries a
declaration and, when that fails, reports it and recovers. Either way it keeps the tokens, never
moves back, and from any token but the end of file and `}` it ends past that token. -/
theorem topLevel_run (n : Nat) (s : State) :
    ∃ d s', exec (topLevel (n + 1)) s = (.ok d, s') ∧ s'.tokens = s.tokens ∧ s.pos ≤ s'.pos ∧
      (s.cur.kind ≠ .eof → s.cur.kind ≠ .rBrace → s.pos < s'.pos) := by
  have fw := grammar_forward n
  have cs := grammar_consumes n
  rw [topLevel.eq_2]
  simp only [exec_bind, exec_get, exec_remaining]
  -- the declaration tried once the directives are read, chosen by the keyword that starts it
  generalize hA : (Except.ok <$> (_ : P Decl) : P (Except Diagnostic Decl)) = attempt
  have hfA : Forward attempt := by
    subst hA
    refine Forward.map (Forward.bind peek_forward fun t => ?_)
    split <;> first
      | with_reducible exact fw.namespaceDecl
      | with_reducible exact fw.importDecl
      | with_reducible exact fw.classDecl _
      | with_reducible exact fw.interfaceDecl
      | with_reducible exact fw.member _
      | with_reducible exact fw.fieldDecl _
      | with_reducible exact fail_forward _
      | refine (checkNext_forward _).bind fun _ => Forward.ite ?_ (fw.member _)
        exact advance_forward.bind fun _ => fw.classDecl _
  have hcA : Consumes Anywhere attempt := by
    subst hA
    refine Consumes.map (Consumes.peek_bind fun t => ?_)
    split <;> first
      | with_reducible exact Consumes.mono (notAtEnd_of_kind ‹_› (by decide)) cs.namespaceDecl
      | with_reducible exact Consumes.mono (notAtEnd_of_kind ‹_› (by decide)) cs.importDecl
      | with_reducible exact Consumes.mono (notAtEnd_of_kind ‹_› (by decide)) (cs.classDecl _)
      | with_reducible exact Consumes.mono (notAtEnd_of_kind ‹_› (by decide)) cs.interfaceDecl
      | with_reducible exact Consumes.mono (notAtEnd_of_kind ‹_› (by decide)) (cs.fieldDecl _)
      | with_reducible exact Consumes.mono (Anywhere.of _) (cs.member _)
      | with_reducible exact Consumes.fail _
      | -- `abstract` starts a class when `class` follows, and a member otherwise
        refine Consumes.read_bind (checkNext_reads _) fun _ => ?_
        split
        · exact Consumes.bind_left (Consumes.mono (notAtEnd_of_kind ‹_› (by decide))
            advance_consumes) fun _ => fw.classDecl _
        · exact Consumes.mono (Anywhere.of _) (cs.member _)
  clear hA
  obtain ⟨reqs, s1, hreq, htok1, hpos1⟩ := requirements_run (s.tokens.size - s.pos + 1) s
  rw [hreq]
  simp only [exec_atEnd, exec_check]
  split
  · -- directives with nothing after them to gate: reported, and the directives are passed
    rename_i hdangling
    have hlen : 0 < reqs.length := by
      cases reqs with
      | nil => simp at hdangling
      | cons _ _ => simp
    simp only [exec_bind, exec_report, exec_pure]
    refine ⟨none, _, rfl, htok1, ?_, fun _ _ => ?_⟩ <;> dsimp only <;> omega
  · simp only [exec_bind, exec_peek, exec_tryCatch]
    obtain ⟨htokA, hposA⟩ := hfA s1
    rcases hr : exec attempt s1 with ⟨e | (e | d), s2⟩ <;> rw [hr] at htokA hposA <;>
      dsimp only at htokA hposA ⊢
    · -- the declaration failed: it is reported and recovery moves on
      rw [exec_pure]
      obtain ⟨s', hrun, hfacts⟩ := recovery_run s.braceDepth e (htokA.trans htok1)
        (by omega : s.pos ≤ s2.pos)
      exact ⟨none, s', hrun, hfacts⟩
    · obtain ⟨s', hrun, hfacts⟩ := recovery_run s.braceDepth e (htokA.trans htok1)
        (by omega : s.pos ≤ s2.pos)
      exact ⟨none, s', hrun, hfacts⟩
    · -- the declaration parsed: it moved past its first token, and the rest never moves back
      have hmove := hcA s1 trivial _ s2 hr
      rw [exec_bind, exec_spanFrom]
      dsimp only
      -- with or without directives, the declaration ends with the semicolons after it
      split_ifs <;> simp only [exec_bind, exec_pure, exec_skipSemis, exec_report] <;>
        exact ⟨_, _, rfl, htokA.trans htok1, by dsimp only; omega, fun _ _ => by dsimp only; omega⟩

/-! ## Loops that return one item per round -/

/-- On success, `p` returns at most `k` more items than the tokens it moved past. -/
def Yields (k : Nat) (p : P (List γ)) : Prop :=
  ∀ s xs s', exec p s = (.ok xs, s') → s.pos + xs.length ≤ s'.pos + k

namespace Yields

variable {k : Nat} {p : P α} {f : α → P (List γ)}

theorem nil : Yields k (pure [] : P (List γ)) := by
  intro s xs s' h
  cases h
  simp

theorem throw (e : Diagnostic) : Yields k (MonadExcept.throw e : P (List γ)) := by
  intro s xs s' h
  cases h

/-- A step that never moves back keeps the bound of what follows. -/
theorem forward_bind (hp : Forward p) (hf : ∀ a, Yields k (f a)) : Yields k (p >>= f) := by
  intro s xs s' h
  obtain ⟨-, hpos⟩ := hp s
  rw [exec_bind] at h
  rcases hr : exec p s with ⟨e | a, s1⟩ <;> rw [hr] at h hpos <;> dsimp only at h hpos
  · cases h
  · have := hf a s1 xs s' h
    omega

/-- A step that moves past a token pays for one item of what follows. -/
theorem consumes_bind (hp : Consumes Anywhere p) (hf : ∀ a, Yields (k + 1) (f a)) :
    Yields k (p >>= f) := by
  intro s xs s' h
  rw [exec_bind] at h
  rcases hr : exec p s with ⟨e | a, s1⟩ <;> rw [hr] at h <;> dsimp only at h
  · cases h
  · have hmove := hp s trivial a s1 hr
    have := hf a s1 xs s' h
    omega

/-- The token `expect` moves past pays for one item of what follows. -/
theorem expect_bind {kind : TokenKind} {what : String} {f : Token → P (List γ)}
    (hk : kind ≠ .eof) (hf : ∀ t, Yields (k + 1) (f t)) : Yields k (expect kind what >>= f) :=
  consumes_bind (expect_consumes hk) hf

/-- One item before the rest of the loop. -/
theorem cons {q : P (List γ)} (hq : Yields k q) (x : γ) :
    Yields (k + 1) (q >>= fun xs => pure (x :: xs)) := by
  intro s xs s' h
  rw [exec_bind] at h
  rcases hr : exec q s with ⟨e | ys, s1⟩ <;> rw [hr] at h <;> dsimp only at h
  · cases h
  · cases h
    have := hq s ys s' hr
    simp only [List.length_cons]
    omega

end Yields

/-- The loops that return one item per round: the members of a body, the statements of a
block, the statements of a switch clause and the clauses of a switch. -/
structure LoopsYield (n : Nat) : Prop where
  members : ∀ (b : Bool), Yields 0 (Parser.members n b)
  stmtsUntilBrace : Yields 0 (Parser.stmtsUntilBrace n)
  clauseBody : Yields 0 (Parser.clauseBody n)
  clauses : ∀ (b : Bool), Yields 0 (Parser.clauses n b)

/-- **Each round of these loops moves past a token.** On success a loop returns no more items
than the tokens it moved past: a round passes a member or statement, which consumes a token
(`grammar_consumes`), or the `:` of a switch label. The induction is on the fuel. -/
theorem loops_yield : ∀ n, LoopsYield n
  | 0 => by
    constructor <;> intros <;>
      simp only [members.eq_1, stmtsUntilBrace.eq_1, clauseBody.eq_1, clauses.eq_1] <;>
      exact fun _ _ _ h => by cases h
  | n + 1 => by
    have ih := loops_yield n
    have fw := grammar_forward n
    have cs := grammar_consumes n
    constructor <;> intros <;>
      simp only [members.eq_2, stmtsUntilBrace.eq_2, clauseBody.eq_2, clauses.eq_2] <;>
    repeat' first
      -- the step that pays for the round's item, and the rest of the loop after it
      | with_reducible refine Yields.consumes_bind (cs.member _) fun _ => ?_
      | with_reducible refine Yields.consumes_bind cs.stmt fun _ => ?_
      | with_reducible refine Yields.expect_bind (by decide) fun _ => ?_
      | with_reducible exact Yields.cons (ih.members _) _
      | with_reducible exact Yields.cons ih.stmtsUntilBrace _
      | with_reducible exact Yields.cons ih.clauseBody _
      | with_reducible exact Yields.cons (ih.clauses _) _
      | with_reducible exact Yields.nil
      | with_reducible exact Yields.throw _
      -- the steps that never move back
      | with_reducible refine Yields.forward_bind ?_ fun _ => ?_
      | with_reducible refine Forward.bind ?_ fun _ => ?_
      | with_reducible refine Forward.ite ?_ ?_
      | with_reducible exact Forward.pure _
      | with_reducible exact check_forward _
      | with_reducible exact atEnd_forward
      | with_reducible exact peek_forward
      | with_reducible exact accept_forward _
      | with_reducible exact skipSemis_forward
      | with_reducible exact remaining_forward
      | with_reducible exact spanFrom_forward _
      | with_reducible exact report_forward _
      | with_reducible exact fail_forward _
      | with_reducible exact requirements_forward _
      | with_reducible exact fw.exprList
      | with_reducible exact fw.clauseBody
      | split

/-! ## The loops over declarations -/

/-- The token stream ends with the end-of-file token, as `State.init` leaves it. -/
def EndsWithEof (tokens : Array Token) : Prop := ∃ t, tokens.back? = some t ∧ t.kind = .eof

/-- At or past the last token, the current token is the end of file. -/
theorem State.cur_eof {s : State} (hend : EndsWithEof s.tokens)
    (hpos : s.tokens.size ≤ s.pos + 1) : s.cur.kind = .eof := by
  obtain ⟨t, hback, hk⟩ := hend
  rw [Array.back?_eq_getElem?] at hback
  have hsize : 0 < s.tokens.size := by
    rcases Nat.eq_zero_or_pos s.tokens.size with h | h
    · simp [h] at hback
    · exact h
  unfold State.cur
  rw [Nat.min_eq_right (by omega), Array.getD_eq_getD_getElem?, hback, Option.getD_some]
  exact hk

/-- Before the end of file, the cursor stands before the last token. -/
theorem State.pos_lt_of_ne_eof {s : State} (hend : EndsWithEof s.tokens)
    (hk : s.cur.kind ≠ .eof) : s.pos + 1 < s.tokens.size :=
  Nat.lt_of_not_le fun h => hk (State.cur_eof hend h)

/-- Skipping semicolons moves past the current token exactly when it is a semicolon. -/
theorem semisFrom_cur {s : State} (hlt : s.pos < s.tokens.size) :
    (s.cur.kind = .semi → 0 < semisFrom s.tokens s.pos) ∧
      (s.cur.kind ≠ .semi → semisFrom s.tokens s.pos = 0) := by
  have hcur : s.cur = s.tokens.getD s.pos default := by
    unfold State.cur
    rw [Nat.min_eq_left (by omega)]
  rw [hcur, semisFrom.eq_1, if_pos hlt]
  constructor
  · intro hk
    rw [if_pos (TokenKind.beq_eq_true.2 hk)]
    omega
  · intro hk
    rw [if_neg (by rw [TokenKind.beq_eq_true]; exact hk)]

/-- **The declarations of a namespace.** Given a round for every token left, the loop succeeds
and stops only at a `}` or the end of file: each round passes semicolons or a declaration, and
`topLevel` moves past any token but those two. -/
theorem namespaceMembers_ends : ∀ n s, EndsWithEof s.tokens → s.tokens.size ≤ s.pos + n →
    ∃ ds s', exec (namespaceMembers (n + 1)) s = (.ok ds, s') ∧ s'.tokens = s.tokens ∧
      (s'.cur.kind = .rBrace ∨ s'.cur.kind = .eof)
  | n, s, hend, hfuel => by
    rw [namespaceMembers.eq_2, exec_bind, exec_check]
    dsimp only
    rw [exec_bind, exec_atEnd]
    dsimp only
    split
    · -- the loop stops at `}` or the end of file
      rename_i hstop
      refine ⟨[], s, rfl, rfl, ?_⟩
      simpa only [Bool.or_eq_true, TokenKind.beq_eq_true] using hstop
    · rename_i hgo
      simp only [Bool.or_eq_true, TokenKind.beq_eq_true, not_or] at hgo
      obtain ⟨hrb, hne⟩ := hgo
      have hlt := State.pos_lt_of_ne_eof hend hne
      rw [exec_bind, exec_skipSemis]
      dsimp only
      rw [exec_bind, exec_check]
      dsimp only
      split
      · exact ⟨[], _, rfl, rfl, .inl (TokenKind.beq_eq_true.1 ‹_›)⟩
      · cases n with
        | zero => exact absurd hlt (by omega)
        | succ m =>
          -- the round's declaration starts after the semicolons
          generalize hsa : ({ s with pos := s.pos + semisFrom s.tokens s.pos } : State) = sa
          have hsapos : sa.pos = s.pos + semisFrom s.tokens s.pos := by rw [← hsa]
          obtain ⟨d, s1, htop, htok1, hpos1, hmove1⟩ := topLevel_run m sa
          have hprog : s.pos < s1.pos := by
            by_cases hsemi : s.cur.kind = .semi
            · have := (semisFrom_cur (by omega)).1 hsemi
              omega
            · have h0 := (semisFrom_cur (by omega)).2 hsemi
              have hcur : sa.cur = s.cur := State.cur_congr (by rw [← hsa]) (by omega)
              have := hmove1 (hcur ▸ hne) (hcur ▸ hrb)
              omega
          have hsize : s1.tokens.size = s.tokens.size := by rw [htok1, ← hsa]
          have hend1 : EndsWithEof s1.tokens := by rw [htok1, ← hsa]; exact hend
          obtain ⟨ds, s', hrest, htok', hends⟩ := namespaceMembers_ends m s1 hend1 (by omega)
          rw [exec_bind, htop]
          dsimp only
          rw [exec_bind, hrest]
          refine ⟨_, s', rfl, ?_, hends⟩
          rw [htok', htok1, ← hsa]

/-- **The declarations of a file.** Given a round for every token left, the loop succeeds and
reads the whole stream: it stops only at the end of file. A stray `}` is reported and passed,
and every other round is a declaration, which moves on (`topLevel_run`). -/
theorem moduleDecls_ends : ∀ n s, EndsWithEof s.tokens → s.tokens.size ≤ s.pos + n + 1 →
    ∃ ds s', exec (moduleDecls n) s = (.ok ds, s') ∧ s'.tokens = s.tokens ∧ s'.cur.kind = .eof
  | 0, s, hend, hfuel => ⟨[], s, rfl, rfl, State.cur_eof hend (by omega)⟩
  | n + 1, s, hend, hfuel => by
    rw [moduleDecls.eq_2, exec_bind, exec_skipSemis]
    dsimp only
    -- the round starts after the semicolons
    generalize hsa : ({ s with pos := s.pos + semisFrom s.tokens s.pos } : State) = sa
    have hsapos : s.pos ≤ sa.pos := by rw [← hsa]; exact Nat.le_add_right _ _
    have htoka : sa.tokens = s.tokens := by rw [← hsa]
    rw [exec_bind, exec_atEnd]
    dsimp only
    split
    · exact ⟨[], sa, rfl, htoka, TokenKind.beq_eq_true.1 ‹_›⟩
    · rename_i hne
      rw [TokenKind.beq_eq_true] at hne
      rw [exec_bind, exec_check]
      dsimp only
      split
      · -- a stray `}` at file level is reported and passed
        rename_i hrb
        obtain ⟨diag, hdiag⟩ := errorHere_reads "a declaration" sa
        rw [exec_bind, hdiag]
        dsimp only
        rw [exec_bind, exec_report]
        dsimp only
        generalize hsb : ({ sa with errors := sa.errors.push diag } : State) = sb
        have hcurb : sb.cur = sa.cur := State.cur_congr (by rw [← hsb]) (by rw [← hsb])
        obtain ⟨t, hadv⟩ := advance_ok sb
        have hposc := exec_advance sb (by rw [hcurb, TokenKind.beq_eq_true.1 hrb]; decide)
        have htokc := (advance_forward sb).1
        rw [exec_bind, hadv]
        dsimp only
        rw [exec_bind, exec_modify]
        dsimp only
        generalize hsd : ({ (exec advance sb).2 with braceDepth := 0 } : State) = sd
        have htokd : sd.tokens = s.tokens := by rw [← hsd, htokc, ← hsb, htoka]
        have hposd : sd.pos = sb.pos + 1 := by rw [← hsd, hposc]
        have hposb : sb.pos = sa.pos := by rw [← hsb]
        obtain ⟨ds, s', hrest, htok', heof⟩ :=
          moduleDecls_ends n sd (by rw [htokd]; exact hend) (by rw [htokd]; omega)
        exact ⟨ds, s', hrest, htok'.trans htokd, heof⟩
      · -- a declaration, with the fuel of a whole parse
        rename_i hrb
        rw [TokenKind.beq_eq_true] at hrb
        rw [exec_bind, exec_get]
        dsimp only
        have hfuelFor : fuelFor sa.tokens = (fuelFor sa.tokens - 1) + 1 := by
          unfold fuelFor
          omega
        rw [hfuelFor]
        obtain ⟨d, s1, htop, htok1, -, hmove1⟩ := topLevel_run (fuelFor sa.tokens - 1) sa
        have hmove := hmove1 hne hrb
        have htoks : s1.tokens = s.tokens := htok1.trans htoka
        obtain ⟨ds, s', hrest, htok', heof⟩ :=
          moduleDecls_ends n s1 (by rw [htoks]; exact hend) (by rw [htoks]; omega)
        rw [exec_bind, htop]
        dsimp only
        rw [exec_bind, hrest]
        exact ⟨_, s', rfl, htok'.trans htoks, heof⟩

/-- The stream a parse starts from ends with the end-of-file token. -/
theorem State.init_endsWithEof (tokens : Array Token) :
    EndsWithEof (State.init tokens).tokens := by
  unfold State.init
  dsimp only
  split
  · rename_i t ht
    split
    · exact ⟨t, ht, TokenKind.beq_eq_true.1 ‹_›⟩
    · exact ⟨_, Array.back?_push, rfl⟩
  · exact ⟨_, Array.back?_push, rfl⟩

/-- **A module parse reads every token.** The declarations `parseModule` returns are those of
a run of the file's loop, with a round for every token, that succeeds and ends at the end of
file. -/
theorem parseModule_reads_all (file : String) (tokens : Array Token) :
    ∃ s', exec (moduleDecls ((State.init tokens).tokens.size + 1)) (State.init tokens) =
      (.ok (parseModule file tokens).1.decls, s') ∧ s'.cur.kind = .eof := by
  obtain ⟨ds, s', hrun, -, heof⟩ := moduleDecls_ends ((State.init tokens).tokens.size + 1)
    (State.init tokens) (State.init_endsWithEof tokens) (by omega)
  have hloop : (do moduleDecls (← remaining) : P (List Decl)).run.run (State.init tokens) =
      (.ok ds, s') := by
    show exec _ _ = _
    rw [exec_bind, exec_remaining]
    exact hrun
  have hdecls : (parseModule file tokens).1.decls = ds := by
    simp only [parseModule, run, hloop]
  rw [hdecls]
  exact ⟨s', hrun, heof⟩

/-! ## Every round moves on -/

/-- **The parser's loops end.** A module parse reads every token up to the end of file and
never fails. A declaration at file or namespace level never fails and, from any token but the
end of file and `}`, moves on, also when it fails and is recovered from; recovery itself moves
past the current token unless that is the end of file or a `}` closing the enclosing body.
Given a round for each token left, the loop over a namespace body succeeds and stops only at
`}` or the end of file; and the loops over the members of a body, the statements of a block or
a switch clause and the clauses of a switch return no more items than the tokens they pass. -/
theorem parser_loops_move_on :
    (∀ file tokens, ∃ s',
      exec (moduleDecls ((State.init tokens).tokens.size + 1)) (State.init tokens) =
        (.ok (parseModule file tokens).1.decls, s') ∧ s'.cur.kind = .eof) ∧
    (∀ n s, ∃ d s', exec (topLevel (n + 1)) s = (.ok d, s') ∧ s'.tokens = s.tokens ∧
      s.pos ≤ s'.pos ∧ (s.cur.kind ≠ .eof → s.cur.kind ≠ .rBrace → s.pos < s'.pos)) ∧
    (∀ depth s, exec (synchronize depth) s = (.ok (), (exec (synchronize depth) s).2) ∧
      (s.cur.kind ≠ .eof → ¬(s.cur.kind = .rBrace ∧ s.braceDepth ≤ depth) →
        s.pos < (exec (synchronize depth) s).2.pos)) ∧
    (∀ n s, EndsWithEof s.tokens → s.tokens.size ≤ s.pos + n →
      ∃ ds s', exec (namespaceMembers (n + 1)) s = (.ok ds, s') ∧ s'.tokens = s.tokens ∧
        (s'.cur.kind = .rBrace ∨ s'.cur.kind = .eof)) ∧
    (∀ n, LoopsYield n) :=
  ⟨parseModule_reads_all, topLevel_run, synchronize_run, namespaceMembers_ends, loops_yield⟩

/-- A name standing where a declaration should, before the end of file. -/
def strayName : State :=
  { tokens := #[{ kind := .identifier, span := {}, lexeme := "x" },
      { kind := .eof, span := {}, lexeme := "" }] }

/-- Recovery at a stray name moves past it, and the loop over a namespace body made of it
ends. -/
theorem recovery_passes_stray_name :
    (strayName.cur.kind ≠ .eof ∧ ¬(strayName.cur.kind = .rBrace ∧ strayName.braceDepth ≤ 0)) ∧
      strayName.pos < (exec (synchronize 0) strayName).2.pos ∧
      (EndsWithEof strayName.tokens ∧ strayName.tokens.size ≤ strayName.pos + 2) ∧
      ∃ ds s', exec (namespaceMembers 3) strayName = (.ok ds, s') ∧
        s'.tokens = strayName.tokens ∧ (s'.cur.kind = .rBrace ∨ s'.cur.kind = .eof) := by
  have hname : strayName.cur.kind ≠ .eof ∧
      ¬(strayName.cur.kind = .rBrace ∧ strayName.braceDepth ≤ 0) := ⟨by decide, by decide⟩
  have hend : EndsWithEof strayName.tokens := ⟨_, rfl, rfl⟩
  exact ⟨hname, (parser_loops_move_on.2.2.1 0 strayName).2 hname.1 hname.2,
    ⟨hend, by decide⟩, parser_loops_move_on.2.2.2.1 2 strayName hend (by decide)⟩

end AmLang.Parser
