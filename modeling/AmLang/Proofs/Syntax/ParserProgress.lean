import AmLang.Proofs.Syntax.ParserForward
import Mathlib.Tactic.CasesM
/-!
# Every loop of the parser consumes a token or ends

The parser's loops (the declarations of a file or a namespace, the members of a body, the
statements of a block, the clauses of a switch) each call one function per round. This module
shows that each such round moves the cursor past at least one token or leaves the loop, so the
loops end; and that recovery after a failed declaration moves on as well.

* `Consumes c p`: on success from a state whose current token satisfies `c`, `p` has moved the
  cursor. `grammar_consumes`: every function that parses a declaration, member, statement or
  expression consumes a token when it succeeds.
-/

namespace AmLang.Parser

variable {α β : Type}

/-! ## Steps that consume a token -/

/-- On success from a state whose current token satisfies `c`, the step has moved the cursor
past at least one token. -/
def Consumes (c : Token → Prop) (p : P α) : Prop :=
  ∀ s, c s.cur → ∀ a s', exec p s = (.ok a, s') → s.pos < s'.pos

/-- No condition on the current token. -/
def Anywhere (_ : Token) : Prop := True

/-- The current token is not the end of file. -/
def NotAtEnd (t : Token) : Prop := t.kind ≠ .eof

/-- A step that reads the state and leaves it as it is. -/
def Reads (r : P β) : Prop := ∀ s, ∃ b, exec r s = (.ok b, s)

section Reads

theorem peekNext_reads : Reads peekNext := fun _ => ⟨_, rfl⟩

theorem previous_reads : Reads previous := fun _ => ⟨_, rfl⟩

theorem checkNext_reads (k : TokenKind) : Reads (checkNext k) := fun _ => ⟨_, rfl⟩

theorem get_reads : Reads (get : P State) := fun _ => ⟨_, rfl⟩

theorem remaining_reads : Reads remaining := fun _ => ⟨_, rfl⟩

theorem spanFrom_reads (start : Span) : Reads (spanFrom start) := fun _ => ⟨_, rfl⟩

theorem errorHere_reads (what : String) : Reads (errorHere what) := fun _ => ⟨_, rfl⟩

end Reads

theorem exec_check (k : TokenKind) (s : State) :
    exec (check k) s = (.ok (s.cur.kind == k), s) := rfl

theorem exec_atEnd (s : State) : exec atEnd s = (.ok (s.cur.kind == .eof), s) := rfl

/-- Comparing token kinds with `==` is equality: the derived test compares constructor indices. -/
theorem TokenKind.beq_eq_true {k k' : TokenKind} : (k == k') = true ↔ k = k' := by
  show (k.ctorIdx == k'.ctorIdx) = true ↔ k = k'
  rw [beq_iff_eq]
  constructor
  · intro hidx
    rw [← TokenKind.ofNat_ctorIdx k, hidx, TokenKind.ofNat_ctorIdx]
  · rintro rfl
    rfl

theorem TokenKind.beq_eq_false {k k' : TokenKind} : (k == k') = false ↔ k ≠ k' := by
  rw [← Bool.not_eq_true, TokenKind.beq_eq_true]

theorem TokenKind.bne_eq_true {k k' : TokenKind} : (k != k') = true ↔ k ≠ k' := by
  rw [bne, Bool.not_eq_true', TokenKind.beq_eq_false]

/-- `advance` moves the cursor one token on from any token but the end of file. -/
theorem exec_advance (s : State) (h : s.cur.kind ≠ .eof) :
    (exec advance s).2.pos = s.pos + 1 := by
  unfold advance
  rw [exec_bind, exec_peek]
  dsimp only
  rw [if_pos (TokenKind.bne_eq_true.2 h), exec_bind, exec_modify]
  rfl

theorem NotAtEnd.of_ne {c : Token → Prop} (h : ∀ t, c t → t.kind = .eof → False) :
    ∀ t, c t → NotAtEnd t := h

theorem Anywhere.of (c : Token → Prop) : ∀ t, c t → Anywhere t := fun _ _ => trivial

namespace Consumes

variable {c c' : Token → Prop} {p : P α} {f : α → P β}

theorem mono (h : ∀ t, c t → c' t) (hp : Consumes c' p) : Consumes c p :=
  fun s hc => hp s (h _ hc)

theorem throw (e : Diagnostic) : Consumes c (MonadExcept.throw e : P α) := by
  intro s _ a s' h
  cases h

theorem throw_bind (e : Diagnostic) (f : α → P β) :
    Consumes c ((MonadExcept.throw e : P α) >>= f) := by
  intro s _ a s' h
  rw [exec_bind] at h
  cases h

theorem exhausted_bind (f : α → P β) : Consumes c ((exhausted : P α) >>= f) := by
  intro s _ a s' h
  rw [exec_bind] at h
  cases h

theorem fail_bind (what : String) (f : α → P β) : Consumes c ((fail what : P α) >>= f) := by
  intro s _ a s' h
  rw [exec_bind] at h
  cases h

theorem exhausted : Consumes c (Parser.exhausted : P α) := by
  intro s _ a s' h
  cases h

theorem fail (what : String) : Consumes c (Parser.fail what : P α) := by
  intro s _ a s' h
  cases h

theorem pure_bind {a : α} (hf : Consumes c (f a)) : Consumes c (Pure.pure a >>= f) := by
  intro s hc b s' h
  rw [exec_bind, exec_pure] at h
  exact hf s hc b s' h

/-- A step that consumes, followed by steps that never move back. -/
theorem bind_left (hp : Consumes c p) (hf : ∀ a, Forward (f a)) : Consumes c (p >>= f) := by
  intro s hc b s' h
  rw [exec_bind] at h
  rcases hr : exec p s with ⟨e | a, s1⟩ <;> rw [hr] at h <;> dsimp only at h
  · cases h
  · have h1 := hp s hc a s1 hr
    have h2 := (hf a s1).2
    rw [h] at h2
    exact Nat.lt_of_lt_of_le h1 h2

/-- A step that never moves back, followed by steps that consume from any token. -/
theorem bind_right (hp : Forward p) (hf : ∀ a, Consumes Anywhere (f a)) :
    Consumes c (p >>= f) := by
  intro s _ b s' h
  rw [exec_bind] at h
  rcases hr : exec p s with ⟨e | a, s1⟩ <;> rw [hr] at h
  · cases h
  · have h1 := (hp s).2
    rw [hr] at h1
    exact Nat.lt_of_le_of_lt h1 (hf a s1 trivial b s' h)

/-- Looking at the current token keeps what is known of it. -/
theorem peek_bind {f : Token → P β} (hf : ∀ t, Consumes (fun u => c u ∧ u = t) (f t)) :
    Consumes c (peek >>= f) := by
  intro s hc b s' h
  rw [exec_bind, exec_peek] at h
  exact hf s.cur s ⟨hc, rfl⟩ b s' h

/-- Testing the kind of the current token keeps the answer. -/
theorem check_bind {k : TokenKind} {f : Bool → P β}
    (hf : ∀ b, Consumes (fun u => c u ∧ (u.kind == k) = b) (f b)) :
    Consumes c (check k >>= f) := by
  intro s hc b s' h
  rw [exec_bind, exec_check] at h
  exact hf _ s ⟨hc, rfl⟩ b s' h

theorem atEnd_bind {f : Bool → P β}
    (hf : ∀ b, Consumes (fun u => c u ∧ (u.kind == .eof) = b) (f b)) :
    Consumes c (atEnd >>= f) := by
  intro s hc b s' h
  rw [exec_bind, exec_atEnd] at h
  exact hf _ s ⟨hc, rfl⟩ b s' h

theorem read_bind {r : P β} {f : β → P α} (hr : Reads r) (hf : ∀ b, Consumes c (f b)) :
    Consumes c (r >>= f) := by
  intro s hc a s' h
  obtain ⟨b, hb⟩ := hr s
  rw [exec_bind, hb] at h
  exact hf b s hc a s' h

theorem map {g : α → β} (hp : Consumes c p) : Consumes c (g <$> p) := by
  rw [← bind_pure_comp]
  exact hp.bind_left fun _ => Forward.pure _

end Consumes

/-- `advance` consumes the current token unless it is the end of file. -/
theorem advance_consumes : Consumes NotAtEnd advance := by
  intro s h a s' hs
  have := exec_advance s h
  rw [hs] at this
  simp only at this
  omega

/-- `expect` consumes the token it expects. -/
theorem expect_consumes {c : Token → Prop} {k : TokenKind} {what : String} (hk : k ≠ .eof) :
    Consumes c (expect k what) := by
  unfold expect
  refine Consumes.check_bind fun b => ?_
  cases b
  · exact Consumes.fail what
  · refine Consumes.mono ?_ advance_consumes
    intro u ⟨_, hu⟩ he
    rw [he] at hu
    exact hk (TokenKind.beq_eq_true.1 hu).symm

/-! ## The grammar -/

/-- The functions of the grammar that consume a token whenever they succeed: from any token,
or, for those that start by moving past their keyword, from any token but the end of file. -/
structure GrammarConsumes (n : Nat) : Prop where
  expr : Consumes Anywhere (Parser.expr n)
  exprAbove : ∀ (m : Nat), Consumes Anywhere (Parser.exprAbove n m)
  unary : Consumes Anywhere (Parser.unary n)
  primary : Consumes Anywhere (Parser.primary n)
  interpolation : Consumes NotAtEnd (Parser.interpolation n)
  newExpr : Consumes NotAtEnd (Parser.newExpr n)
  arrayLiteral : Consumes NotAtEnd (Parser.arrayLiteral n)
  lambda : Consumes NotAtEnd (Parser.lambda n)
  ifExpr : Consumes NotAtEnd (Parser.ifExpr n)
  stmt : Consumes Anywhere (Parser.stmt n)
  blockBody : Consumes Anywhere (Parser.blockBody n)
  block : Consumes Anywhere (Parser.block n)
  scopeStmt : Consumes NotAtEnd (Parser.scopeStmt n)
  ifStmt : Consumes NotAtEnd (Parser.ifStmt n)
  whileStmt : Consumes NotAtEnd (Parser.whileStmt n)
  forStmt : Consumes NotAtEnd (Parser.forStmt n)
  loopStmt : Consumes NotAtEnd (Parser.loopStmt n)
  switchStmt : Consumes NotAtEnd (Parser.switchStmt n)
  varDecl : Consumes NotAtEnd (Parser.varDecl n)
  returnStmt : Consumes NotAtEnd (Parser.returnStmt n)
  mockDecl : Consumes NotAtEnd (Parser.mockDecl n)
  member : ∀ (b : Bool), Consumes Anywhere (Parser.member n b)
  testDecl : Consumes NotAtEnd (Parser.testDecl n)
  fieldDecl : ∀ (b : Bool), Consumes NotAtEnd (Parser.fieldDecl n b)
  namespaceDecl : Consumes NotAtEnd (Parser.namespaceDecl n)
  importDecl : Consumes NotAtEnd (Parser.importDecl n)
  classDecl : ∀ (b : Bool), Consumes NotAtEnd (Parser.classDecl n b)
  interfaceDecl : Consumes NotAtEnd (Parser.interfaceDecl n)

/-- **Parsing a declaration, a member, a statement or an expression consumes a token.** The
induction is on the fuel: each function moves past its first token itself or through the first
function it calls, and the rest of its body never moves back (`grammar_forward`). -/
theorem grammar_consumes : ∀ n, GrammarConsumes n
  | 0 => by
    constructor <;> intros <;> simp only [expr.eq_1, exprAbove.eq_1, unary.eq_1, primary.eq_1,
      interpolation.eq_1, newExpr.eq_1, arrayLiteral.eq_1, lambda.eq_1, ifExpr.eq_1, stmt.eq_1,
      blockBody.eq_1, block.eq_1, scopeStmt.eq_1, ifStmt.eq_1, whileStmt.eq_1, forStmt.eq_1,
      loopStmt.eq_1, switchStmt.eq_1, varDecl.eq_1, returnStmt.eq_1, mockDecl.eq_1, member.eq_1,
      testDecl.eq_1, fieldDecl.eq_1, namespaceDecl.eq_1, importDecl.eq_1, classDecl.eq_1,
      interfaceDecl.eq_1] <;>
      exact Consumes.exhausted
  | n + 1 => by
    have ih := grammar_consumes n
    have fw := grammar_forward n
    constructor <;> intros <;> simp only [expr.eq_2, exprAbove.eq_2, unary.eq_2, primary.eq_2,
      interpolation.eq_2, newExpr.eq_2, arrayLiteral.eq_2, lambda.eq_2, ifExpr.eq_2, stmt.eq_2,
      blockBody.eq_2, block.eq_2, scopeStmt.eq_2, ifStmt.eq_2, whileStmt.eq_2, forStmt.eq_2,
      loopStmt.eq_2, switchStmt.eq_2, varDecl.eq_2, returnStmt.eq_2, mockDecl.eq_2, member.eq_2,
      testDecl.eq_2, fieldDecl.eq_2, namespaceDecl.eq_2, importDecl.eq_2, classDecl.eq_2,
      interfaceDecl.eq_2] <;>
    repeat' first
      -- the rest of a body, after its first consuming step: it never moves back
      | with_reducible show Forward _
        first
          | with_reducible refine Forward.bind ?_ fun _ => ?_
          | with_reducible refine Forward.ite ?_ ?_
          | with_reducible exact Forward.pure _
          | with_reducible exact Forward.throw _
          | with_reducible exact Forward.get
          | with_reducible refine Forward.tryCatch ?_ fun _ => ?_
          | with_reducible refine Forward.map ?_
          | with_reducible refine Forward.modify fun _ => ⟨rfl, Nat.le_refl _⟩
          | with_reducible exact peek_forward
          | with_reducible exact peekNext_forward
          | with_reducible exact previous_forward
          | with_reducible exact atEnd_forward
          | with_reducible exact check_forward _
          | with_reducible exact checkNext_forward _
          | with_reducible exact errorHere_forward _
          | with_reducible exact spanFrom_forward _
          | with_reducible exact remaining_forward
          | with_reducible exact exhausted_forward
          | with_reducible exact fail_forward _
          | with_reducible exact report_forward _
          | with_reducible exact skipSemis_forward
          | with_reducible exact advance_forward
          | with_reducible exact accept_forward _
          | with_reducible exact expect_forward _ _
          | with_reducible exact synchronize_forward _
          | with_reducible exact path_forward
          | with_reducible exact genericParams_forward
          | with_reducible exact requirements_forward _
          | with_reducible exact modifiers_forward _ _ _
          | with_reducible exact fw.type
          | with_reducible exact fw.typeList
          | with_reducible exact fw.typeSuffixes _ _
          | with_reducible exact fw.namedType
          | with_reducible exact fw.namedTypeList
          | with_reducible exact fw.exprAbove _
          | with_reducible exact fw.infixLoop _ _
          | with_reducible exact fw.expr
          | with_reducible exact fw.unary
          | with_reducible exact fw.trailers _
          | with_reducible exact fw.exprList
          | with_reducible exact fw.callArgs
          | with_reducible exact fw.primary
          | with_reducible exact fw.segments _
          | with_reducible exact fw.interpolation
          | with_reducible exact fw.newExpr
          | with_reducible exact fw.paramList
          | with_reducible exact fw.params
          | with_reducible exact fw.lambda
          | with_reducible exact fw.ifExpr
          | with_reducible exact fw.elements
          | with_reducible exact fw.arrayLiteral
          | with_reducible exact fw.stmt
          | with_reducible exact fw.stmtsUntilBrace
          | with_reducible exact fw.blockBody
          | with_reducible exact fw.block
          | with_reducible exact fw.scopeStmt
          | with_reducible exact fw.ifStmt
          | with_reducible exact fw.whileStmt
          | with_reducible exact fw.forStmt
          | with_reducible exact fw.loopStmt
          | with_reducible exact fw.clauseBody
          | with_reducible exact fw.clauses _
          | with_reducible exact fw.switchStmt
          | with_reducible exact fw.varDecl
          | with_reducible exact fw.returnStmt
          | with_reducible exact fw.topLevel
          | with_reducible exact fw.namespaceMembers
          | with_reducible exact fw.namespaceDecl
          | with_reducible exact fw.importDecl
          | with_reducible exact fw.classDecl _
          | with_reducible exact fw.interfaceDecl
          | with_reducible exact fw.members _
          | with_reducible exact fw.memberBody _
          | with_reducible exact fw.member _
          | with_reducible exact fw.functionDecl _ _ _
          | with_reducible exact fw.testDecl
          | with_reducible exact fw.fieldDecl _
          | with_reducible exact fw.mockDecl
          | split
      -- a body up to its first consuming step, and what it has seen of the current token
      | with_reducible show Consumes _ _
        first
          | with_reducible refine Consumes.peek_bind fun _ => ?_
          | with_reducible refine Consumes.check_bind fun _ => ?_
          | with_reducible refine Consumes.atEnd_bind fun _ => ?_
          | with_reducible refine Consumes.read_bind peekNext_reads fun _ => ?_
          | with_reducible refine Consumes.read_bind previous_reads fun _ => ?_
          | with_reducible refine Consumes.read_bind checkNext_reads _ fun _ => ?_
          | with_reducible refine Consumes.read_bind get_reads fun _ => ?_
          | with_reducible refine Consumes.read_bind remaining_reads fun _ => ?_
          | with_reducible refine Consumes.read_bind spanFrom_reads _ fun _ => ?_
          | with_reducible refine Consumes.read_bind errorHere_reads _ fun _ => ?_
          | with_reducible refine Consumes.pure_bind ?_
          | with_reducible exact Consumes.throw _
          | with_reducible exact Consumes.exhausted
          | with_reducible exact Consumes.fail _
          | with_reducible exact Consumes.throw_bind _ _
          | with_reducible exact Consumes.exhausted_bind _
          | with_reducible exact Consumes.fail_bind _ _
          | with_reducible refine Consumes.bind_left (Consumes.mono ?_ advance_consumes) fun _ => ?_
          | with_reducible refine Consumes.mono ?_ advance_consumes
          | with_reducible refine Consumes.bind_left (expect_consumes (by decide)) fun _ => ?_
          | with_reducible refine Consumes.bind_left (Consumes.mono ?_ (ih.expr)) fun _ => ?_
          | with_reducible refine Consumes.mono ?_ (ih.expr)
          | with_reducible refine Consumes.bind_left (Consumes.mono ?_ (ih.exprAbove _)) fun _ => ?_
          | with_reducible refine Consumes.mono ?_ (ih.exprAbove _)
          | with_reducible refine Consumes.bind_left (Consumes.mono ?_ (ih.unary)) fun _ => ?_
          | with_reducible refine Consumes.mono ?_ (ih.unary)
          | with_reducible refine Consumes.bind_left (Consumes.mono ?_ (ih.primary)) fun _ => ?_
          | with_reducible refine Consumes.mono ?_ (ih.primary)
          | with_reducible refine Consumes.bind_left (Consumes.mono ?_ (ih.interpolation)) fun _ => ?_
          | with_reducible refine Consumes.mono ?_ (ih.interpolation)
          | with_reducible refine Consumes.bind_left (Consumes.mono ?_ (ih.newExpr)) fun _ => ?_
          | with_reducible refine Consumes.mono ?_ (ih.newExpr)
          | with_reducible refine Consumes.bind_left (Consumes.mono ?_ (ih.arrayLiteral)) fun _ => ?_
          | with_reducible refine Consumes.mono ?_ (ih.arrayLiteral)
          | with_reducible refine Consumes.bind_left (Consumes.mono ?_ (ih.lambda)) fun _ => ?_
          | with_reducible refine Consumes.mono ?_ (ih.lambda)
          | with_reducible refine Consumes.bind_left (Consumes.mono ?_ (ih.ifExpr)) fun _ => ?_
          | with_reducible refine Consumes.mono ?_ (ih.ifExpr)
          | with_reducible refine Consumes.bind_left (Consumes.mono ?_ (ih.stmt)) fun _ => ?_
          | with_reducible refine Consumes.mono ?_ (ih.stmt)
          | with_reducible refine Consumes.bind_left (Consumes.mono ?_ (ih.blockBody)) fun _ => ?_
          | with_reducible refine Consumes.mono ?_ (ih.blockBody)
          | with_reducible refine Consumes.bind_left (Consumes.mono ?_ (ih.block)) fun _ => ?_
          | with_reducible refine Consumes.mono ?_ (ih.block)
          | with_reducible refine Consumes.bind_left (Consumes.mono ?_ (ih.scopeStmt)) fun _ => ?_
          | with_reducible refine Consumes.mono ?_ (ih.scopeStmt)
          | with_reducible refine Consumes.bind_left (Consumes.mono ?_ (ih.ifStmt)) fun _ => ?_
          | with_reducible refine Consumes.mono ?_ (ih.ifStmt)
          | with_reducible refine Consumes.bind_left (Consumes.mono ?_ (ih.whileStmt)) fun _ => ?_
          | with_reducible refine Consumes.mono ?_ (ih.whileStmt)
          | with_reducible refine Consumes.bind_left (Consumes.mono ?_ (ih.forStmt)) fun _ => ?_
          | with_reducible refine Consumes.mono ?_ (ih.forStmt)
          | with_reducible refine Consumes.bind_left (Consumes.mono ?_ (ih.loopStmt)) fun _ => ?_
          | with_reducible refine Consumes.mono ?_ (ih.loopStmt)
          | with_reducible refine Consumes.bind_left (Consumes.mono ?_ (ih.switchStmt)) fun _ => ?_
          | with_reducible refine Consumes.mono ?_ (ih.switchStmt)
          | with_reducible refine Consumes.bind_left (Consumes.mono ?_ (ih.varDecl)) fun _ => ?_
          | with_reducible refine Consumes.mono ?_ (ih.varDecl)
          | with_reducible refine Consumes.bind_left (Consumes.mono ?_ (ih.returnStmt)) fun _ => ?_
          | with_reducible refine Consumes.mono ?_ (ih.returnStmt)
          | with_reducible refine Consumes.bind_left (Consumes.mono ?_ (ih.mockDecl)) fun _ => ?_
          | with_reducible refine Consumes.mono ?_ (ih.mockDecl)
          | with_reducible refine Consumes.bind_left (Consumes.mono ?_ (ih.member _)) fun _ => ?_
          | with_reducible refine Consumes.mono ?_ (ih.member _)
          | with_reducible refine Consumes.bind_left (Consumes.mono ?_ (ih.testDecl)) fun _ => ?_
          | with_reducible refine Consumes.mono ?_ (ih.testDecl)
          | with_reducible refine Consumes.bind_left (Consumes.mono ?_ (ih.fieldDecl _)) fun _ => ?_
          | with_reducible refine Consumes.mono ?_ (ih.fieldDecl _)
          | with_reducible refine Consumes.bind_left (Consumes.mono ?_ (ih.namespaceDecl)) fun _ => ?_
          | with_reducible refine Consumes.mono ?_ (ih.namespaceDecl)
          | with_reducible refine Consumes.bind_left (Consumes.mono ?_ (ih.importDecl)) fun _ => ?_
          | with_reducible refine Consumes.mono ?_ (ih.importDecl)
          | with_reducible refine Consumes.bind_left (Consumes.mono ?_ (ih.classDecl _)) fun _ => ?_
          | with_reducible refine Consumes.mono ?_ (ih.classDecl _)
          | with_reducible refine Consumes.bind_left (Consumes.mono ?_ (ih.interfaceDecl)) fun _ => ?_
          | with_reducible refine Consumes.mono ?_ (ih.interfaceDecl)
          | with_reducible refine Consumes.bind_right (modifiers_forward _ _ _) fun _ => ?_
          | with_reducible refine Consumes.map ?_
          | split
      -- the token the first consuming step stands on is not the end of file
      | with_reducible exact Anywhere.of _
      | ((with_reducible refine NotAtEnd.of_ne fun u hu hk => ?_); clear ih fw; (try casesm* _ ∧ _); subst_vars; simp_all +decide [NotAtEnd])

end AmLang.Parser
