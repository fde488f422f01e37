import AmLang.Syntax.Parser.Grammar
/-!
# The parser's cursor never moves back

A parse step runs on a state and ends with an outcome and a new state, also when it fails
(`exec`). This module shows that every step of the grammar is `Forward`: it keeps the token
array and never moves the cursor back, whichever way it ends. Everything the parser can do to
the cursor is `advance`, `skipSemis` and the recovery that skips tokens, and each moves it
forward; the rest of the grammar only binds, branches and catches.

* `exec_bind`, `exec_tryCatch`: how a step's outcome and state come from its parts.
* `Forward.bind`, `Forward.tryCatch`, `Forward.ite`: being forward is kept by the ways the
  grammar composes steps.
* `grammar_forward`: every function of the mutual grammar, at every fuel, is forward, by
  induction on the fuel.
-/

namespace AmLang.Parser

variable {α β : Type}

/-- Running a parse step from a state: its outcome and the state after it. -/
def exec (p : P α) (s : State) : Except Diagnostic α × State := p.run.run s

/-- The token at the cursor, as `peek` reads it. -/
def State.cur (s : State) : Token := s.tokens.getD (min s.pos (s.tokens.size - 1)) default

/-! ## Running steps -/

section Exec

@[simp] theorem exec_pure (a : α) (s : State) : exec (pure a : P α) s = (.ok a, s) := rfl

theorem exec_bind (p : P α) (f : α → P β) (s : State) :
    exec (p >>= f) s =
      match exec p s with
      | (.ok a, s') => exec (f a) s'
      | (.error e, s') => (.error e, s') := by
  simp only [exec, ExceptT.run_bind, StateT.run_bind]
  rcases (ExceptT.run p).run s with ⟨_ | a, s'⟩ <;> rfl

@[simp] theorem exec_throw (e : Diagnostic) (s : State) :
    exec (throw e : P α) s = (.error e, s) := rfl

@[simp] theorem exec_get (s : State) : exec (get : P State) s = (.ok s, s) := rfl

@[simp] theorem exec_modify (f : State → State) (s : State) :
    exec (modify f : P Unit) s = (.ok (), f s) := rfl

theorem exec_tryCatch (p : P α) (h : Diagnostic → P α) (s : State) :
    exec (tryCatch p h) s =
      match exec p s with
      | (.ok a, s') => (.ok a, s')
      | (.error e, s') => exec (h e) s' := by
  show StateT.run (ExceptT.tryCatch p h) s = _
  simp only [ExceptT.tryCatch, ExceptT.mk, exec, ExceptT.run, StateT.run_bind]
  rcases StateT.run p s with ⟨_ | a, s'⟩ <;> rfl

@[simp] theorem exec_peek (s : State) : exec peek s = (.ok s.cur, s) := rfl

end Exec

/-! ## Steps that never move the cursor back -/

/-- A step keeps the tokens and never moves the cursor back, whether it succeeds or fails. -/
def Forward (p : P α) : Prop :=
  ∀ s, (exec p s).2.tokens = s.tokens ∧ s.pos ≤ (exec p s).2.pos

namespace Forward

variable {p : P α} {f : α → P β}

theorem pure (a : α) : Forward (Pure.pure a : P α) := fun _ => ⟨rfl, Nat.le_refl _⟩

theorem throw (e : Diagnostic) : Forward (MonadExcept.throw e : P α) := fun _ => ⟨rfl, Nat.le_refl _⟩

theorem get : Forward (MonadState.get : P State) := fun _ => ⟨rfl, Nat.le_refl _⟩

/-- A change of the state that keeps the tokens and does not move the cursor back. -/
theorem modify {g : State → State} (h : ∀ s, (g s).tokens = s.tokens ∧ s.pos ≤ (g s).pos) :
    Forward (modify g : P Unit) := h

theorem bind (hp : Forward p) (hf : ∀ a, Forward (f a)) : Forward (p >>= f) := by
  intro s
  obtain ⟨htok, hpos⟩ := hp s
  rw [exec_bind]
  -- a failure stops where the first step stopped; a success goes on from there
  rcases hr : exec p s with ⟨_ | a, s'⟩
  · rw [hr] at htok hpos
    exact ⟨htok, hpos⟩
  · rw [hr] at htok hpos
    obtain ⟨htok', hpos'⟩ := hf a s'
    exact ⟨htok'.trans htok, Nat.le_trans hpos hpos'⟩

theorem tryCatch {h : Diagnostic → P α} (hp : Forward p) (hh : ∀ e, Forward (h e)) :
    Forward (MonadExcept.tryCatch p h) := by
  intro s
  obtain ⟨htok, hpos⟩ := hp s
  rw [exec_tryCatch]
  rcases hr : exec p s with ⟨e | a, s'⟩
  · rw [hr] at htok hpos
    obtain ⟨htok', hpos'⟩ := hh e s'
    exact ⟨htok'.trans htok, Nat.le_trans hpos hpos'⟩
  · rw [hr] at htok hpos
    exact ⟨htok, hpos⟩

/-- The decision procedure of the condition is taken from the goal, never searched for. -/
theorem ite {c : Prop} {dec : Decidable c} {q : P α} (hp : Forward p) (hq : Forward q) :
    Forward (@ite _ c dec p q) := by
  split
  · exact hp
  · exact hq

theorem map {g : α → β} (hp : Forward p) : Forward (g <$> p) := by
  rw [← bind_pure_comp]
  exact hp.bind fun _ => Forward.pure _

end Forward

/-! ## The primitives -/

section Primitives

theorem peek_forward : Forward peek := fun _ => ⟨rfl, Nat.le_refl _⟩

theorem peekNext_forward : Forward peekNext := fun _ => ⟨rfl, Nat.le_refl _⟩

theorem previous_forward : Forward previous := fun _ => ⟨rfl, Nat.le_refl _⟩

theorem atEnd_forward : Forward atEnd := fun _ => ⟨rfl, Nat.le_refl _⟩

theorem check_forward (k : TokenKind) : Forward (check k) := fun _ => ⟨rfl, Nat.le_refl _⟩

theorem checkNext_forward (k : TokenKind) : Forward (checkNext k) := fun _ => ⟨rfl, Nat.le_refl _⟩

theorem errorHere_forward (what : String) : Forward (errorHere what) := fun _ => ⟨rfl, Nat.le_refl _⟩

theorem spanFrom_forward (start : Span) : Forward (spanFrom start) := fun _ => ⟨rfl, Nat.le_refl _⟩

theorem remaining_forward : Forward remaining := fun _ => ⟨rfl, Nat.le_refl _⟩

theorem exhausted_forward : Forward (exhausted : P α) := fun _ => ⟨rfl, Nat.le_refl _⟩

theorem fail_forward (what : String) : Forward (fail what : P α) := fun _ => ⟨rfl, Nat.le_refl _⟩

theorem report_forward (d : Diagnostic) : Forward (report d) := fun _ => ⟨rfl, Nat.le_refl _⟩

theorem skipSemis_forward : Forward skipSemis := by
  unfold skipSemis
  exact Forward.modify fun s => ⟨rfl, Nat.le_add_right _ _⟩

/-- `advance` moves the cursor one token on, or stays at the end of file. -/
theorem advance_forward : Forward advance := by
  simp only [advance]
  refine peek_forward.bind fun _ => Forward.ite ?_ previous_forward
  refine Forward.bind (Forward.modify fun _ => ⟨rfl, ?_⟩) fun _ => previous_forward
  exact Nat.le_succ _

theorem accept_forward (k : TokenKind) : Forward (accept k) := by
  unfold accept
  refine (check_forward k).bind fun _ => Forward.ite ?_ (Forward.pure _)
  exact advance_forward.bind fun _ => Forward.pure _

theorem expect_forward (k : TokenKind) (what : String) : Forward (expect k what) := by
  unfold expect
  exact (check_forward k).bind fun _ => Forward.ite advance_forward (fail_forward what)

theorem recoverLoop_forward (depth : Int) : ∀ fuel, Forward (recoverLoop depth fuel)
  | 0 => Forward.pure _
  | fuel + 1 => by
    simp only [recoverLoop]
    repeat' first
      | with_reducible exact Forward.pure _
      | with_reducible exact Forward.get
      | with_reducible exact peek_forward
      | with_reducible exact advance_forward
      | with_reducible exact recoverLoop_forward depth fuel
      | with_reducible refine Forward.modify fun _ => ⟨rfl, Nat.le_refl _⟩
      | with_reducible refine Forward.bind ?_ fun _ => ?_
      | with_reducible refine Forward.ite ?_ ?_
      | split

theorem synchronize_forward (depth : Int) : Forward (synchronize depth) := by
  simp only [synchronize]
  repeat' first
    | with_reducible exact Forward.pure _
    | with_reducible exact Forward.get
    | with_reducible exact peek_forward
    | with_reducible exact advance_forward
    | with_reducible exact remaining_forward
    | with_reducible exact recoverLoop_forward depth _
    | with_reducible refine Forward.bind ?_ fun _ => ?_
    | with_reducible refine Forward.ite ?_ ?_

theorem pathRest_forward : ∀ fuel, Forward (pathRest fuel)
  | 0 => Forward.pure _
  | fuel + 1 => by
    simp only [pathRest]
    repeat' first
      | with_reducible exact Forward.pure _
      | with_reducible exact check_forward _
      | with_reducible exact checkNext_forward _
      | with_reducible exact advance_forward
      | with_reducible exact pathRest_forward fuel
      | with_reducible refine Forward.bind ?_ fun _ => ?_
      | with_reducible refine Forward.ite ?_ ?_

theorem path_forward : Forward path := by
  unfold path
  exact (expect_forward _ _).bind fun _ => remaining_forward.bind fun fuel =>
    (pathRest_forward fuel).bind fun _ => Forward.pure _

theorem genericNames_forward : ∀ fuel, Forward (genericNames fuel)
  | 0 => exhausted_forward
  | fuel + 1 => by
    simp only [genericNames]
    repeat' first
      | with_reducible exact Forward.pure _
      | with_reducible exact expect_forward _ _
      | with_reducible exact accept_forward _
      | with_reducible exact genericNames_forward fuel
      | with_reducible refine Forward.bind ?_ fun _ => ?_
      | with_reducible refine Forward.ite ?_ ?_

theorem genericParams_forward : Forward genericParams := by
  unfold genericParams
  exact advance_forward.bind fun _ => remaining_forward.bind fun fuel =>
    (genericNames_forward fuel).bind fun _ => (expect_forward _ _).bind fun _ => Forward.pure _

theorem requirements_forward : ∀ fuel, Forward (requirements fuel)
  | 0 => Forward.pure _
  | fuel + 1 => by
    simp only [requirements]
    repeat' first
      | with_reducible exact Forward.pure _
      | with_reducible exact check_forward _
      | with_reducible exact advance_forward
      | with_reducible exact skipSemis_forward
      | with_reducible exact requirements_forward fuel
      | with_reducible refine Forward.bind ?_ fun _ => ?_
      | with_reducible refine Forward.ite ?_ ?_

theorem modifiers_forward : ∀ fuel flags any, Forward (modifiers fuel flags any)
  | 0, _, _ => Forward.pure _
  | fuel + 1, _, _ => by
    simp only [modifiers]
    repeat' first
      | with_reducible exact Forward.pure _
      | with_reducible exact accept_forward _
      | with_reducible exact modifiers_forward fuel _ _
      | with_reducible refine Forward.bind ?_ fun _ => ?_
      | with_reducible refine Forward.ite ?_ ?_

end Primitives

/-! ## The grammar -/

/-- Every function of the mutual grammar, at fuel `n`, is forward. -/
structure GrammarForward (n : Nat) : Prop where
  type : Forward (Parser.type n)
  typeList : Forward (Parser.typeList n)
  typeSuffixes : ∀ (sp : Span) (t : TypeExpr), Forward (Parser.typeSuffixes n sp t)
  namedType : Forward (Parser.namedType n)
  namedTypeList : Forward (Parser.namedTypeList n)
  exprAbove : ∀ (m : Nat), Forward (Parser.exprAbove n m)
  infixLoop : ∀ (m : Nat) (e : Expr), Forward (Parser.infixLoop n m e)
  expr : Forward (Parser.expr n)
  unary : Forward (Parser.unary n)
  trailers : ∀ (e : Expr), Forward (Parser.trailers n e)
  exprList : Forward (Parser.exprList n)
  callArgs : Forward (Parser.callArgs n)
  primary : Forward (Parser.primary n)
  segments : ∀ (sp : Span), Forward (Parser.segments n sp)
  interpolation : Forward (Parser.interpolation n)
  newExpr : Forward (Parser.newExpr n)
  paramList : Forward (Parser.paramList n)
  params : Forward (Parser.params n)
  lambda : Forward (Parser.lambda n)
  ifExpr : Forward (Parser.ifExpr n)
  elements : Forward (Parser.elements n)
  arrayLiteral : Forward (Parser.arrayLiteral n)
  stmt : Forward (Parser.stmt n)
  stmtsUntilBrace : Forward (Parser.stmtsUntilBrace n)
  blockBody : Forward (Parser.blockBody n)
  block : Forward (Parser.block n)
  scopeStmt : Forward (Parser.scopeStmt n)
  ifStmt : Forward (Parser.ifStmt n)
  whileStmt : Forward (Parser.whileStmt n)
  forStmt : Forward (Parser.forStmt n)
  loopStmt : Forward (Parser.loopStmt n)
  clauseBody : Forward (Parser.clauseBody n)
  clauses : ∀ (b : Bool), Forward (Parser.clauses n b)
  switchStmt : Forward (Parser.switchStmt n)
  varDecl : Forward (Parser.varDecl n)
  returnStmt : Forward (Parser.returnStmt n)
  topLevel : Forward (Parser.topLevel n)
  namespaceMembers : Forward (Parser.namespaceMembers n)
  namespaceDecl : Forward (Parser.namespaceDecl n)
  importDecl : Forward (Parser.importDecl n)
  classDecl : ∀ (b : Bool), Forward (Parser.classDecl n b)
  interfaceDecl : Forward (Parser.interfaceDecl n)
  members : ∀ (b : Bool), Forward (Parser.members n b)
  memberBody : ∀ (b : Bool), Forward (Parser.memberBody n b)
  member : ∀ (b : Bool), Forward (Parser.member n b)
  functionDecl : ∀ (f : FunctionFlags) (sp : Span) (b : Bool),
    Forward (Parser.functionDecl n f sp b)
  testDecl : Forward (Parser.testDecl n)
  fieldDecl : ∀ (b : Bool), Forward (Parser.fieldDecl n b)
  mockDecl : Forward (Parser.mockDecl n)

/-- **The grammar never moves the cursor back**: every function of the mutual grammar, at every
fuel, keeps the tokens and ends at or after where it started, on success and on failure. The
induction is on the fuel, which every function spends before calling another; at each level the
body is taken apart bind by bind, branch by branch. -/
theorem grammar_forward : ∀ n, GrammarForward n
  | 0 => by
    constructor <;> intros <;> simp only [type.eq_1, typeList.eq_1, typeSuffixes.eq_1,
      namedType.eq_1, namedTypeList.eq_1, exprAbove.eq_1, infixLoop.eq_1, expr.eq_1, unary.eq_1,
      trailers.eq_1, exprList.eq_1, callArgs.eq_1, primary.eq_1, segments.eq_1,
      interpolation.eq_1, newExpr.eq_1, paramList.eq_1, params.eq_1, lambda.eq_1, ifExpr.eq_1,
      elements.eq_1, arrayLiteral.eq_1, stmt.eq_1, stmtsUntilBrace.eq_1, blockBody.eq_1,
      block.eq_1, scopeStmt.eq_1, ifStmt.eq_1, whileStmt.eq_1, forStmt.eq_1, loopStmt.eq_1,
      clauseBody.eq_1, clauses.eq_1, switchStmt.eq_1, varDecl.eq_1, returnStmt.eq_1,
      topLevel.eq_1, namespaceMembers.eq_1, namespaceDecl.eq_1, importDecl.eq_1, classDecl.eq_1,
      interfaceDecl.eq_1, members.eq_1, memberBody.eq_1, member.eq_1, functionDecl.eq_1,
      testDecl.eq_1, fieldDecl.eq_1, mockDecl.eq_1] <;>
      exact exhausted_forward
  | n + 1 => by
    have ih := grammar_forward n
    constructor <;> intros <;> simp only [type.eq_2, typeList.eq_2, typeSuffixes.eq_2,
      namedType.eq_2, namedTypeList.eq_2, exprAbove.eq_2, infixLoop.eq_2, expr.eq_2, unary.eq_2,
      trailers.eq_2, exprList.eq_2, callArgs.eq_2, primary.eq_2, segments.eq_2,
      interpolation.eq_2, newExpr.eq_2, paramList.eq_2, params.eq_2, lambda.eq_2, ifExpr.eq_2,
      elements.eq_2, arrayLiteral.eq_2, stmt.eq_2, stmtsUntilBrace.eq_2, blockBody.eq_2,
      block.eq_2, scopeStmt.eq_2, ifStmt.eq_2, whileStmt.eq_2, forStmt.eq_2, loopStmt.eq_2,
      clauseBody.eq_2, clauses.eq_2, switchStmt.eq_2, varDecl.eq_2, returnStmt.eq_2,
      topLevel.eq_2, namespaceMembers.eq_2, namespaceDecl.eq_2, importDecl.eq_2, classDecl.eq_2,
      interfaceDecl.eq_2, members.eq_2, memberBody.eq_2, member.eq_2, functionDecl.eq_2,
      testDecl.eq_2, fieldDecl.eq_2, mockDecl.eq_2] <;>
    repeat' first
      | with_reducible refine Forward.bind ?_ fun _ => ?_
      | with_reducible refine Forward.ite ?_ ?_
      | with_reducible exact Forward.pure _
      | with_reducible exact Forward.throw _
      | with_reducible exact Forward.get
      | with_reducible refine Forward.tryCatch ?_ fun _ => ?_
      | with_reducible refine Forward.map ?_
      | with_reducible refine Forward.modify fun _ => ⟨rfl, Nat.le_refl _⟩
      | with_reducible exact peek_forward
      | with_reducible exact peekNext_forward
      | with_reducible exact previous_forward
      | with_reducible exact atEnd_forward
      | with_reducible exact check_forward _
      | with_reducible exact checkNext_forward _
      | with_reducible exact errorHere_forward _
      | with_reducible exact spanFrom_forward _
      | with_reducible exact remaining_forward
      | with_reducible exact exhausted_forward
      | with_reducible exact fail_forward _
      | with_reducible exact report_forward _
      | with_reducible exact skipSemis_forward
      | with_reducible exact advance_forward
      | with_reducible exact accept_forward _
      | with_reducible exact expect_forward _ _
      | with_reducible exact synchronize_forward _
      | with_reducible exact path_forward
      | with_reducible exact genericParams_forward
      | with_reducible exact requirements_forward _
      | with_reducible exact modifiers_forward _ _ _
      | with_reducible exact ih.type
      | with_reducible exact ih.typeList
      | with_reducible exact ih.typeSuffixes _ _
      | with_reducible exact ih.namedType
      | with_reducible exact ih.namedTypeList
      | with_reducible exact ih.exprAbove _
      | with_reducible exact ih.infixLoop _ _
      | with_reducible exact ih.expr
      | with_reducible exact ih.unary
      | with_reducible exact ih.trailers _
      | with_reducible exact ih.exprList
      | with_reducible exact ih.callArgs
      | with_reducible exact ih.primary
      | with_reducible exact ih.segments _
      | with_reducible exact ih.interpolation
      | with_reducible exact ih.newExpr
      | with_reducible exact ih.paramList
      | with_reducible exact ih.params
      | with_reducible exact ih.lambda
      | with_reducible exact ih.ifExpr
      | with_reducible exact ih.elements
      | with_reducible exact ih.arrayLiteral
      | with_reducible exact ih.stmt
      | with_reducible exact ih.stmtsUntilBrace
      | with_reducible exact ih.blockBody
      | with_reducible exact ih.block
      | with_reducible exact ih.scopeStmt
      | with_reducible exact ih.ifStmt
      | with_reducible exact ih.whileStmt
      | with_reducible exact ih.forStmt
      | with_reducible exact ih.loopStmt
      | with_reducible exact ih.clauseBody
      | with_reducible exact ih.clauses _
      | with_reducible exact ih.switchStmt
      | with_reducible exact ih.varDecl
      | with_reducible exact ih.returnStmt
      | with_reducible exact ih.topLevel
      | with_reducible exact ih.namespaceMembers
      | with_reducible exact ih.namespaceDecl
      | with_reducible exact ih.importDecl
      | with_reducible exact ih.classDecl _
      | with_reducible exact ih.interfaceDecl
      | with_reducible exact ih.members _
      | with_reducible exact ih.memberBody _
      | with_reducible exact ih.member _
      | with_reducible exact ih.functionDecl _ _ _
      | with_reducible exact ih.testDecl
      | with_reducible exact ih.fieldDecl _
      | with_reducible exact ih.mockDecl
      | split

end AmLang.Parser
