import AmLang.Proofs.Syntax.NumberExpressions
/-!
# Precedence climbing

An expression of names and infix operators, `x0 op1 x1 … opn xn`, is parsed by precedence
climbing: `exprAbove n m` reads an operand and hands it to `infixLoop`, which joins operators
binding tighter than `m` for as long as it meets them, parsing each right operand above the
operator's own level (a binary operator) or above the level below it (an assignment).

The tree the precedence table specifies is described here without the parser. An `OpTree` is a
tree of operator tokens over operand tokens; it is well-precedenced (`WellPrec`) when every
operator binds no tighter than the operators inside its operands, a binary operator has no
operator of its own level at the root of its right operand, and an assignment none at the root
of its left operand. Among the trees that read as a given sequence there is at most one that is
well-precedenced (`eq_of_flatten_eq`): its root is the loosest operator, the last one of that
level for a binary level and the first one for assignments.

The parser's side is one invariant carried through the two mutually recursive functions: a
loop round at bound `m` meets a left operand whose operators all bind at least as tightly as the
next operator, joins it with the operand parsed after that operator, and the new left operand
again fits the operator after it, since the operand stopped there.

## Main results

* `eq_of_flatten_eq` — a sequence is read by at most one well-precedenced tree.
* `climbs` — with any fuel the chain needs, `exprAbove` and `infixLoop` build well-precedenced
  trees of what they read and stop at the first operator not above their bound.
* `parseExpr_infix_chain` — a sequence of names and infix operators is parsed into the one
  well-precedenced tree that reads as it.
-/

namespace AmLang.Parser

/-! ## Infix operators -/

/-- The infix operators a name can be followed by: the assignment and the binary operators. -/
def isInfixOp (k : TokenKind) : Bool := (assignOp? k).isSome || (binaryOp? k).isSome

/-- The node the parser builds for the infix operator `k` between `a` and `b`; any other token
leaves `a` alone. -/
def infixExpr (k : TokenKind) (a b : Expr) : Expr :=
  match assignOp? k, binaryOp? k with
  | some op, _ => .mk (.assign op a b) (Span.merge a.span b.span)
  | none, some op => .mk (.binary op a b) (Span.merge a.span b.span)
  | none, none => a

/-- The assignments are the operators of the lowest level. -/
theorem assignOp?_isSome_iff (k : TokenKind) : (assignOp? k).isSome ↔ precedence k = 1 := by
  cases k <;> simp [assignOp?, precedence]

/-- An infix operator is neither the end of file nor a brace, starts no trailer and is not a
type operator. -/
theorem infix_kind {k : TokenKind} (h : isInfixOp k = true) :
    k ≠ .eof ∧ k ≠ .lBrace ∧ k ≠ .rBrace ∧ k ≠ .lParen ∧ k ≠ .lBracket ∧ k ≠ .dot ∧
      k ≠ .safeDot ∧ (k == .kwIs || k == .kwAs) = false := by
  cases k <;> first | decide | (simp [isInfixOp, assignOp?, binaryOp?] at h)

/-- Every infix operator has a level. -/
theorem one_le_precedence {k : TokenKind} (h : isInfixOp k = true) : 1 ≤ precedence k := by
  cases k <;> simp_all [isInfixOp, assignOp?, binaryOp?, precedence]

/-- The bound the parser reads a right operand above: an assignment's level less one, so that
an assignment to its right joins the operand, and a binary operator's own level, so that an
operator of that level ends it. -/
def rightBound (k : TokenKind) : Nat :=
  if (assignOp? k).isSome then precedence k - 1 else precedence k

/-- An operator above the bound binds at least as tightly as the operator itself. -/
theorem precedence_le_of_rightBound_lt {k : TokenKind} {q : Nat} (h : rightBound k < q) :
    precedence k ≤ q := by
  unfold rightBound at h
  split_ifs at h <;> omega

/-! ## Operator trees -/

/-- A tree of infix operator tokens over operand tokens. -/
inductive OpTree where
  | leaf (x : Token)
  | node (op : Token) (left right : OpTree)

namespace OpTree

/-- The tokens of a tree in reading order. -/
def flatten : OpTree → List Token
  | leaf x => [x]
  | node op l r => l.flatten ++ op :: r.flatten

/-- The operator tokens of a tree in reading order. -/
def ops : OpTree → List Token
  | leaf _ => []
  | node op l r => l.ops ++ op :: r.ops

/-- The level of the root operator; none at a leaf. -/
def rootPrec : OpTree → Option Nat
  | leaf _ => none
  | node op _ _ => some (precedence op.kind)

/-- The tree the precedence table specifies: every operator binds no tighter than any operator
inside its operands; a binary operator has no operator of its own level at the root of its right
operand (left associativity), and an assignment none at the root of its left operand (right
associativity). -/
def WellPrec : OpTree → Prop
  | leaf _ => True
  | node op l r => l.WellPrec ∧ r.WellPrec ∧
      (∀ o ∈ l.ops ++ r.ops, precedence op.kind ≤ precedence o.kind) ∧
      (if (assignOp? op.kind).isSome then l.rootPrec ≠ some (precedence op.kind)
        else r.rootPrec ≠ some (precedence op.kind))

/-- The expression the parser builds for a tree: a name at each leaf, the operator's node at each
node. -/
def toExpr : OpTree → Expr
  | leaf x => .mk (.ident x.lexeme) x.span
  | node op l r => infixExpr op.kind l.toExpr r.toExpr

/-! ## Reading a tree -/

/-- Operands and operators alternate, so a tree reads as an odd number of tokens. -/
theorem flatten_length_odd : ∀ T : OpTree, T.flatten.length % 2 = 1
  | leaf _ => rfl
  | node _ l r => by
    have hl := flatten_length_odd l
    have hr := flatten_length_odd r
    simp only [flatten, List.length_append, List.length_cons]
    omega

/-- The token after an odd number of tokens of a tree is one of its operators. -/
theorem mem_ops_of_flatten : ∀ (T : OpTree) {A B : List Token} {o : Token},
    T.flatten = A ++ o :: B → A.length % 2 = 1 → o ∈ T.ops
  | leaf _, A, B, o, h, hodd => by
    have hlen := congrArg List.length h
    simp only [flatten, List.length_cons, List.length_nil, List.length_append] at hlen
    omega
  | node op l r, A, B, o, h, hodd => by
    have hl := flatten_length_odd l
    rcases List.append_eq_append_iff.1 h with ⟨a', hA, hrest⟩ | ⟨c', hlA, hrest⟩
    · -- the token is the root or stands in the right operand
      cases a' with
      | nil =>
        rw [List.nil_append, List.cons.injEq] at hrest
        rw [ops, hrest.1]
        exact List.mem_append_right _ List.mem_cons_self
      | cons t A2 =>
        rw [List.cons_append, List.cons.injEq] at hrest
        have hlen : A.length = l.flatten.length + 1 + A2.length := by
          rw [hA, List.length_append, List.length_cons]
          omega
        exact List.mem_append_right _
          (List.mem_cons_of_mem _ (mem_ops_of_flatten r hrest.2 (by omega)))
    · -- the token stands in the left operand, or is the root
      cases c' with
      | nil =>
        rw [List.nil_append, List.cons.injEq] at hrest
        rw [ops, ← hrest.1]
        exact List.mem_append_right _ List.mem_cons_self
      | cons t C2 =>
        rw [List.cons_append, List.cons.injEq] at hrest
        rw [← hrest.1] at hlA
        exact List.mem_append_left _ (mem_ops_of_flatten l hlA hodd)

/-- The root level is the level of one of the tree's operators. -/
theorem rootPrec_mem : ∀ {T : OpTree} {p : Nat}, T.rootPrec = some p →
    ∃ o ∈ T.ops, precedence o.kind = p
  | leaf _, _, h => by cases h
  | node op _ _, _, h => ⟨op, List.mem_append_right _ List.mem_cons_self, Option.some.inj h⟩

/-- In a well-precedenced tree with an operator `o`, the root binds no tighter than `o`. -/
theorem rootPrec_le : ∀ {T : OpTree} {o : Token}, T.WellPrec → o ∈ T.ops →
    ∃ p, T.rootPrec = some p ∧ p ≤ precedence o.kind
  | leaf _, _, _, ho => by cases ho
  | node op l r, o, ⟨_, _, hle, _⟩, ho => by
    refine ⟨precedence op.kind, rfl, ?_⟩
    rcases List.mem_append.1 ho with hl | hor
    · exact hle o (List.mem_append_left _ hl)
    · rcases List.mem_cons.1 hor with rfl | hr
      · exact le_rfl
      · exact hle o (List.mem_append_right _ hr)

/-! ## At most one well-precedenced tree -/

/-- Two well-precedenced trees that read alike split at the same operator: an earlier split
would put the second root inside the first right operand and the first root inside the second
left operand, so both roots are of one level, which associativity forbids. -/
theorem not_lt_left_length {o o' : Token} {l r l' r' : OpTree} (hT : (node o l r).WellPrec)
    (hT' : (node o' l' r').WellPrec)
    (heq : l.flatten ++ o :: r.flatten = l'.flatten ++ o' :: r'.flatten) :
    ¬l.flatten.length < l'.flatten.length := by
  intro hlt
  obtain ⟨hl, hr, hle, hassoc⟩ := hT
  obtain ⟨hl', hr', hle', hassoc'⟩ := hT'
  -- the first root stands in the second left operand, the second root in the first right one
  obtain ⟨C, hl'C, hrC⟩ :
      ∃ C, l'.flatten = l.flatten ++ o :: C ∧ r.flatten = C ++ o' :: r'.flatten := by
    rcases List.append_eq_append_iff.1 heq with ⟨a', hA, hrest⟩ | ⟨c', hlA, _⟩
    · cases a' with
      | nil => simp [hA] at hlt
      | cons t C =>
        rw [List.cons_append, List.cons.injEq] at hrest
        exact ⟨C, hrest.1 ▸ hA, hrest.2⟩
    · have := congrArg List.length hlA
      rw [List.length_append] at this
      omega
  have hodd := flatten_length_odd l
  have hodd' := flatten_length_odd l'
  have hCodd : C.length % 2 = 1 := by
    have := congrArg List.length hl'C
    simp only [List.length_append, List.length_cons] at this
    omega
  have ho : o ∈ l'.ops := mem_ops_of_flatten l' hl'C hodd
  have ho' : o' ∈ r.ops := mem_ops_of_flatten r hrC hCodd
  have hpp' : precedence o.kind ≤ precedence o'.kind := hle o' (List.mem_append_right _ ho')
  have hp'p : precedence o'.kind ≤ precedence o.kind := hle' o (List.mem_append_left _ ho)
  by_cases hasg : (assignOp? o.kind).isSome
  · -- two assignments: the first one stands at the root of the second left operand
    have hasg' : (assignOp? o'.kind).isSome := by
      rw [assignOp?_isSome_iff] at hasg ⊢
      omega
    rw [if_pos hasg'] at hassoc'
    obtain ⟨q, hq, hqle⟩ := rootPrec_le hl' ho
    obtain ⟨u, hu, hqu⟩ := rootPrec_mem hq
    have := hle' u (List.mem_append_left _ hu)
    exact hassoc' (by rw [hq]; congr 1; omega)
  · -- two binary operators of one level: the second one stands at the root of the first right
    -- operand
    rw [if_neg hasg] at hassoc
    obtain ⟨q, hq, hqle⟩ := rootPrec_le hr ho'
    obtain ⟨u, hu, hqu⟩ := rootPrec_mem hq
    have := hle u (List.mem_append_right _ hu)
    exact hassoc (by rw [hq]; congr 1; omega)

/-- A sequence is read by at most one well-precedenced tree. -/
theorem eq_of_flatten_eq : ∀ {T T' : OpTree}, T.WellPrec → T'.WellPrec →
    T.flatten = T'.flatten → T = T'
  | leaf x, leaf x', _, _, h => by
    rw [flatten, flatten, List.cons.injEq] at h
    rw [h.1]
  | leaf _, node _ l' r', _, _, h => by
    have hlen := congrArg List.length h
    have := flatten_length_odd l'
    simp only [flatten, List.length_cons, List.length_nil, List.length_append] at hlen
    omega
  | node _ l r, leaf _, _, _, h => by
    have hlen := congrArg List.length h
    have := flatten_length_odd l
    simp only [flatten, List.length_cons, List.length_nil, List.length_append] at hlen
    omega
  | node o l r, node o' l' r', hT, hT', h => by
    have hlen : l.flatten.length = l'.flatten.length :=
      Nat.le_antisymm (Nat.not_lt.1 (not_lt_left_length hT' hT h.symm))
        (Nat.not_lt.1 (not_lt_left_length hT hT' h))
    obtain ⟨hl, hrest⟩ := List.append_inj h hlen
    rw [List.cons.injEq] at hrest
    rw [hrest.1, eq_of_flatten_eq hT.1 hT'.1 hl, eq_of_flatten_eq hT.2.1 hT'.2.1 hrest.2]

end OpTree

/-! ## Reading names and operators -/

/-- The operators, each followed by a name, after the first name of `x0 op1 x1 … opn xn`. -/
inductive OpChain : List Token → Prop
  | nil : OpChain []
  | cons {op x : Token} {rest : List Token} : isInfixOp op.kind = true → x.kind = .identifier →
      OpChain rest → OpChain (op :: x :: rest)

/-- The tokens of a chain are all valid: names and infix operators. -/
theorem OpChain.valid {ts : List Token} (h : OpChain ts) : ∀ t ∈ ts, t.kind ≠ .invalid := by
  induction h with
  | nil => simp
  | cons hop hx _ ih =>
    intro t ht
    rcases List.mem_cons.1 ht with rfl | ht
    · intro hinv
      simp [hinv, isInfixOp, assignOp?, binaryOp?] at hop
    rcases List.mem_cons.1 ht with rfl | ht
    · rw [hx]
      decide
    · exact ih t ht

theorem OpChain.head_infix {ts : List Token} (h : OpChain ts) : ∀ o ∈ ts.head?,
    isInfixOp o.kind = true := by
  cases h with
  | nil => simp
  | cons hop _ _ => simpa using hop

section Steps

variable {n m : Nat} {s : State}

/-- The tokens ahead of the cursor are `ts`, then the end of file. -/
def State.Ahead (s : State) (ts : List Token) : Prop :=
  ∃ e : Token, e.kind = .eof ∧ s.tokens.toList.drop s.pos = ts ++ [e]

theorem State.Ahead.cons {t : Token} {ts : List Token} (h : s.Ahead (t :: ts)) :
    s.cur = t ∧ s.pos < s.tokens.size ∧ State.Ahead { s with pos := s.pos + 1 } ts := by
  obtain ⟨e, he, hdrop⟩ := h
  have hpos : s.pos < s.tokens.size := by
    have := congrArg List.length hdrop
    simp only [List.length_drop, Array.length_toList, List.length_append, List.length_cons] at this
    omega
  refine ⟨?_, hpos, e, he, ?_⟩
  · have hget := congrArg (·[0]?) hdrop
    simp only [List.getElem?_drop, Nat.add_zero, Array.getElem?_toList, List.cons_append,
      List.getElem?_cons_zero] at hget
    rw [State.cur, Nat.min_eq_left (by omega), Array.getD_eq_getD_getElem?, hget, Option.getD_some]
  · rw [← List.drop_drop, hdrop]
    rfl

theorem State.Ahead.eof (h : s.Ahead []) : s.cur.kind = .eof := by
  obtain ⟨e, he, hdrop⟩ := h
  have hpos : s.pos + 1 = s.tokens.size := by
    have := congrArg List.length hdrop
    simp only [List.length_drop, Array.length_toList, List.length_append, List.length_cons,
      List.length_nil] at this
    omega
  have hget := congrArg (·[0]?) hdrop
  simp only [List.getElem?_drop, Nat.add_zero, Array.getElem?_toList, List.nil_append,
    List.getElem?_cons_zero] at hget
  rw [State.cur, Nat.min_eq_left (by omega), Array.getD_eq_getD_getElem?, hget, Option.getD_some,
    he]

theorem State.Ahead.skip {A B : List Token} (h : s.Ahead (A ++ B)) :
    State.Ahead { s with pos := s.pos + A.length } B := by
  obtain ⟨e, he, hdrop⟩ := h
  refine ⟨e, he, ?_⟩
  show s.tokens.toList.drop (s.pos + A.length) = B ++ [e]
  rw [← List.drop_drop, hdrop, List.append_assoc, List.drop_left]

/-- Before a chain of operators there is no call, index or member access. -/
theorem State.Ahead.plain {ts : List Token} (h : s.Ahead ts) (hts : OpChain ts) :
    s.cur.kind ≠ .lParen ∧ s.cur.kind ≠ .lBracket ∧ s.cur.kind ≠ .dot ∧
      s.cur.kind ≠ .safeDot := by
  cases hts with
  | nil => simp [h.eof]
  | cons hop _ _ =>
    obtain ⟨-, -, -, h1, h2, h3, h4, -⟩ := infix_kind hop
    rw [h.cons.1]
    exact ⟨h1, h2, h3, h4⟩

/-- With no call, index or member access ahead, an expression has no trailers. -/
theorem exec_trailers_plain {e : Expr} (h1 : s.cur.kind ≠ .lParen) (h2 : s.cur.kind ≠ .lBracket)
    (h3 : s.cur.kind ≠ .dot) (h4 : s.cur.kind ≠ .safeDot) :
    exec (trailers (n + 1) e) s = (.ok e, s) := by
  simp [trailers, exec_bind, exec_peek, exec_previous, exec_check, TokenKind.beq_eq_false.2 h1,
    TokenKind.beq_eq_false.2 h2, TokenKind.beq_eq_false.2 h3, TokenKind.beq_eq_false.2 h4]

/-- A name is read as itself. -/
theorem exec_primary_name (hk : s.cur.kind = .identifier) (hpos : s.pos < s.tokens.size) :
    exec (primary (n + 1)) s =
      (.ok (.mk (.ident s.cur.lexeme) s.cur.span), { s with pos := s.pos + 1 }) := by
  unfold primary
  rw [exec_bind, exec_peek]
  dsimp only
  rw [exec_bind, exec_peek]
  dsimp only
  simp only [hk]
  rw [exec_bind, exec_advance_eq hpos (by simp [hk]) (by simp [hk]) (by simp [hk])]
  rfl

/-- A name with no trailers after it is read as itself. -/
theorem exec_unary_name (hk : s.cur.kind = .identifier) (hpos : s.pos < s.tokens.size)
    (h1 : (State.cur { s with pos := s.pos + 1 }).kind ≠ .lParen)
    (h2 : (State.cur { s with pos := s.pos + 1 }).kind ≠ .lBracket)
    (h3 : (State.cur { s with pos := s.pos + 1 }).kind ≠ .dot)
    (h4 : (State.cur { s with pos := s.pos + 1 }).kind ≠ .safeDot) :
    exec (unary (n + 2)) s =
      (.ok (.mk (.ident s.cur.lexeme) s.cur.span), { s with pos := s.pos + 1 }) := by
  rw [unary]
  simp only [exec_bind, exec_peek, hk]
  rw [exec_primary_name hk hpos]
  exact exec_trailers_plain h1 h2 h3 h4

/-- An operator that binds no tighter than the bound, or the end of file, ends the loop. -/
theorem exec_infixLoop_stop {left : Expr} (h : precedence s.cur.kind ≤ m) :
    exec (infixLoop (n + 1) m left) s = (.ok left, s) := by
  simp [infixLoop, exec_bind, exec_peek, h]

/-- An operator that binds tighter than the bound is moved past, its right operand read above
`rightBound`, and the loop goes on with the node of the two. -/
theorem exec_infixLoop_step {left : Expr} (hpos : s.pos < s.tokens.size)
    (hop : isInfixOp s.cur.kind = true) (hm : m < precedence s.cur.kind) :
    exec (infixLoop (n + 1) m left) s =
      exec (exprAbove n (rightBound s.cur.kind) >>= fun right =>
        infixLoop n m (infixExpr s.cur.kind left right)) { s with pos := s.pos + 1 } := by
  obtain ⟨he, hlb, hrb, -, -, -, -, hisas⟩ := infix_kind hop
  have hadv := exec_advance_eq hpos he hlb hrb
  rw [infixLoop, exec_bind, exec_peek]
  dsimp only
  rw [if_neg (by omega)]
  rcases ha : assignOp? s.cur.kind with _ | op
  · -- a binary operator: its right operand is read above its own level
    obtain ⟨op, hb⟩ : ∃ op, binaryOp? s.cur.kind = some op := by
      simpa [isInfixOp, ha, Option.isSome_iff_exists] using hop
    simp only [hisas, Bool.false_eq_true, if_false, hb]
    rw [exec_bind, hadv]
    simp only [rightBound, ha, Option.isSome_none, Bool.false_eq_true, if_false, infixExpr, hb]
  · -- an assignment: its right operand is read above the level below
    simp only
    rw [exec_bind, hadv]
    simp only [rightBound, ha, Option.isSome_some, if_true, infixExpr]

end Steps

/-! ## The climbing invariant -/

namespace OpTree

/-- A left operand fits before an operator of level `p` when all its operators bind at least as
tightly and, before an assignment, its root is no assignment. -/
def Fits (p : Nat) (T : OpTree) : Prop :=
  (∀ o ∈ T.ops, p ≤ precedence o.kind) ∧ (p = 1 → T.rootPrec ≠ some 1)

/-- A climb at bound `m` that built `T` and stopped before `rest`: `T` is well-precedenced, its
operators bind tighter than `m`, and `rest` is a chain whose first operator binds no tighter. -/
structure Climbed (m : Nat) (T : OpTree) (rest : List Token) : Prop where
  wellPrec : T.WellPrec
  above : ∀ o ∈ T.ops, m < precedence o.kind
  chain : OpChain rest
  stop : ∀ o ∈ rest.head?, precedence o.kind ≤ m

theorem fits_leaf (p : Nat) (x : Token) : (leaf x).Fits p := by
  refine ⟨fun o ho => ?_, fun _ h => ?_⟩
  · simp [ops] at ho
  · simp [rootPrec] at h

variable {op : Token} {l r : OpTree}

/-- A fitting left operand and a right operand whose operators bind tighter than the operator's
bound make a well-precedenced node. -/
theorem wellPrec_node (hl : l.WellPrec) (hr : r.WellPrec) (hfit : l.Fits (precedence op.kind))
    (habove : ∀ o ∈ r.ops, rightBound op.kind < precedence o.kind) :
    (node op l r).WellPrec := by
  refine ⟨hl, hr, fun o ho => ?_, ?_⟩
  · rcases List.mem_append.1 ho with ho | ho
    · exact hfit.1 o ho
    · exact precedence_le_of_rightBound_lt (habove o ho)
  · split_ifs with hasg
    · -- an assignment: the left operand's root is no assignment
      rw [(assignOp?_isSome_iff _).1 hasg]
      exact hfit.2 ((assignOp?_isSome_iff _).1 hasg)
    · -- a binary operator: the right operand's operators all bind tighter
      intro hroot
      obtain ⟨o, ho, hp⟩ := rootPrec_mem hroot
      have := habove o ho
      rw [rightBound, if_neg hasg] at this
      omega

/-- The node's operators bind tighter than a bound its left operand and operator do, since the
right operand's bound is at least the operator's level less one. -/
theorem above_node {m : Nat} (hl : ∀ o ∈ l.ops, m < precedence o.kind)
    (hop : m < precedence op.kind) (hr : ∀ o ∈ r.ops, rightBound op.kind < precedence o.kind) :
    ∀ o ∈ (node op l r).ops, m < precedence o.kind := by
  intro o ho
  rcases List.mem_append.1 ho with ho | ho
  · exact hl o ho
  · rcases List.mem_cons.1 ho with rfl | ho
    · exact hop
    · exact Nat.lt_of_lt_of_le hop (precedence_le_of_rightBound_lt (hr o ho))

/-- The node fits before the operator its right operand stopped at: that operator binds no
tighter than the node's operator, which is then binary, since an assignment's right operand
reads every operator. -/
theorem fits_node {p : Nat} (hfit : l.Fits (precedence op.kind))
    (hr : ∀ o ∈ r.ops, rightBound op.kind < precedence o.kind) (hp : p ≤ rightBound op.kind)
    (hp1 : 1 ≤ p) : (node op l r).Fits p := by
  have hbin : ¬(assignOp? op.kind).isSome := by
    intro hasg
    rw [rightBound, if_pos hasg, (assignOp?_isSome_iff _).1 hasg] at hp
    omega
  rw [rightBound, if_neg hbin] at hp hr
  refine ⟨fun o ho => ?_, fun h1 hroot => ?_⟩
  · rcases List.mem_append.1 ho with ho | ho
    · exact hp.trans (hfit.1 o ho)
    · rcases List.mem_cons.1 ho with rfl | ho
      · exact hp
      · exact hp.trans (Nat.le_of_lt (hr o ho))
  · have hprec : precedence op.kind = 1 := by
      simp only [rootPrec, Option.some.injEq] at hroot
      exact hroot
    exact hbin ((assignOp?_isSome_iff _).2 hprec)

end OpTree

/-! ## The two functions climb -/

open OpTree

/-- What the two functions of precedence climbing do with fuel `n` over a chain of names and
infix operators: `exprAbove` reads a name and the operators after it that bind tighter than its
bound, and `infixLoop` goes on from a left operand that fits before the next operator. Each
builds the well-precedenced tree of what it read and stops at the first operator not above its
bound. -/
structure Climbs (n : Nat) : Prop where
  exprAbove : ∀ {m : Nat} {s : State} {x : Token} {ts : List Token}, s.Ahead (x :: ts) →
    x.kind = .identifier → OpChain ts → ts.length + 3 ≤ n →
    ∃ (T : OpTree) (rest : List Token), x :: ts = T.flatten ++ rest ∧ T.Climbed m rest ∧
      exec (exprAbove n m) s = (.ok T.toExpr, { s with pos := s.pos + T.flatten.length })
  infixLoop : ∀ {m : Nat} {s : State} {L : OpTree} {ts : List Token}, s.Ahead ts →
    OpChain ts →
    ts.length + 2 ≤ n → L.WellPrec → (∀ o ∈ L.ops, m < precedence o.kind) →
    (∀ o ∈ ts.head?, L.Fits (precedence o.kind)) →
    ∃ (T : OpTree) (used rest : List Token), ts = used ++ rest ∧
      T.flatten = L.flatten ++ used ∧ T.Climbed m rest ∧
      exec (infixLoop n m L.toExpr) s = (.ok T.toExpr, { s with pos := s.pos + used.length })

/-- The loop at the end of the chain, or at an operator not above its bound, stops at once. -/
theorem infixLoop_stops {n m : Nat} {s : State} {L : OpTree} {ts : List Token} (hs : s.Ahead ts)
    (hts : OpChain ts) (hL : L.WellPrec) (habove : ∀ o ∈ L.ops, m < precedence o.kind)
    (hstop : ∀ o ∈ ts.head?, precedence o.kind ≤ m) :
    ∃ (T : OpTree) (used rest : List Token), ts = used ++ rest ∧
      T.flatten = L.flatten ++ used ∧ T.Climbed m rest ∧
      exec (infixLoop (n + 1) m L.toExpr) s =
        (.ok T.toExpr, { s with pos := s.pos + used.length }) := by
  refine ⟨L, [], ts, rfl, (List.append_nil _).symm, ⟨hL, habove, hts, hstop⟩, ?_⟩
  apply exec_infixLoop_stop
  cases hts with
  | nil => simp [hs.eof, precedence]
  | cons => exact hstop _ (by rw [hs.cons.1]; rfl)

theorem climbs : ∀ n, Climbs n
  | 0 => ⟨fun _ _ _ h => by omega, fun _ _ h => by omega⟩
  | n + 1 => by
    have ih := climbs n
    refine ⟨fun {m s x ts} hs hx hts hlen => ?_,
      fun {m s L ts} hs hts hlen hL habove hfit => ?_⟩
    · -- a name, then the loop from it
      obtain ⟨k, rfl⟩ : ∃ k, n = k + 2 := ⟨n - 2, by omega⟩
      obtain ⟨hcur, hpos, hs1⟩ := hs.cons
      obtain ⟨h1, h2, h3, h4⟩ := hs1.plain hts
      obtain ⟨T, used, rest, hts', hT, hc, hloop⟩ := ih.infixLoop (L := leaf x) hs1 hts
        (by omega) trivial (fun _ h => by cases h) (fun o _ => fits_leaf _ x)
      refine ⟨T, rest, by rw [hT, hts']; rfl, hc, ?_⟩
      rw [exprAbove, exec_bind, exec_unary_name (hcur ▸ hx) hpos h1 h2 h3 h4, hcur]
      rw [show (Expr.mk (.ident x.lexeme) x.span) = (leaf x).toExpr from rfl]
      dsimp only
      rw [hloop, hT]
      simp only [flatten, List.singleton_append, List.length_cons]
      congr 2
      omega
    · cases hts with
      | nil => exact infixLoop_stops hs .nil hL habove (by simp)
      | @cons op x more hop hx hmore =>
        obtain ⟨hcur, hpos, hs1⟩ := hs.cons
        by_cases hle : precedence op.kind ≤ m
        · exact infixLoop_stops hs (.cons hop hx hmore) hL habove (by simpa using hle)
        -- the operator binds tighter: its right operand is read above its bound
        obtain ⟨R, rest1, hR, hcR, hright⟩ :=
          ih.exprAbove (m := rightBound op.kind) hs1 hx hmore
          (by simp only [List.length_cons] at hlen; omega)
        have hs2 := (hR ▸ hs1).skip
        have hfit1 := hfit op (by simp)
        obtain ⟨T, used, rest, hrest1, hT, hc, hloop⟩ := ih.infixLoop (L := node op L R) hs2
          hcR.chain (by
            have hRlen := congrArg List.length hR
            have hodd := flatten_length_odd R
            simp only [List.length_cons, List.length_append] at hRlen hlen
            omega)
          (wellPrec_node hL hcR.wellPrec hfit1 hcR.above)
          (above_node habove (by omega) hcR.above)
          (fun o2 ho2 => fits_node hfit1 hcR.above (hcR.stop o2 ho2)
            (one_le_precedence (hcR.chain.head_infix o2 ho2)))
        refine ⟨T, op :: R.flatten ++ used, rest, ?_, ?_, hc, ?_⟩
        · rw [hR, hrest1]
          simp only [List.cons_append, List.append_assoc]
        · rw [hT, flatten, List.append_assoc, List.cons_append]
        rw [exec_infixLoop_step hpos (hcur ▸ hop) (hcur ▸ Nat.lt_of_not_le hle), hcur,
          exec_bind, hright]
        dsimp only
        rw [show infixExpr op.kind L.toExpr R.toExpr = (node op L R).toExpr from rfl, hloop]
        simp only [List.length_append, List.length_cons]
        congr 2
        omega

/-- A chain ends where its first operator binds no tighter than the lowest bound: at its end. -/
theorem OpChain.eq_nil_of_stop {ts : List Token} (h : OpChain ts)
    (hstop : ∀ o ∈ ts.head?, precedence o.kind ≤ 0) : ts = [] := by
  cases h with
  | nil => rfl
  | cons hop _ _ =>
    have := hstop _ rfl
    have := one_le_precedence hop
    omega

/-- A sequence `x0 op1 x1 … opn xn` of names and infix operators, then the end of file, is parsed
without errors into the expression of the one well-precedenced tree that reads as the sequence:
every operator binds no tighter than the operators inside its operands, binary operators of one
level associate to the left and assignments to the right. -/
theorem parseExpr_infix_chain {x e : Token} {ts : List Token} (hx : x.kind = .identifier)
    (hts : OpChain ts) (he : e.kind = .eof) :
    ∃ T : OpTree, T.flatten = x :: ts ∧ T.WellPrec ∧
      parseExpr (x :: ts ++ [e]).toArray = (.ok T.toExpr, []) ∧
      ∀ T' : OpTree, T'.flatten = x :: ts → T'.WellPrec → T' = T := by
  have hvalid : ∀ t ∈ (x :: ts ++ [e]).toArray, t.kind ≠ .invalid := by
    intro t ht
    rcases List.mem_append.1 (List.mem_toArray.1 ht) with ht | ht
    · rcases List.mem_cons.1 ht with rfl | ht
      · rw [hx]
        decide
      · exact hts.valid t ht
    · rw [List.mem_singleton.1 ht, he]
      decide
  have hinit := init_valid hvalid (by rw [List.back?_toArray, List.getLast?_concat]) he
  have hs : State.Ahead ⟨(x :: ts ++ [e]).toArray, 0, #[], 0, 0⟩ (x :: ts) :=
    ⟨e, he, by simp⟩
  -- the fuel of an expression is far more than the chain needs
  obtain ⟨k, hk⟩ : ∃ k, fuelFor (x :: ts ++ [e]).toArray = k + 1 ∧ ts.length + 3 ≤ k := by
    refine ⟨fuelFor (x :: ts ++ [e]).toArray - 1, ?_, ?_⟩ <;>
      simp only [fuelFor, List.size_toArray, List.length_append, List.length_cons] <;> omega
  obtain ⟨T, rest, hflat, hc, hexec⟩ := (climbs k).exprAbove (m := 0) hs hx hts hk.2
  have hrest := hc.chain.eq_nil_of_stop hc.stop
  rw [hrest, List.append_nil] at hflat
  refine ⟨T, hflat.symm, hc.wellPrec, ?_, fun T' hT' hwp => eq_of_flatten_eq hwp hc.wellPrec
    (hT'.trans hflat)⟩
  rw [parseExpr_eq_exec, hinit]
  simp only [hk.1, expr, hexec]

/-- `a = b + c * d` is read as its one well-precedenced tree. -/
theorem assignment_of_sum_parses :
    (⟨.identifier, {}, "a", .none⟩ : Token).kind = .identifier ∧
    OpChain [⟨.assign, {}, "=", .none⟩, ⟨.identifier, {}, "b", .none⟩, ⟨.plus, {}, "+", .none⟩,
      ⟨.identifier, {}, "c", .none⟩, ⟨.star, {}, "*", .none⟩, ⟨.identifier, {}, "d", .none⟩] ∧
    (⟨.eof, {}, "", .none⟩ : Token).kind = .eof ∧
    ∃ T : OpTree, T.flatten = ⟨.identifier, {}, "a", .none⟩ ::
        [⟨.assign, {}, "=", .none⟩, ⟨.identifier, {}, "b", .none⟩, ⟨.plus, {}, "+", .none⟩,
          ⟨.identifier, {}, "c", .none⟩, ⟨.star, {}, "*", .none⟩, ⟨.identifier, {}, "d", .none⟩] ∧
      T.WellPrec ∧
      parseExpr ((⟨.identifier, {}, "a", .none⟩ ::
        [⟨.assign, {}, "=", .none⟩, ⟨.identifier, {}, "b", .none⟩, ⟨.plus, {}, "+", .none⟩,
          ⟨.identifier, {}, "c", .none⟩, ⟨.star, {}, "*", .none⟩, ⟨.identifier, {}, "d", .none⟩] ++
        [⟨.eof, {}, "", .none⟩] : List Token)).toArray = (.ok T.toExpr, []) ∧
      ∀ T' : OpTree, T'.flatten = ⟨.identifier, {}, "a", .none⟩ ::
          [⟨.assign, {}, "=", .none⟩, ⟨.identifier, {}, "b", .none⟩, ⟨.plus, {}, "+", .none⟩,
            ⟨.identifier, {}, "c", .none⟩, ⟨.star, {}, "*", .none⟩,
            ⟨.identifier, {}, "d", .none⟩] →
        T'.WellPrec → T' = T := by
  have hchain : OpChain [⟨.assign, {}, "=", .none⟩, ⟨.identifier, {}, "b", .none⟩,
      ⟨.plus, {}, "+", .none⟩, ⟨.identifier, {}, "c", .none⟩, ⟨.star, {}, "*", .none⟩,
      ⟨.identifier, {}, "d", .none⟩] :=
    .cons rfl rfl (.cons rfl rfl (.cons rfl rfl .nil))
  exact ⟨rfl, hchain, rfl, parseExpr_infix_chain rfl hchain rfl⟩

end AmLang.Parser
