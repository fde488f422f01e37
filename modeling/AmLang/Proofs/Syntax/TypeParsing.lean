import AmLang.Proofs.Syntax.IdentifierTokens
import AmLang.Proofs.Syntax.PrecedenceClimbing
import AmLang.Proofs.Syntax.ParserLoops
/-!
# Reading type annotations

A type annotation is written as tokens: a dotted name with its arguments between `<` and `>`, or
a function type `(…) -> …`, each followed by any number of `[]` and `?`. The `?` of a nullable
name or array is its last token; a function type takes no suffix of its own, since its result
type takes every one after it. `TypeExpr.shapes` lists the kinds and texts of these tokens.

The parser reads exactly these types. From tokens of the shapes of a `Parsable` type, then the
shapes of more suffixes, then a token that ends a type, `type` reads the type with the suffixes
applied (`readsType`). Conversely every type it reads from tokens the lexer made is
`Parsable`, and it stops where no suffix follows (`typesSound`). Types are compared with their
spans cleared (`TypeExpr.erase`).

## Main results

* `Parsable`, `TypeExpr.shapes` — the types the parser builds, and their tokens.
* `readsType` — the parser reads a parsable type back from its tokens.
* `typesSound` — what the parser reads from lexed tokens is parsable.
-/

namespace AmLang

/-- What the parser reads of a token: its kind and its text. -/
def Token.shape (t : Token) : TokenKind × String := (t.kind, t.lexeme)

namespace TypeExpr

mutual

/-- The annotation with every span cleared. -/
def erase : TypeExpr → TypeExpr
  | .named p args _ n => .named p (eraseAll args) {} n
  | .array e _ n => .array (erase e) {} n
  | .func ps r _ n => .func (eraseAll ps) (erase r) {} n

def eraseAll : List TypeExpr → List TypeExpr
  | [] => []
  | t :: ts => erase t :: eraseAll ts

end

theorem eraseAll_eq_map : ∀ ts : List TypeExpr, eraseAll ts = ts.map erase
  | [] => rfl
  | t :: ts => by rw [eraseAll, eraseAll_eq_map ts, List.map_cons]

/-- Whether the annotation is a function type. -/
def isFunc : TypeExpr → Bool
  | .func .. => true
  | _ => false

/-- The types the parser builds: dotted names of identifiers with their arguments, arrays, and
function types. A function type is never nullable and never the element of an array: its
result type takes every `[]` and `?` after it. -/
inductive Parsable : TypeExpr → Prop
  | named {p : List String} {args : List TypeExpr} {sp : Span} {n : Bool} :
      p ≠ [] → (∀ x ∈ p, Lexer.IsName x) → (∀ a ∈ args, Parsable a) →
        Parsable (.named p args sp n)
  | array {e : TypeExpr} {sp : Span} {n : Bool} :
      Parsable e → e.isFunc = false → Parsable (.array e sp n)
  | func {ps : List TypeExpr} {r : TypeExpr} {sp : Span} :
      (∀ a ∈ ps, Parsable a) → Parsable r → Parsable (.func ps r sp false)

/-- A `[]` or `?` after a type. -/
inductive Suffix where
  | brackets
  | question
deriving DecidableEq

/-- The type a suffix makes of `t`, with no span. -/
def Suffix.apply (t : TypeExpr) : Suffix → TypeExpr
  | .brackets => .array t {} false
  | .question => t.markNullable {}

/-- The type suffixes make of `t`, the first innermost. -/
def applyAll (t : TypeExpr) (sfx : List Suffix) : TypeExpr := sfx.foldl Suffix.apply t

/-- The tokens of a suffix. -/
def Suffix.shapes : Suffix → List (TokenKind × String)
  | .brackets => [(.lBracket, "["), (.rBracket, "]")]
  | .question => [(.question, "?")]

/-- The tokens of a dotted name. -/
def pathShapes : List String → List (TokenKind × String)
  | [] => []
  | x :: xs => (.identifier, x) :: xs.flatMap fun y => [(.dot, "."), (.identifier, y)]

/-- The `?` of a nullable annotation. -/
def nullShapes (n : Bool) : List Suffix := if n then [.question] else []

mutual

/-- The tokens of the annotation as it is written. -/
def shapes : TypeExpr → List (TokenKind × String)
  | .named p args _ n =>
    pathShapes p ++ (if args.isEmpty then [] else (.lt, "<") :: shapesAll args ++ [(.gt, ">")]) ++
      (nullShapes n).flatMap Suffix.shapes
  | .array e _ n =>
    shapes e ++ Suffix.shapes .brackets ++ (nullShapes n).flatMap Suffix.shapes
  | .func ps r _ n =>
    (.lParen, "(") :: shapesAll ps ++ [(.rParen, ")"), (.arrow, "->")] ++ shapes r ++
      (nullShapes n).flatMap Suffix.shapes

/-- The tokens of annotations separated by commas. -/
def shapesAll : List TypeExpr → List (TokenKind × String)
  | [] => []
  | t :: ts => shapes t ++ (if ts.isEmpty then [] else (.comma, ",") :: shapesAll ts)

end

theorem erase_markNullable (t : TypeExpr) (sp : Span) :
    (t.markNullable sp).erase = t.erase.markNullable {} := by
  cases t <;> rfl

theorem applyAll_cons (t : TypeExpr) (x : Suffix) (sfx : List Suffix) :
    t.applyAll (x :: sfx) = (x.apply t).applyAll sfx := rfl

theorem applyAll_append (t : TypeExpr) (a b : List Suffix) :
    t.applyAll (a ++ b) = (t.applyAll a).applyAll b := List.foldl_append

/-- The tokens of a parsable type start with a name or a `(`. -/
theorem Parsable.shapes_head {t : TypeExpr} (h : Parsable t) :
    ∃ x xs, t.shapes = x :: xs ∧ (x.1 = .identifier ∨ x.1 = .lParen) := by
  induction h with
  | @named p args sp n hp _ _ _ =>
    obtain ⟨y, ys, rfl⟩ := List.exists_cons_of_ne_nil hp
    exact ⟨(.identifier, y), _, by rw [shapes, pathShapes, List.cons_append, List.cons_append],
      .inl rfl⟩
  | array _ _ ih =>
    obtain ⟨x, xs, hx, hk⟩ := ih
    exact ⟨x, _, by rw [shapes, hx, List.cons_append, List.cons_append], hk⟩
  | func _ _ _ _ =>
    exact ⟨(.lParen, "("), _, by simp only [shapes, List.cons_append]; rfl, .inr rfl⟩

end TypeExpr

namespace Parser

open TypeExpr

/-! ## Reading tokens -/

section Steps

variable {s : State}

/-- The state with the cursor moved on by `k` tokens. -/
def State.moved (s : State) (k : Nat) : State := { s with pos := s.pos + k }

@[simp] theorem State.moved_zero (s : State) : s.moved 0 = s := rfl

@[simp] theorem State.moved_moved (s : State) (a b : Nat) :
    (s.moved a).moved b = s.moved (a + b) := by
  simp only [State.moved, Nat.add_assoc]

theorem exec_checkNext (k : TokenKind) (s : State) :
    exec (checkNext k) s = (.ok ((s.moved 1).cur.kind == k), s) := rfl

/-- The kind at the cursor: the first token ahead, or the end of file. -/
theorem State.Ahead.kind_cur {ts : List Token} (h : s.Ahead ts) :
    s.cur.kind = (ts.head?.map Token.kind).getD .eof := by
  cases ts with
  | nil => exact h.eof
  | cons t ts => simp [h.cons.1]

theorem State.Ahead.cur_eq {t : Token} {ts : List Token} (h : s.Ahead (t :: ts)) : s.cur = t :=
  h.cons.1

theorem State.Ahead.tail {t : Token} {ts : List Token} (h : s.Ahead (t :: ts)) :
    (s.moved 1).Ahead ts :=
  h.cons.2.2

theorem State.Ahead.drop {A B : List Token} (h : s.Ahead (A ++ B)) : (s.moved A.length).Ahead B :=
  h.skip

/-- A token other than the end of file or a brace is moved past. -/
theorem State.Ahead.exec_advance {t : Token} {ts : List Token} (h : s.Ahead (t :: ts))
    (he : t.kind ≠ .eof) (hl : t.kind ≠ .lBrace) (hr : t.kind ≠ .rBrace) :
    exec advance s = (.ok t, s.moved 1) := by
  obtain ⟨hcur, hpos, -⟩ := h.cons
  rw [exec_advance_eq hpos (hcur ▸ he) (hcur ▸ hl) (hcur ▸ hr), hcur]
  rfl

/-- The cursor stands `ts.length + 1` tokens before the end of the array. -/
theorem State.Ahead.size_eq {ts : List Token} (h : s.Ahead ts) :
    s.tokens.size = s.pos + ts.length + 1 := by
  obtain ⟨e, -, hdrop⟩ := h
  have := congrArg List.length hdrop
  simp only [List.length_drop, Array.length_toList, List.length_append, List.length_singleton]
    at this
  have hpos : s.pos < s.tokens.size := by omega
  omega

theorem State.Ahead.exec_expect {t : Token} {ts : List Token} {k : TokenKind} {what : String}
    (h : s.Ahead (t :: ts)) (hk : t.kind = k) (he : k ≠ .eof) (hl : k ≠ .lBrace)
    (hr : k ≠ .rBrace) : exec (expect k what) s = (.ok t, s.moved 1) := by
  have hcheck : (s.cur.kind == k) = true := by rw [h.cur_eq, hk]; exact TokenKind.beq_eq_true.2 rfl
  simp only [expect, exec_bind, exec_check, hcheck, if_true]
  exact h.exec_advance (hk ▸ he) (hk ▸ hl) (hk ▸ hr)

theorem State.Ahead.exec_accept {t : Token} {ts : List Token} {k : TokenKind}
    (h : s.Ahead (t :: ts)) (hk : t.kind = k) (he : k ≠ .eof) (hl : k ≠ .lBrace)
    (hr : k ≠ .rBrace) : exec (accept k) s = (.ok true, s.moved 1) := by
  have hcheck : (s.cur.kind == k) = true := by rw [h.cur_eq, hk]; exact TokenKind.beq_eq_true.2 rfl
  simp only [accept, exec_bind, exec_check, hcheck, if_true]
  rw [h.exec_advance (hk ▸ he) (hk ▸ hl) (hk ▸ hr)]
  rfl

theorem exec_accept_of_ne {k : TokenKind} (h : s.cur.kind ≠ k) :
    exec (accept k) s = (.ok false, s) := by
  simp only [accept, exec_bind, exec_check, TokenKind.beq_eq_false.2 h, Bool.false_eq_true,
    if_false, exec_pure]

/-- A token seen to have a shape has its kind. -/
theorem kind_of_shape {t : Token} {k : TokenKind} {x : String} (h : t.shape = (k, x)) :
    t.kind = k := (Prod.mk.inj h).1

theorem lexeme_of_shape {t : Token} {k : TokenKind} {x : String} (h : t.shape = (k, x)) :
    t.lexeme = x := (Prod.mk.inj h).2

end Steps

/-! ## Dotted names -/

section Names

/-- The dots and names after the first part of a dotted name are read, up to a token that is
no dot. -/
theorem exec_pathRest {xs : List String} :
    ∀ {fuel : Nat} {s : State} {ts rest : List Token}, s.Ahead (ts ++ rest) →
      ts.map Token.shape = xs.flatMap (fun y => [(.dot, "."), (.identifier, y)]) →
      (∀ u ∈ rest.head?, u.kind ≠ .dot) → xs.length ≤ fuel →
      exec (pathRest fuel) s = (.ok xs, s.moved ts.length) := by
  induction xs with
  | nil =>
    intro fuel s ts rest hs hts hrest _
    rw [List.flatMap_nil, List.map_eq_nil_iff] at hts
    subst hts
    have hdot : (s.cur.kind == .dot) = false := by
      rw [TokenKind.beq_eq_false, hs.kind_cur]
      cases rest with
      | nil => decide
      | cons u rest => simpa using hrest u rfl
    cases fuel with
    | zero => rfl
    | succ fuel =>
      rw [pathRest]
      simp only [exec_bind, exec_check, exec_checkNext, hdot, Bool.false_and, Bool.false_eq_true,
        if_false, exec_pure, List.length_nil, State.moved_zero]
  | cons y ys ih =>
    intro fuel s ts rest hs hts hrest hfuel
    obtain ⟨d, ts₁, rfl, hd, hts₁⟩ := List.map_eq_cons_iff.1 hts
    obtain ⟨i, ts₂, rfl, hi, hts₂⟩ := List.map_eq_cons_iff.1 hts₁
    obtain ⟨fuel, rfl⟩ : ∃ f, fuel = f + 1 := ⟨fuel - 1, by simp at hfuel; omega⟩
    have hdk := kind_of_shape hd
    have hik := kind_of_shape hi
    have hs₁ := hs.tail
    have hnext := ih hs₁.tail hts₂ hrest (by simpa using hfuel)
    rw [pathRest]
    simp +decide only [exec_bind, exec_check, exec_checkNext, hs.cur_eq, hs₁.cur_eq, hdk, hik,
      if_true]
    rw [hs.exec_advance (by simp [hdk]) (by simp [hdk]) (by simp [hdk])]
    dsimp only
    rw [hs₁.exec_advance (by simp [hik]) (by simp [hik]) (by simp [hik])]
    dsimp only
    rw [State.moved_moved] at hnext ⊢
    rw [hnext]
    simp only [exec_pure, lexeme_of_shape hi, State.moved_moved, List.length_cons]
    congr 2
    omega

theorem length_dotShapes (xs : List String) :
    (xs.flatMap fun y => [((TokenKind.dot, ".") : TokenKind × String), (.identifier, y)]).length =
      2 * xs.length := by
  induction xs with
  | nil => rfl
  | cons y ys ih =>
    rw [List.flatMap_cons, List.length_append, ih]
    simp only [List.length_cons, List.length_nil]
    omega

/-- A dotted name is read, up to a token that is no dot. -/
theorem exec_path {p : List String} (hp : p ≠ []) {s : State} {ts rest : List Token}
    (hs : s.Ahead (ts ++ rest)) (hts : ts.map Token.shape = pathShapes p)
    (hrest : ∀ u ∈ rest.head?, u.kind ≠ .dot) : exec path s = (.ok p, s.moved ts.length) := by
  obtain ⟨x, xs, rfl⟩ := List.exists_cons_of_ne_nil hp
  obtain ⟨i, ts₁, rfl, hi, hts₁⟩ := List.map_eq_cons_iff.1 hts
  have hik := kind_of_shape hi
  have hsize := hs.size_eq
  -- the names after the first are fewer than the tokens left
  have hlen : xs.length ≤ ts₁.length := by
    have := congrArg List.length hts₁
    rw [List.length_map, length_dotShapes] at this
    omega
  have hrestExec := @exec_pathRest xs ((s.moved 1).tokens.size - (s.moved 1).pos + 1) _ _ _
    hs.tail hts₁ hrest (by simp only [State.moved]; simp at hsize; omega)
  simp only [path, exec_bind]
  rw [hs.exec_expect hik (by decide) (by decide) (by decide)]
  dsimp only
  rw [exec_remaining]
  dsimp only
  rw [hrestExec]
  simp only [exec_pure, lexeme_of_shape hi, State.moved_moved, List.length_cons, Nat.add_comm]

end Names

/-! ## Suffixes -/

/-- The tokens after a type end it: a comma, a `>`, a `)`, or the end of file. -/
def EndsType (rest : List Token) : Prop :=
  ∀ u ∈ rest.head?, u.kind = .comma ∨ u.kind = .gt ∨ u.kind = .rParen

theorem EndsType.kind_cur {s : State} {rest : List Token} (hs : s.Ahead rest) (h : EndsType rest) :
    s.cur.kind = .comma ∨ s.cur.kind = .gt ∨ s.cur.kind = .rParen ∨ s.cur.kind = .eof := by
  rw [hs.kind_cur]
  cases rest with
  | nil => simp
  | cons u rest =>
    rcases h u rfl with h | h | h <;> simp [h]

/-- The `[]` and `?` after a type are read, innermost first, up to a token that is neither. -/
theorem exec_typeSuffixes {sfx : List Suffix} :
    ∀ {n : Nat} {s : State} {ts rest : List Token} {start : Span} {b : TypeExpr},
      s.Ahead (ts ++ rest) → ts.map Token.shape = sfx.flatMap Suffix.shapes →
      (∀ u ∈ rest.head?, u.kind ≠ .question ∧ u.kind ≠ .lBracket) → sfx.length + 1 ≤ n →
      ∃ b', exec (typeSuffixes n start b) s = (.ok b', s.moved ts.length) ∧
        b'.erase = b.erase.applyAll sfx := by
  induction sfx with
  | nil =>
    intro n s ts rest start b hs hts hrest hn
    rw [List.flatMap_nil, List.map_eq_nil_iff] at hts
    subst hts
    obtain ⟨m, rfl⟩ : ∃ m, n = m + 1 := ⟨n - 1, by simp at hn; omega⟩
    -- neither suffix is ahead, so the type is returned as it is
    have hkind := hs.kind_cur
    have hq : s.cur.kind ≠ .question := by
      cases rest with
      | nil => rw [hkind]; decide
      | cons u rest => rw [hkind]; exact (hrest u rfl).1
    have hb : (s.cur.kind == .lBracket) = false := by
      rw [TokenKind.beq_eq_false]
      cases rest with
      | nil => rw [hkind]; decide
      | cons u rest => rw [hkind]; exact (hrest u rfl).2
    refine ⟨b, ?_, rfl⟩
    rw [typeSuffixes]
    simp only [exec_bind, exec_check, exec_checkNext, hb, Bool.false_and, Bool.false_eq_true,
      if_false]
    rw [exec_accept_of_ne hq]
    rfl
  | cons x sfx ih =>
    intro n s ts rest start b hs hts hrest hn
    obtain ⟨m, rfl⟩ : ∃ m, n = m + 1 := ⟨n - 1, by simp at hn; omega⟩
    cases x with
    | brackets =>
      obtain ⟨l, ts₁, rfl, hl, hts₁⟩ := List.map_eq_cons_iff.1 hts
      obtain ⟨r, ts₂, rfl, hr, hts₂⟩ := List.map_eq_cons_iff.1 hts₁
      have hlk := kind_of_shape hl
      have hrk := kind_of_shape hr
      have hs₁ := hs.tail
      -- `[` and `]` are moved past and the type made an array of it
      have hstep : ∃ sp, exec (typeSuffixes (m + 1) start b) s =
          exec (typeSuffixes m start (.array b sp false)) (s.moved 2) := by
        apply Exists.intro
        rw [typeSuffixes]
        simp +decide only [exec_bind, exec_check, exec_checkNext, hs.cur_eq, hs₁.cur_eq, hlk, hrk,
          if_true]
        rw [hs.exec_advance (by simp [hlk]) (by simp [hlk]) (by simp [hlk])]
        dsimp only
        rw [hs₁.exec_advance (by simp [hrk]) (by simp [hrk]) (by simp [hrk])]
        dsimp only
        rw [exec_spanFrom, State.moved_moved]
      obtain ⟨sp, hstep⟩ := hstep
      obtain ⟨b', hexec, herase⟩ := @ih m _ ts₂ _ start (.array b sp false)
        (by simpa using hs₁.tail) hts₂ hrest (by simp only [List.length_cons] at hn; omega)
      refine ⟨b', ?_, herase⟩
      rw [hstep, hexec, State.moved_moved, List.length_cons, List.length_cons, Nat.add_comm,
        Nat.add_assoc]
    | question =>
      obtain ⟨q, ts₁, rfl, hq, hts₁⟩ := List.map_eq_cons_iff.1 hts
      have hqk := kind_of_shape hq
      have hb : (s.cur.kind == .lBracket) = false := by
        rw [hs.cur_eq, hqk]
        decide
      -- `?` is moved past and the type made nullable
      have hstep : ∃ sp, exec (typeSuffixes (m + 1) start b) s =
          exec (typeSuffixes m start (b.markNullable sp)) (s.moved 1) := by
        apply Exists.intro
        rw [typeSuffixes]
        simp only [exec_bind, exec_check, exec_checkNext, hb, Bool.false_and, Bool.false_eq_true,
          if_false]
        rw [hs.exec_accept hqk (by decide) (by decide) (by decide)]
        dsimp only
        rw [if_pos rfl, exec_bind, exec_spanFrom]
      obtain ⟨sp, hstep⟩ := hstep
      obtain ⟨b', hexec, herase⟩ := @ih m _ ts₁ _ start (b.markNullable sp) hs.tail hts₁ hrest
        (by simp only [List.length_cons] at hn; omega)
      refine ⟨b', ?_, ?_⟩
      · rw [hstep, hexec, State.moved_moved, List.length_cons, Nat.add_comm]
      · rw [herase, erase_markNullable]
        rfl

/-! ## Types -/

/-- `type` reads `t` from its tokens, followed by the tokens of more suffixes and then by a token
that ends a type; a function type takes no more suffixes. -/
def ReadsType (t : TypeExpr) : Prop :=
  ∀ (sfx : List Suffix), (t.isFunc = true → sfx = []) →
    ∀ {n : Nat} {s : State} {ts rest : List Token},
      s.Ahead (ts ++ rest) → ts.map Token.shape = t.shapes ++ sfx.flatMap Suffix.shapes →
      EndsType rest → ts.length + 2 ≤ n →
      ∃ t', exec (type n) s = (.ok t', s.moved ts.length) ∧ t'.erase = t.erase.applyAll sfx

/-- Types separated by commas are read up to the `>` or `)` after the last. -/
theorem exec_typeList {args : List TypeExpr} (hargs : ∀ a ∈ args, ReadsType a) (hne : args ≠ []) :
    ∀ {n : Nat} {s : State} {ts rest : List Token}, s.Ahead (ts ++ rest) →
      ts.map Token.shape = shapesAll args → (∀ u ∈ rest.head?, u.kind = .gt ∨ u.kind = .rParen) →
      ts.length + 3 ≤ n →
      ∃ args', exec (typeList n) s = (.ok args', s.moved ts.length) ∧
        eraseAll args' = eraseAll args := by
  induction args with
  | nil => exact absurd rfl hne
  | cons a as ih =>
    intro n s ts rest hs hts hrest hn
    obtain ⟨k, rfl⟩ : ∃ k, n = k + 1 := ⟨n - 1, by omega⟩
    rw [shapesAll] at hts
    obtain ⟨ta, tb, rfl, hta, htb⟩ := List.map_eq_append_iff.1 hts
    rw [List.append_assoc] at hs
    have hends : EndsType (tb ++ rest) := by
      cases as with
      | nil =>
        rw [List.isEmpty_nil, if_pos rfl, List.map_eq_nil_iff] at htb
        subst htb
        intro u hu
        rcases hrest u hu with h | h <;> simp [h]
      | cons a' as' =>
        obtain ⟨c, tc, rfl, hc, -⟩ := List.map_eq_cons_iff.1 htb
        intro u hu
        simp only [List.cons_append, List.head?_cons, Option.mem_def, Option.some.injEq] at hu
        exact .inl (hu ▸ kind_of_shape hc)
    obtain ⟨a', hexec, herase⟩ := hargs a (List.mem_cons_self ..) [] (fun _ => rfl) (n := k) hs
      (by simpa using hta) hends (by simp only [List.length_append] at hn; omega)
    have hs₁ := hs.drop
    rw [typeList, exec_bind, hexec]
    dsimp only
    cases as with
    | nil =>
      rw [List.isEmpty_nil, if_pos rfl, List.map_eq_nil_iff] at htb
      subst htb
      -- the `>` or `)` after the last type: no comma
      have hk : (s.moved ta.length).cur.kind ≠ .comma := by
        rcases EndsType.kind_cur hs₁ (fun u hu => by
          rcases hrest u hu with h | h <;> simp [h]) with h | h | h | h
        · exact absurd h (by
            rw [hs₁.kind_cur]
            cases rest with
            | nil => decide
            | cons u rest => rcases hrest u rfl with h' | h' <;> simp [h'])
        all_goals rw [h]; decide
      rw [exec_bind, exec_accept_of_ne hk]
      refine ⟨[a'], by simp, ?_⟩
      simp [eraseAll, herase, applyAll]
    | cons a₂ as' =>
      simp only [List.isEmpty_cons, Bool.false_eq_true, if_false] at htb
      obtain ⟨c, tc, rfl, hc, htc⟩ := List.map_eq_cons_iff.1 htb
      have hck := kind_of_shape hc
      obtain ⟨as'', hexec', herase'⟩ := ih (fun a ha => hargs a (List.mem_cons_of_mem _ ha))
        (List.cons_ne_nil _ _) (n := k) (by simpa using hs₁.tail) htc hrest
        (by simp only [List.length_append, List.length_cons] at hn; omega)
      rw [exec_bind, hs₁.exec_accept hck (by decide) (by decide) (by decide)]
      dsimp only
      rw [if_pos rfl, exec_bind, State.moved_moved, hexec']
      refine ⟨a' :: as'', ?_, ?_⟩
      · simp only [exec_pure, State.moved_moved, List.length_append, List.length_cons]
        congr 2
        omega
      · simp [eraseAll, herase, herase', applyAll]

/-- A dotted name and its arguments are read, up to a token that is no dot and no `<`. -/
theorem exec_namedType {p : List String} {args : List TypeExpr} (hp : p ≠ [])
    (hargs : ∀ a ∈ args, ReadsType a) :
    ∀ {n : Nat} {s : State} {ts rest : List Token}, s.Ahead (ts ++ rest) →
      ts.map Token.shape = pathShapes p ++
        (if args.isEmpty then [] else (.lt, "<") :: shapesAll args ++ [(.gt, ">")]) →
      (∀ u ∈ rest.head?, u.kind ≠ .dot ∧ u.kind ≠ .lt) → ts.length + 1 ≤ n →
      ∃ args' sp, exec (namedType n) s = (.ok (.named p args' sp false), s.moved ts.length) ∧
        eraseAll args' = eraseAll args := by
  intro n s ts rest hs hts hrest hn
  obtain ⟨k, rfl⟩ : ∃ k, n = k + 1 := ⟨n - 1, by omega⟩
  obtain ⟨tp, ta, rfl, htp, hta⟩ := List.map_eq_append_iff.1 hts
  rw [List.append_assoc] at hs
  obtain ⟨x, xs, rfl⟩ := List.exists_cons_of_ne_nil hp
  obtain ⟨i, tp', rfl, hi, -⟩ := List.map_eq_cons_iff.1 htp
  have hcheck : (s.cur.kind == .identifier) = true := by
    rw [hs.cur_eq, kind_of_shape hi]
    rfl
  have hs₁ := hs.drop
  rw [namedType]
  simp only [exec_bind, exec_peek, exec_check, hcheck, if_true]
  cases args with
  | nil =>
    rw [List.isEmpty_nil, if_pos rfl, List.map_eq_nil_iff] at hta
    subst hta
    -- no `<` after the name: no arguments
    have hlt : (s.moved (i :: tp').length).cur.kind ≠ .lt := by
      rw [hs₁.kind_cur]
      cases rest with
      | nil => decide
      | cons u rest => simpa using (hrest u rfl).2
    rw [@exec_path _ hp _ _ rest (by simpa using hs) htp (fun u hu => (hrest u hu).1)]
    dsimp only
    rw [exec_accept_of_ne hlt]
    simp only [Bool.false_eq_true, if_false, exec_pure, exec_bind, exec_spanFrom, List.append_nil]
    exact ⟨[], _, rfl, rfl⟩
  | cons a as =>
    simp only [List.isEmpty_cons, Bool.false_eq_true, if_false] at hta
    obtain ⟨l, ta', rfl, hl, hta'⟩ := List.map_eq_cons_iff.1 hta
    obtain ⟨tl, tg, rfl, htl, htg⟩ := List.map_eq_append_iff.1 hta'
    obtain ⟨g, tg', rfl, hg, htg'⟩ := List.map_eq_cons_iff.1 htg
    rw [List.map_eq_nil_iff] at htg'
    subst htg'
    have hlk := kind_of_shape hl
    have hgk := kind_of_shape hg
    rw [exec_path hp (by simpa using hs) htp (fun u hu => by simp at hu; rw [← hu, hlk]; decide)]
    dsimp only
    have hs₂ : (s.moved ((i :: tp').length + 1)).Ahead (tl ++ (g :: rest)) := by
      have h := hs₁.tail
      rw [State.moved_moved] at h
      simpa only [List.append_eq, List.append_assoc, List.cons_append, List.nil_append] using h
    rw [hs₁.exec_accept hlk (by decide) (by decide) (by decide)]
    dsimp only
    rw [if_pos rfl, exec_bind, State.moved_moved]
    obtain ⟨args', hexec, herase⟩ := exec_typeList hargs (List.cons_ne_nil _ _) (n := k) hs₂ htl
      (by simp [hgk]) (by simp only [List.length_append, List.length_cons] at hn; omega)
    rw [hexec]
    dsimp only
    have hs₃ := hs₂.drop
    rw [exec_bind, hs₃.exec_expect hgk (by decide) (by decide) (by decide)]
    simp only [exec_pure, exec_bind, exec_spanFrom, State.moved_moved]
    have hlen : (i :: tp' ++ l :: (tl ++ [g])).length = (i :: tp').length + 1 + tl.length + 1 := by
      simp only [List.length_append, List.length_cons, List.length_nil]
      omega
    rw [hlen]
    exact ⟨args', _, rfl, herase⟩

theorem EndsType.not_suffix {rest : List Token} (h : EndsType rest) :
    ∀ u ∈ rest.head?, u.kind ≠ .question ∧ u.kind ≠ .lBracket := by
  intro u hu
  rcases h u hu with h | h | h <;> simp [h]

/-- After a name and its arguments come only suffixes and a token that ends the type. -/
theorem head_suffixes {sfx : List Suffix} {ts rest : List Token}
    (hts : ts.map Token.shape = sfx.flatMap Suffix.shapes) (hrest : EndsType rest) :
    ∀ u ∈ (ts ++ rest).head?, u.kind ≠ .dot ∧ u.kind ≠ .lt := by
  cases sfx with
  | nil =>
    rw [List.flatMap_nil, List.map_eq_nil_iff] at hts
    subst hts
    intro u hu
    rcases hrest u hu with h | h | h <;> simp [h]
  | cons x sfx =>
    intro u hu
    -- the first suffix starts with a `[` or a `?`
    obtain ⟨y, ys, hx, hy⟩ : ∃ y ys, x.shapes = y :: ys ∧ (y.1 = .lBracket ∨ y.1 = .question) := by
      cases x
      · exact ⟨_, _, rfl, .inl rfl⟩
      · exact ⟨_, _, rfl, .inr rfl⟩
    rw [List.flatMap_cons, hx, List.cons_append] at hts
    obtain ⟨v, tv, rfl, hv, -⟩ := List.map_eq_cons_iff.1 hts
    simp only [List.cons_append, List.head?_cons, Option.mem_def, Option.some.injEq] at hu
    subst hu
    rw [kind_of_shape hv]
    rcases hy with h | h <;> simp [h]

/-- The parameter types of a function type are read up to the `)`, and what follows them goes on
from there. -/
theorem exec_params {α : Type} {ps : List TypeExpr} (hps : ∀ a ∈ ps, Parsable a)
    (ih : ∀ a ∈ ps, ReadsType a) {n : Nat} {s : State} {ts rest : List Token} {rp : Token}
    (hs : s.Ahead (ts ++ rp :: rest)) (hts : ts.map Token.shape = shapesAll ps)
    (hrp : rp.kind = .rParen) (hn : ts.length + 3 ≤ n)
    (cont : List TypeExpr → P α) :
    ∃ ps', eraseAll ps' = eraseAll ps ∧
      exec (check .rParen >>= fun b => if b = true then pure [] >>= cont else typeList n >>= cont)
        s = exec (cont ps') (s.moved ts.length) := by
  cases ps with
  | nil =>
    rw [shapesAll, List.map_eq_nil_iff] at hts
    subst hts
    have hr : (s.cur.kind == .rParen) = true := by
      rw [hs.cur_eq, hrp]
      rfl
    refine ⟨[], rfl, ?_⟩
    rw [exec_bind, exec_check, hr]
    rfl
  | cons a as =>
    -- the first parameter type starts with a name or a `(`, not with `)`
    have hr : (s.cur.kind == .rParen) = false := by
      obtain ⟨x, xs, hx, hk⟩ := (hps a (List.mem_cons_self ..)).shapes_head
      rw [shapesAll, hx, List.cons_append] at hts
      obtain ⟨u, us, rfl, hu, -⟩ := List.map_eq_cons_iff.1 hts
      rw [hs.cur_eq, TokenKind.beq_eq_false, kind_of_shape hu]
      rcases hk with h | h <;> rw [h] <;> decide
    obtain ⟨ps', hexec, herase⟩ := exec_typeList ih (List.cons_ne_nil _ _) hs hts (by simp [hrp]) hn
    refine ⟨ps', herase, ?_⟩
    rw [exec_bind, exec_check, hr]
    dsimp only
    rw [if_neg Bool.false_ne_true, exec_bind, hexec]

theorem length_le_length_flatMap_shapes (sfx : List Suffix) :
    sfx.length ≤ (sfx.flatMap Suffix.shapes).length := by
  induction sfx with
  | nil => simp
  | cons x sfx ih =>
    cases x <;> simp only [List.flatMap_cons, List.length_append, Suffix.shapes, List.length_cons,
      List.length_nil] <;> omega

theorem applyAll_nullShapes_named (p : List String) (args : List TypeExpr) (n : Bool) :
    (TypeExpr.named p args {} false).applyAll (nullShapes n) = .named p args {} n := by
  cases n <;> rfl

theorem applyAll_nullShapes_array (e : TypeExpr) (n : Bool) :
    (TypeExpr.array e {} false).applyAll (nullShapes n) = .array e {} n := by
  cases n <;> rfl

/-- Every type the parser can build is read back from its tokens. -/
theorem readsType {t : TypeExpr} (ht : Parsable t) : ReadsType t := by
  induction ht with
  | @named p args sp m hp _ _ ih =>
    intro sfx _ n s ts rest hs hts hrest hn
    obtain ⟨k, rfl⟩ : ∃ k, n = k + 1 := ⟨n - 1, by omega⟩
    -- the name and its arguments, then the suffixes written and those after
    rw [shapes, List.append_assoc, ← List.flatMap_append] at hts
    obtain ⟨tn, tsf, rfl, htn, htsf⟩ := List.map_eq_append_iff.1 hts
    rw [List.append_assoc] at hs
    obtain ⟨x, xs, rfl⟩ := List.exists_cons_of_ne_nil hp
    have hlp : (s.cur.kind == .lParen) = false := by
      have htn' := htn
      rw [pathShapes, List.cons_append, List.cons_append] at htn'
      obtain ⟨i, tn', htn_eq, hi, -⟩ := List.map_eq_cons_iff.1 htn'
      rw [htn_eq, List.cons_append] at hs
      rw [hs.cur_eq, kind_of_shape hi]
      rfl
    obtain ⟨args', sp', hnamed, herase⟩ := exec_namedType hp ih (n := k) hs htn
      (head_suffixes htsf hrest) (by simp only [List.length_append] at hn; omega)
    obtain ⟨b', hsuf, hb'⟩ := @exec_typeSuffixes _ k _ _ _ s.cur.span
      (.named (x :: xs) args' sp' false) hs.drop htsf hrest.not_suffix
      (by
        have hcount := length_le_length_flatMap_shapes (nullShapes m ++ sfx)
        have htsf' := congrArg List.length htsf
        have htn' := congrArg List.length htn
        simp only [List.length_map, pathShapes, List.cons_append, List.length_cons,
          List.length_append] at htsf' htn' hn
        omega)
    refine ⟨b', ?_, ?_⟩
    · rw [type]
      simp only [exec_bind, exec_peek, exec_check, hlp, Bool.false_eq_true, if_false]
      rw [hnamed]
      dsimp only
      rw [hsuf, State.moved_moved, List.length_append]
    · rw [hb', applyAll_append, erase, erase, applyAll_nullShapes_named, herase]
  | @array e sp m _ hfunc ih =>
    intro sfx _ n s ts rest hs hts hrest hn
    have hts' : ts.map Token.shape =
        e.shapes ++ (Suffix.brackets :: (nullShapes m ++ sfx)).flatMap Suffix.shapes := by
      rw [hts, shapes, List.flatMap_cons, List.flatMap_append]
      simp only [List.append_assoc]
    obtain ⟨t', hexec, herase⟩ := ih _ (by simp [hfunc]) hs hts' hrest hn
    refine ⟨t', hexec, ?_⟩
    rw [herase, applyAll_cons, applyAll_append, Suffix.apply, applyAll_nullShapes_array]
    rfl
  | @func ps r sp hps _ ihps ihr =>
    intro sfx hsfx n s ts rest hs hts hrest hn
    obtain rfl := hsfx rfl
    obtain ⟨k, rfl⟩ : ∃ k, n = k + 1 := ⟨n - 1, by omega⟩
    -- `(`, the parameter types, `)`, `->` and the result type
    simp only [shapes, nullShapes, Bool.false_eq_true, if_false, List.flatMap_nil,
      List.append_nil, List.cons_append, List.append_assoc] at hts
    obtain ⟨lp, ts₁, rfl, hlp, hts₁⟩ := List.map_eq_cons_iff.1 hts
    obtain ⟨tps, ts₂, rfl, htps, hts₂⟩ := List.map_eq_append_iff.1 hts₁
    obtain ⟨rp, ts₃, rfl, hrp, hts₃⟩ := List.map_eq_cons_iff.1 hts₂
    obtain ⟨ar, tr, rfl, har, htr⟩ := List.map_eq_cons_iff.1 hts₃
    have hlpk := kind_of_shape hlp
    rw [type]
    simp only [exec_bind, exec_peek, exec_check, hs.cur_eq, hlpk]
    rw [if_pos (TokenKind.beq_eq_true.2 rfl), exec_bind,
      hs.exec_advance (by simp [hlpk]) (by simp [hlpk]) (by simp [hlpk])]
    dsimp only
    obtain ⟨ps', hps', hexec⟩ := @exec_params _ _ hps ihps k _ _ (ar :: tr ++ rest) _
      (by simpa using hs.tail) htps (kind_of_shape hrp) (by simp at hn; omega) _
    rw [hexec]
    -- then `)`, `->` and the result type, which takes every suffix after it
    have hs₁ : (s.moved 1).Ahead (tps ++ rp :: ar :: (tr ++ rest)) := by
      have h := hs.tail
      simpa only [List.append_eq, List.append_assoc, List.cons_append] using h
    have hs₂ := hs₁.drop
    have hs₃ := hs₂.tail
    have hs₄ := hs₃.tail
    rw [exec_bind, hs₂.exec_expect (kind_of_shape hrp) (by decide) (by decide) (by decide)]
    dsimp only
    rw [exec_bind, hs₃.exec_expect (kind_of_shape har) (by decide) (by decide) (by decide)]
    dsimp only
    obtain ⟨r', hrexec, hrerase⟩ := ihr [] (fun _ => rfl) (n := k) hs₄ (by simpa using htr) hrest
      (by simp at hn; omega)
    rw [exec_bind, hrexec]
    simp only [exec_bind, exec_spanFrom, exec_pure]
    obtain ⟨b', hsuf, hb'⟩ := @exec_typeSuffixes [] k _ [] _ lp.span (.func ps' r' _ false)
      hs₄.drop rfl hrest.not_suffix (by simp; omega)
    refine ⟨b', ?_, ?_⟩
    · rw [hsuf]
      simp only [List.length_nil, State.moved_moved, List.length_cons, List.length_append]
      congr 2
      omega
    · rw [hb']
      simp only [applyAll, List.foldl_nil, erase, hps', hrerase]

/-! ## What the parser builds -/

/-- Token arrays as the parser holds them after lexing: every identifier holds a name, and the
last token is the end of file. -/
structure Lexed (tokens : Array Token) : Prop where
  names : ∀ tok ∈ tokens, tok.kind = .identifier → Lexer.IsName tok.lexeme
  last : ∃ e, tokens.back? = some e ∧ e.kind = .eof

theorem exec_bind_ok {α β : Type} {p : P α} {f : α → P β} {s s' : State} {b : β}
    (h : exec (p >>= f) s = (.ok b, s')) :
    ∃ a s₁, exec p s = (.ok a, s₁) ∧ exec (f a) s₁ = (.ok b, s') := by
  rw [exec_bind] at h
  rcases hp : exec p s with ⟨e | a, s₁⟩ <;> rw [hp] at h
  · cases h
  · exact ⟨a, s₁, rfl, h⟩

namespace Lexed

variable {s : State} (hl : Lexed s.tokens)
include hl

/-- Before the end of file the cursor stands on a token of the array, not on the last. -/
theorem pos_lt (hk : s.cur.kind ≠ .eof) : s.pos + 1 < s.tokens.size := by
  obtain ⟨e, he, hek⟩ := hl.last
  by_contra hge
  apply hk
  have hsize : 0 < s.tokens.size := by
    rcases Nat.eq_zero_or_pos s.tokens.size with h | h
    · simp [Array.back?, h] at he
    · exact h
  rw [State.cur, Nat.min_eq_right (by omega), Array.getD_eq_getD_getElem?]
  rw [Array.back?_eq_getElem?] at he
  rw [he, Option.getD_some, hek]

theorem cur_mem (hk : s.cur.kind ≠ .eof) : s.cur ∈ s.tokens := by
  have hpos := hl.pos_lt hk
  rw [State.cur, Nat.min_eq_left (by omega), Array.getD_eq_getD_getElem?,
    Array.getElem?_eq_getElem (by omega), Option.getD_some]
  exact Array.getElem_mem _

theorem cur_name (hk : s.cur.kind = .identifier) : Lexer.IsName s.cur.lexeme :=
  hl.names _ (hl.cur_mem (by rw [hk]; decide)) hk

/-- `advance` gives the token at the cursor, unless it is the end of file. -/
theorem exec_advance (hk : s.cur.kind ≠ .eof) :
    ∃ s₁ : State, exec advance s = (.ok s.cur, s₁) ∧ s₁.tokens = s.tokens ∧ s₁.pos = s.pos + 1 := by
  have hpos := hl.pos_lt hk
  have hcur : s.tokens.getD s.pos default = s.cur := by
    simp only [State.cur, Nat.min_eq_left (show s.pos ≤ s.tokens.size - 1 by omega)]
  unfold advance
  rw [exec_bind, exec_peek]
  dsimp only
  rw [if_pos (TokenKind.bne_eq_true.2 hk), exec_bind, exec_modify]
  dsimp only
  rw [exec_previous]
  simp only [Nat.add_sub_cancel, gt_iff_lt, Nat.succ_pos, if_true, hcur]
  exact ⟨_, rfl, rfl, rfl⟩

/-- `expect` moves past the token it expects, which it gives. -/
theorem exec_expect_ok {k : TokenKind} {what : String} {t : Token} {s₁ : State} (hk : k ≠ .eof)
    (h : exec (expect k what) s = (.ok t, s₁)) :
    s.cur.kind = k ∧ t = s.cur ∧ s₁.tokens = s.tokens ∧ s₁.pos = s.pos + 1 := by
  unfold expect at h
  rw [exec_bind, exec_check] at h
  dsimp only at h
  split at h
  · rename_i hc
    have hck := TokenKind.beq_eq_true.1 hc
    obtain ⟨s₂, ha, ht, hp⟩ := hl.exec_advance (by rw [hck]; exact hk)
    rw [ha] at h
    cases h
    exact ⟨hck, rfl, ht, hp⟩
  · cases h

end Lexed

theorem Forward.tokens_eq {α : Type} {p : P α} (hp : Forward p) {s s' : State}
    {r : Except Diagnostic α} (h : exec p s = (r, s')) : s'.tokens = s.tokens := by
  have := (hp s).1
  rwa [h] at this

/-- `accept` says whether the cursor stood on its kind, and stays put when not. -/
theorem exec_accept_ok {k : TokenKind} {b : Bool} {s s₁ : State}
    (h : exec (accept k) s = (.ok b, s₁)) :
    (b = true → s.cur.kind = k) ∧ (b = false → s.cur.kind ≠ k ∧ s₁ = s) := by
  unfold accept at h
  rw [exec_bind, exec_check] at h
  dsimp only at h
  split at h
  · rename_i hc
    rw [exec_bind] at h
    rcases ha : exec advance s with ⟨_ | _, _⟩ <;> rw [ha] at h <;> cases h
    exact ⟨fun _ => TokenKind.beq_eq_true.1 hc, fun h => absurd h (by decide)⟩
  · rename_i hc
    cases h
    exact ⟨fun h => absurd h (by decide),
      fun _ => ⟨TokenKind.beq_eq_false.1 (by simpa using hc), rfl⟩⟩

/-- The state moved on by `k` reads the token `k` places on, whatever else differs. -/
theorem State.cur_of_pos {s s₁ : State} {k : Nat} (ht : s₁.tokens = s.tokens)
    (hp : s₁.pos = s.pos + k) : s₁.cur = (s.moved k).cur := by
  simp only [State.cur, ht, hp, State.moved]

/-- The names after the first of a dotted name are identifiers. -/
theorem pathRest_names : ∀ (f : Nat) {s s' : State} {xs : List String}, Lexed s.tokens →
    exec (pathRest f) s = (.ok xs, s') → ∀ x ∈ xs, Lexer.IsName x
  | 0, s, s', xs, _, h => by
    rw [pathRest, exec_pure] at h
    cases h
    simp
  | f + 1, s, s', xs, hl, h => by
    rw [pathRest] at h
    simp only [exec_bind, exec_check, exec_checkNext] at h
    split at h
    · rename_i hc
      simp only [Bool.and_eq_true, TokenKind.beq_eq_true] at hc
      -- past the dot, the identifier that `checkNext` saw
      obtain ⟨s₁, ha, ht, hp⟩ := hl.exec_advance (by rw [hc.1]; decide)
      rw [exec_bind, ha] at h
      dsimp only at h
      have hl₁ : Lexed s₁.tokens := ht ▸ hl
      have hcur := State.cur_of_pos ht hp
      obtain ⟨s₂, ha₂, ht₂, -⟩ := hl₁.exec_advance (by rw [hcur, hc.2]; decide)
      rw [exec_bind, ha₂] at h
      dsimp only at h
      obtain ⟨rest, s₃, hrest, hpure⟩ := exec_bind_ok h
      cases hpure
      intro x hx
      rcases List.mem_cons.1 hx with rfl | hx
      · exact hl₁.cur_name (by rw [hcur, hc.2])
      · exact pathRest_names f (ht₂ ▸ hl₁) hrest x hx
    · cases h
      simp

/-- A dotted name is a nonempty list of identifiers. -/
theorem path_names {s s' : State} {p : List String} (hl : Lexed s.tokens)
    (h : exec path s = (.ok p, s')) : p ≠ [] ∧ ∀ x ∈ p, Lexer.IsName x := by
  unfold path at h
  obtain ⟨first, s₁, hfirst, h⟩ := exec_bind_ok h
  obtain ⟨hk, rfl, ht, -⟩ := hl.exec_expect_ok (by decide) hfirst
  obtain ⟨f, s₂, hrem, h⟩ := exec_bind_ok h
  rw [exec_remaining] at hrem
  cases hrem
  obtain ⟨rest, s₃, hrest, h⟩ := exec_bind_ok h
  cases h
  refine ⟨List.cons_ne_nil _ _, fun x hx => ?_⟩
  rcases List.mem_cons.1 hx with rfl | hx
  · exact hl.cur_name hk
  · exact pathRest_names _ (ht ▸ hl) hrest x hx

theorem isFunc_markNullable (t : TypeExpr) (sp : Span) : (t.markNullable sp).isFunc = t.isFunc := by
  cases t <;> rfl

/-- Marking a type nullable keeps it parsable, but for a function type. -/
theorem parsable_markNullable {t : TypeExpr} (ht : Parsable t) (hf : t.isFunc = false)
    {sp : Span} : Parsable (t.markNullable sp) := by
  cases ht with
  | named hp hn ha => exact .named hp hn ha
  | array he hef => exact .array he hef
  | func => cases hf

/-- No `?` and no `[]` stands at the cursor: a type read up to here takes no more suffixes. -/
def State.NoSuffix (s : State) : Prop :=
  s.cur.kind ≠ .question ∧ ¬(s.cur.kind = .lBracket ∧ (s.moved 1).cur.kind = .rBracket)

/-- What the functions that read types give at fuel `n`, from a state over lexed tokens. -/
structure TypesSound (n : Nat) : Prop where
  type : ∀ {s s' : State} {t : TypeExpr}, Lexed s.tokens → exec (type n) s = (.ok t, s') →
    Parsable t ∧ s'.NoSuffix
  typeList : ∀ {s s' : State} {ts : List TypeExpr}, Lexed s.tokens →
    exec (typeList n) s = (.ok ts, s') → ∀ a ∈ ts, Parsable a
  namedType : ∀ {s s' : State} {t : TypeExpr}, Lexed s.tokens →
    exec (namedType n) s = (.ok t, s') → Parsable t ∧ t.isFunc = false
  typeSuffixes : ∀ {sp : Span} {b : TypeExpr} {s s' : State} {t : TypeExpr}, Lexed s.tokens →
    Parsable b → (b.isFunc = true → s.NoSuffix) → exec (typeSuffixes n sp b) s = (.ok t, s') →
    Parsable t ∧ s'.NoSuffix

theorem typesSound_zero : TypesSound 0 where
  type _ h := by cases h
  typeList _ h := by cases h
  namedType _ h := by cases h
  typeSuffixes _ _ _ h := by cases h

namespace TypesSound

variable {n : Nat} (ih : TypesSound n)
include ih

theorem typeSuffixes_succ {sp : Span} {b : TypeExpr} {s s' : State} {t : TypeExpr}
    (hl : Lexed s.tokens) (hb : Parsable b) (hf : b.isFunc = true → s.NoSuffix)
    (h : exec (Parser.typeSuffixes (n + 1) sp b) s = (.ok t, s')) :
    Parsable t ∧ s'.NoSuffix := by
  rw [Parser.typeSuffixes] at h
  simp only [exec_bind, exec_check, exec_checkNext] at h
  split at h
  · rename_i hc
    simp only [Bool.and_eq_true, TokenKind.beq_eq_true] at hc
    -- a `[]` follows, so the type so far is no function type
    have hnf : b.isFunc = false := by
      cases hbf : b.isFunc
      · rfl
      · exact absurd hc (hf hbf).2
    obtain ⟨s₁, ha₁, ht₁, hp₁⟩ := hl.exec_advance (by rw [hc.1]; decide)
    rw [exec_bind, ha₁] at h
    dsimp only at h
    have hl₁ : Lexed s₁.tokens := ht₁ ▸ hl
    obtain ⟨s₂, ha₂, ht₂, -⟩ := hl₁.exec_advance (by rw [State.cur_of_pos ht₁ hp₁, hc.2]; decide)
    rw [exec_bind, ha₂] at h
    dsimp only at h
    rw [exec_bind, exec_spanFrom] at h
    exact ih.typeSuffixes (ht₂ ▸ hl₁) (.array hb hnf) (fun h => absurd h (by simp [isFunc])) h
  · rename_i hc
    obtain ⟨q, s₁, hq, hrest⟩ := exec_bind_ok h
    obtain ⟨hyes, hno⟩ := exec_accept_ok hq
    cases q with
    | true =>
      -- a `?`: the type so far is no function type, and it becomes nullable
      have hk := hyes rfl
      have hnf : b.isFunc = false := by
        cases hbf : b.isFunc
        · rfl
        · exact absurd hk (hf hbf).1
      rw [if_pos rfl, exec_bind, exec_spanFrom] at hrest
      exact ih.typeSuffixes ((accept_forward _).tokens_eq hq ▸ hl) (parsable_markNullable hb hnf)
        (fun h => absurd h (by rw [isFunc_markNullable]; simp [hnf])) hrest
    | false =>
      obtain ⟨hk, hs⟩ := hno rfl
      subst hs
      rw [if_neg Bool.false_ne_true, exec_pure] at hrest
      cases hrest
      refine ⟨hb, hk, fun hc' => hc ?_⟩
      simp [TokenKind.beq_eq_true.2 hc'.1, TokenKind.beq_eq_true.2 hc'.2]

theorem namedType_succ {s s' : State} {t : TypeExpr} (hl : Lexed s.tokens)
    (h : exec (Parser.namedType (n + 1)) s = (.ok t, s')) : Parsable t ∧ t.isFunc = false := by
  rw [Parser.namedType] at h
  obtain ⟨_, _, hpeek, h⟩ := exec_bind_ok h
  rw [exec_peek] at hpeek
  cases hpeek
  obtain ⟨c, _, hc, h⟩ := exec_bind_ok h
  rw [exec_check] at hc
  cases hc
  dsimp only at h
  -- no identifier: the step fails
  split at h
  swap
  · rw [exec_bind] at h
    cases h
  obtain ⟨p, s₂, hp, h⟩ := exec_bind_ok h
  have hl₂ : Lexed s₂.tokens := path_forward.tokens_eq hp ▸ hl
  obtain ⟨hpne, hnames⟩ := path_names hl hp
  obtain ⟨a, s₃, ha, h⟩ := exec_bind_ok h
  have hl₃ : Lexed s₃.tokens := (accept_forward _).tokens_eq ha ▸ hl₂
  -- the arguments, if any, are parsable; the name gets no flag here
  have hargs : ∃ args sp, t = .named p args sp false ∧ ∀ a ∈ args, Parsable a := by
    split at h
    · obtain ⟨args, s₄, hts, h⟩ := exec_bind_ok h
      obtain ⟨_, _, -, h⟩ := exec_bind_ok h
      simp only [exec_bind, exec_pure, exec_spanFrom] at h
      cases h
      exact ⟨args, _, rfl, ih.typeList hl₃ hts⟩
    · simp only [exec_bind, exec_pure, exec_spanFrom] at h
      cases h
      exact ⟨[], _, rfl, by simp⟩
  obtain ⟨args, sp, rfl, hargs⟩ := hargs
  exact ⟨.named hpne hnames hargs, rfl⟩

theorem typeList_succ {s s' : State} {ts : List TypeExpr} (hl : Lexed s.tokens)
    (h : exec (Parser.typeList (n + 1)) s = (.ok ts, s')) : ∀ a ∈ ts, Parsable a := by
  rw [Parser.typeList] at h
  obtain ⟨t, s₁, ht, h⟩ := exec_bind_ok h
  have hl₁ : Lexed s₁.tokens := (grammar_forward n).type.tokens_eq ht ▸ hl
  have hpt := (ih.type hl ht).1
  obtain ⟨c, s₂, hc, h⟩ := exec_bind_ok h
  split at h
  · obtain ⟨rest, s₃, hrest, h⟩ := exec_bind_ok h
    cases h
    intro a ha
    rcases List.mem_cons.1 ha with rfl | ha
    · exact hpt
    · exact ih.typeList ((accept_forward _).tokens_eq hc ▸ hl₁) hrest a ha
  · cases h
    simpa using hpt

/-- The parameter types of a function type, none before a `)`, are parsable. -/
theorem params_ok {α : Type} {cont : List TypeExpr → P α} {s s' : State} {x : α}
    (hl : Lexed s.tokens)
    (h : exec (check .rParen >>= fun b =>
      if b = true then pure [] >>= cont else Parser.typeList n >>= cont) s = (.ok x, s')) :
    ∃ ps s₁, (∀ a ∈ ps, Parsable a) ∧ s₁.tokens = s.tokens ∧ exec (cont ps) s₁ = (.ok x, s') := by
  rw [exec_bind, exec_check] at h
  dsimp only at h
  split at h
  · rw [exec_bind, exec_pure] at h
    exact ⟨[], s, by simp, rfl, h⟩
  · obtain ⟨ps, s₁, hps, h⟩ := exec_bind_ok h
    exact ⟨ps, s₁, ih.typeList hl hps, (grammar_forward n).typeList.tokens_eq hps, h⟩

theorem type_succ {s s' : State} {t : TypeExpr} (hl : Lexed s.tokens)
    (h : exec (Parser.type (n + 1)) s = (.ok t, s')) : Parsable t ∧ s'.NoSuffix := by
  rw [Parser.type] at h
  obtain ⟨_, _, hpeek, h⟩ := exec_bind_ok h
  rw [exec_peek] at hpeek
  cases hpeek
  obtain ⟨c, _, hc, h⟩ := exec_bind_ok h
  rw [exec_check] at hc
  cases hc
  split at h
  · -- a function type: `(`, the parameters, `)`, `->` and the result
    rename_i hlp
    obtain ⟨s₁, ha, ht₁, -⟩ := hl.exec_advance (by rw [TokenKind.beq_eq_true.1 hlp]; decide)
    rw [exec_bind, ha] at h
    dsimp only at h
    obtain ⟨ps, s₂, hps, ht₂, h⟩ := ih.params_ok (ht₁ ▸ hl) h
    have hl₂ : Lexed s₂.tokens := ht₂ ▸ ht₁ ▸ hl
    obtain ⟨_, s₃, he₃, h⟩ := exec_bind_ok h
    have hl₃ : Lexed s₃.tokens := (hl₂.exec_expect_ok (by decide) he₃).2.2.1 ▸ hl₂
    obtain ⟨_, s₄, he₄, h⟩ := exec_bind_ok h
    have hl₄ : Lexed s₄.tokens := (hl₃.exec_expect_ok (by decide) he₄).2.2.1 ▸ hl₃
    obtain ⟨r, s₅, hr, h⟩ := exec_bind_ok h
    obtain ⟨hpr, hfree⟩ := ih.type hl₄ hr
    simp only [exec_bind, exec_spanFrom, exec_pure] at h
    -- the result type took every suffix, so none follows the function type
    exact ih.typeSuffixes ((grammar_forward n).type.tokens_eq hr ▸ hl₄) (.func hps hpr)
      (fun _ => hfree) h
  · obtain ⟨b, s₁, hb, h⟩ := exec_bind_ok h
    obtain ⟨hpb, hfb⟩ := ih.namedType hl hb
    exact ih.typeSuffixes ((grammar_forward n).namedType.tokens_eq hb ▸ hl) hpb
      (fun h => absurd (hfb ▸ h) (by decide)) h

end TypesSound

/-- Names with an end of file pushed on them. -/
theorem Lexed.push {tokens : Array Token}
    (h : ∀ tok ∈ tokens, tok.kind = .identifier → Lexer.IsName tok.lexeme) {e : Token}
    (he : e.kind = .eof) : Lexed (tokens.push e) := by
  refine ⟨fun tok htok => ?_, e, Array.back?_push, he⟩
  rcases Array.mem_push.1 htok with htok | rfl
  · exact h tok htok
  · intro hk
    rw [he] at hk
    cases hk

/-- The parser's tokens for a stream whose identifiers are names: the valid ones, with an end of
file added when the stream lacks one. -/
theorem lexed_init {ts : Array Token}
    (h : ∀ tok ∈ ts, tok.kind = .identifier → Lexer.IsName tok.lexeme) :
    Lexed (State.init ts).tokens := by
  have hkept : ∀ tok ∈ ts.filter (fun t => t.kind != .invalid || literalLike t),
      tok.kind = .identifier → Lexer.IsName tok.lexeme :=
    fun tok htok => h tok (Array.mem_of_mem_filter htok)
  unfold State.init
  dsimp only
  generalize ts.filter (fun t => t.kind != .invalid || literalLike t) = kept at hkept
  -- the stream ends in its own end of file, or one is pushed on it
  split
  · rename_i t hback
    split
    · exact ⟨hkept, t, hback, TokenKind.beq_eq_true.1 ‹_›⟩
    · exact Lexed.push hkept rfl
  · exact Lexed.push hkept rfl

/-- Every type the parser reads from lexed tokens is parsable, and no suffix follows it. The
induction is on the fuel, which each of the four functions spends before calling another. -/
theorem typesSound : ∀ n, TypesSound n
  | 0 => typesSound_zero
  | n + 1 =>
    have ih := typesSound n
    { type := ih.type_succ
      typeList := ih.typeList_succ
      namedType := ih.namedType_succ
      typeSuffixes := ih.typeSuffixes_succ }

end Parser

end AmLang
