import AmLang.Proofs.Syntax.TypeParsing
import AmLang.Proofs.Syntax.Utf8Literals

/-!
# Printed types read back

`TypeExpr.render` prints a type annotation; this module shows that the lexer and the parser
read the print back to the same type, spans aside, for every type the parser can build.

`LexesTo l pos cs shs` says the bytes `cs` at `pos` lex to tokens of the shapes `shs` and that
lexing goes on after them; such facts join with `LexesTo.append`, one byte or name at a time.
`lexesType` gives, for every `Parsable` type, that its text lexes to `TypeExpr.shapes` when a
byte that may follow a type comes after it. `tokenize_render` closes the text with the end of
file, and `run_type_of_shapes` reads the tokens back with `readsType`. With `typesSound`, every
type the parser returns from a lexed text is `Parsable`, which gives `type_render_reparses`.
-/

namespace AmLang

namespace TypeExpr

/-- The text of a named type's arguments: none, or `<`, the arguments and `>`. -/
def argsText (args : List TypeExpr) : List Char :=
  if args.isEmpty then [] else '<' :: (commaJoin (renderAll args)).toList ++ ['>']

/-- The `?` of a nullable type. -/
def nullText (n : Bool) : List Char := if n then ['?'] else []

theorem toList_render_named (p : List String) (args : List TypeExpr) (sp : Span) (n : Bool) :
    (render (.named p args sp n)).toList = (joinPath p).toList ++ argsText args ++ nullText n := by
  cases args <;> cases n <;> simp [render, argsText, nullText]

theorem toList_render_array (e : TypeExpr) (sp : Span) (n : Bool) :
    (render (.array e sp n)).toList = (render e).toList ++ ['[', ']'] ++ nullText n := by
  cases n <;> simp [render, nullText]

theorem toList_render_func (ps : List TypeExpr) (r : TypeExpr) (sp : Span) (n : Bool) :
    (render (.func ps r sp n)).toList =
      '(' :: (commaJoin (renderAll ps)).toList ++ [')', ' ', '-', '>', ' '] ++ (render r).toList ++
        nullText n := by
  cases n <;> simp [render, nullText]

theorem toList_commaJoin_cons_cons (t t' : TypeExpr) (ts : List TypeExpr) :
    (commaJoin (renderAll (t :: t' :: ts))).toList =
      (render t).toList ++ ',' :: ' ' :: (commaJoin (renderAll (t' :: ts))).toList := by
  simp [commaJoin, renderAll, String.intercalate_cons_cons]

theorem toList_commaJoin_cons (t : TypeExpr) (ts : List TypeExpr) :
    ∃ rest, (commaJoin (renderAll (t :: ts))).toList = (render t).toList ++ rest := by
  cases ts with
  | nil => exact ⟨[], by simp [commaJoin, renderAll]⟩
  | cons t' ts => exact ⟨_, toList_commaJoin_cons_cons t t' ts⟩

theorem joinPath_cons_cons (x y : String) (ys : List String) :
    (joinPath (x :: y :: ys)).toList = x.toList ++ '.' :: (joinPath (y :: ys)).toList := by
  simp [joinPath, String.intercalate_cons_cons]

theorem pathShapes_cons_cons (x y : String) (ys : List String) :
    pathShapes (x :: y :: ys) =
      [(.identifier, x)] ++ (.dot, ".") :: pathShapes (y :: ys) := by
  simp [pathShapes]

theorem joinPath_head (x : String) (xs : List String) :
    ∃ rest, (joinPath (x :: xs)).toList = x.toList ++ rest := by
  cases xs with
  | nil => exact ⟨[], by simp [joinPath]⟩
  | cons y ys => exact ⟨_, by rw [joinPath_cons_cons]⟩

/-- The text of a type starts with a name or a `(`, so with no `=`. -/
theorem Parsable.render_head {t : TypeExpr} (h : Parsable t) :
    ∃ c cs, t.render.toList = c :: cs ∧ c ≠ '=' := by
  induction h with
  | @named p args sp n hp hnames _ _ =>
    obtain ⟨x, xs, rfl⟩ := List.exists_cons_of_ne_nil hp
    obtain ⟨⟨c, cs, hxc, hstart, -⟩, -⟩ := hnames x (by simp)
    obtain ⟨rest, hrest⟩ := joinPath_head x xs
    refine ⟨c, cs ++ rest ++ argsText args ++ nullText n, ?_, ?_⟩
    · rw [toList_render_named, hrest, hxc]
      simp
    · rintro rfl
      exact absurd hstart (by decide)
  | array _ _ ih =>
    obtain ⟨c, cs, hc, hne⟩ := ih
    exact ⟨c, _, by rw [toList_render_array, hc, List.cons_append, List.cons_append], hne⟩
  | func _ _ _ _ =>
    exact ⟨'(', _, by rw [toList_render_func, List.cons_append, List.cons_append, List.cons_append],
      by decide⟩

/-- A token of a list of types is a comma or a token of one of them. -/
theorem mem_shapesAll {sh : TokenKind × String} :
    ∀ {ts : List TypeExpr}, sh ∈ shapesAll ts → sh = (.comma, ",") ∨ ∃ t ∈ ts, sh ∈ t.shapes
  | [], h => by simp [shapesAll] at h
  | t :: ts, h => by
    rw [shapesAll] at h
    rcases List.mem_append.1 h with h | h
    · exact .inr ⟨t, List.mem_cons_self, h⟩
    · split at h
      · simp at h
      · rcases List.mem_cons.1 h with rfl | h
        · exact .inl rfl
        · rcases mem_shapesAll h with h | ⟨u, hu, h⟩
          · exact .inl h
          · exact .inr ⟨u, List.mem_cons_of_mem _ hu, h⟩

/-- No token of a type is an invalid one. -/
theorem Parsable.shapes_valid {t : TypeExpr} (ht : Parsable t) :
    ∀ sh ∈ t.shapes, sh.1 ≠ .invalid := by
  have hnull : ∀ n, ∀ sh ∈ (nullShapes n).flatMap Suffix.shapes, sh.1 ≠ .invalid := by
    intro n
    cases n <;> simp [nullShapes, Suffix.shapes]
  have hall : ∀ {ts : List TypeExpr}, (∀ u ∈ ts, ∀ sh ∈ u.shapes, sh.1 ≠ .invalid) →
      ∀ sh ∈ shapesAll ts, sh.1 ≠ .invalid := by
    intro ts h sh hsh
    rcases mem_shapesAll hsh with rfl | ⟨u, hu, h'⟩
    · decide
    · exact h u hu sh h'
  induction ht with
  | @named p args _ n _ _ _ ih =>
    have hpath : ∀ sh ∈ pathShapes p, sh.1 ≠ .invalid := by
      cases p with
      | nil => simp [pathShapes]
      | cons x xs =>
        simp only [pathShapes, List.mem_cons, List.mem_flatMap]
        rintro sh (rfl | ⟨y, -, h⟩)
        · simp
        · simp only [List.not_mem_nil, or_false] at h
          rcases h with rfl | rfl <;> simp
    intro sh hsh
    simp only [shapes, List.mem_append] at hsh
    rcases hsh with (h | h) | h
    · exact hpath sh h
    · split at h
      · simp at h
      · simp only [List.mem_cons, List.mem_append] at h
        rcases h with (rfl | h) | h
        · decide
        · exact hall ih sh h
        · simp only [List.not_mem_nil, or_false] at h
          rw [h]
          decide
    · exact hnull n sh h
  | @array e _ n _ _ ih =>
    intro sh hsh
    simp only [shapes, List.mem_append] at hsh
    rcases hsh with (h | h) | h
    · exact ih sh h
    · simp [Suffix.shapes] at h; rcases h with rfl | rfl <;> decide
    · exact hnull n sh h
  | @func ps r _ _ _ ihps ihr =>
    intro sh hsh
    simp only [shapes, List.mem_append, List.mem_cons] at hsh
    rcases hsh with (((rfl | h) | h) | h) | h
    · decide
    · exact hall ihps sh h
    · simp at h; rcases h with rfl | rfl <;> decide
    · exact ihr sh h
    · exact hnull false sh h

end TypeExpr

namespace Lexer

variable {l : Lexer}

/-- From `pos`, the bytes `cs` lex to tokens of the shapes `shs`, and lexing goes on after them. -/
def LexesTo (l : Lexer) (pos : Nat) (cs : List Char) (shs : List (TokenKind × String)) : Prop :=
  ∃ toks : List Token, toks.map Token.shape = shs ∧
    l.tokensFrom pos = toks ++ l.tokensFrom (pos + cs.length)

namespace LexesTo

theorem nil (pos : Nat) : LexesTo l pos [] [] := ⟨[], rfl, by simp⟩

theorem append {pos : Nat} {cs ds : List Char} {shs shs' : List (TokenKind × String)}
    (h₁ : LexesTo l pos cs shs) (h₂ : LexesTo l (pos + cs.length) ds shs') :
    LexesTo l pos (cs ++ ds) (shs ++ shs') := by
  obtain ⟨xs, hxs, hx⟩ := h₁
  obtain ⟨ys, hys, hy⟩ := h₂
  refine ⟨xs ++ ys, by rw [List.map_append, hxs, hys], ?_⟩
  rw [hx, hy, List.append_assoc, List.length_append, Nat.add_assoc]

/-- A one-byte token, then the rest. -/
theorem cons {pos : Nat} {c : Char} {cs : List Char} {sh : TokenKind × String}
    {shs : List (TokenKind × String)} (h₁ : LexesTo l pos [c] [sh])
    (h₂ : LexesTo l (pos + 1) cs shs) : LexesTo l pos (c :: cs) (sh :: shs) :=
  h₁.append h₂

end LexesTo

/-- A blank is skipped: the stream from it is the stream after it. -/
theorem tokensFrom_blank {pos : Nat} (h : l.peek pos = ' ') :
    l.tokensFrom pos = l.tokensFrom (pos + 1) := by
  have hlt := lt_stop_of_peek h (by decide)
  have hskip : l.skipTrivia pos = l.skipTrivia (pos + 1) := by
    rw [skipTrivia, if_pos hlt]
    simp [h]
  have hscan : l.scan pos = l.scan (pos + 1) := by
    rw [scan, scan, hskip]
  -- the run from the blank is the run after it, one step of budget to spare
  have hrun : l.scanRun pos (l.stop - pos + 1) = l.scanRun (pos + 1) (l.stop - (pos + 1) + 1) := by
    have hfuel : l.stop - pos = l.stop - (pos + 1) + 1 := by omega
    rw [← scanRun_succ (show l.stop - (pos + 1) < l.stop - (pos + 1) + 1 by omega), ← hfuel,
      scanRun, scanRun, hscan]
  simp only [tokensFrom, eofFrom, hrun]

theorem LexesTo.blank {pos : Nat} {cs : List Char} {shs : List (TokenKind × String)}
    (h : l.peek pos = ' ') (hcs : LexesTo l (pos + 1) cs shs) : LexesTo l pos (' ' :: cs) shs := by
  obtain ⟨toks, hmap, hfrom⟩ := hcs
  refine ⟨toks, hmap, ?_⟩
  rw [tokensFrom_blank h, hfrom, List.length_cons, Nat.add_assoc, Nat.add_comm 1]

/-- A scan step that reads one token other than the end of file puts it in front of the
stream of where it stops. -/
theorem tokensFrom_single {pos next : Nat} {t : Token} (h : l.scan pos = single t next)
    (ht : t.kind ≠ .eof) : l.tokensFrom pos = t :: l.tokensFrom next := by
  rcases scan_stream l pos with ⟨-, htok, -, -⟩ | ⟨t', rest, htok, -, hfrom, -⟩
  · rw [h, single_tokens, List.cons.injEq] at htok
    exact absurd (htok.1 ▸ kind_token ..) ht
  · rw [h, single_tokens, List.cons.injEq] at htok
    obtain ⟨rfl, rfl⟩ := htok
    rw [hfrom, h, single_next]
    rfl

/-- Skipping a class over bytes of the class, up to one outside it, ends after them. -/
theorem skipWhile_reads {q : Char → Bool} {cs : List Char} :
    ∀ {pos : Nat}, l.ReadsAt pos cs → (∀ c ∈ cs, q c = true) → pos + cs.length ≤ l.stop →
      q (l.peek (pos + cs.length)) = false → l.skipWhile q pos = pos + cs.length := by
  induction cs with
  | nil =>
    intro pos _ _ _ hend
    rw [skipWhile]
    split
    · rename_i hlt
      rw [← peek_of_lt_stop hlt, if_neg (by simpa using hend)]
      rfl
    · rfl
  | cons c cs ih =>
    intro pos hread hall hstop hend
    obtain ⟨hc, hread'⟩ := ReadsAt.cons.1 hread
    have hlt : pos < l.stop := by simp at hstop; omega
    rw [skipWhile, if_pos hlt, if_pos (by rw [← peek_of_lt_stop hlt, hc]; exact hall c (by simp))]
    rw [ih hread' (fun d hd => hall d (by simp [hd])) (by simp at hstop; omega)
      (by simpa [Nat.add_assoc, Nat.add_comm 1] using hend)]
    simp only [List.length_cons]
    omega

/-- A byte that starts no identifier, number, string, character, directive, blank or comment:
it starts an operator. -/
def Punct (c : Char) : Prop :=
  isIdentStart c = false ∧ c.isDigit = false ∧ c ≠ ' ' ∧ c ≠ '\t' ∧ c ≠ '\r' ∧ c ≠ '\n' ∧
    c ≠ '/' ∧ c ≠ '"' ∧ c ≠ '\'' ∧ c ≠ '#'

instance : DecidablePred Punct := fun _ => inferInstanceAs (Decidable (_ ∧ _))

theorem scan_punct {a : Nat} (ha : a < l.stop) (hc : Punct (l.peek a)) :
    l.scan a = single (l.scanOperator a).1 (l.scanOperator a).2 := by
  obtain ⟨h1, h2, h3, h4, h5, h6, h7, h8, h9, h10⟩ := hc
  rw [scan, skipTrivia_of_start ha ⟨h3, h4, h5, h6, h7⟩]
  simp only [ha, if_true, h1, h2, Bool.false_eq_true, if_false, h8, h9, h10]

theorem blank_of_identStart {c : Char} (h : isIdentStart c = true) :
    c ≠ ' ' ∧ c ≠ '\t' ∧ c ≠ '\r' ∧ c ≠ '\n' ∧ c ≠ '/' := by
  refine ⟨?_, ?_, ?_, ?_, ?_⟩ <;> rintro rfl <;> exact absurd h (by decide)

section Text

variable (hsize : l.stop ≤ l.source.size)
include hsize

/-- The bytes read from `a` are the lexeme of a token over them. -/
theorem slice_of_reads {a : Nat} {cs : List Char} (hread : l.ReadsAt a cs) (hne : cs ≠ [])
    (hstop : a + cs.length ≤ l.stop) : l.source.slice a (a + cs.length) = String.ofList cs := by
  have hlen : 0 < cs.length := List.length_pos_of_ne_nil hne
  rw [← String.toList_inj, toList_slice_peek (by omega) hstop (by omega), String.toList_ofList]
  apply List.ext_getElem (by simp)
  intro i h1 h2
  simp only [List.getElem_map, List.getElem_range', Nat.one_mul]
  exact hread i h2

/-- A scan step that reads a token over the bytes `cs`. -/
theorem lexesTo_token {a : Nat} {cs : List Char} {k : TokenKind} (hread : l.ReadsAt a cs)
    (hne : cs ≠ []) (hstop : a + cs.length ≤ l.stop) (hk : k ≠ .eof)
    (hscan : l.scan a = single (l.token k a (a + cs.length)) (a + cs.length)) :
    LexesTo l a cs [(k, String.ofList cs)] := by
  refine ⟨[l.token k a (a + cs.length)], ?_, by rw [tokensFrom_single hscan hk]; rfl⟩
  simp only [List.map_cons, List.map_nil, Token.shape, kind_token, lexeme_token,
    slice_of_reads hsize hread hne hstop]

/-- An operator byte, read with the byte after it: its token is over the one byte. -/
theorem lexesTo_operator {a : Nat} {c : Char} {k : TokenKind} {x : String} (hx : x.toList = [c])
    (hc : l.peek a = c) (hp : Punct c) (hstop : a + 1 ≤ l.stop) (hk : k ≠ .eof)
    (hop : l.scanOperator a = (l.token k a (a + 1), a + 1)) :
    LexesTo l a [c] [(k, x)] := by
  have h := @lexesTo_token l hsize a [c] k (ReadsAt.cons.2 ⟨hc, by simp [ReadsAt]⟩)
    (List.cons_ne_nil _ _) hstop hk (by rw [scan_punct (by omega) (hc ▸ hp), hop]; rfl)
  rwa [show String.ofList [c] = x by rw [← hx, String.ofList_toList]] at h

/-- The arrow `->` of a function type. -/
theorem lexesTo_arrow {a : Nat} (hread : l.ReadsAt a ['-', '>']) (hstop : a + 2 ≤ l.stop) :
    LexesTo l a ['-', '>'] [(.arrow, "->")] := by
  obtain ⟨hm, hread'⟩ := ReadsAt.cons.1 hread
  obtain ⟨hg, -⟩ := ReadsAt.cons.1 hread'
  apply lexesTo_token hsize hread (by simp) hstop (by decide)
  rw [scan_punct (by omega) (hm ▸ by decide)]
  simp +decide only [scanOperator, hm, hg, if_true]
  rfl

/-- A name, up to a byte that does not continue it, is one identifier. -/
theorem lexesTo_name {a : Nat} {x : String} (hx : IsName x) (hread : l.ReadsAt a x.toList)
    (hstop : a + x.toList.length ≤ l.stop)
    (hend : isIdentContinue (l.peek (a + x.toList.length)) = false) :
    LexesTo l a x.toList [(.identifier, x)] := by
  obtain ⟨⟨c, cs, hxc, hstart, hcont⟩, hkw⟩ := hx
  have hc : l.peek a = c := by
    have := hread 0 (by simp [hxc])
    simpa [hxc] using this
  have hlt : a < l.stop := by simp [hxc] at hstop; omega
  have hall : ∀ d ∈ x.toList, isIdentContinue d = true := by
    rw [hxc]
    intro d hd
    rcases List.mem_cons.1 hd with rfl | hd
    · simp [isIdentContinue, hstart]
    · exact hcont d hd
  have hskip := skipWhile_reads hread hall hstop hend
  have hslice := slice_of_reads hsize hread (by simp [hxc]) hstop
  rw [String.ofList_toList] at hslice
  have h := lexesTo_token hsize (k := .identifier) hread (by simp [hxc]) hstop (by decide) (by
    rw [scan, skipTrivia_of_start hlt (blank_of_identStart (hc ▸ hstart))]
    simp only [hlt, if_true, hc, hstart]
    simp only [scanWord, hskip, hslice, hkw])
  rwa [String.ofList_toList] at h

/-- A dotted name, up to a byte that does not continue a name, is its names and dots. -/
theorem lexesTo_path {p : List String} (hp : p ≠ []) (hnames : ∀ x ∈ p, IsName x) :
    ∀ {a : Nat}, l.ReadsAt a (joinPath p).toList → a + (joinPath p).toList.length ≤ l.stop →
      isIdentContinue (l.peek (a + (joinPath p).toList.length)) = false →
      LexesTo l a (joinPath p).toList (TypeExpr.pathShapes p) := by
  induction p with
  | nil => exact absurd rfl hp
  | cons x xs ih =>
    intro a hread hstop hend
    cases xs with
    | nil =>
      simp only [joinPath, String.intercalate_singleton, TypeExpr.pathShapes, List.flatMap_nil]
        at hread hstop hend ⊢
      exact lexesTo_name hsize (hnames x (by simp)) hread hstop hend
    | cons y ys =>
      rw [TypeExpr.joinPath_cons_cons] at hread hstop hend ⊢
      rw [TypeExpr.pathShapes_cons_cons]
      obtain ⟨hx, hrest⟩ := ReadsAt.append.1 hread
      obtain ⟨hdot, hys⟩ := ReadsAt.cons.1 hrest
      simp only [List.length_append, List.length_cons] at hstop hend
      -- the name, its dot, then the rest of the path
      refine (lexesTo_name hsize (hnames x (by simp)) hx (by omega) (by rw [hdot]; rfl)).append ?_
      refine (lexesTo_operator hsize (show ".".toList = ['.'] from rfl) hdot (by decide)
        (by omega) (by decide) ?_).cons ?_
      · simp +decide only [scanOperator, hdot]
      · have hpos : a + x.toList.length + 1 + (joinPath (y :: ys)).toList.length =
            a + (x.toList.length + ((joinPath (y :: ys)).toList.length + 1)) := by omega
        exact ih (List.cons_ne_nil _ _) (fun z hz => hnames z (by simp [hz])) hys (by omega)
          (by rwa [hpos])

/-! ### The tokens of a type's text -/

theorem lexesTo_lParen {a : Nat} (hc : l.peek a = '(') (hstop : a + 1 ≤ l.stop) :
    LexesTo l a ['('] [(.lParen, "(")] :=
  lexesTo_operator hsize rfl hc (by decide) hstop (by decide)
    (by simp +decide only [scanOperator, hc])

theorem lexesTo_rParen {a : Nat} (hc : l.peek a = ')') (hstop : a + 1 ≤ l.stop) :
    LexesTo l a [')'] [(.rParen, ")")] :=
  lexesTo_operator hsize rfl hc (by decide) hstop (by decide)
    (by simp +decide only [scanOperator, hc])

theorem lexesTo_lBracket {a : Nat} (hc : l.peek a = '[') (hstop : a + 1 ≤ l.stop) :
    LexesTo l a ['['] [(.lBracket, "[")] :=
  lexesTo_operator hsize rfl hc (by decide) hstop (by decide)
    (by simp +decide only [scanOperator, hc])

theorem lexesTo_rBracket {a : Nat} (hc : l.peek a = ']') (hstop : a + 1 ≤ l.stop) :
    LexesTo l a [']'] [(.rBracket, "]")] :=
  lexesTo_operator hsize rfl hc (by decide) hstop (by decide)
    (by simp +decide only [scanOperator, hc])

theorem lexesTo_comma {a : Nat} (hc : l.peek a = ',') (hstop : a + 1 ≤ l.stop) :
    LexesTo l a [','] [(.comma, ",")] :=
  lexesTo_operator hsize rfl hc (by decide) hstop (by decide)
    (by simp +decide only [scanOperator, hc])

/-- `<` before a byte that makes no `<=`. -/
theorem lexesTo_lt {a : Nat} (hc : l.peek a = '<') (hstop : a + 1 ≤ l.stop)
    (hn : l.peek (a + 1) ≠ '=') : LexesTo l a ['<'] [(.lt, "<")] :=
  lexesTo_operator hsize rfl hc (by decide) hstop (by decide)
    (by simp +decide only [scanOperator, hc, hn, if_false])

/-- `>` before a byte that makes no `>=`. -/
theorem lexesTo_gt {a : Nat} (hc : l.peek a = '>') (hstop : a + 1 ≤ l.stop)
    (hn : l.peek (a + 1) ≠ '=') : LexesTo l a ['>'] [(.gt, ">")] :=
  lexesTo_operator hsize rfl hc (by decide) hstop (by decide)
    (by simp +decide only [scanOperator, hc, hn, if_false])

/-- `?` before a byte that makes no `?.`. -/
theorem lexesTo_question {a : Nat} (hc : l.peek a = '?') (hstop : a + 1 ≤ l.stop)
    (hn : l.peek (a + 1) ≠ '.') : LexesTo l a ['?'] [(.question, "?")] :=
  lexesTo_operator hsize rfl hc (by decide) hstop (by decide)
    (by simp +decide only [scanOperator, hc, hn, if_false])

end Text

/-- A byte that may follow the text of a type: a comma, `>`, `)`, `[`, `?`, or none. -/
def Ender (c : Char) : Prop := c = ',' ∨ c = '>' ∨ c = ')' ∨ c = '[' ∨ c = '?' ∨ c = '\x00'

namespace Ender

variable {c : Char} (h : Ender c)
include h

theorem not_continue : isIdentContinue c = false := by
  rcases h with rfl | rfl | rfl | rfl | rfl | rfl <;> decide

theorem ne_eq : c ≠ '=' := by
  rcases h with rfl | rfl | rfl | rfl | rfl | rfl <;> decide

theorem ne_dot : c ≠ '.' := by
  rcases h with rfl | rfl | rfl | rfl | rfl | rfl <;> decide

end Ender

/-- The byte after `cs`, in a text read as `cs ++ ds`. -/
theorem peek_after {a : Nat} {cs ds : List Char} (h : l.ReadsAt a (cs ++ ds)) :
    l.peek (a + cs.length) = ds.headD (l.peek (a + (cs ++ ds).length)) := by
  cases ds with
  | nil => simp
  | cons d ds => exact (ReadsAt.cons.1 (ReadsAt.append.1 h).2).1

/-- From wherever its text is read and a byte that ends a type follows, the text of `t` lexes
to the tokens of `t`. -/
def LexesType (l : Lexer) (t : TypeExpr) : Prop :=
  ∀ {a : Nat}, l.ReadsAt a t.render.toList → a + t.render.toList.length ≤ l.stop →
    Ender (l.peek (a + t.render.toList.length)) → LexesTo l a t.render.toList t.shapes

section Render

open TypeExpr

variable (hsize : l.stop ≤ l.source.size)
include hsize

/-- Types separated by `", "`, before a `>` or a `)`. -/
theorem lexesTo_commaJoin {ts : List TypeExpr} (h : ∀ t ∈ ts, LexesType l t) :
    ∀ {a : Nat}, l.ReadsAt a (commaJoin (renderAll ts)).toList →
      a + (commaJoin (renderAll ts)).toList.length ≤ l.stop →
      (l.peek (a + (commaJoin (renderAll ts)).toList.length) = '>' ∨
        l.peek (a + (commaJoin (renderAll ts)).toList.length) = ')') →
      LexesTo l a (commaJoin (renderAll ts)).toList (shapesAll ts) := by
  induction ts with
  | nil =>
    intro a _ _ _
    exact LexesTo.nil a
  | cons t ts ih =>
    intro a hread hstop hend
    cases ts with
    | nil =>
      simp only [renderAll, commaJoin, String.intercalate_singleton] at hread hstop hend ⊢
      rw [shapesAll, List.isEmpty_nil, if_pos rfl, List.append_nil]
      exact h t (by simp) hread hstop (by rcases hend with he | he <;> simp [Ender, he])
    | cons t' ts =>
      rw [toList_commaJoin_cons_cons] at hread hstop hend ⊢
      simp only [shapesAll, List.isEmpty_cons, Bool.false_eq_true, if_false]
      obtain ⟨ht, hrest⟩ := ReadsAt.append.1 hread
      obtain ⟨hc, hrest'⟩ := ReadsAt.cons.1 hrest
      obtain ⟨hb, hrest''⟩ := ReadsAt.cons.1 hrest'
      simp only [List.length_append, List.length_cons] at hstop hend
      -- the first type before its comma, the comma, a blank, then the others
      refine (h t (by simp) ht (by omega) (by rw [hc]; simp [Ender])).append
        ((lexesTo_comma hsize hc (by omega)).cons (LexesTo.blank hb ?_))
      have hpos : a + (render t).toList.length + 1 + 1 +
          (commaJoin (renderAll (t' :: ts))).toList.length = a + ((render t).toList.length +
            ((commaJoin (renderAll (t' :: ts))).toList.length + 1 + 1)) := by
        omega
      exact ih (fun u hu => h u (List.mem_cons_of_mem _ hu)) hrest'' (by omega) (by rwa [hpos])

/-- The `?` of a nullable type, before a byte that ends the type. -/
theorem lexesTo_null {n : Bool} {a : Nat} (hread : l.ReadsAt a (nullText n))
    (hstop : a + (nullText n).length ≤ l.stop) (hend : Ender (l.peek (a + (nullText n).length))) :
    LexesTo l a (nullText n) ((nullShapes n).flatMap Suffix.shapes) := by
  cases n with
  | false => exact LexesTo.nil _
  | true =>
    simp only [nullText, if_true, List.length_singleton] at hread hstop hend ⊢
    exact lexesTo_question hsize (ReadsAt.cons.1 hread).1 hstop hend.ne_dot

/-- After a name, its arguments and its `?`: the pieces of a named type, each before a byte that
ends it. -/
theorem lexesTo_named {p : List String} {args : List TypeExpr} {n : Bool} (hp : p ≠ [])
    (hnames : ∀ x ∈ p, IsName x) (hargs : ∀ t ∈ args, LexesType l t)
    (hhead : ∀ t ∈ args.head?, ∃ c cs, t.render.toList = c :: cs ∧ c ≠ '=') {a : Nat}
    (hread : l.ReadsAt a ((joinPath p).toList ++ argsText args ++ nullText n))
    (hstop : a + ((joinPath p).toList ++ argsText args ++ nullText n).length ≤ l.stop)
    (hend : Ender (l.peek (a + ((joinPath p).toList ++ argsText args ++ nullText n).length))) :
    LexesTo l a ((joinPath p).toList ++ argsText args ++ nullText n)
      (pathShapes p ++
        (if args.isEmpty then [] else (.lt, "<") :: shapesAll args ++ [(.gt, ">")]) ++
          (nullShapes n).flatMap Suffix.shapes) := by
  obtain ⟨hJA, hQ⟩ := ReadsAt.append.1 hread
  obtain ⟨hJ, hA⟩ := ReadsAt.append.1 hJA
  have hafterJ := peek_after (List.append_assoc _ _ _ ▸ hread)
  have hafterA := peek_after hread
  simp only [List.length_append] at hstop hend hafterJ hafterA
  have hnull := lexesTo_null hsize hQ (by simp; omega)
    (by rwa [List.length_append, Nat.add_assoc a])
  -- the arguments, before a `?` or a byte that ends the type
  have hfollow : (nullText n).headD (l.peek (a + ((joinPath p).toList.length +
      (argsText args).length + (nullText n).length))) ≠ '=' := by
    cases n
    · exact hend.ne_eq
    · simp [nullText]
  have hargsLex : LexesTo l (a + (joinPath p).toList.length) (argsText args)
      (if args.isEmpty then [] else (.lt, "<") :: shapesAll args ++ [(.gt, ">")]) := by
    cases args with
    | nil => exact LexesTo.nil _
    | cons t ts =>
      simp only [argsText, List.isEmpty_cons, Bool.false_eq_true, if_false, List.length_cons,
        List.length_append, List.length_nil] at hA hstop hafterA hfollow ⊢
      obtain ⟨c, cs, hc, hne⟩ := hhead t rfl
      obtain ⟨rest, hrest⟩ := toList_commaJoin_cons t ts
      obtain ⟨hlt, hCG⟩ := ReadsAt.cons.1 hA
      obtain ⟨hC, hG⟩ := ReadsAt.append.1 hCG
      have hgt := (ReadsAt.cons.1 hG).1
      have hfirst : l.peek (a + (joinPath p).toList.length + 1) = c := by
        rw [hrest, hc] at hC
        simpa using hC 0 (by simp)
      have hpos : a + (joinPath p).toList.length + 1 +
          (commaJoin (renderAll (t :: ts))).toList.length + 1 = a + ((joinPath p).toList.length +
            ((commaJoin (renderAll (t :: ts))).toList.length + 1 + 1)) := by
        omega
      -- `<` before the first argument, the arguments before `>`, then `>`
      refine (lexesTo_lt hsize hlt (by omega) (by rw [hfirst]; exact hne)).cons
        ((lexesTo_commaJoin hsize hargs hC (by omega) (.inl hgt)).append
          (lexesTo_gt hsize hgt (by omega) ?_))
      rw [hpos, hafterA]
      exact hfollow
  -- the name, before a `<`, a `?` or a byte that ends the type
  have hpath : LexesTo l a (joinPath p).toList (pathShapes p) := by
    refine lexesTo_path hsize hp hnames hJ (by omega) ?_
    rw [hafterJ]
    cases args with
    | cons t ts =>
      simp only [argsText, List.isEmpty_cons, Bool.false_eq_true, if_false, List.cons_append,
        List.headD_cons]
      decide
    | nil =>
      cases n
      · exact hend.not_continue
      · simp only [argsText, nullText, List.isEmpty_nil, if_true, List.nil_append,
          List.headD_cons]
        decide
  exact (hpath.append hargsLex).append hnull

/-- The text of every type the parser can build lexes to the tokens of that type. -/
theorem lexesType {t : TypeExpr} (ht : Parsable t) : LexesType l t := by
  induction ht with
  | @named p args sp n hp hnames hargs ih =>
    intro a hread hstop hend
    rw [toList_render_named] at hread hstop hend ⊢
    rw [shapes]
    exact lexesTo_named hsize hp hnames ih
      (fun t ht => (hargs t (List.mem_of_mem_head? ht)).render_head) hread hstop hend
  | @array e sp n he _ ih =>
    intro a hread hstop hend
    rw [toList_render_array] at hread hstop hend ⊢
    rw [shapes]
    obtain ⟨hEB, hQ⟩ := ReadsAt.append.1 hread
    obtain ⟨hE, hB⟩ := ReadsAt.append.1 hEB
    obtain ⟨hlb, hB'⟩ := ReadsAt.cons.1 hB
    have hrb := (ReadsAt.cons.1 hB').1
    simp only [List.length_append, List.length_cons, List.length_nil] at hstop hend
    -- the element before its `[`, the brackets, then the `?`
    refine ((ih hE (by omega) (by rw [hlb]; simp [Ender])).append
      ((lexesTo_lBracket hsize hlb (by omega)).cons (lexesTo_rBracket hsize hrb (by omega)))).append
      (lexesTo_null hsize hQ (by simp; omega) ?_)
    convert hend using 2
    simp only [List.length_append, List.length_cons, List.length_nil]
    omega
  | @func ps r sp hps hr ihps ihr =>
    intro a hread hstop hend
    simp only [toList_render_func, nullText, Bool.false_eq_true, if_false, List.append_nil]
      at hread hstop hend ⊢
    simp only [shapes, nullShapes, Bool.false_eq_true, if_false, List.flatMap_nil, List.append_nil]
    obtain ⟨hPX, hR⟩ := ReadsAt.append.1 hread
    obtain ⟨hPC, hX⟩ := ReadsAt.append.1 hPX
    obtain ⟨hlp, hC⟩ := ReadsAt.cons.1 hPC
    obtain ⟨hrp, hX₁⟩ := ReadsAt.cons.1 hX
    obtain ⟨hb₁, hX₂⟩ := ReadsAt.cons.1 hX₁
    obtain ⟨hArr, hX₃⟩ := ReadsAt.append.1 (show l.ReadsAt _ (['-', '>'] ++ [' ']) from hX₂)
    have hb₂ := (ReadsAt.cons.1 hX₃).1
    simp only [List.length_append, List.length_cons, List.length_nil]
      at hstop hend hrp hb₁ hArr hb₂ ⊢
    have hrp' : l.peek (a + 1 + (commaJoin (renderAll ps)).toList.length) = ')' := by
      rwa [Nat.add_right_comm a]
    -- `(`, the parameters before `)`, then `) -> ` and the result
    refine (((lexesTo_lParen hsize hlp (by omega)).cons
      (lexesTo_commaJoin hsize ihps hC (by omega) (.inr hrp'))).append
      ((lexesTo_rParen hsize hrp (by omega)).cons (LexesTo.blank hb₁
        ((lexesTo_arrow hsize hArr (by omega)).append (LexesTo.blank hb₂ (LexesTo.nil _)))))).append
      (ihr hR (by simp only [List.length_append, List.length_cons, List.length_nil]; omega) ?_)
    convert hend using 2
    simp only [List.length_append, List.length_cons, List.length_nil]
    omega

end Render

/-- The text of a type the parser can build lexes to the tokens of that type, then the end of
file. -/
theorem tokenize_render (name : String) {t : TypeExpr} (ht : t.Parsable) :
    ∃ toks : List Token, toks.map Token.shape = t.shapes ∧ ∃ e : Token, e.kind = .eof ∧
      (ofSource (Source.ofText name t.render)).tokenize.1 = (toks ++ [e]).toArray := by
  obtain ⟨hread, hstart, hstop⟩ := @ofText_reads name t.render _ rfl
  have hsize : (ofSource (Source.ofText name t.render)).stop ≤
      (ofSource (Source.ofText name t.render)).source.size := by
    simp [ofSource, ofRange, Source.size, Source.ofText]
  obtain ⟨toks, hshapes, hfrom⟩ := lexesType hsize ht hread (by omega)
    (by rw [peek_of_stop_le (by omega)]; simp [Ender])
  obtain ⟨heof, -⟩ := @tokensFrom_of_stop_le (ofSource (Source.ofText name t.render))
    (0 + t.render.toList.length) (by omega)
  have htokens : (ofSource (Source.ofText name t.render)).tokenize.1.toList =
      toks ++ [(ofSource (Source.ofText name t.render)).token .eof (0 + t.render.toList.length)
        (0 + t.render.toList.length)] := by
    rw [tokenize_eq_tokensFrom, hstart, hfrom, heof]
  exact ⟨toks, hshapes, _, kind_token .., by rw [← Array.toList_inj, htokens, List.toList_toArray]⟩

end Lexer

namespace Parser

/-- A stream of the tokens of a type the parser can build, then the end of file, parses with no
error to that type. -/
theorem run_type_of_shapes {t : TypeExpr} (ht : t.Parsable) {toks : List Token} {e : Token}
    (hshapes : toks.map Token.shape = t.shapes) (he : e.kind = .eof) :
    ∃ t', run (toks ++ [e]).toArray type = (.ok t', []) ∧ t'.erase = t.erase := by
  have hvalid : ∀ tok ∈ (toks ++ [e]).toArray, tok.kind ≠ .invalid := by
    intro tok htok
    rcases List.mem_append.1 (List.mem_toArray.1 htok) with h | h
    · exact ht.shapes_valid tok.shape (hshapes ▸ List.mem_map_of_mem h)
    · rw [List.mem_singleton.1 h, he]
      decide
  have hinit := init_valid hvalid (by simp) he
  obtain ⟨t', hexec, herase⟩ := readsType ht [] (by simp) (n := fuelFor (toks ++ [e]).toArray)
    (show State.Ahead ⟨(toks ++ [e]).toArray, 0, #[], 0, 0⟩ (toks ++ []) from ⟨e, he, by simp⟩)
    (by simpa using hshapes) (by simp [EndsType]) (by simp [fuelFor]; omega)
  refine ⟨t', ?_, by simpa [TypeExpr.applyAll] using herase⟩
  have hstep : StateT.run (ExceptT.run (type (fuelFor (toks ++ [e]).toArray)))
      { tokens := (toks ++ [e]).toArray } = _ := hexec
  simp only [run, hinit, hstep]
  rfl

/-- What a whole run gives is what its parse gives from the first state. -/
theorem exec_of_run {α : Type} {ts : Array Token} {p : Nat → P α} {a : α}
    (h : (run ts p).1 = .ok a) :
    exec (p (fuelFor (State.init ts).tokens)) (State.init ts) =
      (.ok a, (exec (p (fuelFor (State.init ts).tokens)) (State.init ts)).2) :=
  Prod.ext h rfl

/-- The text of every type the parser can build lexes and parses whole, with no error, to that
type, spans aside. -/
theorem run_type_render (name : String) {t : TypeExpr} (ht : t.Parsable) :
    ∃ t', run (Lexer.ofSource (Source.ofText name t.render)).tokenize.1 type = (.ok t', []) ∧
      t'.erase = t.erase := by
  obtain ⟨toks, hshapes, e, he, htok⟩ := Lexer.tokenize_render name ht
  rw [htok]
  exact run_type_of_shapes ht hshapes he

/-- A type read from lexed text prints to a text that lexes and parses back, with no error, to
the same type, spans aside. -/
theorem type_render_reparses (l : Lexer) (name : String) {n : Nat} {s s' : State} {t : TypeExpr}
    (htokens : s.tokens = (State.init l.tokenize.1).tokens) (h : exec (type n) s = (.ok t, s')) :
    ∃ t', run (Lexer.ofSource (Source.ofText name t.render)).tokenize.1 type = (.ok t', []) ∧
      t'.erase = t.erase :=
  run_type_render name ((typesSound n).type (htokens ▸ lexed_init (Lexer.tokenize_names l)) h).1

/-- A nullable array of a named type is read, and its print is read back to it. -/
theorem nullable_array_reparses :
    ∃ t : TypeExpr, (run (Lexer.ofSource (Source.ofText "a" "Int[]?")).tokenize.1 type).1 = .ok t ∧
      ∃ t', run (Lexer.ofSource (Source.ofText "b" t.render)).tokenize.1 type = (.ok t', []) ∧
        t'.erase = t.erase := by
  have hname : Lexer.IsName "Int" :=
    ⟨⟨'I', ['n', 't'], rfl, rfl, by simp [Lexer.isIdentContinue, Lexer.isIdentStart]⟩, by decide⟩
  have ht : (TypeExpr.array (.named ["Int"] [] {} false) {} true).Parsable :=
    .array (.named (by simp) (by simpa using hname) (by simp)) rfl
  have htext : (TypeExpr.array (.named ["Int"] [] {} false) {} true).render = "Int[]?" := by decide
  obtain ⟨t, hrun, -⟩ := run_type_render "a" ht
  rw [htext] at hrun
  have hfst := congrArg Prod.fst hrun
  exact ⟨t, hfst, type_render_reparses _ "b" rfl (exec_of_run hfst)⟩

end Parser

end AmLang
