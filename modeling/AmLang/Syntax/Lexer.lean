import AmLang.Syntax.Token
import AmLang.Diagnostic.Basic
import AmLang.Text.Bytes
/-!
# The lexer

Turns a byte range of a `Source` into tokens. Blanks (space, tab, carriage return, newline),
line comments `// …` and block comments `/* … */` (which do not nest) separate tokens and are
dropped. Every token starts where the previous one, or the blanks after it, ended, and every
scan step that is not the end of input consumes at least one byte.

The first byte of a token decides its class: a letter, `_` or a byte from `0x80` up starts an
identifier or keyword; a digit a number; `"` a string; `'` a character; `#` a directive; any
other byte an operator or delimiter (longest match: `?.` before `?`, `->` before `-`).

A string with interpolation is lexed as a whole run of tokens at once: the code inside `${ … }`
is lexed by a lexer over just that range of the same source, so its tokens keep their exact
positions. `nextToken` hands such a run out one token at a time.

A scan step also records the invalid tokens it made, in order, together with those of a string
that was then rejected as a whole; the compiler's trace log names every one of them.

## Main definitions

* `Lexer` — a source with the range `[start, stop)` to lex.
* `Lexer.scan` — the tokens of one step (one token, or an interpolated string's run).
* `Lexer.tokenize` — all tokens of the range, ending with the one `eof` token.
* `Lexer.nextToken` — the same tokens one at a time, through a `Lexer.Cursor`.
-/

namespace AmLang

/-- A source and the byte range `[start, stop)` of it to lex; `stop` is at most the size. -/
structure Lexer where
  source : Source
  start : Nat
  stop : Nat

/-- The invalid tokens made by a scan, as offset and message. -/
abbrev Rejections := List (Nat × String)

/-- The result of one scan step: the tokens made, where lexing goes on, and the invalid tokens
made on the way. -/
structure Scan where
  tokens : List Token
  next : Nat
  made : Rejections := []

namespace Lexer

/-- The lexer over `[start, stop)` of `source`, with `stop` clamped to the source's size. -/
def ofRange (source : Source) (start stop : Nat) : Lexer :=
  { source, start, stop := min stop source.size }

/-- The lexer over the whole source. -/
def ofSource (source : Source) : Lexer := ofRange source 0 source.size

/-- The byte at `pos`, or NUL at or past the end of the range. -/
def peek (l : Lexer) (pos : Nat) : Char :=
  if pos < l.stop then l.source.byteAt pos else '\x00'

/-- A token of kind `kind` spanning `[a, b)`. -/
def token (l : Lexer) (kind : TokenKind) (a b : Nat) : Token :=
  { kind, span := l.source.spanOf a b, lexeme := l.source.slice a b }

/-- An invalid token spanning `[a, b)`. -/
def invalid (l : Lexer) (message code : String) (a b : Nat) : Token :=
  { l.token .invalid a b with value := .invalid message code }

/-- A scan step that made the single token `t` and goes on at `next`. -/
def single (t : Token) (next : Nat) : Scan :=
  { tokens := [t], next, made := if t.kind == .invalid then
      match t.value with
      | .invalid m _ => [(t.span.start.offset, m)]
      | _ => []
    else [] }

/-! ## Character classes -/

/-- Letters, `_` and every byte from `0x80` up start an identifier. -/
def isIdentStart (c : Char) : Bool :=
  ('a' ≤ c && c ≤ 'z') || ('A' ≤ c && c ≤ 'Z') || c == '_' || c.toNat ≥ 0x80

/-- Identifiers go on with identifier starts and digits. -/
def isIdentContinue (c : Char) : Bool := isIdentStart c || c.isDigit

/-- Hexadecimal digits of either case. -/
def isHexDigit (c : Char) : Bool :=
  c.isDigit || ('a' ≤ c && c ≤ 'f') || ('A' ≤ c && c ≤ 'F')

/-- The first position from `pos` whose byte fails `p`, or the end of the range. -/
def skipWhile (l : Lexer) (p : Char → Bool) (pos : Nat) : Nat :=
  if pos < l.stop then
    if p (l.source.byteAt pos) then skipWhile l p (pos + 1) else pos
  else pos
termination_by l.stop - pos

/-! ## Blanks and comments -/

/-- The end of a block comment whose body starts at `pos`: just after its `*/`, or `none` when
the range ends first. -/
def blockCommentEnd (l : Lexer) (pos : Nat) : Option Nat :=
  if pos < l.stop then
    if l.peek pos = '*' ∧ l.peek (pos + 1) = '/' then some (pos + 2)
    else blockCommentEnd l (pos + 1)
  else none
termination_by l.stop - pos

/-- Skips blanks and comments from `pos`. An unterminated block comment is an invalid token
reaching to the end of the range. -/
def skipTrivia (l : Lexer) (pos : Nat) : Nat ⊕ Token :=
  if pos < l.stop then
    let c := l.peek pos
    if c = ' ' ∨ c = '\t' ∨ c = '\r' ∨ c = '\n' then skipTrivia l (pos + 1)
    else if c = '/' ∧ l.peek (pos + 1) = '/' then
      skipTrivia l (max (l.skipWhile (· != '\n') pos) (pos + 1))
    else if c = '/' ∧ l.peek (pos + 1) = '*' then
      match l.blockCommentEnd (pos + 2) with
      | some e => skipTrivia l (max e (pos + 1))
      | none =>
        .inr (l.invalid "unterminated block comment" Code.unterminated pos (max (pos + 2) l.stop))
    else .inl pos
  else .inl pos
termination_by l.stop - pos

/-! ## Identifiers, directives, operators -/

/-- An identifier, keyword or literal word starting at `a`. -/
def scanWord (l : Lexer) (a : Nat) : Token × Nat :=
  let b := l.skipWhile isIdentContinue a
  let text := l.source.slice a b
  match TokenKind.keyword? text with
  | none => (l.token .identifier a b, b)
  | some .boolLit => ({ l.token .boolLit a b with value := .bool (text == "true") }, b)
  | some k => (l.token k a b, b)

/-- A `#require NAME` or `#requireNot NAME` directive starting at `a`. The name may hold
identifier bytes, `.` and `-`. -/
def scanDirective (l : Lexer) (a : Nat) : Token × Nat :=
  let wordEnd := l.skipWhile isIdentContinue (a + 1)
  let word := l.source.slice (a + 1) wordEnd
  if word != "require" && word != "requireNot" then
    (l.invalid ("unknown directive '#" ++ word ++ "'") Code.unknownDirective a wordEnd, wordEnd)
  else
    let nameStart := l.skipWhile (fun c => c == ' ' || c == '\t') wordEnd
    let nameEnd := l.skipWhile (fun c => isIdentContinue c || c == '.' || c == '-') nameStart
    if nameStart = nameEnd then
      (l.invalid ("expected a feature name after '#" ++ word ++ "'") Code.unknownDirective a
        nameEnd, nameEnd)
    else
      ({ l.token .directive a nameEnd with
          value := .require (l.source.slice nameStart nameEnd) (word == "requireNot") },
        nameEnd)

/-- An operator or delimiter starting at `a`, or an invalid token for a byte that starts none. -/
def scanOperator (l : Lexer) (a : Nat) : Token × Nat :=
  let c := l.peek a
  let n := l.peek (a + 1)
  let one (k : TokenKind) : Token × Nat := (l.token k a (a + 1), a + 1)
  let two (k : TokenKind) : Token × Nat := (l.token k a (a + 2), a + 2)
  let bad : Token × Nat :=
    (l.invalid ("unexpected character '" ++ c.toString ++ "'") Code.invalidChar a (a + 1), a + 1)
  match c with
  | '(' => one .lParen
  | ')' => one .rParen
  | '{' => one .lBrace
  | '}' => one .rBrace
  | '[' => one .lBracket
  | ']' => one .rBracket
  | ',' => one .comma
  | ':' => one .colon
  | ';' => one .semi
  | '.' => one .dot
  | '~' => one .tilde
  | '+' => if n = '=' then two .plusAssign else one .plus
  | '-' => if n = '>' then two .arrow else if n = '=' then two .minusAssign else one .minus
  | '*' => if n = '=' then two .starAssign else one .star
  | '/' => if n = '=' then two .slashAssign else one .slash
  | '%' => if n = '=' then two .percentAssign else one .percent
  | '=' => if n = '=' then two .eq else if n = '>' then two .fatArrow else one .assign
  | '!' => if n = '=' then two .ne else one .bang
  | '<' => if n = '=' then two .le else one .lt
  | '>' => if n = '=' then two .ge else one .gt
  | '&' => if n = '&' then two .andAnd else bad
  | '|' => if n = '|' then two .orOr else bad
  | '?' => if n = '.' then two .safeDot else one .question
  | _ => bad

/-! ## Numbers -/

/-- Whether a character is a type suffix of a decimal literal. -/
def isNumberSuffix (c : Char) : Bool :=
  c == 'L' || c == 'l' || c == 'F' || c == 'f' || c == 'D' || c == 'd'

/-- The end of the text of a number starting at `a`: a radix literal, or decimal digits with
an optional fraction (only when a digit follows the point), exponent (only when digits follow)
and suffix. -/
def numberEnd (l : Lexer) (a : Nat) : Nat :=
  let n := l.peek (a + 1)
  if l.peek a = '0' ∧ (n = 'x' ∨ n = 'X' ∨ n = 'b' ∨ n = 'B') then
    let p := l.skipWhile (fun c => isHexDigit c || c == '_') (a + 2)
    if l.peek p = 'L' ∨ l.peek p = 'l' then p + 1 else p
  else
    let p := l.skipWhile (fun c => c.isDigit || c == '_') a
    let p := if l.peek p = '.' ∧ (l.peek (p + 1)).isDigit then
        l.skipWhile (fun c => c.isDigit || c == '_') (p + 1)
      else p
    let p := if l.peek p = 'e' ∨ l.peek p = 'E' then
        let s := l.peek (p + 1)
        if s.isDigit then l.skipWhile Char.isDigit (p + 1)
        else if (s = '+' ∨ s = '-') ∧ (l.peek (p + 2)).isDigit then
          l.skipWhile Char.isDigit (p + 2)
        else p
      else p
    if isNumberSuffix (l.peek p) then p + 1 else p

/-- A number literal starting at `a`. Identifier bytes right after it make the whole run one
invalid literal. -/
def scanNumber (l : Lexer) (a : Nat) : Token × Nat :=
  let p := l.numberEnd a
  if p < l.stop ∧ isIdentContinue (l.peek p) then
    let q := l.skipWhile isIdentContinue p
    (l.invalid ("invalid number literal '" ++ l.source.slice a q ++ "'") Code.invalidNumber a q, q)
  else
    match NumberLiteral.parse (l.source.slice a p) with
    | .error e => (l.invalid e.message Code.invalidNumber a p, p)
    | .ok n =>
      let kind := if n.isIntegral then TokenKind.intLit else TokenKind.floatLit
      ({ l.token kind a p with value := .number n }, p)

/-! ## Escapes and UTF-8 -/

/-- The UTF-8 bytes of a code point below `2 ^ 21`. -/
def utf8Bytes (cp : Nat) : List Char :=
  if cp < 0x80 then [Char.ofNat cp]
  else if cp < 0x800 then
    [Char.ofNat (0xC0 ||| (cp >>> 6)), Char.ofNat (0x80 ||| (cp &&& 0x3F))]
  else if cp < 0x10000 then
    [Char.ofNat (0xE0 ||| (cp >>> 12)), Char.ofNat (0x80 ||| ((cp >>> 6) &&& 0x3F)),
     Char.ofNat (0x80 ||| (cp &&& 0x3F))]
  else
    [Char.ofNat (0xF0 ||| (cp >>> 18)), Char.ofNat (0x80 ||| ((cp >>> 12) &&& 0x3F)),
     Char.ofNat (0x80 ||| ((cp >>> 6) &&& 0x3F)), Char.ofNat (0x80 ||| (cp &&& 0x3F))]

/-- The result of reading an escape: where reading goes on, and the code unit with its bytes,
or the error. -/
structure Escape where
  next : Nat
  result : Except String (Nat × List Char)

/-- Reads the four hex digits of a `\u` escape from `pos`, with the value read so far. -/
def unicodeEscape (l : Lexer) (pos : Nat) (acc : Nat) : Nat → Escape
  | 0 => ⟨pos, .ok (acc, utf8Bytes acc)⟩
  | k + 1 =>
    match Bytes.hexDigit? (l.peek pos) with
    | some d => unicodeEscape l (pos + 1) (acc * 16 + d) k
    | none => ⟨pos, .error "'\\u' escape needs exactly four hex digits"⟩

/-- Reads an escape whose backslash ends just before `pos`. At the end of the range the
escaped character is NUL and nothing is consumed. -/
def escape (l : Lexer) (pos : Nat) : Escape :=
  let c := l.peek pos
  let next := if pos < l.stop then pos + 1 else pos
  let simple (unit : Nat) : Escape := ⟨next, .ok (unit, [Char.ofNat unit])⟩
  match c with
  | 'n' => simple 10
  | 't' => simple 9
  | 'r' => simple 13
  | '\\' => simple 92
  | '"' => simple 34
  | '\'' => simple 39
  | '0' => simple 0
  | '$' => simple 36
  | 'u' => l.unicodeEscape next 0 4
  | _ => ⟨next, .error ("invalid escape sequence '\\" ++ c.toString ++ "'")⟩

/-- Decodes the UTF-8 sequence at `pos` (which is in range): the code point and where it ends.
A bad lead byte or a missing continuation byte gives U+FFFD; the bad byte is not consumed. -/
def decodeUtf8 (l : Lexer) (pos : Nat) : Nat × Nat :=
  let lead := (l.peek pos).toNat
  let cont (n : Nat) (cp : Nat) : Nat × Nat :=
    let rec go (i : Nat) (p : Nat) (cp : Nat) : Nat × Nat :=
      match i with
      | 0 => (cp, p)
      | i + 1 =>
        let c := (l.peek p).toNat
        if c &&& 0xC0 != 0x80 then (0xFFFD, p) else go i (p + 1) ((cp <<< 6) ||| (c &&& 0x3F))
    go n (pos + 1) cp
  if lead < 0x80 then (lead, pos + 1)
  else if lead &&& 0xE0 = 0xC0 then cont 1 (lead &&& 0x1F)
  else if lead &&& 0xF0 = 0xE0 then cont 2 (lead &&& 0x0F)
  else if lead &&& 0xF8 = 0xF0 then cont 3 (lead &&& 0x07)
  else (0xFFFD, pos + 1)

/-! ## Characters -/

/-- A character literal starting at `a`: one character or escape between quotes, fitting one
UTF-16 code unit. -/
def scanChar (l : Lexer) (a : Nat) : Token × Nat :=
  let p := a + 1
  if l.peek p = '\'' then
    (l.invalid "empty character literal" Code.invalidChar a (p + 1), p + 1)
  else if p ≥ l.stop ∨ l.peek p = '\n' then
    (l.invalid "unterminated character literal" Code.unterminated a p, p)
  else
    let (unit, err, q) : Nat × Option String × Nat :=
      if l.peek p = '\\' then
        let e := l.escape (p + 1)
        match e.result with
        | .ok (u, _) => (u, none, e.next)
        | .error m => (0, some m, e.next)
      else
        let (cp, q) := l.decodeUtf8 p
        (cp, none, q)
    if l.peek q ≠ '\'' then
      let r := l.skipWhile (fun c => c != '\'' && c != '\n') q
      if l.peek r = '\'' then
        (l.invalid "character literal holds more than one character" Code.invalidChar a (r + 1),
          r + 1)
      else (l.invalid "unterminated character literal" Code.unterminated a r, r)
    else
      let e := q + 1
      match err with
      | some m => (l.invalid m Code.invalidEscape a e, e)
      | none =>
        if unit > 0xFFFF then
          (l.invalid "character does not fit in one UTF-16 code unit" Code.invalidChar a e, e)
        else ({ l.token .charLit a e with value := .char unit }, e)

/-! ## Matching braces of interpolations -/

mutual

/-- The index of the `}` closing a brace opened before `i` at nesting `depth`, skipping nested
braces and quoted literals, within the first `limit` bytes; `none` at a newline or the limit. -/
def closingBrace (src : Source) (limit i depth : Nat) : Option Nat :=
  if i < limit then
    let c := src.byteAt i
    if c = '"' ∨ c = '\'' then
      match quotedEnd src limit (i + 1) c with
      | none => none
      -- the end is never before `i + 1`; the `max` only makes that visible
      | some j => closingBrace src limit (max j (i + 1)) depth
    else if c = '{' then closingBrace src limit (i + 1) (depth + 1)
    else if c = '}' then
      if depth ≤ 1 then some i else closingBrace src limit (i + 1) (depth - 1)
    else if c = '\n' then none
    else closingBrace src limit (i + 1) depth
  else none
termination_by limit - i

/-- The index just after the quote `q` closing a literal whose body starts at `i`; a backslash
skips the next byte, and `${ … }` inside a string is skipped whole. -/
def quotedEnd (src : Source) (limit i : Nat) (q : Char) : Option Nat :=
  if i < limit then
    let c := src.byteAt i
    if c = '\n' then none
    else if c = '\\' then quotedEnd src limit (i + 2) q
    else if c = q then some (i + 1)
    else if q = '"' ∧ c = '$' ∧ i + 1 < limit ∧ src.byteAt (i + 1) = '{' then
      match closingBrace src limit (i + 2) 1 with
      | none => none
      | some j => quotedEnd src limit (max (j + 1) (i + 1)) q
    else quotedEnd src limit (i + 1) q
  else none
termination_by limit - i

end

/-! ## Strings and the scan step -/

/-- The state of a string being lexed: the run of tokens so far, the text of the current
segment and where it began, whether the string interpolates, and the first escape error. -/
structure StringState where
  run : Array Token := #[]
  text : List Char := []
  textStart : Nat
  interpolated : Bool := false
  escapeError : Option String := none
  made : Rejections := []

/-- Closes the current text segment at `stop`, adding it to the run unless it is empty. -/
def StringState.flush (l : Lexer) (st : StringState) (stop : Nat) : StringState :=
  if st.text.isEmpty then st
  else
    let seg := { l.token .interpText st.textStart stop with
      value := .text (String.ofList st.text.reverse) }
    { st with run := st.run.push seg, text := [] }

/-- The lexer for the code inside `${ … }`, over `[a, b)` of the same source. -/
def inner (l : Lexer) (a b : Nat) : Lexer := { l with start := a, stop := b }

/-- The end of the current line, or of the range. -/
def lineEnd (l : Lexer) (pos : Nat) : Nat := l.skipWhile (· != '\n') pos

/-- The message of a `$\x7b` without its closing brace on the same line. -/
def unbalancedMessage : String := "unbalanced '$\x7b' in string interpolation"

/-- A string whose `$\x7b` at `pos` has no closing brace: invalid up to the end of the line. -/
def unbalanced (l : Lexer) (a pos : Nat) (st : StringState) : Scan :=
  let e := l.lineEnd (pos + 2)
  ⟨[l.invalid unbalancedMessage Code.unbalancedInterpolation a e], e,
    st.made ++ [(a, unbalancedMessage)]⟩

/-- A string that opened at `a` and whose closing quote ends just before `next`: invalid if an
escape was bad, one string token if nothing was interpolated, else the run of its segments
between an `interpStart` and an `interpEnd`. -/
def finishString (l : Lexer) (a next : Nat) (st : StringState) : Scan :=
  match st.escapeError with
  | some m => ⟨[l.invalid m Code.invalidEscape a next], next, st.made ++ [(a, m)]⟩
  | none =>
    if !st.interpolated then
      ⟨[{ l.token .stringLit a next with value := .text (String.ofList st.text.reverse) }],
        next, st.made⟩
    else
      let st := st.flush l (next - 1)
      let run := st.run.push (l.token .interpEnd (next - 1) next)
      ⟨l.token .interpStart a (a + 1) :: run.toList, next, st.made⟩

/-- The tokens of a range up to its end, the invalid tokens made on the way, and the offset of
the end-of-file token. -/
structure Run where
  tokens : Array Token := #[]
  made : Rejections := []
  eofAt : Nat

mutual

/-- One scan step at `pos`: blanks and comments are skipped, then one token is read, or the
whole run of an interpolated string. At the end of the range the step is the `eof` token. -/
def scan (l : Lexer) (pos : Nat) : Scan :=
  match l.skipTrivia pos with
  | .inr bad => single bad l.stop
  | .inl a =>
    if a < l.stop then
      let c := l.peek a
      if isIdentStart c then let (t, n) := l.scanWord a; single t n
      else if c.isDigit then let (t, n) := l.scanNumber a; single t n
      else if c = '"' then scanString l a (a + 1) { textStart := a + 1 }
      else if c = '\'' then let (t, n) := l.scanChar a; single t n
      else if c = '#' then let (t, n) := l.scanDirective a; single t n
      else let (t, n) := l.scanOperator a; single t n
    else single (l.token .eof a a) a
termination_by (l.stop, 1, 0)

/-- Lexes the rest of a string literal that opened at `a`, from `pos`. -/
def scanString (l : Lexer) (a pos : Nat) (st : StringState) : Scan :=
  if h : pos < l.stop then
    let c := l.peek pos
    if c = '\n' then
      let t := l.invalid "unterminated string literal" Code.unterminated a pos
      ⟨[t], pos, st.made ++ [(a, "unterminated string literal")]⟩
    else if c = '"' then finishString l a (pos + 1) st
    else if c = '\\' then
      let e := l.escape (pos + 1)
      let st := match e.result with
        | .ok (_, bytes) => { st with text := bytes.reverse ++ st.text }
        | .error m => if st.escapeError.isNone then { st with escapeError := some m } else st
      scanString l a (max e.next (pos + 1)) st
    else if c = '$' ∧ l.peek (pos + 1) = '{' then
      let st := { st.flush l pos with interpolated := true }
      match closingBrace l.source l.stop (pos + 2) 1 with
      | some close =>
        if hc : close < l.stop then
          let body := scanRun (l.inner (pos + 2) close) (pos + 2) (close - pos)
          let run := (st.run.push (l.token .interpExprStart pos (pos + 2))) ++ body.tokens
          let run := run.push (l.token .interpExprEnd close (close + 1))
          scanString l a (max (close + 1) (pos + 1))
            { st with run, textStart := close + 1, made := st.made ++ body.made }
        else unbalanced l a pos st
      | none => unbalanced l a pos st
    else if c = '$' ∧ isIdentStart (l.peek (pos + 1)) then
      let st := { st.flush l pos with interpolated := true }
      let e := l.skipWhile isIdentContinue (pos + 1)
      let ident := { l.token .interpIdent (pos + 1) e with
        value := .text (l.source.slice (pos + 1) e) }
      scanString l a (max e (pos + 1)) { st with run := st.run.push ident, textStart := e }
    else scanString l a (pos + 1) { st with text := c :: st.text }
  else
    let t := l.invalid "unterminated string literal" Code.unterminated a pos
    ⟨[t], pos, st.made ++ [(a, "unterminated string literal")]⟩
termination_by (l.stop, 0, l.stop - pos)

/-- The tokens of the range of `l` from `pos` up to the end of file. Each step consumes a
byte, so `fuel` steps more than the bytes left cover the range. -/
def scanRun (l : Lexer) (pos : Nat) : Nat → Run
  | 0 => { eofAt := pos }
  | fuel + 1 =>
    let s := scan l pos
    match s.tokens with
    | [t] =>
      if t.kind == .eof then { made := s.made, eofAt := s.next }
      else
        let rest := scanRun l s.next fuel
        { rest with tokens := #[t] ++ rest.tokens, made := s.made ++ rest.made }
    | ts =>
      let rest := scanRun l s.next fuel
      { rest with tokens := ts.toArray ++ rest.tokens, made := s.made ++ rest.made }
termination_by fuel => (l.stop, 2, fuel)

end

/-- All tokens of the range, ending with the one `eof` token, and the invalid tokens made. -/
def tokenize (l : Lexer) : Array Token × Rejections :=
  let r := scanRun l l.start (l.stop - l.start + 1)
  (r.tokens.push (l.token .eof r.eofAt r.eofAt), r.made)

/-- Where lazy lexing stands: the next offset, and the tokens of a run not yet handed out. -/
structure Cursor where
  pos : Nat
  pending : List Token := []

/-- The cursor at the start of the range. -/
def begin (l : Lexer) : Cursor := ⟨l.start, []⟩

/-- The next token and the cursor after it, with the invalid tokens made by the step. -/
def nextToken (l : Lexer) (c : Cursor) : Token × Cursor × Rejections :=
  match c.pending with
  | t :: rest => (t, { c with pending := rest }, [])
  | [] =>
    let s := l.scan c.pos
    match s.tokens with
    | t :: rest => (t, ⟨s.next, rest⟩, s.made)
    | [] => (l.token .eof c.pos c.pos, c, s.made)

/-- The first `n` tokens handed out one at a time, and the cursor after them. -/
def takeTokens (l : Lexer) : Nat → Cursor → List Token × Cursor
  | 0, c => ([], c)
  | n + 1, c =>
    let (t, c, _) := l.nextToken c
    let (ts, c) := l.takeTokens n c
    (t :: ts, c)

/-- Tokens handed out from `c` up to and including the first end of file, in at most `fuel`
calls, and the invalid tokens made on the way. -/
def drain (l : Lexer) : Nat → Cursor → List Token × Rejections
  | 0, _ => ([], [])
  | fuel + 1, c =>
    let (t, c, made) := l.nextToken c
    if t.kind == .eof then ([t], made)
    else
      let (ts, rest) := l.drain fuel c
      (t :: ts, made ++ rest)

/-- Everything left from a cursor, ending with the end of file: what `tokenize` gives on a lexer
that has already handed tokens out. Each call hands out a pending token or lexes forward, and
the tokens it lexes cover at least a byte each, so one call more than the pending tokens and
the bytes left reaches the end of file. -/
def remaining (l : Lexer) (c : Cursor) : List Token × Rejections :=
  l.drain (c.pending.length + (l.stop - c.pos) + 1) c

/-- Restarts lexing at the start of the range; the tokens still pending from an interpolated
string are dropped. -/
def reset (l : Lexer) (_ : Cursor) : Cursor := l.begin

end Lexer

end AmLang
