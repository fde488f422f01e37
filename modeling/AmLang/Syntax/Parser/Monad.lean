import AmLang.Syntax.Ast
import AmLang.Diagnostic.Basic
/-!
# The parser's state and primitives

The parser reads a token array with a cursor. It keeps the errors it has reported, the depth of
`scope { }` blocks (a `mock` is allowed only inside one) and the number of `{` consumed minus
the number of `}` consumed, which error recovery uses to find the end of a broken declaration.

A parse step either succeeds or fails with one error; a failure keeps what the step did to the
state, so a caller that recovers from it goes on from where the failed step stopped.

Invalid tokens are reported when the parser is set up and removed from the stream, except those
that stand where a literal was meant (their text starts with a quote or a digit): they stay as
literals, so the expression around them still parses.
-/

namespace AmLang.Parser

/-- The state of a parse. -/
structure State where
  tokens : Array Token
  pos : Nat := 0
  errors : Array Diagnostic := #[]
  scopeDepth : Nat := 0
  braceDepth : Int := 0

/-- Parse steps: they read and advance the state, and may fail with one error. -/
abbrev P := ExceptT Diagnostic (StateM State)

/-- Whether an invalid token stands where a literal was meant. -/
def literalLike (t : Token) : Bool :=
  match t.lexeme.toList with
  | c :: _ => c == '"' || c == '\'' || c.isDigit
  | [] => false

/-- The error an invalid token is reported as. An unbalanced interpolation is a syntax error;
every other invalid token is an invalid-token error. -/
def invalidTokenError (t : Token) : Option Diagnostic :=
  match t.value with
  | .invalid message code =>
    let kind := if code == Code.unbalancedInterpolation then Diagnostic.Kind.syntaxError
      else .invalidToken
    some (Diagnostic.error kind code message t.span)
  | _ => none

/-- The state for a token stream: invalid tokens reported and, unless literal-like, dropped; an
end-of-file token added if the stream lacks one. -/
def State.init (tokens : Array Token) : State :=
  let errors := tokens.toList.filterMap fun t =>
    if t.kind == .invalid then invalidTokenError t else none
  let kept := tokens.filter fun t => t.kind != .invalid || literalLike t
  let kept := match kept.back? with
    | some t => if t.kind == .eof then kept else kept.push { kind := .eof, span := ⟨t.span.stop, t.span.stop⟩, lexeme := "" }
    | none => kept.push { kind := .eof, span := {}, lexeme := "" }
  { tokens := kept, errors := errors.toArray }

/-! ## Reading tokens -/

/-- The token at the cursor; the last token (end of file) once past it. -/
def peek : P Token := do
  let s ← get
  pure (s.tokens.getD (min s.pos (s.tokens.size - 1)) default)

/-- The token after the cursor. -/
def peekNext : P Token := do
  let s ← get
  pure (s.tokens.getD (min (s.pos + 1) (s.tokens.size - 1)) default)

/-- The token before the cursor (the first token at the start). -/
def previous : P Token := do
  let s ← get
  pure (s.tokens.getD (if s.pos > 0 then s.pos - 1 else 0) default)

/-- Whether the cursor is at the end of file. -/
def atEnd : P Bool := do pure ((← peek).kind == .eof)

/-- Whether the token at the cursor has kind `k`. -/
def check (k : TokenKind) : P Bool := do pure ((← peek).kind == k)

/-- Whether the token after the cursor has kind `k`. -/
def checkNext (k : TokenKind) : P Bool := do pure ((← peekNext).kind == k)

/-- Moves past the token at the cursor, counting braces; stays at the end of file. Returns the
token moved past. -/
def advance : P Token := do
  let t ← peek
  if t.kind != .eof then
    modify fun s => { s with
      pos := s.pos + 1
      braceDepth := if t.kind == .lBrace then s.braceDepth + 1
        else if t.kind == .rBrace then s.braceDepth - 1 else s.braceDepth }
  previous

/-- Moves past a token of kind `k` if there is one. -/
def accept (k : TokenKind) : P Bool := do
  if ← check k then
    let _ ← advance
    pure true
  else pure false

/-- How a token is named in "found" messages: its text in quotes, or its kind's name when it
has no text. -/
def describe (t : Token) : String :=
  if t.kind == .eof || t.lexeme.isEmpty then t.kind.describe else "'" ++ t.lexeme ++ "'"

/-- The error "expected `what`, found …" at the cursor. -/
def errorHere (what : String) : P Diagnostic := do
  let t ← peek
  pure (Diagnostic.error .syntaxError Code.unexpectedToken
    ("expected " ++ what ++ ", found " ++ describe t) t.span)

/-- Fails with "expected `what`, found …" at the cursor. -/
def fail {α : Type} (what : String) : P α := do throw (← errorHere what)

/-- Moves past a token of kind `k`, or fails with "expected `what`". -/
def expect (k : TokenKind) (what : String) : P Token := do
  if ← check k then advance else fail what

/-- The span from the start of `start` to the end of the token before the cursor. -/
def spanFrom (start : Span) : P Span := do pure (Span.merge start (← previous).span)

/-- The number of semicolons from index `i` on. -/
def semisFrom (tokens : Array Token) (i : Nat) : Nat :=
  if i < tokens.size then
    if (tokens.getD i default).kind == .semi then semisFrom tokens (i + 1) + 1 else 0
  else 0
termination_by tokens.size - i

/-- Moves past any semicolons. -/
def skipSemis : P Unit :=
  modify fun s => { s with pos := s.pos + semisFrom s.tokens s.pos }

/-- Records an error and goes on. -/
def report (d : Diagnostic) : P Unit := modify fun s => { s with errors := s.errors.push d }

/-- A parse step that fails for lack of fuel; the entry points give enough for any input. -/
def exhausted {α : Type} : P α := do
  throw (Diagnostic.error .internalError Code.internal "nesting too deep" (← peek).span)

/-- The number of tokens left, an upper bound on the steps that each consume one. -/
def remaining : P Nat := do
  let s ← get
  pure (s.tokens.size - s.pos + 1)

/-- Whether recovery stops at a token: class, interface, namespace, import and test always (they
never stand inside a body); a function start, modifier, directive or closing brace only at the
brace depth it was asked for. -/
def stopsRecovery (k : TokenKind) (atDepth : Bool) : Bool :=
  match k with
  | .kwClass | .kwInterface | .kwNamespace | .kwImport | .kwTest => true
  | .kwFun | .directive | .kwAbstract | .kwStatic | .kwOverride | .kwSuspend | .kwNative
  | .rBrace => atDepth
  | _ => false

/-- Skips tokens until a declaration can start at brace depth `depth`. -/
def recoverLoop (depth : Int) : Nat → P Unit
  | 0 => pure ()
  | fuel + 1 => do
    let t ← peek
    if t.kind == .eof then return
    let s ← get
    if stopsRecovery t.kind (s.braceDepth == depth) then
      match t.kind with
      | .kwClass | .kwInterface | .kwNamespace | .kwImport | .kwTest =>
        -- a declaration that never stands in a body: assume the missing braces
        modify fun s => { s with braceDepth := depth }
      | _ => pure ()
      return
    let _ ← advance
    recoverLoop depth fuel

/-- Recovery after a failed declaration: always moves past the offending token, unless it is a
`}` closing an enclosing body, then skips to the next place a declaration can start at brace
depth `depth`. -/
def synchronize (depth : Int) : P Unit := do
  let t ← peek
  let s ← get
  if t.kind != .eof && !(t.kind == .rBrace && s.braceDepth ≤ depth) then
    let _ ← advance
  recoverLoop depth (← remaining)

end AmLang.Parser
