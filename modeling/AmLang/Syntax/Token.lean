import AmLang.Syntax.Source
import AmLang.Syntax.NumberLiteral
/-!
# Tokens

The lexical units of AmLang. A string holding `$name` or `${expr}` is not one token but a run:
an `interpStart`, then text, `$` identifier and `${ … }` segments (the tokens of the embedded
expression between an `interpExprStart` and an `interpExprEnd`), then an `interpEnd`.

Malformed input never stops the lexer: it becomes an `invalid` token carrying a message and a
diagnostic code, which the parser reports.

## Main definitions

* `TokenKind`, with `TokenKind.describe`, the name used in "expected X, found Y" messages.
* `TokenKind.keyword?` — the reserved words.
* `Token` — kind, span, source text and value.
-/

namespace AmLang

/-- The kinds of tokens. -/
inductive TokenKind where
  | eof
  | invalid
  | intLit
  | floatLit
  | stringLit
  | charLit
  | boolLit
  | nullLit
  | interpStart
  | interpText
  | interpIdent
  | interpExprStart
  | interpExprEnd
  | interpEnd
  | identifier
  | directive
  | kwNamespace
  | kwImport
  | kwClass
  | kwInterface
  | kwExtends
  | kwImplements
  | kwFun
  | kwVar
  | kwVal
  | kwStatic
  | kwOverride
  | kwAbstract
  | kwSuspend
  | kwNative
  | kwNew
  | kwThis
  | kwSuper
  | kwIf
  | kwElse
  | kwWhile
  | kwFor
  | kwTo
  | kwLoop
  | kwSwitch
  | kwCase
  | kwDefault
  | kwReturn
  | kwThrow
  | kwBreak
  | kwContinue
  | kwIs
  | kwAs
  | kwTest
  | kwMock
  | kwScope
  | plus
  | minus
  | star
  | slash
  | percent
  | assign
  | plusAssign
  | minusAssign
  | starAssign
  | slashAssign
  | percentAssign
  | eq
  | ne
  | lt
  | le
  | gt
  | ge
  | andAnd
  | orOr
  | bang
  | tilde
  | question
  | safeDot
  | arrow
  | fatArrow
  | lParen
  | rParen
  | lBrace
  | rBrace
  | lBracket
  | rBracket
  | comma
  | colon
  | semi
  | dot
deriving Repr, BEq, DecidableEq, Inhabited

namespace TokenKind

/-- The reserved words with the kinds they lex to; `true`, `false` and `null` are literals. -/
def reserved : List (String × TokenKind) :=
  [("namespace", .kwNamespace), ("import", .kwImport), ("class", .kwClass),
   ("interface", .kwInterface), ("extends", .kwExtends), ("implements", .kwImplements),
   ("fun", .kwFun), ("var", .kwVar), ("val", .kwVal), ("static", .kwStatic),
   ("override", .kwOverride), ("abstract", .kwAbstract), ("suspend", .kwSuspend),
   ("native", .kwNative), ("new", .kwNew), ("this", .kwThis), ("super", .kwSuper),
   ("is", .kwIs), ("as", .kwAs), ("if", .kwIf), ("else", .kwElse), ("while", .kwWhile),
   ("for", .kwFor), ("to", .kwTo), ("loop", .kwLoop), ("switch", .kwSwitch),
   ("case", .kwCase), ("default", .kwDefault), ("return", .kwReturn), ("throw", .kwThrow),
   ("break", .kwBreak), ("continue", .kwContinue), ("test", .kwTest), ("mock", .kwMock),
   ("scope", .kwScope), ("true", .boolLit), ("false", .boolLit), ("null", .nullLit)]

/-- The kind of a reserved word. -/
def keyword? (word : String) : Option TokenKind :=
  (reserved.find? (fun p => p.1 == word)).map Prod.snd

/-- The name of a kind in messages: a word for classes of tokens, the quoted text otherwise. -/
def describe : TokenKind → String
  | .eof => "end of file"
  | .invalid => "invalid token"
  | .intLit => "integer"
  | .floatLit => "float"
  | .stringLit => "string"
  | .charLit => "char"
  | .boolLit => "bool"
  | .nullLit => "null"
  | .interpStart => "interpolated string"
  | .interpText => "string text"
  | .interpIdent => "'$' identifier"
  | .interpExprStart => "'$\x7b'"
  | .interpExprEnd => "'\x7d' of interpolation"
  | .interpEnd => "end of string"
  | .identifier => "identifier"
  | .directive => "directive"
  | .kwNamespace => "'namespace'"
  | .kwImport => "'import'"
  | .kwClass => "'class'"
  | .kwInterface => "'interface'"
  | .kwExtends => "'extends'"
  | .kwImplements => "'implements'"
  | .kwFun => "'fun'"
  | .kwVar => "'var'"
  | .kwVal => "'val'"
  | .kwStatic => "'static'"
  | .kwOverride => "'override'"
  | .kwAbstract => "'abstract'"
  | .kwSuspend => "'suspend'"
  | .kwNative => "'native'"
  | .kwNew => "'new'"
  | .kwThis => "'this'"
  | .kwSuper => "'super'"
  | .kwIf => "'if'"
  | .kwElse => "'else'"
  | .kwWhile => "'while'"
  | .kwFor => "'for'"
  | .kwTo => "'to'"
  | .kwLoop => "'loop'"
  | .kwSwitch => "'switch'"
  | .kwCase => "'case'"
  | .kwDefault => "'default'"
  | .kwReturn => "'return'"
  | .kwThrow => "'throw'"
  | .kwBreak => "'break'"
  | .kwContinue => "'continue'"
  | .kwIs => "'is'"
  | .kwAs => "'as'"
  | .kwTest => "'test'"
  | .kwMock => "'mock'"
  | .kwScope => "'scope'"
  | .plus => "'+'"
  | .minus => "'-'"
  | .star => "'*'"
  | .slash => "'/'"
  | .percent => "'%'"
  | .assign => "'='"
  | .plusAssign => "'+='"
  | .minusAssign => "'-='"
  | .starAssign => "'*='"
  | .slashAssign => "'/='"
  | .percentAssign => "'%='"
  | .eq => "'=='"
  | .ne => "'!='"
  | .lt => "'<'"
  | .le => "'<='"
  | .gt => "'>'"
  | .ge => "'>='"
  | .andAnd => "'&&'"
  | .orOr => "'||'"
  | .bang => "'!'"
  | .tilde => "'~'"
  | .question => "'?'"
  | .safeDot => "'?.'"
  | .arrow => "'->'"
  | .fatArrow => "'=>'"
  | .lParen => "'('"
  | .rParen => "')'"
  | .lBrace => "'\x7b'"
  | .rBrace => "'\x7d'"
  | .lBracket => "'['"
  | .rBracket => "']'"
  | .comma => "','"
  | .colon => "':'"
  | .semi => "';'"
  | .dot => "'.'"

end TokenKind

/-- What a token carries beyond its kind and text. -/
inductive TokenValue where
  | none
  | number (n : NumberLiteral)
  | text (s : String)
  | char (unit : Nat)
  | bool (b : Bool)
  | require (feature : String) (negated : Bool)
  | invalid (message code : String)
deriving Repr, BEq, Inhabited

/-- A lexical token: its kind, where it stands, its source bytes and its value. -/
structure Token where
  kind : TokenKind
  span : Span
  lexeme : String
  value : TokenValue := .none
deriving Repr, BEq, Inhabited

namespace Token

/-- Whether the token has kind `k`. -/
def is (t : Token) (k : TokenKind) : Bool := t.kind == k

/-- The decoded text of a string token, or the name of a `$` identifier. -/
def text (t : Token) : String :=
  match t.value with
  | .text s => s
  | _ => ""

end Token

end AmLang
