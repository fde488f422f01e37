import AmLang.Data.Json
import AmLang.Syntax.Token
import AmLang.Text.Bytes
/-!
# Token views

Tokens as JSON, for tools that inspect the lexer: kind name, source bytes, start and end as
`[line, column, offset]`, the byte length, and the value the token carries. Integer values are
written as decimal strings (they are 64-bit), floating values as the 16 hex digits of their
double's bits.
-/

namespace AmLang

/-- A 64-bit word as 16 lowercase hexadecimal digits. -/
def hex64 (w : UInt64) : String :=
  String.join ((List.range 8).reverse.map fun i => Bytes.hexByte ((w >>> (8 * i).toUInt64).toUInt8))

namespace Location

/-- `[line, column, offset]`. -/
def toJson (l : Location) : Json := .arr [.nat l.line, .nat l.column, .nat l.offset]

end Location

namespace NumberLiteral

/-- The fields of a number value: the value and the primitive type's name. -/
def fields : NumberLiteral → List (String × Json)
  | .int v => [("int", .str (toString v)), ("num", .str "Int")]
  | .long v => [("int", .str (toString v)), ("num", .str "Long")]
  | .float b => [("f64", .str (hex64 b)), ("num", .str "Float")]
  | .double b => [("f64", .str (hex64 b)), ("num", .str "Double")]

end NumberLiteral

namespace TokenValue

/-- The fields that show a token's value. -/
def fields : TokenValue → List (String × Json)
  | .none => []
  | .number n => n.fields
  | .text s => [("str", .str s)]
  | .char u => [("char", .nat u)]
  | .bool b => [("bool", .bool b)]
  | .require f neg => [("feature", .str f), ("negated", .bool neg)]
  | .invalid m c => [("invalid", .str m), ("code", .str c)]

end TokenValue

namespace Token

/-- A token as JSON. -/
def toJson (t : Token) : Json :=
  .obj ([("kind", .str t.kind.describe), ("lexeme", .str t.lexeme),
    ("start", t.span.start.toJson), ("len", .nat t.span.start.length),
    ("end", t.span.stop.toJson)] ++ t.value.fields)

end Token

end AmLang
