import AmLang.Syntax.Ast
/-!
# Printing syntax

Compact source-like text for type annotations and expressions, used in messages, logs and tree
views. Types print as written (`A.B<T, U>`, `T[]`, `(A) -> R`, a trailing `?`); every binary,
unary, assignment, cast and type-test expression is wrapped in parentheses, so the text shows
how the parser grouped it; a literal prints its source text, a lambda only its parameter count.
-/

namespace AmLang

/-- The items of a list rendered and separated by `", "`. -/
def commaJoin (xs : List String) : String := ", ".intercalate xs

namespace TypeExpr

mutual

/-- The annotation in source form. -/
def render : TypeExpr → String
  | .named path args _ n =>
    joinPath path ++ (if args.isEmpty then "" else "<" ++ commaJoin (renderAll args) ++ ">")
      ++ (if n then "?" else "")
  | .array e _ n => render e ++ "[]" ++ (if n then "?" else "")
  | .func ps r _ n =>
    "(" ++ commaJoin (renderAll ps) ++ ") -> " ++ render r ++ (if n then "?" else "")

/-- Each annotation of a list in source form. -/
def renderAll : List TypeExpr → List String
  | [] => []
  | t :: ts => render t :: renderAll ts

end

end TypeExpr

mutual

/-- The expression in compact source form. -/
def Expr.render : Expr → String
  | .mk k _ => ExprKind.render k

/-- The text of an expression form. -/
def ExprKind.render : ExprKind → String
  | .literal t => t.lexeme
  | .ident n => n
  | .thisRef => "this"
  | .superRef => "super"
  | .unary op e => "(" ++ op.symbol ++ Expr.render e ++ ")"
  | .binary op l r => "(" ++ Expr.render l ++ " " ++ op.symbol ++ " " ++ Expr.render r ++ ")"
  | .assign op l r => "(" ++ Expr.render l ++ " " ++ op.symbol ++ " " ++ Expr.render r ++ ")"
  | .call f args => Expr.render f ++ "(" ++ Expr.renderList args ++ ")"
  | .member o n safe _ => Expr.render o ++ (if safe then "?." else ".") ++ n
  | .index o i => Expr.render o ++ "[" ++ Expr.render i ++ "]"
  | .newObject t args => "new " ++ t.render ++ "(" ++ Expr.renderList args ++ ")"
  | .newArray t n => "new " ++ t.render ++ "[" ++ Expr.render n ++ "]"
  | .interpolation segs => "\"" ++ Segment.renderList segs ++ "\""
  | .arrayLit es => "[" ++ Expr.renderList es ++ "]"
  | .lambda ps _ _ => "fun(" ++ toString ps.length ++ ")"
  | .cast e t => "(" ++ Expr.render e ++ " as " ++ t.render ++ ")"
  | .typeTest e t => "(" ++ Expr.render e ++ " is " ++ t.render ++ ")"
  | .cond c a b => "(if " ++ Expr.render c ++ " " ++ Expr.render a ++ " else " ++ Expr.render b ++ ")"

/-- Expressions rendered and separated by `", "`. -/
def Expr.renderList : List Expr → String
  | [] => ""
  | [e] => Expr.render e
  | e :: es => Expr.render e ++ ", " ++ Expr.renderList es

/-- The segments of an interpolated string: text as is, expressions inside `$` braces. -/
def Segment.renderList : List Segment → String
  | [] => ""
  | .text s _ :: rest => s ++ Segment.renderList rest
  | .expr e _ :: rest => "$\x7b" ++ Expr.render e ++ "\x7d" ++ Segment.renderList rest

end

/-- The text segments of an interpolated string, with `placeholder` for each expression. -/
def Segment.flatten (placeholder : String) : List Segment → String
  | [] => ""
  | .text s _ :: rest => s ++ Segment.flatten placeholder rest
  | .expr _ _ :: rest => placeholder ++ Segment.flatten placeholder rest

end AmLang
