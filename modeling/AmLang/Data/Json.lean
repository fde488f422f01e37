/-!
# JSON values

A small JSON value type for the structured views this library gives of its data (tokens,
syntax trees, symbol tables, diagnostics). Strings are byte text; whoever writes a value out
decides how bytes that are not UTF-8 are shown. Objects keep their fields in the order given.
-/

namespace AmLang

/-- A JSON value whose strings are byte text. -/
inductive Json where
  | null
  | bool (b : Bool)
  | int (i : Int)
  | str (s : String)
  | arr (xs : List Json)
  | obj (fields : List (String × Json))
deriving Inhabited

namespace Json

/-- A number from a natural number. -/
def nat (n : Nat) : Json := .int n

/-- The value, or `null` when absent. -/
def opt {α : Type} (f : α → Json) : Option α → Json
  | some a => f a
  | none => .null

/-- An array of strings. -/
def strs (xs : List String) : Json := .arr (xs.map .str)

end Json

end AmLang
