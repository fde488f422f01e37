import AmLang.Diagnostic.Basic
/-!
# Rendering diagnostics

Three forms of a diagnostic:

* one line, `file:line:col: error[CODE] Kind: message`;
* the text form: that line, then the source line it points at with a gutter holding the line
  number (right-aligned, at least four wide) and a row of carets under the columns it covers
  (at least one), then one `= note:` line per note; optionally coloured with ANSI codes;
* a JSON object on one line, for tools.

The source line is looked up among the registered sources by file name; without one, or for
line 0, no excerpt is shown.
-/

namespace AmLang.Diagnostic

/-- `file:line:col: severity[code] Kind: message`. -/
def oneLine (d : Diagnostic) : String :=
  d.file ++ ":" ++ toString d.line ++ ":" ++ toString d.column ++ ": " ++ d.severity.name ++
    "[" ++ d.code ++ "] " ++ d.kind.tag ++ ": " ++ d.message

/-- Line `n` (1-based) of a text, without its newline; empty when the text has fewer lines. -/
def lineOf (content : String) (n : Nat) : String :=
  if n = 0 then "" else
  let lines := content.splitOn "\n"
  lines.getD (n - 1) ""

/-- `s` right-aligned in a field of `width` characters. -/
def padLeft (s : String) (width : Nat) : String :=
  String.ofList (List.replicate (width - s.length) ' ') ++ s

/-- The ANSI codes of the coloured text form. -/
structure Palette where
  reset : String
  bold : String
  red : String
  yellow : String
  blue : String

/-- Colours on a terminal. -/
def Palette.ansi : Palette := ⟨"\x1b[0m", "\x1b[1m", "\x1b[91m", "\x1b[93m", "\x1b[94m"⟩

/-- No colours. -/
def Palette.plain : Palette := ⟨"", "", "", "", ""⟩

/-- The text form of a diagnostic, with the registered sources (file name and content; the
last registration of a name wins) and a palette. -/
def render (sources : List (String × String)) (p : Palette) (d : Diagnostic) : String :=
  let sev := if d.isError then p.red else p.yellow
  let header := p.bold ++ d.file ++ ":" ++ toString d.line ++ ":" ++ toString d.column ++ ": " ++
    sev ++ d.severity.name ++ "[" ++ d.code ++ "]" ++ p.reset ++ p.bold ++ " " ++ d.kind.tag ++
    ": " ++ d.message ++ p.reset ++ "\n"
  let text := match (sources.reverse.find? (·.1 == d.file)) with
    | some (_, content) => lineOf content d.line
    | none => ""
  let excerpt :=
    if text.isEmpty then ""
    else
      let num := toString d.line
      let width := max 4 num.length
      p.blue ++ padLeft num width ++ " | " ++ p.reset ++ text ++ "\n" ++
      p.blue ++ padLeft "" width ++ " | " ++ p.reset ++
        String.ofList (List.replicate (d.column - 1) ' ') ++ sev ++
        String.ofList (List.replicate (max 1 d.length) '^') ++ p.reset ++ "\n"
  let notes := String.join (d.notes.map fun n => "  = " ++ p.bold ++ "note" ++ p.reset ++ ": " ++ n ++ "\n")
  header ++ excerpt ++ notes

/-- Escapes text for a JSON string: quote, backslash, and the control bytes below 0x20. -/
def escapeJson (s : String) : String :=
  String.join (s.toList.map fun c =>
    match c with
    | '"' => "\\\""
    | '\\' => "\\\\"
    | '\n' => "\\n"
    | '\r' => "\\r"
    | '\t' => "\\t"
    | c =>
      if c.toNat < 0x20 then
        let h := c.toNat
        let hex (n : Nat) : Char := if n < 10 then Char.ofNat (48 + n) else Char.ofNat (87 + n)
        String.ofList ['\\', 'u', '0', '0', hex (h / 16), hex (h % 16)]
      else c.toString)

/-- The JSON line of a diagnostic, ending in a newline. -/
def renderJson (d : Diagnostic) : String :=
  "\x7b\"severity\":\"" ++ d.severity.name ++ "\"," ++
  "\"kind\":\"" ++ d.kind.tag ++ "\"," ++
  "\"category\":\"" ++ d.kind.category ++ "\"," ++
  "\"code\":\"" ++ escapeJson d.code ++ "\"," ++
  "\"message\":\"" ++ escapeJson d.message ++ "\"," ++
  "\"file\":\"" ++ escapeJson d.file ++ "\"," ++
  "\"line\":" ++ toString d.line ++ ",\"column\":" ++ toString d.column ++ "," ++
  "\"notes\":[" ++ ",".intercalate (d.notes.map fun n => "\"" ++ escapeJson n ++ "\"") ++ "]\x7d\n"

end AmLang.Diagnostic
