import AmLang.Compilation.Unit
import AmLang.Syntax.Lexer
import AmLang.Syntax.Parser.Grammar
import AmLang.Symbols.Declarations
/-!
# The front of the pipeline

Reading units and declaring what they declare. Each unit is lexed, parsed and filtered by its
features on its own; then the declarations of all units go into one symbol table, which
declaration resolution completes (`declareProgram`). Everything later reads that table.
-/

namespace AmLang

/-- A unit after reading: its source, its declarations once feature filtering removed those
whose requirements are not met, what was removed, and its parse errors. -/
structure ParsedUnit where
  unit : SourceUnit
  source : Source
  module : Module
  excluded : List Feature.Exclusion
  diagnostics : List Diagnostic
  /-- The log lines of lexing, parsing and filtering. -/
  journal : List Log.Line

namespace SourceUnit

/-- The log lines of reading a unit: the invalid tokens and the token count, each parse error and
the parse summary, and each declaration removed by feature filtering with their count. -/
def readJournal (path : String) (rejected : Rejections) (tokenCount declCount : Nat)
    (errors : List Diagnostic) (excluded : List Feature.Exclusion) : List Log.Line :=
  rejected.map (fun (offset, message) => Log.trace "lexer"
      (path ++ ": invalid token at offset " ++ toString offset ++ ": " ++ message)) ++
    [Log.debug "lexer" (path ++ ": " ++ toString tokenCount ++ " tokens")] ++
    errors.map (fun d => Log.debug "parser"
      ("error at " ++ toString d.line ++ ":" ++ toString d.column ++ ": " ++ d.message)) ++
    [Log.debug "parser" (path ++ ": " ++ toString declCount ++ " top-level declarations, " ++
      toString errors.length ++ " errors")] ++
    excluded.map (fun e => Log.debug "feature" ("excluding " ++ e.qualifiedName ++ " (" ++
      (if e.negated then "#requireNot " else "#require ") ++ e.feature ++ ")")) ++
    (if excluded.isEmpty then []
     else [Log.info "feature" (path ++ ": removed " ++ toString excluded.length ++
       " feature-gated declarations")])

/-- Lexes, parses and filters a unit. -/
def read (u : SourceUnit) : ParsedUnit :=
  let source := Source.ofText u.path u.content
  let (tokens, rejected) := (Lexer.ofSource source).tokenize
  let (parsed, errors) := Parser.parseModule u.path tokens
  let (m, excluded) := Feature.filterModule u.features parsed
  { unit := u, source, module := m, excluded, diagnostics := errors,
    journal := readJournal u.path rejected tokens.size parsed.decls.length errors excluded }

end SourceUnit

/-- The log line written after a unit is read. -/
def ParsedUnit.readLine (p : ParsedUnit) : Log.Line :=
  Log.debug "driver" (p.unit.path ++ ": " ++ toString p.module.decls.length ++ " declarations, " ++
    toString p.diagnostics.length ++ " parse errors")

/-- The program's declarations: the completed symbol table, the diagnostics of declaring and
resolving, the entry point, the generic uses in declarations, and the log lines written. -/
structure DeclaredProgram where
  table : SymbolTable
  diagnostics : List Diagnostic
  entry : Option FunctionId
  uses : UseLog
  journal : List Log.Line
deriving Inhabited

/-- Declares every unit's symbols in one table and resolves the declarations. `strict` reports
names of filtered-out declarations as unavailable features. -/
def declareProgram (units : List ParsedUnit) (strict : Bool) : DeclaredProgram :=
  let table := { SymbolTable.builtins with excluded := units.flatMap (·.excluded) }
  let steps : TableM (Option FunctionId) := do
    SymbolTable.declareAll (units.map (·.module))
    SymbolTable.resolveDeclarations strict
  let (entry, w) := steps.run { table }
  { table := w.table, diagnostics := w.diags.toList, entry, uses := w.uses,
    journal := w.journal.toList }

end AmLang
