import AmLang.Syntax.Source
/-!
# Diagnostics

A diagnostic is one problem the compiler reports about the program: its kind, a code, a
message, the position it points at, and notes. Diagnostics are data, gathered by every phase;
a compilation succeeds when none of them is an error.

Each kind belongs to one family (`Kind.category`), and each code begins with the letter of the
phase that reports it: `L` lexer, `P` parser, `S` symbols, `B` binder, `C` code generation.

## Main definitions

* `Diagnostic.Kind`, `Diagnostic.Severity`, `Diagnostic`.
* `Diagnostic.error` — an error at the start of a span.
* `Diagnostic.sortByLocation` — the stable order by file, line and column.
-/

namespace AmLang

/-! The codes of the diagnostics this compiler reports. -/
namespace Code

def invalidChar : String := "L001"
def unterminated : String := "L002"
def invalidNumber : String := "L003"
def invalidEscape : String := "L004"
def unknownDirective : String := "L005"
def unexpectedToken : String := "P001"
def unbalancedInterpolation : String := "P002"
def defaultNotLast : String := "P003"
def danglingDirective : String := "P004"
def mockOutsideScope : String := "P005"
def duplicateDeclaration : String := "S001"
def importCollision : String := "S002"
def unknownImport : String := "S003"
def unresolved : String := "B001"
def typeMismatch : String := "B002"
def nullSafety : String := "B003"
def ambiguous : String := "B004"
def missingOverride : String := "B005"
def testLocation : String := "B006"
def switchOrder : String := "B007"
def duplicateCase : String := "B008"
def feature : String := "B009"
def inheritanceCycle : String := "B010"
def internal : String := "C001"

end Code

namespace Diagnostic

/-- The stable kinds of problems; the name of each is the tag tools read. -/
inductive Kind where
  | invalidToken
  | syntaxError
  | duplicateDeclaration
  | importCollision
  | unresolvedSymbol
  | typeMismatch
  | nullSafetyViolation
  | ambiguousOverload
  | missingOverride
  | invalidTestLocation
  | invalidSwitchOrdering
  | duplicateCaseValue
  | featureUnavailable
  | internalError
deriving Repr, BEq, DecidableEq, Inhabited

namespace Kind

/-- Every kind, in declaration order. -/
def all : List Kind :=
  [.invalidToken, .syntaxError, .duplicateDeclaration, .importCollision, .unresolvedSymbol,
   .typeMismatch, .nullSafetyViolation, .ambiguousOverload, .missingOverride,
   .invalidTestLocation, .invalidSwitchOrdering, .duplicateCaseValue, .featureUnavailable,
   .internalError]

/-- The tag of a kind, such as `UnresolvedSymbol`. -/
def tag : Kind → String
  | .invalidToken => "InvalidToken"
  | .syntaxError => "SyntaxError"
  | .duplicateDeclaration => "DuplicateDeclaration"
  | .importCollision => "ImportCollision"
  | .unresolvedSymbol => "UnresolvedSymbol"
  | .typeMismatch => "TypeMismatch"
  | .nullSafetyViolation => "NullSafetyViolation"
  | .ambiguousOverload => "AmbiguousOverload"
  | .missingOverride => "MissingOverride"
  | .invalidTestLocation => "InvalidTestLocation"
  | .invalidSwitchOrdering => "InvalidSwitchOrdering"
  | .duplicateCaseValue => "DuplicateCaseValue"
  | .featureUnavailable => "FeatureUnavailable"
  | .internalError => "InternalError"

/-- The kind with a given tag. -/
def ofTag? (s : String) : Option Kind := all.find? (fun k => k.tag == s)

/-- The family of a kind: lexical, syntax, internal, or else binding. -/
def category : Kind → String
  | .invalidToken => "LexicalError"
  | .syntaxError => "SyntaxError"
  | .internalError => "InternalError"
  | _ => "BindingError"

end Kind

/-- Errors fail a compilation; warnings do not. -/
inductive Severity where
  | error
  | warning
deriving Repr, BEq, DecidableEq, Inhabited

/-- The word for a severity. -/
def Severity.name : Severity → String
  | .error => "error"
  | .warning => "warning"

end Diagnostic

/-- One reported problem, positioned at a file, line and column. -/
structure Diagnostic where
  severity : Diagnostic.Severity := .error
  kind : Diagnostic.Kind := .syntaxError
  code : String := ""
  message : String := ""
  file : String := ""
  line : Nat := 0
  column : Nat := 0
  length : Nat := 0
  notes : List String := []
deriving Repr, BEq, Inhabited

namespace Diagnostic

/-- An error of kind `kind` at the start of `span`, with notes. -/
def errorNoted (kind : Kind) (code message : String) (span : Span) (notes : List String) :
    Diagnostic :=
  { kind, code, message, file := span.start.file, line := span.start.line,
    column := span.start.column, length := span.start.length, notes }

/-- An error of kind `kind` at the start of `span`. -/
def error (kind : Kind) (code message : String) (span : Span) : Diagnostic :=
  errorNoted kind code message span []

/-- Whether this diagnostic fails the compilation. -/
def isError (d : Diagnostic) : Bool := d.severity == .error

/-- How many of `ds` are errors. -/
def errorCount (ds : List Diagnostic) : Nat := (ds.filter isError).length

/-- The order of two diagnostics by location: by file bytes, then line, then column. -/
def before (a b : Diagnostic) : Bool :=
  if a.file != b.file then decide (a.file < b.file)
  else if a.line != b.line then decide (a.line < b.line)
  else decide (a.column < b.column)

/-- Diagnostics sorted by location, keeping the order of those at the same place. -/
def sortByLocation (ds : List Diagnostic) : List Diagnostic :=
  ds.mergeSort (fun a b => !before b a)

end Diagnostic

end AmLang
