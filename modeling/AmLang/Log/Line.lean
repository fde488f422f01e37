/-!
# Log lines

Every phase of the compiler reports what it did as log lines: a severity level, the tag of the
phase (`symbols`, `binder`, `codegen`, ...) and a message. Phases return their lines as data, in
the order they were written; where they go, and which levels are kept, is decided outside.

## Main definitions

* `Log.Level` — the six severities in ascending order, and `off`, which keeps nothing.
* `Log.Line` — one line, and `Log.Line.tagged`, its `[tag] message` form.
-/

namespace AmLang.Log

/-- Severities in ascending order; `off` is above all of them. -/
inductive Level where
  | trace
  | debug
  | info
  | warn
  | error
  | fatal
  | off
deriving Repr, BEq, DecidableEq, Inhabited

namespace Level

/-- The position of a level in ascending order. -/
def rank : Level → Nat
  | .trace => 0
  | .debug => 1
  | .info => 2
  | .warn => 3
  | .error => 4
  | .fatal => 5
  | .off => 6

/-- Every level, in ascending order. -/
def all : List Level := [.trace, .debug, .info, .warn, .error, .fatal, .off]

/-- The level of a rank, if it is one. -/
def ofRank? (n : Nat) : Option Level := all.find? (·.rank == n)

/-- The upper-case name of a level. -/
def name : Level → String
  | .trace => "TRACE"
  | .debug => "DEBUG"
  | .info => "INFO"
  | .warn => "WARN"
  | .error => "ERROR"
  | .fatal => "FATAL"
  | .off => "OFF"

end Level

/-- A severity as the logger compares them: the rank of a level, or any other number, which
names no level and compares by its value. -/
structure Severity where
  rank : Int
deriving Repr, BEq, DecidableEq, Inhabited

/-- The severity of a level. -/
def Level.severity (l : Level) : Severity := ⟨l.rank⟩

instance : Coe Level Severity := ⟨Level.severity⟩

namespace Severity

/-- The level a severity is, if it is one. -/
def level? (s : Severity) : Option Level :=
  if s.rank < 0 then none else Level.ofRank? s.rank.toNat

/-- The name of a severity: its level's name, or `???`. -/
def name (s : Severity) : String := (s.level?.map Level.name).getD "???"

/-- Whether `a` is at or above `b`. -/
def atLeast (a b : Severity) : Bool := b.rank ≤ a.rank

end Severity

/-- One log line. -/
structure Line where
  level : Level
  tag : String
  message : String
deriving Repr, Inhabited

/-- The line as `[tag] message`. -/
def Line.tagged (l : Line) : String := "[" ++ l.tag ++ "] " ++ l.message

/-- A trace line. -/
def trace (tag message : String) : Line := ⟨.trace, tag, message⟩

/-- A debug line. -/
def debug (tag message : String) : Line := ⟨.debug, tag, message⟩

/-- An info line. -/
def info (tag message : String) : Line := ⟨.info, tag, message⟩

/-- A warning line. -/
def warn (tag message : String) : Line := ⟨.warn, tag, message⟩

/-- An error line. -/
def error (tag message : String) : Line := ⟨.error, tag, message⟩

end AmLang.Log
