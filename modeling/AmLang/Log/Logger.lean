import AmLang.Log.Filter
import AmLang.Log.Record
/-!
# The logger

The compiler's logger: a gate (level and filter) and the sinks that receive every record the
gate lets through. A sink writes to the console (standard error), appends to a log file, or
captures lines in memory.

The logger is configured from the command line:

* `--log-level=L`, `-q`/`--quiet` (error) and `-v`, `-vv`, `-vvv` or more, `--verbose` (info,
  debug, trace) set the level; an explicit level wins over any `-v`, and the last explicit one
  wins;
* `--log-filter=SPEC` sets the filter, `--log-file=PATH` adds a file, `--log-format=json` (or
  `JSON`) writes JSON lines;
* when neither a level nor a filter was given, the `AMLC_LOG` variable is a filter if it holds
  `=` or `,`, and a level name otherwise.

A log file that cannot be opened is left out, with a warning on standard error.

`Session` runs a sequence of operations on a logger and keeps what they wrote: the console
text, the log file, and the lines of each capture, kept when the capture is dropped.
-/

namespace AmLang.Log

/-- How the logger is set up. -/
structure Config where
  level : Severity := Level.warn
  format : Format := .text
  filter : String := ""
  file : String := ""
  console : Bool := true
  colors : Bool := true
deriving Inhabited

/-- Whether a command-line argument is a logging option. -/
def isOption (arg : String) : Bool :=
  ["--log-level=", "--log-filter=", "--log-file=", "--log-format="].any (fun p => arg.startsWith p) ||
    arg == "-q" || arg == "--quiet" || arg == "--verbose" ||
    (match arg.toList with
      | '-' :: 'v' :: rest => rest.all (· == 'v')
      | _ => false)

namespace Config

/-- What the logging options among the arguments, and the `AMLC_LOG` variable, set up. -/
def ofArgs (args : List String) (env : Option String) : Config := Id.run do
  let mut c : Config := {}
  let mut explicitLevel := false
  let mut explicitFilter := false
  let mut verbosity := 0
  for arg in args do
    if arg.startsWith "--log-level=" then
      c := { c with level := Level.parse (arg.drop 12).toString }
      explicitLevel := true
    else if arg.startsWith "--log-filter=" then
      c := { c with filter := (arg.drop 13).toString }
      explicitFilter := true
    else if arg.startsWith "--log-file=" then
      c := { c with file := (arg.drop 11).toString }
    else if arg.startsWith "--log-format=" then
      let name := (arg.drop 13).toString
      c := { c with format := if name == "json" || name == "JSON" then .json else .text }
    else if arg == "-q" || arg == "--quiet" then
      c := { c with level := Level.error }
      explicitLevel := true
    else if arg == "--verbose" then
      verbosity := max verbosity 1
    else if isOption arg then
      verbosity := max verbosity (arg.length - 1)
  if !explicitLevel && verbosity > 0 then
    c := { c with level := if verbosity ≥ 3 then Level.trace
      else if verbosity == 2 then Level.debug else Level.info }
    explicitLevel := true
  if !explicitLevel && !explicitFilter then
    let text := env.getD ""
    if !text.isEmpty then
      if text.any (fun ch => ch == '=' || ch == ',') then c := { c with filter := text }
      else c := { c with level := Level.parse text }
  return c

end Config

/-- Where records go. -/
inductive Sink where
  | console (format : Format)
  | file (path : String) (format : Format)
  /-- A capture, by its number. -/
  | capture (id : Nat)
deriving Inhabited

/-- What a sink does with one record. -/
inductive Delivery where
  | console (text : String)
  | file (path text : String)
  | capture (id : Nat) (line : String)

/-- A gate and its sinks. -/
structure Logger where
  gate : Gate := {}
  sinks : List Sink := [.console .text]
deriving Inhabited

namespace Logger

/-- The logger that lets nothing through and has no sinks. -/
def off : Logger := { gate := Gate.init Level.off "", sinks := [] }

/-- The logger a configuration sets up; `fileOpened` tells whether its log file could be
opened. -/
def ofConfig (c : Config) (fileOpened : Bool) : Logger :=
  { gate := Gate.init c.level c.filter,
    sinks := (if c.console then [.console c.format] else []) ++
      (if !c.file.isEmpty && fileOpened then [.file c.file c.format] else []) }

/-- The warning written when a configured log file could not be opened. -/
def fileWarning (path : String) : String := "warning: could not open log file: " ++ path ++ "\n"

/-- Whether the logger lets a record of this severity and tag through. -/
def accepts (lg : Logger) (level : Severity) (tag : String) : Bool := lg.gate.accepts level tag

/-- What the sinks do with a record. -/
def deliver (lg : Logger) (r : Record) : List Delivery :=
  lg.sinks.map fun s => match s with
    | .console f => .console (r.render f)
    | .file path f => .file path (r.render f)
    | .capture id => .capture id r.captured

/-- What the sinks do with a record the gate lets through; nothing for any other. -/
def log (lg : Logger) (r : Record) : List Delivery :=
  if lg.accepts r.level r.tag then lg.deliver r else []

end Logger

/-- Which log file an `init` of a session asks for. -/
inductive LogFile where
  | none
  /-- A file that can be opened. -/
  | fresh
  /-- A file in a directory that does not exist. -/
  | unreachable

/-- An operation of a session. -/
inductive Step where
  | init (c : Config) (file : LogFile)
  | addCapture
  | log (level : Severity) (tag message : String)
  | shouldLog (level : Severity) (tag : String)
  | setLevel (level : Severity)
  | setFilter (spec : String)
  | level
  | flush
  | clearSinks

/-- What an operation answers: nothing, whether a record would be kept, or a level name. -/
inductive StepAnswer where
  | none
  | bool (b : Bool)
  | name (s : String)

/-- A logger with what its sinks have written so far. -/
structure Session where
  logger : Logger := Logger.off
  /-- The lines of every capture, by number, in the order they were added. -/
  captures : Array (Array String) := #[]
  console : String := ""
  /-- The log file's content, once one was opened. -/
  file : Option String := none
deriving Inhabited

namespace Session

/-- The path of the log file a session's `init` opens. -/
def freshFile : String := "<tmp>/amlc.log"

/-- The path of the log file a session's `init` cannot open. -/
def unreachableFile : String := "<tmp>/missing/amlc.log"

/-- Carries out what sinks do with a record. -/
def apply (s : Session) : Delivery → Session
  | .console text => { s with console := s.console ++ text }
  | .file _ text => { s with file := some (s.file.getD "" ++ text) }
  | .capture id line => { s with captures := s.captures.modify id (·.push line) }

/-- Runs one operation. -/
def step (s : Session) : Step → Session × StepAnswer
  | .init c file =>
    let (c, opened, warning) := match file with
      | .none => ({ c with file := "" }, false, "")
      | .fresh => ({ c with file := freshFile }, true, "")
      | .unreachable => ({ c with file := unreachableFile }, false, Logger.fileWarning unreachableFile)
    let s := { s with logger := Logger.ofConfig c opened, console := s.console ++ warning }
    let s := if opened then { s with file := some (s.file.getD "") } else s
    (s, .none)
  | .addCapture =>
    let logger := { s.logger with sinks := s.logger.sinks ++ [.capture s.captures.size] }
    ({ s with logger, captures := s.captures.push #[] }, .none)
  | .log level tag message =>
    ((s.logger.log { level, tag, message }).foldl apply s, .none)
  | .shouldLog level tag => (s, .bool (s.logger.accepts level tag))
  | .setLevel level => ({ s with logger := { s.logger with gate := s.logger.gate.setLevel level } }, .none)
  | .setFilter spec =>
    ({ s with logger := { s.logger with gate := s.logger.gate.setFilter spec } }, .none)
  | .level => (s, .name s.logger.gate.level.name)
  | .flush => (s, .none)
  | .clearSinks => ({ s with logger := { s.logger with sinks := [] } }, .none)

/-- Runs operations in order; the session after them and their answers. -/
def run (s : Session) (steps : List Step) : Session × List StepAnswer :=
  let (s, answers) := steps.foldl (fun (acc : Session × Array StepAnswer) st =>
    let (s, a) := acc.1.step st
    (s, acc.2.push a)) (s, #[])
  (s, answers.toList)

end Session

end AmLang.Log
