import AmLang.Cli.Host
import AmLang.Cli.Arguments
import AmLang.Compilation.Build
import AmLang.Diagnostic.Render
/-!
# The command line

`amlc [options] <file.aml>...` compiles its sources and writes the C files to the output
directory, with a copy of the C runtime unless `--no-runtime`. In order:

1. The logger is set up from the logging options and `AMLC_LOG`, opening its log file.
2. The arguments are read; a usage error ends the run with status 2.
3. Each source is read; one that cannot be opened ends the run with status 2.
   A source under a `--test-root` directory is a test unit.
4. The program is built; its log lines go through the logger.
5. The diagnostics are written to standard error, as text or as JSON lines. With an error the
   run ends with status 1, after `amlc: N error(s)` unless the diagnostics are JSON.
6. The output directory is created and each file written to it; a failure ends the run with
   status 2, the files written before it staying.
7. The runtime files are copied, and the run ends with status 0.
-/

namespace AmLang

namespace Cli

variable {m : Type → Type} [Monad m] [Host m]

/-- Writes a record through the logger's sinks. -/
def emit (logger : Log.Logger) (r : Log.Record) : m Unit := do
  for d in logger.log r do
    match d with
    | .console text => Host.writeErr text
    | .file path text => Host.appendLog path text
    | .capture .. => pure ()

/-- A file name under a directory, as a path. -/
def joinPath (dir name : String) : String :=
  if dir.endsWith "/" then dir ++ name else dir ++ "/" ++ name

/-- The units of the sources, or the path of the first that cannot be opened. -/
def readSources (inv : Invocation) : List String → m (Except String (List SourceUnit))
  | [] => pure (.ok [])
  | path :: rest => do
    let some content ← Host.readFile path | pure (.error path)
    let unit := SourceUnit.ofPath path content inv.features
    let unit := if inv.testRoots.any (SourceUnit.isUnderRoot path) then
        { unit with role := .test } else unit
    match ← readSources inv rest with
    | .ok units => pure (.ok (unit :: units))
    | .error p => pure (.error p)

/-- Writes the files into the output directory, logging each; the first that fails. -/
def writeFiles (logger : Log.Logger) (dir : String) : List OutputFile → m (Option String)
  | [] => pure none
  | f :: rest => do
    let path := joinPath dir f.name
    if !(← Host.writeFile path f.content) then return some path
    emit logger (Log.Record.ofLine
      (Log.debug "driver" ("wrote " ++ path ++ " (" ++ toString f.content.length ++ " bytes)")))
    writeFiles logger dir rest

/-- Copies the runtime files into the output directory; the message of the first failure. -/
def copyRuntime (dir : String) : m (Option String) := do
  if let some reason ← Host.createDirectories dir then
    return some ("cannot create directory '" ++ dir ++ "': " ++ reason)
  let source ← Host.runtimeDirectory
  for name in ["aml_runtime.h", "aml_runtime.c"] do
    if let some reason ← Host.copyRuntimeFile name (joinPath dir name) then
      return some ("cannot copy runtime file '" ++ name ++ "' from '" ++ source ++ "': " ++ reason)
  return none

/-- Compiles what the arguments ask for and writes the files; the exit status. -/
def compile (logger : Log.Logger) (inv : Invocation) : m Nat := do
  let units ← match ← readSources inv inv.paths with
    | .ok units => pure units
    | .error path =>
      Host.writeErr ("amlc: cannot open file: " ++ path ++ "\n")
      return 2
  let b := buildProgram units
    { comments := inv.comments, strict := inv.strict, jobs := inv.jobs, emitMain := inv.emitMain }
  for line in b.journal do emit logger (Log.Record.ofLine line)
  let sources := units.map fun u => (u.path, u.content)
  for d in b.diagnostics do
    Host.writeErr (if inv.json then d.renderJson else d.render sources Diagnostic.Palette.plain)
  if !b.success then
    if !inv.json then Host.writeErr ("amlc: " ++ toString b.errorCount ++ " error(s)\n")
    return 1
  let dir := if inv.outputDir.isEmpty then "." else inv.outputDir
  if let some reason ← Host.createDirectories dir then
    Host.writeErr ("amlc: cannot create directory '" ++ dir ++ "': " ++ reason ++ "\n")
    return 2
  if let some path ← writeFiles logger dir b.files then
    Host.writeErr ("amlc: cannot write '" ++ path ++ "'\n")
    return 2
  if inv.copyRuntime then
    if let some message ← copyRuntime dir then
      Host.writeErr ("amlc: " ++ message ++ "\n")
      return 2
  emit logger (Log.Record.ofLine
    (Log.info "driver" ("wrote " ++ toString b.files.length ++ " files to " ++ dir)))
  return 0

/-- Runs the command line with its arguments (without the program name) and the value of
`AMLC_LOG`; the exit status. -/
def run (args : List String) (env : Option String) : m Nat := do
  let config := Log.Config.ofArgs args env
  let opened ← if config.file.isEmpty then pure false else Host.openLog config.file
  if !config.file.isEmpty && !opened then Host.writeErr (Log.Logger.fileWarning config.file)
  let logger := Log.Logger.ofConfig config opened
  match Invocation.ofArgs args with
  | .finish status out err =>
    Host.writeOut out
    Host.writeErr err
    return status
  | .compile inv => compile logger inv

end Cli

end AmLang
