/-!
# What the command line needs from its system

The command line reads sources, creates the output directory, writes the generated files, copies
the C runtime next to them, appends to a log file and writes to its two streams. `Host` is that
interface; the command is written once against it, and runs on the real system or on a model of
a working directory (`Workspace`).

Paths are byte text, relative to the working directory or absolute.
-/

namespace AmLang

/-- The effects the command line has on its system. -/
class Host (m : Type → Type) where
  /-- The content of a file, or none when it cannot be opened. -/
  readFile : String → m (Option String)
  /-- Creates a directory and any missing parents; the reason when that fails. -/
  createDirectories : String → m (Option String)
  /-- Creates or replaces a file; whether that worked. -/
  writeFile : String → String → m Bool
  /-- The directory the C runtime is copied from. -/
  runtimeDirectory : m String
  /-- Copies the runtime file `name` to a path; the reason when that fails. -/
  copyRuntimeFile : String → String → m (Option String)
  /-- Opens a log file for appending, creating it when it is missing; whether that worked. -/
  openLog : String → m Bool
  /-- Appends text to an opened log file. -/
  appendLog : String → String → m Unit
  /-- Writes to standard output. -/
  writeOut : String → m Unit
  /-- Writes to standard error. -/
  writeErr : String → m Unit

end AmLang
