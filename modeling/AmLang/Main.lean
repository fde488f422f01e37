import AmLang.Cli.Command
import AmLang.Text.Bytes
/-!
# `amlc`

The command line on the real system: files are read and written as bytes, the runtime is copied
from the directory named by `AML_RUNTIME_DIR` (or `runtime`), and the exit status is the
command's.
-/

namespace AmLang

/-- A path of byte text as the system's text. -/
def systemPath (path : String) : String := (Bytes.toUnicode? path).getD path

/-- Writes byte text to a stream. -/
def writeBytes (stream : IO.FS.Stream) (text : String) : IO Unit := do
  stream.write (Bytes.toByteArray text)
  stream.flush

/-- Appends byte text to a file. -/
def appendBytes (path text : String) : IO Unit := do
  let h ← IO.FS.Handle.mk (systemPath path) .append
  h.write (Bytes.toByteArray text)

/-- The directory the runtime files are copied from. -/
def runtimeSource : IO String := do
  pure ((← IO.getEnv "AML_RUNTIME_DIR").getD "runtime")

instance : Host IO where
  readFile path := do
    try pure (some (Bytes.ofByteArray (← IO.FS.readBinFile (systemPath path))))
    catch _ => pure none
  createDirectories path := do
    try
      IO.FS.createDirAll (systemPath path)
      pure none
    catch e => pure (some (Bytes.ofUnicode (toString e)))
  writeFile path text := do
    try
      IO.FS.writeBinFile (systemPath path) (Bytes.toByteArray text)
      pure true
    catch _ => pure false
  runtimeDirectory := do pure (Bytes.ofUnicode (← runtimeSource))
  copyRuntimeFile name path := do
    try
      let bytes ← IO.FS.readBinFile ((← runtimeSource) ++ "/" ++ systemPath name)
      IO.FS.writeBinFile (systemPath path) bytes
      pure none
    catch e => pure (some (Bytes.ofUnicode (toString e)))
  openLog path := do
    try
      appendBytes path ""
      pure true
    catch _ => pure false
  appendLog path text := do
    try appendBytes path text catch _ => pure ()
  writeOut text := do writeBytes (← IO.getStdout) text
  writeErr text := do writeBytes (← IO.getStderr) text

end AmLang

/-- Runs `amlc` with the process's arguments and `AMLC_LOG`. -/
def main (args : List String) : IO UInt32 := do
  let env ← IO.getEnv "AMLC_LOG"
  let status ← AmLang.Cli.run (args.map AmLang.Bytes.ofUnicode) (env.map AmLang.Bytes.ofUnicode)
  pure status.toUInt32
