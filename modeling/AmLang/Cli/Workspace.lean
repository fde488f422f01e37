import AmLang.Cli.Host
import Std.Data.TreeMap
/-!
# A working directory

A model of the directory the command line runs in: a tree of directories and files, and the
text written to standard output and standard error. A path is read component by component:
empty components and `.` are dropped and `..` goes up (never above the working directory).

The operations fail the way the file system does:

* creating directories fails when a component is a file ("Not a directory");
* a file can be written or opened for appending only when its parent is a directory and the
  path itself is not one;
* reading a directory gives empty content, and reading a missing file fails.

Files copied from the C runtime are kept by name, not by content. Copying onto a directory
fails with "Operation not supported": a copy only ever replaces a regular file.

## Main definitions

* `Workspace` and its `Host` instance on `StateM Workspace`.
* `Workspace.outputs` — the files that were not there before, by path.
-/

namespace AmLang

/-- What a file holds: text, or a copy of a runtime file. -/
inductive FileContent where
  | text (s : String)
  | runtime (name : String)
deriving BEq, Inhabited

/-- A node of the tree. -/
inductive Entry where
  | file (content : FileContent)
  | dir
deriving BEq, Inhabited

/-- A working directory with the output of the program running in it. -/
structure Workspace where
  /-- The nodes by path, components joined by `/`; the directory itself is not among them. -/
  entries : Std.TreeMap String Entry := ∅
  /-- The files that were there before the run. -/
  inputs : List String := []
  out : String := ""
  err : String := ""
deriving Inhabited

namespace Workspace

/-- The components of a path. -/
def components (path : String) : List String :=
  ((path.splitOn "/").foldl (fun (acc : List String) part =>
    if part.isEmpty || part == "." then acc
    else if part == ".." then acc.drop 1
    else part :: acc) []).reverse

/-- The key of a path made of components. -/
def key (parts : List String) : String := "/".intercalate parts

/-- The node at a path made of components; the working directory for no components. -/
def entry? (w : Workspace) (parts : List String) : Option Entry :=
  if parts.isEmpty then some .dir else w.entries.get? (key parts)

/-- The paths of the directories containing a path, outermost first. -/
def parents (parts : List String) : List (List String) :=
  (List.range parts.length).map fun n => parts.take n

/-- Whether every directory containing a path exists. -/
def parentsExist (w : Workspace) (parts : List String) : Bool :=
  (parents parts).all fun p => w.entry? p == some .dir

/-- The workspace with a directory and its missing parents. -/
def addDirectories (w : Workspace) (parts : List String) : Workspace :=
  ((parents parts) ++ [parts]).foldl (fun w p =>
    if p.isEmpty || (w.entries.get? (key p)).isSome then w
    else { w with entries := w.entries.insert (key p) .dir }) w

/-- The workspace with a file put at a path, its directories created. -/
def addFile (w : Workspace) (path : String) (content : FileContent) : Workspace :=
  let parts := components path
  let w := w.addDirectories (parts.dropLast)
  { w with entries := w.entries.insert (key parts) (.file content) }

/-- Creates a directory and its parents; the reason when a component is a file. -/
def createDirectories (w : Workspace) (path : String) : Option String × Workspace :=
  let parts := components path
  let all := parents parts ++ [parts]
  if all.any (fun p => match w.entry? p with
      | some (.file _) => true
      | _ => false) then (some "Not a directory", w)
  else (none, w.addDirectories parts)

/-- Whether a file can be created or replaced at a path. -/
def canWrite (w : Workspace) (parts : List String) : Bool :=
  !parts.isEmpty && w.parentsExist parts && w.entry? parts != some .dir

/-- Creates or replaces a file; whether that worked. -/
def writeFile (w : Workspace) (path : String) (content : FileContent) : Bool × Workspace :=
  let parts := components path
  if w.canWrite parts then (true, { w with entries := w.entries.insert (key parts) (.file content) })
  else (false, w)

/-- The content of a file; a directory reads as empty. -/
def readFile (w : Workspace) (path : String) : Option String :=
  match w.entry? (components path) with
  | some (.file (.text s)) => some s
  | some (.file (.runtime _)) => some ""
  | some .dir => some ""
  | none => none

/-- Opens a file for appending, creating it empty; whether that worked. -/
def openLog (w : Workspace) (path : String) : Bool × Workspace :=
  let parts := components path
  if !w.canWrite parts then (false, w)
  else match w.entry? parts with
    | some (.file _) => (true, w)
    | _ => (true, { w with entries := w.entries.insert (key parts) (.file (.text "")) })

/-- Appends text to a file. -/
def appendLog (w : Workspace) (path text : String) : Workspace :=
  let k := key (components path)
  match w.entries.get? k with
  | some (.file (.text s)) => { w with entries := w.entries.insert k (.file (.text (s ++ text))) }
  | _ => w

/-- The files that were not there before the run, by path in ascending order. -/
def outputs (w : Workspace) : List (String × FileContent) :=
  w.entries.toList.filterMap fun (k, e) => match e with
    | .file c => if w.inputs.contains k then none else some (k, c)
    | .dir => none

/-- The directory the runtime is copied from in a workspace. -/
def runtimeDirectory : String := "runtime"

end Workspace

instance : Host (StateM Workspace) where
  readFile path := do pure ((← get).readFile path)
  createDirectories path := modifyGet fun w => w.createDirectories path
  writeFile path text := modifyGet fun w => w.writeFile path (.text text)
  runtimeDirectory := pure Workspace.runtimeDirectory
  copyRuntimeFile name path := modifyGet fun w =>
    let (ok, w) := w.writeFile path (.runtime name)
    (if ok then none else some "Operation not supported", w)
  openLog path := modifyGet fun w => w.openLog path
  appendLog path text := modify fun w => w.appendLog path text
  writeOut text := modify fun w => { w with out := w.out ++ text }
  writeErr text := modify fun w => { w with err := w.err ++ text }

end AmLang
