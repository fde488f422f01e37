import AmLang.Compilation.Front
import AmLang.Check.Unit
import AmLang.Generic.Instances
import AmLang.Emit.Program
/-!
# Building a program

The whole pipeline on a list of units: each unit is read; the program's declarations go into one
symbol table; each unit's bodies are checked against it; the generic instances the program needs
are found; and when nothing failed, C code is generated. The diagnostics of all phases are sorted
by location. A program with an error has no files.

The units are independent in reading and checking, so their order fixes every answer: the
diagnostics are sorted and the files follow the units.
-/

namespace AmLang

/-- How a program is built. -/
structure BuildOptions where
  /-- Whether generated code carries comments naming source lines. -/
  comments : Bool := true
  /-- Whether names of declarations removed by feature filtering are reported as unavailable
  features. -/
  strict : Bool := false
  /-- How many workers share the work of the units. -/
  jobs : Nat := 2
  /-- Whether a program with `main` or tests gets its `main` file. -/
  emitMain : Bool := true
deriving Inhabited

/-- A generated file. -/
structure OutputFile where
  name : String
  content : String
deriving Inhabited

/-- What building a program gave: its diagnostics, sorted by location; its files, none when it
failed; and the log lines written. -/
structure Build where
  diagnostics : List Diagnostic
  files : List OutputFile
  journal : List Log.Line
  /-- The program the files were generated from, when it had no error. -/
  program : Option Program
  /-- The byte sizes of the units' sources, which bound walks over their trees. -/
  sizes : List Nat
deriving Inhabited

namespace Build

/-- The number of errors. -/
def errorCount (b : Build) : Nat := Diagnostic.errorCount b.diagnostics

/-- Whether the program built without errors. -/
def success (b : Build) : Bool := b.errorCount == 0

/-- The file with this name. -/
def find? (b : Build) (name : String) : Option OutputFile := b.files.find? (·.name == name)

end Build

/-- The units after checking, one after another against the table each leaves. -/
def checkUnits (t : SymbolTable) (strict : Bool) (units : List ParsedUnit) :
    List CheckedUnit × SymbolTable × List Log.Line :=
  let step := fun (acc : Array CheckedUnit × SymbolTable × Array Log.Line) (p, i) =>
    let (done, t, journal) := acc
    let r := checkUnit t strict i p.module (p.unit.role == .test) p.unit.content.utf8ByteSize
    (done.push r.unit, r.table, journal ++ r.journal.toArray)
  let (done, t, journal) := units.zipIdx.foldl step (#[], t, #[])
  (done.toList, t, journal.toList)

/-- Builds a program from its units. -/
def buildProgram (units : List SourceUnit) (opts : BuildOptions) : Build :=
  let workers := max opts.jobs 1
  let start := [
    Log.debug "driver" ("started " ++ toString workers ++ " worker threads"),
    Log.info "driver" ("compiling " ++ toString units.length ++ " units with " ++
      toString workers ++ " workers")]
  let parsed := units.map SourceUnit.read
  let declared := declareProgram parsed opts.strict
  let tableLine := Log.debug "driver" ("symbol table: " ++
    toString declared.table.classes.size ++ " classes, " ++
    toString declared.table.functions.size ++ " functions")
  let (checked, table, checkJournal) := checkUnits declared.table opts.strict parsed
  let closure := Instances.close table (declared.uses :: checked.map (·.uses))
  let programDiags := declared.diagnostics ++ closure.diagnostics
  let unitDiags := (parsed.zip checked).flatMap fun (p, c) => p.diagnostics ++ c.diagnostics
  let errors := Diagnostic.errorCount (programDiags ++ unitDiags)
  let sizes := units.map (·.content.utf8ByteSize)
  let program : Program := {
    table, instances := closure.instances, units := checked.toArray,
    moduleNames := (moduleNamesFor (units.map (·.path))).toArray, main := declared.entry }
  let (files, codeJournal, codeDiags) : List OutputFile × List Log.Line × List Diagnostic :=
    if errors == 0 then
      let (files, journal, failures) := program.generate opts.comments opts.emitMain sizes
      (files.map fun (name, content) => { name, content }, journal, failures)
    else ([], [Log.info "driver" ("skipping code generation: " ++ toString errors ++ " errors")], [])
  let diagnostics := Diagnostic.sortByLocation (programDiags ++ unitDiags ++ codeDiags)
  let files := if Diagnostic.errorCount diagnostics == 0 then files else []
  let done := Log.info "driver" ("done in 0 ms: " ++ toString files.length ++ " files, " ++
    toString (Diagnostic.errorCount diagnostics) ++ " errors")
  { diagnostics, files, sizes,
    program := if errors == 0 then some program else none
    journal := start ++ parsed.flatMap (fun p => p.journal ++ [p.readLine]) ++ declared.journal ++
      [tableLine] ++ checkJournal ++ closure.journal ++ codeJournal ++ [done] }

end AmLang
