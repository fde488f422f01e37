import AmLang.Run.Eval
import AmLang.Emit.Link
import AmLang.Compilation.Build
/-!
# Running a program

What the built program does when it runs: it stores the initial values of each unit's namespace
variables and static fields, unit by unit, then runs the tests of the test units or `main`.

* An exception that reaches the top is reported on standard error as
  `Uncaught exception: <text>` and the status is 1. The text is the exception's `toString`, or
  its class name when that throws too.
* The test runner prints `PASS <name>` or `FAIL <name>: <text>` for each test and then
  `<n> tests, <f> failed`; the status is 1 when a test failed.
* A `main` returning `Int` gives the status modulo 256; otherwise it is 0.
* A process that dies of a signal loses the output of its last, unfinished line: standard output
  is flushed at each line end, standard error at once.

## Main definitions

* `RunOutcome` — how a run ended and what it wrote.
* `Layout.run` — runs a program.
* `Build.run` — what building and running a program gives.
-/

namespace AmLang

/-- How a run ended and what it wrote. -/
structure RunOutcome where
  /-- The exit status; none when the process died of a signal. -/
  exit : Option Nat
  signal : Option Nat
  stdout : String
  stderr : String

/-- The bound on the depth of evaluation. -/
def runFuel : Nat := 2000000

/-- The signal of a run stopped for taking too long. -/
def alarmSignal : Nat := 14

/-- The text up to and with its last line end: what a line-buffered stream has written. -/
def completeLines (s : String) : String :=
  String.ofList ((s.toList.reverse.dropWhile (· != '\n')).reverse)

namespace RunM

/-- Runs `x`; an exception that propagates out of it is returned instead. -/
def attempt {α : Type} (x : RunM α) : RunM (Except Value α) :=
  tryCatch (do pure (.ok (← x))) fun stop => match stop with
    | .thrown ex => pure (.error ex)
    | other => throw other

/-- The text an exception is reported by: its `toString`, or its class name when that throws. -/
def exceptionText (fuel : Nat) (ex : Value) : RunM String :=
  tryCatch (toStringOf fuel ex) fun stop => match stop with
    | .thrown _ => className ex
    | other => throw other

/-- Reports an exception that reached the top on standard error. -/
def reportUncaught (fuel : Nat) (ex : Value) : RunM Unit := do
  writeErr "Uncaught exception: "
  let text ← exceptionText fuel ex
  writeErr (text ++ "\n")

/-- Stores the initial values of one unit's namespace variables and static fields, in
declaration order. -/
def initUnit (fuel : Nat) (u : Nat) : RunM Unit := do
  let l ← layout
  within { unit := u } do
    for f in l.storage.getD u #[] do
      let fd := l.table.field f
      if fd.decl.isNone then continue
      let some (_, init) ← fieldInitializer? f | continue
      let v ← evalAs fuel init (fd.type.getD .error)
      setGlobal f v

/-- Runs the tests, printing a line for each and a summary; the exit status. -/
def runTests (fuel : Nat) (tests : List FunctionId) : RunM Nat := do
  let t ← table
  let mut failures := 0
  for f in tests do
    let name := (t.fn f).qualifiedName
    match ← attempt (invoke fuel f [] none none []) with
    | .ok _ => write ("PASS " ++ name ++ "\n")
    | .error ex =>
      failures := failures + 1
      write ("FAIL " ++ name ++ ": ")
      write (← exceptionText fuel ex)
      write "\n"
  write (toString tests.length ++ " tests, " ++ toString failures ++ " failed\n")
  pure (if failures == 0 then 0 else 1)

/-- Runs `main`; the exit status. -/
def runMain (fuel : Nat) (main : FunctionId) : RunM Nat := do
  let returnsInt := ((← table).fn main).result.isPrim .int
  match ← attempt (invoke fuel main [] none none []) with
  | .error ex =>
    reportUncaught fuel ex
    pure 1
  | .ok r => pure (if returnsInt then (r.toInt .int % 256).toNat else 0)

/-- Runs the program: the units' initial values, then its tests or `main`; the exit status. -/
def runProgram (fuel : Nat) : RunM Nat := do
  let l ← layout
  for u in List.range l.program.units.size do
    if let .error ex ← attempt (initUnit fuel u) then
      reportUncaught fuel ex
      return 1
  let tests := l.tests
  if !tests.isEmpty then return ← runTests fuel tests
  match l.program.main with
  | some main => runMain fuel main
  | none => pure 0

end RunM

namespace Layout

/-- The storage of every namespace variable and static field, each zero. -/
def initialGlobals (l : Layout) : Std.TreeMap FieldId Value :=
  l.table.fields.zipIdx.foldl (fun m (fd, f) =>
    if fd.isStatic || fd.owner.isNone then m.insert f (Value.zero (fd.type.getD .error)) else m) ∅

/-- Runs a program that links. -/
def run (l : Layout) : RunOutcome :=
  let machine : Machine := { layout := l, globals := l.initialGlobals, steps := stepBudget }
  let (result, m) := (RunM.runProgram runFuel).run.run machine
  match result with
  | .ok status => { exit := some status, signal := none, stdout := m.out, stderr := m.err }
  | .error (.crash signal) =>
    { exit := none, signal := some signal, stdout := completeLines m.out, stderr := m.err }
  | .error .exhausted =>
    { exit := none, signal := some 11, stdout := completeLines m.out, stderr := m.err }
  | .error .timeout =>
    { exit := none, signal := some alarmSignal, stdout := completeLines m.out, stderr := m.err }
  | .error (.thrown _) => { exit := some 1, signal := none, stdout := m.out, stderr := m.err }

end Layout

/-- What running a built program gives: how many files were written, whether one of them is the
entry point, whether the C links, and how the run ended. -/
structure RunReport where
  written : Nat
  hasMain : Bool
  built : Bool
  outcome : Option RunOutcome

namespace Build

/-- Runs a program that built without errors: nothing runs without an entry point or when the C
does not link. -/
def run (b : Build) : Option RunReport := do
  let program ← b.program
  let written := b.files.length
  let hasMain := (b.find? "aml_main.c").isSome
  if !hasMain then return { written, hasMain, built := false, outcome := none }
  let l := Layout.ofProgram program
  let built := l.links (emitFuel (b.sizes.foldl (· + ·) 0))
  if !built then return { written, hasMain, built, outcome := none }
  return { written, hasMain, built, outcome := some l.run }

end Build

end AmLang
