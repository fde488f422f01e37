import AmLang.Emit.Unit
/-!
# The program header and entry point

`aml_program.h` declares what the units share: the structs of the emitted classes, their
descriptors, every function's prototype, the storage and the module initializers. `aml_main.c`
runs the module initializers in unit order, stopping at the first that leaves an exception
pending, then either the tests of the test units or `main`, whose `Int` result becomes the exit
status.
-/

namespace AmLang

namespace Layout

/-- The text of `aml_program.h`. -/
def header (l : Layout) : String := Id.run do
  let t := l.table
  let mut out := "// Generated by amlc. Do not edit.\n\n" ++
    "#ifndef AML_PROGRAM_H\n#define AML_PROGRAM_H\n\n" ++
    "#include \"aml_runtime.h\"\n\n" ++
    "#ifdef __cplusplus\nextern \"C\" \x7b\n#endif\n\n"
  out := out ++ "// Classes\n\n"
  for unit in l.classes do
    for ec in unit do
      if (t.cls ec.cls).isInterface then continue
      out := out ++ l.structDefinition ec.type ec.cName ++ "\n"
  out := out ++ "// Descriptors\n\n"
  for unit in l.classes do
    for ec in unit do
      out := out ++ "extern const aml_Class " ++ ec.cName ++ "__class;\n"
  out := out ++ "\n// Functions\n\n"
  for unit in l.functions do
    for ef in unit do
      out := out ++ l.prototype ef ++ ";\n"
  out := out ++ "\n// Storage\n\n"
  for unit in l.storage do
    for f in unit do
      let fd := t.field f
      out := out ++ "extern " ++ (fd.type.getD .error).cType ++ " " ++ fd.cName ++ ";\n"
  out := out ++ "\n// Module initializers\n\n"
  for name in l.program.moduleNames do
    out := out ++ "void " ++ moduleInitName name ++ "(void);\n"
  out := out ++ "\n"
  out := out ++ "#ifdef __cplusplus\n\x7d\n#endif\n\n#endif // AML_PROGRAM_H\n"
  return out

/-- The tests the program runs: those of its test units, in unit order. -/
def tests (l : Layout) : List FunctionId :=
  l.program.units.toList.flatMap fun u => if u.isTestUnit then u.tests else []

/-- The text of `aml_main.c`, when the program has tests or a `main`; with tests, the log line
that counts them. -/
def mainFile (l : Layout) : Option (String × Option Log.Line) :=
  let t := l.table
  let tests := l.tests
  if tests.isEmpty && l.program.main.isNone then none
  else
    let initCalls := String.join (l.program.moduleNames.toList.map fun name =>
      "    " ++ moduleInitName name ++ "();\n" ++
      "    if (aml_pending != NULL) \x7b\n" ++
      "        aml_report_uncaught();\n" ++
      "        return 0;\n" ++
      "    \x7d\n")
    let start := "// Generated by amlc. Do not edit.\n\n" ++
      "#include \"aml_program.h\"\n\n" ++
      "static int aml_init_modules(void) \x7b\n" ++ initCalls ++ "    return 1;\n\x7d\n\n"
    let opening := "int main(void) \x7b\n" ++
      "    aml_runtime_init();\n" ++
      "    if (!aml_init_modules()) \x7b\n        return 1;\n    \x7d\n"
    if !tests.isEmpty then
      let cases := String.join (tests.map fun f =>
        let fs := t.fn f
        "    \x7b" ++ cStringLiteral fs.qualifiedName ++ ", " ++ fs.cName ++ "\x7d,\n")
      some (start ++ "static const aml_TestCase aml_tests[] = \x7b\n" ++ cases ++ "\x7d;\n\n" ++
        opening ++
        "    return aml_run_tests(aml_tests, sizeof aml_tests / sizeof aml_tests[0]) == 0 ? 0 : 1;\n" ++
        "\x7d\n",
        some (Log.debug "codegen" ("aml_main.c runs " ++ toString tests.length ++ " tests")))
    else
      let main := t.fn (l.program.main.getD 0)
      let returnsInt := main.result.isPrim .int
      some (start ++ opening ++
        (if returnsInt then "    int32_t status = " ++ main.cName ++ "();\n"
         else "    " ++ main.cName ++ "();\n") ++
        "    if (aml_pending != NULL) \x7b\n" ++
        "        aml_report_uncaught();\n" ++
        "        return 1;\n" ++
        "    \x7d\n" ++
        "    return " ++ (if returnsInt then "(int)status" else "0") ++ ";\n" ++
        "\x7d\n", none)

end Layout

namespace Program

/-- The files of a program with the log lines written making them: the header, the C file of
each unit, and `aml_main.c` when `emitMain` asks for it and the program has tests or a `main`.
A unit whose generation stops at an internal error has no file; the error is reported as a
diagnostic of the unit, without a position, and logged. `sizes` are the byte sizes of the
units' sources, which bound the walks over their trees. -/
def generate (p : Program) (comments emitMain : Bool) (sizes : List Nat) :
    List (String × String) × List Log.Line × List Diagnostic := Id.run do
  let l := Layout.ofProgram p
  let mut journal : Array Log.Line := #[l.journalLine]
  let mut unitFiles : Array (String × String) := #[]
  let mut failures : Array Diagnostic := #[]
  for i in List.range p.units.size do
    let (result, lines) := generateUnit l i comments (sizes.getD i 0)
    journal := journal ++ lines
    match result with
    | .ok file => unitFiles := unitFiles.push file
    | .error message =>
      let path := (p.units.getD i default).file
      journal := journal.push (Log.error "codegen" (path ++ ": " ++ message))
      failures := failures.push
        { kind := .internalError, code := Code.internal, message, file := path }
  let mut files := #[("aml_program.h", l.header)] ++ unitFiles
  if emitMain then
    if let some (text, line) := l.mainFile then
      files := files.push ("aml_main.c", text)
      journal := journal ++ line.toList
  return (files.toList, journal.toList, failures.toList)

end Program

end AmLang
