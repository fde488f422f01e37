import AmLang.Log.Logger
/-!
# The arguments of the command line

`amlc [options] <file.aml>...` reads its arguments left to right. Logging options are skipped
here (the logger reads them). `-h`/`--help` prints the usage and `--version` the version, both
ending the run at once with status 0. `-o`, `-j` and `--feature` take the next argument;
`--feature=NAME` and `--test-root=DIR` take what follows `=`, which must not be empty. Any other
argument starting with `-` is an unknown option; the rest are source paths, of which there must
be one at least. A usage error ends the run with status 2 at the first bad argument.

A job count is a decimal number from 1 to 256, after optional blanks and a sign.
-/

namespace AmLang

/-- What the command line was asked to do. -/
structure Invocation where
  /-- Where the files go; empty for the working directory. -/
  outputDir : String := ""
  jobs : Nat := 4
  features : List String := []
  testRoots : List String := []
  emitMain : Bool := true
  copyRuntime : Bool := true
  comments : Bool := true
  strict : Bool := false
  /-- Whether diagnostics are written as JSON lines. -/
  json : Bool := false
  paths : List String := []
deriving Inhabited

/-- How reading the arguments ended: with something to compile, or with the run's end. -/
inductive Arguments where
  | compile (inv : Invocation)
  | finish (status : Nat) (out err : String)

namespace Invocation

/-- The version the command line reports. -/
def version : String := "0.1.0"

/-- The usage text. -/
def usage : String :=
  "Usage: amlc [options] <file.aml>...\n" ++
  "Options:\n" ++
  "  -o <dir>              Output directory (default: .)\n" ++
  "  -j <n>                Worker threads (default: 4)\n" ++
  "  --feature=<name>      Enable a feature (repeatable)\n" ++
  "  --test-root=<dir>     Compile files under <dir> as tests (repeatable)\n" ++
  "  --no-main             Do not generate aml_main.c\n" ++
  "  --no-runtime          Do not copy the C runtime\n" ++
  "  --no-comments         Omit source position comments\n" ++
  "  --strict-features     Report FeatureUnavailable for gated names\n" ++
  "  --diagnostics=json    Print diagnostics as JSON lines\n" ++
  "  -v, -vv, -vvv, -q     Log verbosity\n" ++
  "  --log-level=<level>   trace|debug|info|warn|error|off\n" ++
  "  --log-filter=<spec>   e.g. binder=debug,*=warn\n" ++
  "  --log-file=<path>     Also log to a file\n" ++
  "  --version             Print the compiler version\n"

/-- Whether a character is a blank a number may start with. -/
def isBlank (c : Char) : Bool :=
  c == ' ' || c == '\t' || c == '\n' || c == '\x0b' || c == '\x0c' || c == '\r'

/-- A job count: blanks, an optional sign, then decimal digits and nothing else, from 1 to
256. -/
def parseJobs (text : String) : Option Nat :=
  let cs := text.toList.dropWhile isBlank
  let (negative, cs) := match cs with
    | '-' :: rest => (true, rest)
    | '+' :: rest => (false, rest)
    | _ => (false, cs)
  if cs.isEmpty || !cs.all Char.isDigit then none
  else
    let n := cs.foldl (fun n c => 10 * n + (c.toNat - '0'.toNat)) 0
    if negative || n < 1 || n > 256 then none else some n

/-- The run's end for a usage error. -/
def misuse (message : String) : Arguments := .finish 2 "" ("amlc: " ++ message ++ "\n")

/-- Reads the arguments after those already read into `inv`. -/
def readArgs (inv : Invocation) : List String → Arguments
  | [] =>
    if inv.paths.isEmpty then .finish 2 "" usage
    else
      let inv := { inv with features := inv.features.reverse, testRoots := inv.testRoots.reverse }
      .compile { inv with paths := inv.paths.reverse }
  | arg :: rest =>
    if Log.isOption arg then readArgs inv rest
    else if arg == "-h" || arg == "--help" then .finish 0 "" usage
    else if arg == "--version" then .finish 0 ("amlc " ++ version ++ "\n") ""
    else if arg == "-o" || arg == "-j" || arg == "--feature" then
      match rest with
      | [] => misuse (arg ++ " needs a value")
      | value :: rest =>
        if arg == "-o" then readArgs { inv with outputDir := value } rest
        else if arg == "-j" then
          match parseJobs value with
          | some n => readArgs { inv with jobs := n } rest
          | none => misuse ("invalid job count '" ++ value ++ "'")
        else readArgs { inv with features := value :: inv.features } rest
    else if arg.startsWith "--feature=" || arg.startsWith "--test-root=" then
      let name := (arg.takeWhile (· != '=')).toString
      let value := ((arg.dropWhile (· != '=')).drop 1).toString
      if value.isEmpty then misuse (name ++ " needs a value")
      else if name == "--feature" then readArgs { inv with features := value :: inv.features } rest
      else readArgs { inv with testRoots := value :: inv.testRoots } rest
    else if arg == "--no-main" then readArgs { inv with emitMain := false } rest
    else if arg == "--no-runtime" then readArgs { inv with copyRuntime := false } rest
    else if arg == "--no-comments" then readArgs { inv with comments := false } rest
    else if arg == "--strict-features" then readArgs { inv with strict := true } rest
    else if arg == "--diagnostics=json" then readArgs { inv with json := true } rest
    else if arg.startsWith "-" then
      .finish 2 "" ("amlc: unknown option '" ++ arg ++ "'\n" ++ usage)
    else readArgs { inv with paths := arg :: inv.paths } rest

/-- Reads the command line's arguments, without the program name. -/
def ofArgs (args : List String) : Arguments := readArgs {} args

end Invocation

end AmLang
