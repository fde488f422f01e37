/-!
# Compilation units

A unit is one input file: its path, its bytes, its role and the features enabled for it. A unit
whose path has a directory named `tests` is a test unit, where test declarations are allowed.
-/

namespace AmLang

/-- Whether test declarations are allowed in a unit. -/
inductive UnitRole where
  | source
  | test
deriving Repr, BEq, DecidableEq, Inhabited

/-- One input file. -/
structure SourceUnit where
  path : String
  content : String
  role : UnitRole := .source
  features : List String := []
deriving Inhabited

namespace SourceUnit

/-- The directory segments of a path (every segment before the last `/` or `\`). -/
def directories (path : String) : List String :=
  (path.splitOn "/" |>.flatMap (·.splitOn "\\")).dropLast

/-- `test` when a directory of the path is named `tests`. -/
def roleFor (path : String) : UnitRole :=
  if (directories path).contains "tests" then .test else .source

/-- The unit for `path` with the role its path gives. -/
def ofPath (path content : String) (features : List String) : SourceUnit :=
  { path, content, role := roleFor path, features }

/-- A directory path with `\` as `/`, without leading `./` and trailing `/`. -/
def normalizeDir (path : String) : String :=
  let cs := path.toList.map fun c => if c == '\\' then '/' else c
  let rec dropDots : List Char → Nat → List Char
    | '.' :: '/' :: rest, fuel + 1 => dropDots rest fuel
    | cs, _ => cs
  let cs := dropDots cs cs.length
  String.ofList (cs.reverse.dropWhile (· == '/')).reverse

/-- Whether `path` lies inside the directory `root`; an empty root or `.` holds everything. -/
def isUnderRoot (path root : String) : Bool :=
  let dir := normalizeDir root
  let file := normalizeDir path
  if dir.isEmpty || dir == "." then true
  else file.length > dir.length && file.startsWith dir && file.toList.getD dir.length ' ' == '/'

end SourceUnit

end AmLang
