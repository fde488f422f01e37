import Std.Data.TreeSet
import AmLang.Types.Conversion
import AmLang.Symbols.Symbol
/-!
# Uses of generic declarations

Generic classes and functions are checked once, with their parameters left as parameters. Every
use of one is recorded: a generic class instance that occurs in a type (`Box<Int>`, also inside
arrays, function types and other arguments), or a call of a generic function with its arguments.
A use is recorded with the generic declaration whose parameters may occur in its arguments (its
owner), so that a use such as `Box<T>` inside `fun <T> wrap` can be expanded once for each
instance of `wrap`.

A log keeps each distinct use once, in the order first recorded.
-/

namespace AmLang

/-- The generic context code stands in: a generic class whose parameters are in scope, and a
generic function whose parameters are. -/
structure GenericOwner where
  cls : Option ClassId := none
  fn : Option FunctionId := none
deriving BEq, Repr, Inhabited

/-- One use of a generic class or function. -/
structure Use where
  /-- The instantiated class, for a class use. -/
  cls : Option ClassId := none
  /-- The called generic function, for a call. -/
  fn : Option FunctionId := none
  /-- The class's arguments (for a generic method: its owner's). -/
  classArgs : List Ty := []
  fnArgs : List Ty := []
  owner : GenericOwner := {}
  span : Span := {}
deriving Inhabited

/-- An argument list as a key: `<A,B>` with qualified names. -/
def argsKey (env : ClassEnv) (args : List Ty) : String :=
  "<" ++ ",".intercalate (args.map (·.key env)) ++ ">"

/-- A key naming an optional class and an optional function. -/
def pairKey (c : Option ClassId) (f : Option FunctionId) : String :=
  (match c with | some c => toString c | none => "-") ++ "/" ++
    (match f with | some f => toString f | none => "-")

/-- The key that tells uses apart: owner, what is used, and the arguments. -/
def Use.key (env : ClassEnv) (u : Use) : String :=
  pairKey u.owner.cls u.owner.fn ++ "|" ++ pairKey u.cls u.fn ++ argsKey env u.classArgs ++
    argsKey env u.fnArgs

/-- The distinct uses recorded, in the order first recorded. -/
structure UseLog where
  uses : Array Use := #[]
  seen : Std.TreeSet String := ∅
deriving Inhabited

namespace UseLog

/-- Records a use unless an equal one was recorded. -/
def add (env : ClassEnv) (log : UseLog) (u : Use) : UseLog :=
  let k := u.key env
  if log.seen.contains k then log else { uses := log.uses.push u, seen := log.seen.insert k }

mutual

/-- Records every generic class instance that occurs in a type, outermost first. -/
def recordType (env : ClassEnv) (owner : GenericOwner) (span : Span) (log : UseLog) : Ty → UseLog
  | .obj c args _ =>
    let log := if args.isEmpty then log
      else log.add env { cls := some c, classArgs := args, owner, span }
    recordTypes env owner span log args
  | .array e _ => recordType env owner span log e
  | .func ps r _ =>
    let log := recordTypes env owner span log ps
    recordType env owner span log r
  | _ => log

/-- Records the generic class instances of each type of a list, in order. -/
def recordTypes (env : ClassEnv) (owner : GenericOwner) (span : Span) (log : UseLog) :
    List Ty → UseLog
  | [] => log
  | t :: ts => recordTypes env owner span (recordType env owner span log t) ts

end

/-- Records a call of a generic function. -/
def recordCall (env : ClassEnv) (log : UseLog) (f : FunctionId) (classArgs fnArgs : List Ty)
    (owner : GenericOwner) (span : Span) : UseLog :=
  log.add env { fn := some f, classArgs, fnArgs, owner, span }

/-- Records the uses of another log after these. -/
def append (env : ClassEnv) (log other : UseLog) : UseLog :=
  other.uses.foldl (add env) log

end UseLog

end AmLang
