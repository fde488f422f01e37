import AmLang.Log.Line
/-!
# Which log lines are kept

A log keeps a line when its severity reaches a threshold. The threshold is the gate's level, and
then the filter's level for the line's tag: a filter names levels for some tags and has a default
for the rest. A filter is written as a comma-separated list of `tag=level` (the tag `*` sets the
default) and of bare tags, which keep everything of that tag.

A gate set up with a filter lowers its own level to the lowest level the filter names, so that a
filter such as `binder=trace` lets trace lines of that tag through a gate at `warn`. Lines of
severity `off` are never kept.
-/

namespace AmLang.Log

namespace Level

/-- The level a name stands for, in any case (`warning` and `none` too); `info` for any other
text. -/
def parse (s : String) : Level :=
  match s.toLower with
  | "trace" => .trace
  | "debug" => .debug
  | "info" => .info
  | "warn" | "warning" => .warn
  | "error" => .error
  | "fatal" => .fatal
  | "off" | "none" => .off
  | _ => .info

end Level

/-- Levels by tag, and a default level for the other tags. -/
structure Filter where
  defaultLevel : Severity := Level.info
  /-- The levels named for tags, each tag once. -/
  tags : List (String × Severity) := []
deriving Inhabited

namespace Filter

/-- The level named for a tag. -/
def levelOf? (f : Filter) (tag : String) : Option Severity :=
  (f.tags.find? (·.1 == tag)).map (·.2)

/-- The filter with `level` named for `tag`, replacing what was named for it. -/
def set (f : Filter) (tag : String) (level : Severity) : Filter :=
  { f with tags := f.tags.filter (·.1 != tag) ++ [(tag, level)] }

/-- The filter after reading one item of a filter text. -/
def readItem (f : Filter) (item : String) : Filter :=
  match item.splitOn "=" with
  | [] => f
  | [tag] => if tag.isEmpty then f else f.set tag Level.trace
  | tag :: rest =>
    let level := Level.parse ("=".intercalate rest)
    if tag == "*" then { f with defaultLevel := level } else f.set tag level

/-- The filter after reading a filter text: the tags named before are dropped, the default is
kept unless the text sets it. -/
def parse (f : Filter) (spec : String) : Filter :=
  (spec.splitOn ",").foldl readItem { f with tags := [] }

/-- Whether a line of this severity and tag passes the filter. -/
def accepts (f : Filter) (level : Severity) (tag : String) : Bool :=
  level.atLeast ((f.levelOf? tag).getD f.defaultLevel)

/-- The lowest level the filter lets through for some tag. -/
def minLevel (f : Filter) : Severity :=
  f.tags.foldl (fun low (_, l) => if l.rank < low.rank then l else low) f.defaultLevel

end Filter

/-- A level below which nothing is kept, and a filter. A logger starts at `warn`, with a filter
that names no tag and has the same default. -/
structure Gate where
  level : Severity := Level.warn
  filter : Filter := { defaultLevel := Level.warn }
  /-- Whether the gate was set up with a filter text. -/
  hasFilter : Bool := false
deriving Inhabited

namespace Gate

/-- The gate set up with a level and a filter text. With a filter, its default is lowered to the
level when the level is lower, and the gate's level becomes the lowest the filter names. -/
def init (level : Severity) (spec : String) : Gate :=
  if spec.isEmpty then { level, filter := { defaultLevel := level } }
  else
    let f := ({} : Filter).parse spec
    let f := if level.rank < f.defaultLevel.rank then { f with defaultLevel := level } else f
    { level := f.minLevel, filter := f, hasFilter := true }

/-- Whether a line of this severity and tag is kept. -/
def accepts (g : Gate) (level : Severity) (tag : String) : Bool :=
  level != Level.off.severity && level.atLeast g.level && g.filter.accepts level tag

/-- The lines the gate keeps, in order. -/
def keep (g : Gate) (lines : List Line) : List Line :=
  lines.filter fun l => g.accepts l.level l.tag

/-- The gate at another level, which also becomes the filter's default. -/
def setLevel (g : Gate) (level : Severity) : Gate :=
  { g with level, filter := { g.filter with defaultLevel := level } }

/-- The gate with another filter text: the tags it names replace those named before, and the
gate's level drops to the lowest the filter lets through. -/
def setFilter (g : Gate) (spec : String) : Gate :=
  let f := g.filter.parse spec
  { level := if f.minLevel.rank < g.level.rank then f.minLevel else g.level, filter := f,
    hasFilter := !spec.isEmpty }

end Gate

end AmLang.Log
