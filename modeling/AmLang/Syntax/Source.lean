/-!
# Source text and positions

A `Source` is one compiled file: its name and its bytes (as byte text, see
`AmLang.Text.Bytes`), with an index of the offsets at which lines begin. Positions are
1-based lines and 1-based byte columns; offsets are 0-based byte offsets.

A line begins at offset 0 and just after every newline byte, so a text of `k` newlines has
`k + 1` lines, the last one possibly empty. `Source.location` finds the line of an offset by
binary search in that index; an offset past the end belongs to the last line.

## Main definitions

* `Location`, `Span` — a point of a file with the length of what starts there, and a pair of
  them.
* `Source.location`, `Source.line`, `Source.slice`, `Source.byteAt` — the questions asked of a
  source.
-/

namespace AmLang

/--
A point of a source file: its file name, 1-based line and column, 0-based byte offset, and the
byte length of the element that starts there.
-/
structure Location where
  file : String := ""
  line : Nat := 0
  column : Nat := 0
  offset : Nat := 0
  length : Nat := 0
deriving Repr, BEq, DecidableEq, Inhabited

/-- A stretch of source from `start` to `stop`; the length of `start` is that of the element. -/
structure Span where
  start : Location := {}
  stop : Location := {}
deriving Repr, BEq, DecidableEq, Inhabited

namespace Span

/-- The span that starts where `a` starts and ends where `b` ends. -/
def merge (a b : Span) : Span := ⟨a.start, b.stop⟩

end Span

/-- The offsets at which the lines of `bytes` begin: 0, and one past every newline. -/
def lineStartsOf (bytes : Array Char) : Array Nat :=
  #[0] ++ (bytes.toList.zipIdx.filterMap fun (c, i) => if c = '\n' then some (i + 1) else none)

/-- A compiled file: name, bytes, and the index of its line starts. -/
structure Source where
  name : String
  bytes : Array Char
  lineStarts : Array Nat := lineStartsOf bytes
  lineStarts_eq : lineStarts = lineStartsOf bytes := by rfl

namespace Source

/-- The source named `name` holding the byte text `text`. -/
def ofText (name text : String) : Source :=
  { name, bytes := text.toList.toArray }

/-- Size in bytes. -/
def size (s : Source) : Nat := s.bytes.size

/-- The whole text. -/
def text (s : Source) : String := String.ofList s.bytes.toList

/-- Number of lines: one more than the number of newlines. -/
def lineCount (s : Source) : Nat := s.lineStarts.size

/-- The byte at `offset`, or the NUL character past the end. -/
def byteAt (s : Source) (offset : Nat) : Char := s.bytes.getD offset '\x00'

/-- The bytes from `start` up to `stop`, clamped to the text. Empty when `start` is at or past the
end; a `stop` before `start` reaches to the end of the text. -/
def slice (s : Source) (start stop : Nat) : String :=
  if start ≥ s.size then ""
  else
    let stop := min stop s.size
    let stop := if stop < start then s.size else stop
    String.ofList (s.bytes.extract start stop).toList

/-- The number of entries of the sorted array `a` between `lo` and `hi` that are at most `x`,
plus `lo`: the first index from `lo` whose entry exceeds `x`. -/
def upperBound (a : Array Nat) (x lo hi : Nat) : Nat :=
  if h : lo < hi then
    let mid := (lo + hi) / 2
    if a.getD mid 0 ≤ x then upperBound a x (mid + 1) hi else upperBound a x lo mid
  else lo
termination_by hi - lo

/-- The index of the line holding `offset`, counted from 0. -/
def lineIndex (s : Source) (offset : Nat) : Nat :=
  upperBound s.lineStarts offset 0 s.lineStarts.size - 1

/-- The position of `offset`, with length 1. Past the end, the position on the last line. -/
def location (s : Source) (offset : Nat) : Location :=
  let idx := s.lineIndex offset
  { file := s.name, line := idx + 1, column := offset - s.lineStarts.getD idx 0 + 1,
    offset, length := 1 }

/-- Drops trailing newline and carriage-return bytes. -/
def trimLineEnd (cs : List Char) : List Char :=
  (cs.reverse.dropWhile (fun c => c = '\n' ∨ c = '\r')).reverse

/-- The text of line `n` (1-based) without its line end; empty for line 0 and past the last. -/
def line (s : Source) (n : Nat) : String :=
  if n = 0 ∨ n > s.lineCount then ""
  else
    let start := s.lineStarts.getD (n - 1) 0
    let stop := if n < s.lineCount then s.lineStarts.getD n 0 else s.size
    String.ofList (trimLineEnd (s.bytes.extract start stop).toList)

/-- The span from `start` to `stop`: the start carries the length, the end has length 0. -/
def spanOf (s : Source) (start stop : Nat) : Span :=
  ⟨{ s.location start with length := stop - start }, { s.location stop with length := 0 }⟩

end Source

end AmLang
