/-!
# "Did you mean" suggestions

The edit distance between two byte texts (insertions, deletions and substitutions of single
bytes), computed row by row, and the closest of a list of candidates.
-/

namespace AmLang.Suggest

/-- The next row of the distance table: `prev` is the row for the bytes of `a` before `c`, and
`i` the number of those bytes plus one. -/
def nextRow (b : List Char) (c : Char) (i : Nat) (prev : List Nat) : List Nat :=
  let rec go : List Char → List Nat → Nat → List Nat
    | [], _, _ => []
    | bc :: bs, p :: ps, left =>
      let up := ps.headD 0
      let cost := if c == bc then 0 else 1
      let v := min (min (up + 1) (left + 1)) (p + cost)
      v :: go bs ps v
    | _ :: _, [], _ => []
  i :: go b prev i

/-- The edit distance between `a` and `b`. -/
def levenshtein (a b : String) : Nat :=
  let bs := b.toList
  let first := List.range (bs.length + 1)
  let (last, _) := a.toList.foldl (fun (row, i) c => (nextRow bs c (i + 1) row, i + 1)) (first, 0)
  last.getLastD 0

/-- The first candidate other than `input` whose distance is smallest and at most `maxDistance`,
or the empty string. -/
def findSimilar (input : String) (candidates : List String) (maxDistance : Nat) : String :=
  let (best, _) := candidates.foldl (fun (best, bestDist) c =>
    if c == input then (best, bestDist)
    else
      let d := levenshtein input c
      if d < bestDist then (c, d) else (best, bestDist)) ("", maxDistance + 1)
  best

end AmLang.Suggest
