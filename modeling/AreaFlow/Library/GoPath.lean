import AreaFlow.Library.GoStrings

namespace Go

/-- This function removes empty and dot segments and resolves parent segments; a parent segment
survives only at the front of a relative path. -/
def cleanSegments (rooted : Bool) : List GoString → List GoString → List GoString
  | kept, [] => kept.reverse
  | kept, segment :: rest =>
      if segment = [] ∨ segment = bytes "." then cleanSegments rooted kept rest
      else if segment = bytes ".." then
        match kept with
        | [] => cleanSegments rooted (if rooted then [] else [segment]) rest
        | last :: before =>
            if last = bytes ".." then cleanSegments rooted (segment :: kept) rest
            else cleanSegments rooted before rest
      else cleanSegments rooted (segment :: kept) rest

/-- This function is `path.Clean`. -/
def pathClean (p : GoString) : GoString :=
  let rooted := p.head? == some slash
  let segments := [slash].intercalate (cleanSegments rooted [] (split slash p))
  if rooted then slash :: segments else if segments = [] then bytes "." else segments

/-- This function is `path.Join`: the non-empty parts joined by slashes and cleaned. -/
def pathJoin (parts : List GoString) : GoString :=
  let present := parts.filter fun part => part != []
  if present = [] then [] else pathClean ([slash].intercalate present)

/-- These are the segments of a clean path, the empty one before a root included. -/
def segments (p : GoString) : List GoString :=
  if p = [] then [] else if p = [slash] then [[]] else split slash p

/-- This function removes the common start of two lists. -/
def dropCommon {A : Type} [DecidableEq A] : List A → List A → List A × List A
  | a :: base, b :: target => if a = b then dropCommon base target else (a :: base, b :: target)
  | base, target => (base, target)

/-- This function is `filepath.Rel`. Its error is the absent answer. -/
def pathRel (base target : GoString) : Option GoString :=
  let base := pathClean base
  let target := pathClean target
  let start := if base = bytes "." then [] else base
  if base = target then some (bytes ".")
  else if (start.head? == some slash) != (target.head? == some slash) then none
  else
    match dropCommon (segments start) (segments target) with
    | ([], down) => some ([slash].intercalate down)
    | (up :: rest, down) =>
        if up = bytes ".." ∧ down ≠ [] then none
        else some ([slash].intercalate ((up :: rest).map (fun _ => bytes "..") ++ down))

/-- This function matches a list against a pattern in which a wildcard stands for any run of elements. -/
def wildMatch {P B : Type} (wild : P → Bool) (one : P → B → Bool) : List P → List B → Bool
  | [], s => s.isEmpty
  | p :: pattern, s =>
      if wild p then s.tails.any (wildMatch wild one pattern)
      else match s with
        | [] => false
        | b :: rest => one p b && wildMatch wild one pattern rest

/-- Within one segment a star stands for any run of bytes. -/
def segmentMatch : GoString → GoString → Bool := wildMatch (· == 42) (· == ·)

/-- This is the usual meaning of a path pattern: a star stays within one segment and a double star
stands for any number of segments. -/
def glob (pattern path : GoString) : Bool :=
  wildMatch (· == bytes "**") segmentMatch (split slash pattern) (split slash path)

end Go
