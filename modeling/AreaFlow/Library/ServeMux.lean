import AreaFlow.Library.GoPath
import AreaFlow.Library.NetURL

namespace Go

/-- This function is `http.cleanPath`: `path.Clean` of a rooted path with a trailing slash kept. -/
def cleanPath (p : GoString) : GoString :=
  if p = [] then [slash]
  else
    let rooted := if p.head? = some slash then p else slash :: p
    let cleaned := pathClean rooted
    if rooted.getLast? = some slash ∧ cleaned ≠ [slash] then cleaned ++ [slash] else cleaned

/-- This function decodes each segment and reads a trailing slash as a segment of its own. -/
def decodeSegments : List GoString → List GoString
  | [] => []
  | [last] => if last = [] then [[slash]] else [pathUnescape last]
  | segment :: next :: rest => pathUnescape segment :: decodeSegments (next :: rest)

/-- These are the segments that the routing tree sees for an escaped path. -/
def muxSegments (path : GoString) : List GoString :=
  if path = [] then [] else decodeSegments (split slash (path.drop 1))

/-- This table holds the routes with a literal path and those that own a subtree. -/
structure ServeMux (Route : Type) where
  literal : List (List GoString × Route)
  subtree : List (List GoString × Route)

/-- A request is redirected, unknown, or given to one route. -/
inductive MuxResult (Route : Type) where
  | redirect
  | notFound
  | route (target : Route)
  deriving DecidableEq

namespace ServeMux

variable {Route : Type}

/-- A literal route matches all segments. -/
def findLiteral (mux : ServeMux Route) (segments : List GoString) : Option Route :=
  (mux.literal.find? fun entry => entry.1 == segments).map (·.2)

/-- A subtree route matches a prefix that leaves at least one segment. -/
def findSubtree (mux : ServeMux Route) (segments : List GoString) : Option Route :=
  (mux.subtree.find? fun entry => entry.1.isPrefixOf segments && entry.1.length < segments.length).map (·.2)

/-- This test is the redirect from a missing path to its registered subtree. -/
def slashRedirect (mux : ServeMux Route) (path : GoString) : Bool :=
  (mux.findLiteral (muxSegments path)).isNone && path.getLast? != some slash &&
    mux.subtree.any fun entry => entry.1 == muxSegments path

/-- This function is `ServeMux.findHandler` for patterns without methods and hosts. -/
def dispatch (mux : ServeMux Route) (connect : Bool) (url : URL) : MuxResult Route :=
  let path := url.escapedPath
  if mux.slashRedirect path then .redirect
  else if connect = false ∧ cleanPath path ≠ path then .redirect
  else
    match mux.findLiteral (muxSegments path), mux.findSubtree (muxSegments path) with
    | some target, _ => .route target
    | none, some target => .route target
    | none, none => .notFound

end ServeMux

/-- A path whose first segments decode to a given list spells that list out. -/
theorem decodeSegments_stem (stem : List GoString) (next : GoString) (more : List GoString) (s p : GoString)
    (segments : decodeSegments (split slash s) = stem ++ next :: more) (decoded : unescape s = some p) :
    ∃ rest, p = stem.flatMap (· ++ [slash]) ++ rest := by
  induction stem generalizing s p with
  | nil => exact ⟨p, rfl⟩
  | cons first stem ih =>
      obtain ⟨left, right, rfl, clean⟩ | single := first_separator slash s
      · rw [split_append_cons right clean] at segments
        obtain ⟨head, tail, shape⟩ := List.exists_cons_of_ne_nil (split_ne_nil slash right)
        rw [shape, decodeSegments, ← shape, List.cons_append, List.cons.injEq] at segments
        rw [unescape_append_slash] at decoded
        obtain ⟨l, leftDecoded, mapped⟩ := Option.bind_eq_some_iff.mp decoded
        obtain ⟨r, rightDecoded, rfl⟩ := Option.map_eq_some_iff.mp mapped
        obtain ⟨rest, rfl⟩ := ih right r segments.2 rightDecoded
        refine ⟨rest, ?_⟩
        rw [← segments.1, pathUnescape, leftDecoded]
        simp
      · have short : (decodeSegments (split slash s)).length = 1 := by
          rw [split_eq_singleton single, decodeSegments]
          split <;> rfl
        rw [segments] at short
        simp at short

/-- A request whose segments extend a list of segments has a path that extends their spelling. -/
theorem muxSegments_stem (u : URL) (stem : List GoString) (next : GoString) (more : List GoString)
    (segments : muxSegments u.escapedPath = stem ++ next :: more) :
    ∃ rest, u.path = slash :: (stem.flatMap (· ++ [slash]) ++ rest) := by
  have decoded := u.unescape_escapedPath
  rcases u.escapedPath_rooted with empty | ⟨tail, shape⟩
  · rw [empty] at segments
    simp [muxSegments] at segments
  · rw [shape, unescape_cons_of_ne (by decide)] at decoded
    obtain ⟨p, tailDecoded, same⟩ := Option.map_eq_some_iff.mp decoded
    rw [shape] at segments
    simp only [muxSegments, reduceCtorEq, if_false, List.drop_succ_cons, List.drop_zero] at segments
    obtain ⟨rest, rfl⟩ := decodeSegments_stem stem next more tail p segments tailDecoded
    exact ⟨rest, same.symm⟩

namespace ServeMux

variable {Route : Type}

/-- A dispatched request matched a literal route or a subtree route. -/
theorem dispatch_route {mux : ServeMux Route} {connect : Bool} {url : URL} {target : Route}
    (dispatched : mux.dispatch connect url = .route target) :
    mux.findLiteral (muxSegments url.escapedPath) = some target ∨
      mux.findSubtree (muxSegments url.escapedPath) = some target := by
  unfold dispatch at dispatched
  simp only at dispatched
  split at dispatched
  · cases dispatched
  · split at dispatched
    · cases dispatched
    · split at dispatched
      · rename_i found
        cases dispatched
        exact Or.inl found
      · rename_i found
        cases dispatched
        exact Or.inr found
      · cases dispatched

/-- A literal match is an entry of the table with these segments. -/
theorem findLiteral_mem {mux : ServeMux Route} {segments : List GoString} {target : Route}
    (found : mux.findLiteral segments = some target) : (segments, target) ∈ mux.literal := by
  obtain ⟨entry, search, rfl⟩ := Option.map_eq_some_iff.mp found
  have same := List.find?_some search
  have member := List.mem_of_find?_eq_some search
  rw [beq_iff_eq] at same
  rw [← same]
  exact member

/-- A subtree match is an entry of the table whose segments are properly extended. -/
theorem findSubtree_mem {mux : ServeMux Route} {segments : List GoString} {target : Route}
    (found : mux.findSubtree segments = some target) :
    ∃ stem next more, (stem, target) ∈ mux.subtree ∧ segments = stem ++ next :: more := by
  obtain ⟨entry, search, rfl⟩ := Option.map_eq_some_iff.mp found
  have fits := List.find?_some search
  have member := List.mem_of_find?_eq_some search
  simp only [Bool.and_eq_true, List.isPrefixOf_iff_prefix, decide_eq_true_eq] at fits
  obtain ⟨⟨rest, rfl⟩, longer⟩ := fits
  cases rest with
  | nil => simp at longer
  | cons next more => exact ⟨entry.1, next, more, member, rfl⟩

end ServeMux

end Go
