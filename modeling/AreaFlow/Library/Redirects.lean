import AreaFlow.Library.CleanPath
import AreaFlow.Library.ParseURL
import AreaFlow.Library.Json

namespace Go

section Server

/-- This function is `hexEscapeNonASCII` of `net/http`. -/
def hexEscapeNonASCII (s : GoString) : GoString :=
  s.flatMap fun b => if 128 ≤ b then [percent, Json.hexDigit (b.toNat / 16), Json.hexDigit (b.toNat % 16)] else [b]

/-- This is the directory part of `path.Split`. -/
def pathDirectory (p : GoString) : GoString := (p.reverse.dropWhile (· ≠ slash)).reverse

/-- A relative location is made absolute and cleaned up to its query; a slash at its end stays. -/
def cleanLocation (oldPath location : GoString) : GoString :=
  let oldPath := if oldPath = [] then [slash] else oldPath
  let absolute := if location.head? = some slash then location else pathDirectory oldPath ++ location
  let path := cutBefore 63 absolute
  let clean := pathClean path
  (if hasSuffix path [slash] ∧ ¬ hasSuffix clean [slash] then clean ++ [slash] else clean) ++ absolute.drop path.length

/-- This is the location that `http.Redirect` sends in answer to a request for a path. -/
def redirectLocation (oldPath location : GoString) : GoString :=
  hexEscapeNonASCII (match parseURL location with
    | some parsed => if parsed.scheme = [] ∧ parsed.host = [] then cleanLocation oldPath location else location
    | none => location)

theorem hasSuffix_slash {p : GoString} : hasSuffix p [slash] = true ↔ p.getLast? = some slash := by
  rw [hasSuffix_iff, List.singleton_suffix_iff_getLast?_eq_some]

/-- Joined names do not end with a slash. -/
theorem joined_last {names : List GoString} (named : ∀ name ∈ names, Ordinary name) :
    ([slash].intercalate names).getLast? ≠ some slash := by
  induction names with
  | nil => simp
  | cons first rest ih =>
      have own := named first List.mem_cons_self
      cases rest with
      | nil =>
          intro last
          exact own.clean (List.mem_of_getLast? (by simpa using last))
      | cons second others =>
          have later := ih fun name member => named name (List.mem_cons_of_mem _ member)
          have shape : [slash].intercalate (first :: second :: others) =
              first ++ slash :: [slash].intercalate (second :: others) := by
            simp [List.intercalate]
          have filled : [slash].intercalate (second :: others) ≠ [] := by
            have nonempty := (named second (by simp)).nonempty
            cases second with
            | nil => exact absurd rfl nonempty
            | cons b second =>
                rw [List.intercalate_cons_cons_left]
                exact List.cons_ne_nil _ _
          rw [shape, List.getLast?_append, List.getLast?_cons, Option.some_or]
          rw [List.getLast?_eq_some_getLast filled] at later
          simpa [List.getLast?_eq_some_getLast filled] using later

theorem cleanLocation_rooted (oldPath tail : GoString) :
    let path := slash :: cutBefore 63 tail
    cleanLocation oldPath (slash :: tail) = slash :: ([slash].intercalate (pathSegments path) ++
      ((if pathSegments path ≠ [] ∧ hasSuffix path [slash] then [slash] else []) ++ tail.dropWhile (· ≠ 63))) := by
  intro path
  have cut : cutBefore 63 (slash :: tail) = path := by
    rw [cutBefore, List.takeWhile_cons_of_pos (by decide)]
    rfl
  have left : (slash :: tail).drop path.length = tail.dropWhile (· ≠ 63) := by
    have whole : slash :: tail = path ++ tail.dropWhile (· ≠ 63) := by
      rw [List.cons_append, cutBefore, List.takeWhile_append_dropWhile]
    rw [whole, List.drop_left]
  have names : ∀ name ∈ pathSegments path, Ordinary name := (pathSegments_normal path : Normal true _).names
  have clean : pathClean path = slash :: [slash].intercalate (pathSegments path) := pathClean_eq_render path
  have ends : hasSuffix (pathClean path) [slash] = true ↔ pathSegments path = [] := by
    rw [hasSuffix_slash, clean]
    constructor
    · intro last
      by_contra some
      have filled : [slash].intercalate (pathSegments path) ≠ [] :=
        fun empty => some ((pathSegments_normal path).intercalate_eq_nil.mp empty)
      rw [List.getLast?_cons, List.getLast?_eq_some_getLast filled, Option.getD_some] at last
      exact joined_last names ((List.getLast?_eq_some_getLast filled).trans last)
    · intro none
      rw [none]
      rfl
  have head : (slash :: tail).head? = some slash := rfl
  unfold cleanLocation
  dsimp only
  rw [if_pos head, cut, left]
  by_cases none : pathSegments path = []
  · rw [if_neg fun both => both.2 (ends.mpr none), if_neg fun both => both.1 none, clean]
    rfl
  · by_cases trailing : hasSuffix path [slash] = true
    · rw [if_pos ⟨trailing, fun closed => none (ends.mp closed)⟩, if_pos ⟨none, trailing⟩, clean]
      simp
    · rw [if_neg fun both => trailing both.1, if_neg fun both => trailing both.2, clean]
      rfl

end Server

section Browser

/-- The parser of a browser removes tabs and line breaks everywhere. -/
def parserKeeps (b : UInt8) : Bool := !(b == 9 || b == 10 || b == 13)

/-- The parser of a browser removes these bytes at both ends. -/
def isControlOrSpace (b : UInt8) : Bool := decide (b ≤ 32)

/-- A backslash counts as a slash. -/
def isSolidus (b : UInt8) : Bool := b == slash || b == 92

/-- This is the text that the states of the parser see. -/
def parserInput (reference : GoString) : GoString :=
  ((reference.dropWhile isControlOrSpace).rdropWhile isControlOrSpace).filter parserKeeps

/-- This is what a browser makes of an authority behind `https:`, and of a reference with another scheme. -/
structure Browser (Origin : Type) where
  authority : GoString → Option Origin
  absolute : GoString → GoString → Option Origin

variable {Origin : Type} (browser : Browser Origin)

/-- The authority ends before the first of these bytes. -/
def endsAuthority (b : UInt8) : Bool := isSolidus b || b == 63 || b == 35

/-- Behind two slashes, further slashes are ignored and an authority follows. -/
def Browser.authorityOrigin (rest : GoString) : Option Origin :=
  browser.authority ((rest.dropWhile isSolidus).takeWhile fun b => !endsAuthority b)

/-- A reference without a scheme stays at its base unless it starts with two slashes. -/
def Browser.relativeOrigin (base : Origin) : GoString → Option Origin
  | b :: c :: rest => if isSolidus b && isSolidus c then browser.authorityOrigin rest else some base
  | _ => some base

/-- This is the origin of a reference that is resolved against a base with the scheme `https`, as the URL standard
defines it; an absent origin is a failure. -/
def Browser.resolve (base : Origin) (reference : GoString) : Option Origin :=
  match getScheme (parserInput reference) with
  | some (first :: scheme, rest) =>
      let lower := (first :: scheme).map lowerByte
      if lower = bytes "https" then
        if hasPrefix rest [slash, slash] then browser.authorityOrigin rest else browser.relativeOrigin base rest
      else browser.absolute lower rest
  | _ => browser.relativeOrigin base (parserInput reference)

/-- The first byte that the parser keeps is no slash. -/
def Plain (tail : GoString) : Prop := ∀ b, (tail.find? parserKeeps) = some b → isSolidus b = false

/-- What stands before an element that is kept is kept too. -/
theorem rdropWhile_append_cons {A : Type} {p : A → Bool} {middle : A} (kept : p middle = false) (before after : List A) :
    (before ++ middle :: after).rdropWhile p = before ++ middle :: after.rdropWhile p := by
  rw [List.rdropWhile, List.rdropWhile, List.reverse_append, List.reverse_cons, List.append_assoc, List.dropWhile_append]
  split
  · rename_i empty
    rw [List.isEmpty_iff] at empty
    simp [empty, kept]
  · simp

theorem parserInput_rooted (tail : GoString) :
    parserInput (slash :: tail) = slash :: (tail.rdropWhile isControlOrSpace).filter parserKeeps := by
  have kept : isControlOrSpace slash = false := by decide
  have shown : parserKeeps slash = true := by decide
  rw [parserInput, List.dropWhile_cons_of_neg (by simp [kept]), show (slash :: tail).rdropWhile isControlOrSpace = _ from rdropWhile_append_cons kept [] tail,
    List.nil_append, List.filter_cons_of_pos shown]

theorem resolve_rooted (base : Origin) (tail : GoString) :
    browser.resolve base (slash :: tail) =
      browser.relativeOrigin base (slash :: (tail.rdropWhile isControlOrSpace).filter parserKeeps) := by
  have noScheme (rest : GoString) : getScheme (slash :: rest) = some ([], slash :: rest) := by
    have stops : schemeByte slash = false := by decide
    rw [getScheme, List.dropWhile_cons_of_neg (by simp [stops])]
    split
    · rename_i colon
      exact absurd (List.cons.inj colon).1 (by decide)
    · rfl
  rw [Browser.resolve, parserInput_rooted, noScheme]

/-- A reference with one slash stays at its base. -/
theorem resolve_plain {tail : GoString} (plain : Plain tail) (base : Origin) :
    browser.resolve base (slash :: tail) = some base := by
  obtain ⟨more, whole⟩ : tail.rdropWhile isControlOrSpace <+: tail := List.rdropWhile_prefix _ _
  rw [resolve_rooted]
  cases seen : (tail.rdropWhile isControlOrSpace).filter parserKeeps with
  | nil => rfl
  | cons b rest =>
      have first : tail.find? parserKeeps = some b := by
        rw [← List.head?_filter, ← whole, List.filter_append, seen]
        rfl
      rw [Browser.relativeOrigin, plain b first, Bool.and_false]
      rfl

/-- A reference with two slashes and only removed bytes between them names an authority. -/
theorem resolve_doubled {blank : GoString} (removed : ∀ b ∈ blank, parserKeeps b = false) (more : GoString) :
    ∃ authority, ∀ base, browser.resolve base (slash :: (blank ++ slash :: more)) = browser.authority authority := by
  have kept : isControlOrSpace slash = false := by decide
  have shown : parserKeeps slash = true := by decide
  have none : blank.filter parserKeeps = [] := List.filter_eq_nil_iff.mpr fun b member => by simp [removed b member]
  let rest := (more.rdropWhile isControlOrSpace).filter parserKeeps
  refine ⟨(rest.dropWhile isSolidus).takeWhile fun b => !endsAuthority b, fun base => ?_⟩
  rw [resolve_rooted, rdropWhile_append_cons kept, List.filter_append, none, List.nil_append, List.filter_cons_of_pos shown]
  rfl

/-- Escaped bytes are no slashes. -/
theorem Plain.hexEscape {tail : GoString} (plain : Plain tail) : Plain (hexEscapeNonASCII tail) := by
  induction tail with
  | nil => exact plain
  | cons b rest ih =>
      have step : hexEscapeNonASCII (b :: rest) = (if 128 ≤ b then
          [percent, Json.hexDigit (b.toNat / 16), Json.hexDigit (b.toNat % 16)] else [b]) ++ hexEscapeNonASCII rest :=
        List.flatMap_cons
      rw [step]
      split
      · intro c first
        obtain rfl : percent = c := by simpa [parserKeeps, percent] using first
        decide
      · cases shown : parserKeeps b with
        | true =>
            intro c first
            refine plain c ?_
            simpa [shown] using first
        | false =>
            have later : Plain rest := fun c first => plain c (by simpa [shown] using first)
            intro c first
            exact ih later c (by simpa [shown] using first)

theorem hexEscapeNonASCII_ascii {s : GoString} (ascii : ∀ b ∈ s, b < 128) (rest : GoString) :
    hexEscapeNonASCII (s ++ rest) = s ++ hexEscapeNonASCII rest := by
  induction s with
  | nil => rfl
  | cons b s ih =>
      have small : ¬ 128 ≤ b := UInt8.not_le.mpr (ascii b List.mem_cons_self)
      have later := ih fun c member => ascii c (List.mem_cons_of_mem b member)
      rw [List.cons_append, hexEscapeNonASCII, List.flatMap_cons, if_neg small, ← hexEscapeNonASCII, later]
      rfl

end Browser

end Go
