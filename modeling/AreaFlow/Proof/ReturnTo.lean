import AreaFlow.Construction.Auth.ReturnTo

namespace AreaFlow.Auth
open Go

/-- A place passes the tests of `safeReturnTo`. -/
structure SafeValue (value : GoString) : Prop where
  rooted : hasPrefix value [slash] = true
  single : hasPrefix value [slash, slash] = false
  forward : 92 ∉ value
  unbroken : 13 ∉ value ∧ 10 ∉ value
  parsed : ∃ parsed, parseURL value = some parsed ∧ parsed.scheme = [] ∧ parsed.host = [] ∧ hasPrefix parsed.path [slash] = true

theorem safeValue_root : SafeValue [slash] :=
  ⟨by decide, by decide, by decide, by decide, ⟨[], [], [slash]⟩, by decide, rfl, rfl, by decide⟩

/-- A place is kept if it passes the tests, and else replaced by the root. -/
theorem safeReturnTo_cases (raw : GoString) :
    (SafeValue (trimSpace raw) ∧ safeReturnTo raw = trimSpace raw) ∨
      (¬ SafeValue (trimSpace raw) ∧ safeReturnTo raw = [slash]) := by
  unfold safeReturnTo
  dsimp only
  split
  · rename_i failed
    refine .inr ⟨?_, rfl⟩
    rintro ⟨rooted, single, forward, ⟨noReturn, noLine⟩, _⟩
    simp [rooted, single, forward, noReturn, noLine] at failed
  · rename_i tests
    simp only [not_or, Bool.not_eq_false, Bool.not_eq_true] at tests
    obtain ⟨starts, single, forward, noReturn, noLine⟩ := tests
    split
    · rename_i unread
      refine .inr ⟨?_, rfl⟩
      rintro ⟨_, _, _, _, parsed, read, _⟩
      cases unread.symm.trans read
    · rename_i parsed read
      split
      · rename_i foreign
        refine .inr ⟨?_, rfl⟩
        rintro ⟨_, _, _, _, other, again, scheme, host, path⟩
        cases read.symm.trans again
        simp [scheme, host, path] at foreign
      · rename_i own
        simp only [not_or, ne_eq, not_not, Bool.not_eq_false] at own
        exact .inl ⟨⟨starts, single, forward, ⟨noReturn, noLine⟩, parsed, read, own⟩, rfl⟩

theorem safeReturnTo_safe (raw : GoString) : SafeValue (safeReturnTo raw) := by
  rcases safeReturnTo_cases raw with ⟨safe, same⟩ | ⟨_, root⟩
  · rw [same]
    exact safe
  · rw [root]
    exact safeValue_root

namespace SafeValue

variable {value tail : GoString}

theorem start (safe : SafeValue value) : ∃ tail, value = slash :: tail := by
  obtain ⟨tail, whole⟩ := hasPrefix_iff.mp safe.rooted
  exact ⟨tail, whole.symm⟩

/-- A place that parses has no tab behind its first slash. -/
theorem plain (safe : SafeValue (slash :: tail)) : Plain tail := by
  intro b first
  cases tail with
  | nil => cases first
  | cons c rest =>
      have notTab : c ≠ 9 := by
        rintro rfl
        obtain ⟨parsed, read, _⟩ := safe.parsed
        have control : (cutBefore 35 (slash :: 9 :: rest)).any isControl = true :=
          List.any_eq_true.mpr ⟨9, by simp [cutBefore, slash], by decide⟩
        rw [parseURL] at read
        simp [control] at read
      have notReturn : c ≠ 13 := fun same => safe.unbroken.1 (by simp [same])
      have notLine : c ≠ 10 := fun same => safe.unbroken.2 (by simp [same])
      have shown : parserKeeps c = true := by simp [parserKeeps, notTab, notReturn, notLine]
      obtain rfl : c = b := by simpa [shown] using first
      have notSlash : c ≠ slash := by
        rintro rfl
        have single := safe.single
        simp [hasPrefix] at single
      have notBack : c ≠ 92 := fun same => safe.forward (by simp [same])
      simp [isSolidus, notSlash, notBack]

/-- The location that is sent for a place is the clean one. -/
theorem redirectLocation_eq (safe : SafeValue value) (oldPath : GoString) :
    redirectLocation oldPath value = hexEscapeNonASCII (cleanLocation oldPath value) := by
  obtain ⟨parsed, read, scheme, host, _⟩ := safe.parsed
  simp only [redirectLocation, read, scheme, host, and_self, if_true]

end SafeValue

/-- The clean path of a place starts with a name of tabs only, and a slash follows this name. -/
def TabbedStart (value : GoString) : Prop :=
  ∃ first rest, pathSegments (cutBefore 63 value) = first :: rest ∧ (∀ b ∈ first, b = 9) ∧
    (rest ≠ [] ∨ hasSuffix (cutBefore 63 value) [slash] = true)

section Location

variable {tail : GoString}

theorem cutBefore_question (tail : GoString) : cutBefore 63 (slash :: tail) = slash :: cutBefore 63 tail := by
  rw [cutBefore, List.takeWhile_cons_of_pos (by decide)]
  rfl

/-- The names of a place have no backslashes and no line breaks. -/
theorem SafeValue.name_bytes (safe : SafeValue (slash :: tail)) {name : GoString}
    (listed : name ∈ pathSegments (slash :: cutBefore 63 tail)) {b : UInt8} (inside : b ∈ name) :
    b ≠ slash ∧ b ≠ 92 ∧ b ≠ 13 ∧ b ≠ 10 := by
  have part := mem_pathSegments listed
  have member : b ∈ slash :: tail := by
    have cut := mem_of_mem_split part inside
    rw [← cutBefore_question] at cut
    exact List.takeWhile_subset _ cut
  refine ⟨?_, ?_, ?_, ?_⟩
  · rintro rfl
    exact split_clean slash _ name part inside
  · rintro rfl
    exact safe.forward member
  · rintro rfl
    exact safe.unbroken.1 member
  · rintro rfl
    exact safe.unbroken.2 member

theorem plain_query (tail : GoString) : Plain (tail.dropWhile (· ≠ 63)) := by
  intro b first
  cases query : tail.dropWhile (· ≠ 63) with
  | nil =>
      rw [query] at first
      cases first
  | cons c rest =>
      obtain rfl : c = 63 := by
        have head := List.head?_dropWhile_not (· ≠ 63) tail
        rw [query] at head
        simpa using head
      rw [query] at first
      obtain rfl : 63 = b := by simpa [parserKeeps] using first
      decide

theorem plain_append {blank rest : GoString} (removed : ∀ b ∈ blank, parserKeeps b = false) (plain : Plain rest) :
    Plain (blank ++ rest) := by
  intro b first
  have none : blank.find? parserKeeps = none := List.find?_eq_none.mpr fun c member => by simp [removed c member]
  rw [List.find?_append, none, Option.none_or] at first
  exact plain b first

/-- A name with another byte than a tab starts plainly. -/
theorem plain_name {name : GoString} (own : ∀ b ∈ name, b ≠ slash ∧ b ≠ 92 ∧ b ≠ 13 ∧ b ≠ 10)
    (untabbed : ¬ ∀ b ∈ name, b = 9) (rest : GoString) : Plain (name ++ rest) := by
  intro b first
  push Not at untabbed
  obtain ⟨c, inside, notTab⟩ := untabbed
  have shown : parserKeeps c = true := by simp [parserKeeps, notTab, (own c inside).2.2.1, (own c inside).2.2.2]
  obtain ⟨d, found⟩ := Option.isSome_iff_exists.mp (List.find?_isSome.mpr ⟨c, inside, shown⟩)
  rw [List.find?_append, found, Option.some_or] at first
  obtain rfl := Option.some.inj first
  have member := own d (List.mem_of_find?_eq_some found)
  simp [isSolidus, member.1, member.2.1]

/-- What follows the first slash of the clean location of a place starts plainly, or it starts with tabs and a slash. -/
theorem SafeValue.location (safe : SafeValue (slash :: tail)) (oldPath : GoString) :
    (¬ TabbedStart (slash :: tail) ∧ ∃ rest, cleanLocation oldPath (slash :: tail) = slash :: rest ∧ Plain rest) ∨
      (TabbedStart (slash :: tail) ∧ ∃ tabs rest, cleanLocation oldPath (slash :: tail) = slash :: (tabs ++ slash :: rest) ∧
        ∀ b ∈ tabs, b = 9) := by
  have shape := cleanLocation_rooted oldPath tail
  dsimp only at shape
  have start := cutBefore_question tail
  cases names : pathSegments (slash :: cutBefore 63 tail) with
  | nil =>
      rw [names] at shape
      refine .inl ⟨?_, tail.dropWhile (· ≠ 63), by simpa using shape, plain_query tail⟩
      rintro ⟨first, rest, found, _⟩
      rw [start, names] at found
      cases found
  | cons first rest =>
      have own : ∀ b ∈ first, b ≠ slash ∧ b ≠ 92 ∧ b ≠ 13 ∧ b ≠ 10 :=
        fun b inside => safe.name_bytes (names ▸ List.mem_cons_self) inside
      rw [names] at shape
      generalize ending : (if first :: rest ≠ [] ∧ hasSuffix (slash :: cutBefore 63 tail) [slash] = true then [slash] else []) =
        close at shape
      by_cases tabs : ∀ b ∈ first, b = 9
      · have removed : ∀ b ∈ first, parserKeeps b = false := by
          intro b inside
          rw [tabs b inside]
          decide
        cases rest with
        | cons second others =>
            have joined : [slash].intercalate (first :: second :: others) =
                first ++ slash :: [slash].intercalate (second :: others) := by
              simp [List.intercalate]
            rw [joined, List.append_assoc, List.cons_append] at shape
            exact .inr ⟨⟨first, second :: others, by rw [start, names], tabs, .inl (List.cons_ne_nil _ _)⟩, first, _, shape, tabs⟩
        | nil =>
            by_cases trailing : hasSuffix (slash :: cutBefore 63 tail) [slash] = true
            · rw [← ending, if_pos ⟨List.cons_ne_nil _ _, trailing⟩, List.intercalate_singleton] at shape
              exact .inr ⟨⟨first, [], by rw [start, names], tabs, .inr (by rwa [start])⟩, first, _, shape, tabs⟩
            · rw [← ending, if_neg fun both => trailing both.2, List.intercalate_singleton] at shape
              refine .inl ⟨?_, _, shape, plain_append removed (plain_query tail)⟩
              rintro ⟨other, more, found, _, follows⟩
              rw [start] at found follows
              cases names.symm.trans found
              simp [trailing] at follows
      · have joined : ∃ more, [slash].intercalate (first :: rest) = first ++ more := by
          cases rest with
          | nil => exact ⟨[], by simp⟩
          | cons second others => exact ⟨slash :: [slash].intercalate (second :: others), by simp [List.intercalate]⟩
        obtain ⟨more, joined⟩ := joined
        rw [joined, List.append_assoc] at shape
        refine .inl ⟨?_, _, shape, plain_name own tabs _⟩
        rintro ⟨other, others, found, all, _⟩
        rw [start] at found
        cases names.symm.trans found
        exact tabs all

end Location

/-- A place that is kept leads a browser to the same origin when it is resolved as it is. The location that the server
sends for it is cleaned first; it leads to the same origin exactly if the clean path of the kept place does not start
with a name of tabs only that a slash follows. -/
theorem returnTo_sameOrigin_iff (browser : Browser GoString) (oldPath raw : GoString) :
    (∀ base, browser.resolve base (safeReturnTo raw) = some base) ∧
      ((∀ base, browser.resolve base (redirectLocation oldPath (safeReturnTo raw)) = some base) ↔
        ¬ (SafeValue (trimSpace raw) ∧ TabbedStart (trimSpace raw))) := by
  have safe := safeReturnTo_safe raw
  obtain ⟨tail, whole⟩ := safe.start
  have kept : TabbedStart (safeReturnTo raw) ↔ SafeValue (trimSpace raw) ∧ TabbedStart (trimSpace raw) := by
    rcases safeReturnTo_cases raw with ⟨passes, same⟩ | ⟨fails, root⟩
    · rw [same]
      exact ⟨fun tabbed => ⟨passes, tabbed⟩, And.right⟩
    · rw [root]
      constructor
      · rintro ⟨first, rest, found, _⟩
        cases found
      · exact fun both => absurd both.1 fails
  rw [← kept, safe.redirectLocation_eq oldPath]
  rw [whole] at safe ⊢
  refine ⟨resolve_plain browser safe.plain, ?_⟩
  rcases safe.location oldPath with ⟨untabbed, rest, sent, plain⟩ | ⟨tabbed, tabs, rest, sent, blank⟩
  · refine ⟨fun _ => untabbed, fun _ base => ?_⟩
    rw [sent]
    exact resolve_plain browser plain.hexEscape base
  · refine ⟨fun stays => ?_, fun untabbed => absurd tabbed untabbed⟩
    have ascii : ∀ b ∈ slash :: (tabs ++ [slash]), b < 128 := by
      intro b member
      simp only [List.mem_cons, List.mem_append, List.not_mem_nil, or_false] at member
      rcases member with rfl | tab | rfl
      · decide
      · rw [blank b tab]
        decide
      · decide
    have escaped : hexEscapeNonASCII (slash :: (tabs ++ slash :: rest)) = slash :: (tabs ++ slash :: hexEscapeNonASCII rest) := by
      simpa using hexEscapeNonASCII_ascii ascii rest
    obtain ⟨authority, leads⟩ := resolve_doubled browser (fun b tab => by rw [blank b tab]; decide) (hexEscapeNonASCII rest)
    rw [sent, escaped] at stays
    have first := (leads []).symm.trans (stays [])
    have second := (leads [0]).symm.trans (stays [0])
    cases first.symm.trans second

/-- This browser takes the text of an authority for its origin. -/
def plainBrowser : Browser GoString where
  authority text := some (bytes "https://" ++ text)
  absolute scheme rest := some (scheme ++ bytes ":" ++ rest)

/-- A tab in the fragment passes the tests. Cleaning moves it behind the first slash, and the browser removes it there. -/
theorem tabbedFragment_leaves :
    safeReturnTo (bytes "/#/../\t/evil.example") = bytes "/#/../\t/evil.example" ∧
      redirectLocation (bytes "/api/v1/auth/oidc/callback") (safeReturnTo (bytes "/#/../\t/evil.example")) =
        bytes "/\t/evil.example" ∧
      plainBrowser.resolve (bytes "https://areaflow.example")
        (redirectLocation (bytes "/api/v1/auth/oidc/callback") (safeReturnTo (bytes "/#/../\t/evil.example"))) =
        some (bytes "https://evil.example") := by decide +kernel

end AreaFlow.Auth
