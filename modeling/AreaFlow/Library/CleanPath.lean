import AreaFlow.Library.GoPath

namespace Go

/-- This segment names the parent directory. -/
def up : GoString := bytes ".."

/-- An ordinary segment names an entry of a directory. -/
structure Ordinary (segment : GoString) : Prop where
  nonempty : segment ≠ []
  notDot : segment ≠ bytes "."
  notUp : segment ≠ up
  clean : slash ∉ segment

instance (segment : GoString) : Decidable (Ordinary segment) :=
  decidable_of_iff (segment ≠ [] ∧ segment ≠ bytes "." ∧ segment ≠ up ∧ slash ∉ segment)
    ⟨fun ⟨nonempty, notDot, notUp, clean⟩ => ⟨nonempty, notDot, notUp, clean⟩,
      fun ordinary => ⟨ordinary.nonempty, ordinary.notDot, ordinary.notUp, ordinary.clean⟩⟩

/-- Clean segments are names after parent segments; a rooted path has no parent segments. -/
def Normal (rooted : Bool) (segments : List GoString) : Prop :=
  ∃ ups names, segments = List.replicate ups up ++ names ∧ (∀ name ∈ names, Ordinary name) ∧ (rooted = true → ups = 0)

/-- A path starts at the root. -/
def isRooted (p : GoString) : Bool := p.head? == some slash

/-- These are the segments that cleaning a path leaves. -/
def pathSegments (p : GoString) : List GoString := cleanSegments (isRooted p) [] (split slash p)

/-- This is the clean path with given segments. -/
def render (rooted : Bool) (segments : List GoString) : GoString :=
  if rooted then slash :: [slash].intercalate segments
  else if segments = [] then bytes "." else [slash].intercalate segments

/-- A path lies strictly inside a directory: it continues the segments of the directory by names. -/
def StrictlyInside (directory path : GoString) : Prop :=
  isRooted path = isRooted directory ∧
    ∃ names, names ≠ [] ∧ (∀ name ∈ names, Ordinary name) ∧ pathSegments path = pathSegments directory ++ names

/-- A path lies in a directory: it is the directory, or it continues its segments by names. -/
def Within (directory path : GoString) : Prop :=
  isRooted path = isRooted directory ∧
    ∃ names, (∀ name ∈ names, Ordinary name) ∧ pathSegments path = pathSegments directory ++ names

section Segments

variable {rooted : Bool} {kept segments more : List GoString} {segment : GoString}

/-- This is one step of cleaning. -/
theorem cleanSegments_cons :
    cleanSegments rooted kept (segment :: segments) =
      if segment = [] ∨ segment = bytes "." then cleanSegments rooted kept segments
      else if segment = up then
        match kept with
        | [] => cleanSegments rooted (if rooted then [] else [segment]) segments
        | last :: before =>
            if last = up then cleanSegments rooted (segment :: kept) segments else cleanSegments rooted before segments
      else cleanSegments rooted (segment :: kept) segments := by
  cases kept <;> rfl

theorem cleanSegments_skip (blank : segment = [] ∨ segment = bytes ".") :
    cleanSegments rooted kept (segment :: segments) = cleanSegments rooted kept segments := by
  rw [cleanSegments_cons, if_pos blank]

theorem cleanSegments_name (name : Ordinary segment) :
    cleanSegments rooted kept (segment :: segments) = cleanSegments rooted (segment :: kept) segments := by
  rw [cleanSegments_cons, if_neg (not_or.mpr ⟨name.nonempty, name.notDot⟩), if_neg name.notUp]

/-- A parent segment at the start is dropped below the root and kept elsewhere. -/
theorem cleanSegments_up_nil :
    cleanSegments rooted [] (up :: segments) = cleanSegments rooted (if rooted then [] else [up]) segments := by
  rw [cleanSegments_cons, if_neg (by decide), if_pos rfl]

theorem cleanSegments_up_up :
    cleanSegments rooted (up :: kept) (up :: segments) = cleanSegments rooted (up :: up :: kept) segments := by
  rw [cleanSegments_cons, if_neg (by decide), if_pos rfl]
  exact if_pos rfl

/-- A parent segment removes the name before it. -/
theorem cleanSegments_up_name (name : Ordinary segment) :
    cleanSegments rooted (segment :: kept) (up :: segments) = cleanSegments rooted kept segments := by
  rw [cleanSegments_cons, if_neg (by decide), if_pos rfl]
  exact if_neg name.notUp

/-- Cleaning a list goes on from what its first part leaves. -/
theorem cleanSegments_append (kept : List GoString) :
    cleanSegments rooted kept (segments ++ more) =
      cleanSegments rooted (cleanSegments rooted kept segments).reverse more := by
  induction segments generalizing kept with
  | nil => simp [cleanSegments]
  | cons segment rest ih =>
      rw [List.cons_append, cleanSegments_cons, cleanSegments_cons]
      split
      · exact ih kept
      · split
        · cases kept with
          | nil => exact ih _
          | cons last before =>
              dsimp only
              split
              · exact ih _
              · exact ih _
        · exact ih _

/-- Names stay as they are. -/
theorem cleanSegments_names (names : ∀ name ∈ segments, Ordinary name) :
    cleanSegments rooted kept segments = kept.reverse ++ segments := by
  induction segments generalizing kept with
  | nil => simp [cleanSegments]
  | cons name rest ih =>
      rw [cleanSegments_name (names name List.mem_cons_self), ih fun other member => names other (List.mem_cons_of_mem _ member)]
      simp

/-- Parent segments of a relative path stay as they are. -/
theorem cleanSegments_ups (before ups : Nat) :
    cleanSegments false (List.replicate before up) (List.replicate ups up) = List.replicate (before + ups) up := by
  induction ups generalizing before with
  | zero => simp [cleanSegments]
  | succ ups ih =>
      have next : cleanSegments false (List.replicate before up) (up :: List.replicate ups up) =
          cleanSegments false (List.replicate (before + 1) up) (List.replicate ups up) := by
        cases before with
        | zero => exact cleanSegments_up_nil
        | succ before => exact cleanSegments_up_up
      rw [List.replicate_succ, next, ih]
      congr 1
      omega

/-- Cleaning from clean segments leaves clean ones. The segments read so far are names after parent segments, in
reverse order. -/
theorem cleanSegments_normal (segments : List GoString) (names : List GoString) (ups : Nat)
    (named : ∀ name ∈ names, Ordinary name) (below : rooted = true → ups = 0)
    (clean : ∀ segment ∈ segments, slash ∉ segment) :
    Normal rooted (cleanSegments rooted (names ++ List.replicate ups up) segments) := by
  induction segments generalizing names ups with
  | nil =>
      refine ⟨ups, names.reverse, ?_, ?_, below⟩
      · simp [cleanSegments]
      · exact fun name member => named name (List.mem_reverse.mp member)
  | cons segment rest ih =>
      have later : ∀ other ∈ rest, slash ∉ other := fun other member => clean other (List.mem_cons_of_mem _ member)
      by_cases blank : segment = [] ∨ segment = bytes "."
      · rw [cleanSegments_skip blank]
        exact ih names ups named below later
      · by_cases parent : segment = up
        · subst parent
          cases names with
          | cons name names =>
              rw [List.cons_append, cleanSegments_up_name (named name List.mem_cons_self)]
              exact ih names ups (fun other member => named other (List.mem_cons_of_mem _ member)) below later
          | nil =>
              cases ups with
              | succ ups =>
                  have relative : rooted = false := by
                    cases rooted with
                    | false => rfl
                    | true => exact absurd (below rfl) (Nat.succ_ne_zero ups)
                  rw [List.nil_append, List.replicate_succ, cleanSegments_up_up]
                  exact ih [] (ups + 2) (by simp) (by simp [relative]) later
              | zero =>
                  rw [List.nil_append, List.replicate_zero, cleanSegments_up_nil]
                  cases rooted with
                  | true => exact ih [] 0 (by simp) (fun _ => rfl) later
                  | false => exact ih [] 1 (by simp) (by simp) later
        · have name : Ordinary segment :=
            ⟨fun empty => blank (Or.inl empty), fun dot => blank (Or.inr dot), parent, clean segment List.mem_cons_self⟩
          rw [cleanSegments_name name]
          refine ih (segment :: names) ups ?_ below later
          intro other member
          rcases List.mem_cons.mp member with rfl | old
          · exact name
          · exact named other old

/-- Cleaning relative segments first changes nothing. The segments cleaned so far are names after parent segments, in
reverse order. -/
theorem cleanSegments_cleaned (kept segments names : List GoString) (ups : Nat)
    (named : ∀ name ∈ names, Ordinary name) (clean : ∀ segment ∈ segments, slash ∉ segment) :
    cleanSegments rooted kept (cleanSegments false (names ++ List.replicate ups up) segments) =
      cleanSegments rooted (cleanSegments rooted kept (names ++ List.replicate ups up).reverse).reverse segments := by
  induction segments generalizing names ups with
  | nil => simp [cleanSegments]
  | cons segment rest ih =>
      have later : ∀ other ∈ rest, slash ∉ other := fun other member => clean other (List.mem_cons_of_mem _ member)
      -- A segment that is kept can be read before or after the ones kept so far.
      have pushed (stack : List GoString) :
          cleanSegments rooted (cleanSegments rooted kept (segment :: stack).reverse).reverse rest =
            cleanSegments rooted (cleanSegments rooted kept stack.reverse).reverse (segment :: rest) := by
        rw [List.reverse_cons, cleanSegments_append, ← cleanSegments_append, List.singleton_append]
      by_cases blank : segment = [] ∨ segment = bytes "."
      · rw [cleanSegments_skip blank, cleanSegments_skip blank]
        exact ih names ups named later
      · by_cases parent : segment = up
        · subst parent
          cases names with
          | cons name names =>
              have first := named name List.mem_cons_self
              rw [List.cons_append, cleanSegments_up_name first, List.reverse_cons, cleanSegments_append,
                cleanSegments_name first, cleanSegments, List.reverse_reverse, cleanSegments_up_name first]
              exact ih names ups (fun other member => named other (List.mem_cons_of_mem _ member)) later
          | nil =>
              have next : cleanSegments false ([] ++ List.replicate ups up) (up :: rest) =
                  cleanSegments false ([] ++ List.replicate (ups + 1) up) rest := by
                cases ups with
                | zero => exact cleanSegments_up_nil
                | succ ups => exact cleanSegments_up_up
              rw [next, ih [] (ups + 1) (by simp) later]
              exact pushed (List.replicate ups up)
        · have name : Ordinary segment :=
            ⟨fun empty => blank (Or.inl empty), fun dot => blank (Or.inr dot), parent, clean segment List.mem_cons_self⟩
          rw [cleanSegments_name name, ← List.cons_append, ih (segment :: names) ups ?_ later]
          · exact pushed (names ++ List.replicate ups up)
          · intro other member
            rcases List.mem_cons.mp member with rfl | old
            · exact name
            · exact named other old

/-- Clean segments stay as they are. -/
theorem Normal.cleanSegments_eq (normal : Normal rooted segments) : cleanSegments rooted [] segments = segments := by
  obtain ⟨ups, names, rfl, named, below⟩ := normal
  have first : cleanSegments rooted [] (List.replicate ups up) = List.replicate ups up := by
    cases rooted with
    | true => simp [below rfl, cleanSegments]
    | false => simpa using cleanSegments_ups 0 ups
  rw [cleanSegments_append, first, cleanSegments_names named, List.reverse_reverse]

theorem Normal.nonempty (normal : Normal rooted segments) (member : segment ∈ segments) : segment ≠ [] := by
  obtain ⟨ups, names, rfl, named, -⟩ := normal
  rcases List.mem_append.mp member with parent | name
  · rw [List.eq_of_mem_replicate parent]
    decide
  · exact (named segment name).nonempty

theorem Normal.clean (normal : Normal rooted segments) (member : segment ∈ segments) : slash ∉ segment := by
  obtain ⟨ups, names, rfl, named, -⟩ := normal
  rcases List.mem_append.mp member with parent | name
  · rw [List.eq_of_mem_replicate parent]
    decide
  · exact (named segment name).clean

theorem Normal.append_names (normal : Normal rooted segments) (names : ∀ name ∈ more, Ordinary name) :
    Normal rooted (segments ++ more) := by
  obtain ⟨ups, first, rfl, named, below⟩ := normal
  refine ⟨ups, first ++ more, List.append_assoc _ _ _, ?_, below⟩
  intro name member
  rcases List.mem_append.mp member with old | new
  · exact named name old
  · exact names name new

/-- The end of clean relative segments is clean. -/
theorem Normal.of_append (normal : Normal false (segments ++ more)) : Normal false more := by
  obtain ⟨ups, names, same, named, -⟩ := normal
  rcases List.append_eq_append_iff.mp same with ⟨middle, parents, rfl⟩ | ⟨middle, -, rfl⟩
  · have rest : middle = List.replicate middle.length up :=
      List.eq_replicate_of_mem fun segment member =>
        List.eq_of_mem_replicate (parents ▸ List.mem_append_right segments member)
    exact ⟨middle.length, names, by rw [← rest], named, by simp⟩
  · exact ⟨0, more, by simp, fun name member => named name (List.mem_append_right middle member), by simp⟩

theorem Normal.up_or_ordinary (normal : Normal rooted segments) (member : segment ∈ segments) :
    segment = up ∨ Ordinary segment := by
  obtain ⟨ups, names, rfl, named, -⟩ := normal
  rcases List.mem_append.mp member with parent | name
  · exact Or.inl (List.eq_of_mem_replicate parent)
  · exact Or.inr (named segment name)

end Segments

section Paths

variable {rooted : Bool} {segments : List GoString} {p : GoString}

/-- Cleaning keeps some of the segments. -/
theorem mem_cleanSegments {kept segments : List GoString} {segment : GoString}
    (member : segment ∈ cleanSegments rooted kept segments) : segment ∈ kept ∨ segment ∈ segments := by
  induction segments generalizing kept with
  | nil => exact .inl (List.mem_reverse.mp member)
  | cons first rest ih =>
      have later {before : List GoString} (found : segment ∈ cleanSegments rooted before rest)
          (known : segment ∈ before → segment ∈ kept ∨ segment = first) : segment ∈ kept ∨ segment ∈ first :: rest := by
        rcases ih found with old | new
        · rcases known old with older | rfl
          · exact .inl older
          · exact .inr List.mem_cons_self
        · exact .inr (List.mem_cons_of_mem _ new)
      rw [cleanSegments_cons] at member
      split at member
      · exact later member .inl
      · split at member
        · split at member
          · refine later member fun old => .inr ?_
            split at old
            · cases old
            · exact List.mem_singleton.mp old
          · split at member
            · exact later member fun old => (List.mem_cons.mp old).symm
            · exact later member fun old => .inl (List.mem_cons_of_mem _ old)
        · exact later member fun old => (List.mem_cons.mp old).symm

theorem mem_pathSegments {p segment : GoString} (member : segment ∈ pathSegments p) : segment ∈ split slash p :=
  (mem_cleanSegments member).resolve_left (List.not_mem_nil)

theorem pathSegments_normal (p : GoString) : Normal (isRooted p) (pathSegments p) :=
  cleanSegments_normal (split slash p) [] 0 (by simp) (fun _ => rfl) (split_clean slash p)

/-- A text that is joined from clean segments is empty only without segments. -/
theorem Normal.intercalate_eq_nil (normal : Normal rooted segments) :
    [slash].intercalate segments = [] ↔ segments = [] := by
  constructor
  · intro empty
    cases segments with
    | nil => rfl
    | cons first rest =>
        have nonempty := normal.nonempty List.mem_cons_self
        cases first with
        | nil => exact absurd rfl nonempty
        | cons b first =>
            rw [List.intercalate_cons_cons_left] at empty
            cases empty
  · rintro rfl
    rfl

/-- A clean path is the one with the cleaned segments. -/
theorem pathClean_eq_render (p : GoString) : pathClean p = render (isRooted p) (pathSegments p) := by
  have shape : pathClean p = if isRooted p then slash :: [slash].intercalate (pathSegments p)
      else if [slash].intercalate (pathSegments p) = [] then bytes "." else [slash].intercalate (pathSegments p) := rfl
  rw [shape, render]
  simp only [(pathSegments_normal p).intercalate_eq_nil]

/-- This is the length of segments that are joined, each with its slash. -/
def joinedLength (segments : List GoString) : Nat := (segments.map fun segment => segment.length + 1).sum

theorem joinedLength_eq (some : segments ≠ []) : joinedLength segments = ([slash].intercalate segments).length + 1 := by
  induction segments with
  | nil => exact absurd rfl some
  | cons first rest ih =>
      cases rest with
      | nil => simp [joinedLength]
      | cons second rest =>
          have later := ih (List.cons_ne_nil _ _)
          simp only [joinedLength, List.map_cons, List.sum_cons] at later ⊢
          rw [List.intercalate_cons_cons, List.length_append, List.length_append, List.length_singleton]
          omega

/-- Cleaning drops segments and adds none. -/
theorem cleanSegments_joinedLength (rooted : Bool) (kept segments : List GoString) :
    joinedLength (cleanSegments rooted kept segments) ≤ joinedLength kept + joinedLength segments := by
  induction segments generalizing kept with
  | nil =>
      rw [cleanSegments, joinedLength, joinedLength, List.map_reverse, List.sum_reverse]
      omega
  | cons segment rest ih =>
      have whole : joinedLength (segment :: rest) = segment.length + 1 + joinedLength rest := rfl
      have pushed : joinedLength (segment :: kept) = segment.length + 1 + joinedLength kept := rfl
      rw [cleanSegments_cons, whole]
      split
      · have := ih kept
        omega
      · split
        · cases kept with
          | nil =>
              dsimp only
              split
              · have := ih []
                omega
              · have := ih [segment]
                omega
          | cons last before =>
              have popped : joinedLength (last :: before) = last.length + 1 + joinedLength before := rfl
              dsimp only
              split
              · have := ih (segment :: last :: before)
                omega
              · have := ih before
                omega
        · have := ih (segment :: kept)
          omega

/-- A path does not get longer when it is cleaned, unless it is empty. -/
theorem pathClean_length {p : GoString} (some : p ≠ []) : (pathClean p).length ≤ p.length := by
  have positive : 0 < p.length := List.length_pos_iff.mpr some
  have text : joinedLength (split slash p) = p.length + 1 := by
    rw [joinedLength_eq (split_ne_nil slash p), split_join]
  have empty : joinedLength [] = 0 := rfl
  unfold pathClean
  dsimp only
  split
  · rename_i rooted
    obtain ⟨rest, rfl⟩ : ∃ rest, p = slash :: rest := by
      cases p with
      | nil => exact absurd rfl some
      | cons b rest => exact ⟨rest, by simpa using rooted⟩
    have cut : split slash (slash :: rest) = [] :: split slash rest := split_append_cons _ List.not_mem_nil
    have skip : cleanSegments true [] ([] :: split slash rest) = cleanSegments true [] (split slash rest) := by
      simp [cleanSegments]
    have bound := cleanSegments_joinedLength true [] (split slash rest)
    have inner : joinedLength (split slash rest) = rest.length + 1 := by
      rw [joinedLength_eq (split_ne_nil slash rest), split_join]
    rw [rooted, cut, skip]
    by_cases none : cleanSegments true [] (split slash rest) = []
    · rw [none]
      simp
    · rw [joinedLength_eq none] at bound
      simp only [List.length_cons]
      omega
  · split
    · exact positive
    · rename_i present
      have bound := cleanSegments_joinedLength (p.head? == Option.some slash) [] (split slash p)
      have nonempty : cleanSegments (p.head? == Option.some slash) [] (split slash p) ≠ [] := by
        intro none
        rw [none] at present
        exact present rfl
      rw [joinedLength_eq nonempty] at bound
      omega

theorem render_ne_nil (normal : Normal rooted segments) : render rooted segments ≠ [] := by
  unfold render
  split
  · exact List.cons_ne_nil _ _
  · split
    · decide
    · rename_i some
      exact mt normal.intercalate_eq_nil.mp some

/-- A clean path starts at the root if and only if it was made so. -/
theorem isRooted_render (normal : Normal rooted segments) : isRooted (render rooted segments) = rooted := by
  unfold render
  cases rooted with
  | true => rfl
  | false =>
      cases segments with
      | nil => rfl
      | cons first rest =>
          have nonempty := normal.nonempty List.mem_cons_self
          have clean := normal.clean (List.mem_cons_self (a := first) (l := rest))
          cases first with
          | nil => exact absurd rfl nonempty
          | cons b first =>
              have other : b ≠ slash := fun same => clean (same ▸ List.mem_cons_self)
              simp [isRooted, List.intercalate_cons_cons_left, other]

/-- Cleaning goes through the segments of a clean path. -/
theorem cleanSegments_split_render {within : Bool} {kept : List GoString} (normal : Normal rooted segments) :
    cleanSegments within kept (split slash (render rooted segments)) = cleanSegments within kept segments := by
  have parts (some : segments ≠ []) : split slash ([slash].intercalate segments) = segments :=
    List.splitOn_intercalate slash (fun segment member => normal.clean member) some
  unfold render
  split
  · have cut : split slash (slash :: [slash].intercalate segments) = [] :: split slash ([slash].intercalate segments) :=
      split_append_cons _ (List.not_mem_nil)
    rw [cut, cleanSegments_skip (Or.inl rfl)]
    by_cases some : segments = []
    · subst some
      rw [show split slash ([slash].intercalate []) = [[]] from rfl, cleanSegments_skip (Or.inl rfl)]
    · rw [parts some]
  · split
    · rename_i none
      subst none
      rw [show split slash (bytes ".") = [bytes "."] from rfl, cleanSegments_skip (Or.inr rfl)]
    · rename_i some
      rw [parts some]

/-- A path is rendered from its segments and read back. -/
theorem pathSegments_render (normal : Normal rooted segments) : pathSegments (render rooted segments) = segments := by
  unfold pathSegments
  rw [isRooted_render normal, cleanSegments_split_render normal, normal.cleanSegments_eq]

/-- Clean paths are the same only if they have the same segments. -/
theorem render_injective {other : Bool} {more : List GoString} (normal : Normal rooted segments)
    (normal' : Normal other more) (same : render rooted segments = render other more) :
    rooted = other ∧ segments = more := by
  refine ⟨?_, ?_⟩
  · rw [← isRooted_render normal, same, isRooted_render normal']
  · rw [← pathSegments_render normal, same, pathSegments_render normal']

/-- Clean segments are names unless they start with the parent segment. -/
theorem Normal.names_or_up (normal : Normal false segments) :
    (∀ name ∈ segments, Ordinary name) ∨ ∃ rest, segments = up :: rest ∧ Normal false rest := by
  obtain ⟨ups, names, rfl, named, -⟩ := normal
  cases ups with
  | zero => exact Or.inl (by simpa using named)
  | succ ups => exact Or.inr ⟨List.replicate ups up ++ names, by simp [List.replicate_succ], ups, names, rfl, named, by simp⟩

theorem render_eq_dot (normal : Normal false segments) : render false segments = bytes "." ↔ segments = [] := by
  constructor
  · intro same
    have empty : Normal false [] := ⟨0, [], by simp, by simp, fun _ => rfl⟩
    exact (render_injective normal empty same).2
  · rintro rfl
    rfl

/-- A clean relative path starts with a step up if its first segment is the parent and another one follows. -/
theorem hasPrefix_render (normal : Normal false segments) :
    hasPrefix (render false segments) (bytes "../") = true ↔ ∃ rest, rest ≠ [] ∧ segments = up :: rest := by
  rw [hasPrefix_iff]
  cases segments with
  | nil => exact iff_of_false (by decide) (by simp)
  | cons first rest =>
      have clean := normal.clean (List.mem_cons_self (a := first) (l := rest))
      have shape : render false (first :: rest) = [slash].intercalate (first :: rest) := rfl
      rw [shape]
      cases rest with
      | nil =>
          rw [List.intercalate_singleton]
          refine iff_of_false ?_ (by simp)
          rintro ⟨tail, same⟩
          exact clean (same ▸ List.mem_append_left tail (by decide))
      | cons second rest =>
          rw [List.intercalate_cons_cons, List.append_assoc, List.singleton_append]
          constructor
          · rintro ⟨tail, same⟩
            have cut := congrArg (split slash) same
            rw [show bytes "../" ++ tail = up ++ slash :: tail from rfl, split_append_cons _ (by decide),
              split_append_cons _ clean] at cut
            exact ⟨second :: rest, List.cons_ne_nil _ _, by rw [(List.cons.inj cut).1]⟩
          · rintro ⟨others, -, same⟩
            rw [(List.cons.inj same).1]
            exact ⟨_, rfl⟩

/-- These are the segments of a path below another one. -/
def joinSegments (rooted : Bool) (base segments : List GoString) : List GoString :=
  cleanSegments rooted base.reverse segments

theorem joinSegments_names {base : List GoString} (names : ∀ name ∈ segments, Ordinary name) :
    joinSegments rooted base segments = base ++ segments := by
  rw [joinSegments, cleanSegments_names names, List.reverse_reverse]

theorem joinSegments_append {base more : List GoString} :
    joinSegments rooted base (segments ++ more) = joinSegments rooted (joinSegments rooted base segments) more :=
  cleanSegments_append _

/-- A step up removes a name at the end. -/
theorem joinSegments_up_name {before : List GoString} {name : GoString} (ordinary : Ordinary name) :
    joinSegments rooted (before ++ [name]) [up] = before := by
  rw [joinSegments, List.reverse_append, List.reverse_singleton, List.singleton_append, cleanSegments_up_name ordinary,
    cleanSegments, List.reverse_reverse]

/-- A step up stays after another one. -/
theorem joinSegments_up_up {before : List GoString} :
    joinSegments rooted (before ++ [up]) [up] = before ++ [up, up] := by
  rw [joinSegments, List.reverse_append, List.reverse_singleton, List.singleton_append, cleanSegments_up_up, cleanSegments]
  simp

theorem joinSegments_normal {base : List GoString} {within : Bool} (normal : Normal rooted base)
    (clean : Normal within segments) : Normal rooted (joinSegments rooted base segments) := by
  obtain ⟨ups, names, rfl, named, below⟩ := normal
  rw [joinSegments, List.reverse_append, List.reverse_replicate]
  exact cleanSegments_normal segments names.reverse ups (fun name member => named name (List.mem_reverse.mp member)) below
    fun segment member => clean.clean member

/-- A joined path continues the segments of its base. -/
theorem pathJoin_pair {base p : GoString} (some : base ≠ []) (more : p ≠ []) :
    pathJoin [base, p] =
      render (isRooted base) (cleanSegments (isRooted base) (pathSegments base).reverse (split slash p)) := by
  have filtered : [base, p].filter (fun part => part != []) = [base, p] := by
    simp [some, more]
  have rootedSame : isRooted (base ++ slash :: p) = isRooted base := by
    cases base with
    | nil => exact absurd rfl some
    | cons b base => rfl
  unfold pathJoin
  dsimp only
  rw [filtered, if_neg (List.cons_ne_nil _ _), List.intercalate_cons_cons, List.intercalate_singleton,
    List.append_assoc, List.singleton_append, pathClean_eq_render, rootedSame]
  unfold pathSegments
  rw [rootedSame, split, List.splitOn_append_cons_self, cleanSegments_append]
  rfl

theorem pathJoin_render {base : GoString} (some : base ≠ []) (normal : Normal rooted segments) :
    pathJoin [base, render rooted segments] =
      render (isRooted base) (joinSegments (isRooted base) (pathSegments base) segments) := by
  rw [pathJoin_pair some (render_ne_nil normal), cleanSegments_split_render normal, joinSegments]

/-- A relative path can be cleaned before it is joined. -/
theorem pathJoin_relative {base p : GoString} (some : base ≠ []) (more : p ≠ []) (relative : isRooted p = false) :
    pathJoin [base, p] =
      render (isRooted base) (joinSegments (isRooted base) (pathSegments base) (pathSegments p)) := by
  have own : pathSegments p = cleanSegments false [] (split slash p) := by
    rw [pathSegments, relative]
  have cleaned : cleanSegments (isRooted base) (pathSegments base).reverse (cleanSegments false [] (split slash p)) =
      cleanSegments (isRooted base) (pathSegments base).reverse (split slash p) := by
    simpa [cleanSegments] using cleanSegments_cleaned (pathSegments base).reverse (split slash p) [] 0 (by simp)
      (split_clean slash p)
  rw [pathJoin_pair some more, joinSegments, own, cleaned]

/-- A name behind a path is its last segment. -/
theorem pathSegments_append_name {base name : GoString} (some : base ≠ []) (ordinary : Ordinary name) :
    isRooted (base ++ slash :: name) = isRooted base ∧
      pathSegments (base ++ slash :: name) = pathSegments base ++ [name] := by
  have rooted : isRooted (base ++ slash :: name) = isRooted base := by
    cases base with
    | nil => exact absurd rfl some
    | cons b base => rfl
  refine ⟨rooted, ?_⟩
  have single : ∀ other ∈ [name], Ordinary other := by simpa using ordinary
  unfold pathSegments
  rw [rooted, split, List.splitOn_append_cons_self, cleanSegments_append, ← split, ← split, split_eq_singleton ordinary.clean,
    cleanSegments_names single, List.reverse_reverse]

/-- Joined texts go on with the last one. -/
theorem intercalate_name (first : GoString) (rest : List GoString) (name : GoString) :
    [slash].intercalate (first :: rest ++ [name]) = [slash].intercalate (first :: rest) ++ slash :: name := by
  induction rest generalizing first with
  | nil => simp [List.intercalate_cons_cons]
  | cons second rest ih =>
      rw [List.cons_append, List.cons_append, List.intercalate_cons_cons, ← List.cons_append, ih,
        List.intercalate_cons_cons]
      simp

/-- A name that is joined last to a relative path is its last segment. -/
theorem pathJoin_name {first name : GoString} (parts : List GoString) (some : first ≠ []) (relative : isRooted first = false)
    (ordinary : Ordinary name) : ∃ segments, Normal false segments ∧ pathJoin (first :: parts) = render false segments ∧
      pathJoin (first :: parts ++ [name]) = render false (segments ++ [name]) := by
  have present (rest : List GoString) :
      (first :: rest).filter (fun part => part != []) = first :: rest.filter fun part => part != [] := by
    simp [some]
  have last : [name].filter (fun part => part != []) = [name] := by simp [ordinary.nonempty]
  generalize kept : parts.filter (fun part => part != []) = rest at present
  have start : isRooted ([slash].intercalate (first :: rest)) = false ∧ [slash].intercalate (first :: rest) ≠ [] := by
    cases first with
    | nil => exact absurd rfl some
    | cons b first => cases rest <;> simp [List.intercalate_cons_cons, isRooted] <;> simpa [isRooted] using relative
  have longer := pathSegments_append_name start.2 ordinary
  have normal := pathSegments_normal ([slash].intercalate (first :: rest))
  rw [start.1] at longer normal
  refine ⟨_, normal, ?_, ?_⟩
  · unfold pathJoin
    dsimp only
    rw [present, kept, if_neg (List.cons_ne_nil _ _), pathClean_eq_render, start.1]
  · unfold pathJoin
    dsimp only
    rw [List.cons_append, present, List.filter_append, kept, last, if_neg (List.cons_ne_nil _ _), ← List.cons_append,
      intercalate_name, pathClean_eq_render, longer.1, longer.2]
/-- Names below any path continue its segments. -/
theorem pathJoin_below (root : GoString) {names : List GoString} (named : ∀ name ∈ names, Ordinary name) :
    pathJoin [root, render false names] = render (isRooted root) (pathSegments root ++ names) := by
  have empty : Normal false [] := ⟨0, [], by simp, by simp, fun _ => rfl⟩
  have normal : Normal false names := by simpa using empty.append_names named
  by_cases some : root = []
  · subst some
    have filtered : [[], render false names].filter (fun part => part != []) = [render false names] := by
      simp [render_ne_nil normal]
    unfold pathJoin
    dsimp only
    rw [filtered, if_neg (List.cons_ne_nil _ _), List.intercalate_singleton, pathClean_eq_render, isRooted_render normal,
      pathSegments_render normal]
    rfl
  · rw [pathJoin_render some normal, joinSegments_names named]

theorem pathJoin_names (root : GoString) :
    ∃ rooted base, Normal rooted base ∧ ∀ names, (∀ name ∈ names, Ordinary name) →
      pathJoin [root, render false names] = render rooted (base ++ names) :=
  ⟨isRooted root, pathSegments root, pathSegments_normal root, fun _ named => pathJoin_below root named⟩

theorem within_below (root : GoString) {names : List GoString} (named : ∀ name ∈ names, Ordinary name) :
    Within root (pathJoin [root, render false names]) := by
  have longer := (pathSegments_normal root).append_names named
  rw [pathJoin_below root named]
  exact ⟨isRooted_render longer, names, named, pathSegments_render longer⟩

theorem Within.trans {directory inner path : GoString} (first : Within directory inner) (second : Within inner path) :
    Within directory path := by
  obtain ⟨rooted, names, named, split⟩ := first
  obtain ⟨rooted', names', named', split'⟩ := second
  refine ⟨rooted'.trans rooted, names ++ names', ?_, by rw [split', split, List.append_assoc]⟩
  intro name member
  exact (List.mem_append.mp member).elim (named name) (named' name)

theorem Within.child {directory path name : GoString} (inside : Within directory path) (ordinary : Ordinary name) :
    Within directory (pathJoin [path, name]) := by
  have single : render false [name] = name := by simp [render]
  have below : Within path (pathJoin [path, render false [name]]) := within_below path (by simpa using ordinary)
  rw [single] at below
  exact inside.trans below

theorem strictlyInside_render {names : List GoString} (normal : Normal rooted segments) (some : names ≠ [])
    (named : ∀ name ∈ names, Ordinary name) :
    StrictlyInside (render rooted segments) (render rooted (segments ++ names)) := by
  have longer := normal.append_names named
  refine ⟨?_, names, some, named, ?_⟩
  · rw [isRooted_render longer, isRooted_render normal]
  · rw [pathSegments_render longer, pathSegments_render normal]

theorem dropCommon_append {A : Type} [DecidableEq A] (base target : List A) :
    ∃ common, base = common ++ (dropCommon base target).1 ∧ target = common ++ (dropCommon base target).2 := by
  induction base generalizing target with
  | nil => exact ⟨[], by simp [dropCommon]⟩
  | cons a base ih =>
      cases target with
      | nil => exact ⟨[], by simp [dropCommon]⟩
      | cons b target =>
          by_cases same : a = b
          · obtain ⟨common, first, second⟩ := ih target
            subst same
            refine ⟨a :: common, ?_⟩
            simp [dropCommon, ← first, ← second]
          · exact ⟨[], by simp [dropCommon, same]⟩

/-- The segments of a clean path are read back with the empty one before a root. -/
theorem segments_render (normal : Normal rooted segments) (some : rooted = true ∨ segments ≠ []) :
    Go.segments (render rooted segments) = if rooted then [] :: segments else segments := by
  have parts (some : segments ≠ []) : split slash ([slash].intercalate segments) = segments :=
    List.splitOn_intercalate slash (fun segment member => normal.clean member) some
  cases rooted with
  | true =>
      by_cases empty : segments = []
      · subst empty
        rfl
      · have notRoot : slash :: [slash].intercalate segments ≠ [slash] := by
          intro same
          exact empty (normal.intercalate_eq_nil.mp (List.cons.inj same).2)
        have cut : split slash (slash :: [slash].intercalate segments) =
            [] :: split slash ([slash].intercalate segments) := split_append_cons _ List.not_mem_nil
        simp only [Go.segments, render, if_true, List.cons_ne_nil, if_false, notRoot, cut, parts empty]
  | false =>
      have present : segments ≠ [] := some.resolve_left (by simp)
      have notEmpty : [slash].intercalate segments ≠ [] := mt normal.intercalate_eq_nil.mp present
      have notRoot : [slash].intercalate segments ≠ [slash] := by
        intro same
        have rooted := isRooted_render normal
        simp [render, present, same, isRooted] at rooted
      simp only [Go.segments, render, Bool.false_eq_true, if_false, present, notEmpty, notRoot, parts present]

/-- The base of a relation starts with its root or its first segment; the current directory has no segments. -/
theorem segments_start (normal : Normal rooted segments) :
    let start := if render rooted segments = bytes "." then [] else render rooted segments
    isRooted start = rooted ∧ Go.segments start = if rooted then [] :: segments else segments := by
  dsimp only
  cases rooted with
  | true =>
      have notDot : render true segments ≠ bytes "." := by
        intro same
        exact absurd (isRooted_render normal) (by rw [same]; decide)
      rw [if_neg notDot]
      exact ⟨isRooted_render normal, segments_render normal (Or.inl rfl)⟩
  | false =>
      by_cases empty : segments = []
      · subst empty
        exact ⟨rfl, rfl⟩
      · rw [if_neg (mt (render_eq_dot normal).mp empty)]
        exact ⟨isRooted_render normal, segments_render normal (Or.inr empty)⟩

/-- A relation that goes up first starts with a step up. -/
theorem goesUp (first : GoString) (rest down : List GoString) :
    let rel := [slash].intercalate ((first :: rest).map (fun _ => up) ++ down)
    rel = up ∨ hasPrefix rel (bytes "../") = true := by
  dsimp only
  rw [List.map_cons, List.cons_append]
  cases rest.map (fun _ => up) ++ down with
  | nil => exact Or.inl List.intercalate_singleton
  | cons second more =>
      right
      rw [List.intercalate_cons_cons, hasPrefix_iff]
      exact ⟨[slash].intercalate (second :: more), by rw [show bytes "../" = up ++ [slash] from rfl]⟩

theorem Normal.names (normal : Normal true segments) : ∀ name ∈ segments, Ordinary name := by
  obtain ⟨ups, names, rfl, named, below⟩ := normal
  simpa [below rfl] using named

/-- A clean path that continues the segments of another one without a step up continues them by names. -/
theorem continued {base down : List GoString} {rel : GoString} (baseNormal : Normal rooted base)
    (normal : Normal rooted segments) (different : render rooted base ≠ render rooted segments)
    (split : Go.segments (render rooted segments) = (if rooted then [] :: base else base) ++ down)
    (related : [slash].intercalate down = rel) (notAbove : hasPrefix rel (bytes "../") = false) (notUp : rel ≠ up) :
    down ≠ [] ∧ (∀ name ∈ down, Ordinary name) ∧ segments = base ++ down := by
  have present : rooted = true ∨ segments ≠ [] := by
    by_contra none
    obtain ⟨relative, rfl⟩ : rooted = false ∧ segments = [] := by simpa using none
    subst relative
    have whole : [bytes "."] = base ++ down := split
    cases base with
    | nil => exact different rfl
    | cons name rest =>
        have dot : name = bytes "." := (List.cons.inj whole).1.symm
        rcases baseNormal.up_or_ordinary List.mem_cons_self with parent | ordinary
        · exact absurd (dot.symm.trans parent) (by decide)
        · exact ordinary.notDot dot
  have whole : segments = base ++ down := by
    rw [segments_render normal present] at split
    cases rooted with
    | true => exact (List.cons.inj split).2
    | false => exact split
  have some : down ≠ [] := by
    rintro rfl
    exact different (by rw [whole, List.append_nil])
  refine ⟨some, ?_, whole⟩
  cases rooted with
  | true => exact fun name member => normal.names name (whole ▸ List.mem_append_right base member)
  | false =>
      have rest : Normal false down := (whole ▸ normal).of_append
      rcases rest.names_or_up with named | ⟨more, rfl, -⟩
      · exact named
      · have rendered : render false (up :: more) = rel := related
        by_cases single : more = []
        · subst single
          exact absurd (related.symm.trans List.intercalate_singleton) notUp
        · have above := (hasPrefix_render rest).mpr ⟨more, single, rfl⟩
          rw [rendered] at above
          simp [above] at notAbove

/-- A path other than a directory that is related to it by names only lies strictly inside it. -/
theorem pathRel_strictly {base target rel : GoString} (related : pathRel base target = .some rel)
    (other : pathClean base ≠ pathClean target) (notAbove : hasPrefix rel (bytes "../") = false) (notUp : rel ≠ up) :
    StrictlyInside base target := by
  have baseNormal := pathSegments_normal base
  have targetNormal := pathSegments_normal target
  obtain ⟨startRooted, startSegments⟩ := segments_start baseNormal
  unfold pathRel at related
  simp only [pathClean_eq_render] at related other
  generalize (if render (isRooted base) (pathSegments base) = bytes "." then [] else
    render (isRooted base) (pathSegments base)) = start at related startRooted startSegments
  split at related
  · rename_i same
    exact absurd same other
  · rename_i different
    split at related
    · cases related
    · rename_i rooted
      have equal : isRooted start = isRooted (render (isRooted target) (pathSegments target)) :=
        not_not.mp (mt bne_iff_ne.mpr rooted)
      have same : isRooted target = isRooted base := by
        rw [← isRooted_render targetNormal, ← equal, startRooted]
      rw [same] at related targetNormal different
      obtain ⟨common, first, second⟩ := dropCommon_append (Go.segments start)
        (Go.segments (render (isRooted base) (pathSegments target)))
      split at related
      · rename_i down dropped
        rw [dropped] at first second
        rw [List.append_nil] at first
        rw [← first, startSegments] at second
        refine ⟨same, down, ?_⟩
        exact continued baseNormal targetNormal different second (Option.some.inj related) notAbove notUp
      · rename_i parent rest down dropped
        split at related
        · cases related
        · have above := goesUp parent rest down
          rw [show [slash].intercalate ((parent :: rest).map (fun _ => up) ++ down) = rel from Option.some.inj related]
            at above
          rcases above with above | above
          · exact absurd above notUp
          · simp [above] at notAbove

theorem pathRel_self {base target : GoString} (same : pathClean base = pathClean target) :
    pathRel base target = some (bytes ".") := by
  simp [pathRel, same]

/-- A path that is related to a directory by names only lies strictly inside it. -/
theorem pathRel_inside {base target rel : GoString} (related : pathRel base target = .some rel) (other : rel ≠ bytes ".")
    (notAbove : hasPrefix rel (bytes "../") = false) (notUp : rel ≠ up) : StrictlyInside base target := by
  apply pathRel_strictly related _ notAbove notUp
  intro same
  rw [pathRel_self same] at related
  exact other (Option.some.inj related).symm

end Paths

end Go
