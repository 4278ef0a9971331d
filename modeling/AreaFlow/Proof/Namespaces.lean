import AreaFlow.Construction.Project.ArtifactStores

namespace AreaFlow.Artifact
open Go

/-- The path checks let names pass, and the parent segment alone. -/
def Passing (segments : List GoString) : Prop :=
  segments = [up] ∨ (segments ≠ [] ∧ ∀ name ∈ segments, Ordinary name)

/-- A key that is the name of one directory. -/
def Named (key name : GoString) : Prop := isRooted key = false ∧ pathSegments key = [name] ∧ name ≠ up

/-- No path is accepted for a refused key: every joined path starts at the root or above the store. -/
def Refused (key : GoString) : Prop :=
  isRooted key = true ∨ ∃ rest, pathSegments key = up :: rest ∧ ¬ ∃ name, Ordinary name ∧ rest = [name]

section Checks

variable {segments : List GoString}

theorem not_ordinary_up : ¬ Ordinary up := fun name => name.notUp rfl

theorem passing_names (named : ∀ name ∈ segments, Ordinary name) : Passing segments ↔ segments ≠ [] := by
  constructor
  · rintro (rfl | ⟨some, -⟩)
    · exact absurd (named up (by simp)) not_ordinary_up
    · exact some
  · exact fun some => Or.inr ⟨some, named⟩

theorem passing_up : Passing (up :: segments) ↔ segments = [] := by
  constructor
  · rintro (same | ⟨-, named⟩)
    · exact (List.cons.inj same).2
    · exact absurd (named up List.mem_cons_self) not_ordinary_up
  · rintro rfl
    exact Or.inl rfl

/-- The condition under which both path checks fail. -/
theorem check_iff (path : GoString) :
    (pathClean path = bytes "." ∨ (pathClean path).head? = some slash ∨ hasPrefix (pathClean path) (bytes "../") = true) ↔
      ¬ (isRooted path = false ∧ Passing (pathSegments path)) := by
  have normal := pathSegments_normal path
  rw [pathClean_eq_render]
  cases rooted : isRooted path with
  | true => exact iff_of_true (Or.inr (Or.inl rfl)) (by simp)
  | false =>
      rw [rooted] at normal
      have relative : (render false (pathSegments path)).head? ≠ some slash := by
        simpa [isRooted] using isRooted_render normal
      simp only [render_eq_dot normal, relative, hasPrefix_render normal, false_or, true_and]
      rcases normal.names_or_up with named | ⟨rest, same, -⟩
      · have down : ¬ ∃ rest, rest ≠ [] ∧ pathSegments path = up :: rest := by
          rintro ⟨rest, -, same⟩
          exact not_ordinary_up (named up (by simp [same]))
        rw [passing_names named, not_not, or_iff_left down]
      · rw [same, passing_up]
        simp

theorem safeRelativePath_ok {path clean : GoString} :
    safeRelativePath path = .ok clean ↔
      isRooted path = false ∧ Passing (pathSegments path) ∧ clean = pathClean path := by
  unfold safeRelativePath
  dsimp only
  split
  · rename_i failed
    have refused := (check_iff path).mp failed
    exact iff_of_false (by simp) fun ⟨relative, passing, _⟩ => refused ⟨relative, passing⟩
  · rename_i passed
    have accepted := not_not.mp (mt (check_iff path).mpr passed)
    simp [accepted, eq_comm]

theorem projectRelativePath_ok {key path below : GoString} :
    projectRelativePath key path = .ok below ↔
      isRooted path = false ∧ Passing (pathSegments path) ∧ below = pathJoin [key, pathClean path] := by
  unfold projectRelativePath
  dsimp only
  split
  · rename_i failed
    have refused := (check_iff path).mp failed
    exact iff_of_false (by simp) fun ⟨relative, passing, _⟩ => refused ⟨relative, passing⟩
  · rename_i passed
    have accepted := not_not.mp (mt (check_iff path).mpr passed)
    simp [accepted, eq_comm]

end Checks

section Targets

variable {home : Option GoString} {root key path target : GoString}

/-- These are the segments of a path below a key. -/
abbrev belowKey (key path : GoString) : List GoString := joinSegments false (pathSegments key) (pathSegments path)

theorem localTarget_ok :
    localTarget home root path = .ok target ↔
      localRoot home root ≠ [] ∧ isRooted path = false ∧ Passing (pathSegments path) ∧
        target = pathJoin [localRoot home root, pathClean path] := by
  unfold localTarget
  split
  · rename_i missing
    exact iff_of_false (by simp) fun present => present.1 missing
  · rename_i present
    rw [map_ok_iff]
    simp only [safeRelativePath_ok]
    constructor
    · rintro ⟨clean, ⟨relative, passing, rfl⟩, rfl⟩
      exact ⟨present, relative, passing, rfl⟩
    · rintro ⟨-, relative, passing, rfl⟩
      exact ⟨_, ⟨relative, passing, rfl⟩, rfl⟩

theorem artifactFile_steps :
    artifactFile home root key path = .ok target ↔
      ∃ below, projectRelativePath key path = .ok below ∧
        ∃ clean, safeRelativePath below = .ok clean ∧ localTarget home root clean = .ok target := by
  unfold artifactFile
  cases projectRelativePath key path with
  | error failure => simp [bind, Except.bind]
  | ok below =>
      cases second : safeRelativePath below with
      | error failure => simp [second, bind, Except.bind]
      | ok clean => simp [second, bind, Except.bind]

/-- A project writes to a file if both checks pass, and its segments continue those of the store. -/
theorem artifactFile_ok (keyed : key ≠ []) :
    artifactFile home root key path = .ok target ↔
      localRoot home root ≠ [] ∧ isRooted key = false ∧ isRooted path = false ∧ Passing (pathSegments path) ∧
        Passing (belowKey key path) ∧
        target = render (isRooted (localRoot home root))
          (joinSegments (isRooted (localRoot home root)) (pathSegments (localRoot home root)) (belowKey key path)) := by
  have joined : pathJoin [key, pathClean path] =
      render (isRooted key) (joinSegments (isRooted key) (pathSegments key) (pathSegments path)) := by
    rw [pathClean_eq_render, pathJoin_render keyed (pathSegments_normal path)]
  have normal := joinSegments_normal (pathSegments_normal key) (pathSegments_normal path)
  rw [artifactFile_steps]
  simp only [projectRelativePath_ok, safeRelativePath_ok, localTarget_ok]
  cases rooted : isRooted key with
  | true =>
      rw [rooted] at joined normal
      refine iff_of_false ?_ (by simp)
      rintro ⟨below, ⟨-, -, rfl⟩, clean, ⟨relative, -⟩, -⟩
      rw [joined, isRooted_render normal] at relative
      cases relative
  | false =>
      rw [rooted] at joined normal
      have again : pathClean (render false (belowKey key path)) = render false (belowKey key path) := by
        rw [pathClean_eq_render, isRooted_render normal, pathSegments_render normal]
      constructor
      · rintro ⟨below, ⟨relative, passing, rfl⟩, clean, ⟨-, keyPassing, rfl⟩, present, -, -, rfl⟩
        rw [joined, pathSegments_render normal] at keyPassing
        refine ⟨present, rfl, relative, passing, keyPassing, ?_⟩
        rw [joined, again, again, pathJoin_render present normal]
      · rintro ⟨present, -, relative, passing, keyPassing, rfl⟩
        have checked : isRooted (render false (belowKey key path)) = false ∧
            Passing (pathSegments (render false (belowKey key path))) := by
          rw [isRooted_render normal, pathSegments_render normal]
          exact ⟨rfl, keyPassing⟩
        refine ⟨_, ⟨relative, passing, rfl⟩, render false (belowKey key path), ?_, present, checked.1, checked.2, ?_⟩
        · rw [joined]
          exact ⟨checked.1, checked.2, again.symm⟩
        · rw [again, pathJoin_render present normal]

/-- A step up from a relative path never adds a name. -/
theorem joinSegments_up_ne {rooted : Bool} {base names : List GoString} (normal : Normal rooted base)
    (some : names ≠ []) (named : ∀ name ∈ names, Ordinary name) : joinSegments rooted base [up] ≠ base ++ names := by
  intro same
  rcases List.eq_nil_or_concat' base with rfl | ⟨before, last, rfl⟩
  · cases rooted with
    | true => exact some same.symm
    | false => exact not_ordinary_up (named up (by simp [show names = [up] from same.symm]))
  · rcases normal.up_or_ordinary (show last ∈ _ by simp) with rfl | ordinary
    · rw [joinSegments_up_up, List.append_assoc] at same
      have last : [up] = names := (List.cons.inj (List.append_cancel_left same)).2
      exact not_ordinary_up (named up (by simp [← last]))
    · rw [joinSegments_up_name ordinary] at same
      have lengths := congrArg List.length same
      simp at lengths

/-- A key is refused or names a directory, or it leads a step up out of its own directory. -/
theorem key_cases (relative : isRooted key = false) :
    Refused key ∨ (∃ name, Named key name) ∨ pathSegments key = [] ∨
      ∃ before name, Ordinary name ∧ Passing before ∧ pathSegments key = before ++ [name] := by
  have normal := pathSegments_normal key
  rw [relative] at normal
  rcases normal.names_or_up with named | ⟨rest, same, -⟩
  · rcases List.eq_nil_or_concat' (pathSegments key) with none | ⟨before, name, same⟩
    · exact Or.inr (Or.inr (Or.inl none))
    · have ordinary := named name (by simp [same])
      by_cases single : before = []
      · exact Or.inr (Or.inl ⟨name, relative, by simp [same, single], ordinary.notUp⟩)
      · refine Or.inr (Or.inr (Or.inr ⟨before, name, ordinary, Or.inr ⟨single, ?_⟩, same⟩))
        exact fun other member => named other (by simp [same, member])
  · by_cases single : ∃ name, Ordinary name ∧ rest = [name]
    · obtain ⟨name, ordinary, rfl⟩ := single
      exact Or.inr (Or.inr (Or.inr ⟨[up], name, ordinary, Or.inl rfl, same⟩))
    · exact Or.inl (Or.inr ⟨rest, same, single⟩)

/-- No file is written for a refused key. -/
theorem Refused.artifactFile_ne (keyed : key ≠ []) (refused : Refused key) :
    artifactFile home root key path ≠ .ok target := by
  intro written
  obtain ⟨-, relative, pathRelative, passing, below, -⟩ := (artifactFile_ok keyed).mp written
  rcases refused with rooted | ⟨rest, same, other⟩
  · simp [relative] at rooted
  · have normal := pathSegments_normal key
    rw [relative, same] at normal
    unfold belowKey at below
    rw [same] at below
    rcases passing with parent | ⟨some, named⟩
    · rw [parent] at below
      rcases List.eq_nil_or_concat' rest with rfl | ⟨before, last, rfl⟩
      · exact absurd (passing_up.mp below) (by decide)
      · rw [← List.cons_append] at below
        rcases normal.up_or_ordinary (show last ∈ _ by simp) with rfl | ordinary
        · rw [joinSegments_up_up, List.cons_append] at below
          simpa using passing_up.mp below
        · rw [joinSegments_up_name ordinary] at below
          exact other ⟨last, ordinary, by simp [passing_up.mp below]⟩
    · rw [joinSegments_names named, List.cons_append] at below
      exact some (List.append_eq_nil_iff.mp (passing_up.mp below)).2

theorem Named.ordinary {name : GoString} (is : Named key name) : Ordinary name := by
  have normal := pathSegments_normal key
  rw [is.2.1] at normal
  exact (normal.up_or_ordinary List.mem_cons_self).resolve_left is.2.2

/-- A key that names a directory writes below that directory. -/
theorem Named.artifactFile_below {name : GoString} (keyed : key ≠ []) (is : Named key name)
    (written : artifactFile home root key path = .ok target) :
    ∃ names, names ≠ [] ∧ (∀ other ∈ names, Ordinary other) ∧
      target = render (isRooted (localRoot home root)) (pathSegments (localRoot home root) ++ name :: names) := by
  obtain ⟨-, -, -, passing, below, rfl⟩ := (artifactFile_ok keyed).mp written
  unfold belowKey at below ⊢
  rw [is.2.1] at below ⊢
  rcases passing with parent | ⟨some, named⟩
  · rw [parent, ← List.nil_append [name], joinSegments_up_name is.ordinary, passing_names (by simp)] at below
    exact absurd rfl below
  · refine ⟨pathSegments path, some, named, ?_⟩
    have all : ∀ other ∈ [name] ++ pathSegments path, Ordinary other := by
      simpa using ⟨is.ordinary, named⟩
    rw [joinSegments_names named, joinSegments_names all]
    rfl

/-- This is the directory of a project in its store. -/
abbrev projectDirectory (home : Option GoString) (root key : GoString) : GoString := pathJoin [localRoot home root, key]

theorem projectDirectory_segments (present : localRoot home root ≠ []) (keyed : key ≠ [])
    (relative : isRooted key = false) :
    isRooted (projectDirectory home root key) = isRooted (localRoot home root) ∧
      pathSegments (projectDirectory home root key) =
        joinSegments (isRooted (localRoot home root)) (pathSegments (localRoot home root)) (pathSegments key) := by
  have normal := joinSegments_normal (pathSegments_normal (localRoot home root)) (pathSegments_normal key)
  rw [projectDirectory, pathJoin_relative present keyed relative]
  exact ⟨isRooted_render normal, pathSegments_render normal⟩

theorem Named.strictlyInside {name : GoString} (keyed : key ≠ []) (is : Named key name)
    (written : artifactFile home root key path = .ok target) : StrictlyInside (projectDirectory home root key) target := by
  have present := ((artifactFile_ok keyed).mp written).1
  obtain ⟨names, some, named, rfl⟩ := is.artifactFile_below keyed written
  obtain ⟨rooted, segments⟩ := projectDirectory_segments present keyed is.1
  have single : ∀ other ∈ [name], Ordinary other := by simpa using is.ordinary
  rw [is.2.1, joinSegments_names single] at segments
  have normal := ((pathSegments_normal (localRoot home root)).append_names single).append_names named
  rw [List.append_assoc, List.singleton_append] at normal
  refine ⟨by rw [isRooted_render normal, rooted], names, some, named, ?_⟩
  rw [pathSegments_render normal, segments]
  simp

/-- A key that names a directory accepts a plain file name. -/
theorem Named.accepts {name : GoString} (keyed : key ≠ []) (is : Named key name) (present : localRoot home root ≠ []) :
    artifactFile home root key (bytes "x") =
      .ok (render (isRooted (localRoot home root)) (pathSegments (localRoot home root) ++ [name, bytes "x"])) := by
  have file : Ordinary (bytes "x") := ⟨by decide, by decide, by decide, by decide⟩
  have plain : pathSegments (bytes "x") = [bytes "x"] := by decide
  have both : ∀ other ∈ [name, bytes "x"], Ordinary other := by simpa using ⟨is.ordinary, file⟩
  have below : belowKey key (bytes "x") = [name, bytes "x"] := by
    rw [belowKey, is.2.1, plain, joinSegments_names (by simpa using file)]
    rfl
  refine (artifactFile_ok keyed).mpr ⟨present, is.1, by decide, ?_, ?_, ?_⟩
  · exact (passing_names (by simpa [plain] using file)).mpr (by decide)
  · exact below ▸ (passing_names both).mpr (List.cons_ne_nil _ _)
  · rw [below, joinSegments_names both]

/-- A step up is written outside the directory of a key that does not name one directory. -/
theorem parent_outside (keyed : key ≠ []) (present : localRoot home root ≠ []) (relative : isRooted key = false)
    (outside : pathSegments key = [] ∨ ∃ before name, Ordinary name ∧ Passing before ∧ pathSegments key = before ++ [name]) :
    ∃ target, artifactFile home root key up = .ok target ∧ ¬ StrictlyInside (projectDirectory home root key) target := by
  have plain : pathSegments up = [up] := by decide
  obtain ⟨rooted, segments⟩ := projectDirectory_segments present keyed relative
  have baseNormal := pathSegments_normal (localRoot home root)
  have normal := joinSegments_normal baseNormal
    (joinSegments_normal (relative ▸ pathSegments_normal key) (pathSegments_normal up))
  have passing : Passing (belowKey key up) := by
    rw [belowKey, plain]
    rcases outside with none | ⟨before, name, ordinary, passing, same⟩
    · rw [none]
      exact Or.inl (by decide)
    · rw [same, joinSegments_up_name ordinary]
      exact passing
  refine ⟨_, (artifactFile_ok keyed).mpr ⟨present, relative, by decide, Or.inl plain, passing, rfl⟩, ?_⟩
  rintro ⟨-, names, some, named, inside⟩
  rw [pathSegments_render normal, segments, plain] at inside
  rcases outside with none | ⟨before, name, ordinary, -, same⟩
  · rw [none, show joinSegments false [] [up] = [up] by decide, show joinSegments _ _ [] = _ from List.reverse_reverse _]
      at inside
    exact joinSegments_up_ne baseNormal some named inside
  · have single : ∀ other ∈ [name], Ordinary other := by simpa using ordinary
    rw [same, joinSegments_up_name ordinary, joinSegments_append, joinSegments_names single] at inside
    have lengths := congrArg List.length inside
    simp at lengths

end Targets

section Separation

/-- A backend keeps artifacts in files. -/
def KeepsFiles (host : Project.StoreHost) (backend : GoString) : Prop :=
  host.lowerText (trimSpace backend) = [] ∨ host.lowerText (trimSpace backend) = bytes "local"

/-- Two projects that share a store never write to the same address, and each writes strictly inside its own directory. -/
def Separated (host : Project.StoreHost) (backend root first second : GoString) : Prop :=
  ∀ p q t u, host.projectTarget backend root first p = .ok t → host.projectTarget backend root second q = .ok u →
    t.2.1 ≠ u.2.1 ∧ StrictlyInside (projectDirectory host.home root first) t.2.1 ∧
      StrictlyInside (projectDirectory host.home root second) u.2.1

variable {host : Project.StoreHost} {backend root : GoString}

/-- A project with a local backend writes a file. -/
theorem projectTarget_ok (files : KeepsFiles host backend) {key path : GoString} {target : GoString × GoString × Project.Place} :
    host.projectTarget backend root key path = .ok target ↔
      ∃ file, artifactFile host.home root key path = .ok file ∧ target = (bytes "local", file, .file (host.resolve file)) := by
  unfold Project.StoreHost.projectTarget Project.StoreHost.target artifactFile
  cases projectRelativePath key path with
  | error failure => simp [bind, Except.bind]
  | ok below =>
      cases checked : safeRelativePath below with
      | error failure => simp [checked, bind, Except.bind]
      | ok clean =>
          simp only [checked, bind, Except.bind, if_pos (show _ ∨ _ from files)]
          cases localTarget host.home root clean with
          | error failure => simp
          | ok file => simp [eq_comm]

/-- The addresses of a local backend are its files. -/
theorem separated_files (files : KeepsFiles host backend) {first second : GoString} :
    Separated host backend root first second ↔
      ∀ p q t u, artifactFile host.home root first p = .ok t → artifactFile host.home root second q = .ok u →
        t ≠ u ∧ StrictlyInside (projectDirectory host.home root first) t ∧
          StrictlyInside (projectDirectory host.home root second) u := by
  constructor
  · intro separated p q t u firstWritten secondWritten
    exact separated p q _ _ ((projectTarget_ok files).mpr ⟨t, firstWritten, rfl⟩)
      ((projectTarget_ok files).mpr ⟨u, secondWritten, rfl⟩)
  · intro apart p q t u firstWritten secondWritten
    obtain ⟨file, written, rfl⟩ := (projectTarget_ok files).mp firstWritten
    obtain ⟨other, alsoWritten, rfl⟩ := (projectTarget_ok files).mp secondWritten
    exact apart p q file other written alsoWritten

variable {home : Option GoString}

/-- A key that is not refused writes some file; it names a directory if all its files lie inside its own one. -/
theorem usable_key {key : GoString} (keyed : key ≠ []) (present : localRoot home root ≠ []) (usable : ¬ Refused key) :
    (∃ p t, artifactFile home root key p = .ok t) ∧
      ((∀ p t, artifactFile home root key p = .ok t → StrictlyInside (projectDirectory home root key) t) →
        ∃ name, Named key name) := by
  have relative : isRooted key = false := by
    cases rooted : isRooted key with
    | false => rfl
    | true => exact absurd (Or.inl rooted) usable
  rcases (key_cases relative).resolve_left usable with ⟨name, is⟩ | outside
  · exact ⟨⟨_, _, is.accepts keyed present⟩, fun _ => ⟨name, is⟩⟩
  · obtain ⟨target, written, leaves⟩ := parent_outside keyed present relative outside
    exact ⟨⟨_, _, written⟩, fun inside => absurd (inside _ _ written) leaves⟩

theorem Named.separated {first second a b : GoString} (firstKeyed : first ≠ []) (secondKeyed : second ≠ [])
    (isFirst : Named first a) (isSecond : Named second b) (different : a ≠ b) (p q t u : GoString)
    (firstWritten : artifactFile home root first p = .ok t) (secondWritten : artifactFile home root second q = .ok u) :
    t ≠ u ∧ StrictlyInside (projectDirectory home root first) t ∧ StrictlyInside (projectDirectory home root second) u := by
  refine ⟨?_, isFirst.strictlyInside firstKeyed firstWritten, isSecond.strictlyInside secondKeyed secondWritten⟩
  obtain ⟨names, -, named, rfl⟩ := isFirst.artifactFile_below firstKeyed firstWritten
  obtain ⟨others, -, otherNamed, rfl⟩ := isSecond.artifactFile_below secondKeyed secondWritten
  intro same
  have normal := (pathSegments_normal (localRoot home root)).append_names
    (show ∀ name ∈ a :: names, Ordinary name by simpa using ⟨isFirst.ordinary, named⟩)
  have otherNormal := (pathSegments_normal (localRoot home root)).append_names
    (show ∀ name ∈ b :: others, Ordinary name by simpa using ⟨isSecond.ordinary, otherNamed⟩)
  have segments := (render_injective normal otherNormal same).2
  exact different (List.cons.inj (List.append_cancel_left segments)).1

theorem validate_keyed {config : Project.RequiredConfig} (accepted : config.validate = .ok ()) :
    config.project.id ≠ [] := by
  intro empty
  unfold Project.RequiredConfig.validate at accepted
  split at accepted
  · cases accepted
  · simp at accepted

/-- On a local backend the namespaces of two accepted keys are separated exactly if nothing is written for one of them or
they clean to two different directory names. -/
theorem artifactNamespaces_separated_iff (host : Project.StoreHost) (backend root : GoString)
    (files : KeepsFiles host backend) (first second : Project.RequiredConfig) (firstAccepted : first.validate = .ok ())
    (secondAccepted : second.validate = .ok ()) :
    Separated host backend root first.project.id second.project.id ↔
      localRoot host.home root = [] ∨ Refused first.project.id ∨ Refused second.project.id ∨
        ∃ a b, Named first.project.id a ∧ Named second.project.id b ∧ a ≠ b := by
  have firstKeyed := validate_keyed firstAccepted
  have secondKeyed := validate_keyed secondAccepted
  rw [separated_files files]
  constructor
  · intro separated
    by_cases present : localRoot host.home root = []
    · exact Or.inl present
    by_cases firstRefused : Refused first.project.id
    · exact Or.inr (Or.inl firstRefused)
    by_cases secondRefused : Refused second.project.id
    · exact Or.inr (Or.inr (Or.inl secondRefused))
    obtain ⟨⟨p, t, firstWritten⟩, firstNamed⟩ := usable_key firstKeyed present firstRefused
    obtain ⟨⟨q, u, secondWritten⟩, secondNamed⟩ := usable_key secondKeyed present secondRefused
    obtain ⟨a, isFirst⟩ := firstNamed fun p t written => (separated p q t u written secondWritten).2.1
    obtain ⟨b, isSecond⟩ := secondNamed fun q u written => (separated p q t u firstWritten written).2.2
    refine Or.inr (Or.inr (Or.inr ⟨a, b, isFirst, isSecond, ?_⟩))
    rintro rfl
    exact (separated _ _ _ _ (isFirst.accepts firstKeyed present) (isSecond.accepts secondKeyed present)).1 rfl
  · rintro (missing | refused | refused | ⟨a, b, isFirst, isSecond, different⟩)
    · intro p q t u written
      exact absurd missing ((artifactFile_ok firstKeyed).mp written).1
    · intro p q t u written
      exact absurd written (refused.artifactFile_ne firstKeyed)
    · intro p q t u _ written
      exact absurd written (refused.artifactFile_ne secondKeyed)
    · exact isFirst.separated firstKeyed secondKeyed isSecond different

/-- This is a minimal configuration of a project. -/
def minimalConfig (id : GoString) : Project.RequiredConfig :=
  { version := 1
    project := { id := id, name := bytes "n", root := bytes "/r", adapter := bytes "generic", workflowProfile := bytes "p" } }

/-- This host keeps artifacts in files or in a bucket. -/
def twoBackends : Project.StoreHost where
  sha256Hex := Json.digest
  lowerText := lowerASCII
  quote := Json.quote
  home := none
  resolve := id
  bucket := bytes "areaflow"
  parseS3URI := fun _ => .error []

theorem plainKeys_separated :
    (minimalConfig (bytes "a")).validate = .ok () ∧ (minimalConfig (bytes "b")).validate = .ok () ∧
      Separated twoBackends (bytes "local") (bytes "/store") (bytes "a") (bytes "b") :=
  ⟨by decide, by decide,
    (artifactNamespaces_separated_iff twoBackends (bytes "local") (bytes "/store") (Or.inr (by decide))
      (minimalConfig (bytes "a")) (minimalConfig (bytes "b")) (by decide) (by decide)).mpr
      (Or.inr (Or.inr (Or.inr ⟨bytes "a", bytes "b", ⟨by decide, by decide, by decide⟩, ⟨by decide, by decide, by decide⟩,
        by decide⟩)))⟩

/-- A key and the same key with a slash behind it or a space before it are projects that write to one place, the first two
in a local store and the last two in a bucket. -/
theorem slashedKey_collides :
    (minimalConfig (bytes "a")).validate = .ok () ∧ (minimalConfig (bytes "a/")).validate = .ok () ∧
      (minimalConfig (bytes " a")).validate = .ok () ∧
      twoBackends.projectTarget (bytes "local") (bytes "/store") (bytes "a") (bytes "x") =
        .ok (bytes "local", bytes "/store/a/x", .file (bytes "/store/a/x")) ∧
      twoBackends.projectTarget (bytes "local") (bytes "/store") (bytes "a/") (bytes "x") =
        .ok (bytes "local", bytes "/store/a/x", .file (bytes "/store/a/x")) ∧
      ¬ Separated twoBackends (bytes "local") (bytes "/store") (bytes "a") (bytes "a/") ∧
      twoBackends.projectTarget (bytes "s3") [] (bytes "a") (bytes "x") =
        .ok (bytes "s3", bytes "s3://areaflow/a/x", .object (bytes "a/x")) ∧
      twoBackends.projectTarget (bytes "s3") [] (bytes " a") (bytes "x") =
        .ok (bytes "s3", bytes "s3://areaflow/a/x", .object (bytes "a/x")) := by
  have first : twoBackends.projectTarget (bytes "local") (bytes "/store") (bytes "a") (bytes "x") =
      .ok (bytes "local", bytes "/store/a/x", .file (bytes "/store/a/x")) := by decide +kernel
  have second : twoBackends.projectTarget (bytes "local") (bytes "/store") (bytes "a/") (bytes "x") =
      .ok (bytes "local", bytes "/store/a/x", .file (bytes "/store/a/x")) := by decide +kernel
  exact ⟨by decide, by decide, by decide, first, second, fun separated => (separated _ _ _ _ first second).1 rfl,
    by decide +kernel, by decide +kernel⟩

end Separation

end AreaFlow.Artifact
