import AreaFlow.Proof.Namespaces

namespace AreaFlow.Project
open Go Artifact Auth

/-- This is the name of the directory of an artifact. -/
def migrationName (source : ArtifactRow) : GoString := bytes "artifact-" ++ sprintID source.id

/-- This is the directory for the copies of an artifact. -/
def migrationDirectory (record : ProjectRow) (source : ArtifactRow) : GoString :=
  pathJoin [record.projectKey, bytes "migration", migrationName source]

/-- This is the path that a copy cleans: the source path, or the name of the artifact. -/
def migrationSource (source : ArtifactRow) : GoString :=
  if trimSpace source.sourcePath = [] then migrationName source else trimSpace source.sourcePath

/-- A path stays inside the directory of its artifact, also after the cleaning of the backend and below any root. -/
def Confined (record : ProjectRow) (source : ArtifactRow) : Prop :=
  ∀ path, artifactMigrationRelativePath record source = .ok path →
    StrictlyInside (migrationDirectory record source) path ∧
      ∀ clean root, safeRelativePath path = .ok clean →
        StrictlyInside (pathJoin [root, migrationDirectory record source]) (pathJoin [root, clean])

/-- Two artifacts are copied to different files, also after the cleaning of the backend and below any root. -/
def Apart (record : ProjectRow) (first second : ArtifactRow) : Prop :=
  ∀ path other, artifactMigrationRelativePath record first = .ok path →
    artifactMigrationRelativePath record second = .ok other →
      path ≠ other ∧
        ∀ clean otherClean root, safeRelativePath path = .ok clean → safeRelativePath other = .ok otherClean →
          pathJoin [root, clean] ≠ pathJoin [root, otherClean]

section Names

theorem migrationName_ordinary (source : ArtifactRow) : Ordinary (migrationName source) where
  nonempty := List.cons_ne_nil _ _
  notDot := fun same => absurd (List.cons.inj same).1 (by decide)
  notUp := fun same => absurd (List.cons.inj same).1 (by decide)
  clean := by
    intro member
    rcases List.mem_append.mp member with start | digits
    · exact absurd start (by decide)
    · rcases intString_letters source.id slash digits with minus | digit
      · exact absurd minus (by decide)
      · exact absurd digit (by decide)

theorem migrationName_injective {first second : ArtifactRow} (same : migrationName first = migrationName second) :
    first.id = second.id :=
  intString_injective (@List.append_cancel_left _ (bytes "artifact-") _ _ same)

theorem pathSegments_migrationName (source : ArtifactRow) :
    isRooted (migrationName source) = false ∧ pathSegments (migrationName source) = [migrationName source] := by
  have ordinary := migrationName_ordinary source
  have relative : isRooted (migrationName source) = false := rfl
  refine ⟨relative, ?_⟩
  have single : ∀ name ∈ [migrationName source], Ordinary name := by simpa using ordinary
  rw [pathSegments, split_eq_singleton ordinary.clean, cleanSegments_names single]
  rfl

end Names

section Paths

variable (record : ProjectRow)

/-- All copies of a project start with this path. -/
def migrationStem : GoString := record.projectKey ++ slash :: bytes "migration"

theorem migrationStem_ne_nil : migrationStem record ≠ [] := by simp [migrationStem]

/-- These are the segments of the directory of an artifact. -/
theorem migrationDirectory_eq (source : ArtifactRow) :
    migrationDirectory record source =
      render (isRooted (migrationStem record)) (pathSegments (migrationStem record) ++ [migrationName source]) := by
  obtain ⟨rooted, segments⟩ := pathSegments_append_name (migrationStem_ne_nil record) (migrationName_ordinary source)
  have some := (migrationName_ordinary source).nonempty
  have joined : migrationDirectory record source = pathClean (migrationStem record ++ slash :: migrationName source) := by
    unfold migrationDirectory migrationStem pathJoin
    simp [record.keyed, some, bytes]
  rw [joined, pathClean_eq_render, rooted, segments]

/-- A copy is accepted if its path goes down, or one step up. Its path continues the directory of the artifact. -/
theorem artifactMigrationRelativePath_ok {source : ArtifactRow} {path : GoString} :
    artifactMigrationRelativePath record source = .ok path ↔
      isRooted (migrationSource source) = false ∧ Passing (pathSegments (migrationSource source)) ∧
        path = render (isRooted (migrationStem record)) (joinSegments (isRooted (migrationStem record))
          (pathSegments (migrationStem record) ++ [migrationName source]) (pathSegments (migrationSource source))) := by
  have normal := pathSegments_normal (migrationSource source)
  have joined : pathJoin [record.projectKey, bytes "migration", migrationName source, pathClean (migrationSource source)] =
      render (isRooted (migrationStem record)) (joinSegments (isRooted (migrationStem record))
        (pathSegments (migrationStem record) ++ [migrationName source]) (pathSegments (migrationSource source))) := by
    obtain ⟨rooted, segments⟩ := pathSegments_append_name (migrationStem_ne_nil record) (migrationName_ordinary source)
    have some := (migrationName_ordinary source).nonempty
    have more := render_ne_nil normal
    have paired : pathJoin [record.projectKey, bytes "migration", migrationName source, pathClean (migrationSource source)] =
        pathJoin [migrationStem record ++ slash :: migrationName source, pathClean (migrationSource source)] := by
      rw [pathClean_eq_render]
      unfold migrationStem pathJoin
      simp [record.keyed, some, more, bytes, List.intercalate]
    rw [paired, pathClean_eq_render, pathJoin_render (by simp) normal, rooted, segments]
  have shape : artifactMigrationRelativePath record source =
      if (pathClean (migrationSource source)).head? = some slash ∨ pathClean (migrationSource source) = bytes "." ∨
          hasPrefix (pathClean (migrationSource source)) (bytes "../") = true then
        .error (bytes "artifact source path is outside project namespace")
      else .ok (pathJoin [record.projectKey, bytes "migration", migrationName source, pathClean (migrationSource source)]) := rfl
  have refused := or_left_comm.trans (check_iff (migrationSource source))
  by_cases passes : isRooted (migrationSource source) = false ∧ Passing (pathSegments (migrationSource source))
  · rw [shape, if_neg (mt refused.mp (not_not.mpr passes)), joined]
    simp [passes, eq_comm]
  · rw [shape, if_pos (refused.mpr passes)]
    exact iff_of_false (by simp) fun accepted => passes ⟨accepted.1, accepted.2.1⟩

end Paths

section Confinement

variable {record : ProjectRow}

/-- The source path of an artifact is the parent directory. -/
def ClimbsOut (source : ArtifactRow) : Prop := pathClean (trimSpace source.sourcePath) = bytes ".."

theorem climbsOut_iff {source : ArtifactRow} :
    ClimbsOut source ↔ isRooted (migrationSource source) = false ∧ pathSegments (migrationSource source) = [up] := by
  have parent : bytes ".." = render false [up] := by decide
  have single : Normal false [up] := ⟨1, [], by simp, by simp, by simp⟩
  have normal := pathSegments_normal (migrationSource source)
  have cleaned : pathClean (migrationSource source) = bytes ".." ↔
      isRooted (migrationSource source) = false ∧ pathSegments (migrationSource source) = [up] := by
    rw [pathClean_eq_render, parent]
    constructor
    · exact render_injective normal single
    · rintro ⟨relative, segments⟩
      rw [relative, segments]
  rw [← cleaned, ClimbsOut, migrationSource]
  split
  · rename_i empty
    have named : pathClean (migrationName source) ≠ bytes ".." := by
      obtain ⟨relative, segments⟩ := pathSegments_migrationName source
      rw [pathClean_eq_render, relative, segments]
      simpa [render, up] using (migrationName_ordinary source).notUp
    rw [empty]
    exact iff_of_false (by decide) named
  · rfl

/-- An accepted path that does not climb out is a list of names behind the directory of its artifact. -/
theorem accepted_names {source : ArtifactRow} {path : GoString} (stays : ¬ ClimbsOut source)
    (accepted : artifactMigrationRelativePath record source = .ok path) :
    ∃ names, names ≠ [] ∧ (∀ name ∈ names, Ordinary name) ∧
      path = render (isRooted (migrationStem record))
        (pathSegments (migrationStem record) ++ [migrationName source] ++ names) := by
  obtain ⟨relative, passing, rfl⟩ := (artifactMigrationRelativePath_ok record).mp accepted
  rcases passing with parent | ⟨some, named⟩
  · exact absurd (climbsOut_iff.mpr ⟨relative, parent⟩) stays
  · exact ⟨_, some, named, by rw [joinSegments_names named]⟩

/-- The cleaning of the backend accepts only names, and keeps them. -/
theorem safeRelativePath_names {source : ArtifactRow} {names : List GoString} {clean : GoString} (some : names ≠ [])
    (named : ∀ name ∈ names, Ordinary name)
    (accepted : safeRelativePath (render (isRooted (migrationStem record))
      (pathSegments (migrationStem record) ++ [migrationName source] ++ names)) = .ok clean) :
    isRooted (migrationStem record) = false ∧ (∀ name ∈ pathSegments (migrationStem record), Ordinary name) ∧
      clean = render false (pathSegments (migrationStem record) ++ [migrationName source] ++ names) := by
  have single : ∀ name ∈ [migrationName source], Ordinary name := by simpa using migrationName_ordinary source
  have normal := ((pathSegments_normal (migrationStem record)).append_names single).append_names named
  obtain ⟨relative, passing, rfl⟩ := safeRelativePath_ok.mp accepted
  rw [isRooted_render normal] at relative
  rw [pathSegments_render normal] at passing
  refine ⟨relative, ?_, ?_⟩
  · rcases passing with parent | ⟨-, all⟩
    · have lengths := congrArg List.length parent
      have positive := List.length_pos_of_ne_nil some
      simp only [List.length_append, List.length_singleton] at lengths
      omega
    · intro name member
      exact all name (List.mem_append_left _ (List.mem_append_left _ member))
  · rw [pathClean_eq_render, isRooted_render normal, pathSegments_render normal, relative]

/-- An artifact is copied inside its own directory exactly when its source path does not climb out. -/
theorem confined_iff (source : ArtifactRow) : Confined record source ↔ ¬ ClimbsOut source := by
  have stemNormal := pathSegments_normal (migrationStem record)
  have single : ∀ name ∈ [migrationName source], Ordinary name := by simpa using migrationName_ordinary source
  have directoryNormal := stemNormal.append_names single
  constructor
  · intro confined climbs
    obtain ⟨relative, parent⟩ := climbsOut_iff.mp climbs
    obtain ⟨-, names, -, -, continued⟩ :=
      (confined _ ((artifactMigrationRelativePath_ok record).mpr ⟨relative, Or.inl parent, rfl⟩)).1
    rw [migrationDirectory_eq, parent, joinSegments_up_name (migrationName_ordinary source),
      pathSegments_render stemNormal, pathSegments_render directoryNormal] at continued
    have lengths := congrArg List.length continued
    simp at lengths
  · intro stays path accepted
    obtain ⟨names, some, named, rfl⟩ := accepted_names stays accepted
    rw [migrationDirectory_eq]
    refine ⟨strictlyInside_render directoryNormal some named, fun clean root safe => ?_⟩
    obtain ⟨relative, stemNamed, rfl⟩ := safeRelativePath_names some named safe
    have directoryNamed : ∀ name ∈ pathSegments (migrationStem record) ++ [migrationName source], Ordinary name := by
      intro name member
      exact (List.mem_append.mp member).elim (stemNamed name) (single name)
    obtain ⟨rooted, base, normal, joined⟩ := pathJoin_names root
    have inside := strictlyInside_render (normal.append_names directoryNamed) some named
    rw [List.append_assoc] at inside
    rwa [relative, joined _ directoryNamed, joined _ fun name member =>
      (List.mem_append.mp member).elim (directoryNamed name) (named name)]

/-- Two artifacts that do not climb out are copied to different files. -/
theorem apart_of_stays {first second : ArtifactRow} (different : first.id ≠ second.id) (firstStays : ¬ ClimbsOut first)
    (secondStays : ¬ ClimbsOut second) : Apart record first second := by
  intro path other accepted otherAccepted
  obtain ⟨names, some, named, rfl⟩ := accepted_names firstStays accepted
  obtain ⟨others, otherSome, otherNamed, rfl⟩ := accepted_names secondStays otherAccepted
  have split {before : List GoString} (same : before ++ [migrationName first] ++ names =
      before ++ [migrationName second] ++ others) : False := by
    rw [List.append_assoc, List.append_assoc] at same
    exact different (migrationName_injective (List.cons.inj (List.append_cancel_left same)).1)
  have single (source : ArtifactRow) : ∀ name ∈ [migrationName source], Ordinary name := by
    simpa using migrationName_ordinary source
  have normal {rooted : Bool} {before : List GoString} (base : Normal rooted before) (source : ArtifactRow)
      {more : List GoString} (ordinary : ∀ name ∈ more, Ordinary name) :
      Normal rooted (before ++ [migrationName source] ++ more) :=
    (base.append_names (single source)).append_names ordinary
  constructor
  · intro same
    have stem := pathSegments_normal (migrationStem record)
    exact split (render_injective (normal stem first named) (normal stem second otherNamed) same).2
  · intro clean otherClean root safe otherSafe same
    obtain ⟨-, stemNamed, rfl⟩ := safeRelativePath_names some named safe
    obtain ⟨-, -, rfl⟩ := safeRelativePath_names otherSome otherNamed otherSafe
    have all (source : ArtifactRow) {more : List GoString} (ordinary : ∀ name ∈ more, Ordinary name) :
        ∀ name ∈ pathSegments (migrationStem record) ++ [migrationName source] ++ more, Ordinary name := by
      intro name member
      simp only [List.mem_append] at member
      rcases member with (before | own) | after
      · exact stemNamed name before
      · exact single source name own
      · exact ordinary name after
    obtain ⟨rooted, base, baseNormal, joined⟩ := pathJoin_names root
    rw [joined _ (all first named), joined _ (all second otherNamed)] at same
    have segments := (render_injective (baseNormal.append_names (all first named))
      (baseNormal.append_names (all second otherNamed)) same).2
    exact split (List.append_cancel_left segments)

end Confinement

/-- This artifact has only an identifier and a source path. -/
def plainArtifact (id : ID) (sourcePath : GoString) : ArtifactRow :=
  { id := id, projectID := 1, versionID := none, runID := none, itemID := none, artifactType := [],
    storageBackend := bytes "local", uri := [], sourcePath := sourcePath, sha256 := [], sizeBytes := 0, contentType := [],
    metadata := [], createdAt := 0 }

end AreaFlow.Project
