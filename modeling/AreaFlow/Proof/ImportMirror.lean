import AreaFlow.Construction.Importer
import AreaFlow.Proof.ImportPaths

namespace AreaFlow.Importer
open Go AreaMatrix

section Mirror

/-- This is the imported version of a project with a label. -/
def linkOf (db : Database) (projectID : ID) (label : GoString) : Option ID :=
  (db.versions.rows.find? fun row => isMirrored projectID row && row.content.displayLabel == label).map (·.id)

/-- The imported rows of a project have exactly the fields of a snapshot, and they are linked by their labels. -/
structure Mirrors (projectID runID : ID) (snapshot : Snapshot) (db : Database) : Prop where
  versions : ((db.versions.rows.filter (isMirrored projectID)).map fun row => some row.content).Perm
    (snapshot.versions.map fun version => version.statusSummary.map fun status =>
      { displayLabel := version.label, versionKind := bytes "workflow_version", lifecycleStatus := version.lifecycle
        sourcePath := some version.sourcePath, sourceHash := some version.sourceHash, immutable := version.immutable
        statusSummary := .object
          [(bytes "artifact_counts", .object (version.artifactCounts.map fun entry =>
              (Json.toValid entry.1, .number (bytes (toString entry.2))))),
            (bytes "status", status)] })
  distinct : ((db.versions.rows.filter (isMirrored projectID)).map (·.content.displayLabel)).Nodup
  residuals : ((db.residuals.rows.filter (isImported projectID)).map fun row => (row.versionID, row.content)).Perm
    (snapshot.residuals.map fun residual => (linkOf db projectID residual.versionLabel,
      { residualKey := residual.key, status := residual.status, type := residual.type, title := some residual.title
        sourcePath := some residual.sourcePath, currentImpact := some residual.currentImpact
        executableTask := residual.executableTask, promotionRequired := residual.promotionRequired
        closeCondition := some residual.closeCondition, metadata := residual.metadata, immutable := residual.immutable }))
  artifacts : ((db.artifacts.rows.filter (isExternal projectID)).map fun row => (row.versionID, row.runID, row.content)).Perm
    (snapshot.artifacts.map fun artifact => (linkOf db projectID artifact.versionLabel, some runID,
      { artifactType := artifact.type, uri := artifact.sourcePath, sourcePath := some artifact.sourcePath
        sha256 := some artifact.sha256, sizeBytes := some artifact.sizeBytes, contentType := some artifact.contentType
        metadata := artifact.metadata }))

end Mirror

section Clearing

variable {projectID : ID} {db after : Database} {idle idle' : Unit}

/-- After the deletion nothing of an earlier import is left. -/
theorem clear_ok (done : clearCurrentImportIndex projectID idle db = (idle', .ok ((), after))) :
    after.versions.rows.filter (isMirrored projectID) = [] ∧ after.residuals.rows.filter (isImported projectID) = [] ∧
      after.artifacts.rows.filter (isExternal projectID) = [] := by
  unfold clearCurrentImportIndex at done
  split at done
  · cases done
  rename_i cleared deleted
  cases done
  unfold deleteVersions at deleted
  dsimp only at deleted
  split at deleted
  · cases deleted
  cases deleted
  refine ⟨?_, ?_, ?_⟩
  · simp [Table.delete, List.filter_filter]
  · simp only [Table.delete, List.filter_filter, List.filter_eq_nil_iff, Bool.and_eq_true, not_and]
    intro row _ imported
    simp [imported]
  · simp only [Table.update, Table.delete, if_true, List.filter_map, List.map_eq_nil_iff, List.filter_filter,
      List.filter_eq_nil_iff]
    intro row _ both
    simp [nullArtifact, isExternal] at both
    simp [both] at both

end Clearing

section Inserting

variable {postgres : Postgres} {now : Time} {projectID : ID} {idle idle' : Unit} {db after : Database}

theorem insertVersionRow_ok {content : VersionContent} {id : ID}
    (done : insertVersionRow postgres now projectID content idle db = (idle', .ok (id, after))) :
    (∀ row ∈ db.versions.rows, row.projectID = projectID → row.content.displayLabel ≠ content.displayLabel) ∧
      id = db.versions.nextID ∧ after = { db with versions := db.versions.insert (newVersion now projectID content) } := by
  unfold insertVersionRow at done
  split at done
  · rename_i accepted
    cases done
    refine ⟨?_, rfl, rfl⟩
    rw [Bool.and_eq_true, Bool.not_eq_true', List.any_eq_false] at accepted
    intro row stored own same
    exact accepted.2 row stored (by simp [own, same])
  · cases done

/-- These are the rows that a list of versions becomes. -/
structure Inserted (projectID : ID) (versions : List Version) (before : List VersionRow) (rows : List VersionRow) : Prop where
  contents : rows.map (fun row => some row.content) = versions.map fun version => version.statusSummary.map (versionContent version)
  mirrored : ∀ row ∈ rows, isMirrored projectID row = true
  fresh : ∀ old ∈ before, old.projectID = projectID → ∀ row ∈ rows, old.content.displayLabel ≠ row.content.displayLabel
  distinct : (rows.map (·.content.displayLabel)).Nodup

theorem upsertVersion_ok {version : Version} {id : ID}
    (done : upsertVersion postgres now projectID version idle db = (idle', .ok (id, after))) :
    ∃ status, version.statusSummary = some status ∧
      insertVersionRow postgres now projectID (versionContent version status) idle db = (idle', .ok (id, after)) := by
  unfold upsertVersion at done
  cases described : version.statusSummary with
  | none =>
      rw [described] at done
      cases done
  | some status =>
      rw [described] at done
      exact ⟨status, rfl, done⟩

theorem insertVersions_ok {versions : List Version} {ids ids' : List (GoString × ID)}
    (done : insertVersions postgres now projectID versions ids idle db = (idle', .ok (ids', after))) :
    ∃ rows, after.versions.rows = db.versions.rows ++ rows ∧ Inserted projectID versions db.versions.rows rows ∧
      ids' = (rows.map fun row => (row.content.displayLabel, row.id)).reverse ++ ids ∧
      after.residuals = db.residuals ∧ after.artifacts = db.artifacts := by
  induction versions generalizing ids idle db with
  | nil =>
      cases done
      exact ⟨[], by simp, ⟨rfl, by simp, by simp, by simp⟩, by simp, rfl, rfl⟩
  | cons version rest ih =>
      rw [insertVersions, Tx.bind_apply] at done
      split at done
      · cases done
      rename_i middle id between ran
      obtain ⟨status, described, stored⟩ := upsertVersion_ok ran
      obtain ⟨unused, rfl, rfl⟩ := insertVersionRow_ok stored
      obtain ⟨rows, appended, inserted, kept, residuals, artifacts⟩ := ih done
      have new : (db.versions.insert (newVersion now projectID (versionContent version status))).rows =
          db.versions.rows ++ [db.versions.next (newVersion now projectID (versionContent version status))] := rfl
      refine ⟨db.versions.next (newVersion now projectID (versionContent version status)) :: rows, ?_, ?_, ?_, residuals,
        artifacts⟩
      · rw [appended, new, List.append_assoc]
        rfl
      · constructor
        · rw [List.map_cons, inserted.contents, List.map_cons, described]
          rfl
        · intro row member
          rcases List.mem_cons.mp member with rfl | later
          · simp [isMirrored, Table.next, newVersion]
          · exact inserted.mirrored row later
        · intro old stored own row member
          rcases List.mem_cons.mp member with rfl | later
          · exact unused old stored own
          · exact inserted.fresh old (by rw [new]; exact List.mem_append_left _ stored) own row later
        · rw [List.map_cons, List.nodup_cons]
          refine ⟨?_, inserted.distinct⟩
          intro listed
          obtain ⟨row, member, same⟩ := List.mem_map.mp listed
          exact inserted.fresh _ (by rw [new]; simp) rfl row member same.symm
      · rw [kept]
        simp [Table.next, newVersion, versionContent]

/-- Distinct keys are found in either order. -/
theorem lookup_reverse {pairs : List (GoString × ID)} (distinct : (pairs.map Prod.fst).Nodup) (key : GoString) :
    pairs.reverse.lookup key = pairs.lookup key := by
  induction pairs with
  | nil => rfl
  | cons pair rest ih =>
      obtain ⟨label, id⟩ := pair
      rw [List.map_cons, List.nodup_cons] at distinct
      rw [List.reverse_cons, List.lookup_append, ih distinct.2, List.lookup_cons]
      by_cases same : key = label
      · subst same
        have absent : rest.lookup key = none := by
          rw [List.lookup_eq_none_iff]
          intro other member
          simp only [bne_iff_ne, ne_eq]
          rintro rfl
          exact distinct.1 (List.mem_map.mpr ⟨other, member, rfl⟩)
        simp [absent]
      · have differs : (key == label) = false := by simpa using same
        simp [List.lookup_cons, differs]

theorem lookup_rows (rows : List VersionRow) (key : GoString) :
    (rows.map fun row => (row.content.displayLabel, row.id)).lookup key =
      (rows.find? fun row => row.content.displayLabel == key).map (·.id) := by
  induction rows with
  | nil => rfl
  | cons row rest ih =>
      rw [List.map_cons, List.lookup_cons, ih, List.find?_cons]
      by_cases same : key = row.content.displayLabel
      · simp [same]
      · have differs : (key == row.content.displayLabel) = false := by simpa using same
        have other : (row.content.displayLabel == key) = false := by simpa using Ne.symm same
        simp [differs, other]

variable {ids : List (GoString × ID)}

/-- The tables of versions and artifacts stay. -/
theorem residuals_ok {residuals : List Residual}
    (done : Tx.forEach (upsertResidual postgres now projectID ids) residuals idle db = (idle', .ok ((), after))) :
    ∃ rows, after.residuals.rows = db.residuals.rows ++ rows ∧
      List.Forall₂ (fun residual row => isImported projectID row = true ∧
        (row.versionID, row.content) = (ids.lookup residual.versionLabel, residualContent residual)) residuals rows ∧
      after.versions = db.versions ∧ after.artifacts = db.artifacts := by
  refine Tx.forEach_appends (·.residuals.rows) _
    (fun before after => after.versions = before.versions ∧ after.artifacts = before.artifacts) ?_ ?_ ?_ done
  · exact fun _ => ⟨rfl, rfl⟩
  · exact fun _ _ _ first second => ⟨second.1.trans first.1, second.2.trans first.2⟩
  · intro residual idle store idle' store' ran
    unfold upsertResidual at ran
    split at ran
    · cases ran
      exact ⟨_, rfl, ⟨by simp [isImported, Table.next, newResidual], rfl⟩, rfl, rfl⟩
    · cases ran

theorem artifacts_ok {runID : ID} {artifacts : List Artifact}
    (done : Tx.forEach (insertArtifact postgres projectID ids runID) artifacts idle db = (idle', .ok ((), after))) :
    ∃ rows, after.artifacts.rows = db.artifacts.rows ++ rows ∧
      List.Forall₂ (fun artifact row => isExternal projectID row = true ∧ (row.versionID, row.runID, row.content) =
        (ids.lookup artifact.versionLabel, some runID, artifactContent artifact)) artifacts rows ∧
      after.versions = db.versions ∧ after.residuals = db.residuals := by
  refine Tx.forEach_appends (·.artifacts.rows) _
    (fun before after => after.versions = before.versions ∧ after.residuals = before.residuals) ?_ ?_ ?_ done
  · exact fun _ => ⟨rfl, rfl⟩
  · exact fun _ _ _ first second => ⟨second.1.trans first.1, second.2.trans first.2⟩
  · intro artifact idle store idle' store' ran
    unfold insertArtifact at ran
    split at ran
    · cases ran
      exact ⟨_, rfl, ⟨by simp [isExternal, Table.next, newArtifact], rfl⟩, rfl, rfl⟩
    · cases ran

end Inserting

section Importing

variable {host : Host} {files : Files} {postgres : Postgres} {clock : Clock} {record : Record} {snapshot : Snapshot}
  {idle idle' : Unit} {db after : Database} {runID : ID}

/-- Rows that belong to the elements of a list are the chosen ones after rows that are not. -/
theorem chosen_rows {A Row B : Type} {chosen : Row → Bool} {seen : Row → B} {given : A → B} {list : List A}
    {old rows : List Row} (others : old.filter chosen = [])
    (belong : List.Forall₂ (fun element row => chosen row = true ∧ seen row = given element) list rows) :
    ((old ++ rows).filter chosen).map seen = list.map given := by
  rw [List.filter_append, others, List.nil_append]
  induction belong with
  | nil => rfl
  | cons fits _ ih => rw [List.filter_cons_of_pos fits.1, List.map_cons, List.map_cons, fits.2, ih]

theorem linkOf_inserted {projectID : ID} {versions : List Version} {old rows : List VersionRow}
    (others : old.filter (isMirrored projectID) = []) (inserted : Inserted projectID versions old rows)
    (table : db.versions.rows = old ++ rows) (label : GoString) :
    (rows.map fun row => (row.content.displayLabel, row.id)).reverse.lookup label = linkOf db projectID label := by
  have keys : ((rows.map fun row => (row.content.displayLabel, row.id)).map Prod.fst).Nodup := by
    rw [List.map_map]
    exact inserted.distinct
  have none : old.find? (fun row => isMirrored projectID row && row.content.displayLabel == label) = none := by
    rw [List.find?_eq_none]
    intro row stored both
    rw [Bool.and_eq_true] at both
    exact List.filter_eq_nil_iff.mp others row stored both.1
  have same : rows.find? (fun row => isMirrored projectID row && row.content.displayLabel == label) =
      rows.find? (fun row => row.content.displayLabel == label) := by
    apply List.find?_congr
    intro row member
    rw [inserted.mirrored row member, Bool.true_and]
  rw [lookup_reverse keys, lookup_rows, linkOf, table, List.find?_append, none, Option.none_or, same]

/-- The replaced rows are those of the snapshot. -/
theorem replaceRows_mirrors (done : replaceRows postgres clock record snapshot idle db = (idle', .ok (runID, after))) :
    Mirrors record.id runID snapshot after := by
  unfold replaceRows at done
  rw [Tx.bind_apply] at done
  split at done
  · cases done
  rename_i run started _
  rw [Tx.bind_apply] at done
  split at done
  · cases done
  rename_i cleared clearing
  obtain ⟨noVersions, noResiduals, noArtifacts⟩ := clear_ok clearing
  rw [Tx.bind_apply] at done
  split at done
  · cases done
  rename_i ids versioned inserting
  obtain ⟨rows, appended, inserted, kept, sameResiduals, sameArtifacts⟩ := insertVersions_ok inserting
  rw [Tx.bind_apply] at done
  split at done
  · cases done
  rename_i filled filling
  obtain ⟨residualRows, residualTable, residualFit, versionsKept, artifactsKept⟩ := residuals_ok filling
  rw [Tx.bind_apply] at done
  split at done
  · cases done
  rename_i final finishing
  obtain ⟨artifactRows, artifactTable, artifactFit, versionsLast, residualsLast⟩ := artifacts_ok finishing
  cases done
  have versions : after.versions.rows = cleared.versions.rows ++ rows := by rw [versionsLast, versionsKept, appended]
  have links (label : GoString) : ids.lookup label = linkOf after record.id label := by
    rw [kept, List.append_nil]
    exact linkOf_inserted noVersions inserted versions label
  have chosen : (cleared.versions.rows ++ rows).filter (isMirrored record.id) = rows := by
    rw [List.filter_append, noVersions, List.nil_append]
    exact List.filter_eq_self.mpr inserted.mirrored
  constructor
  · rw [versions, chosen, inserted.contents]
    exact List.Perm.refl _
  · rw [versions, chosen]
    exact inserted.distinct
  · rw [residualsLast, residualTable, sameResiduals, chosen_rows noResiduals residualFit]
    simp only [links]
    exact List.Perm.refl _
  · rw [artifactTable, artifactsKept, sameArtifacts, chosen_rows noArtifacts artifactFit]
    simp only [links]
    exact List.Perm.refl _

theorem Mirrors.congr {projectID : ID} (mirrors : Mirrors projectID runID snapshot db) (versions : after.versions = db.versions)
    (residuals : after.residuals = db.residuals) (artifacts : after.artifacts = db.artifacts) :
    Mirrors projectID runID snapshot after := by
  have links : linkOf after projectID = linkOf db projectID := by
    funext label
    rw [linkOf, versions, linkOf]
  constructor
  · rw [versions]
    exact mirrors.versions
  · rw [versions]
    exact mirrors.distinct
  · rw [residuals, links]
    exact mirrors.residuals
  · rw [artifacts, links]
    exact mirrors.artifacts

/-- A repeated command does not say that it was created. -/
theorem loadResult_repeated {key : GoString} {result : Result}
    (done : loadImportResultByCommandResponse record key idle db = (idle', .ok (result, after))) : result.created = false := by
  unfold loadImportResultByCommandResponse Tx.check at done
  dsimp only at done
  split at done
  · cases done
  · rename_i answer found
    cases done
    split at found
    · cases found
    · split at found
      · cases found
      · cases found
        rfl

theorem importSnapshot_mirrors {options : Options} {result : Result}
    (done : importSnapshot host postgres clock record options snapshot idle db = (idle', .ok (result, after)))
    (created : result.created = true) : Mirrors record.id result.runID snapshot after := by
  unfold importSnapshot at done
  dsimp only at done
  rw [Tx.bind_apply] at done
  split at done
  · cases done
  rename_i isNew reserved _
  cases isNew with
  | false =>
      rw [if_neg (by simp)] at done
      rw [loadResult_repeated done] at created
      cases created
  | true =>
      rw [if_pos rfl, Tx.bind_apply] at done
      split at done
      · cases done
      rename_i run replaced replacing
      cases done
      exact (replaceRows_mirrors replacing).congr rfl rfl rfl

/-- An import fails and leaves the database, or it runs its transaction on the snapshot of the project. -/
theorem importProject_cases (host : Host) (files : Files) (postgres : Postgres) (clock : Clock) (record : Record)
    (options : Options) (db : Database) :
    (∃ failure, importProject host files postgres clock record options db = (db, .error failure)) ∨
      ∃ snapshot result after, (load host files record.rootPath).outcome = .ok snapshot ∧
        (∃ idle, importSnapshot host postgres clock record (normalizeOptions options) snapshot () db =
          (idle, .ok (result, after))) ∧
        importProject host files postgres clock record options db = (after, .ok result) := by
  unfold importProject
  split
  · exact .inl ⟨_, rfl⟩
  split
  · exact .inl ⟨_, rfl⟩
  cases loaded : (load host files record.rootPath).outcome with
  | error failure => exact .inl ⟨_, rfl⟩
  | ok snapshot =>
      dsimp only
      unfold Tx.commit
      cases ran : importSnapshot host postgres clock record (normalizeOptions options) snapshot () db with
      | mk idle outcome =>
          cases outcome with
          | error failure => exact .inl ⟨_, rfl⟩
          | ok answered => exact .inr ⟨snapshot, answered.1, answered.2, rfl, ⟨idle, ran⟩, rfl⟩

/-- An import that says that it was made leaves exactly the rows of the snapshot, whatever was there before, and an import
that fails leaves every table as it was. -/
theorem import_mirrors (host : Host) (files : Files) (postgres : Postgres) (clock : Clock) (record : Record) (options : Options)
    (db : Database) :
    (∀ result, (importProject host files postgres clock record options db).2 = .ok result → result.created = true →
      ∃ snapshot, (load host files record.rootPath).outcome = .ok snapshot ∧
        Mirrors record.id result.runID snapshot (importProject host files postgres clock record options db).1) ∧
    ∀ failure, (importProject host files postgres clock record options db).2 = .error failure →
      (importProject host files postgres clock record options db).1 = db := by
  obtain ⟨failure, failed⟩ | ⟨snapshot, result, after, loaded, ⟨idle, ran⟩, made⟩ :=
    importProject_cases host files postgres clock record options db
  · rw [failed]
    simp
  · rw [made]
    refine ⟨?_, by simp⟩
    intro answer same created
    cases same
    exact ⟨snapshot, loaded, importSnapshot_mirrors ran created⟩

/-- This host decodes a ledger with one version and its residual. -/
def smallHost : Host := oneVersion (bytes "v1") (bytes "workflow/versions/v1/residuals.yaml")

/-- These are the files of a project with one version, one residual and one finished task. -/
def smallFiles : Files :=
  listedFiles
    [(bytes "/r/workflow/residuals/residuals.yaml", ledgerText (bytes "v1") (bytes "workflow/versions/v1/residuals.yaml")),
      (bytes "/r/workflow/versions/v1/residuals.yaml", residualText),
      (bytes "/r/workflow/versions/v1-mvp/execution/_shared/progress.json",
        bytes "\x7b\"tasks\":\x7b\"t1\":\x7b\"status\":\"completed\"\x7d\x7d\x7d")]

def anything : Postgres where
  acceptsText _ := true
  acceptsJSON _ := true

def smallRecord : Record where
  id := 1
  key := bytes "a"
  adapter := bytes "areamatrix"
  rootPath := bytes "/r"

def oldVersion (id : ID) (importMode : ImportMode) (label : GoString) : VersionRow where
  id := id
  projectID := 1
  importMode := importMode
  content :=
    { displayLabel := label, versionKind := bytes "workflow_version", lifecycleStatus := bytes "draft", sourcePath := none
      sourceHash := none, immutable := false, statusSummary := .object [] }
  importedAt := none

def oldResidual : ResidualRow where
  id := 1
  projectID := 1
  versionID := some 2
  content :=
    { residualKey := bytes "r0", status := bytes "open", type := [], title := none, sourcePath := none, currentImpact := none
      executableTask := false, promotionRequired := false, closeCondition := none, metadata := .object [], immutable := false }
  importedAt := some 0

def oldArtifact : ArtifactRow where
  id := 1
  projectID := 1
  versionID := some 2
  runID := none
  storageBackend := externalProject
  content :=
    { artifactType := bytes "progress", uri := bytes "old.json", sourcePath := none, sha256 := none, sizeBytes := none
      contentType := none, metadata := .object [] }

/-- An earlier import left a version with a residual and an artifact, beside a version that is authored. -/
def earlierTables : Database where
  versions := { rows := [oldVersion 1 .authored (bytes "mine"), oldVersion 2 .metadataOnly (bytes "v0")] }
  residuals := { rows := [oldResidual] }
  artifacts := { rows := [oldArtifact] }
  runs := {}
  statusSnapshots := {}
  events := {}
  audits := {}
  commands := []
  items := []
  links := []
  gateResults := []
  transitionPreviews := []
  approvals := []
  tasks := []
  attempts := []
  statusProjections := []

theorem earlierImport_replaced :
    ∃ result, (importProject smallHost smallFiles anything ⟨0, 0⟩ smallRecord {} earlierTables).2 = .ok result ∧
      result.created = true ∧ ∃ snapshot, (load smallHost smallFiles smallRecord.rootPath).outcome = .ok snapshot ∧
        Mirrors smallRecord.id result.runID snapshot
          (importProject smallHost smallFiles anything ⟨0, 0⟩ smallRecord {} earlierTables).1 := by
  have made : (importProject smallHost smallFiles anything ⟨0, 0⟩ smallRecord {} earlierTables).2.toOption.map (·.created) =
      some true := by decide +kernel
  cases outcome : (importProject smallHost smallFiles anything ⟨0, 0⟩ smallRecord {} earlierTables).2 with
  | error failure =>
      rw [outcome] at made
      cases made
  | ok result =>
      rw [outcome] at made
      have created : result.created = true := Option.some.inj made
      exact ⟨result, rfl, created,
        (import_mirrors smallHost smallFiles anything ⟨0, 0⟩ smallRecord {} earlierTables).1 result outcome created⟩

end Importing

end AreaFlow.Importer
