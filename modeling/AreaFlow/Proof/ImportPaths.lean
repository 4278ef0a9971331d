import AreaFlow.Construction.Adapter.AreaMatrix

namespace AreaFlow.AreaMatrix
open Go

section Walks

variable {root : GoString}

mutual

/-- A walk stays in the directory in which it starts. -/
theorem Listing.visited_within : ∀ (entry : Listing) {path : GoString}, Within root path →
    ∀ visited ∈ entry.visited path, Within root visited
  | .other, _, _, _, member => by simp [Listing.visited] at member
  | .directory entries, path, inside, visited, member => by
      rw [Listing.visited] at member
      rcases List.mem_cons.mp member with rfl | deeper
      · exact inside
      · exact visitedAll_within entries inside visited deeper

theorem visitedAll_within : ∀ (entries : List (EntryName × Listing)) {path : GoString}, Within root path →
    ∀ visited ∈ visitedAll path entries, Within root visited
  | [], _, _, _, member => by simp [visitedAll] at member
  | (name, entry) :: rest, path, inside, visited, member => by
      rw [visitedAll] at member
      rcases List.mem_append.mp member with here | later
      · exact Listing.visited_within entry (inside.child name.property) visited here
      · exact visitedAll_within rest inside visited later

end

mutual

theorem Listing.entered_within : ∀ (entry : Listing) (name : EntryName) {path : GoString}, Within root path →
    ∀ entered ∈ entry.entered path name, Within root entered
  | .other, _, _, _, _, member => by simp [Listing.entered] at member
  | .directory entries, name, path, inside, entered, member => by
      rw [Listing.entered] at member
      split at member
      · simp at member
      · rcases List.mem_cons.mp member with rfl | deeper
        · exact inside
        · exact enteredAll_within entries inside entered deeper

theorem enteredAll_within : ∀ (entries : List (EntryName × Listing)) {path : GoString}, Within root path →
    ∀ entered ∈ enteredAll path entries, Within root entered
  | [], _, _, _, member => by simp [enteredAll] at member
  | (name, entry) :: rest, path, inside, entered, member => by
      rw [enteredAll] at member
      rcases List.mem_append.mp member with here | later
      · exact Listing.entered_within entry name (inside.child name.property) entered here
      · exact enteredAll_within rest inside entered later

end

end Walks

section Loads

variable {host : Host} {files : Files} {root : GoString}

/-- A path is relative and clean, and it has no step up. -/
def Plain (rel : GoString) : Prop :=
  isRooted rel = false ∧ pathClean rel = rel ∧ ∀ name ∈ pathSegments rel, Ordinary name

instance (rel : GoString) : Decidable (Plain rel) := inferInstanceAs (Decidable (_ ∧ _ ∧ _))

theorem Plain.within {rel : GoString} (plain : Plain rel) : Within root (pathJoin [root, rel]) := by
  obtain ⟨relative, clean, named⟩ := plain
  rw [pathClean_eq_render, relative] at clean
  rw [← clean]
  exact within_below root named

theorem candidates_plain : ∀ rel ∈ artifactCandidates, Plain rel := by decide +kernel

/-- This is the directory of a version. -/
def versionPath (root version : GoString) : GoString := pathJoin [root, bytes "workflow", bytes "versions", version]

theorem template_within : Within root (versionPath root templateLabel) := by
  have joined : versionPath root templateLabel = pathJoin [root, bytes "workflow/versions/v-template"] := by
    by_cases empty : root = []
    · subst empty
      decide +kernel
    · have first : (bytes "workflow" != ([] : GoString)) = true := by decide
      have second : (bytes "versions" != ([] : GoString)) = true := by decide
      have third : (templateLabel != ([] : GoString)) = true := by decide
      have whole : (bytes "workflow/versions/v-template" != ([] : GoString)) = true := by decide
      have text : bytes "workflow" ++ slash :: (bytes "versions" ++ slash :: templateLabel) =
          bytes "workflow/versions/v-template" := by decide
      simp [versionPath, pathJoin, empty, first, second, third, whole, List.intercalate_cons_cons, text]
  rw [joined]
  exact Plain.within (by decide +kernel)

/-- The stages of a version lie in its directory. -/
theorem countVersionArtifacts_marks (version : GoString) :
    (∀ mark ∈ (countVersionArtifacts files root version).marks, Within root mark) ↔ Within root (versionPath root version) := by
  unfold countVersionArtifacts
  dsimp only
  cases files.readDir (pathJoin [root, bytes "workflow", bytes "versions", version]) with
  | none => simp [versionPath]
  | some entries =>
      dsimp only
      rw [Traced.forall_marks_bind, Traced.forall_marks_mapEach]
      constructor
      · rintro ⟨here, _⟩
        exact here _ (by simp [versionPath])
      · intro inside
        refine ⟨by simpa [versionPath] using inside, ?_⟩
        intro answer _ before stage after _ _
        rw [Traced.forall_marks_bind]
        refine ⟨?_, by simp⟩
        intro mark member
        exact stage.2.visited_within (inside.child stage.1.property) mark member

theorem countVersionArtifacts_ok (version : GoString) :
    ∃ counts, (countVersionArtifacts files root version).outcome = .ok counts := by
  unfold countVersionArtifacts
  dsimp only
  split
  · exact ⟨[], rfl⟩
  · obtain ⟨counts, counted⟩ := @Traced.mapEach_answers GoString GoString _ _ (fun stage : EntryName × Listing => do
      let count ← countFiles (pathJoin [versionPath root version, stage.1.val]) stage.2
      pure (stage.1.val, count)) _ (fun stage _ => ⟨_, rfl⟩)
    exact ⟨counts, Traced.bind_eq_ok rfl counted⟩

@[simp] theorem readRel_marks (rel : GoString) : (readRel files root rel).marks = [pathJoin [root, rel]] := rfl

theorem readDocument_marks {A : Type} (unmarshal : GoString → Option A) (rel : GoString) :
    (readDocument unmarshal files root rel).marks = [pathJoin [root, rel]] := by
  unfold readDocument readRel
  cases files.readFile (pathJoin [root, rel]) with
  | none => rfl
  | some content =>
      cases parsed : unmarshal content with
      | none => simp [bind, Traced.andThen, Traced.leave, Traced.fail, parsed]
      | some found => simp [bind, Traced.andThen, Traced.leave, parsed]

/-- A document is read if its file is there and can be parsed. -/
theorem readDocument_ok {A : Type} {unmarshal : GoString → Option A} {rel : GoString} {document : A} :
    (readDocument unmarshal files root rel).outcome = .ok document ↔
      (files.readFile (pathJoin [root, rel])).bind unmarshal = some document := by
  unfold readDocument readRel
  cases files.readFile (pathJoin [root, rel]) with
  | none => simp [bind, Traced.andThen, Traced.leave]
  | some content =>
      cases parsed : unmarshal content with
      | none => simp [bind, Traced.andThen, Traced.leave, Traced.fail, parsed]
      | some found => simp [bind, Traced.andThen, Traced.leave, parsed]

/-- The ledger of a version can be read. -/
def Readable (host : Host) (files : Files) (root : GoString) (linked : VersionResidualLink) : Prop :=
  ∃ ledger, (files.readFile (pathJoin [root, linked.source])).bind host.yaml.versionLedger = some ledger

theorem loadVersion_marks (linked : VersionResidualLink) :
    (∀ mark ∈ (loadVersion host files root linked).marks, Within root mark) ↔
      Within root (pathJoin [root, linked.source]) ∧
        (Readable host files root linked → Within root (versionPath root linked.version)) := by
  unfold loadVersion
  rw [Traced.forall_marks_bind, readYAML, readDocument_marks]
  simp only [List.mem_singleton, forall_eq, readDocument_ok]
  apply and_congr_right
  intro source
  constructor
  · rintro all ⟨ledger, read⟩
    have later := all ledger read
    rw [Traced.forall_marks_bind] at later
    have last := later.2 _ rfl
    rw [Traced.forall_marks_bind] at last
    exact (countVersionArtifacts_marks linked.version).mp last.1
  · intro inside ledger read
    rw [Traced.forall_marks_bind]
    refine ⟨?_, fun hash _ => ?_⟩
    · intro mark member
      rw [Traced.marks_attempt, fileHash] at member
      have same : ∀ mark ∈ (fileHash host files root linked.source).marks, Within root mark := by
        rw [fileHash, Traced.forall_marks_bind]
        simpa using source
      exact same mark member
    · rw [Traced.forall_marks_bind]
      exact ⟨(countVersionArtifacts_marks linked.version).mpr (inside ⟨ledger, read⟩), by simp⟩

theorem loadVersion_answers (linked : VersionResidualLink) :
    (∃ answer, (loadVersion host files root linked).outcome = .ok answer) ↔ Readable host files root linked := by
  constructor
  · rintro ⟨answer, done⟩
    obtain ⟨ledger, read, _⟩ := Traced.bind_ok done
    exact ⟨ledger, readDocument_ok.mp read⟩
  · rintro ⟨ledger, read⟩
    obtain ⟨counts, counted⟩ : ∃ counts, (countVersionArtifacts files root linked.version).outcome = .ok counts :=
      countVersionArtifacts_ok linked.version
    exact ⟨_, Traced.bind_eq_ok (readDocument_ok.mpr read)
      (Traced.bind_eq_ok (Traced.outcome_attempt _) (Traced.bind_eq_ok counted rfl))⟩

theorem addTemplateVersion_within : ∀ mark ∈ (addTemplateVersion host files root).marks, Within root mark := by
  unfold addTemplateVersion
  rw [Traced.forall_marks_bind]
  refine ⟨?_, fun found _ => ?_⟩
  · rw [Traced.marks_attempt, fileHash, Traced.forall_marks_bind]
    have source : Within root (pathJoin [root, templateSource]) := Plain.within (by decide +kernel)
    simpa using source
  · cases found with
    | none => simp
    | some hash =>
        rw [Traced.forall_marks_bind]
        exact ⟨(countVersionArtifacts_marks templateLabel).mpr template_within, by simp⟩

theorem addArtifacts_within : ∀ mark ∈ (addArtifacts host files root).marks, Within root mark := by
  unfold addArtifacts
  rw [Traced.forall_marks_bind, Traced.forall_marks_mapEach]
  refine ⟨?_, by simp⟩
  intro before rel after split _
  have listed : rel ∈ artifactCandidates := by simp [split]
  rw [Traced.marks_attempt, artifactFor, Traced.forall_marks_bind]
  simpa using (candidates_plain rel listed).within

theorem countDoneTasks_within {path : GoString} (inside : Within root path) :
    ∀ mark ∈ (countDoneTasks files path).marks, Within root mark := by
  unfold countDoneTasks
  split
  · rename_i entries _
    intro mark member
    rcases List.mem_cons.mp member with rfl | deeper
    · exact inside
    · exact enteredAll_within entries inside mark deeper
  · simp

theorem loadTaskSummary_within : ∀ mark ∈ (loadTaskSummary host files root).marks, Within root mark := by
  have active : Within root (pathJoin [root, bytes "tasks/active"]) := Plain.within (by decide +kernel)
  have done : Within root (pathJoin [root, bytes "tasks/done"]) := Plain.within (by decide +kernel)
  have packages : Within root (pathJoin [root, bytes "tasks/backlog/prompts"]) := Plain.within (by decide +kernel)
  have progress : Within root (pathJoin [root, progressPath]) := Plain.within (by decide +kernel)
  unfold loadTaskSummary
  rw [Traced.forall_marks_bind]
  refine ⟨by simpa [countDirs] using active, fun _ _ => ?_⟩
  rw [Traced.forall_marks_bind]
  refine ⟨countDoneTasks_within done, fun _ _ => ?_⟩
  rw [Traced.forall_marks_bind]
  refine ⟨by simpa [countDirs] using packages, fun _ _ => ?_⟩
  rw [Traced.forall_marks_bind, readJSON, readDocument_marks]
  exact ⟨by simpa using progress, by simp⟩

/-- A load stays in its project exactly when, for every version of the ledger that is reached, the path of its source
and, if that can be read, the directory of its label lie in the project. -/
theorem load_confined_iff (host : Host) (files : Files) (root : GoString) :
    (∀ path ∈ (load host files root).marks, Within root path) ↔
      ∀ ledger, (files.readFile (pathJoin [root, ledgerPath])).bind host.yaml.residualLedger = some ledger →
        ∀ before linked after, ledger.versionResiduals = before ++ linked :: after →
          (∀ earlier ∈ before, Readable host files root earlier) →
          Within root (pathJoin [root, linked.source]) ∧
            (Readable host files root linked → Within root (versionPath root linked.version)) := by
  have ledgerInside : Within root (pathJoin [root, ledgerPath]) := Plain.within (by decide +kernel)
  unfold load
  rw [Traced.forall_marks_bind, readYAML, readDocument_marks]
  simp only [List.mem_singleton, forall_eq, ledgerInside, true_and, readDocument_ok]
  apply forall₂_congr
  intro ledger _
  rw [Traced.forall_marks_bind, Traced.forall_marks_mapEach]
  simp only [loadVersion_answers, loadVersion_marks]
  apply and_iff_left
  intro loaded _
  rw [Traced.forall_marks_bind]
  refine ⟨addTemplateVersion_within, fun template _ => ?_⟩
  rw [Traced.forall_marks_bind]
  refine ⟨addArtifacts_within, fun artifacts _ => ?_⟩
  rw [Traced.forall_marks_bind]
  exact ⟨loadTaskSummary_within, by simp⟩

/-- This ledger names one version with its source. -/
def ledgerText (version source : GoString) : GoString :=
  bytes "version_residuals:\n- version: " ++ version ++ bytes "\n  source: " ++ source ++ bytes "\n  status: active\n"

/-- This is the document of a version with one residual. -/
def residualText : GoString := bytes "version_status:\n  phase: build\nitems:\n- id: r1\n  status: open\n  title: gap\n"

/-- This host decodes the ledger of one version and the document of the version. -/
def oneVersion (version source : GoString) : Host where
  yaml :=
    { residualLedger := fun text =>
        if text = ledgerText version source then
          some { items := [], versionResiduals := [{ version, source, status := bytes "active" }] }
        else none
      versionLedger := fun text =>
        if text = residualText then
          some { versionStatus := some (.object [(bytes "phase", .string (bytes "build"))])
                 items := [{ id := bytes "r1", status := bytes "open", title := bytes "gap" }] }
        else none }
  tables := asciiCase
  sha256Hex := Json.digest

/-- These files have the listed contents; there are no directories. -/
def listedFiles (contents : List (GoString × GoString)) : Files where
  readFile path := contents.lookup path
  readDir _ := none
  lstat _ := none

/-- The ledger of the project names a file outside of it. -/
def passwdFiles : Files :=
  listedFiles
    [(bytes "/r/workflow/residuals/residuals.yaml", ledgerText (bytes "v1") (bytes "../etc/passwd")),
      (bytes "/etc/passwd", bytes "root:x:0:0:root:/root:/bin/sh\n")]

/-- The source of the version lies outside of the project, and it is opened. -/
theorem passwd_opened :
    bytes "/etc/passwd" ∈ (load (oneVersion (bytes "v1") (bytes "../etc/passwd")) passwdFiles (bytes "/r")).marks ∧
      ¬Within (bytes "/r") (bytes "/etc/passwd") := by
  refine ⟨by decide +kernel, ?_⟩
  rintro ⟨_, names, _, split⟩
  have root : pathSegments (bytes "/r") = [bytes "r"] := by decide +kernel
  have path : pathSegments (bytes "/etc/passwd") = [bytes "etc", bytes "passwd"] := by decide +kernel
  rw [root, path] at split
  have head : bytes "etc" = bytes "r" := (List.cons.inj split).1
  revert head
  decide

end Loads

end AreaFlow.AreaMatrix
