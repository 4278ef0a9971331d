import AreaFlow.Library.CleanPath
import AreaFlow.Library.JsonText
import AreaFlow.Library.Traced

namespace AreaFlow.AreaMatrix
open Go

section Files

/-- A directory entry has a name of its own. -/
abbrev EntryName := { name : GoString // Ordinary name }

/-- This is an entry of a directory as a walk sees it: a directory with the entries that can be listed, or anything else.
A link is not followed. -/
inductive Listing where
  | other
  | directory (entries : List (EntryName × Listing))

/-- These are the answers of the file system to the calls of a load. A directory is listed in the order of its names. -/
structure Files where
  readFile : GoString → Option GoString
  readDir : GoString → Option (List (EntryName × Listing))
  lstat : GoString → Option Listing

/-- A load leaves the paths of the files that it opens and of the directories that it lists. -/
abbrev Loading := Traced GoString GoString

def Listing.isDir : Listing → Bool
  | .other => false
  | .directory _ => true

/-- This function is `os.ReadFile` on a path below a root. -/
def readRel (files : Files) (root rel : GoString) : Loading GoString :=
  .leave (pathJoin [root, rel]) (match files.readFile (pathJoin [root, rel]) with
    | none => .error (bytes "read " ++ rel)
    | some content => .ok content)

mutual

/-- These are the directories that a walk lists. -/
def Listing.visited (path : GoString) : Listing → List GoString
  | .other => []
  | .directory entries => path :: visitedAll path entries

def visitedAll (path : GoString) : List (EntryName × Listing) → List GoString
  | [] => []
  | (name, entry) :: rest => entry.visited (pathJoin [path, name.val]) ++ visitedAll path rest

end

mutual

/-- This is the number of entries that are no directories. -/
def Listing.fileCount : Listing → Nat
  | .other => 1
  | .directory entries => fileCountAll entries

def fileCountAll : List (EntryName × Listing) → Nat
  | [] => 0
  | (_, entry) :: rest => entry.fileCount + fileCountAll rest

end

def countFiles (root : GoString) (entry : Listing) : Loading Nat := ⟨entry.visited root, .ok entry.fileCount⟩

def countDirs (files : Files) (root : GoString) : Loading Nat :=
  .leave root (.ok (((files.readDir root).getD []).countP (·.2.isDir)))

/-- The name of a finished task has a dot. -/
def isTask (name : EntryName) : Bool := name.val.contains 46

mutual

/-- A task is counted and not entered. -/
def Listing.doneCount (name : EntryName) : Listing → Nat
  | .other => 0
  | .directory entries => if isTask name then 1 else doneCountAll entries

def doneCountAll : List (EntryName × Listing) → Nat
  | [] => 0
  | (name, entry) :: rest => entry.doneCount name + doneCountAll rest

end

mutual

def Listing.entered (path : GoString) (name : EntryName) : Listing → List GoString
  | .other => []
  | .directory entries => if isTask name then [] else path :: enteredAll path entries

def enteredAll (path : GoString) : List (EntryName × Listing) → List GoString
  | [] => []
  | (name, entry) :: rest => entry.entered (pathJoin [path, name.val]) name ++ enteredAll path rest

end

def countDoneTasks (files : Files) (root : GoString) : Loading Nat :=
  match files.lstat root with
  | some (.directory entries) => ⟨root :: enteredAll root entries, .ok (doneCountAll entries)⟩
  | _ => ⟨[], .ok 0⟩

end Files

section Documents

structure ResidualItem where
  id : GoString := []
  status : GoString := []
  type : GoString := []
  title : GoString := []
  source : GoString := []
  currentImpact : GoString := []
  executableTask : Bool := false
  promotionRequired : Bool := false
  closeCondition : GoString := []
  owner : GoString := []
  blocker : GoString := []
  supportingSources : List GoString := []
  validation : List GoString := []
  notes : GoString := []
  deriving DecidableEq

structure VersionResidualLink where
  version : GoString
  source : GoString
  status : GoString
  deriving DecidableEq

structure ResidualLedger where
  items : List ResidualItem
  versionResiduals : List VersionResidualLink
  deriving DecidableEq

/-- The status of a version is missing if it has no JSON form. -/
structure VersionResidualLedger where
  versionStatus : Option Json.Value
  items : List ResidualItem

/-- This is the YAML package on the two kinds of documents. -/
structure Yaml where
  residualLedger : GoString → Option ResidualLedger
  versionLedger : GoString → Option VersionResidualLedger

/-- A document of the project is read and decoded. -/
def readDocument {A : Type} (unmarshal : GoString → Option A) (files : Files) (root rel : GoString) : Loading A := do
  let content ← readRel files root rel
  match unmarshal content with
  | none => .fail (bytes "parse " ++ rel)
  | some document => pure document

def readYAML {A : Type} (unmarshal : GoString → Option A) (files : Files) (root rel : GoString) : Loading A :=
  readDocument unmarshal files root rel

/-- The tasks of a progress file under their keys. -/
abbrev Tasks := List (GoString × GoString)

/-- A map entry replaces the one with its key. -/
def setEntry {A : Type} (entries : List (GoString × A)) (key : GoString) (value : A) : List (GoString × A) :=
  entries.filter (·.1 != key) ++ [(key, value)]

def setTasks (tables : CaseTables) : Json.Setter Tasks
  | old, .object members => members.foldlM (fun tasks member => do
      let status ← Json.setStruct tables [(bytes "status", Json.setText)] [] member.2
      some (setEntry tasks member.1 status)) old
  | _, .null => some []
  | _, _ => none

/-- This function is `json.Unmarshal` into the tasks of a progress file. -/
def unmarshalProgress (tables : CaseTables) (text : GoString) : Option Tasks :=
  Json.unmarshal (Json.setStruct tables [(bytes "tasks", setTasks tables)]) [] text

def readJSON (tables : CaseTables) (files : Files) (root rel : GoString) : Loading Tasks :=
  readDocument (unmarshalProgress tables) files root rel

end Documents

section Snapshot

structure Version where
  label : GoString
  lifecycle : GoString
  sourcePath : GoString
  sourceHash : GoString
  immutable : Bool
  statusSummary : Option Json.Value
  artifactCounts : List (GoString × Nat)

structure Residual where
  key : GoString
  versionLabel : GoString
  status : GoString
  type : GoString
  title : GoString
  sourcePath : GoString
  currentImpact : GoString
  executableTask : Bool
  promotionRequired : Bool
  closeCondition : GoString
  immutable : Bool
  metadata : Json.Value

structure Artifact where
  type : GoString
  versionLabel : GoString
  sourcePath : GoString
  sha256 : GoString
  sizeBytes : Nat
  contentType : GoString
  metadata : Json.Value

structure TaskSummary where
  activeCount : Nat
  doneCount : Nat
  backlogPackages : Nat
  backlogOpen : Nat
  backlogClosed : Nat
  v1ExecutionTotal : Nat
  v1ExecutionDone : Nat
  v1ExecutionStatus : List (GoString × Nat)
  deriving DecidableEq

/-- This is what a load reads besides the files of its project. -/
structure Host where
  yaml : Yaml
  tables : CaseTables
  sha256Hex : GoString → GoString

/-- A text of an item is in its metadata unless it is empty. -/
def textField (name value : GoString) : List (GoString × Json.Value) :=
  if value = [] then [] else [(name, .string value)]

def listField (name : GoString) (values : List GoString) : List (GoString × Json.Value) :=
  if values = [] then [] else [(name, .array (values.map .string))]

def convertResidual (item : ResidualItem) (versionLabel : GoString) (immutable : Bool) : Residual where
  key := item.id
  versionLabel := versionLabel
  status := item.status
  type := item.type
  title := item.title
  sourcePath := item.source
  currentImpact := item.currentImpact
  executableTask := item.executableTask
  promotionRequired := item.promotionRequired
  closeCondition := item.closeCondition
  immutable := immutable
  metadata := .object (textField (bytes "blocker") item.blocker ++ textField (bytes "notes") item.notes ++
    textField (bytes "owner") item.owner ++ listField (bytes "supporting_sources") item.supportingSources ++
    listField (bytes "validation") item.validation)

variable (host : Host) (files : Files) (root : GoString)

def fileHash (rel : GoString) : Loading GoString := do
  let content ← readRel files root rel
  pure (host.sha256Hex content)

/-- Every directory of a version is a stage with its files. -/
def countVersionArtifacts (version : GoString) : Loading (List (GoString × Nat)) :=
  let base := pathJoin [root, bytes "workflow", bytes "versions", version]
  match files.readDir base with
  | none => .leave base (.ok [])
  | some entries => do
      Traced.leave base (.ok ())
      Traced.mapEach (fun stage => do
        let count ← countFiles (pathJoin [base, stage.1.val]) stage.2
        pure (stage.1.val, count)) (entries.filter (·.2.isDir))

/-- The first version keeps its history. -/
def firstVersion : GoString := bytes "v1-mvp"

/-- This is the part of a load for one version of the ledger. -/
def loadVersion (linked : VersionResidualLink) : Loading (Version × List Residual) := do
  let ledger ← readYAML host.yaml.versionLedger files root linked.source
  let hash ← (fileHash host files root linked.source).attempt
  let counts ← countVersionArtifacts files root linked.version
  let immutable := linked.version = firstVersion
  pure (
    { label := linked.version, lifecycle := linked.status, sourcePath := linked.source, sourceHash := hash.getD []
      immutable := immutable, statusSummary := ledger.versionStatus, artifactCounts := counts },
    ledger.items.map fun item => convertResidual item linked.version immutable)

def templateSource : GoString := bytes "workflow/versions/v-template/README.md"

def templateLabel : GoString := bytes "v-template"

def templateOnly : GoString := bytes "template-only"

/-- The template is a version if its description can be read. -/
def addTemplateVersion : Loading (List Version) := do
  match ← (fileHash host files root templateSource).attempt with
  | none => pure []
  | some hash =>
      let counts ← countVersionArtifacts files root templateLabel
      pure [
        { label := templateLabel, lifecycle := templateOnly, sourcePath := templateSource, sourceHash := hash
          immutable := false, statusSummary := some (.object [(bytes "template_only", .bool true)])
          artifactCounts := counts }]

def progressPath : GoString := bytes "workflow/versions/v1-mvp/execution/_shared/progress.json"

def ledgerPath : GoString := bytes "workflow/residuals/residuals.yaml"

def artifactCandidates : List GoString :=
  [ledgerPath, bytes "workflow/versions/v1-mvp/residuals/residuals.yaml", progressPath, bytes "tasks/indexes/residuals.md",
    bytes "tasks/backlog/README.md", templateSource]

def artifactType (path : GoString) : GoString :=
  if hasSuffix path (bytes "progress.json") then bytes "progress"
  else if containsText path (bytes "residual") then bytes "residual_index"
  else if containsText path (bytes "backlog") then bytes "task_index"
  else bytes "source_file"

def versionFromParts : List GoString → GoString
  | part :: next :: rest => if part = bytes "versions" then next else versionFromParts (next :: rest)
  | _ => []

def versionFromPath (path : GoString) : GoString := versionFromParts (split slash path)

def contentType (path : GoString) : GoString :=
  if hasSuffix path (bytes ".yaml") || hasSuffix path (bytes ".yml") then bytes "application/yaml"
  else if hasSuffix path (bytes ".json") then bytes "application/json"
  else if hasSuffix path (bytes ".md") then bytes "text/markdown"
  else bytes "application/octet-stream"

/-- The size of a file is the length of its content. -/
def artifactFor (rel : GoString) : Loading Artifact := do
  let content ← readRel files root rel
  pure
    { type := artifactType rel, versionLabel := versionFromPath rel, sourcePath := rel
      sha256 := host.sha256Hex content, sizeBytes := content.length, contentType := contentType rel
      metadata := .object [] }

/-- A candidate that cannot be read is left out. -/
def addArtifacts : Loading (List Artifact) := do
  let found ← Traced.mapEach (fun rel => (artifactFor host files root rel).attempt) artifactCandidates
  pure (found.filterMap id)

/-- This is the order of the keys of a map in its JSON form. -/
def before : GoString → GoString → Bool
  | [], [] => false
  | [], _ :: _ => true
  | _ :: _, [] => false
  | a :: first, b :: second => a < b || a == b && before first second

/-- One more is counted under a key. The keys are kept in order. -/
def countKey (key : GoString) : List (GoString × Nat) → List (GoString × Nat)
  | [] => [(key, 1)]
  | (other, count) :: rest =>
      if other = key then (other, count + 1) :: rest
      else if before key other then (key, 1) :: (other, count) :: rest
      else (other, count) :: countKey key rest

def loadTaskSummary : Loading TaskSummary := do
  let active ← countDirs files (pathJoin [root, bytes "tasks/active"])
  let done ← countDoneTasks files (pathJoin [root, bytes "tasks/done"])
  let packages ← countDirs files (pathJoin [root, bytes "tasks/backlog/prompts"])
  let tasks ← readJSON host.tables files root progressPath
  pure
    { activeCount := active, doneCount := done, backlogPackages := packages, backlogOpen := 0, backlogClosed := packages
      v1ExecutionTotal := tasks.length, v1ExecutionDone := tasks.countP (·.2 == bytes "completed")
      v1ExecutionStatus := tasks.foldl (fun counts task => countKey task.2 counts) [] }

/-- This is the JSON form of counts under their keys. -/
def marshalCounts (counts : List (GoString × Nat)) : GoString :=
  Json.object (counts.map fun entry => (entry.1, bytes (toString entry.2)))

def marshalFlag (value : Bool) : GoString := if value then bytes "true" else bytes "false"

/-- The template and versions that are only templates are not in a summary. -/
def Version.listed (version : Version) : Bool := version.label != templateLabel && version.lifecycle != templateOnly

def marshalVersion (version : Version) : GoString :=
  Json.object
    [(bytes "artifact_counts", marshalCounts version.artifactCounts), (bytes "display_label", Json.quote version.label),
      (bytes "immutable_history", marshalFlag version.immutable),
      (bytes "lifecycle_status", Json.quote version.lifecycle), (bytes "source_path", Json.quote version.sourcePath),
      (bytes "version_kind", Json.quote (bytes "workflow_version"))]

def marshalTasks (summary : TaskSummary) : GoString :=
  Json.object
    [(bytes "active", bytes (toString summary.activeCount)), (bytes "backlog_closed", bytes (toString summary.backlogClosed)),
      (bytes "backlog_open", bytes (toString summary.backlogOpen)),
      (bytes "backlog_packages", bytes (toString summary.backlogPackages)),
      (bytes "done", bytes (toString summary.doneCount))]

def marshalExecution (summary : TaskSummary) : GoString :=
  Json.object
    [(bytes "done", bytes (toString summary.v1ExecutionDone)), (bytes "status", marshalCounts summary.v1ExecutionStatus),
      (bytes "total", bytes (toString summary.v1ExecutionTotal))]

/-- This is the JSON form of the status summary of a project. -/
def buildStatusSummary (versions : List Version) (residuals : List Residual) (summary : TaskSummary) : GoString :=
  Json.object
    [(bytes "project", Json.quote (bytes "areamatrix")), (bytes "residual_count", bytes (toString residuals.length)),
      (bytes "tasks", marshalTasks summary), (bytes "v1_execution", marshalExecution summary),
      (bytes "version_count", bytes (toString versions.length)),
      (bytes "versions", Json.list ((versions.filter (·.listed)).map marshalVersion))]

structure Snapshot where
  root : GoString
  versions : List Version
  residuals : List Residual
  artifacts : List Artifact
  taskSummary : TaskSummary
  statusSummary : GoString
  statusSourceHash : GoString

/-- This function is `areamatrix.Load`. -/
def load : Loading Snapshot := do
  let ledger ← readYAML host.yaml.residualLedger files root ledgerPath
  let loaded ← Traced.mapEach (loadVersion host files root) ledger.versionResiduals
  let template ← addTemplateVersion host files root
  let artifacts ← addArtifacts host files root
  let tasks ← loadTaskSummary host files root
  let versions := loaded.map (·.1) ++ template
  let residuals := ledger.items.map (fun item => convertResidual item [] false) ++ loaded.flatMap (·.2)
  let summary := buildStatusSummary versions residuals tasks
  pure
    { root := root, versions := versions, residuals := residuals, artifacts := artifacts, taskSummary := tasks
      statusSummary := summary, statusSourceHash := host.sha256Hex summary }

end Snapshot

end AreaFlow.AreaMatrix
