import AreaFlow.Construction.Artifact.Backend
import AreaFlow.Construction.Project.ArtifactMigration

namespace AreaFlow.Project
open Go Artifact

/-- The content of an artifact is a file or an object in the bucket. -/
inductive Place where
  | file (path : GoString)
  | object (key : GoString)
  deriving DecidableEq

/-- These are the contents of all places. -/
abbrev Stores := Place → Option GoString

/-- A write fails with a text. It may have changed its place before: a file then has only some of the bytes, and an object
has all of them. -/
structure WriteFault where
  failure : GoString
  written : Option Nat
  deriving DecidableEq

/-- This function writes to a place. -/
def Stores.put (stores : Stores) (place : Place) (content : GoString) (fault : Option WriteFault) :
    Stores × Except GoString Unit :=
  match fault with
  | none => (Function.update stores place (some content), .ok ())
  | some ⟨failure, none⟩ => (stores, .error failure)
  | some ⟨failure, some count⟩ =>
      let left :=
        match place with
        | .file _ => content.take count
        | .object _ => content
      (Function.update stores place (some left), .error failure)

/-- This record holds what the two backends use of their host: the hash, the home directory, the file that a path names, the
bucket, and the parser of an object address. -/
structure StoreHost where
  sha256Hex : GoString → GoString
  lowerText : GoString → GoString
  quote : GoString → GoString
  home : Option GoString
  resolve : GoString → GoString
  bucket : GoString
  parseS3URI : GoString → Except GoString (GoString × GoString)

section Backends

variable (host : StoreHost)

/-- This is the place that a backend reads for an address. -/
def StoreHost.place (backend uri : GoString) : Except GoString Place :=
  let name := host.lowerText (trimSpace backend)
  if name = bytes "local" then
    if trimSpace uri = [] then .error (bytes "local artifact URI is required")
    else .ok (.file (host.resolve (trimSpace uri)))
  else if name = bytes "s3" ∨ name = bytes "object" then do
    let (bucket, key) ← host.parseS3URI uri
    if bucket ≠ host.bucket then
      .error (bytes "S3 artifact bucket " ++ host.quote bucket ++ bytes " is outside configured bucket")
    else .ok (.object key)
  else .error (bytes "artifact backend " ++ host.quote backend ++ bytes " does not expose content")

def StoreHost.readConfigured (backend uri : GoString) (stores : Stores) : Except GoString GoString := do
  let place ← host.place backend uri
  match place, stores place with
  | _, some content => .ok content
  | .file _, none => .error (bytes "read local artifact: no such file or directory")
  | .object _, none => .error (bytes "get S3 artifact: no such key")

/-- This is the place that a backend writes for a path, with its name and its address. -/
def StoreHost.target (backend root relativePath : GoString) : Except GoString (GoString × GoString × Place) := do
  let clean ← safeRelativePath relativePath
  let name := host.lowerText (trimSpace backend)
  if name = [] ∨ name = bytes "local" then do
    let path ← localTarget host.home root clean
    .ok (bytes "local", path, .file (host.resolve path))
  else if name = bytes "s3" ∨ name = bytes "object" then
    let key := trimByte slash (trimSpace (pathJoin [trimByte slash root, clean]))
    if key = [] ∨ containsText key (bytes "../") = true then .error (bytes "valid S3 artifact key is required")
    else .ok (bytes "s3", bytes "s3://" ++ host.bucket ++ slash :: key, .object key)
  else .error (bytes "unsupported artifact backend " ++ host.quote backend)

/-- This is the place that `writeProjectArtifact` writes for a path of a project. -/
def StoreHost.projectTarget (backend root projectKey relativePath : GoString) :
    Except GoString (GoString × GoString × Place) := do
  let below ← projectRelativePath projectKey relativePath
  host.target backend root below

def StoreHost.writeConfigured (backend root relativePath content contentType : GoString) (fault : Option WriteFault)
    (stores : Stores) : Stores × Except GoString Stored :=
  match host.target backend root relativePath with
  | .error failure => (stores, .error failure)
  | .ok (name, uri, place) =>
      match stores.put place content fault with
      | (after, .error failure) => (after, .error failure)
      | (after, .ok ()) =>
          (after, .ok { backend := name, uri := uri, sha256 := host.sha256Hex content, sizeBytes := content.length,
                        contentType := contentType })

/-- A migration sees the stores at one moment, and its write has one outcome. -/
def StoreHost.seen (stores : Stores) (outcome : Except GoString Stored) : MigrationHost where
  sha256Hex := host.sha256Hex
  writeConfigured := fun _ _ _ _ _ => outcome
  readConfigured := fun backend uri => host.readConfigured backend uri stores
  lowerText := host.lowerText
  quote := host.quote

end Backends

/-- These are the faults of a copy: of its write, of its reading back, and of its transaction. -/
structure CopyFaults where
  write : Option WriteFault := none
  readback : Option GoString := none
  database : Option GoString := none
  deriving DecidableEq

section Copy

variable (host : StoreHost) (record : ProjectRow) (source : ArtifactRow) (options : CopyArtifactOptions)

/-- These are the checks of a copy before its write. The answer is the content, its type, and the path below the root. -/
def prepareCopy (stores : Stores) : Except GoString (GoString × GoString × GoString) := do
  let seen := host.seen stores (.error [])
  if record.id ≤ 0 ∨ source.id ≤ 0 then .error (bytes "project id and artifact id are required")
  else if normalizedArtifactBackend seen options.targetBackend = [] ∨ trimSpace options.actor = [] ∨
      trimSpace options.reason = [] then
    .error (bytes "target backend, actor and reason are required")
  else if source.projectID ≠ record.id then .error (bytes "artifact not found")
  else do
    let (content, contentType) ← readArtifactRecordContent seen source
    let relativePath ← artifactMigrationRelativePath record source
    .ok (content, contentType, relativePath)

/-- The copy is compared with the row of the artifact, read back, and compared again. -/
def verifyCopy (fault : Option GoString) (stored : Stored) (stores : Stores) : Except GoString Unit := do
  verifyMigrated source stored.sha256 stored.sizeBytes (bytes "migrated artifact")
  let found : Except GoString GoString :=
    match fault with
    | some failure => .error failure
    | none => host.readConfigured stored.backend stored.uri stores
  let readback ← found.mapError fun failure => bytes "read back migrated artifact: " ++ failure
  verifyMigrated source (host.sha256Hex readback) readback.length (bytes "migrated artifact readback")

/-- This operation copies an artifact between stores. Its rows are those of the copy on a host that sees the stores after
the write. -/
def copyBetweenStores (faults : CopyFaults) (now : Time) (stores : Stores) (tables : ArtifactTables) :
    Stores × Except GoString ArtifactTables :=
  match prepareCopy host record source options stores with
  | .error failure => (stores, .error failure)
  | .ok (content, contentType, relativePath) =>
      let backend := normalizedArtifactBackend (host.seen stores (.error [])) options.targetBackend
      match host.writeConfigured backend options.targetRoot relativePath content contentType faults.write stores with
      | (after, .error failure) => (after, .error (bytes "copy artifact to " ++ backend ++ bytes ": " ++ failure))
      | (after, .ok stored) =>
          (after, do
            verifyCopy host source faults.readback stored after
            match faults.database with
            | some failure => .error failure
            | none => copyArtifactToBackend (host.seen after (.ok stored)) now record source options tables)

end Copy

end AreaFlow.Project
