import AreaFlow.Construction.Project.Queue

namespace AreaFlow.Project
open Go

/-- A relative path stays strictly below its base. -/
def staysBelow (rel : GoString) : Bool :=
  !(rel == bytes "." || hasPrefix rel (bytes "../") || rel == bytes ".." || rel.head? == some slash)

/-- This is the content of a file with its hash and its size. -/
structure FileImage where
  content : GoString
  sha256 : GoString
  sizeBytes : Nat
  deriving DecidableEq

/-- This is the largest file that an operation reads. -/
def maxProjectFileBytes : Nat := 2 * 1024 * 1024

section Paths

variable {Files : Type} (env : Env Files) (files : Files)

/-- The two path checks resolve the root and the target; they differ in what they ask of the target first. -/
def resolveBelow (root target comparing : GoString) (accept : GoString → Except GoString Unit) (resolving : GoString) :
    Except GoString GoString := do
  if trimSpace root = [] then .error (bytes "project root is empty")
  else if normalizeProjectRelativePath target = [] then .error (bytes "target path must stay under project root")
  else
    let rootReal ← (env.evalSymlinks root files).mapError fun failure => bytes "resolve project root: " ++ failure
    let full := pathJoin [rootReal, normalizeProjectRelativePath target]
    accept full
    let fullReal ← (env.evalSymlinks full files).mapError fun failure => resolving ++ bytes ": " ++ failure
    match pathRel rootReal fullReal with
    | none => .error comparing
    | some rel => if staysBelow rel then .ok fullReal else .error (bytes "target path escapes project root")

def safeProjectReadPath (root target : GoString) : Except GoString GoString :=
  resolveBelow env files root target (bytes "compare target path") (fun _ => .ok ()) (bytes "resolve target path")

/-- A file that is written must exist, and it is neither a directory nor a symbolic link. -/
def writableTarget (full : GoString) : Except GoString Unit := do
  let info ← (env.lstat full files).mapError fun failure => bytes "fixture target must already exist: " ++ failure
  if info.isDir then .error (bytes "fixture target must be a file")
  else if info.isSymlink then .error (bytes "symlink target is not supported")
  else .ok ()

def safeFixtureProjectWritePath (root target : GoString) : Except GoString GoString :=
  resolveBelow env files root target (bytes "compare fixture target path") (writableTarget env files)
    (bytes "resolve fixture target")

/-- This function reads a file whose texts call it by a name. -/
def readFileImage (name path : GoString) : Except GoString FileImage := do
  let info ← (env.stat path files).mapError fun failure => bytes "stat " ++ name ++ bytes " target: " ++ failure
  if info.isDir then .error (name ++ bytes " target must be a file")
  else if maxProjectFileBytes < info.size then .error (name ++ bytes " target exceeds 2097152 bytes")
  else
    let content ← (env.readFile path files).mapError fun failure => bytes "read " ++ name ++ bytes " target: " ++ failure
    .ok ⟨content, env.codec.sha256Hex content, content.length⟩

def readProjectFileForVerify (path : GoString) : Except GoString FileImage := readFileImage env files (bytes "verify") path

def readFixtureProjectFileImage (path : GoString) : Except GoString FileImage :=
  readFileImage env files (bytes "fixture") path

end Paths

section Steps

variable {Files : Type} (env : Env Files)

/-- This step looks at the files; a failure ends the operation. -/
abbrev inspect {A : Type} (read : Files → Except GoString A) : Command Files A :=
  Tx.act fun files =>
    match read files with
    | .error failure => (files, .error (.failed failure))
    | .ok answer => (files, .ok answer)

/-- This step looks at the files; a failure is part of its answer. -/
abbrev observe {A : Type} (read : Files → Except GoString A) : Command Files (Except GoString A) :=
  Tx.act fun files => (files, .ok (read files))

/-- This step writes a file of a project. -/
abbrev overwrite (path content failing : GoString) : Command Files Unit :=
  Tx.act fun files =>
    match env.writeFile path content files with
    | (files', .error failure) => (files', .error (.failed (failing ++ bytes ": " ++ failure)))
    | (files', .ok ()) => (files', .ok ())

/-- A write set is usable if it modifies one file and says what it expects. -/
def checkWriteSet (operation : Operation) (writeSet : WriteSet) : Except StoreError Unit :=
  if writeSet.operation ≠ bytes "modify" then .error (.failed (bytes "only modify operation is supported"))
  else if operation = .managedGeneratedWrite ∧
      (writeSet.generatedOnly = false ∨ isManagedGeneratedPath writeSet.targetPath = false) then
    .error (.failed (bytes "write-set artifact is not generated-only"))
  else if writeSet.targetPath = [] ∨ writeSet.expectedBeforeSHA256 = [] ∨ writeSet.afterSHA256 = [] then
    .error (.failed (bytes "write-set artifact is incomplete"))
  else .ok ()

/-- This step loads the write set that a task names. -/
def loadWriteSet (operation : Operation) (projectID artifactID : ID) : Command Files (WriteSet × ArtifactRow) :=
  if artifactID ≤ 0 then Tx.fail (.failed (bytes "write-set artifact id is required"))
  else do
    let artifact ← loadArtifactByIDTx projectID artifactID
    let writeSet ← inspect fun files => do
      let content ← env.readArtifact artifact files
      env.parseWriteSet content
    Tx.check fun _ => checkWriteSet operation writeSet
    pure (writeSet, artifact)

end Steps

end AreaFlow.Project
