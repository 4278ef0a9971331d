import AreaFlow.Library.Symlinks
import AreaFlow.Proof.Permissions
import AreaFlow.Proof.Frames

namespace AreaFlow.Project
open Go

/-- These operations open a file of the project. -/
inductive FileOperation
  | verifyReadOnly
  | writeFixtureProject
  | writeManagedGenerated
  deriving DecidableEq

namespace FileOperation

def operation : FileOperation → Operation
  | verifyReadOnly => .readOnlyVerify
  | writeFixtureProject => .fixtureProjectWrite
  | writeManagedGenerated => .managedGeneratedWrite

/-- This is the file that an operation opens for a target path. -/
def resolve {Files : Type} (kind : FileOperation) (env : Env Files) (files : Files) (root target : GoString) :
    Except GoString GoString :=
  match kind with
  | verifyReadOnly => safeProjectReadPath env files root target
  | writeFixtureProject | writeManagedGenerated => safeFixtureProjectWritePath env files root target

/-- The generated files are checked by their directory too. -/
def covers (kind : FileOperation) (path : GoString) : Bool := kind != writeManagedGenerated || isManagedGeneratedPath path

/-- A path is authorized for an operation by the permission rows and by the check on generated files. -/
def authorizes (kind : FileOperation) (table : List PermissionRow) (projectID : ID) (path : GoString) : Bool :=
  kind.covers path && (canProjectPathInTx table projectID (bytes "read_project") path).1 &&
    (kind == verifyReadOnly || (canProjectPathInTx table projectID kind.operation.pathCapability.1 path).1)

/-- An operation opens a file if its target path is authorized and resolves to the file. -/
def Opens {Files : Type} (kind : FileOperation) (env : Env Files) (files : Files) (table : List PermissionRow)
    (projectID : ID) (root target file : GoString) : Prop :=
  kind.authorizes table projectID target = true ∧ kind.resolve env files root target = .ok file

end FileOperation

section Checks

variable {Files : Type} {env : Env Files} {files : Files} {kind : FileOperation} {root target file : GoString}

theorem pathDenial_none {scope : Scope} {db : Database} (writes : kind ≠ .verifyReadOnly)
    (allowed : pathDenial kind.operation scope db target = none) :
    kind.authorizes db.permissions scope.record.id target = true := by
  unfold pathDenial at allowed
  dsimp only at allowed
  split at allowed
  · cases allowed
  rename_i generated
  split at allowed
  · cases allowed
  rename_i readable
  split at allowed
  · cases allowed
  rename_i writable
  cases kind with
  | verifyReadOnly => exact absurd rfl writes
  | writeFixtureProject | writeManagedGenerated =>
      simp_all [FileOperation.authorizes, FileOperation.covers, FileOperation.operation]

variable {scope : Scope} {task : TaskRow} {files' : Files} {db db' : Database} {change : Change}

theorem readChange_fullPath {operation : Operation}
    (read : readChange env operation scope task target file files db = (files', .ok (.ok change, db'))) :
    change.fullPath = file := by
  unfold readChange at read
  obtain ⟨_, loaded, _, _, rest⟩ := Tx.bind_done read
  split at rest
  · cases rest
  obtain ⟨_, preimage, _, _, last⟩ := Tx.bind_done rest
  split at last
  · cases last
  · cases last
    rfl

/-- A verification that has passed its checks opens the file that it reads. -/
theorem checkRead_opens (checked : checkRead env scope task files db = (files', .ok (.ok file, db'))) :
    FileOperation.verifyReadOnly.Opens env files db.permissions scope.record.id scope.record.rootPath
      (metadataString task.metadata (bytes "target_path")) file := by
  unfold checkRead at checked
  rw [Tx.bind_apply, Tx.query] at checked
  dsimp only at checked
  split at checked
  · cases checked
  rename_i readable
  obtain ⟨_, resolved, _, observed, rest⟩ := Tx.bind_done checked
  cases observed
  have same := (Prod.mk.inj (Except.ok.inj (Prod.mk.inj rest).2)).1
  refine ⟨?_, Except.mapError_ok same⟩
  simpa [FileOperation.authorizes, FileOperation.covers] using readable

/-- A write that has passed the checks of its target opens the file that its change names. -/
theorem checkChange_opens (writes : kind ≠ .verifyReadOnly)
    (checked : checkChange env kind.operation scope task files db = (files', .ok (.ok change, db'))) :
    kind.Opens env files db.permissions scope.record.id scope.record.rootPath
      (metadataString task.metadata (bytes "target_path")) change.fullPath := by
  have resolves : kind.resolve env files scope.record.rootPath (metadataString task.metadata (bytes "target_path")) =
      safeFixtureProjectWritePath env files scope.record.rootPath
        (metadataString task.metadata (bytes "target_path")) := by
    cases kind with
    | verifyReadOnly => exact absurd rfl writes
    | writeFixtureProject | writeManagedGenerated => rfl
  unfold checkChange at checked
  rw [Tx.bind_apply, Tx.query] at checked
  dsimp only at checked
  cases allowed : pathDenial kind.operation scope db (metadataString task.metadata (bytes "target_path")) with
  | some denial =>
      rw [allowed] at checked
      cases checked
  | none =>
      rw [allowed] at checked
      refine ⟨pathDenial_none writes allowed, ?_⟩
      obtain ⟨_, resolved, _, observed, rest⟩ := Tx.bind_done checked
      cases resolved with
      | error failure => cases rest
      | ok fullPath =>
          rw [resolves, readChange_fullPath rest]
          exact (Prod.mk.inj (Except.ok.inj (Prod.mk.inj observed).2)).1

theorem resolveBelow_ok {comparing resolving : GoString} {accept : GoString → Except GoString Unit}
    (resolved : resolveBelow env files root target comparing accept resolving = .ok file) :
    ∃ rootReal rel, env.evalSymlinks root files = .ok rootReal ∧ pathRel rootReal file = some rel ∧
      StrictlyInside rootReal file := by
  unfold resolveBelow at resolved
  split at resolved
  · cases resolved
  split at resolved
  · cases resolved
  cases realRoot : env.evalSymlinks root files with
  | error failure => simp [realRoot, Except.mapError, bind, Except.bind] at resolved
  | ok rootReal =>
      simp only [realRoot, Except.mapError, bind, Except.bind] at resolved
      split at resolved
      · cases resolved
      split at resolved
      · cases resolved
      rename_i fullReal _
      cases related : pathRel rootReal fullReal with
      | none => simp [related] at resolved
      | some rel =>
          simp only [related] at resolved
          split at resolved
          · rename_i stays
            cases resolved
            simp only [staysBelow, Bool.not_eq_true', Bool.or_eq_false_iff, beq_eq_false_iff_ne] at stays
            exact ⟨rootReal, rel, rfl, related, pathRel_inside related stays.1.1.1 stays.1.1.2 stays.1.2⟩
          · cases resolved

/-- A resolved file lies below the resolved root. -/
theorem resolve_below (resolved : kind.resolve env files root target = .ok file) :
    ∃ rootReal rel, env.evalSymlinks root files = .ok rootReal ∧ pathRel rootReal file = some rel ∧
      StrictlyInside rootReal file := by
  unfold FileOperation.resolve safeProjectReadPath safeFixtureProjectWritePath at resolved
  cases kind with
  | verifyReadOnly => exact resolveBelow_ok resolved
  | writeFixtureProject | writeManagedGenerated => exact resolveBelow_ok resolved

end Checks

section Tables

variable (projectID : ID) {capability path : GoString}

theorem canProjectPathInTx_iff (table : List PermissionRow) (own : ∀ row ∈ table, row.projectID = projectID)
    (paths : ∀ row ∈ table, row.resourceType ≠ .command) :
    (canProjectPathInTx table projectID capability path).1 = true ↔
      (∀ row ∈ table, deniesPath path row = false) ∧ (∃ row ∈ table, allowsCapability capability row = true) ∧
        ∃ row ∈ table, allowsPath capability path row = true := by
  have all : table.filter (fun row => row.projectID == projectID && row.resourceType != .command) = table := by
    rw [List.filter_eq_self]
    intro row member
    simp [own row member, paths row member]
  unfold canProjectPathInTx decidePath
  rw [all, scanPermissions_allowed_iff]
  simp

theorem globMatch_below (directory path : GoString) :
    globMatch (directory ++ bytes "/**") path = true → path = directory ∨ directory ++ [slash] <+: path := by
  rw [globMatch_iff]
  rintro (rfl | star | ⟨other, same, inside⟩)
  · exact Or.inr ⟨bytes "**", by simp [show bytes "/**" = [slash] ++ bytes "**" from rfl]⟩
  · have lengths := congrArg List.length star
    rw [List.length_append, show (bytes "/**").length = 3 by decide, show (bytes "*").length = 1 by decide] at lengths
    omega
  · rwa [List.append_cancel_right same]

theorem globMatch_self (directory : GoString) : globMatch (directory ++ bytes "/**") directory = true :=
  (globMatch_iff _ _).mpr (Or.inr (Or.inr ⟨directory, rfl, Or.inl rfl⟩))

/-- These rows allow every path to a capability and a pattern of paths to readers, and they forbid some patterns. -/
def sharedRows (projectID : ID) (capability pattern : GoString) (forbidden : List GoString) : List PermissionRow :=
  [⟨projectID, bytes "read_project", .allow, .capability, bytes "read_project"⟩,
    ⟨projectID, capability, .allow, .capability, capability⟩,
    ⟨projectID, bytes "read_project", .allow, .path, pattern⟩, ⟨projectID, capability, .allow, .path, bytes "*"⟩] ++
    forbidden.map fun pattern => ⟨projectID, bytes "*", .deny, .path, pattern⟩

theorem sharedRows_iff {pattern : GoString} {forbidden : List GoString} (other : capability ≠ bytes "read_project") :
    ((canProjectPathInTx (sharedRows projectID capability pattern forbidden) projectID (bytes "read_project") path).1 =
        true ↔ (∀ denied ∈ forbidden, globMatch denied path = false) ∧ globMatch pattern path = true) ∧
      ((canProjectPathInTx (sharedRows projectID capability pattern forbidden) projectID capability path).1 = true ↔
        ∀ denied ∈ forbidden, globMatch denied path = false) := by
  have own : ∀ row ∈ sharedRows projectID capability pattern forbidden, row.projectID = projectID := by
    simp [sharedRows]
  have paths : ∀ row ∈ sharedRows projectID capability pattern forbidden, row.resourceType ≠ .command := by
    simp [sharedRows]
  have star : globMatch (bytes "*") path = true := (globMatch_iff _ _).mpr (Or.inr (Or.inl rfl))
  rw [canProjectPathInTx_iff projectID _ own paths, canProjectPathInTx_iff projectID _ own paths]
  constructor
  · simp [sharedRows, deniesPath, allowsCapability, allowsPath, other]
  · simp [sharedRows, deniesPath, allowsCapability, allowsPath, star]

/-- Two different paths are told apart by some permission rows. -/
theorem exists_separating {first second : GoString} (capability : GoString) (other : capability ≠ bytes "read_project")
    (different : first ≠ second) :
    ∃ table, (canProjectPathInTx table projectID (bytes "read_project") first).1 = true ∧
      (canProjectPathInTx table projectID capability first).1 = true ∧
      (canProjectPathInTx table projectID (bytes "read_project") second).1 = false := by
  by_cases below : first ++ [slash] <+: second
  · -- The second path is below the first one: it is forbidden with what is below it.
    have free : ∀ denied ∈ [second ++ bytes "/**"], globMatch denied first = false := by
      intro denied member
      rw [List.mem_singleton.mp member, ← Bool.not_eq_true]
      intro matched
      rcases globMatch_below second first matched with same | inside
      · exact different same
      · have shorter := below.length_le
        have longer := inside.length_le
        simp only [List.length_append, List.length_singleton] at shorter longer
        omega
    have star : globMatch (bytes "*") first = true := (globMatch_iff _ _).mpr (Or.inr (Or.inl rfl))
    refine ⟨sharedRows projectID capability (bytes "*") [second ++ bytes "/**"], ?_, ?_, ?_⟩
    · exact (sharedRows_iff projectID other).1.mpr ⟨free, star⟩
    · exact (sharedRows_iff projectID other).2.mpr free
    · rw [← Bool.not_eq_true, (sharedRows_iff projectID other).1]
      rintro ⟨denies, -⟩
      simp [globMatch_self] at denies
  · -- Only the first path and what is below it may be read.
    refine ⟨sharedRows projectID capability (first ++ bytes "/**") [], ?_, ?_, ?_⟩
    · exact (sharedRows_iff projectID other).1.mpr ⟨by simp, globMatch_self first⟩
    · exact (sharedRows_iff projectID other).2.mpr (by simp)
    · rw [← Bool.not_eq_true, (sharedRows_iff projectID other).1]
      rintro ⟨-, matched⟩
      rcases globMatch_below first second matched with same | inside
      · exact different same.symm
      · exact below inside

end Tables

/-- What an operation opens is authorized under every permission table exactly if the target path that was checked is
the path of the opened file below the resolved root: it has its normal form, and no link leads elsewhere. -/
theorem openedFile_authorized_iff {Files : Type} (env : Env Files) (files : Files) (kind : FileOperation) (projectID : ID)
    (root target : GoString) :
    (∀ table file, kind.Opens env files table projectID root target file →
      ∃ rootReal rel, env.evalSymlinks root files = .ok rootReal ∧ StrictlyInside rootReal file ∧
        pathRel rootReal file = some rel ∧ kind.authorizes table projectID rel = true) ↔
      (kind.covers target = true → ∀ rootReal file, env.evalSymlinks root files = .ok rootReal →
        kind.resolve env files root target = .ok file → pathRel rootReal file = some target) := by
  constructor
  · intro authorized covered rootReal file found resolved
    obtain ⟨rootReal', rel, found', related, -⟩ := resolve_below resolved
    cases found.symm.trans found'
    by_contra different
    have other : target ≠ rel := by
      rintro rfl
      exact different related
    have capability : kind.operation.pathCapability.1 ≠ bytes "read_project" := by
      cases kind <;> decide
    obtain ⟨table, readable, writable, denied⟩ := exists_separating projectID _ capability other
    have opens : kind.Opens env files table projectID root target file := by
      refine ⟨?_, resolved⟩
      simp [FileOperation.authorizes, covered, readable, writable]
    obtain ⟨again, rel', found'', -, related', allowed⟩ := authorized table file opens
    cases found.symm.trans found''
    cases related.symm.trans related'
    simp [FileOperation.authorizes, denied] at allowed
  · intro direct table file opens
    obtain ⟨allowed, resolved⟩ := opens
    obtain ⟨rootReal, rel, found, related, inside⟩ := resolve_below resolved
    have covered : kind.covers target = true := by
      simp only [FileOperation.authorizes, Bool.and_eq_true] at allowed
      exact allowed.1.1
    exact ⟨rootReal, target, found, inside, direct covered rootReal file found resolved, allowed⟩

/-- This project has a file that may be read under the name a, which is a link to a forbidden file. -/
def linkedTree : Tree :=
  [([bytes "r"], .directory), ([bytes "r", bytes "a"], .link (bytes "secret")), ([bytes "r", bytes "secret"], .file)]

def linkedHost : Env Unit := { smallHost with evalSymlinks := fun path _ => linkedTree.evalSymlinks path }

def linkedRows : List PermissionRow :=
  [⟨1, bytes "read_project", .allow, .capability, bytes "read_project"⟩, ⟨1, bytes "read_project", .allow, .path, bytes "a"⟩,
    ⟨1, bytes "*", .deny, .path, bytes "secret"⟩]

/-- The permission is checked on the link, and the forbidden file behind it is opened. -/
theorem linkedFile_opened :
    FileOperation.verifyReadOnly.Opens linkedHost () linkedRows 1 (bytes "/r") (bytes "a") (bytes "/r/secret") ∧
      linkedHost.evalSymlinks (bytes "/r") () = .ok (bytes "/r") ∧
      pathRel (bytes "/r") (bytes "/r/secret") = some (bytes "secret") ∧
      FileOperation.verifyReadOnly.authorizes linkedRows 1 (bytes "secret") = false := by
  have evaluated : linkedTree.evalSymlinks (bytes "/r") = .ok (bytes "/r") := by decide +kernel
  refine ⟨⟨by decide +kernel, ?_⟩, evaluated, by decide +kernel, by decide +kernel⟩
  change safeProjectReadPath linkedHost () (bytes "/r") (bytes "a") = _
  decide +kernel

end AreaFlow.Project
