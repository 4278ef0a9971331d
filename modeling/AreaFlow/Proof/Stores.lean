import AreaFlow.Construction.Project.ArtifactStores
import AreaFlow.Proof.Reversal

namespace AreaFlow.Project
open Go

section Harm

variable (host : StoreHost) (record : ProjectRow) (row : ArtifactRow) (options : CopyArtifactOptions)

/-- These are the bytes that an address has in the stores. -/
def StoreHost.bytesAt (backend uri : GoString) (stores : Stores) : Option GoString :=
  match host.place backend uri with
  | .error _ => none
  | .ok place => stores place

/-- These are the addresses that matter: the one of the artifact and those of all verified locations. -/
def guardedAddresses (tables : ArtifactTables) : List (GoString × GoString) :=
  (row.storageBackend, row.uri) ::
    (tables.locations.table.rows.filter fun location => location.verifiedAt.isSome).map fun location =>
      (location.storageBackend, location.uri)

/-- The bytes at all addresses that matter are the same. -/
def Unharmed (tables : ArtifactTables) (before after : Stores) : Prop :=
  ∀ address ∈ guardedAddresses row tables,
    host.bytesAt address.1 address.2 after = host.bytesAt address.1 address.2 before

/-- A place is read for one of the addresses that matter. -/
def Exposed (tables : ArtifactTables) (place : Place) : Prop :=
  ∃ address ∈ guardedAddresses row tables, host.place address.1 address.2 = .ok place

/-- This is the place that a copy writes and the content that it writes there, if it comes to its write. -/
def copyTarget (stores : Stores) : Option (Place × GoString) :=
  match prepareCopy host record row options stores with
  | .error _ => none
  | .ok (content, _, relativePath) =>
      match host.target (normalizedArtifactBackend (host.seen stores (.error [])) options.targetBackend) options.targetRoot
        relativePath with
      | .error _ => none
      | .ok (_, _, place) => some (place, content)

/-- No write of a content, whole or cut short, changes a place. -/
def Unchangeable (stores : Stores) (content : GoString) : Place → Prop
  | .file path => content = [] ∧ stores (.file path) = some []
  | .object key => stores (.object key) = some content

variable {host record row options} {stores : Stores} {tables : ArtifactTables} {faults : CopyFaults} {now : Time}

/-- A copy changes at most the place that it writes. -/
theorem copyBetweenStores_stores :
    (copyBetweenStores host record row options faults now stores tables).1 =
      match copyTarget host record row options stores with
      | none => stores
      | some (place, content) => (stores.put place content faults.write).1 := by
  unfold copyBetweenStores copyTarget
  cases prepareCopy host record row options stores with
  | error failure => rfl
  | ok prepared =>
      obtain ⟨content, contentType, relativePath⟩ := prepared
      dsimp only [StoreHost.writeConfigured]
      cases host.target (normalizedArtifactBackend (host.seen stores (.error [])) options.targetBackend) options.targetRoot
        relativePath with
      | error failure => rfl
      | ok target =>
          obtain ⟨name, uri, place⟩ := target
          dsimp only
          rcases stores.put place content faults.write with ⟨after, failure | -⟩
          · rfl
          · rfl

/-- A copy fails if its write or its transaction does. -/
theorem copyBetweenStores_fails (faulty : faults.write ≠ none ∨ faults.database ≠ none) :
    ∃ failure, (copyBetweenStores host record row options faults now stores tables).2 = .error failure := by
  unfold copyBetweenStores
  cases prepareCopy host record row options stores with
  | error failure => exact ⟨failure, rfl⟩
  | ok prepared =>
      obtain ⟨content, contentType, relativePath⟩ := prepared
      dsimp only [StoreHost.writeConfigured]
      cases host.target (normalizedArtifactBackend (host.seen stores (.error [])) options.targetBackend) options.targetRoot
        relativePath with
      | error failure => exact ⟨_, rfl⟩
      | ok target =>
          obtain ⟨name, uri, place⟩ := target
          dsimp only
          cases written : faults.write with
          | some fault =>
              obtain ⟨failure, _ | count⟩ := fault
              · exact ⟨_, rfl⟩
              · exact ⟨_, rfl⟩
          | none =>
              obtain ⟨failure, failed⟩ := Option.ne_none_iff_exists'.mp (faulty.resolve_left (not_not.mpr written))
              dsimp only [Stores.put]
              rw [failed]
              cases verifyCopy host row faults.readback _ _ with
              | error refusal => exact ⟨refusal, rfl⟩
              | ok verified => exact ⟨failure, rfl⟩

/-- A write leaves a place that it cannot change. -/
theorem put_unchangeable {place : Place} {content : GoString} (fixed : Unchangeable stores content place)
    (fault : Option WriteFault) : (stores.put place content fault).1 = stores := by
  cases place with
  | file path =>
      obtain ⟨rfl, same⟩ := fixed
      obtain _ | ⟨failure, _ | count⟩ := fault
      · exact Function.update_eq_self_iff.mpr same.symm
      · rfl
      · dsimp only [Stores.put]
        rw [List.take_nil]
        exact Function.update_eq_self_iff.mpr same.symm
  | object key =>
      have same : stores (.object key) = some content := fixed
      obtain _ | ⟨failure, _ | count⟩ := fault
      · exact Function.update_eq_self_iff.mpr same.symm
      · rfl
      · exact Function.update_eq_self_iff.mpr same.symm

/-- A write changes no other place. -/
theorem put_other {place other : Place} {content : GoString} (apart : other ≠ place) (fault : Option WriteFault) :
    (stores.put place content fault).1 other = stores other := by
  obtain _ | ⟨failure, _ | count⟩ := fault
  · exact Function.update_of_ne apart _ _
  · rfl
  · exact Function.update_of_ne apart _ _

/-- A copy that fails never harms the bytes of its artifact and of the verified locations, exactly if the place that it
writes is none of theirs or cannot be changed by the write. -/
theorem failedCopy_unharmed_iff :
    (∀ faults now failure, (copyBetweenStores host record row options faults now stores tables).2 = .error failure →
      Unharmed host row tables stores (copyBetweenStores host record row options faults now stores tables).1) ↔
      ∀ place content, copyTarget host record row options stores = some (place, content) →
        Exposed host row tables place → Unchangeable stores content place := by
  constructor
  · rintro unharmed place content aimed ⟨address, guarded, named⟩
    have kept : ∀ faults : CopyFaults, (faults.write ≠ none ∨ faults.database ≠ none) →
        (stores.put place content faults.write).1 place = stores place := by
      intro faults faulty
      obtain ⟨failure, failed⟩ := copyBetweenStores_fails faulty
      have same := unharmed faults 0 failure failed address guarded
      rw [copyBetweenStores_stores, aimed] at same
      simpa only [StoreHost.bytesAt, named] using same
    have whole : some content = stores place := by
      have same := kept { database := some [] } (Or.inr (Option.some_ne_none _))
      simpa only [Stores.put, Function.update_self] using same
    cases place with
    | file path =>
        have cut := kept { write := some ⟨[], some 0⟩ } (Or.inl (Option.some_ne_none _))
        simp only [Stores.put, Function.update_self, List.take_zero] at cut
        exact ⟨Option.some.inj (whole.trans cut.symm), cut.symm⟩
    | object key => exact whole.symm
  · intro safe faults now failure _ address guarded
    rw [copyBetweenStores_stores]
    cases aimed : copyTarget host record row options stores with
    | none => rfl
    | some target =>
        obtain ⟨place, content⟩ := target
        dsimp only [StoreHost.bytesAt]
        cases named : host.place address.1 address.2 with
        | error refusal => rfl
        | ok other =>
            by_cases same : other = place
            · subst same
              dsimp only
              rw [put_unchangeable (safe other content aimed ⟨address, guarded, named⟩)]
            · exact put_other same faults.write

end Harm

section Truncation

/-- This host knows only files. -/
def fileHost : StoreHost where
  sha256Hex := Json.digest
  lowerText := lowerASCII
  quote := Json.quote
  home := none
  resolve := id
  bucket := []
  parseS3URI := fun _ => .error []

/-- The short artifact is in a file. -/
def shortStores : Stores := fun place => if place = .file (bytes "a") then some (bytes "ok") else none

/-- The artifact is copied to a directory. -/
def directoryCopy : CopyArtifactOptions :=
  { targetBackend := bytes "local", targetRoot := bytes "/m", actor := bytes "a", reason := bytes "r" }

/-- These are the stores and the tables after a copy to the directory and the activation of the copy. -/
def movedToDirectory : Stores × Except GoString ArtifactTables :=
  let copied := copyBetweenStores fileHost shortProject shortArtifact directoryCopy {} 0 shortStores shortTables
  (copied.1, do activateArtifactLocation 0 shortProject Int.toNat 1 (shortActivation 2) (← copied.2))

/-- These are the tables after the move. -/
def movedTables : ArtifactTables := movedToDirectory.2.toOption.getD {}

/-- This is the row of the artifact after the move. -/
def movedRow : ArtifactRow := (movedTables.artifact 1).getD shortArtifact

/-- This is a second copy to the directory; its write opens the file and fails. -/
def cutCopy : Stores × Except GoString ArtifactTables :=
  copyBetweenStores fileHost shortProject movedRow directoryCopy
    { write := some ⟨bytes "write artifact: no space left", some 0⟩ } 0 movedToDirectory.1 movedTables

/-- A second copy to the directory that fails empties the file in which the artifact now is. -/
theorem secondCopy_truncates :
    movedToDirectory.2 = .ok movedTables ∧ movedTables.artifact 1 = some movedRow ∧
      movedRow.uri = bytes "/m/p/migration/artifact-1/r" ∧
      fileHost.bytesAt movedRow.storageBackend movedRow.uri movedToDirectory.1 = some (bytes "ok") ∧
      cutCopy.2 = .error (bytes "copy artifact to local: write artifact: no space left") ∧
      fileHost.bytesAt movedRow.storageBackend movedRow.uri cutCopy.1 = some [] := by
  decide +kernel

end Truncation

end AreaFlow.Project
