import AreaFlow.Construction.Project.Leases

namespace AreaFlow.Project
open Go

variable {metadata extra : Metadata} {key other : GoString} {value : MetaValue}

theorem metadataGet_cons (entry : GoString × MetaValue) (rest : Metadata) (key : GoString) :
    metadataGet (entry :: rest) key = if entry.1 = key then some entry.2 else metadataGet rest key := by
  unfold metadataGet
  rw [List.find?_cons]
  by_cases same : entry.1 = key
  · rw [if_pos same, beq_iff_eq.mpr same]
    rfl
  · rw [if_neg same, beq_eq_false_iff_ne.mpr same]

/-- The assignment of another key is not seen. -/
theorem metadataGet_setKey_of_ne (differs : other ≠ key) :
    metadataGet (setKey metadata other value) key = metadataGet metadata key := by
  unfold setKey
  split
  · unfold metadataGet
    rw [List.find?_map]
    have same : ((fun entry : GoString × MetaValue => entry.1 == key) ∘ fun entry =>
        if entry.1 = other then (other, value) else entry) = fun entry => entry.1 == key := by
      funext entry
      dsimp only [Function.comp_apply]
      split
      · rename_i named
        rw [named]
      · rfl
    rw [same]
    cases found : metadata.find? fun entry => entry.1 == key with
    | none => rfl
    | some entry =>
        have fits := List.find?_some found
        have named : entry.1 = key := beq_iff_eq.mp fits
        have unchanged : ¬ entry.1 = other := fun same => differs (same.symm.trans named)
        simp only [Option.map_some, if_neg unchanged]
  · unfold metadataGet
    rw [List.find?_append]
    have missed : [(other, value)].find? (fun entry => entry.1 == key) = none := by
      simp [differs]
    rw [missed, Option.or_none]

/-- An assigned key has its value. -/
theorem metadataGet_setKey_self : metadataGet (setKey metadata key value) key = some value := by
  unfold setKey
  split
  · rename_i present
    obtain ⟨entry, member, named⟩ := List.any_eq_true.mp present
    unfold metadataGet
    rw [List.find?_map]
    have same : ((fun entry : GoString × MetaValue => entry.1 == key) ∘ fun entry =>
        if entry.1 = key then (key, value) else entry) = fun entry => entry.1 == key := by
      funext entry
      dsimp only [Function.comp_apply]
      split
      · rename_i named
        simp [named]
      · rfl
    rw [same]
    cases found : metadata.find? fun entry => entry.1 == key with
    | none => exact absurd named (List.find?_eq_none.mp found entry member)
    | some entry =>
        have fits : entry.1 = key := by simpa using List.find?_some found
        simp [fits]
  · rename_i absent
    unfold metadataGet
    rw [List.find?_append]
    have missed : metadata.find? (fun entry => entry.1 == key) = none := by
      rw [List.find?_eq_none]
      exact fun entry member named => absent (List.any_eq_true.mpr ⟨entry, member, named⟩)
    rw [missed]
    simp

/-- The assignment of other keys is not seen. -/
theorem metadataGet_setKeys_of_absent (absent : ∀ entry ∈ extra, entry.1 ≠ key) :
    metadataGet (setKeys metadata extra) key = metadataGet metadata key := by
  unfold setKeys
  induction extra generalizing metadata with
  | nil => rfl
  | cons first rest ih =>
      rw [List.foldl_cons, ih fun entry member => absent entry (List.mem_cons_of_mem _ member)]
      exact metadataGet_setKey_of_ne (absent first List.mem_cons_self)

/-- These keys are added to the response of every lease command. -/
def leaseMarkers : List GoString :=
  outsideEffects ++ [bytes "attempt_created", bytes "artifact_created", bytes "worker_run_once"]

/-- The other keys of a lease response are the given ones. -/
theorem metadataGet_leaseCommandResponse (response : Metadata) (created : key ≠ bytes "lease_created")
    (marker : key ∉ leaseMarkers) : metadataGet (leaseCommandResponse response) key = metadataGet response key := by
  unfold leaseCommandResponse
  dsimp only
  rw [metadataGet_setKeys_of_absent]
  · split
    · exact metadataGet_setKey_of_ne created.symm
    · rfl
  · intro entry member same
    obtain ⟨effect, listed, rfl⟩ := List.mem_map.mp member
    exact marker (same ▸ listed)

end AreaFlow.Project
