import AreaFlow.Library.TrimSpace

namespace Go

/-- This function is `sort.Strings`: byte-wise lexicographic order. -/
def sortStrings (values : List GoString) : List GoString := values.insertionSort (· ≤ ·)

/-- This function adds a key to a set that is kept as a list without repetitions. -/
def insertKey {A : Type} [DecidableEq A] (set : List A) (key : A) : List A :=
  if key ∈ set then set else set ++ [key]

/-- This loop trims every value and appends those that are neither empty nor seen before. -/
def normalizeInto : List GoString → List GoString → List GoString
  | result, [] => result
  | result, value :: rest =>
      if trimSpace value = [] ∨ trimSpace value ∈ result then normalizeInto result rest
      else normalizeInto (result ++ [trimSpace value]) rest

/-- This function trims, drops empty values, removes repetitions and sorts. -/
def normalize (values : List GoString) : List GoString := sortStrings (normalizeInto [] values)

@[simp] theorem mem_sortStrings {x : GoString} {values : List GoString} :
    x ∈ sortStrings values ↔ x ∈ values := by
  rw [sortStrings, List.mem_insertionSort]

@[simp] theorem mem_insertKey {A : Type} [DecidableEq A] {set : List A} {key x : A} :
    x ∈ insertKey set key ↔ x ∈ set ∨ x = key := by
  unfold insertKey
  split
  · rename_i present
    constructor
    · exact Or.inl
    · rintro (old | rfl)
      · exact old
      · exact present
  · simp

/-- Inserting keys one after another collects exactly the old and the new ones. -/
theorem mem_foldl_insertKey {A B : Type} [DecidableEq A] (key : B → A) (rows : List B) (set : List A) (x : A) :
    x ∈ rows.foldl (fun acc row => insertKey acc (key row)) set ↔ x ∈ set ∨ ∃ row ∈ rows, key row = x := by
  induction rows generalizing set with
  | nil => simp
  | cons row rest ih =>
      rw [List.foldl_cons, ih]
      simp only [mem_insertKey, List.mem_cons, exists_eq_or_imp, or_assoc]
      rw [eq_comm (a := x) (b := key row)]

theorem mem_normalizeInto (values result : List GoString) (x : GoString) :
    x ∈ normalizeInto result values ↔ x ∈ result ∨ x ≠ [] ∧ ∃ value ∈ values, trimSpace value = x := by
  induction values generalizing result with
  | nil => simp [normalizeInto]
  | cons value rest ih =>
      unfold normalizeInto
      split
      · rename_i skipped
        rw [ih]
        constructor
        · rintro (old | ⟨nonempty, v, member, same⟩)
          · exact Or.inl old
          · exact Or.inr ⟨nonempty, v, List.mem_cons_of_mem _ member, same⟩
        · rintro (old | ⟨nonempty, v, member, same⟩)
          · exact Or.inl old
          · rcases List.mem_cons.mp member with rfl | member
            · rcases skipped with empty | seen
              · exact absurd (same.symm.trans empty) nonempty
              · exact Or.inl (same ▸ seen)
            · exact Or.inr ⟨nonempty, v, member, same⟩
      · rename_i fresh
        rw [not_or] at fresh
        rw [ih, List.mem_append, List.mem_singleton]
        constructor
        · rintro ((old | rfl) | ⟨nonempty, v, member, same⟩)
          · exact Or.inl old
          · exact Or.inr ⟨fresh.1, value, List.mem_cons_self, rfl⟩
          · exact Or.inr ⟨nonempty, v, List.mem_cons_of_mem _ member, same⟩
        · rintro (old | ⟨nonempty, v, member, same⟩)
          · exact Or.inl (Or.inl old)
          · rcases List.mem_cons.mp member with rfl | member
            · exact Or.inl (Or.inr same.symm)
            · exact Or.inr ⟨nonempty, v, member, same⟩

/-- A normalized list holds the trimmed non-empty values. -/
theorem mem_normalize {values : List GoString} {x : GoString} :
    x ∈ normalize values ↔ x ≠ [] ∧ ∃ value ∈ values, trimSpace value = x := by
  rw [normalize, mem_sortStrings, mem_normalizeInto]
  simp

/-- This number is larger than every number of a list, as a sequence of a table returns it. -/
def freshID (ids : List Int) : Int := ids.foldr max 0 + 1

theorem lt_freshID {ids : List Int} {id : Int} (member : id ∈ ids) : id < freshID ids := by
  unfold freshID
  induction ids with
  | nil => simp at member
  | cons head tail ih =>
      rw [List.foldr_cons]
      rcases List.mem_cons.mp member with rfl | member
      · omega
      · have below := ih member
        omega

theorem freshID_pos (ids : List Int) : 0 < freshID ids := by
  have bound : 0 ≤ ids.foldr max 0 := by
    induction ids with
    | nil => exact le_refl 0
    | cons first rest ih => exact le_trans ih (le_max_right _ _)
  unfold freshID
  omega

theorem freshID_not_mem (ids : List Int) : freshID ids ∉ ids :=
  fun member => lt_irrefl _ (lt_freshID member)

/-- This is the first element of a list in an order. -/
def firstBy {A : Type} (before : A → A → Bool) : List A → Option A
  | [] => none
  | x :: rest =>
      match firstBy before rest with
      | none => some x
      | some other => if before x other then some x else some other

theorem firstBy_mem {A : Type} {before : A → A → Bool} {values : List A} {x : A}
    (found : firstBy before values = some x) : x ∈ values := by
  induction values with
  | nil => cases found
  | cons first rest ih =>
      unfold firstBy at found
      split at found
      · exact Option.some.inj found ▸ List.mem_cons_self
      · rename_i other chosen
        split at found
        · exact Option.some.inj found ▸ List.mem_cons_self
        · exact List.mem_cons_of_mem _ (ih (Option.some.inj found ▸ chosen))

/-- A list with an element has a first one. -/
theorem firstBy_exists {A : Type} (before : A → A → Bool) {values : List A} {x : A} (member : x ∈ values) :
    ∃ first, firstBy before values = some first := by
  cases values with
  | nil => cases member
  | cons first rest =>
      unfold firstBy
      split
      · exact ⟨first, rfl⟩
      · split
        · exact ⟨first, rfl⟩
        · exact ⟨_, rfl⟩

/-- An element that no other one comes before is the first one, wherever the others stand. -/
theorem firstBy_append_last {A : Type} {before : A → A → Bool} {values : List A} {x : A}
    (last : ∀ y ∈ values, before y x = false) : firstBy before (values ++ [x]) = some x := by
  induction values with
  | nil => rfl
  | cons first rest ih =>
      have later := ih fun y member => last y (List.mem_cons_of_mem _ member)
      simp [firstBy, later, last first List.mem_cons_self]

/-- Fewer elements of a list have a stronger property if one of them lacks it. -/
theorem countP_lt_of_mem {A : Type} {strong weak : A → Bool} {values : List A} (weaker : ∀ x, strong x = true → weak x = true)
    {x : A} (member : x ∈ values) (isWeak : weak x = true) (notStrong : strong x = false) :
    values.countP strong < values.countP weak := by
  obtain ⟨first, last, rfl⟩ := List.append_of_mem member
  have before : first.countP strong ≤ first.countP weak := List.countP_mono_left fun x _ => weaker x
  have after : last.countP strong ≤ last.countP weak := List.countP_mono_left fun x _ => weaker x
  rw [List.countP_append, List.countP_append, List.countP_cons_of_pos isWeak,
    List.countP_cons_of_neg (by simp [notStrong])]
  omega

end Go
