import AreaFlow.Library.Sets

/-- This is a table with a primary key: no two rows share it. -/
structure Table (Row : Type) (key : Row → Int) where
  rows : List Row := []
  distinct : (rows.map key).Nodup := by first | exact List.nodup_nil | decide
  deriving DecidableEq

namespace Table

variable {Row Key : Type} {key : Row → Key}

theorem nodup_map {update : Row → Row} (keeps : ∀ row, key (update row) = key row) {rows : List Row}
    (distinct : (rows.map key).Nodup) : ((rows.map update).map key).Nodup := by
  have same : key ∘ update = key := by
    funext row
    exact keeps row
  rwa [List.map_map, same]

theorem nodup_append_fresh {rows : List Row} {row : Row} (distinct : (rows.map key).Nodup)
    (fresh : key row ∉ rows.map key) : ((rows ++ [row]).map key).Nodup := by
  rw [List.map_append]
  refine List.nodup_append.mpr ⟨distinct, by simp, ?_⟩
  intro k member other last
  rintro rfl
  have same : k = key row := by simpa using last
  exact fresh (same ▸ member)

variable [DecidableEq Key]

/-- This is the first row of a table with a key. -/
def rowAt (key : Row → Key) (rows : List Row) (k : Key) : Option Row := rows.find? fun row => key row == k

theorem rowAt_mem {rows : List Row} {k : Key} {row : Row} (found : rowAt key rows k = some row) : row ∈ rows :=
  List.mem_of_find?_eq_some found

theorem rowAt_key {rows : List Row} {k : Key} {row : Row} (found : rowAt key rows k = some row) : key row = k := by
  have fits := List.find?_some found
  simpa using fits

/-- With distinct keys every row is found by its key. -/
theorem rowAt_of_mem {rows : List Row} {row : Row} (distinct : (rows.map key).Nodup) (member : row ∈ rows) :
    rowAt key rows (key row) = some row := by
  have present : (rowAt key rows (key row)).isSome = true :=
    List.find?_isSome.mpr ⟨row, member, beq_self_eq_true _⟩
  obtain ⟨other, found⟩ := Option.isSome_iff_exists.mp present
  rw [found, List.inj_on_of_nodup_map distinct (rowAt_mem found) member (rowAt_key found)]

/-- An update that keeps the keys is seen by every lookup. -/
theorem rowAt_map {update : Row → Row} (keeps : ∀ row, key (update row) = key row) (rows : List Row) (k : Key) :
    rowAt key (rows.map update) k = (rowAt key rows k).map update := by
  have same : ((fun row => key row == k) ∘ update) = fun row => key row == k := by
    funext row
    simp [keeps]
  rw [rowAt, List.find?_map, same, rowAt]

/-- An insert keeps the rows that are found. -/
theorem rowAt_append {rows : List Row} {k : Key} {row : Row} (found : rowAt key rows k = some row) (more : List Row) :
    rowAt key (rows ++ more) k = some row := by
  rw [rowAt, List.find?_append, show rows.find? (fun row => key row == k) = some row from found]
  rfl

/-- A new row is made from its identifier. -/
structure New (Row : Type) (key : Row → Int) where
  make : Int → Row
  named : ∀ id, key (make id) = id

/-- A change of a row keeps its identifier. -/
structure Change (Row : Type) (key : Row → Int) where
  apply : Row → Row
  keeps : ∀ row, key (apply row) = key row

section PrimaryKey

variable {Row : Type} {key : Row → Int} (table : Table Row key)

/-- This is the identifier that the next row gets. -/
def nextID : Int := Go.freshID (table.rows.map key)

/-- This is the row that the next insert stores. -/
def next (new : New Row key) : Row := new.make table.nextID

/-- This is the insert of a row with the next identifier. -/
def insert (new : New Row key) : Table Row key where
  rows := table.rows ++ [table.next new]
  distinct := nodup_append_fresh table.distinct (by rw [next, new.named]; exact Go.freshID_not_mem _)

/-- This is the update of the chosen rows. -/
def update (chosen : Row → Bool) (change : Change Row key) : Table Row key where
  rows := table.rows.map fun row => if chosen row then change.apply row else row
  distinct := by
    refine nodup_map ?_ table.distinct
    intro row
    split
    · exact change.keeps row
    · rfl

/-- This is the deletion of the chosen rows. -/
def delete (chosen : Row → Bool) : Table Row key where
  rows := table.rows.filter fun row => !chosen row
  distinct := table.distinct.sublist (List.filter_sublist.map key)

/-- Rows with the same identifier are the same. -/
theorem unique {table : Table Row key} {first second : Row} (present : first ∈ table.rows)
    (stored : second ∈ table.rows) (same : key first = key second) : first = second :=
  List.inj_on_of_nodup_map table.distinct present stored same

variable {table}

/-- A lookup that asks for the identifier of a row finds this row. -/
theorem find?_of_mem {fits : Row → Bool} {row : Row} (stored : row ∈ table.rows) (fitting : fits row = true)
    (named : ∀ other, fits other = true → key other = key row) : table.rows.find? fits = some row := by
  obtain ⟨other, found⟩ := Option.isSome_iff_exists.mp (List.find?_isSome.mpr ⟨row, stored, fitting⟩)
  rw [found, unique (List.mem_of_find?_eq_some found) stored (named other (List.find?_some found))]

theorem mem_insert {new : New Row key} {row : Row} :
    row ∈ (table.insert new).rows ↔ row ∈ table.rows ∨ row = table.next new := by
  simp [insert]

/-- Every old row is there after an insert. -/
theorem mem_insert_of_mem {new : New Row key} {row : Row} (member : row ∈ table.rows) :
    row ∈ (table.insert new).rows :=
  mem_insert.mpr (Or.inl member)

/-- The new row is there after an insert. -/
theorem mem_insert_self {new : New Row key} : table.next new ∈ (table.insert new).rows :=
  mem_insert.mpr (Or.inr rfl)

/-- A row after an update is an unchanged row or a chosen and changed one. -/
theorem mem_update {chosen : Row → Bool} {change : Change Row key} {row : Row} :
    row ∈ (table.update chosen change).rows ↔
      ∃ old ∈ table.rows, row = if chosen old then change.apply old else old := by
  simp only [update, List.mem_map]
  exact exists_congr fun old => and_congr Iff.rfl eq_comm

/-- A lookup finds the changed row if the change keeps what the lookup asks for. -/
theorem find?_update {chosen : Row → Bool} {change : Change Row key} {fits : Row → Bool}
    (keeps : ∀ row ∈ table.rows, chosen row = true → fits (change.apply row) = fits row) :
    (table.update chosen change).rows.find? fits =
      (table.rows.find? fits).map fun row => if chosen row then change.apply row else row := by
  have along : ∀ rows : List Row, (∀ row ∈ rows, row ∈ table.rows) →
      (rows.map fun row => if chosen row then change.apply row else row).find? fits =
        (rows.find? fits).map fun row => if chosen row then change.apply row else row := by
    intro rows inside
    induction rows with
    | nil => rfl
    | cons row rest ih =>
        have same : fits (if chosen row = true then change.apply row else row) = fits row := by
          split
          · rename_i picked
            exact keeps row (inside row List.mem_cons_self) picked
          · rfl
        rw [List.map_cons, List.find?_cons, List.find?_cons, same, ih fun row later => inside row (List.mem_cons_of_mem _ later)]
        cases fits row <;> rfl
  exact along table.rows fun _ stored => stored

/-- A lookup that found nothing finds the inserted row if it fits. -/
theorem find?_insert {new : New Row key} {fits : Row → Bool} (absent : table.rows.find? fits = none)
    (found : fits (table.next new) = true) : (table.insert new).rows.find? fits = some (table.next new) := by
  unfold insert
  rw [List.find?_append, absent]
  simp [found]

/-- Every row has a successor with the same frozen part. -/
def Kept {Part : Type} (part : Row → Part) (before after : Table Row key) : Prop :=
  ∀ row ∈ before.rows, ∃ later ∈ after.rows, part later = part row

namespace Kept

variable {Part : Type} {part : Row → Part}

theorem refl (table : Table Row key) : Kept part table table := fun row stored => ⟨row, stored, rfl⟩

theorem trans {first second third : Table Row key} (one : Kept part first second) (two : Kept part second third) :
    Kept part first third := by
  intro row stored
  obtain ⟨between, there, same⟩ := one row stored
  obtain ⟨later, present, equal⟩ := two between there
  exact ⟨later, present, equal.trans same⟩

theorem insert (table : Table Row key) (new : New Row key) : Kept part table (table.insert new) :=
  fun row stored => ⟨row, mem_insert_of_mem stored, rfl⟩

theorem update {table : Table Row key} {chosen : Row → Bool} {change : Change Row key}
    (frozen : ∀ row ∈ table.rows, chosen row = true → part (change.apply row) = part row) :
    Kept part table (table.update chosen change) := by
  intro row stored
  refine ⟨_, mem_update.mpr ⟨row, stored, rfl⟩, ?_⟩
  split
  · rename_i picked
    exact frozen row stored picked
  · rfl

end Kept

end PrimaryKey

end Table
