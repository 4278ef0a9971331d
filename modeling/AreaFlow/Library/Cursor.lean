import Mathlib.Tactic
import Mathlib.Data.List.Sort

namespace Cursor

variable {Row : Type} (key : Row → Int)

/-- These are rows in the order of their keys. -/
def ascending (rows : List Row) : List Row := rows.insertionSort fun first second => key first ≤ key second

/-- These are the first rows after a cursor, up to a limit. -/
def batch (limit : Nat) (cursor : Int) (rows : List Row) : List Row :=
  (ascending key (rows.filter fun row => cursor < key row)).take limit

/-- These are the last rows, up to a limit, in the order of their keys. -/
def latest (limit : Nat) (rows : List Row) : List Row :=
  ascending key ((rows.insertionSort fun first second => key second ≤ key first).take limit)

/-- This is the cursor after some rows were delivered. -/
def advance (cursor : Int) (rows : List Row) : Int := rows.foldl (fun _ row => key row) cursor

/-- The keys of some rows grow strictly. -/
def Growing (rows : List Row) : Prop := rows.Pairwise fun first second => key first < key second

variable {key} {limit : Nat} {cursor : Int} {rows delivered : List Row} {row : Row}

theorem mem_ascending : row ∈ ascending key rows ↔ row ∈ rows := List.mem_insertionSort _

/-- Rows with distinct keys are sorted strictly. -/
theorem ascending_growing (distinct : (rows.map key).Nodup) : Growing key (ascending key rows) := by
  have total : Std.Total fun first second : Row => key first ≤ key second := ⟨fun first second => le_total _ _⟩
  have trans : IsTrans Row fun first second => key first ≤ key second := ⟨fun _ _ _ one two => le_trans one two⟩
  have sorted : (ascending key rows).Pairwise fun first second => key first ≤ key second :=
    List.pairwise_insertionSort _ _
  have unique : ((ascending key rows).map key).Nodup :=
    ((List.perm_insertionSort _ rows).map key).nodup_iff.mpr distinct
  have apart : (ascending key rows).Pairwise fun first second => key first ≠ key second := List.pairwise_map.mp unique
  exact (sorted.and apart).imp fun both => lt_of_le_of_ne both.1 both.2

/-- A row that is not among the first ones of a strictly sorted list comes after all of them, and there are enough of
them. -/
theorem Growing.take_full (growing : Growing key rows) (member : row ∈ rows) (left : row ∉ rows.take limit) :
    (rows.take limit).length = limit ∧ ∀ other ∈ rows.take limit, key other < key row := by
  rw [← List.take_append_drop limit rows] at member growing
  have later : row ∈ rows.drop limit := (List.mem_append.mp member).resolve_left left
  constructor
  · have long : limit < rows.length := by
      by_contra short
      rw [List.drop_eq_nil_of_le (Nat.le_of_not_lt short)] at later
      exact List.not_mem_nil later
    simp [Nat.le_of_lt long]
  · exact fun other earlier => (List.pairwise_append.mp growing).2.2 other earlier row later

theorem mem_batch (member : row ∈ batch key limit cursor rows) : row ∈ rows ∧ cursor < key row := by
  have filtered := mem_ascending.mp (List.mem_of_mem_take member)
  simpa using List.mem_filter.mp filtered

theorem batch_growing (distinct : (rows.map key).Nodup) : Growing key (batch key limit cursor rows) :=
  (ascending_growing ((List.Sublist.map key List.filter_sublist).nodup distinct)).sublist (List.take_sublist _ _)

/-- A row after the cursor that is not delivered comes after a full batch. -/
theorem batch_full (distinct : (rows.map key).Nodup) (member : row ∈ rows) (after : cursor < key row)
    (left : row ∉ batch key limit cursor rows) :
    (batch key limit cursor rows).length = limit ∧ ∀ other ∈ batch key limit cursor rows, key other < key row := by
  have growing := ascending_growing ((List.Sublist.map key
    (List.filter_sublist (p := fun row : Row => decide (cursor < key row)))).nodup distinct)
  exact growing.take_full (mem_ascending.mpr (List.mem_filter.mpr ⟨member, by simpa using after⟩)) left

theorem mem_latest (member : row ∈ latest key limit rows) : row ∈ rows :=
  (List.mem_insertionSort _).mp (List.mem_of_mem_take (mem_ascending.mp member))

theorem latest_growing (distinct : (rows.map key).Nodup) : Growing key (latest key limit rows) := by
  apply ascending_growing
  apply (List.Sublist.map key (List.take_sublist _ _)).nodup
  exact ((List.perm_insertionSort _ rows).map key).nodup_iff.mpr distinct

/-- A few rows are all among the last ones. -/
theorem mem_latest_of_few (few : rows.length ≤ limit) (member : row ∈ rows) : row ∈ latest key limit rows := by
  unfold latest
  rw [mem_ascending, List.take_of_length_le (by rwa [List.length_insertionSort])]
  exact (List.mem_insertionSort _).mpr member

/-- The cursor is the key of the last row that was delivered, if there is one. -/
theorem advance_cons (first : Row) (rest : List Row) : advance key cursor (first :: rest) = advance key (key first) rest :=
  rfl

/-- A cursor that moves over growing keys is behind none of them. -/
theorem le_advance (growing : Growing key delivered) (ahead : ∀ row ∈ delivered, cursor < key row) :
    cursor ≤ advance key cursor delivered ∧ ∀ row ∈ delivered, key row ≤ advance key cursor delivered := by
  induction delivered generalizing cursor with
  | nil => exact ⟨le_refl cursor, fun _ member => nomatch member⟩
  | cons first rest ih =>
      obtain ⟨above, later⟩ := List.pairwise_cons.mp growing
      obtain ⟨low, high⟩ := ih later above
      have start := ahead first List.mem_cons_self
      rw [advance_cons]
      refine ⟨by omega, fun row member => ?_⟩
      rcases List.mem_cons.mp member with rfl | other
      · exact low
      · exact high row other

/-- A cursor stays below a bound that all delivered keys are below. -/
theorem advance_lt {bound : Int} (start : cursor < bound) (below : ∀ row ∈ delivered, key row < bound) :
    advance key cursor delivered < bound := by
  induction delivered generalizing cursor with
  | nil => exact start
  | cons first rest ih =>
      exact ih (below first List.mem_cons_self) fun row member => below row (List.mem_cons_of_mem first member)

/-- This is an upper bound of the rounds that a cursor needs to reach a key. -/
def gap (cursor goal : Int) : Nat := (goal - cursor).toNat

theorem gap_pos {goal : Int} (after : cursor < goal) : 0 < gap cursor goal := by
  unfold gap
  omega

theorem gap_nearer {later goal : Int} (nearer : cursor < later) (after : later < goal) : gap later goal < gap cursor goal := by
  unfold gap
  omega

end Cursor
