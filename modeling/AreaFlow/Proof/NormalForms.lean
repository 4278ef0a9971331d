import AreaFlow.Construction.Project.Queue
import AreaFlow.Library.CleanPath

namespace AreaFlow.Project
open Go

section Labels

/-- These bytes are removed at the ends of a label. -/
def isEdge (b : UInt8) : Bool := b == 45 || b == 46

def isLabelByte (b : UInt8) : Bool := isAlphanumeric b || b == 95 || b == 46 || b == 45

/-- Two dashes do not follow each other. -/
abbrev SingleDashes : GoString → Prop := List.IsChain fun a b => ¬(a = 45 ∧ b = 45)

/-- A label is a short file name without edges that a shell or a file system treats in its own way. -/
structure SafeLabel (label : GoString) : Prop where
  nonempty : 1 ≤ label.length
  short : label.length ≤ 80
  letters : ∀ b ∈ label, isLabelByte b = true
  dashes : SingleDashes label
  first : ∀ b ∈ label.head?, isEdge b = false
  last : ∀ b ∈ label.getLast?, isEdge b = false

variable {s : GoString}

theorem labelBytes_letters (lastDash : Bool) (s : GoString) : ∀ b ∈ labelBytes lastDash s, isLabelByte b = true := by
  induction s generalizing lastDash with
  | nil => simp [labelBytes]
  | cons b rest ih =>
      rw [labelBytes]
      split
      · rename_i kept
        intro c member
        rcases List.mem_cons.mp member with rfl | later
        · simp only [isLabelByte, Bool.or_eq_true] at kept ⊢
          exact .inl kept
        · exact ih false c later
      · split
        · exact ih true
        · intro c member
          rcases List.mem_cons.mp member with rfl | later
          · decide
          · exact ih true c later

/-- A dash is not followed by one: the flag of the loop remembers it. -/
theorem labelBytes_dashes (lastDash : Bool) (s : GoString) :
    SingleDashes (labelBytes lastDash s) ∧ (lastDash = true → ∀ b ∈ (labelBytes lastDash s).head?, b ≠ 45) := by
  induction s generalizing lastDash with
  | nil => simp [labelBytes]
  | cons b rest ih =>
      rw [labelBytes]
      split
      · rename_i kept
        have other : b ≠ 45 := by
          rintro rfl
          revert kept
          decide
        refine ⟨(ih false).1.cons fun c _ both => other both.1, fun _ c first => ?_⟩
        rw [← Option.some.inj first]
        exact other
      · split
        · rename_i dashed
          exact ⟨(ih true).1, fun _ => (ih true).2 rfl⟩
        · rename_i fresh
          exact ⟨(ih true).1.cons fun c next both => (ih true).2 rfl c next both.2, fun dashed => absurd dashed fresh⟩

/-- A text of label bytes without double dashes is copied. -/
theorem labelBytes_eq {lastDash : Bool} (letters : ∀ b ∈ s, isLabelByte b = true) (dashes : SingleDashes s)
    (fresh : lastDash = true → ∀ b ∈ s.head?, b ≠ 45) : labelBytes lastDash s = s := by
  induction s generalizing lastDash with
  | nil => rfl
  | cons b rest ih =>
      obtain ⟨next, later⟩ := List.isChain_cons.mp dashes
      have others : ∀ c ∈ rest, isLabelByte c = true := fun c member => letters c (List.mem_cons_of_mem _ member)
      rw [labelBytes]
      split
      · rw [ih others later (by simp)]
      · rename_i notKept
        have dash : b = 45 := by
          have letter := letters b List.mem_cons_self
          simp only [isLabelByte, Bool.or_eq_true, beq_iff_eq] at letter notKept
          exact letter.resolve_left notKept
        subst dash
        have plain : lastDash = false := by
          cases lastDash with
          | false => rfl
          | true => exact absurd rfl (fresh rfl 45 rfl)
        rw [if_neg (by simp [plain]), ih others later fun _ c first double => next c first ⟨rfl, double⟩]

theorem trimDashes_inside (s : GoString) : trimDashes s <:+: s :=
  (List.rdropWhile_prefix isEdge _).isInfix.trans (List.dropWhile_suffix isEdge).isInfix

theorem trimDashes_last (s : GoString) : ∀ b ∈ (trimDashes s).getLast?, isEdge b = false := by
  intro b member
  obtain ⟨present, rfl⟩ := List.mem_getLast?_eq_getLast member
  exact Bool.eq_false_iff.mpr (List.rdropWhile_last_not isEdge _ present)

theorem trimDashes_first (s : GoString) : ∀ b ∈ (trimDashes s).head?, isEdge b = false := by
  intro b member
  obtain ⟨rest, split⟩ := List.rdropWhile_prefix isEdge (s.dropWhile isEdge)
  have first : (s.dropWhile isEdge).head? = some b := by
    have start : ((s.dropWhile isEdge).rdropWhile isEdge).head? = some b := member
    rw [← split, List.head?_append, start]
    rfl
  have fits := List.head?_dropWhile_not isEdge s
  rw [first] at fits
  exact fits

theorem trimDashes_eq (first : ∀ b ∈ s.head?, isEdge b = false) (last : ∀ b ∈ s.getLast?, isEdge b = false) :
    trimDashes s = s := by
  have left : s.dropWhile isEdge = s := by
    cases s with
    | nil => rfl
    | cons b rest => rw [List.dropWhile_cons, if_neg (by simp [first b rfl])]
  change (s.dropWhile isEdge).rdropWhile isEdge = s
  rw [left, List.rdropWhile_eq_self_iff]
  intro present
  exact Bool.eq_false_iff.mp (last _ (List.getLast?_eq_some_getLast present))

/-- Parts of a written text have its bytes and no double dashes. -/
theorem safeLabel_of_trimmed {written part : GoString} (inside : part <:+: labelBytes false written)
    (present : trimDashes part ≠ []) (short : (trimDashes part).length ≤ 80) : SafeLabel (trimDashes part) where
  nonempty := List.length_pos_iff.mpr present
  short := short
  letters b member := labelBytes_letters false written b (((trimDashes_inside part).trans inside).subset member)
  dashes := List.IsChain.infix (labelBytes_dashes false written).1 ((trimDashes_inside part).trans inside)
  first := trimDashes_first part
  last := trimDashes_last part

theorem defaultLabel_safe : SafeLabel (bytes "approved-artifact") where
  nonempty := by decide +kernel
  short := by decide +kernel
  letters := by decide +kernel
  dashes := by decide +kernel
  first := by decide +kernel
  last := by decide +kernel

theorem normalizeApprovedArtifactLabel_safeLabel (label : GoString) : SafeLabel (normalizeApprovedArtifactLabel label) := by
  unfold normalizeApprovedArtifactLabel
  dsimp only
  split
  · split
    · exact defaultLabel_safe
    · rename_i kept
      refine safeLabel_of_trimmed ((List.take_prefix _ _).isInfix.trans (trimDashes_inside _)) (not_or.mp (not_or.mp kept).2).2 ?_
      calc (trimDashes ((trimDashes (labelBytes false (trimSpace label))).take 80)).length
          ≤ ((trimDashes (labelBytes false (trimSpace label))).take 80).length := (trimDashes_inside _).length_le
        _ ≤ 80 := List.length_take_le _ _
  · rename_i short
    split
    · exact defaultLabel_safe
    · rename_i kept
      exact safeLabel_of_trimmed List.infix_rfl (not_or.mp (not_or.mp kept).2).1 (by omega)

theorem labelByte_visible : ∀ code ∈ spaceRunes, ∀ b ∈ code, isLabelByte b = false := by decide +kernel

/-- A safe label is kept. -/
theorem SafeLabel.normalize_eq (safe : SafeLabel s) : normalizeApprovedArtifactLabel s = s := by
  have trimmed : trimSpace s = s := by
    apply trimSpace_of_free
    intro b member code rune inside
    have letter := safe.letters b member
    rw [labelByte_visible code rune b inside] at letter
    cases letter
  have present : s ≠ [] := List.length_pos_iff.mp safe.nonempty
  have copied : labelBytes false s = s := labelBytes_eq safe.letters safe.dashes (by simp)
  have ends : trimDashes s = s := trimDashes_eq safe.first safe.last
  simp only [normalizeApprovedArtifactLabel, trimmed, copied, ends]
  rw [if_neg (not_lt.mpr safe.short), if_neg (by simp [present])]

/-- Every label is made into a safe one, and that one is kept. -/
theorem normalizeApprovedArtifactLabel_normal (label : GoString) :
    SafeLabel (normalizeApprovedArtifactLabel label) ∧
      normalizeApprovedArtifactLabel (normalizeApprovedArtifactLabel label) = normalizeApprovedArtifactLabel label :=
  ⟨normalizeApprovedArtifactLabel_safeLabel label, (normalizeApprovedArtifactLabel_safeLabel label).normalize_eq⟩

end Labels

section Paths

/-- A path is relative and clean, its components are names, and below any root it is strictly inside. -/
structure ProjectPath (path : GoString) : Prop where
  relative : isRooted path = false
  clean : pathClean path = path
  names : ∀ name ∈ split slash path, Ordinary name
  inside : ∀ root, isRooted root = true → pathClean root = root → StrictlyInside root (pathJoin [root, path])

/-- This is the test of the code on the cleaned path: it is the project itself, absolute or above the project. -/
def Refused (path : GoString) : Prop :=
  pathClean (trimSpace path) = bytes "." ∨ (pathClean (trimSpace path)).head? = some slash ∨
    hasPrefix (pathClean (trimSpace path)) (bytes "../") = true ∨ pathClean (trimSpace path) = bytes ".."

instance (path : GoString) : Decidable (Refused path) := inferInstanceAs (Decidable (_ ∨ _ ∨ _ ∨ _))

variable {path : GoString}

theorem normalizeProjectRelativePath_eq (path : GoString) :
    normalizeProjectRelativePath path = if Refused path then [] else pathClean (trimSpace path) := by
  unfold normalizeProjectRelativePath
  dsimp only
  split
  · rename_i empty
    have refused : Refused path := .inl (by rw [empty]; decide)
    rw [if_pos refused]
  · rfl

/-- A path that is not refused has names only. -/
theorem unrefused_names (accepted : ¬Refused path) :
    ∃ names, names ≠ [] ∧ (∀ name ∈ names, Ordinary name) ∧ pathClean (trimSpace path) = render false names := by
  simp only [Refused, not_or] at accepted
  obtain ⟨notDot, relative, notAbove, notUp⟩ := accepted
  have normal := pathSegments_normal (trimSpace path)
  rw [pathClean_eq_render] at notDot relative notAbove notUp ⊢
  have unrooted : isRooted (trimSpace path) = false := by
    rw [← isRooted_render normal]
    exact Bool.eq_false_iff.mpr fun rooted => relative (beq_iff_eq.mp rooted)
  rw [unrooted] at normal notDot notAbove notUp ⊢
  refine ⟨_, mt (render_eq_dot normal).mpr notDot, ?_, rfl⟩
  obtain named | ⟨rest, ups, _⟩ := normal.names_or_up
  · exact named
  · rw [ups] at normal notAbove notUp
    by_cases single : rest = []
    · subst single
      exact absurd (by simp [render, up]) notUp
    · exact absurd ((hasPrefix_render normal).mpr ⟨rest, single, rfl⟩) notAbove

theorem unrefused_projectPath (accepted : ¬Refused path) : ProjectPath (pathClean (trimSpace path)) := by
  obtain ⟨names, some, named, text⟩ := unrefused_names accepted
  have empty : Normal false [] := ⟨0, [], by simp, by simp, fun _ => rfl⟩
  have normal : Normal false names := by simpa using empty.append_names named
  rw [text]
  refine ⟨isRooted_render normal, ?_, ?_, ?_⟩
  · rw [pathClean_eq_render, isRooted_render normal, pathSegments_render normal]
  · have parts : split slash (render false names) = names := by
      rw [render, if_neg (by simp), if_neg some]
      exact List.splitOn_intercalate slash (fun name member => (named name member).clean) some
    rwa [parts]
  · intro root rooted clean
    have base := pathSegments_normal root
    rw [rooted] at base
    rw [pathJoin_below root named, rooted]
    have text : root = render true (pathSegments root) := by rw [← rooted, ← pathClean_eq_render, clean]
    conv_lhs => rw [text]
    exact strictlyInside_render base some named

/-- A path is a safe normal form unless cleaning brings white space to its ends; that white space is lost when the path is
normalized again. -/
theorem normalizeProjectRelativePath_normal_iff (path : GoString) :
    ((normalizeProjectRelativePath path = [] ∨ ProjectPath (normalizeProjectRelativePath path)) ∧
      normalizeProjectRelativePath (normalizeProjectRelativePath path) = normalizeProjectRelativePath path) ↔
      Refused path ∨ trimSpace (pathClean (trimSpace path)) = pathClean (trimSpace path) := by
  by_cases refused : Refused path
  · have none : normalizeProjectRelativePath path = [] := by rw [normalizeProjectRelativePath_eq, if_pos refused]
    have again : normalizeProjectRelativePath [] = [] := by decide
    simp [refused, none, again]
  · have kept : normalizeProjectRelativePath path = pathClean (trimSpace path) := by
      rw [normalizeProjectRelativePath_eq, if_neg refused]
    have safe := unrefused_projectPath refused
    rw [kept]
    simp only [safe, or_true, true_and, refused, false_or]
    obtain ⟨names, some, named, text⟩ := unrefused_names refused
    have present : pathClean (trimSpace path) ≠ [] := by
      rw [text]
      have empty : Normal false [] := ⟨0, [], by simp, by simp, fun _ => rfl⟩
      exact render_ne_nil (by simpa using empty.append_names named)
    constructor
    · intro same
      -- cleaning does not make a path longer, so nothing was trimmed
      rw [normalizeProjectRelativePath_eq] at same
      split at same
      · exact absurd same.symm present
      · have trimmed := trimSpace_inside (pathClean (trimSpace path))
        have left : trimSpace (pathClean (trimSpace path)) ≠ [] := by
          intro none
          rw [none] at same
          have blank : Refused (pathClean (trimSpace path)) := .inl (by rw [none]; decide)
          contradiction
        have length := pathClean_length left
        rw [same] at length
        exact trimmed.sublist.eq_of_length_le length
    · intro same
      have stays : ¬Refused (pathClean (trimSpace path)) := by
        unfold Refused at refused ⊢
        rw [same, safe.clean]
        exact refused
      rw [normalizeProjectRelativePath_eq, if_neg stays, same, safe.clean]

/-- The second component starts with a blank, and cleaning moves it to the front. -/
theorem blankName_renormalized :
    normalizeProjectRelativePath (bytes "./ a") = bytes " a" ∧
      normalizeProjectRelativePath (normalizeProjectRelativePath (bytes "./ a")) = bytes "a" := by
  decide +kernel

end Paths

end AreaFlow.Project
