import Mathlib.Data.List.DropRight
import Mathlib.Data.List.Infix
import Mathlib.Data.List.Sort
import Mathlib.Data.List.TakeWhile
import Mathlib.Tactic

namespace Go

/-- A Go string is a finite sequence of bytes. -/
abbrev GoString := List UInt8

instance : LawfulBEq GoString := inferInstance

/-- This function gives the bytes of an ASCII literal. -/
def bytes (literal : String) : GoString := literal.toList.map fun c => UInt8.ofNat c.toNat

/-- This byte separates path segments. -/
def slash : UInt8 := 47

/-- This function is `strings.HasPrefix`. -/
def hasPrefix (s pre : GoString) : Bool := pre.isPrefixOf s

/-- This function is `strings.HasSuffix`. -/
def hasSuffix (s suf : GoString) : Bool := suf.isSuffixOf s

/-- This function is `strings.Contains`. -/
def containsText (s part : GoString) : Bool := s.tails.any fun rest => hasPrefix rest part

/-- This function is `strings.TrimPrefix`. -/
def trimPrefix (s pre : GoString) : GoString := if hasPrefix s pre then s.drop pre.length else s

/-- This function is the first result of `strings.Cut` at one byte. -/
def cutBefore (sep : UInt8) (s : GoString) : GoString := s.takeWhile (· ≠ sep)

/-- This function is `strings.Trim` with a one-byte cutset. -/
def trimByte (cut : UInt8) (s : GoString) : GoString :=
  (s.dropWhile (· = cut)).rdropWhile (· = cut)

/-- This function is `strings.Split` at one byte. -/
def split (sep : UInt8) (s : GoString) : List GoString := s.splitOn sep

theorem hasPrefix_iff {s pre : GoString} : hasPrefix s pre = true ↔ pre <+: s := by
  simp [hasPrefix]

theorem hasSuffix_iff {s suf : GoString} : hasSuffix s suf = true ↔ suf <:+ s := by
  simp [hasSuffix]

@[simp] theorem hasPrefix_append (pre rest : GoString) : hasPrefix (pre ++ rest) pre = true := by
  simp [hasPrefix]

@[simp] theorem trimPrefix_append (pre rest : GoString) : trimPrefix (pre ++ rest) pre = rest := by
  simp [trimPrefix]

/-- Cutting at a separator that follows a clean segment returns that segment. -/
theorem cutBefore_append_cons {sep : UInt8} {segment : GoString} (rest : GoString)
    (clean : sep ∉ segment) : cutBefore sep (segment ++ sep :: rest) = segment := by
  have all : ∀ b ∈ segment, decide (b ≠ sep) = true := by
    intro b member
    simp only [decide_eq_true_eq]
    rintro rfl
    exact clean member
  rw [cutBefore, List.takeWhile_append_of_pos all]
  simp

/-- Cutting a string without the separator returns the whole string. -/
theorem cutBefore_clean {sep : UInt8} {segment : GoString} (clean : sep ∉ segment) :
    cutBefore sep segment = segment := by
  rw [cutBefore, List.takeWhile_eq_self_iff]
  intro b member
  simp only [decide_eq_true_eq]
  rintro rfl
  exact clean member

/-- The cut segment never contains the separator. -/
theorem cutBefore_not_mem (sep : UInt8) (s : GoString) : sep ∉ cutBefore sep s := by
  intro member
  have kept := List.mem_takeWhile_imp member
  simp at kept

/-- A split string is the join of its segments. -/
theorem split_join (sep : UInt8) (s : GoString) : [sep].intercalate (split sep s) = s :=
  List.intercalate_splitOn sep

/-- The bytes of a segment are bytes of the split string. -/
theorem mem_of_mem_split {sep b : UInt8} {s segment : GoString} (member : segment ∈ split sep s) (inside : b ∈ segment) : b ∈ s := by
  have joined {segments : List GoString} (listed : segment ∈ segments) : b ∈ [sep].intercalate segments := by
    induction segments with
    | nil => cases listed
    | cons first rest ih =>
        cases rest with
        | nil => simpa [List.mem_singleton.mp listed] using inside
        | cons second others =>
            have shape : [sep].intercalate (first :: second :: others) =
                first ++ sep :: [sep].intercalate (second :: others) := by
              simp [List.intercalate]
            rw [shape, List.mem_append, List.mem_cons]
            rcases List.mem_cons.mp listed with rfl | later
            · exact .inl inside
            · exact .inr (.inr (ih later))
  rw [← split_join sep s]
  exact joined member

/-- No segment of a split string contains the separator. -/
theorem split_clean (sep : UInt8) (s : GoString) : ∀ segment ∈ split sep s, sep ∉ segment := by
  induction s with
  | nil => simp [split]
  | cons b rest ih =>
      rw [split, List.splitOn_cons_eq_if_modifyHead]
      by_cases same : b = sep
      · subst same
        simpa [split] using ih
      · have distinct : (b == sep) = false := by simpa using same
        rw [distinct]
        cases tail : List.splitOn sep rest with
        | nil => simp
        | cons head others =>
            rw [split, tail] at ih
            simp only [Bool.false_eq_true, if_false, List.modifyHead_cons, List.mem_cons, forall_eq_or_imp]
            refine ⟨?_, fun segment member => ih segment (List.mem_cons_of_mem _ member)⟩
            have headClean := ih head List.mem_cons_self
            intro present
            rcases present with eq | inside
            · exact same eq.symm
            · exact headClean inside

theorem split_ne_nil (sep : UInt8) (s : GoString) : split sep s ≠ [] := List.splitOn_ne_nil sep s

/-- A clean segment before a separator is the first segment of the split string. -/
theorem split_append_cons {sep : UInt8} {left : GoString} (right : GoString) (clean : sep ∉ left) :
    split sep (left ++ sep :: right) = left :: split sep right :=
  List.splitOn_append_cons_self_of_not_mem clean right

theorem split_eq_singleton {sep : UInt8} {s : GoString} (clean : sep ∉ s) : split sep s = [s] :=
  List.splitOn_eq_singleton clean

/-- A string has a first separator or none. -/
theorem first_separator (sep : UInt8) (s : GoString) :
    (∃ left right, s = left ++ sep :: right ∧ sep ∉ left) ∨ sep ∉ s := by
  by_cases present : sep ∈ s
  · obtain ⟨left, right, shape, clean⟩ := List.eq_append_cons_of_mem present
    exact Or.inl ⟨left, right, shape, clean⟩
  · exact Or.inr present

/-- Cutting a joined string returns its first segment. -/
theorem cutBefore_join {sep : UInt8} {first : GoString} (rest : List GoString) (clean : sep ∉ first) :
    cutBefore sep ([sep].intercalate (first :: rest)) = first := by
  cases rest with
  | nil => simpa [List.intercalate] using cutBefore_clean clean
  | cons second others =>
      have shape : [sep].intercalate (first :: second :: others) =
          first ++ sep :: [sep].intercalate (second :: others) := by
        simp [List.intercalate]
      rw [shape, cutBefore_append_cons _ clean]

/-- A joined string of at least two segments ends with a separator and its last segment. -/
theorem join_suffix (sep : UInt8) (first last : GoString) (middle : List GoString) :
    sep :: last <:+ [sep].intercalate (first :: middle ++ [last]) := by
  induction middle generalizing first with
  | nil => exact ⟨first, by simp [List.intercalate]⟩
  | cons second others ih =>
      have shape : [sep].intercalate (first :: (second :: others) ++ [last]) =
          (first ++ [sep]) ++ [sep].intercalate (second :: others ++ [last]) := by
        simp [List.intercalate]
      rw [shape]
      exact (ih second).trans (List.suffix_append _ _)

/-- A string that does not start with the cut byte keeps its front. -/
theorem dropWhile_eq_self {cut : UInt8} {s : GoString} (first : s.head? ≠ some cut) :
    s.dropWhile (· = cut) = s := by
  cases s with
  | nil => rfl
  | cons b rest =>
      have different : b ≠ cut := by simpa using first
      simp [different]

/-- A string that neither starts nor ends with the cut byte stays as it is. -/
theorem trimByte_eq_self {cut : UInt8} {s : GoString} (first : s.head? ≠ some cut)
    (last : s.getLast? ≠ some cut) : trimByte cut s = s := by
  rw [trimByte, dropWhile_eq_self first, List.rdropWhile_eq_self_iff]
  intro nonempty
  simp only [decide_eq_true_eq]
  intro same
  apply last
  rw [List.getLast?_eq_some_getLast nonempty, same]

/-- The trimmed string does not start with the cut byte. -/
theorem trimByte_head (cut : UInt8) (s : GoString) : (trimByte cut s).head? ≠ some cut := by
  intro start
  have inside : trimByte cut s <+: s.dropWhile (· = cut) := List.rdropWhile_prefix _ _
  obtain ⟨rest, joined⟩ := inside
  cases trimmed : trimByte cut s with
  | nil => simp [trimmed] at start
  | cons b tail =>
      have same : b = cut := by simpa [trimmed] using start
      have front : (s.dropWhile (· = cut)).head? = some cut := by
        rw [← joined, trimmed, same]
        rfl
      have stop := List.head?_dropWhile_not (fun b => decide (b = cut)) s
      rw [front] at stop
      simp at stop

/-- Trimming the end of a string keeps what stands before the first separator. -/
theorem cutBefore_trimByte {cut : UInt8} {s : GoString} (first : s.head? ≠ some cut) :
    cutBefore cut (trimByte cut s) = cutBefore cut s := by
  have joined : trimByte cut s ++ s.rtakeWhile (· = cut) = s := by
    rw [trimByte, dropWhile_eq_self first, List.rdropWhile, List.rtakeWhile, ← List.reverse_append,
      List.takeWhile_append_dropWhile, List.reverse_reverse]
  have nothing : cutBefore cut (s.rtakeWhile (· = cut)) = [] := by
    rw [cutBefore, List.takeWhile_eq_nil_iff]
    intro nonempty
    have last := List.mem_rtakeWhile_imp (List.getElem_mem nonempty)
    simpa using last
  conv_rhs => rw [← joined, cutBefore, List.takeWhile_append]
  split
  · rename_i whole
    have kept : (trimByte cut s).takeWhile (· ≠ cut) = trimByte cut s :=
      (List.takeWhile_prefix _).eq_of_length whole
    rw [show (s.rtakeWhile (· = cut)).takeWhile (· ≠ cut) = [] from nothing, List.append_nil]
    exact kept
  · rfl

/-- A mapped check succeeds exactly when the check succeeds. -/
theorem map_ok_iff {E A B : Type} {check : Except E A} {effect : A → B} {result : B} :
    check.map effect = .ok result ↔ ∃ value, check = .ok value ∧ effect value = result := by
  cases check <;> simp [Except.map]

end Go
