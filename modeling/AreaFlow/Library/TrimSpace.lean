import AreaFlow.Library.GoStrings

namespace Go

section Strip

variable {A : Type}

/-- No code word starts the list. -/
def Stripped (codes : List (List A)) (s : List A) : Prop := ∀ code ∈ codes, ¬ code <+: s

/-- A prefix of a stripped list is stripped. -/
theorem Stripped.mono {codes : List (List A)} {s t : List A} (stripped : Stripped codes t)
    (inside : s <+: t) : Stripped codes s :=
  fun code member start => stripped code member (start.trans inside)

variable [DecidableEq A]

/-- One step removes the first code word that starts the list. -/
def stripOne (codes : List (List A)) (s : List A) : Option (List A) :=
  (codes.find? (·.isPrefixOf s)).map fun code => s.drop code.length

/-- The fuel bounds the number of removed code words. -/
def stripAll (codes : List (List A)) : Nat → List A → List A
  | 0, s => s
  | fuel + 1, s =>
      match stripOne codes s with
      | none => s
      | some rest => stripAll codes fuel rest

theorem stripOne_eq_none {codes : List (List A)} {s : List A} :
    stripOne codes s = none ↔ Stripped codes s := by
  simp [stripOne, Stripped]

/-- A successful step removes one code word from the front. -/
theorem stripOne_eq_some {codes : List (List A)} {s rest : List A}
    (step : stripOne codes s = some rest) : ∃ code ∈ codes, s = code ++ rest := by
  rw [stripOne, Option.map_eq_some_iff] at step
  obtain ⟨code, found, dropped⟩ := step
  have start : code <+: s := by simpa using List.find?_some found
  obtain ⟨tail, joined⟩ := start
  refine ⟨code, List.mem_of_find?_eq_some found, ?_⟩
  rw [← dropped, ← joined]
  simp

/-- The stripped list is a suffix of its input. -/
theorem stripAll_suffix (codes : List (List A)) (fuel : Nat) (s : List A) :
    stripAll codes fuel s <:+ s := by
  induction fuel generalizing s with
  | zero => exact List.suffix_refl s
  | succ fuel ih =>
      rw [stripAll]
      cases step : stripOne codes s with
      | none => exact List.suffix_refl s
      | some rest =>
          obtain ⟨code, _, joined⟩ := stripOne_eq_some step
          exact (ih rest).trans ⟨code, joined.symm⟩

/-- Enough fuel removes every leading code word. -/
theorem stripAll_stripped {codes : List (List A)} (nonempty : ∀ code ∈ codes, code ≠ [])
    (fuel : Nat) (s : List A) (enough : s.length ≤ fuel) : Stripped codes (stripAll codes fuel s) := by
  induction fuel generalizing s with
  | zero =>
      have empty : s = [] := List.length_eq_zero_iff.mp (Nat.le_zero.mp enough)
      subst empty
      intro code member start
      exact nonempty code member (List.prefix_nil.mp start)
  | succ fuel ih =>
      rw [stripAll]
      cases step : stripOne codes s with
      | none => exact stripOne_eq_none.mp step
      | some rest =>
          obtain ⟨code, member, joined⟩ := stripOne_eq_some step
          have positive : 0 < code.length := List.length_pos_of_ne_nil (nonempty code member)
          apply ih rest
          rw [joined, List.length_append] at enough
          omega

/-- A list without a leading code word stays as it is. -/
theorem stripAll_of_stripped {codes : List (List A)} {s : List A} (stripped : Stripped codes s)
    (fuel : Nat) : stripAll codes fuel s = s := by
  cases fuel with
  | zero => rfl
  | succ fuel => rw [stripAll, stripOne_eq_none.mpr stripped]

section Barrier

variable {codes : List (List A)} {letter : A}

/-- A code word does not reach beyond a letter that it does not have. -/
theorem isPrefixOf_barrier {code : List A} (outside : letter ∉ code) (s rest : List A) :
    code.isPrefixOf (s ++ letter :: rest) = code.isPrefixOf s := by
  induction code generalizing s with
  | nil => simp
  | cons first code ih =>
      simp only [List.mem_cons, not_or] at outside
      cases s with
      | nil => simp [List.isPrefixOf, Ne.symm outside.1]
      | cons b s => simp [List.isPrefixOf, ih outside.2]

theorem stripOne_barrier (outside : ∀ code ∈ codes, letter ∉ code) (s rest : List A) :
    stripOne codes (s ++ letter :: rest) = (stripOne codes s).map (· ++ letter :: rest) := by
  have found : codes.find? (·.isPrefixOf (s ++ letter :: rest)) = codes.find? (·.isPrefixOf s) :=
    List.find?_congr fun code member => isPrefixOf_barrier (outside code member) s rest
  unfold stripOne
  rw [found]
  cases first : codes.find? (·.isPrefixOf s) with
  | none => rfl
  | some code =>
      have start : code <+: s := by simpa using List.find?_some first
      simp [List.drop_append_of_le_length start.length_le]

/-- Stripping stops before a letter that no code word has. -/
theorem stripAll_barrier (nonempty : ∀ code ∈ codes, code ≠ []) (outside : ∀ code ∈ codes, letter ∉ code)
    (rest : List A) {fuel enough : Nat} {s : List A} (large : s.length ≤ fuel) (larger : s.length ≤ enough) :
    stripAll codes enough (s ++ letter :: rest) = stripAll codes fuel s ++ letter :: rest := by
  induction fuel generalizing s enough with
  | zero =>
      have empty : s = [] := List.length_eq_zero_iff.mp (Nat.le_zero.mp large)
      subst empty
      apply stripAll_of_stripped
      intro code member start
      rw [← List.isPrefixOf_iff_prefix, isPrefixOf_barrier (outside code member) [] rest, List.isPrefixOf_iff_prefix,
        List.prefix_nil] at start
      exact nonempty code member start
  | succ fuel ih =>
      cases step : stripOne codes s with
      | none =>
          have stays : stripOne codes (s ++ letter :: rest) = none := by
            rw [stripOne_barrier outside, step]
            rfl
          rw [stripAll_of_stripped (stripOne_eq_none.mp stays), stripAll_of_stripped (stripOne_eq_none.mp step)]
      | some tail =>
          obtain ⟨code, member, joined⟩ := stripOne_eq_some step
          have positive : 0 < code.length := List.length_pos_of_ne_nil (nonempty code member)
          have lengths := congrArg List.length joined
          rw [List.length_append] at lengths
          obtain ⟨less, rfl⟩ : ∃ less, enough = less + 1 := ⟨enough - 1, by omega⟩
          rw [stripAll, stripAll, stripOne_barrier outside, step]
          exact ih (by omega) (by omega)

end Barrier

end Strip

/-- These are the UTF-8 encodings of the runes that `unicode.IsSpace` accepts. -/
def spaceRunes : List GoString :=
  [[0x09], [0x0A], [0x0B], [0x0C], [0x0D], [0x20], [0xC2, 0x85], [0xC2, 0xA0], [0xE1, 0x9A, 0x80],
   [0xE2, 0x80, 0x80], [0xE2, 0x80, 0x81], [0xE2, 0x80, 0x82], [0xE2, 0x80, 0x83], [0xE2, 0x80, 0x84],
   [0xE2, 0x80, 0x85], [0xE2, 0x80, 0x86], [0xE2, 0x80, 0x87], [0xE2, 0x80, 0x88], [0xE2, 0x80, 0x89],
   [0xE2, 0x80, 0x8A], [0xE2, 0x80, 0xA8], [0xE2, 0x80, 0xA9], [0xE2, 0x80, 0xAF], [0xE2, 0x81, 0x9F],
   [0xE3, 0x80, 0x80]]

/-- This function removes the leading white space. -/
def trimLeftSpace (s : GoString) : GoString := stripAll spaceRunes s.length s

/-- This function removes the trailing white space. -/
def trimRightSpace (s : GoString) : GoString :=
  (stripAll (spaceRunes.map List.reverse) s.length s.reverse).reverse

/-- This function is `strings.TrimSpace`. -/
def trimSpace (s : GoString) : GoString := trimRightSpace (trimLeftSpace s)

theorem spaceRunes_nonempty : ∀ code ∈ spaceRunes, code ≠ [] := by decide

theorem spaceRunes_reverse_nonempty : ∀ code ∈ spaceRunes.map List.reverse, code ≠ [] := by decide

/-- The right trim keeps a prefix of its input. -/
theorem trimRightSpace_start (s : GoString) : trimRightSpace s <+: s := by
  have inside := stripAll_suffix (spaceRunes.map List.reverse) s.length s.reverse
  rw [trimRightSpace]
  exact List.reverse_suffix.mp (by simpa using inside)

/-- A trimmed string is a part of its input. -/
theorem trimSpace_inside (s : GoString) : trimSpace s <:+: s :=
  (trimRightSpace_start _).isInfix.trans (stripAll_suffix spaceRunes s.length s).isInfix

/-- No white space starts a trimmed string. -/
theorem trimSpace_stripped_left (s : GoString) : Stripped spaceRunes (trimSpace s) :=
  (stripAll_stripped spaceRunes_nonempty s.length s (Nat.le_refl _)).mono (trimRightSpace_start _)

/-- No white space ends a trimmed string. -/
theorem trimSpace_stripped_right (s : GoString) :
    Stripped (spaceRunes.map List.reverse) (trimSpace s).reverse := by
  rw [trimSpace, trimRightSpace, List.reverse_reverse]
  exact stripAll_stripped spaceRunes_reverse_nonempty _ _ (by simp)

/-- A string without white space at its ends stays as it is. -/
theorem trimSpace_of_stripped {s : GoString} (left : Stripped spaceRunes s)
    (right : Stripped (spaceRunes.map List.reverse) s.reverse) : trimSpace s = s := by
  have leftTrimmed : trimLeftSpace s = s := stripAll_of_stripped left _
  have rightTrimmed : trimRightSpace s = s := by
    rw [trimRightSpace, stripAll_of_stripped right, List.reverse_reverse]
  rw [trimSpace, leftTrimmed, rightTrimmed]

/-- Trimming twice gives the same string. -/
@[simp] theorem trimSpace_trimSpace (s : GoString) : trimSpace (trimSpace s) = trimSpace s :=
  trimSpace_of_stripped (trimSpace_stripped_left s) (trimSpace_stripped_right s)

/-- No code word starts a list if none has its first letter. -/
theorem Stripped.cons {codes : List GoString} {letter : UInt8} (nonempty : ∀ code ∈ codes, code ≠ [])
    (other : ∀ code ∈ codes, code.head? ≠ some letter) (rest : GoString) : Stripped codes (letter :: rest) := by
  intro code member start
  cases code with
  | nil => exact nonempty [] member rfl
  | cons first tail =>
      rw [(List.cons_prefix_cons.mp start).1] at member
      exact other _ member rfl

/-- A text whose letters are in no white space stays as it is. -/
theorem trimSpace_of_free {s : GoString} (free : ∀ b ∈ s, ∀ code ∈ spaceRunes, b ∉ code) : trimSpace s = s := by
  have stripped {codes : List GoString} {t : GoString} (nonempty : ∀ code ∈ codes, code ≠ [])
      (outside : ∀ b ∈ t, ∀ code ∈ codes, b ∉ code) : Stripped codes t := by
    intro code member start
    obtain ⟨b, tail, rfl⟩ := List.exists_cons_of_ne_nil (nonempty code member)
    exact outside b (start.subset List.mem_cons_self) _ member List.mem_cons_self
  apply trimSpace_of_stripped (stripped spaceRunes_nonempty free)
  apply stripped spaceRunes_reverse_nonempty
  intro b member code listed
  obtain ⟨rune, known, rfl⟩ := List.mem_map.mp listed
  rw [List.mem_reverse]
  exact free b (List.mem_reverse.mp member) rune known

/-- Trimming stays behind a letter that no white space has. -/
theorem trimSpace_barrier {first letter : UInt8} (left : ∀ code ∈ spaceRunes, code.head? ≠ some first)
    (outside : ∀ code ∈ spaceRunes, letter ∉ code) (front back : GoString) :
    trimSpace (first :: (front ++ letter :: back)) = first :: (front ++ letter :: trimRightSpace back) := by
  have leftTrimmed : trimLeftSpace (first :: (front ++ letter :: back)) = first :: (front ++ letter :: back) :=
    stripAll_of_stripped (.cons spaceRunes_nonempty left _) _
  have reversed : (first :: (front ++ letter :: back)).reverse = back.reverse ++ letter :: (first :: front).reverse := by
    simp
  have codes : ∀ code ∈ spaceRunes.map List.reverse, letter ∉ code := by
    intro code member
    obtain ⟨rune, known, rfl⟩ := List.mem_map.mp member
    simpa using outside rune known
  rw [trimSpace, leftTrimmed, trimRightSpace, reversed,
    stripAll_barrier spaceRunes_reverse_nonempty codes _ (Nat.le_refl back.reverse.length) (by simp; omega)]
  simp [trimRightSpace]

/-- There is always another trimmed text. -/
theorem exists_trimmed_not_mem (texts : List GoString) : ∃ text, trimSpace text = text ∧ text ≠ [] ∧ text ∉ texts := by
  -- a text of one letter that is longer than all the others
  refine ⟨List.replicate ((texts.map List.length).sum + 1) 0x78, trimSpace_of_stripped ?_ ?_, ?_, fun member => ?_⟩
  · exact .cons spaceRunes_nonempty (by decide) _
  · rw [List.reverse_replicate]
    exact .cons spaceRunes_reverse_nonempty (by decide) _
  · exact List.cons_ne_nil _ _
  · have bound := List.le_sum_of_mem (List.mem_map_of_mem (f := List.length) member)
    rw [List.length_replicate] at bound
    omega

end Go
