import AreaFlow.Library.Unicode

namespace Go.Json

/-- This function cuts a text into the encodings of its runes; a byte that starts no valid encoding stands alone. -/
def chunksFrom : Nat → GoString → List GoString
  | 0, _ => []
  | _ + 1, [] => []
  | fuel + 1, b :: rest =>
      let width := (decodeRune b rest).2
      (b :: rest.take (width - 1)) :: chunksFrom fuel (rest.drop (width - 1))

def chunks (s : GoString) : List GoString := chunksFrom s.length s

def hexDigit (n : Nat) : UInt8 := UInt8.ofNat (if n < 10 then 48 + n else 87 + n)

/-- This is a digest of 64 digits. It stands for a hash function in runs on fixed inputs and tells short texts apart. -/
def digest (text : GoString) : GoString :=
  let value := text.foldl (fun sum byte => sum * 257 + byte.toNat + 1) 0
  (List.range 64).map fun place => hexDigit (value / 16 ^ place % 16)

theorem digest_ne_nil (text : GoString) : digest text ≠ [] := by
  simp [digest]

/-- This is the text of an ASCII character inside a JSON string; the characters of markup are escaped too. -/
def escapeByte (b : UInt8) : GoString :=
  if b = 34 ∨ b = 92 then [92, b]
  else if b = 8 then bytes "\\b"
  else if b = 12 then bytes "\\f"
  else if b = 10 then bytes "\\n"
  else if b = 13 then bytes "\\r"
  else if b = 9 then bytes "\\t"
  else if b < 32 ∨ b = 60 ∨ b = 62 ∨ b = 38 then
    bytes "\\u00" ++ [hexDigit (b.toNat / 16), hexDigit (b.toNat % 16)]
  else [b]

/-- This is the text of one rune. An invalid byte becomes the escaped replacement rune, whatever byte it is. -/
def escape : GoString → GoString
  | [b] => if b < 128 then escapeByte b else bytes "\\ufffd"
  | chunk =>
      if chunk = [0xE2, 0x80, 0xA8] then bytes "\\u2028"
      else if chunk = [0xE2, 0x80, 0xA9] then bytes "\\u2029"
      else chunk

/-- This function is `json.Marshal` on a string. -/
def quote (s : GoString) : GoString := [34] ++ (chunks s).flatMap escape ++ [34]

/-- This function is `json.Marshal` on a list of strings that is not nil. -/
def array (texts : List GoString) : GoString := [91] ++ [44].intercalate (texts.map quote) ++ [93]

/-- This function is `json.Marshal` on a list of strings that may be nil. -/
def strings (texts : Option (List GoString)) : GoString := texts.elim (bytes "null") array

/-- This is an object whose fields are given in the order of their keys, with encoded values. -/
def object (entries : List (GoString × GoString)) : GoString :=
  [123] ++ [44].intercalate (entries.map fun entry => quote entry.1 ++ [58] ++ entry.2) ++ [125]

example : quote (bytes "a\"<\n" ++ [0xC3, 0xA9, 0xFF, 0xE2, 0x80, 0xA8]) =
    bytes "\"a\\\"\\u003c\\n" ++ [0xC3, 0xA9] ++ bytes "\\ufffd\\u2028\"" := by decide

example : object [(bytes "a", array [bytes "x", bytes "y"]), (bytes "b", quote [])] =
    bytes "\x7b\"a\":[\"x\",\"y\"],\"b\":\"\"\x7d" := by decide

/-- This is the encoding of one rune. -/
def validChunk : GoString → Bool
  | [] => false
  | [b] => b < 128
  | b :: rest =>
      match leadByte b.toNat with
      | none => false
      | some (_, _, width) => rest.length + 1 == width

/-- A text is valid UTF-8. -/
def valid (s : GoString) : Bool := (chunks s).all validChunk

/-- The encodings of the runes make up the text. -/
theorem chunksFrom_flatten (fuel : Nat) (s : GoString) (enough : s.length ≤ fuel) : (chunksFrom fuel s).flatten = s := by
  induction fuel generalizing s with
  | zero =>
      rw [List.eq_nil_of_length_eq_zero (Nat.le_zero.mp enough)]
      rfl
  | succ fuel ih =>
      cases s with
      | nil => rfl
      | cons b rest =>
          have shorter : (rest.drop ((decodeRune b rest).2 - 1)).length ≤ fuel := by
            simp at enough ⊢
            omega
          simp [chunksFrom, ih _ shorter]

theorem chunks_injective {s t : GoString} (same : chunks s = chunks t) : s = t := by
  rw [← chunksFrom_flatten s.length s le_rfl, ← chunksFrom_flatten t.length t le_rfl]
  exact congrArg List.flatten same

/-- These are the escaped runes with their texts. -/
def escapes : List (GoString × GoString) :=
  ((List.range 128).map fun b => ([UInt8.ofNat b], escapeByte (UInt8.ofNat b))).filter (fun entry => entry.2.head? == some 92) ++
    [([0xE2, 0x80, 0xA8], bytes "\\u2028"), ([0xE2, 0x80, 0xA9], bytes "\\u2029")]

/-- None of these texts starts another one. -/
theorem escapes_free : ∀ one ∈ escapes, ∀ two ∈ escapes, one.2.isPrefixOf two.2 = true → one.1 = two.1 := by
  decide +kernel

theorem escapes_head : ∀ one ∈ escapes, one.2.head? = some 92 := by decide +kernel

/-- A character that is not escaped is no quote. -/
theorem escapeByte_unescaped : ∀ b < 128, (escapeByte (UInt8.ofNat b)).head? ≠ some 92 →
    escapeByte (UInt8.ofNat b) = [UInt8.ofNat b] ∧ UInt8.ofNat b ≠ 34 ∧ UInt8.ofNat b ≠ 92 := by
  decide +kernel

/-- This is the number of bytes that follow the first byte of an encoding. -/
def tailLength (b : UInt8) : Nat := ((leadByte b.toNat).map fun lead => lead.2.2 - 1).getD 0

/-- This is the text of the encoding of a rune: an escape, or the encoding itself. -/
inductive Escaped : GoString → GoString → Prop where
  | escape {chunk text : GoString} (listed : (chunk, text) ∈ escapes) : Escaped chunk text
  | raw {b : UInt8} {rest : GoString} (unquoted : b ≠ 34) (unescaped : b ≠ 92) (whole : rest.length = tailLength b) :
      Escaped (b :: rest) (b :: rest)

theorem lead_large {b : UInt8} {lead : Nat × Nat × Nat} (leads : leadByte b.toNat = some lead) : ¬ b < 128 := by
  intro small
  have bound : b.toNat < 128 := UInt8.lt_iff_toNat_lt.mp small
  unfold leadByte at leads
  repeat (split at leads; · omega)
  cases leads

theorem escapeByte_escaped {b : UInt8} (ascii : b < 128) : Escaped [b] (escapeByte b) := by
  have bound : b.toNat < 128 := UInt8.lt_iff_toNat_lt.mp ascii
  have entry := List.mem_map_of_mem (f := fun b => ([UInt8.ofNat b], escapeByte (UInt8.ofNat b)))
    (List.mem_range.mpr bound)
  rw [UInt8.ofNat_toNat] at entry
  by_cases escaped : (escapeByte b).head? = some 92
  · exact .escape (List.mem_append_left _ (List.mem_filter.mpr ⟨entry, by simp [escaped]⟩))
  · obtain ⟨same, unquoted, unescaped⟩ := escapeByte_unescaped b.toNat bound (by simpa using escaped)
    rw [UInt8.ofNat_toNat] at same unquoted unescaped
    have single : tailLength b = 0 := by
      cases leads : leadByte b.toNat with
      | none => simp [tailLength, leads]
      | some lead => exact absurd ascii (lead_large leads)
    rw [same]
    exact .raw unquoted unescaped single.symm

theorem escape_escaped {chunk : GoString} (isValid : validChunk chunk = true) : Escaped chunk (escape chunk) := by
  unfold validChunk at isValid
  split at isValid
  · cases isValid
  · rename_i b
    have ascii : b < 128 := by simpa using isValid
    have text : escape [b] = escapeByte b := if_pos ascii
    rw [text]
    exact escapeByte_escaped ascii
  · rename_i b rest several
    split at isValid
    · cases isValid
    · rename_i low high width lead
      have whole : rest.length + 1 = width := by simpa using isValid
      have large := lead_large lead
      unfold escape
      split
      · rename_i same
        cases same
        exact absurd rfl several
      split
      · rename_i same
        rw [same]
        exact .escape (List.mem_append_right _ (by simp))
      split
      · rename_i same
        rw [same]
        exact .escape (List.mem_append_right _ (by simp))
      · have tail : rest.length = tailLength b := by
          simp [tailLength, lead, ← whole]
        refine .raw (fun quote => large ?_) (fun backslash => large ?_) tail
        · rw [quote]
          decide
        · rw [backslash]
          decide

/-- An escape starts with a backslash. -/
theorem escapes_cons {chunk text : GoString} (listed : (chunk, text) ∈ escapes) : ∃ rest, text = 92 :: rest :=
  List.head?_eq_some_iff.mp (escapes_head _ listed)

/-- The text of no rune starts the text of another one. -/
theorem Escaped.free {first second one two : GoString} (left : Escaped first one) (right : Escaped second two)
    (starts : one <+: two) : first = second := by
  cases left with
  | escape listed =>
      cases right with
      | escape other => exact escapes_free _ listed _ other (List.isPrefixOf_iff_prefix.mpr starts)
      | raw _ unescaped _ =>
          obtain ⟨rest, rfl⟩ := escapes_cons listed
          exact absurd (List.cons_prefix_cons.mp starts).1.symm unescaped
  | raw _ unescaped whole =>
      cases right with
      | escape other =>
          obtain ⟨rest, rfl⟩ := escapes_cons other
          exact absurd (List.cons_prefix_cons.mp starts).1 unescaped
      | raw _ _ wide =>
          obtain ⟨same, rest⟩ := List.cons_prefix_cons.mp starts
          subst same
          rw [rest.eq_of_length (whole.trans wide.symm)]

/-- The text of a rune is not empty and does not start with a quote. -/
theorem Escaped.cons {chunk text : GoString} (escaped : Escaped chunk text) :
    ∃ first rest, text = first :: rest ∧ first ≠ 34 := by
  cases escaped with
  | escape listed =>
      obtain ⟨rest, split⟩ := escapes_cons listed
      exact ⟨92, rest, split, by decide⟩
  | raw unquoted _ _ => exact ⟨_, _, rfl, unquoted⟩

/-- The runes of a quoted text can be read back up to the closing quote. -/
theorem flatMap_escape_cancel {first second : List GoString} (left : ∀ chunk ∈ first, validChunk chunk = true)
    (right : ∀ chunk ∈ second, validChunk chunk = true) {x y : GoString}
    (same : first.flatMap escape ++ 34 :: x = second.flatMap escape ++ 34 :: y) : first = second ∧ x = y := by
  induction first generalizing second with
  | nil =>
      cases second with
      | nil => exact ⟨rfl, (List.cons.inj same).2⟩
      | cons chunk rest =>
          obtain ⟨head, tail, split, bare⟩ := (escape_escaped (right chunk List.mem_cons_self)).cons
          rw [List.flatMap_cons, split] at same
          exact absurd (List.cons.inj same).1.symm bare
  | cons chunk rest ih =>
      have escaped := escape_escaped (left chunk List.mem_cons_self)
      cases second with
      | nil =>
          obtain ⟨head, tail, split, bare⟩ := escaped.cons
          rw [List.flatMap_cons, split] at same
          exact absurd (List.cons.inj same).1 bare
      | cons other more =>
          have escapedOther := escape_escaped (right other List.mem_cons_self)
          rw [List.flatMap_cons, List.flatMap_cons, List.append_assoc, List.append_assoc] at same
          have equal : chunk = other := by
            rcases List.prefix_or_prefix_of_prefix (List.prefix_append _ _) (same ▸ List.prefix_append _ _) with starts | starts
            · exact (escapedOther.free escaped starts).symm
            · exact escaped.free escapedOther starts
          subst equal
          obtain ⟨rests, ends⟩ := ih (fun part inside => left part (List.mem_cons_of_mem _ inside))
            (fun part inside => right part (List.mem_cons_of_mem _ inside)) (List.append_cancel_left same)
          exact ⟨congrArg _ rests, ends⟩

/-- A valid text can be read back from its quoted form, whatever follows. -/
theorem quote_cancel {s t x y : GoString} (left : valid s = true) (right : valid t = true)
    (same : quote s ++ x = quote t ++ y) : s = t ∧ x = y := by
  unfold quote at same
  simp only [List.cons_append, List.append_assoc, List.cons.injEq, true_and] at same
  obtain ⟨equal, ends⟩ := flatMap_escape_cancel (List.all_eq_true.mp left) (List.all_eq_true.mp right) same
  exact ⟨chunks_injective equal, ends⟩

/-- Joined texts are the first one and then the others, each after its comma. -/
theorem intercalate_comma (first : GoString) (rest : List GoString) :
    [44].intercalate (first :: rest) = first ++ rest.flatMap (44 :: ·) := by
  induction rest generalizing first with
  | nil => simp [List.intercalate]
  | cons next more ih =>
      have later := ih next
      simp only [List.intercalate, List.flatMap_cons] at later ⊢
      simp [List.intersperse, later]

/-- The elements of an array after the first one, each with its comma. -/
def following (texts : List GoString) : GoString := texts.flatMap fun text => 44 :: quote text

theorem array_cons (text : GoString) (rest : List GoString) :
    array (text :: rest) = [91] ++ quote text ++ following rest ++ [93] := by
  rw [array, List.map_cons, intercalate_comma, List.flatMap_map]
  simp [following]

/-- The elements of a list of valid texts can be read back up to the closing bracket. -/
theorem following_cancel {first second : List GoString} (left : ∀ text ∈ first, valid text = true)
    (right : ∀ text ∈ second, valid text = true) {x y : GoString}
    (same : following first ++ 93 :: x = following second ++ 93 :: y) : first = second ∧ x = y := by
  induction first generalizing second with
  | nil =>
      cases second with
      | nil => exact ⟨rfl, (List.cons.inj same).2⟩
      | cons text rest => exact absurd (List.cons.inj same).1 (by decide)
  | cons text rest ih =>
      cases second with
      | nil => exact absurd (List.cons.inj same).1 (by decide)
      | cons other more =>
          simp only [following, List.flatMap_cons, List.cons_append, List.append_assoc, List.cons.injEq, true_and] at same
          obtain ⟨equal, later⟩ := quote_cancel (left text List.mem_cons_self) (right other List.mem_cons_self) same
          obtain ⟨rests, ends⟩ := ih (fun part inside => left part (List.mem_cons_of_mem _ inside))
            (fun part inside => right part (List.mem_cons_of_mem _ inside)) later
          exact ⟨equal ▸ rests ▸ rfl, ends⟩

/-- A list of valid texts can be read back from its array, whatever follows. -/
theorem array_cancel {first second : List GoString} (left : ∀ text ∈ first, valid text = true)
    (right : ∀ text ∈ second, valid text = true) {x y : GoString} (same : array first ++ x = array second ++ y) :
    first = second ∧ x = y := by
  cases first with
  | nil =>
      cases second with
      | nil => exact ⟨rfl, List.append_cancel_left same⟩
      | cons other more =>
          rw [array_cons] at same
          exact absurd (List.cons.inj (List.cons.inj same).2).1 (by decide)
  | cons text rest =>
      cases second with
      | nil =>
          rw [array_cons] at same
          exact absurd (List.cons.inj (List.cons.inj same).2).1 (by decide)
      | cons other more =>
          rw [array_cons, array_cons] at same
          simp only [List.cons_append, List.append_assoc, List.cons.injEq, true_and] at same
          obtain ⟨equal, later⟩ := quote_cancel (left text List.mem_cons_self) (right other List.mem_cons_self) same
          obtain ⟨rests, ends⟩ := following_cancel (fun part inside => left part (List.mem_cons_of_mem _ inside))
            (fun part inside => right part (List.mem_cons_of_mem _ inside)) later
          exact ⟨equal ▸ rests ▸ rfl, ends⟩

/-- A text ends where it ends, whatever follows it and the other one. -/
def Delimited (one two : GoString) : Prop := ∀ x y, one ++ x = two ++ y → one = two ∧ x = y

/-- The members of an object after the first one can be read back if their values are delimited. -/
theorem members_cancel {first second : List (GoString × GoString)}
    (alike : List.Forall₂ (fun one two => one.1 = two.1 ∧ Delimited one.2 two.2) first second)
    (same : (first.map fun entry => quote entry.1 ++ [58] ++ entry.2).flatMap (44 :: ·) ++ [125] =
      (second.map fun entry => quote entry.1 ++ [58] ++ entry.2).flatMap (44 :: ·) ++ [125]) : first = second := by
  induction alike with
  | nil => rfl
  | @cons one two rest more agree _ ih =>
      simp only [List.map_cons, List.flatMap_cons, List.cons_append, List.append_assoc, List.cons.injEq, true_and,
        agree.1] at same
      obtain ⟨equal, later⟩ := agree.2 _ _ (List.cons.inj (List.append_cancel_left same)).2
      rw [ih (by simpa using later), Prod.ext agree.1 equal]

/-- Objects with the same keys and delimited values are the same if their texts are. -/
theorem object_injective {first second : List (GoString × GoString)}
    (alike : List.Forall₂ (fun one two => one.1 = two.1 ∧ Delimited one.2 two.2) first second)
    (same : object first = object second) : first = second := by
  cases alike with
  | nil => rfl
  | cons agree rest =>
      refine members_cancel (.cons agree rest) ?_
      unfold object at same
      rw [List.map_cons, List.map_cons, intercalate_comma, intercalate_comma] at same
      simpa using same

theorem quote_delimited {s t : GoString} (left : valid s = true) (right : valid t = true) :
    Delimited (quote s) (quote t) := by
  intro x y same
  obtain ⟨equal, ends⟩ := quote_cancel left right same
  exact ⟨congrArg quote equal, ends⟩

theorem quote_injective {s t : GoString} (left : valid s = true) (right : valid t = true) (same : quote s = quote t) :
    s = t :=
  (quote_cancel left right (congrArg (· ++ []) same)).1

theorem strings_cancel {first second : Option (List GoString)} (left : ∀ texts ∈ first, ∀ text ∈ texts, valid text = true)
    (right : ∀ texts ∈ second, ∀ text ∈ texts, valid text = true) {x y : GoString}
    (same : strings first ++ x = strings second ++ y) : first = second ∧ x = y := by
  -- a list starts with a bracket and a nil list with a letter
  have opens : ∀ texts : List GoString, ∀ x y, array texts ++ x ≠ bytes "null" ++ y := by
    intro texts x y equal
    exact absurd (List.cons.inj equal).1 (by decide)
  cases first with
  | none =>
      cases second with
      | none => exact ⟨rfl, List.append_cancel_left same⟩
      | some texts => exact absurd same.symm (opens texts y x)
  | some texts =>
      cases second with
      | none => exact absurd same (opens texts x y)
      | some others =>
          obtain ⟨rfl, ends⟩ := array_cancel (left texts rfl) (right others rfl) same
          exact ⟨rfl, ends⟩

theorem strings_delimited {first second : Option (List GoString)} (left : ∀ texts ∈ first, ∀ text ∈ texts, valid text = true)
    (right : ∀ texts ∈ second, ∀ text ∈ texts, valid text = true) : Delimited (strings first) (strings second) := by
  intro x y same
  obtain ⟨equal, ends⟩ := strings_cancel left right same
  exact ⟨congrArg strings equal, ends⟩

theorem strings_injective {first second : Option (List GoString)} (left : ∀ texts ∈ first, ∀ text ∈ texts, valid text = true)
    (right : ∀ texts ∈ second, ∀ text ∈ texts, valid text = true) (same : strings first = strings second) : first = second :=
  (strings_cancel left right (congrArg (· ++ []) same)).1

end Go.Json
