import AreaFlow.Library.GoStrings

namespace Go

/-- This function reads one hexadecimal digit. -/
def unhex (b : UInt8) : Option UInt8 :=
  if 48 ≤ b ∧ b ≤ 57 then some (b - 48)
  else if 97 ≤ b ∧ b ≤ 102 then some (b - 97 + 10)
  else if 65 ≤ b ∧ b ≤ 70 then some (b - 65 + 10)
  else none

/-- This function writes one hexadecimal digit in upper case. -/
def upperHex (n : UInt8) : UInt8 := if n < 10 then 48 + n else 55 + n

/-- This byte starts a percent triple. -/
def percent : UInt8 := 37

/-- A decoder is between triples, behind a percent sign, or behind the first digit of a triple. -/
inductive Decoding where
  | plain
  | first
  | second (high : UInt8)

/-- This loop decodes percent triples byte by byte. -/
def unescapeFrom : Decoding → GoString → Option GoString
  | .plain, [] => some []
  | .first, [] => none
  | .second _, [] => none
  | .plain, b :: rest => if b = percent then unescapeFrom .first rest else (unescapeFrom .plain rest).map (b :: ·)
  | .first, b :: rest => (unhex b).bind fun high => unescapeFrom (.second high) rest
  | .second high, b :: rest =>
      (unhex b).bind fun low => (unescapeFrom .plain rest).map ((high * 16 + low) :: ·)

/-- This function is `url.unescape` for a path. -/
def unescape (s : GoString) : Option GoString := unescapeFrom .plain s

/-- These bytes stay unescaped in every position. -/
def unreserved (b : UInt8) : Bool :=
  (97 ≤ b && b ≤ 122) || (65 ≤ b && b ≤ 90) || (48 ≤ b && b ≤ 57) ||
    b == 45 || b == 95 || b == 46 || b == 126

/-- This function is `url.shouldEscape` for a path: only `?` of the reserved bytes is escaped. -/
def shouldEscape (b : UInt8) : Bool :=
  !(unreserved b || (bytes "$&+,/:;=@").contains b)

/-- This function is `url.escape` for a path. -/
def escape (s : GoString) : GoString :=
  s.flatMap fun b => if shouldEscape b then [percent, upperHex (b / 16), upperHex (b % 16)] else [b]

/-- This function is `url.validEncoded` for a path. -/
def validEncoded (s : GoString) : Bool :=
  s.all fun b => (bytes "!$&'()*+,;=:@[]%").contains b || !shouldEscape b

/-- This function is `url.PathUnescape` with the fallback of the request multiplexer. -/
def pathUnescape (segment : GoString) : GoString := (unescape segment).getD segment

theorem unhex_upperHex (n : UInt8) (digit : n < 16) : unhex (upperHex n) = some n := by
  have cases16 : ∀ m : Fin 16, unhex (upperHex (UInt8.ofNat m.val)) = some (UInt8.ofNat m.val) := by decide
  have small : n.toNat < 16 := by simpa [UInt8.lt_iff_toNat_lt] using digit
  have at_n := cases16 ⟨n.toNat, small⟩
  simpa using at_n

theorem shouldEscape_percent : shouldEscape percent = true := by decide

theorem unescape_cons_of_ne {b : UInt8} (plain : b ≠ percent) (rest : GoString) :
    unescape (b :: rest) = (unescape rest).map (b :: ·) := by
  rw [unescape, unescapeFrom, if_neg plain, unescape]

theorem unescape_triple {high low h l : UInt8} (tail : GoString) (highHex : unhex high = some h)
    (lowHex : unhex low = some l) :
    unescape (percent :: high :: low :: tail) = (unescape tail).map ((h * 16 + l) :: ·) := by
  simp [unescape, unescapeFrom, highHex, lowHex]

theorem escape_cons (b : UInt8) (rest : GoString) :
    escape (b :: rest) =
      (if shouldEscape b then [percent, upperHex (b / 16), upperHex (b % 16)] else [b]) ++ escape rest := by
  simp [escape]

/-- A byte is the value of its two hexadecimal digits. -/
theorem hexDigits_value (b : UInt8) : b / 16 * 16 + b % 16 = b := by
  apply UInt8.toNat.inj
  have small := UInt8.toNat_lt b
  simp only [UInt8.toNat_add, UInt8.toNat_mul, UInt8.toNat_div, UInt8.toNat_mod, UInt8.toNat_ofNat,
    Nat.reducePow, Nat.reduceMod]
  omega

theorem highDigit_lt (b : UInt8) : b / 16 < 16 := by
  rw [UInt8.lt_iff_toNat_lt]
  have small := UInt8.toNat_lt b
  simp only [UInt8.toNat_div, UInt8.toNat_ofNat, Nat.reducePow, Nat.reduceMod]
  omega

theorem lowDigit_lt (b : UInt8) : b % 16 < 16 := by
  rw [UInt8.lt_iff_toNat_lt]
  simp only [UInt8.toNat_mod, UInt8.toNat_ofNat, Nat.reducePow, Nat.reduceMod]
  omega

/-- Unescaping inverts escaping. -/
@[simp] theorem unescape_escape (s : GoString) : unescape (escape s) = some s := by
  induction s with
  | nil => rfl
  | cons b rest ih =>
      rw [escape_cons]
      by_cases special : shouldEscape b = true
      · rw [if_pos special]
        simp only [List.cons_append, List.nil_append]
        rw [unescape_triple _ (unhex_upperHex _ (highDigit_lt b)) (unhex_upperHex _ (lowDigit_lt b)), ih,
          hexDigits_value]
        rfl
      · rw [if_neg special]
        have plain : b ≠ percent := by
          rintro rfl
          exact special shouldEscape_percent
        simp only [List.cons_append, List.nil_append]
        rw [unescape_cons_of_ne plain, ih]
        rfl

theorem unhex_slash : unhex slash = none := by decide

/-- A slash is not a digit, so decoding crosses it only between triples. -/
theorem unescapeFrom_append_slash (state : Decoding) (left right : GoString) :
    unescapeFrom state (left ++ slash :: right) =
      (unescapeFrom state left).bind fun l => (unescape right).map fun r => l ++ slash :: r := by
  induction left generalizing state with
  | nil =>
      cases state with
      | plain =>
          have plain : slash ≠ percent := by decide
          simp [unescapeFrom, unescape, plain]
      | first => simp [unescapeFrom, unhex_slash]
      | second high => simp [unescapeFrom, unhex_slash]
  | cons b rest ih =>
      cases state with
      | plain =>
          rw [List.cons_append, unescapeFrom, unescapeFrom]
          by_cases special : b = percent
          · rw [if_pos special, if_pos special, ih]
          · rw [if_neg special, if_neg special, ih]
            cases unescapeFrom .plain rest <;> simp [Function.comp_def]
      | first =>
          rw [List.cons_append, unescapeFrom, unescapeFrom]
          cases unhex b with
          | none => rfl
          | some high => simpa using ih (.second high)
      | second high =>
          rw [List.cons_append, unescapeFrom, unescapeFrom]
          cases unhex b with
          | none => rfl
          | some low =>
              simp only [Option.bind_some, ih]
              cases unescapeFrom .plain rest <;> simp [Function.comp_def]

/-- Unescaping works separately on the two sides of a slash. -/
theorem unescape_append_slash (left right : GoString) :
    unescape (left ++ slash :: right) =
      (unescape left).bind fun l => (unescape right).map fun r => l ++ slash :: r :=
  unescapeFrom_append_slash .plain left right

/-- This record is the part of a request URL that routing reads. A server accepts rooted targets only. -/
structure URL where
  path : GoString
  rawPath : GoString
  query : List (GoString × GoString)
  rooted : path = [] ∨ path.head? = some slash
  rawRooted : rawPath = [] ∨ rawPath.head? = some slash

theorem rooted_nil : ([] : GoString) = [] ∨ ([] : GoString).head? = some slash := Or.inl rfl

namespace URL

/-- This function is `URL.EscapedPath`. -/
def escapedPath (u : URL) : GoString :=
  if u.rawPath ≠ [] ∧ validEncoded u.rawPath = true ∧ unescape u.rawPath = some u.path then u.rawPath
  else if u.path = bytes "*" then bytes "*"
  else escape u.path

/-- This function is `Values.Get` on the parsed query. -/
def queryGet (u : URL) (key : GoString) : GoString :=
  ((u.query.find? fun entry => entry.1 == key).map (·.2)).getD []

/-- The escaped path always decodes to the path. -/
theorem unescape_escapedPath (u : URL) : unescape u.escapedPath = some u.path := by
  unfold escapedPath
  split
  · rename_i kept
    exact kept.2.2
  · split
    · rename_i star
      rw [star]
      decide
    · exact unescape_escape u.path

theorem escape_slash (s : GoString) : escape (slash :: s) = slash :: escape s := by
  rw [escape_cons, if_neg (by decide)]
  rfl

/-- The escaped path of a rooted target is empty or starts with a slash. -/
theorem escapedPath_rooted (u : URL) : u.escapedPath = [] ∨ ∃ rest, u.escapedPath = slash :: rest := by
  unfold escapedPath
  split
  · rename_i kept
    rcases u.rawRooted with empty | first
    · exact absurd empty kept.1
    · exact Or.inr ⟨_, (List.head?_eq_some_iff.mp first).choose_spec⟩
  · split
    · rename_i star
      rcases u.rooted with empty | first
      · simp [empty, bytes] at star
      · rw [star] at first
        exact absurd first (by decide)
    · rcases u.rooted with empty | first
      · rw [empty]
        exact Or.inl rfl
      · obtain ⟨rest, shape⟩ := List.head?_eq_some_iff.mp first
        rw [shape]
        exact Or.inr ⟨_, escape_slash rest⟩

end URL

end Go
