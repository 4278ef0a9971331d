import AreaFlow.Library.GoStrings

namespace Go

/-- This loop reads decimal digits. -/
def parseDigits : Nat → GoString → Option Nat
  | value, [] => some value
  | value, b :: rest => if 48 ≤ b ∧ b ≤ 57 then parseDigits (value * 10 + (b - 48).toNat) rest else none

/-- This function is `strconv.ParseUint` in base ten without a bound. -/
def parseDecimal (s : GoString) : Option Nat := if s = [] then none else parseDigits 0 s

/-- This function is `strconv.ParseInt` in base ten for 64 bits. -/
def parseInt64 (s : GoString) : Option Int :=
  let magnitude := match s with
    | 43 :: digits => (parseDecimal digits).map fun n => (n : Int)
    | 45 :: digits => (parseDecimal digits).map fun n => -(n : Int)
    | digits => (parseDecimal digits).map fun n => (n : Int)
  magnitude.bind fun value => if -(2 ^ 63) ≤ value ∧ value < 2 ^ 63 then some value else none

/-- A decimal digit as a byte. -/
def isDigit (b : UInt8) : Bool := decide (48 ≤ b ∧ b ≤ 57)

section Decimal

theorem parseDigits_append (value : Nat) (s t : GoString) :
    parseDigits value (s ++ t) = (parseDigits value s).bind fun read => parseDigits read t := by
  induction s generalizing value with
  | nil => rfl
  | cons b rest ih =>
      rw [List.cons_append, parseDigits, parseDigits]
      split
      · exact ih _
      · rfl

/-- This is the byte of a decimal digit. -/
theorem digit_byte : ∀ n < 10, isDigit (UInt8.ofNat (Nat.digitChar n).toNat) = true ∧
    (UInt8.ofNat (Nat.digitChar n).toNat - 48).toNat = n := by decide

theorem bytes_natString (n : Nat) : bytes (toString n) = (Nat.toDigits 10 n).map fun c => UInt8.ofNat c.toNat := by
  rw [bytes, Nat.toString_eq_ofList_toDigits, String.toList_ofList]

/-- The decimal text of a number ends with its last digit. -/
theorem bytes_natString_step (n : Nat) :
    bytes (toString n) = (if n < 10 then [] else bytes (toString (n / 10))) ++ [UInt8.ofNat (Nat.digitChar (n % 10)).toNat] := by
  rw [bytes_natString, Nat.toDigits_eq_if (by decide)]
  split
  · rename_i small
    simp [Nat.mod_eq_of_lt small]
  · rw [bytes_natString, List.map_append, Nat.mod_def]
    simp

theorem parseDigits_natString (n : Nat) : parseDigits 0 (bytes (toString n)) = some n := by
  induction n using Nat.strongRecOn with
  | ind n ih =>
      obtain ⟨digit, value⟩ := digit_byte (n % 10) (Nat.mod_lt n (by decide))
      have range := of_decide_eq_true digit
      rw [bytes_natString_step, parseDigits_append]
      split
      · rename_i small
        simp only [parseDigits, Option.bind_some, if_pos range, value]
        rw [Nat.mod_eq_of_lt small, Nat.zero_mul, Nat.zero_add]
      · rename_i large
        rw [ih (n / 10) (by omega)]
        simp only [parseDigits, Option.bind_some, if_pos range, value]
        rw [Nat.div_add_mod']

theorem natString_digits (n : Nat) : ∀ b ∈ bytes (toString n), isDigit b = true := by
  induction n using Nat.strongRecOn with
  | ind n ih =>
      intro b member
      rw [bytes_natString_step] at member
      rcases List.mem_append.mp member with before | last
      · split at before
        · cases before
        · exact ih (n / 10) (by omega) b before
      · rw [List.mem_singleton.mp last]
        exact (digit_byte (n % 10) (Nat.mod_lt n (by decide))).1

/-- The text of a negative number is a minus and the text of its magnitude. -/
theorem bytes_intString (i : Int) :
    bytes (toString i) = if 0 ≤ i then bytes (toString i.toNat) else 45 :: bytes (toString (-i).toNat) := by
  rw [Int.toString_eq_repr, Int.repr_eq_if, Nat.toString_eq_repr, Nat.toString_eq_repr]
  split
  · rfl
  · rw [bytes, String.toList_append, List.map_append]
    rfl

/-- The text of an integer has digits and perhaps a minus. -/
theorem intString_letters (i : Int) : ∀ b ∈ bytes (toString i), b = 45 ∨ isDigit b = true := by
  intro b member
  rw [bytes_intString] at member
  split at member
  · exact Or.inr (natString_digits _ b member)
  · rcases List.mem_cons.mp member with minus | digit
    · exact Or.inl minus
    · exact Or.inr (natString_digits _ b digit)

theorem intString_injective {i j : Int} (same : bytes (toString i) = bytes (toString j)) : i = j := by
  have natural {m n : Nat} (equal : bytes (toString m) = bytes (toString n)) : m = n := by
    have read := congrArg (parseDigits 0) equal
    rw [parseDigits_natString, parseDigits_natString] at read
    exact Option.some.inj read
  have unsigned (n : Nat) (rest : GoString) : bytes (toString n) ≠ 45 :: rest := by
    intro equal
    have digit := natString_digits n 45 (by rw [equal]; exact List.mem_cons_self)
    exact absurd digit (by decide)
  rw [bytes_intString, bytes_intString] at same
  split at same <;> split at same
  · have := natural same
    omega
  · exact absurd same (unsigned _ _)
  · exact absurd same.symm (unsigned _ _)
  · have := natural (List.cons.inj same).2
    omega

end Decimal

end Go
