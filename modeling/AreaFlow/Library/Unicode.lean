import AreaFlow.Library.GoStrings

namespace Go

/-- This rune stands for a byte that starts no valid encoding. -/
def runeError : Nat := 0xFFFD

/-- This is the range of the second byte that may follow a first byte, and the width of the encoding. -/
def leadByte (b : Nat) : Option (Nat × Nat × Nat) :=
  if 0xC2 ≤ b ∧ b ≤ 0xDF then some (0x80, 0xBF, 2)
  else if b = 0xE0 then some (0xA0, 0xBF, 3)
  else if b = 0xED then some (0x80, 0x9F, 3)
  else if 0xE1 ≤ b ∧ b ≤ 0xEF then some (0x80, 0xBF, 3)
  else if b = 0xF0 then some (0x90, 0xBF, 4)
  else if 0xF1 ≤ b ∧ b ≤ 0xF3 then some (0x80, 0xBF, 4)
  else if b = 0xF4 then some (0x80, 0x8F, 4)
  else none

/-- These are the continuation bytes of an encoding after its first two bytes. -/
def continuation (bs : List Nat) : Bool := bs.all fun b => 0x80 ≤ b && b ≤ 0xBF

/-- This function is `utf8.DecodeRuneInString` on a non-empty string: the rune and its width. -/
def decodeRune (first : UInt8) (rest : GoString) : Nat × Nat :=
  let b := first.toNat
  if b < 0x80 then (b, 1)
  else
    match leadByte b with
    | none => (runeError, 1)
    | some (low, high, width) =>
        match (rest.take (width - 1)).map UInt8.toNat with
        | second :: more =>
            if low ≤ second ∧ second ≤ high ∧ more.length = width - 2 ∧ continuation more = true then
              (more.foldl (fun value c => value * 64 + c % 64)
                ((b % 2 ^ (7 - width)) * 64 + second % 64), width)
            else (runeError, 1)
        | [] => (runeError, 1)

/-- One step of the decoder skips the rest of the last encoding and then reads a rune. -/
def runesFrom : Nat → GoString → List Nat
  | _, [] => []
  | skip + 1, _ :: rest => runesFrom skip rest
  | 0, b :: rest => (decodeRune b rest).1 :: runesFrom ((decodeRune b rest).2 - 1) rest

/-- These are the runes over which a loop ranges. -/
def runes (s : GoString) : List Nat := runesFrom 0 s

/-- These are the case tables of the runtime: the lower case of a rune, and one fixed member of the runes
that simple folding identifies with it. -/
structure CaseTables where
  lower : Nat → Nat
  fold : Nat → Nat

namespace CaseTables

variable (tables : CaseTables)

/-- This function gives the runes of `strings.ToLower`. -/
def toLower (s : GoString) : List Nat := (runes s).map tables.lower

/-- This is the folded form of a string. -/
def folded (s : GoString) : List Nat := (runes s).map tables.fold

/-- This function is `strings.EqualFold`. -/
def equalFold (s t : GoString) : Bool := tables.folded s == tables.folded t

end CaseTables

/-- These tables know the Latin letters only. -/
def asciiCase : CaseTables where
  lower r := if 65 ≤ r ∧ r ≤ 90 then r + 32 else r
  fold r := if 65 ≤ r ∧ r ≤ 90 then r + 32 else r

/-- This function lowers the ASCII letters. -/
def lowerASCII (s : GoString) : GoString := s.map fun b => if 65 ≤ b ∧ b ≤ 90 then b + 32 else b

example : runes [0x48, 0xC3, 0xA9, 0xFF, 0xE2, 0x82, 0xAC, 0xF0, 0x9F, 0x98, 0x80] =
    [0x48, 0xE9, 0xFFFD, 0x20AC, 0x1F600] := by decide

end Go
