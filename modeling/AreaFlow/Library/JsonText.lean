import AreaFlow.Library.Json
import AreaFlow.Library.Strconv

namespace Go.Json

/-- This is a JSON value. A number keeps its text, and an object keeps every member in its order. -/
inductive Value where
  | null
  | bool (value : Bool)
  | number (text : GoString)
  | string (text : GoString)
  | array (items : List Value)
  | object (members : List (GoString × Value))

section Scanner

def isSpace (b : UInt8) : Bool := b == 32 || b == 9 || b == 13 || b == 10

def skipSpace (text : GoString) : GoString := text.dropWhile isSpace

/-- This function is `utf8.EncodeRune`. -/
def encodeRune (rune : Nat) : GoString :=
  let tail (n : Nat) : UInt8 := UInt8.ofNat (128 + n % 64)
  if rune < 0x80 then [UInt8.ofNat rune]
  else if rune < 0x800 then [UInt8.ofNat (192 + rune / 64), tail rune]
  else if 0x10FFFF < rune ∨ 0xD800 ≤ rune ∧ rune ≤ 0xDFFF then [0xEF, 0xBF, 0xBD]
  else if rune < 0x10000 then [UInt8.ofNat (224 + rune / 4096), tail (rune / 64), tail rune]
  else [UInt8.ofNat (240 + rune / 262144), tail (rune / 4096), tail (rune / 64), tail rune]

def hexValue (b : UInt8) : Option Nat :=
  if 48 ≤ b ∧ b ≤ 57 then some (b.toNat - 48)
  else if 97 ≤ b ∧ b ≤ 102 then some (b.toNat - 87)
  else if 65 ≤ b ∧ b ≤ 70 then some (b.toNat - 55)
  else none

/-- This function reads four hexadecimal digits. -/
def hex4 : GoString → Option (Nat × GoString)
  | a :: b :: c :: d :: rest => do
      let a ← hexValue a
      let b ← hexValue b
      let c ← hexValue c
      let d ← hexValue d
      some (((a * 16 + b) * 16 + c) * 16 + d, rest)
  | _ => none

/-- These are the characters that an escape of one letter stands for. -/
def shortEscapes : List (UInt8 × UInt8) :=
  [(34, 34), (92, 92), (47, 47), (98, 8), (102, 12), (110, 10), (114, 13), (116, 9)]

/-- A surrogate is the first half of a pair, or it becomes the replacement rune. -/
def readSurrogate (high : Nat) (rest : GoString) : GoString × GoString :=
  match rest with
  | 92 :: 117 :: more =>
      match hex4 more with
      | some (low, after) =>
          if high < 0xDC00 ∧ 0xDC00 ≤ low ∧ low ≤ 0xDFFF then
            (encodeRune (0x10000 + (high - 0xD800) * 1024 + (low - 0xDC00)), after)
          else (encodeRune runeError, rest)
      | none => (encodeRune runeError, rest)
  | _ => (encodeRune runeError, rest)

/-- This function reads one character inside a string. A byte that starts no valid encoding becomes the replacement
rune. -/
def readUnit : GoString → Option (GoString × GoString)
  | [] => none
  | 92 :: rest =>
      match rest with
      | [] => none
      | letter :: after =>
          if letter = 117 then
            match hex4 after with
            | none => none
            | some (rune, more) =>
                if 0xD800 ≤ rune ∧ rune ≤ 0xDFFF then some (readSurrogate rune more) else some (encodeRune rune, more)
          else (shortEscapes.lookup letter).map fun byte => ([byte], after)
  | b :: rest =>
      if b < 32 then none
      else if b < 128 then some ([b], rest)
      else if (decodeRune b rest).2 = 1 then some (encodeRune runeError, rest)
      else some (b :: rest.take ((decodeRune b rest).2 - 1), rest.drop ((decodeRune b rest).2 - 1))

/-- This function reads a string after its opening quote. -/
def readChars : Nat → GoString → Option (GoString × GoString)
  | 0, _ => none
  | fuel + 1, text =>
      match text with
      | 34 :: rest => some ([], rest)
      | _ =>
          match readUnit text with
          | none => none
          | some (unit, rest) => (readChars fuel rest).map fun result => (unit ++ result.1, result.2)

def readString (text : GoString) : Option (GoString × GoString) := readChars (text.length + 1) text

/-- A run of digits that is not empty is split off. -/
def readDigits (text : GoString) : Option (GoString × GoString) :=
  if text.takeWhile isDigit = [] then none else some (text.takeWhile isDigit, text.dropWhile isDigit)

/-- The integer part is a zero, or it starts with another digit. -/
def readInteger : GoString → Option (GoString × GoString)
  | 48 :: rest => some ([48], rest)
  | text => readDigits text

def readFraction : GoString → Option (GoString × GoString)
  | 46 :: rest => (readDigits rest).map fun result => (46 :: result.1, result.2)
  | text => some ([], text)

def readExponent : GoString → Option (GoString × GoString)
  | b :: rest =>
      if b = 101 ∨ b = 69 then
        match rest with
        | 43 :: more => (readDigits more).map fun result => (b :: 43 :: result.1, result.2)
        | 45 :: more => (readDigits more).map fun result => (b :: 45 :: result.1, result.2)
        | _ => (readDigits rest).map fun result => (b :: result.1, result.2)
      else some ([], b :: rest)
  | [] => some ([], [])

/-- This function reads a number after its sign. -/
def readUnsigned (text : GoString) : Option (GoString × GoString) := do
  let (whole, rest) ← readInteger text
  let (fraction, rest) ← readFraction rest
  let (exponent, rest) ← readExponent rest
  some (whole ++ fraction ++ exponent, rest)

def readNumber : GoString → Option (GoString × GoString)
  | 45 :: rest => (readUnsigned rest).map fun result => (45 :: result.1, result.2)
  | text => readUnsigned text

end Scanner

section Parser

/-- This function reads a value that is neither an array nor an object. The reader decides which numbers it can hold. -/
def readScalar (holds : GoString → Bool) (text : GoString) : Option (Value × GoString) :=
  match text with
  | 34 :: rest => (readString rest).map fun result => (.string result.1, result.2)
  | _ =>
      if hasPrefix text (bytes "null") then some (.null, text.drop 4)
      else if hasPrefix text (bytes "true") then some (.bool true, text.drop 4)
      else if hasPrefix text (bytes "false") then some (.bool false, text.drop 5)
      else
        match readNumber text with
        | none => none
        | some (number, rest) => if holds number then some (.number number, rest) else none

variable {A : Type}

/-- This function reads items up to a closing byte. -/
def readItems (item : GoString → Option (A × GoString)) (close : UInt8) : Nat → GoString → Option (List A × GoString)
  | 0, _ => none
  | fuel + 1, text =>
      match item (skipSpace text) with
      | none => none
      | some (value, rest) =>
          match skipSpace rest with
          | [] => none
          | b :: more =>
              if b = 44 then (readItems item close fuel more).map fun result => (value :: result.1, result.2)
              else if b = close then some ([value], more)
              else none

/-- A list may be empty. -/
def readList (item : GoString → Option (A × GoString)) (close : UInt8) (text : GoString) : Option (List A × GoString) :=
  match skipSpace text with
  | [] => none
  | b :: rest => if b = close then some ([], rest) else readItems item close text.length text

/-- This function reads a key, a colon and a value. -/
def readMember (value : GoString → Option (A × GoString)) : GoString → Option ((GoString × A) × GoString)
  | 34 :: rest =>
      match readString rest with
      | none => none
      | some (key, rest) =>
          match skipSpace rest with
          | 58 :: rest => (value (skipSpace rest)).map fun result => ((key, result.1), result.2)
          | _ => none
  | _ => none

/-- This function reads a value with a bounded number of nested arrays and objects. -/
def readValue (holds : GoString → Bool) : Nat → GoString → Option (Value × GoString)
  | 0, text => if text.head? = some 91 ∨ text.head? = some 123 then none else readScalar holds text
  | depth + 1, text =>
      match text with
      | 91 :: rest => (readList (readValue holds depth) 93 rest).map fun result => (.array result.1, result.2)
      | 123 :: rest =>
          (readList (readMember (readValue holds depth)) 125 rest).map fun result => (.object result.1, result.2)
      | _ => readScalar holds text

/-- This is the bound on nested values. -/
def maxNestingDepth : Nat := 10000

/-- This function reads a whole text as one value. -/
def parse (holds : GoString → Bool) (text : GoString) : Option Value :=
  match readValue holds maxNestingDepth (skipSpace text) with
  | none => none
  | some (value, rest) => if skipSpace rest = [] then some value else none

end Parser

section Unmarshal

variable {A : Type}

/-- A value is stored in a variable. An absent answer is an error. -/
abbrev Setter (A : Type) := A → Value → Option A

def setText : Setter GoString
  | _, .string text => some text
  | old, .null => some old
  | _, _ => none

/-- A member is stored in the field of its name, and else in a field whose name differs in case only. -/
def setMember (tables : CaseTables) (fields : List (GoString × Setter A)) (old : A) (entry : GoString × Value) : Option A :=
  match (fields.find? (·.1 == entry.1)).or (fields.find? fun field => tables.equalFold field.1 entry.1) with
  | none => some old
  | some field => field.2 old entry.2

/-- The members of an object are stored one after another. -/
def setStruct (tables : CaseTables) (fields : List (GoString × Setter A)) : Setter A
  | old, .object members => members.foldlM (setMember tables fields) old
  | old, .null => some old
  | _, _ => none

/-- This function is `json.Unmarshal` into a structure. -/
def unmarshal (set : Setter A) (zero : A) (text : GoString) : Option A := (parse (fun _ => true) text).bind (set zero)

end Unmarshal

section Printer

/-- This is the replacement rune for a byte that starts no valid encoding. -/
def cleanChunk (chunk : GoString) : GoString := if validChunk chunk then chunk else [0xEF, 0xBF, 0xBD]

/-- This is the text with every invalid byte replaced. -/
def toValid (s : GoString) : GoString := (chunks s).flatMap cleanChunk

/-- This is a list of encoded items on one line. -/
def list (items : List GoString) : GoString := [91] ++ [44].intercalate items ++ [93]

end Printer

end Go.Json
