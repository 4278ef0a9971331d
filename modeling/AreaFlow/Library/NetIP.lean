import AreaFlow.Library.NetURL
import AreaFlow.Library.Strconv
import AreaFlow.Library.TrimSpace

namespace Go

/-- An address has sixteen octets; one of the fourth version has the mapped form. -/
structure IP where
  octets : List UInt8
  whole : octets.length = 16
  deriving DecidableEq

def dot : UInt8 := 46

def colon : UInt8 := 58

section Parse

/-- One field of a dotted address has no leading zero and is at most 255. -/
def parseOctet (field : GoString) : Option UInt8 :=
  if 1 < field.length ∧ field.head? = some 48 then none
  else (parseDecimal field).bind fun value => if value ≤ 255 then some (UInt8.ofNat value) else none

/-- This function is `netip.parseIPv4Fields`. -/
def parseIPv4Fields (s : GoString) : Option { fields : List UInt8 // fields.length = 4 } :=
  ((split dot s).mapM parseOctet).bind fun fields =>
    if four : fields.length = 4 then some ⟨fields, four⟩ else none

def isHex (b : UInt8) : Bool := (unhex b).isSome

/-- This is the number that hexadecimal digits write. -/
def hexValue (digits : GoString) : Nat := digits.foldl (fun value b => value * 16 + ((unhex b).getD 0).toNat) 0

/-- This is the state of the parser of the sixth version: the octets so far, where the ellipsis is, and the rest. -/
structure IPv6State where
  octets : List UInt8
  ellipsis : Option Nat
  rest : GoString

/-- This loop of `netip.parseIPv6` reads groups of hexadecimal digits. -/
def parseGroups : Nat → IPv6State → Option IPv6State
  | 0, state => some state
  | fuel + 1, state =>
      let digits := state.rest.takeWhile isHex
      if digits = [] ∨ 4 < digits.length then none
      else
        match state.rest.dropWhile isHex with
        | [] =>
            some { state with
              octets := state.octets ++ [UInt8.ofNat (hexValue digits / 256), UInt8.ofNat (hexValue digits % 256)]
              rest := [] }
        | mark :: rest =>
            if mark = dot then
              -- The address ends with four dotted fields.
              if state.ellipsis = none ∧ state.octets.length ≠ 12 ∨ 12 < state.octets.length then none
              else (parseIPv4Fields state.rest).map fun fields =>
                { state with octets := state.octets ++ fields.val, rest := [] }
            else if mark ≠ colon ∨ rest = [] then none
            else
              let octets :=
                state.octets ++ [UInt8.ofNat (hexValue digits / 256), UInt8.ofNat (hexValue digits % 256)]
              if rest.head? = some colon then
                if state.ellipsis.isSome then none
                else if rest.tail = [] then some ⟨octets, some octets.length, []⟩
                else parseGroups fuel ⟨octets, some octets.length, rest.tail⟩
              else parseGroups fuel ⟨octets, state.ellipsis, rest⟩

/-- An ellipsis stands for at least one group of zeros. -/
def expandEllipsis (octets : List UInt8) (position : Nat) (short : octets.length < 16) : IP where
  octets := octets.take position ++ List.replicate (16 - octets.length) 0 ++ octets.drop position
  whole := by
    simp only [List.length_append, List.length_take, List.length_replicate, List.length_drop]
    omega

/-- This function is `netip.parseIPv6` without a zone. -/
def parseIPv6 (s : GoString) : Option IP :=
  let start : IPv6State :=
    if hasPrefix s [colon, colon] then ⟨[], some 0, s.drop 2⟩ else ⟨[], none, s⟩
  if start.ellipsis.isSome ∧ start.rest = [] then some ⟨List.replicate 16 0, rfl⟩
  else (parseGroups 8 start).bind fun state =>
    if state.rest ≠ [] then none
    else
      match state.ellipsis with
      | none => if whole : state.octets.length = 16 then some ⟨state.octets, whole⟩ else none
      | some position =>
          if short : state.octets.length < 16 then some (expandEllipsis state.octets position short) else none

/-- An address is of the version of the first mark in it. -/
inductive AddrForm where
  | v4 (fields : { fields : List UInt8 // fields.length = 4 })
  | v6 (ip : IP)

/-- This function is `netip.ParseAddr` for addresses without a zone. -/
def parseAddr (s : GoString) : Option AddrForm :=
  match s.find? fun b => b == dot || b == colon || b == percent with
  | some mark =>
      if mark = dot then (parseIPv4Fields s).map .v4
      else if mark = colon ∧ percent ∉ s then (parseIPv6 s).map .v6
      else none
  | none => none

end Parse

end Go
