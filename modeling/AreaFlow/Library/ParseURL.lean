import AreaFlow.Library.NetIP

namespace Go

section Decode

variable (keeps : UInt8 → Bool) (allows : UInt8 → UInt8 → Bool)

/-- This loop decodes percent triples and checks each byte: `keeps` says which plain bytes may stand, and `allows` which
triples. -/
def decodeFrom : Decoding → GoString → Option GoString
  | .plain, [] => some []
  | .first, [] => none
  | .second _, [] => none
  | .plain, b :: rest =>
      if b = percent then decodeFrom .first rest
      else if keeps b then (decodeFrom .plain rest).map (b :: ·)
      else none
  | .first, b :: rest => (unhex b).bind fun high => decodeFrom (.second high) rest
  | .second high, b :: rest =>
      (unhex b).bind fun low =>
        if allows high low then (decodeFrom .plain rest).map ((high * 16 + low) :: ·) else none

/-- This is `url.unescape` for one part of a URL. -/
def decode (s : GoString) : Option GoString := decodeFrom keeps allows .plain s

end Decode

/-- These bytes stand for themselves in a host. -/
def hostByte (b : UInt8) : Bool := unreserved b || (bytes "!$&'()*+,;=:[]<>\"").contains b

/-- A host keeps its own bytes and all bytes that are not ASCII. -/
def keepsHost (b : UInt8) : Bool := decide (128 ≤ b) || hostByte b

/-- In a host, a triple stands for a byte that is not ASCII, or for the percent sign. -/
def allowsHost (high low : UInt8) : Bool := decide (8 ≤ high) || (high == 2 && low == 5)

/-- In a zone, a triple stands for the percent sign, a blank, or a byte that could stand for itself. -/
def allowsZone (high low : UInt8) : Bool := (high == 2 && low == 5) || high * 16 + low == 32 || hostByte (high * 16 + low)

def decodeHost : GoString → Option GoString := decode keepsHost allowsHost

def decodeZone : GoString → Option GoString := decode keepsHost allowsZone

/-- A text is cut at the last place where a byte stands. -/
def cutLast (sep : UInt8) (s : GoString) : Option (GoString × GoString) :=
  if sep ∈ s then
    some ((s.reverse.dropWhile (· ≠ sep)).tail.reverse, (s.reverse.takeWhile (· ≠ sep)).reverse)
  else none

/-- This function is `url.validOptionalPort`. -/
def validOptionalPort : GoString → Bool
  | [] => true
  | b :: digits => b == colon && digits.all isDigit

/-- A text is cut before the first place where a part stands. -/
def cutAtText (part : GoString) : GoString → Option (GoString × GoString)
  | [] => if part = [] then some ([], []) else none
  | b :: rest =>
      if hasPrefix (b :: rest) part then some ([], b :: rest)
      else (cutAtText part rest).map fun halves => (b :: halves.1, halves.2)

/-- An address of the sixth version may have a zone behind a percent sign. -/
def isIPv6Literal (s : GoString) : Bool :=
  match s.dropWhile (· ≠ percent) with
  | [] => match parseAddr s with
    | some (.v6 _) => true
    | _ => false
  | _ :: zone => zone != [] && (match parseAddr (cutBefore percent s) with
    | some (.v6 _) => true
    | _ => false)

/-- The text between the brackets of a host; a zone starts at an escaped percent sign. -/
def decodeLiteral (s : GoString) : Option GoString :=
  match cutAtText (bytes "%25") s with
  | none => decodeHost s
  | some (address, zone) => do
      let address ← decodeHost address
      let zone ← decodeZone zone
      some (address ++ zone)

/-- This function is `url.parseHost`. -/
def parseHost (host : GoString) : Option GoString :=
  match host with
  | 91 :: rest =>
      if 91 ∈ rest then none
      else
        match cutLast 93 rest with
        | none => none
        | some (inside, port) =>
            if validOptionalPort port = false then none
            else do
              let port ← decodeHost port
              let name ← decodeLiteral inside
              if isIPv6Literal name then some (91 :: (name ++ 93 :: port)) else none
  | host =>
      if 91 ∈ host then none
      else
        match cutLast colon host with
        | none => decodeHost host
        | some (_, port) => if port.all isDigit then decodeHost host else none

/-- These bytes may stand in user information. -/
def userByte (b : UInt8) : Bool :=
  (97 ≤ b && b ≤ 122) || (65 ≤ b && b ≤ 90) || (48 ≤ b && b ≤ 57) || (bytes "-._:~!$&'()*+,;=%@").contains b

/-- This function is `url.parseAuthority`. Only the host of its result is used. -/
def parseAuthority (authority : GoString) : Option GoString :=
  match cutLast 64 authority with
  | none => parseHost authority
  | some (user, host) => do
      let host ← parseHost host
      if user.all userByte = false then none
      else do
        let _ ← unescape user
        some host

/-- This byte may stand in a scheme. -/
def schemeLetter (b : UInt8) : Bool := (97 ≤ b && b ≤ 122) || (65 ≤ b && b ≤ 90)

def schemeByte (b : UInt8) : Bool := schemeLetter b || isDigit b || b == 43 || b == 45 || b == 46

/-- This function is `url.getScheme`: the scheme and the text behind it. -/
def getScheme (s : GoString) : Option (GoString × GoString) :=
  match s.dropWhile schemeByte with
  | 58 :: after =>
      match s.takeWhile schemeByte with
      | [] => none
      | first :: scheme => if schemeLetter first then some (first :: scheme, after) else some ([], s)
  | _ => some ([], s)

/-- This is the lower case of an ASCII letter. -/
def lowerByte (b : UInt8) : UInt8 := if 65 ≤ b ∧ b ≤ 90 then b + 32 else b

/-- These are the parts of a parsed URL that its callers read. -/
structure ParsedURL where
  scheme : GoString
  host : GoString
  path : GoString
  deriving DecidableEq

/-- A control byte may not stand in a URL. -/
def isControl (b : UInt8) : Bool := decide (b < 32) || b == 127

/-- This is the part of `url.parse` behind the scheme. -/
def parseRest (scheme rest : GoString) : Option ParsedURL :=
  let rest := cutBefore 63 rest
  if rest.head? ≠ some slash then
    if scheme ≠ [] then some { scheme := scheme, host := [], path := [] }
    else if colon ∈ cutBefore slash rest then none
    else (unescape rest).map fun path => { scheme := [], host := [], path := path }
  else if hasPrefix rest [slash, slash] ∧ (scheme ≠ [] ∨ ¬ hasPrefix rest [slash, slash, slash]) then do
    let authority := rest.drop 2
    let host ← parseAuthority (cutBefore slash authority)
    let path ← unescape (authority.dropWhile (· ≠ slash))
    some { scheme := scheme, host := host, path := path }
  else (unescape rest).map fun path => { scheme := scheme, host := [], path := path }

/-- This function is `url.Parse`. -/
def parseURL (raw : GoString) : Option ParsedURL :=
  let s := cutBefore 35 raw
  let fragment := (raw.dropWhile (· ≠ 35)).tail
  if s.any isControl then none
  else if s = bytes "*" then some { scheme := [], host := [], path := s }
  else do
    let (scheme, rest) ← getScheme s
    let parsed ← parseRest (scheme.map lowerByte) rest
    let _ ← unescape fragment
    some parsed

section Lengths

variable {keeps : UInt8 → Bool} {allows : UInt8 → UInt8 → Bool}

/-- What the decoder returns: behind a percent sign it drops bytes, and a text without percent signs stays as it is. -/
def Decoded (keeps : UInt8 → Bool) (s t : GoString) : Decoding → Prop
  | .plain => t.length < s.length ∨ (t = s ∧ percent ∉ s ∧ ∀ b ∈ s, keeps b = true)
  | .first => t.length < s.length
  | .second _ => t.length ≤ s.length

theorem Decoded.length_le {s t : GoString} (decoded : Decoded keeps s t .plain) : t.length ≤ s.length := by
  rcases decoded with shorter | ⟨rfl, -⟩
  · exact Nat.le_of_lt shorter
  · exact Nat.le_refl _

theorem decodeFrom_decoded {state : Decoding} {s t : GoString} (decoded : decodeFrom keeps allows state s = some t) :
    Decoded keeps s t state := by
  induction s generalizing state t with
  | nil =>
      cases state with
      | plain => exact Or.inr ⟨(Option.some.inj decoded).symm, by simp, by simp⟩
      | first => cases decoded
      | second high => cases decoded
  | cons b rest ih =>
      cases state with
      | plain =>
          rw [decodeFrom] at decoded
          split at decoded
          · have shorter : t.length < rest.length := ih decoded
            exact Or.inl (by simp only [List.length_cons]; omega)
          · rename_i other
            split at decoded
            · rename_i kept
              obtain ⟨tail, read, rfl⟩ := Option.map_eq_some_iff.mp decoded
              rcases ih read with shorter | ⟨rfl, plain, all⟩
              · exact Or.inl (by simpa using shorter)
              · exact Or.inr ⟨rfl, by simp [Ne.symm other, plain], by simpa [kept] using all⟩
            · cases decoded
      | first =>
          obtain ⟨high, -, read⟩ := Option.bind_eq_some_iff.mp decoded
          have bound : t.length ≤ rest.length := ih read
          exact Nat.lt_succ_of_le bound
      | second high =>
          obtain ⟨low, -, read⟩ := Option.bind_eq_some_iff.mp decoded
          split at read
          · obtain ⟨tail, later, rfl⟩ := Option.map_eq_some_iff.mp read
            exact Nat.succ_le_succ (ih later).length_le
          · cases read

theorem decode_kept {s : GoString} (plain : percent ∉ s) (kept : ∀ b ∈ s, keeps b = true) :
    decode keeps allows s = some s := by
  unfold decode
  induction s with
  | nil => rfl
  | cons b rest ih =>
      simp only [List.mem_cons, not_or, forall_eq_or_imp] at plain kept
      rw [decodeFrom, if_neg (Ne.symm plain.1), if_pos kept.1, ih plain.2 kept.2]
      rfl

/-- The decoder of a path lets every byte and every triple pass. -/
theorem unescapeFrom_eq_decodeFrom (state : Decoding) (s : GoString) :
    unescapeFrom state s = decodeFrom (fun _ => true) (fun _ _ => true) state s := by
  induction s generalizing state with
  | nil => cases state <;> rfl
  | cons b rest ih => cases state <;> simp [unescapeFrom, decodeFrom, ih]

theorem unescape_decoded {s t : GoString} (read : unescape s = some t) : Decoded (fun _ => true) s t .plain :=
  decodeFrom_decoded ((unescapeFrom_eq_decodeFrom .plain s).symm.trans read)

theorem unescape_plain {s : GoString} (plain : percent ∉ s) : unescape s = some s :=
  (unescapeFrom_eq_decodeFrom .plain s).trans (decode_kept plain fun _ _ => rfl)

theorem cutLast_some {sep : UInt8} {s before after : GoString} (cut : cutLast sep s = some (before, after)) :
    s = before ++ sep :: after := by
  unfold cutLast at cut
  split at cut
  · rename_i member
    obtain ⟨rfl, rfl⟩ := Prod.mk.inj (Option.some.inj cut)
    have whole := List.takeWhile_append_dropWhile (p := (· ≠ sep)) (l := s.reverse)
    cases rest : s.reverse.dropWhile (· ≠ sep) with
    | nil =>
        have all := List.dropWhile_eq_nil_iff.mp rest sep (List.mem_reverse.mpr member)
        simp at all
    | cons b tail =>
        have stop : b = sep := by
          have first := List.head?_dropWhile_not (· ≠ sep) s.reverse
          rw [rest] at first
          simpa using first
        rw [rest, stop] at whole
        have turned := congrArg List.reverse whole
        rw [List.reverse_reverse] at turned
        conv_lhs => rw [← turned]
        simp
  · cases cut

theorem cutLast_none {sep : UInt8} {s : GoString} : cutLast sep s = none ↔ sep ∉ s := by
  unfold cutLast
  split <;> simp_all

theorem cutAtText_some {part s before after : GoString} (cut : cutAtText part s = some (before, after)) :
    s = before ++ after := by
  induction s generalizing before with
  | nil =>
      unfold cutAtText at cut
      split at cut
      · cases cut
        rfl
      · cases cut
  | cons b rest ih =>
      unfold cutAtText at cut
      split at cut
      · cases cut
        rfl
      · obtain ⟨⟨first, second⟩, later, same⟩ := Option.map_eq_some_iff.mp cut
        obtain ⟨rfl, rfl⟩ := Prod.mk.inj same
        rw [ih later]
        rfl

/-- A text is kept, or a shorter one is read from it. -/
def Reads (s t : GoString) : Prop := t.length < s.length ∨ t = s

theorem Reads.length_le {s t : GoString} (reads : Reads s t) : t.length ≤ s.length := by
  rcases reads with shorter | rfl
  · exact Nat.le_of_lt shorter
  · exact Nat.le_refl _

theorem Reads.append {s t u v : GoString} (left : Reads s t) (right : Reads u v) : Reads (s ++ u) (t ++ v) := by
  have first := left.length_le
  have second := right.length_le
  rcases left with shorter | rfl
  · exact Or.inl (by simp only [List.length_append]; omega)
  · rcases right with shorter | rfl
    · exact Or.inl (by simpa using shorter)
    · exact Or.inr rfl

theorem decode_reads {s t : GoString} (read : decode keeps allows s = some t) : Reads s t :=
  (decodeFrom_decoded read).imp_right And.left

theorem decodeLiteral_reads {s t : GoString} (read : decodeLiteral s = some t) : Reads s t := by
  unfold decodeLiteral at read
  split at read
  · exact decode_reads read
  · rename_i address zone cut
    obtain ⟨first, readFirst, read⟩ := Option.bind_eq_some_iff.mp read
    obtain ⟨second, readSecond, read⟩ := Option.bind_eq_some_iff.mp read
    cases read
    rw [cutAtText_some cut]
    exact (decode_reads readFirst).append (decode_reads readSecond)

theorem parseHost_reads {s t : GoString} (parsed : parseHost s = some t) : Reads s t := by
  unfold parseHost at parsed
  split at parsed
  · rename_i rest
    split at parsed
    · cases parsed
    · split at parsed
      · cases parsed
      · rename_i inside port cut
        split at parsed
        · cases parsed
        · obtain ⟨decodedPort, readPort, parsed⟩ := Option.bind_eq_some_iff.mp parsed
          obtain ⟨name, readName, parsed⟩ := Option.bind_eq_some_iff.mp parsed
          split at parsed
          · cases parsed
            rw [cutLast_some cut]
            have bracket : Reads [93] [93] := Or.inr rfl
            have inner := (decodeLiteral_reads readName).append (bracket.append (decode_reads readPort))
            exact Reads.append (s := [91]) (t := [91]) (Or.inr rfl) inner
          · cases parsed
  · split at parsed
    · cases parsed
    · split at parsed
      · exact decode_reads parsed
      · split at parsed
        · exact decode_reads parsed
        · cases parsed

/-- An authority without user information is a host; with it, the host is shorter than the authority. -/
theorem parseAuthority_cases {s t : GoString} (parsed : parseAuthority s = some t) :
    t.length < s.length ∨ (64 ∉ s ∧ parseHost s = some t) := by
  unfold parseAuthority at parsed
  split at parsed
  · rename_i whole
    exact Or.inr ⟨cutLast_none.mp whole, parsed⟩
  · rename_i user host cut
    obtain ⟨read, readHost, parsed⟩ := Option.bind_eq_some_iff.mp parsed
    split at parsed
    · cases parsed
    · obtain ⟨-, -, parsed⟩ := Option.bind_eq_some_iff.mp parsed
      cases parsed
      have bound := (parseHost_reads readHost).length_le
      rw [cutLast_some cut]
      simp only [List.length_append, List.length_cons]
      exact Or.inl (by omega)

theorem parseAuthority_host {s : GoString} (plain : 64 ∉ s) : parseAuthority s = parseHost s := by
  unfold parseAuthority
  rw [cutLast_none.mpr plain]

end Lengths

end Go
