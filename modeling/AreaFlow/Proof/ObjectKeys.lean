import AreaFlow.Construction.Project.ArtifactStores
import AreaFlow.Construction.Artifact.ObjectURI

namespace AreaFlow.Artifact
open Go

/-- The address of an object joins these bytes without escaping them. -/
def objectURI (bucket key : GoString) : GoString := bytes "s3://" ++ bucket ++ slash :: key

/-- A bucket is a plain host: the parser of URLs keeps it as the host of an address. -/
structure PlainBucket (bucket : GoString) : Prop where
  nonempty : bucket ≠ []
  noSlash : slash ∉ bucket
  noQuery : 63 ∉ bucket
  noFragment : 35 ∉ bucket
  noUser : 64 ∉ bucket
  noControl : ∀ b ∈ bucket, isControl b = false
  kept : parseHost bucket = some bucket

/-- A key is plain: it has no control byte, no percent sign, question mark or number sign, and no blank at its end. -/
structure PlainKey (key : GoString) : Prop where
  noPercent : percent ∉ key
  noQuery : 63 ∉ key
  noFragment : 35 ∉ key
  noControl : ∀ b ∈ key, isControl b = false
  trimmed : trimRightSpace key = key

section Cuts

theorem cutBefore_length (sep : UInt8) (s : GoString) : (cutBefore sep s).length ≤ s.length :=
  (List.takeWhile_prefix _).length_le

/-- A cut that keeps the length finds no separator. -/
theorem cutBefore_whole {sep : UInt8} {s : GoString} (whole : (cutBefore sep s).length = s.length) :
    cutBefore sep s = s ∧ sep ∉ s := by
  have same : cutBefore sep s = s := (List.takeWhile_prefix _).eq_of_length whole
  exact ⟨same, same ▸ cutBefore_not_mem sep s⟩

theorem cutBefore_dropWhile (sep : UInt8) (s : GoString) : cutBefore sep s ++ s.dropWhile (· ≠ sep) = s :=
  List.takeWhile_append_dropWhile

theorem dropWhile_clean {sep : UInt8} {s : GoString} (clean : sep ∉ s) : s.dropWhile (· ≠ sep) = [] := by
  rw [List.dropWhile_eq_nil_iff]
  intro b member
  simp only [ne_eq, decide_not, Bool.not_eq_true', decide_eq_false_iff_not]
  rintro rfl
  exact clean member

end Cuts

/-- This is what the parser reads behind the scheme and the two slashes. -/
theorem parseURL_object (text : GoString) :
    parseURL (bytes "s3://" ++ text) =
      if (cutBefore 35 text).any isControl then none
      else (do
        let host ← parseAuthority (cutBefore slash (cutBefore 63 (cutBefore 35 text)))
        let path ← unescape ((cutBefore 63 (cutBefore 35 text)).dropWhile (· ≠ slash))
        let _ ← unescape (text.dropWhile (· ≠ 35)).tail
        some { scheme := bytes "s3", host := host, path := path }) := by
  have start : cutBefore 35 (bytes "s3://" ++ text) = bytes "s3://" ++ cutBefore 35 text := by
    simp [bytes, cutBefore]
  have fragment : (bytes "s3://" ++ text).dropWhile (· ≠ 35) = text.dropWhile (· ≠ 35) := by
    simp [bytes]
  have scheme : getScheme (bytes "s3://" ++ cutBefore 35 text) = some (bytes "s3", [slash, slash] ++ cutBefore 35 text) := by
    rfl
  have other : bytes "s3://" ++ cutBefore 35 text ≠ bytes "*" := by
    intro same
    exact absurd (congrArg List.length same) (by simp [bytes])
  have control : (bytes "s3://" ++ cutBefore 35 text).any isControl = (cutBefore 35 text).any isControl := by
    rw [List.any_append, show (bytes "s3://").any isControl = false by decide, Bool.false_or]
  have lower : (bytes "s3").map lowerByte = bytes "s3" := by decide
  have rest (s : GoString) : parseRest (bytes "s3") ([slash, slash] ++ s) = (do
      let host ← parseAuthority (cutBefore slash (cutBefore 63 s))
      let path ← unescape ((cutBefore 63 s).dropWhile (· ≠ slash))
      some { scheme := bytes "s3", host := host, path := path }) := by
    have query : cutBefore 63 ([slash, slash] ++ s) = [slash, slash] ++ cutBefore 63 s := by simp [slash, cutBefore]
    have named : bytes "s3" ≠ [] := by decide
    unfold parseRest
    dsimp only
    rw [query, if_neg (by simp), if_pos ⟨hasPrefix_append _ _, Or.inl named⟩]
    rfl
  unfold parseURL
  dsimp only
  rw [start, fragment, if_neg other, scheme, control]
  split
  · rfl
  · show (parseRest ((bytes "s3").map lowerByte) ([slash, slash] ++ cutBefore 35 text)).bind _ = _
    rw [lower, rest]
    simp only [Option.bind_eq_bind, Option.bind_assoc, Option.bind_some]

section Addresses

variable {bucket key : GoString}

/-- The parser drops the blanks at the end of a key. -/
theorem trimSpace_objectURI : trimSpace (objectURI bucket key) = bytes "s3://" ++ (bucket ++ slash :: trimRightSpace key) := by
  have barrier := @trimSpace_barrier 115 slash (by decide) (by decide) (bytes "3://" ++ bucket) key
  have shape (tail : GoString) : bytes "s3://" ++ (bucket ++ slash :: tail) =
      115 :: ((bytes "3://" ++ bucket) ++ slash :: tail) := by
    rw [List.append_assoc]
    rfl
  rw [objectURI, List.append_assoc, shape, barrier, shape]

/-- An address is read if its text, up to a number sign and a question mark, is an authority and a path that decode. -/
theorem parseS3URI_ok {text host name : GoString} (trimmed : trimSpace (objectURI bucket key) = bytes "s3://" ++ text)
    (parsed : parseS3URI (objectURI bucket key) = .ok (host, name)) :
    (cutBefore 35 text).any isControl = false ∧ host ≠ [] ∧
      parseAuthority (cutBefore slash (cutBefore 63 (cutBefore 35 text))) = some host ∧
      ∃ path, unescape ((cutBefore 63 (cutBefore 35 text)).dropWhile (· ≠ slash)) = some path ∧
        trimByte slash path ≠ [] ∧ name = trimPrefix path [slash] := by
  unfold parseS3URI at parsed
  rw [trimmed, parseURL_object] at parsed
  split at parsed
  · cases parsed
  · rename_i result found
    split at found
    · cases found
    · rename_i clean
      obtain ⟨read, readHost, found⟩ := Option.bind_eq_some_iff.mp found
      obtain ⟨path, readPath, found⟩ := Option.bind_eq_some_iff.mp found
      obtain ⟨-, -, found⟩ := Option.bind_eq_some_iff.mp found
      cases found
      split at parsed
      · cases parsed
      · rename_i accepted
        simp only [not_or, not_not] at accepted
        obtain ⟨rfl, rfl⟩ := Prod.mk.inj (Except.ok.inj parsed)
        exact ⟨by simpa using clean, accepted.2.1, readHost, path, readPath, accepted.2.2, rfl⟩

/-- A path behind an authority starts with a slash or is empty. -/
theorem dropWhile_slash (s : GoString) : s.dropWhile (· ≠ slash) = [] ∨ ∃ rest, s.dropWhile (· ≠ slash) = slash :: rest := by
  cases shape : s.dropWhile (· ≠ slash) with
  | nil => exact Or.inl rfl
  | cons b rest =>
      have first := List.head?_dropWhile_not (· ≠ slash) s
      rw [shape] at first
      have stop : b = slash := by simpa using first
      exact Or.inr ⟨rest, by rw [stop]⟩

/-- The decoded path is the key behind a slash. -/
theorem path_of_key {s path : GoString} (read : unescape (s.dropWhile (· ≠ slash)) = some path)
    (some : trimByte slash path ≠ []) (last : key = trimPrefix path [slash]) : path = slash :: key := by
  rcases dropWhile_slash s with empty | ⟨rest, rooted⟩
  · rw [empty] at read
    cases read
    exact absurd rfl some
  · rw [rooted, unescape_cons_of_ne (by decide)] at read
    obtain ⟨tail, -, rfl⟩ := Option.map_eq_some_iff.mp read
    rw [last]
    exact congrArg _ (trimPrefix_append [slash] tail).symm

/-- No step of the parser makes its text longer. A text that is read as a host and a path of its own length was never cut
or decoded. -/
theorem whole_of_read {text : GoString} (short : text.length ≤ bucket.length + key.length + 1)
    (authority : parseAuthority (cutBefore slash (cutBefore 63 (cutBefore 35 text))) = some bucket)
    (read : unescape ((cutBefore 63 (cutBefore 35 text)).dropWhile (· ≠ slash)) = some (slash :: key)) :
    text = bucket ++ slash :: key ∧ 35 ∉ text ∧ 63 ∉ text ∧ slash ∉ bucket ∧ 64 ∉ bucket ∧
      parseHost bucket = some bucket ∧ percent ∉ key := by
  have fragmentLength := cutBefore_length 35 text
  have queryLength := cutBefore_length 63 (cutBefore 35 text)
  have partLengths := congrArg List.length (cutBefore_dropWhile slash (cutBefore 63 (cutBefore 35 text)))
  have pathLength := (unescape_decoded read).length_le
  have hostLength : bucket.length ≤ (cutBefore slash (cutBefore 63 (cutBefore 35 text))).length := by
    rcases parseAuthority_cases authority with shorter | ⟨-, host⟩
    · exact Nat.le_of_lt shorter
    · exact (parseHost_reads host).length_le
  rw [List.length_append] at partLengths
  rw [List.length_cons] at pathLength
  -- the lengths add up only if every step kept its whole text
  obtain ⟨uncut, noFragment⟩ := @cutBefore_whole 35 text (by omega)
  rw [uncut] at authority read partLengths pathLength hostLength queryLength
  obtain ⟨unasked, noQuery⟩ := @cutBefore_whole 63 text (by omega)
  rw [unasked] at authority read partLengths pathLength hostLength
  rcases unescape_decoded read with shorter | ⟨path, plain, -⟩
  · rw [List.length_cons] at shorter
    omega
  rcases parseAuthority_cases authority with shorter | ⟨noUser, host⟩
  · omega
  rw [← path] at plain partLengths
  rcases parseHost_reads host with shorter | same
  · simp only [List.length_cons] at partLengths
    omega
  have whole : text = bucket ++ slash :: key := by
    rw [same, path, cutBefore_dropWhile]
  rw [← same] at noUser host
  exact ⟨whole, noFragment, noQuery, same ▸ cutBefore_not_mem slash text, noUser, host,
    fun member => plain (List.mem_cons_of_mem _ member)⟩

theorem plain_of_parsed (parsed : parseS3URI (objectURI bucket key) = .ok (bucket, key)) :
    PlainBucket bucket ∧ PlainKey key := by
  obtain ⟨control, nonempty, authority, path, read, some, last⟩ := parseS3URI_ok trimSpace_objectURI parsed
  obtain rfl := path_of_key read some last
  have keyLength := (trimRightSpace_start key).length_le
  have short : (bucket ++ slash :: trimRightSpace key).length ≤ bucket.length + key.length + 1 := by
    simp only [List.length_append, List.length_cons]
    omega
  obtain ⟨whole, noFragment, noQuery, noSlash, noUser, host, noPercent⟩ := whole_of_read short authority read
  rw [whole] at noFragment noQuery control
  rw [(cutBefore_clean noFragment)] at control
  simp only [List.mem_append, List.mem_cons, not_or] at noFragment noQuery
  simp only [List.any_eq_false, List.mem_append, List.mem_cons] at control
  constructor
  · exact { nonempty := nonempty, noSlash := noSlash, noQuery := noQuery.1, noFragment := noFragment.1, noUser := noUser,
            noControl := fun b member => by simpa using control b (Or.inl member), kept := host }
  · exact { noPercent := noPercent, noQuery := noQuery.2.2, noFragment := noFragment.2.2,
            noControl := fun b member => by simpa using control b (Or.inr (Or.inr member)),
            trimmed := (List.cons.inj (List.append_cancel_left whole)).2 }

theorem parsed_of_plain (plainBucket : PlainBucket bucket) (plainKey : PlainKey key) (some : key ≠ [])
    (first : key.head? ≠ Option.some slash) : parseS3URI (objectURI bucket key) = .ok (bucket, key) := by
  have noFragment : 35 ∉ bucket ++ slash :: key := by
    simp [plainBucket.noFragment, plainKey.noFragment, slash]
  have noQuery : 63 ∉ bucket ++ slash :: key := by
    simp [plainBucket.noQuery, plainKey.noQuery, slash]
  have noControl : (bucket ++ slash :: key).any isControl = false := by
    rw [List.any_eq_false]
    intro b member
    simp only [List.mem_append, List.mem_cons] at member
    rcases member with inBucket | rfl | inKey
    · simp [plainBucket.noControl b inBucket]
    · decide
    · simp [plainKey.noControl b inKey]
  have path : (bucket ++ slash :: key).dropWhile (· ≠ slash) = slash :: key := by
    have parts := cutBefore_dropWhile slash (bucket ++ slash :: key)
    rw [cutBefore_append_cons key plainBucket.noSlash] at parts
    exact List.append_cancel_left parts
  have decoded : unescape (slash :: key) = .some (slash :: key) := by
    apply unescape_plain
    simp [plainKey.noPercent, show percent ≠ slash by decide]
  have rooted : trimByte slash (slash :: key) ≠ [] := by
    cases key with
    | nil => exact absurd rfl some
    | cons b rest =>
        have other : b ≠ slash := by simpa using first
        intro empty
        rw [trimByte, List.rdropWhile_eq_nil_iff] at empty
        simp [other] at empty
  unfold parseS3URI
  rw [trimSpace_objectURI, plainKey.trimmed, parseURL_object, cutBefore_clean noFragment, cutBefore_clean noQuery,
    if_neg (by simp [noControl]), cutBefore_append_cons key plainBucket.noSlash, parseAuthority_host plainBucket.noUser,
    plainBucket.kept, path, decoded, dropWhile_clean noFragment]
  exact (if_neg (by simp [plainBucket.nonempty, rooted])).trans (congrArg _ (congrArg _ (trimPrefix_append [slash] key)))

/-- An address is read back to its bucket and its key exactly when both are plain. -/
theorem parseS3URI_objectURI (some : key ≠ []) (first : key.head? ≠ Option.some slash) :
    parseS3URI (objectURI bucket key) = .ok (bucket, key) ↔ PlainBucket bucket ∧ PlainKey key :=
  ⟨plain_of_parsed, fun plain => parsed_of_plain plain.1 plain.2 some first⟩

end Addresses

end AreaFlow.Artifact

namespace AreaFlow.Project
open Go Artifact

/-- This is the key of an object below a root. -/
def objectKey (root clean : GoString) : GoString := trimByte slash (trimSpace (pathJoin [trimByte slash root, clean]))

/-- The object store refuses to write these keys. -/
def RefusedKey (key : GoString) : Prop := key = [] ∨ containsText key (bytes "../") = true

instance (key : GoString) : Decidable (RefusedKey key) :=
  inferInstanceAs (Decidable (key = [] ∨ containsText key (bytes "../") = true))

/-- An object that is written is read back: its address is parsed to the bucket and the key of the write, and a reader of the
address gets the written bytes. -/
def StoreHost.ReadsBack (host : StoreHost) (backend root path : GoString) : Prop :=
  ∀ name uri key, host.target backend root path = .ok (name, uri, .object key) →
    host.parseS3URI uri = .ok (host.bucket, key) ∧
      ∀ content contentType stores, ∃ after stored,
        host.writeConfigured backend root path content contentType none stores = (after, .ok stored) ∧
          host.readConfigured stored.backend stored.uri after = .ok content

section Objects

variable {host : StoreHost} {backend path clean : GoString}

/-- This is where a write to the object store goes. -/
theorem target_object (root : GoString)
    (named : host.lowerText (trimSpace backend) = bytes "s3" ∨ host.lowerText (trimSpace backend) = bytes "object")
    (accepted : safeRelativePath path = .ok clean) :
    host.target backend root path =
      if RefusedKey (objectKey root clean) then .error (bytes "valid S3 artifact key is required")
      else .ok (bytes "s3", objectURI host.bucket (objectKey root clean), .object (objectKey root clean)) := by
  have other : ¬ (host.lowerText (trimSpace backend) = [] ∨ host.lowerText (trimSpace backend) = bytes "local") := by
    rcases named with same | same <;> rw [same] <;> decide
  unfold StoreHost.target
  rw [accepted]
  show (if _ then _ else if _ then _ else _) = _
  rw [if_neg other, if_pos named]
  rfl

theorem place_object {key : GoString} (lower : host.lowerText (bytes "s3") = bytes "s3")
    (parsed : host.parseS3URI (objectURI host.bucket key) = .ok (host.bucket, key)) :
    host.place (bytes "s3") (objectURI host.bucket key) = .ok (.object key) := by
  have trimmed : host.lowerText (trimSpace (bytes "s3")) = bytes "s3" := lower
  unfold StoreHost.place
  dsimp only
  rw [trimmed, if_neg (by decide), if_pos (Or.inl rfl), parsed]
  show (if _ then _ else _) = _
  rw [if_neg (not_not.mpr rfl)]

/-- Objects are read back exactly when the store refuses the key, or the bucket and the key are plain. -/
theorem objects_readBack_iff (host : StoreHost) (backend root path clean : GoString)
    (named : host.lowerText (trimSpace backend) = bytes "s3" ∨ host.lowerText (trimSpace backend) = bytes "object")
    (lower : host.lowerText (bytes "s3") = bytes "s3") (parser : host.parseS3URI = parseS3URI)
    (accepted : safeRelativePath path = .ok clean) :
    host.ReadsBack backend root path ↔
      RefusedKey (objectKey root clean) ∨ (PlainBucket host.bucket ∧ PlainKey (objectKey root clean)) := by
  have target := target_object root named accepted
  by_cases refused : RefusedKey (objectKey root clean)
  · rw [if_pos refused] at target
    refine iff_of_true ?_ (Or.inl refused)
    intro name uri key written
    rw [target] at written
    cases written
  · rw [if_neg refused] at target
    have nonempty : objectKey root clean ≠ [] := fun empty => refused (Or.inl empty)
    have plain := @parseS3URI_objectURI host.bucket _ nonempty (trimByte_head slash _)
    rw [← parser] at plain
    rw [or_iff_right refused, ← plain]
    constructor
    · exact fun back => (back _ _ _ target).1
    · intro parsed name uri key written
      rw [target] at written
      obtain ⟨rfl, rfl, same⟩ : bytes "s3" = name ∧ objectURI host.bucket (objectKey root clean) = uri ∧
          Place.object (objectKey root clean) = Place.object key := by simpa using written
      cases same
      refine ⟨parsed, fun content contentType stores => ?_⟩
      refine ⟨Function.update stores (.object (objectKey root clean)) (some content),
        { backend := bytes "s3", uri := objectURI host.bucket (objectKey root clean), sha256 := host.sha256Hex content,
          sizeBytes := content.length, contentType := contentType }, ?_, ?_⟩
      · unfold StoreHost.writeConfigured
        rw [target]
        rfl
      · unfold StoreHost.readConfigured
        simp only [place_object lower parsed, bind, Except.bind, Function.update_self]

end Objects

/-- This host keeps artifacts in one bucket. -/
def bucketHost : StoreHost where
  sha256Hex := Json.digest
  lowerText := lowerASCII
  quote := Json.quote
  home := none
  resolve := id
  bucket := bytes "areaflow"
  parseS3URI := parseS3URI

theorem report_readBack :
    bucketHost.ReadsBack (bytes "s3") (bytes "store/") (bytes "project/report.json") ∧
      bucketHost.target (bytes "s3") (bytes "store/") (bytes "project/report.json") =
        .ok (bytes "s3", bytes "s3://areaflow/store/project/report.json", .object (bytes "store/project/report.json")) := by
  constructor
  · apply (objects_readBack_iff bucketHost (bytes "s3") (bytes "store/") (bytes "project/report.json")
      (bytes "project/report.json") (Or.inl (by decide)) rfl rfl (by decide +kernel)).mpr
    have key : objectKey (bytes "store/") (bytes "project/report.json") = bytes "store/project/report.json" := by
      decide +kernel
    rw [key]
    exact Or.inr ⟨⟨by decide +kernel, by decide +kernel, by decide +kernel, by decide +kernel, by decide +kernel,
      by decide +kernel, by decide +kernel⟩,
      ⟨by decide +kernel, by decide +kernel, by decide +kernel, by decide +kernel, by decide +kernel⟩⟩
  · decide +kernel

/-- A key with a number sign is read back as the key before the sign. -/
theorem numberSign_lost :
    safeRelativePath (bytes "notes#1.md") = .ok (bytes "notes#1.md") ∧
      bucketHost.target (bytes "s3") [] (bytes "notes#1.md") =
        .ok (bytes "s3", bytes "s3://areaflow/notes#1.md", .object (bytes "notes#1.md")) ∧
      parseS3URI (bytes "s3://areaflow/notes#1.md") = .ok (bytes "areaflow", bytes "notes") ∧
      ¬ bucketHost.ReadsBack (bytes "s3") [] (bytes "notes#1.md") := by
  have target : bucketHost.target (bytes "s3") [] (bytes "notes#1.md") =
      .ok (bytes "s3", bytes "s3://areaflow/notes#1.md", .object (bytes "notes#1.md")) := by decide +kernel
  have parsed : parseS3URI (bytes "s3://areaflow/notes#1.md") = .ok (bytes "areaflow", bytes "notes") := by decide +kernel
  refine ⟨by decide +kernel, target, parsed, fun back => ?_⟩
  have same := (back _ _ _ target).1.symm.trans parsed
  exact absurd same (by decide)

end AreaFlow.Project
