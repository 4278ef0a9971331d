import AreaFlow.Construction.Project.PermissionDoctor

namespace AreaFlow.Project
open Go

/-- The matcher knows a path by its own text, by the single star, or by a directory that contains it. -/
def enforceable (pattern path : GoString) : Prop :=
  pattern = path ∨ pattern = bytes "*" ∨
    ∃ directory, pattern = directory ++ bytes "/**" ∧ (path = directory ∨ directory ++ [slash] <+: path)

/-- A pattern ends with the directory wildcard exactly when its last three bytes are that wildcard. -/
theorem endsWith_iff (pattern suffix : GoString) :
    (suffix.length ≤ pattern.length ∧ pattern.drop (pattern.length - suffix.length) = suffix) ↔
      ∃ directory, pattern = directory ++ suffix := by
  constructor
  · rintro ⟨_, last⟩
    refine ⟨pattern.take (pattern.length - suffix.length), ?_⟩
    conv_lhs => rw [← List.take_append_drop (pattern.length - suffix.length) pattern, last]
  · rintro ⟨directory, rfl⟩
    simp

/-- A path lies below a directory exactly when it extends the directory and a slash. -/
theorem below_iff (directory path : GoString) :
    (directory.length < path.length ∧ path.take (directory.length + 1) = directory ++ [slash]) ↔
      directory ++ [slash] <+: path := by
  constructor
  · rintro ⟨_, first⟩
    rw [← first]
    exact List.take_prefix _ _
  · rintro ⟨rest, rfl⟩
    constructor
    · simp
    · rw [List.take_append_of_le_length (by simp)]
      simp

theorem globMatch_iff (pattern path : GoString) : globMatch pattern path = true ↔ enforceable pattern path := by
  unfold globMatch enforceable
  by_cases direct : pattern = path ∨ pattern = bytes "*"
  · rw [if_pos direct]
    rcases direct with same | star
    · simp [same]
    · simp [star]
  · rw [if_neg direct]
    have suffixLength : (bytes "/**").length = 3 := by decide
    have tail := endsWith_iff pattern (bytes "/**")
    rw [suffixLength] at tail
    by_cases wildcard : 3 ≤ pattern.length ∧ pattern.drop (pattern.length - 3) = bytes "/**"
    · rw [if_pos wildcard]
      obtain ⟨directory, rfl⟩ := tail.mp wildcard
      have stem : (directory ++ bytes "/**").take ((directory ++ bytes "/**").length - 3) = directory := by
        simp [suffixLength]
      rw [not_or] at direct
      simp only [stem, Bool.or_eq_true, Bool.and_eq_true, beq_iff_eq, decide_eq_true_eq, below_iff, direct.1,
        direct.2, false_or]
      constructor
      · intro inside
        exact ⟨directory, rfl, inside⟩
      · rintro ⟨other, same, inside⟩
        rwa [List.append_cancel_right same]
    · rw [if_neg wildcard]
      simp only [Bool.false_eq_true, false_iff]
      rintro (same | star | ⟨directory, shape, _⟩)
      · exact direct (Or.inl same)
      · exact direct (Or.inr star)
      · exact wildcard (tail.mpr ⟨directory, shape⟩)

/-- The scan allows exactly when no row denies the path and both flags end up set. -/
theorem scanPermissions_allowed_iff (capability path : GoString) (rows : List PermissionRow)
    (capabilityAllowed pathAllowed : Bool) :
    (scanPermissions capability path capabilityAllowed pathAllowed rows).1 = true ↔
      (∀ row ∈ rows, deniesPath path row = false) ∧
        (capabilityAllowed = true ∨ ∃ row ∈ rows, allowsCapability capability row = true) ∧
        (pathAllowed = true ∨ ∃ row ∈ rows, allowsPath capability path row = true) := by
  induction rows generalizing capabilityAllowed pathAllowed with
  | nil => cases capabilityAllowed <;> cases pathAllowed <;> simp [scanPermissions]
  | cons row rest ih =>
      unfold scanPermissions
      by_cases denied : deniesPath path row = true
      · simp [denied]
      · rw [if_neg denied, ih]
        have open' : deniesPath path row = false := by simpa using denied
        simp only [List.mem_cons, forall_eq_or_imp, exists_eq_or_imp, open', true_and, Bool.or_eq_true, or_assoc]

/-- These are the allow patterns that a configuration declares for a capability. -/
def AllowPattern (cfg : Config) (capability pattern : GoString) : Prop :=
  (capability = bytes "read_project" ∧ pattern ∈ cfg.permissions.readPaths) ∨
    (capability = bytes "write_status" ∧ pattern ∈ cfg.permissions.writePaths) ∨
    (capability = bytes "write_generated" ∧ pattern ∈ cfg.permissions.writePaths ∧
      shouldAllowGeneratedWritePath cfg pattern = true)

/-- An inserted row is a capability row, an allowed path, a forbidden path or a command. -/
theorem mem_insertPermissions {projectID : ID} {cfg : Config} {row : PermissionRow} :
    row ∈ insertPermissions projectID cfg ↔
      (∃ entry ∈ cfg.permissions.capabilities,
        row = ⟨projectID, entry.1, if entry.2 then .allow else .deny, .capability, entry.1⟩) ∨
      (∃ capability pattern, AllowPattern cfg capability pattern ∧
        row = ⟨projectID, capability, .allow, .path, pattern⟩) ∨
      (∃ pattern ∈ cfg.permissions.forbiddenPath, row = ⟨projectID, bytes "*", .deny, .path, pattern⟩) ∨
      (∃ command ∈ cfg.commandsAllowed, row = ⟨projectID, bytes "run_commands", .allow, .command, command⟩) ∨
      (∃ command ∈ cfg.commandsForbidden, row = ⟨projectID, bytes "run_commands", .deny, .command, command⟩) := by
  have writeRows (path : GoString) :
      row ∈ (⟨projectID, bytes "write_status", .allow, .path, path⟩ ::
        if shouldAllowGeneratedWritePath cfg path then [⟨projectID, bytes "write_generated", .allow, .path, path⟩]
        else [] : List PermissionRow) ↔
      row = ⟨projectID, bytes "write_status", .allow, .path, path⟩ ∨
        (shouldAllowGeneratedWritePath cfg path = true ∧
          row = ⟨projectID, bytes "write_generated", .allow, .path, path⟩) := by
    split <;> simp_all
  simp only [insertPermissions, List.mem_append, List.mem_map, List.mem_flatMap, writeRows, eq_comm (b := row)]
  constructor
  · rintro (((((⟨entry, member, same⟩ | ⟨path, member, same⟩) | ⟨path, member, same | ⟨generated, same⟩⟩) |
      ⟨pattern, member, same⟩) | ⟨command, member, same⟩) | ⟨command, member, same⟩)
    · exact Or.inl ⟨entry, member, same⟩
    · exact Or.inr (Or.inl ⟨_, path, Or.inl ⟨rfl, member⟩, same⟩)
    · exact Or.inr (Or.inl ⟨_, path, Or.inr (Or.inl ⟨rfl, member⟩), same⟩)
    · exact Or.inr (Or.inl ⟨_, path, Or.inr (Or.inr ⟨rfl, member, generated⟩), same⟩)
    · exact Or.inr (Or.inr (Or.inl ⟨pattern, member, same⟩))
    · exact Or.inr (Or.inr (Or.inr (Or.inl ⟨command, member, same⟩)))
    · exact Or.inr (Or.inr (Or.inr (Or.inr ⟨command, member, same⟩)))
  · rintro (⟨entry, member, same⟩ | ⟨_, path, ⟨rfl, member⟩ | ⟨rfl, member⟩ | ⟨rfl, member, generated⟩, same⟩ |
      ⟨pattern, member, same⟩ | ⟨command, member, same⟩ | ⟨command, member, same⟩)
    · exact Or.inl (Or.inl (Or.inl (Or.inl (Or.inl ⟨entry, member, same⟩))))
    · exact Or.inl (Or.inl (Or.inl (Or.inl (Or.inr ⟨path, member, same⟩))))
    · exact Or.inl (Or.inl (Or.inl (Or.inr ⟨path, member, Or.inl same⟩)))
    · exact Or.inl (Or.inl (Or.inl (Or.inr ⟨path, member, Or.inr ⟨generated, same⟩⟩)))
    · exact Or.inl (Or.inl (Or.inr ⟨pattern, member, same⟩))
    · exact Or.inl (Or.inr ⟨command, member, same⟩)
    · exact Or.inr ⟨command, member, same⟩

theorem insertPermissions_project {projectID : ID} {cfg : Config} {row : PermissionRow}
    (member : row ∈ insertPermissions projectID cfg) : row.projectID = projectID := by
  rcases mem_insertPermissions.mp member with ⟨_, _, rfl⟩ | ⟨_, _, _, rfl⟩ | ⟨_, _, rfl⟩ | ⟨_, _, rfl⟩ | ⟨_, _, rfl⟩ <;>
    rfl

/-- After the upsert the permission query of a project returns the rows of its configuration. -/
theorem mem_projectRows {table : List PermissionRow} {projectID : ID} {cfg : Config} {row : PermissionRow} :
    row ∈ (replacePermissions table projectID cfg).filter
        (fun row => row.projectID == projectID && row.resourceType != .command) ↔
      row ∈ insertPermissions projectID cfg ∧ row.resourceType ≠ .command := by
  simp only [replacePermissions, List.mem_filter, List.mem_append, Bool.and_eq_true, beq_iff_eq, bne_iff_ne]
  constructor
  · rintro ⟨⟨_, other⟩ | inserted, same, kind⟩
    · exact absurd same other
    · exact ⟨inserted, kind⟩
  · rintro ⟨inserted, kind⟩
    exact ⟨Or.inr inserted, insertPermissions_project inserted, kind⟩

section Decision

variable (table : List PermissionRow) (projectID : ID) (cfg : Config)

/-- The rows that the permission query of the project returns. -/
def projectRows : List PermissionRow :=
  (replacePermissions table projectID cfg).filter fun row => row.projectID == projectID && row.resourceType != .command

/-- The path denials of the project are its forbidden paths. -/
theorem projectRows_denies_iff (path : GoString) :
    (∃ row ∈ projectRows table projectID cfg, deniesPath path row = true) ↔
      ∃ pattern ∈ cfg.permissions.forbiddenPath, globMatch pattern path = true := by
  simp only [projectRows, mem_projectRows, mem_insertPermissions, deniesPath, Bool.and_eq_true, beq_iff_eq]
  constructor
  · rintro ⟨row, ⟨⟨_, _, rfl⟩ | ⟨_, _, _, rfl⟩ | ⟨pattern, member, rfl⟩ | ⟨_, _, rfl⟩ | ⟨_, _, rfl⟩, _⟩, ⟨deny, kind⟩, hit⟩
    case inr.inr.inl => exact ⟨pattern, member, hit⟩
    all_goals simp at kind deny
  · rintro ⟨pattern, member, hit⟩
    exact ⟨_, ⟨Or.inr (Or.inr (Or.inl ⟨pattern, member, rfl⟩)), by simp⟩, ⟨rfl, rfl⟩, hit⟩

/-- The capability rows of the project are those that the configuration turns on. -/
theorem projectRows_allowsCapability_iff (capability : GoString) :
    (∃ row ∈ projectRows table projectID cfg, allowsCapability capability row = true) ↔
      (capability, true) ∈ cfg.permissions.capabilities := by
  simp only [projectRows, mem_projectRows, mem_insertPermissions, allowsCapability, Bool.and_eq_true, beq_iff_eq]
  constructor
  · rintro ⟨row, ⟨⟨⟨name, on⟩, member, rfl⟩ | ⟨_, _, _, rfl⟩ | ⟨_, _, rfl⟩ | ⟨_, _, rfl⟩ | ⟨_, _, rfl⟩, _⟩,
      ⟨kind, rfl⟩, allowed⟩
    case inl =>
      cases on with
      | true => exact member
      | false => cases allowed
    all_goals cases kind
  · intro member
    exact ⟨_, ⟨Or.inl ⟨_, member, rfl⟩, by simp⟩, ⟨rfl, rfl⟩, rfl⟩

/-- The allowed paths of the project are the allow patterns of the configuration. -/
theorem projectRows_allowsPath_iff (capability path : GoString) :
    (∃ row ∈ projectRows table projectID cfg, allowsPath capability path row = true) ↔
      ∃ pattern, AllowPattern cfg capability pattern ∧ globMatch pattern path = true := by
  simp only [projectRows, mem_projectRows, mem_insertPermissions, allowsPath, Bool.and_eq_true, beq_iff_eq]
  constructor
  · rintro ⟨row, ⟨⟨_, _, rfl⟩ | ⟨_, pattern, declared, rfl⟩ | ⟨_, _, rfl⟩ | ⟨_, _, rfl⟩ | ⟨_, _, rfl⟩, _⟩,
      ⟨⟨kind, rfl⟩, allowed⟩, hit⟩
    case inr.inl => exact ⟨pattern, declared, hit⟩
    all_goals simp at kind allowed
  · rintro ⟨pattern, declared, hit⟩
    exact ⟨_, ⟨Or.inr (Or.inl ⟨capability, pattern, declared, rfl⟩), by simp⟩, ⟨⟨rfl, rfl⟩, rfl⟩, hit⟩

/-- A path is allowed exactly when the capability is on, an allow pattern matches, and no forbidden
pattern matches. -/
theorem decidePath_allowed_iff (capability path : GoString) :
    (decidePath (replacePermissions table projectID cfg) projectID capability path).1 = true ↔
      (∀ pattern ∈ cfg.permissions.forbiddenPath, globMatch pattern path = false) ∧
        (capability, true) ∈ cfg.permissions.capabilities ∧
        ∃ pattern, AllowPattern cfg capability pattern ∧ globMatch pattern path = true := by
  have denies := projectRows_denies_iff table projectID cfg path
  have capabilities := projectRows_allowsCapability_iff table projectID cfg capability
  have paths := projectRows_allowsPath_iff table projectID cfg capability path
  unfold projectRows at denies capabilities paths
  rw [decidePath, scanPermissions_allowed_iff, ← capabilities, ← paths]
  simp only [Bool.false_eq_true, false_or, ← Bool.not_eq_true]
  refine and_congr_left fun _ => ?_
  constructor
  · intro clear pattern member hit
    obtain ⟨row, rowMember, denied⟩ := denies.mpr ⟨pattern, member, hit⟩
    exact clear row rowMember denied
  · intro clear row rowMember denied
    obtain ⟨pattern, member, hit⟩ := denies.mp ⟨row, rowMember, denied⟩
    exact clear pattern member hit

/-- The doctor reports that the dangerous writes are denied; it reads all rows of the project. -/
def dangerousWriteDeniesPass (record : ProjectConfigRecord) : Bool :=
  (buildPermissionPolicyDoctor record true
    ((replacePermissions table projectID cfg).filter fun row => row.projectID == projectID)).checks.any fun check =>
      check.key == bytes "dangerous_write_denies" && check.status == .pass

/-- On a project that the doctor passes, every path that a declared forbidden pattern covers is refused
by all three checks for every capability. -/
def DenialsEnforced (configPath configHash : GoString) (loadedAt : Time) (path : GoString) : Prop :=
  dangerousWriteDeniesPass table projectID cfg (configRecord configPath configHash loadedAt cfg) = true →
    (∃ pattern ∈ cfg.permissions.forbiddenPath, glob pattern path = true) →
    ∀ capability,
      (canProjectPathInTx (replacePermissions table projectID cfg) projectID capability path).1 = false ∧
      (canWritePath (replacePermissions table projectID cfg) projectID capability path).1 = false ∧
      (canWritePathTx (replacePermissions table projectID cfg) projectID capability path).1 = false

/-- All three checks refuse a path for every capability exactly when a forbidden pattern matches it in the
sense of the matcher, or no capability that is on has a matching allow pattern. -/
theorem refused_iff (path : GoString) :
    (∀ capability, (decidePath (replacePermissions table projectID cfg) projectID capability path).1 = false) ↔
      (∃ pattern ∈ cfg.permissions.forbiddenPath, enforceable pattern path) ∨
        ∀ capability pattern, (capability, true) ∈ cfg.permissions.capabilities →
          AllowPattern cfg capability pattern → globMatch pattern path = false := by
  simp only [← Bool.not_eq_true, decidePath_allowed_iff]
  constructor
  · intro refused
    by_cases covered : ∃ pattern ∈ cfg.permissions.forbiddenPath, globMatch pattern path = true
    · obtain ⟨pattern, member, hit⟩ := covered
      exact Or.inl ⟨pattern, member, (globMatch_iff pattern path).mp hit⟩
    · refine Or.inr fun capability pattern on declared hit => ?_
      exact refused capability ⟨fun other member found => covered ⟨other, member, found⟩, on, pattern, declared, hit⟩
  · rintro (⟨pattern, member, covers⟩ | closed) capability ⟨clear, on, allowed, declared, hit⟩
    · exact clear pattern member ((globMatch_iff pattern path).mpr covers)
    · exact closed capability allowed on declared hit

/-- The declared denials are enforced on exactly those paths that the matcher can recognise, or that no
allow pattern reaches. -/
theorem denialsEnforced_iff (configPath configHash : GoString) (loadedAt : Time) (path : GoString) :
    DenialsEnforced table projectID cfg configPath configHash loadedAt path ↔
      (dangerousWriteDeniesPass table projectID cfg (configRecord configPath configHash loadedAt cfg) = true →
        (∃ pattern ∈ cfg.permissions.forbiddenPath, glob pattern path = true) →
        (∃ pattern ∈ cfg.permissions.forbiddenPath, enforceable pattern path) ∨
          ∀ capability pattern, (capability, true) ∈ cfg.permissions.capabilities →
            AllowPattern cfg capability pattern → globMatch pattern path = false) := by
  unfold DenialsEnforced canProjectPathInTx canWritePath canWritePathTx
  simp only [and_self, refused_iff]

end Decision

section Order

/-- The scan stops at a denial wherever it stands; otherwise its two flags say whether some row sets them. -/
theorem scanPermissions_eq (capability path : GoString) (rows : List PermissionRow) (capabilityAllowed pathAllowed : Bool) :
    scanPermissions capability path capabilityAllowed pathAllowed rows =
      if rows.any (deniesPath path) then (false, bytes "path denied by forbidden path")
      else scanPermissions capability path (capabilityAllowed || rows.any (allowsCapability capability))
        (pathAllowed || rows.any (allowsPath capability path)) [] := by
  induction rows generalizing capabilityAllowed pathAllowed with
  | nil => simp
  | cons row rest ih =>
      conv_lhs => rw [scanPermissions, ih]
      by_cases denied : deniesPath path row = true
      · simp [denied]
      · simp [denied, Bool.or_assoc]

theorem decidePath_perm {first second : List PermissionRow} (ordered : first.Perm second) (projectID : ID)
    (capability path : GoString) : decidePath first projectID capability path = decidePath second projectID capability path := by
  have rows := ordered.filter fun row => row.projectID == projectID && row.resourceType != .command
  unfold decidePath
  rw [scanPermissions_eq, scanPermissions_eq _ _ (second.filter _), rows.any_eq, rows.any_eq, rows.any_eq]

/-- A capability is on exactly when the map holds it with the value true. -/
theorem Permissions.capability_iff (permissions : Permissions) (name : GoString) :
    permissions.capability name = true ↔ (name, true) ∈ permissions.capabilities := by
  unfold Permissions.capability
  have distinct := permissions.distinct
  revert distinct
  generalize permissions.capabilities = entries
  induction entries with
  | nil => simp
  | cons entry rest ih =>
      intro distinct
      obtain ⟨key, on⟩ := entry
      rw [List.map_cons, List.nodup_cons] at distinct
      by_cases same : key = name
      · subst same
        have absent : (key, true) ∉ rest := fun member => distinct.1 (List.mem_map.mpr ⟨_, member, rfl⟩)
        simp [absent, eq_comm]
      · have skipped : ((key, on).1 == name) = false := by simpa using same
        rw [List.find?_cons_of_neg (by simp [skipped])]
        apply (ih distinct.2).trans
        simp [Ne.symm same]

/-- Two loops over one configuration may visit its capabilities in different orders. -/
structure Config.SameMaps (first second : Config) : Prop where
  capabilities : first.permissions.capabilities.Perm second.permissions.capabilities
  readPaths : first.permissions.readPaths = second.permissions.readPaths
  writePaths : first.permissions.writePaths = second.permissions.writePaths
  forbiddenPath : first.permissions.forbiddenPath = second.permissions.forbiddenPath
  commandsAllowed : first.commandsAllowed = second.commandsAllowed
  commandsForbidden : first.commandsForbidden = second.commandsForbidden

theorem Config.SameMaps.shouldAllow {first second : Config} (same : first.SameMaps second) (path : GoString) :
    shouldAllowGeneratedWritePath first path = shouldAllowGeneratedWritePath second path := by
  have on : first.permissions.capability (bytes "write_generated") =
      second.permissions.capability (bytes "write_generated") := by
    rw [Bool.eq_iff_iff, Permissions.capability_iff, Permissions.capability_iff]
    exact same.capabilities.mem_iff
  rw [shouldAllowGeneratedWritePath, on, shouldAllowGeneratedWritePath]

theorem Config.SameMaps.replacePermissions {first second : Config} (same : first.SameMaps second)
    (table : List PermissionRow) (projectID : ID) :
    (replacePermissions table projectID first).Perm (replacePermissions table projectID second) := by
  apply List.Perm.append_left
  simp only [insertPermissions, same.shouldAllow, same.readPaths, same.writePaths, same.forbiddenPath,
    same.commandsAllowed, same.commandsForbidden, List.append_assoc]
  exact (same.capabilities.map _).append_right _

/-- The three checks give one answer, whatever the order of the rows and of the loop that inserted them: a path is allowed
exactly when the configuration grants the capability, an allow pattern of the capability matches, and no forbidden pattern
matches. -/
theorem pathDecision_spec (table rows : List PermissionRow) (projectID : ID) (cfg visited : Config)
    (sameMaps : visited.SameMaps cfg) (ordered : rows.Perm (replacePermissions table projectID visited))
    (capability path : GoString) :
    canProjectPathInTx rows projectID capability path = canWritePath rows projectID capability path ∧
      canWritePathTx rows projectID capability path = canWritePath rows projectID capability path ∧
      canWritePath rows projectID capability path =
        canWritePath (replacePermissions table projectID cfg) projectID capability path ∧
      ((canWritePath rows projectID capability path).1 = true ↔
        cfg.permissions.capability capability = true ∧
          (∃ pattern, AllowPattern cfg capability pattern ∧ globMatch pattern path = true) ∧
          ∀ pattern ∈ cfg.permissions.forbiddenPath, globMatch pattern path = false) := by
  have answer : canWritePath rows projectID capability path =
      canWritePath (replacePermissions table projectID cfg) projectID capability path :=
    decidePath_perm (ordered.trans (sameMaps.replacePermissions table projectID)) projectID capability path
  refine ⟨rfl, rfl, answer, ?_⟩
  rw [answer, canWritePath, decidePath_allowed_iff, Permissions.capability_iff]
  tauto

/-- Rows that only deny never open a path. -/
theorem denials_only_close {table stricter : List PermissionRow} (wider : table ⊆ stricter)
    (denials : ∀ row ∈ stricter, row.effect = .allow → row ∈ table) {projectID : ID} {capability path : GoString}
    (allowed : (canWritePath stricter projectID capability path).1 = true) :
    (canWritePath table projectID capability path).1 = true := by
  obtain ⟨clear, capable, matched⟩ := (scanPermissions_allowed_iff capability path _ false false).mp allowed
  refine (scanPermissions_allowed_iff capability path _ false false).mpr
    ⟨fun row member => clear row (List.filter_subset _ wider member), capable.imp_right ?_, matched.imp_right ?_⟩
  all_goals
    rintro ⟨row, member, grants⟩
    have effect : row.effect = .allow := by
      simp only [allowsCapability, allowsPath, Bool.and_eq_true, beq_iff_eq] at grants
      tauto
    obtain ⟨stored, fits⟩ := List.mem_filter.mp member
    exact ⟨row, List.mem_filter.mpr ⟨denials row stored effect, fits⟩, grants⟩

end Order

/-- This configuration forbids all dangerous paths and allows status writes below `data`. -/
def databaseConfig : Config where
  permissions :=
    { capabilities := [(bytes "write_status", true)]
      readPaths := []
      writePaths := [bytes "data/**"]
      forbiddenPath := requiredDenies
      distinct := by decide }
  commandsAllowed := []
  commandsForbidden := []
  statusExportPath := []
  requiredCapabilities := []
  engineSecretRefs := []

/-- A database file below an allowed directory is writable although a forbidden pattern covers it and
the doctor passes. -/
theorem database_write_allowed :
    dangerousWriteDeniesPass [] 1 databaseConfig (configRecord [] [] 0 databaseConfig) = true ∧
      glob (bytes "**/*.sqlite") (bytes "data/app.sqlite") = true ∧
      bytes "**/*.sqlite" ∈ databaseConfig.permissions.forbiddenPath ∧
      canWritePath (replacePermissions [] 1 databaseConfig) 1 (bytes "write_status") (bytes "data/app.sqlite") =
        (true, bytes "allowed") ∧
      ¬ DenialsEnforced [] 1 databaseConfig [] [] 0 (bytes "data/app.sqlite") := by
  have passes : dangerousWriteDeniesPass [] 1 databaseConfig (configRecord [] [] 0 databaseConfig) = true := by decide
  have covered : glob (bytes "**/*.sqlite") (bytes "data/app.sqlite") = true := by decide
  have declared : bytes "**/*.sqlite" ∈ databaseConfig.permissions.forbiddenPath := by decide
  have allowed : canWritePath (replacePermissions [] 1 databaseConfig) 1 (bytes "write_status")
      (bytes "data/app.sqlite") = (true, bytes "allowed") := by decide
  refine ⟨passes, covered, declared, allowed, fun enforced => ?_⟩
  have refused := (enforced passes ⟨_, declared, covered⟩ (bytes "write_status")).2.1
  rw [allowed] at refused
  cases refused

theorem denials_only_close_database :
    (canWritePath ((replacePermissions [] 1 databaseConfig).filter (·.effect == .allow)) 1 (bytes "write_status")
      (bytes "data/app.sqlite")).1 = true :=
  @denials_only_close _ (replacePermissions [] 1 databaseConfig) (fun _ => List.mem_of_mem_filter)
    (fun _ stored effect => List.mem_filter.mpr ⟨stored, beq_iff_eq.mpr effect⟩) _ _ _ (by decide +kernel)

/-- This configuration is `databaseConfig` with a second capability; a loop may visit either one first. -/
def twoCapabilities (first second : GoString × Bool) (distinct : ([first, second].map (·.1)).Nodup) : Config :=
  { databaseConfig with
    permissions :=
      { databaseConfig.permissions with
        capabilities := [first, second]
        distinct := distinct } }

theorem reversedRows_decide :
    let cfg := twoCapabilities (bytes "write_status", true) (bytes "write_code", false) (by decide)
    let visited := twoCapabilities (bytes "write_code", false) (bytes "write_status", true) (by decide)
    let rows := (replacePermissions [] 1 visited).reverse
    (canWritePath rows 1 (bytes "write_status") (bytes "data/report.json")).1 = true ∧
      canWritePath rows 1 (bytes "write_code") (bytes "data/report.json") =
        canWritePath (replacePermissions [] 1 cfg) 1 (bytes "write_code") (bytes "data/report.json") := by
  intro cfg visited rows
  have sameMaps : visited.SameMaps cfg := ⟨by decide, rfl, rfl, rfl, rfl, rfl⟩
  have spec := fun capability => pathDecision_spec [] rows 1 cfg visited sameMaps (List.reverse_perm _) capability
    (bytes "data/report.json")
  constructor
  · rw [(spec (bytes "write_status")).2.2.2]
    exact ⟨by decide, ⟨bytes "data/**", Or.inr (Or.inl ⟨rfl, by decide⟩), by decide⟩, by decide⟩
  · exact (spec (bytes "write_code")).2.2.1

end AreaFlow.Project
