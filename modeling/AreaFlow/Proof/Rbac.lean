import AreaFlow.Construction.Auth.Rbac

namespace AreaFlow.Auth
open Go

/-- A binding belongs to the user that it names and to the active members of its team. -/
def heldBy (db : Identity) (userID : ID) (b : BindingRow) : Bool :=
  b.holder == .user userID ||
    db.memberships.any fun m => m.userID == userID && m.status == .active && b.holder == .team m.teamID

/-- These are the active and unexpired bindings of a user, direct or through a team. -/
def userBindings (db : Identity) (now : Time) (userID : ID) : List BindingRow :=
  db.bindings.filter fun b => heldBy db userID b && liveBinding now b

/-- A binding is on the project to which its reference leads. -/
def onProject (db : Identity) (b : BindingRow) (projectKey : GoString) : Bool :=
  (db.projectOf b.projectID).any fun project => project.projectKey == projectKey

theorem mem_userRoleRows {db : Identity} {now : Time} {userID : ID} {row : Role × GoString} :
    row ∈ userRoleRows db now userID ↔
      ∃ b ∈ userBindings db now userID, row = (b.role, db.projectKeyOf b.projectID) := by
  simp only [userRoleRows, directRoleRows, teamRoleRows, userBindings, heldBy, List.mem_dedup, List.mem_append,
    List.mem_map, List.mem_flatMap, List.mem_filter, Bool.and_eq_true, Bool.or_eq_true, List.any_eq_true,
    beq_iff_eq]
  constructor
  · rintro (⟨b, ⟨member, holder, live⟩, rfl⟩ | ⟨m, ⟨memberOf, mine, active⟩, b, ⟨member, holder, live⟩, rfl⟩)
    · exact ⟨b, ⟨member, Or.inl holder, live⟩, rfl⟩
    · exact ⟨b, ⟨member, Or.inr ⟨m, memberOf, ⟨mine, active⟩, holder⟩, live⟩, rfl⟩
  · rintro ⟨b, ⟨member, holder | ⟨m, memberOf, ⟨mine, active⟩, holder⟩, live⟩, rfl⟩
    · exact Or.inl ⟨b, ⟨member, holder, live⟩, rfl⟩
    · exact Or.inr ⟨m, ⟨memberOf, mine, active⟩, b, ⟨member, holder, live⟩, rfl⟩

/-- This is the project set entry that one role row contributes. -/
def rowProject (row : Role × GoString) : Option GoString :=
  if row.1 = .platformAdmin then some (bytes "*") else if row.2 ≠ [] then some row.2 else none

theorem scanRoleRow_eq (sets : List GoString × List GoString) (row : Role × GoString) :
    scanRoleRow sets row =
      (insertKey sets.1 row.1.name, (rowProject row).elim sets.2 (insertKey sets.2)) := by
  unfold scanRoleRow rowProject
  by_cases global : row.1 = .platformAdmin
  · simp [global]
  · by_cases keyed : row.2 = [] <;> simp [global, keyed]

/-- The scan collects the role names of all rows. -/
theorem mem_scan_roles (rows : List (Role × GoString)) (sets : List GoString × List GoString) (x : GoString) :
    x ∈ (rows.foldl scanRoleRow sets).1 ↔ x ∈ sets.1 ∨ ∃ row ∈ rows, row.1.name = x := by
  induction rows generalizing sets with
  | nil => simp
  | cons row rest ih =>
      rw [List.foldl_cons, ih, scanRoleRow_eq, mem_insertKey]
      simp only [List.mem_cons, exists_eq_or_imp, or_assoc]
      rw [eq_comm (a := x)]

/-- The scan collects the project entries of all rows. -/
theorem mem_scan_projects (rows : List (Role × GoString)) (sets : List GoString × List GoString) (x : GoString) :
    x ∈ (rows.foldl scanRoleRow sets).2 ↔ x ∈ sets.2 ∨ ∃ row ∈ rows, rowProject row = some x := by
  induction rows generalizing sets with
  | nil => simp
  | cons row rest ih =>
      rw [List.foldl_cons, ih, scanRoleRow_eq]
      simp only [List.mem_cons, exists_eq_or_imp, ← or_assoc]
      cases entry : rowProject row with
      | none => simp
      | some key => simp [eq_comm]

/-- A capability of the principal comes from the role of one of its bindings. -/
theorem mem_principal_capabilities {db : Identity} {now : Time} {user : UserRecord} {capability : GoString} :
    capability ∈ (principalForUser db now user).capabilities ↔
      ∃ b ∈ userBindings db now user.id, capability ∈ b.role.capabilities := by
  simp only [principalForUser, mem_capabilitiesForRoles, mem_sortStrings, mem_scan_roles, List.not_mem_nil,
    false_or, mem_userRoleRows]
  constructor
  · rintro ⟨_, ⟨_, ⟨b, member, rfl⟩, rfl⟩, allowed⟩
    exact ⟨b, member, by simpa using allowed⟩
  · rintro ⟨b, member, allowed⟩
    exact ⟨_, ⟨_, ⟨b, member, rfl⟩, rfl⟩, by simpa using allowed⟩

/-- A role row of a binding contributes the wildcard or the key of its project. -/
theorem rowProject_binding (db : Identity) (b : BindingRow) (projectKey : GoString) :
    rowProject (b.role, db.projectKeyOf b.projectID) = some projectKey ↔
      (projectKey = bytes "*" ∧ b.role = .platformAdmin) ∨ onProject db b projectKey = true := by
  unfold rowProject onProject Identity.projectKeyOf
  by_cases global : b.role = .platformAdmin
  · have none : b.projectID = none := b.globalOnly.mpr global
    simp [global, none, Identity.projectOf, eq_comm]
  · cases found : db.projectOf b.projectID with
    | none => simp [global]
    | some project => simp [global, project.keyed]

/-- A project of the principal is the wildcard of the platform role or the project of one of its bindings. -/
theorem mem_principal_projects {db : Identity} {now : Time} {user : UserRecord} {projectKey : GoString} :
    projectKey ∈ (principalForUser db now user).projects ↔
      (projectKey = bytes "*" ∧ ∃ b ∈ userBindings db now user.id, b.role = .platformAdmin) ∨
        ∃ b ∈ userBindings db now user.id, onProject db b projectKey = true := by
  simp only [principalForUser, mem_sortStrings, mem_scan_projects, List.not_mem_nil, false_or, mem_userRoleRows]
  constructor
  · rintro ⟨_, ⟨b, member, rfl⟩, entry⟩
    rcases (rowProject_binding db b projectKey).mp entry with ⟨star, global⟩ | bound
    · exact Or.inl ⟨star, b, member, global⟩
    · exact Or.inr ⟨b, member, bound⟩
  · rintro (⟨star, b, member, global⟩ | ⟨b, member, bound⟩)
    · exact ⟨_, ⟨b, member, rfl⟩, (rowProject_binding db b projectKey).mpr (Or.inl ⟨star, global⟩)⟩
    · exact ⟨_, ⟨b, member, rfl⟩, (rowProject_binding db b projectKey).mpr (Or.inr bound)⟩

/-- The wildcard capability belongs to the platform role alone. -/
theorem principal_allowsCapability_iff (db : Identity) (now : Time) (user : UserRecord) (capability : GoString) :
    (principalForUser db now user).allowsCapability capability = true ↔
      (∃ b ∈ userBindings db now user.id, b.role = .platformAdmin) ∨
        ∃ b ∈ userBindings db now user.id, capability ∈ b.role.capabilities := by
  simp only [Principal.allowsCapability_iff, mem_principal_capabilities, Role.star_mem_capabilities]

/-- Without a project that is keyed by the wildcard, project access comes from the platform role or from
a binding on the project. -/
theorem principal_allowsProject_iff (db : Identity) (now : Time) (user : UserRecord) (projectKey : GoString)
    (plain : ∀ b ∈ userBindings db now user.id, onProject db b (bytes "*") = false) :
    (principalForUser db now user).allowsProject projectKey = true ↔
      (∃ b ∈ userBindings db now user.id, b.role = .platformAdmin) ∨
        ∃ b ∈ userBindings db now user.id, onProject db b projectKey = true := by
  have starred : bytes "*" ∈ (principalForUser db now user).projects ↔
      ∃ b ∈ userBindings db now user.id, b.role = .platformAdmin := by
    rw [mem_principal_projects]
    constructor
    · rintro (⟨_, admin⟩ | ⟨b, member, bound⟩)
      · exact admin
      · rw [plain b member] at bound
        cases bound
    · exact fun admin => Or.inl ⟨rfl, admin⟩
  rw [Principal.allowsProject_iff, starred, mem_principal_projects]
  constructor
  · rintro (admin | ⟨_, admin⟩ | bound)
    · exact Or.inl admin
    · exact Or.inl admin
    · exact Or.inr bound
  · rintro (admin | bound)
    · exact Or.inl admin
    · exact Or.inr (Or.inr bound)

/-- A principal passes both tests exactly when it has a platform binding, or a binding on the project
together with a binding on any project whose role carries the capability. -/
theorem principal_admits_iff (db : Identity) (now : Time) (user : UserRecord) (projectKey capability : GoString)
    (plain : ∀ b ∈ userBindings db now user.id, onProject db b (bytes "*") = false) :
    ((principalForUser db now user).allowsProject projectKey = true ∧
        (principalForUser db now user).allowsCapability capability = true) ↔
      (∃ b ∈ userBindings db now user.id, b.role = .platformAdmin) ∨
        ((∃ b ∈ userBindings db now user.id, onProject db b projectKey = true) ∧
          ∃ b ∈ userBindings db now user.id, capability ∈ roleCapabilities b.role.name) := by
  simp only [principal_allowsProject_iff db now user projectKey plain,
    principal_allowsCapability_iff db now user capability, roleCapabilities_name]
  exact or_and_left.symm

/-- This is the law of one single binding: it is the platform binding, or it is on the project and its
role carries the capability. -/
def singleBindingAllows (db : Identity) (now : Time) (userID : ID) (projectKey capability : GoString) : Bool :=
  (userBindings db now userID).any fun b =>
    b.role == .platformAdmin || (onProject db b projectKey && (roleCapabilities b.role.name).contains capability)

/-- These tables hold a user who views the project `a` and approves on the project `b`. -/
def viewerAndApprover : Identity where
  projects := [smallProject,
    { id := 2, projectKey := bytes "b", archived := false, keyed := by decide }]
  users := [⟨7, none, none, bytes "u", none, bytes "active"⟩]
  bindings :=
    [⟨1, some 1, .user 7, .viewer, .active, bytes "r", 1, none, by decide⟩,
      ⟨2, some 2, .user 7, .approver, .active, bytes "r", 1, none, by decide⟩]

/-- This is the record of that user. -/
def viewerRecord : UserRecord := ⟨7, 0, bytes "u", [], bytes "u"⟩

/-- The approver capability on `b` is also usable on `a`, where no binding carries it. -/
theorem principal_exceeds_single_binding :
    (principalForUser viewerAndApprover 0 viewerRecord).allowsProject (bytes "a") = true ∧
      (principalForUser viewerAndApprover 0 viewerRecord).allowsCapability (bytes "workflow.approval.record") = true ∧
      singleBindingAllows viewerAndApprover 0 7 (bytes "a") (bytes "workflow.approval.record") = false := by
  decide

/-- The characterisation applies to the user with two bindings. -/
theorem principal_admits_viewerAndApprover :
    ((principalForUser viewerAndApprover 0 viewerRecord).allowsProject (bytes "a") = true ∧
        (principalForUser viewerAndApprover 0 viewerRecord).allowsCapability (bytes "workflow.approval.record") = true) ↔
      (∃ b ∈ userBindings viewerAndApprover 0 7, b.role = .platformAdmin) ∨
        ((∃ b ∈ userBindings viewerAndApprover 0 7, onProject viewerAndApprover b (bytes "a") = true) ∧
          ∃ b ∈ userBindings viewerAndApprover 0 7,
            bytes "workflow.approval.record" ∈ roleCapabilities b.role.name) :=
  principal_admits_iff viewerAndApprover 0 viewerRecord (bytes "a") (bytes "workflow.approval.record") (by decide)

end AreaFlow.Auth
