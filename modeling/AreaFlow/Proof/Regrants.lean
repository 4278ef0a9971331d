import AreaFlow.Library.Run
import AreaFlow.Construction.Auth.Login
import AreaFlow.Proof.Rbac

namespace AreaFlow.Auth
open Go

/-- These are the tables, and the time. -/
structure RoleState where
  db : Identity
  now : Time
  deriving DecidableEq

inductive RoleCall where
  | grant (options : GrantRoleOptions)
  | revoke (bindingID : ID) (actor reason : GoString)
  | advance (duration : Nat)
  deriving DecidableEq

/-- A call that fails leaves the tables. -/
def roleStep (state : RoleState) : RoleCall → RoleState × Unit
  | .grant options =>
      match grantRole state.db options with
      | .ok (db, _) => ({ state with db := db }, ())
      | .error _ => (state, ())
  | .revoke bindingID actor reason =>
      match revokeRole state.db bindingID actor reason with
      | .ok (db, _) => ({ state with db := db }, ())
      | .error _ => (state, ())
  | .advance duration => ({ state with now := state.now + duration }, ())

/-- A binding is marked active, and its deadline has passed. -/
def Lapsed (now : Time) (b : BindingRow) : Prop := b.status = .active ∧ ∃ deadline ∈ b.expiresAt, deadline ≤ now

/-- A binding has the project, the holder and the role of a grant. -/
def SameGrant (options : GrantRoleOptions) (target : GrantTarget) (b : BindingRow) : Prop :=
  b.projectID = target.projectID ∧ b.holder = options.holder ∧ b.role = target.role

def Holder.Stored (db : Identity) : Holder → Prop
  | .user id => ∃ user ∈ db.users, user.id = id
  | .team id => ∃ team ∈ db.teams, team.id = id

/-- The platform role has no project, and every other role has a stored project that is not archived. -/
def GrantTarget.NamedBy (db : Identity) (projectKey : GoString) : GrantTarget → Prop
  | .everywhere => projectKey = []
  | .project row _ _ => roleProject db projectKey = some row

/-- A grant names a stored holder, a known role and a project that is not archived, with an actor and a reason. -/
structure Grantable (db : Identity) (options : GrantRoleOptions) (target : GrantTarget) : Prop where
  role : Role.ofName (trimSpace options.role) = some target.role
  actor : trimSpace options.actor ≠ []
  reason : trimSpace options.reason ≠ []
  oneHolder : ¬ (options.userID = 0 ↔ options.teamID = 0)
  stored : Holder.Stored db options.holder
  project : target.NamedBy db (trimSpace options.projectKey)

/-- A marked binding is live or it has lapsed. -/
theorem lapsed_iff {now : Time} {b : BindingRow} : Lapsed now b ↔ b.status = .active ∧ liveBinding now b = false := by
  unfold Lapsed liveBinding
  cases b.expiresAt with
  | none => simp
  | some deadline => simp +contextual

section Grant

variable {db : Identity} {options : GrantRoleOptions} {target : GrantTarget}

/-- A binding can be inserted for a stored holder exactly if none is marked active for the same grant. -/
theorem insertableBinding_iff (grantable : Grantable db options target) :
    insertableBinding db target.projectID options.holder target.role = true ↔
      ∀ b ∈ db.bindings, SameGrant options target b → b.status ≠ .active := by
  have present := grantable.stored
  have unmarked_iff : insertableBinding db target.projectID options.holder target.role = true ↔
      ∀ b ∈ db.bindings, ¬ (b.projectID == target.projectID && b.holder == options.holder && b.role == target.role &&
        b.status == .active) = true := by
    unfold insertableBinding
    cases holder : options.holder with
    | user id =>
        rw [holder] at present
        simp [show ∃ user ∈ db.users, user.id = id from present]
    | team id =>
        rw [holder] at present
        simp [show ∃ team ∈ db.teams, team.id = id from present]
  rw [unmarked_iff]
  constructor
  · rintro unmarked b member ⟨project, holder, role⟩ active
    exact unmarked b member (by simp [project, holder, role, active])
  · intro unmarked b member marked
    simp only [Bool.and_eq_true, beq_iff_eq] at marked
    obtain ⟨⟨⟨project, holder⟩, role⟩, active⟩ := marked
    exact unmarked b member ⟨project, holder, role⟩ active

/-- A grant passes its checks exactly if the binding can be inserted. -/
theorem checkGrant_grantable (grantable : Grantable db options target) :
    checkGrant db options =
      if insertableBinding db target.projectID options.holder target.role then .ok target
      else .error (bytes "insert role binding") := by
  obtain ⟨role, actor, reason, oneHolder, -, project⟩ := grantable
  unfold checkGrant
  simp only [role, actor, reason, oneHolder, or_self, if_false]
  cases target with
  | everywhere =>
      simp [GrantTarget.role, GrantTarget.projectID, show trimSpace options.projectKey = [] from project]
      rfl
  | project row role narrow =>
      have found : roleProject db (trimSpace options.projectKey) = some row := project
      have keyed : trimSpace options.projectKey ≠ [] := by
        intro blank
        have same := List.find?_some found
        simp only [Bool.and_eq_true, beq_iff_eq] at same
        exact row.keyed (same.1.trans blank)
      simp [GrantTarget.role, GrantTarget.projectID, narrow, keyed, found]
      rfl

/-- A grant succeeds exactly if no binding is marked active for it. -/
theorem grantRole_ok_iff (grantable : Grantable db options target) :
    (∃ outcome, grantRole db options = .ok outcome) ↔
      ∀ b ∈ db.bindings, SameGrant options target b → b.status ≠ .active := by
  rw [← insertableBinding_iff grantable, grantRole, checkGrant_grantable grantable]
  cases insertableBinding db target.projectID options.holder target.role <;> simp [Except.map]

end Grant

section Bootstrap

variable {db : Identity} {now : Time} {user : UserRecord}

/-- The platform role of a principal comes from one of its bindings. -/
theorem platformAdmin_mem_roles :
    Role.platformAdmin.name ∈ (principalForUser db now user).roles ↔
      ∃ b ∈ userBindings db now user.id, b.role = .platformAdmin := by
  simp only [principalForUser, mem_sortStrings, mem_scan_roles, List.not_mem_nil, false_or, mem_userRoleRows]
  constructor
  · rintro ⟨_, ⟨b, held, rfl⟩, named⟩
    exact ⟨b, held, Role.name_injective named⟩
  · rintro ⟨b, held, global⟩
    exact ⟨_, ⟨b, held, rfl⟩, congrArg Role.name global⟩

/-- This is the grant that a start list asks for. -/
def bootstrapGrant (user : UserRecord) : GrantRoleOptions where
  projectKey := []
  userID := user.id
  teamID := 0
  role := Role.platformAdmin.name
  actor := user.actor
  reason := bytes "OIDC bootstrap subject allowlist"
  expiresAt := none

theorem bootstrapGrant_holder (numbered : user.id ≠ 0) : (bootstrapGrant user).holder = .user user.id := if_neg numbered

theorem bootstrapGrant_grantable (numbered : user.id ≠ 0) (stored : ∃ row ∈ db.users, row.id = user.id)
    (named : trimSpace user.actor ≠ []) : Grantable db (bootstrapGrant user) .everywhere where
  role := by
    show Role.ofName (trimSpace Role.platformAdmin.name) = some .platformAdmin
    decide
  actor := named
  reason := by
    show trimSpace (bytes "OIDC bootstrap subject allowlist") ≠ []
    decide
  oneHolder := by simpa [bootstrapGrant] using numbered
  stored := by
    rw [bootstrapGrant_holder numbered]
    exact stored
  project := by
    show trimSpace [] = []
    rfl

/-- A grant without an actor fails. -/
theorem grantRole_blank {options : GrantRoleOptions} (blank : trimSpace options.actor = []) :
    ¬ ∃ outcome, grantRole db options = .ok outcome := by
  rintro ⟨outcome, granted⟩
  unfold grantRole checkGrant at granted
  split at granted
  · cases granted
  · simp only [blank, true_or, if_true] at granted
    cases granted

/-- The binding of a grant without a deadline is held at every time. -/
theorem grantRole_held {options : GrantRoleOptions} {target : GrantTarget} {outcome : Identity × BindingRow}
    (grantable : Grantable db options target) (granted : grantRole db options = .ok outcome) {id : ID}
    (holder : options.holder = .user id) (unlimited : options.expiresAt = none) (time : Time) :
    ∃ b ∈ userBindings outcome.1 time id, b.role = target.role := by
  unfold grantRole at granted
  rw [checkGrant_grantable grantable] at granted
  split at granted
  · obtain rfl := Except.ok.inj granted
    refine ⟨newBindingRow db options target, ?_, rfl⟩
    simp [userBindings, heldBy, liveBinding, newBindingRow, holder, unlimited]
  · cases granted

/-- The start list gives the platform role to a user. -/
def BootstrapGrants (db : Identity) (now : Time) (user : UserRecord) (subject : GoString) (allowed : List GoString) : Prop :=
  ∃ db', ensureBootstrapPlatformAdmin db now user subject allowed = .ok (db', ()) ∧
    ∀ time, Role.platformAdmin.name ∈ (principalForUser db' time user).roles

/-- A user on the start list without the platform role gets it exactly if the grant succeeds. -/
theorem bootstrapGrants_iff {subject : GoString} {allowed : List GoString}
    (listed : (normalize allowed).contains (trimSpace subject) = true)
    (lacks : Role.platformAdmin.name ∉ (principalForUser db now user).roles) (numbered : user.id ≠ 0)
    (stored : ∃ row ∈ db.users, row.id = user.id) :
    BootstrapGrants db now user subject allowed ↔ ∃ outcome, grantRole db (bootstrapGrant user) = .ok outcome := by
  have asks : ensureBootstrapPlatformAdmin db now user subject allowed =
      (grantRole db (bootstrapGrant user)).map fun granted => (granted.1, ()) := by
    unfold ensureBootstrapPlatformAdmin
    simp only [listed, Bool.not_true, Bool.false_eq_true, if_false, List.contains_eq_mem, lacks, decide_false]
    rfl
  constructor
  · rintro ⟨db', answered, -⟩
    rw [asks] at answered
    obtain ⟨outcome, granted, -⟩ := map_ok_iff.mp answered
    exact ⟨outcome, granted⟩
  · rintro ⟨outcome, granted⟩
    have named : trimSpace user.actor ≠ [] := fun blank => grantRole_blank blank ⟨outcome, granted⟩
    refine ⟨outcome.1, by rw [asks, granted]; rfl, fun time => ?_⟩
    exact platformAdmin_mem_roles.mpr (grantRole_held (bootstrapGrant_grantable numbered stored named) granted
      (bootstrapGrant_holder numbered) rfl time)

end Bootstrap

/-- After every history, a grant without a live binding succeeds exactly if no binding of the same grant has lapsed. A user on
the start list without the platform role gets it exactly if the user is named and has no lapsed binding of that role. -/
theorem roles_granted_again_iff (start : RoleState) (history : List RoleCall) :
    (∀ options target, Grantable (Run.final roleStep start history).db options target →
      (∀ b ∈ (Run.final roleStep start history).db.bindings, SameGrant options target b →
        liveBinding (Run.final roleStep start history).now b = false) →
      ((∃ outcome, grantRole (Run.final roleStep start history).db options = .ok outcome) ↔
        ∀ b ∈ (Run.final roleStep start history).db.bindings, SameGrant options target b →
          ¬ Lapsed (Run.final roleStep start history).now b)) ∧
    (∀ user subject allowed, (normalize allowed).contains (trimSpace subject) = true → user.id ≠ 0 →
      (∃ row ∈ (Run.final roleStep start history).db.users, row.id = user.id) →
      Role.platformAdmin.name ∉
        (principalForUser (Run.final roleStep start history).db (Run.final roleStep start history).now user).roles →
      (BootstrapGrants (Run.final roleStep start history).db (Run.final roleStep start history).now user subject allowed ↔
        trimSpace user.actor ≠ [] ∧ ∀ b ∈ (Run.final roleStep start history).db.bindings, b.holder = .user user.id →
          b.role = .platformAdmin → ¬ Lapsed (Run.final roleStep start history).now b)) := by
  generalize Run.final roleStep start history = state
  constructor
  · intro options target grantable dead
    rw [grantRole_ok_iff grantable]
    refine forall₂_congr fun b member => forall_congr' fun same => not_congr ?_
    rw [lapsed_iff, and_iff_left (dead b member same)]
  · intro user subject allowed listed numbered stored lacks
    rw [bootstrapGrants_iff listed lacks numbered stored]
    by_cases named : trimSpace user.actor = []
    · exact iff_of_false (grantRole_blank named) fun both => both.1 named
    · rw [grantRole_ok_iff (bootstrapGrant_grantable numbered stored named), and_iff_right named]
      refine forall₂_congr fun b member => ?_
      constructor
      · intro unmarked holder global lapsed
        refine unmarked ⟨b.globalOnly.mpr global, ?_, global⟩ lapsed.1
        rw [holder, bootstrapGrant_holder numbered]
      · rintro unlapsed ⟨-, holder, global⟩ active
        rw [bootstrapGrant_holder numbered] at holder
        refine unlapsed holder global (lapsed_iff.mpr ⟨active, ?_⟩)
        by_contra live
        apply lacks
        refine platformAdmin_mem_roles.mpr ⟨b, ?_, global⟩
        rw [userBindings, List.mem_filter]
        exact ⟨member, by simp [heldBy, holder, Bool.not_eq_false _ ▸ live]⟩

section Expiry

/-- These tables hold one user. -/
def oneUser : RoleState where
  db := { users := [{ id := 7, actorID := none, email := none, displayName := bytes "u", externalKey := none }] }
  now := 0

/-- This is the grant of the platform role to that user. -/
def adminGrant (expiresAt : Option Time) : GrantRoleOptions where
  projectKey := []
  userID := 7
  teamID := 0
  role := Role.platformAdmin.name
  actor := bytes "owner"
  reason := bytes "r"
  expiresAt := expiresAt

theorem adminGrant_grantable {db : Identity} (stored : ∃ user ∈ db.users, user.id = 7) (expiresAt : Option Time) :
    Grantable db (adminGrant expiresAt) .everywhere where
  role := by
    show Role.ofName (trimSpace Role.platformAdmin.name) = some .platformAdmin
    decide
  actor := by
    show trimSpace (bytes "owner") ≠ []
    decide
  reason := by
    show trimSpace (bytes "r") ≠ []
    decide
  oneHolder := by simp [adminGrant]
  stored := stored
  project := by
    show trimSpace [] = []
    rfl

/-- This is the record of that user. -/
def oneUserRecord : UserRecord := ⟨7, 0, bytes "u", [], bytes "u"⟩

/-- The role is granted for a time, and the time passes. -/
def lapsedHistory : List RoleCall := [.grant (adminGrant (some 5)), .advance 9]

/-- After its deadline the role is not held, it cannot be granted again, and the start list does not give it back. -/
theorem lapsedBinding_blocks :
    Grantable (Run.final roleStep oneUser lapsedHistory).db (adminGrant none) .everywhere ∧
    (∀ b ∈ (Run.final roleStep oneUser lapsedHistory).db.bindings,
      liveBinding (Run.final roleStep oneUser lapsedHistory).now b = false) ∧
    (¬ ∃ outcome, grantRole (Run.final roleStep oneUser lapsedHistory).db (adminGrant none) = .ok outcome) ∧
    Role.platformAdmin.name ∉ (principalForUser (Run.final roleStep oneUser lapsedHistory).db
      (Run.final roleStep oneUser lapsedHistory).now oneUserRecord).roles ∧
    ¬ BootstrapGrants (Run.final roleStep oneUser lapsedHistory).db (Run.final roleStep oneUser lapsedHistory).now
      oneUserRecord (bytes "s") [bytes "s"] := by
  have stored : ∃ user ∈ (Run.final roleStep oneUser lapsedHistory).db.users, user.id = 7 := by decide +kernel
  have lacks : Role.platformAdmin.name ∉ (principalForUser (Run.final roleStep oneUser lapsedHistory).db
      (Run.final roleStep oneUser lapsedHistory).now oneUserRecord).roles := by decide +kernel
  have marked : ∃ b ∈ (Run.final roleStep oneUser lapsedHistory).db.bindings,
      b.projectID = none ∧ b.holder = .user 7 ∧ b.role = .platformAdmin ∧ b.status = .active := by decide +kernel
  obtain ⟨b, member, global, holder, role, active⟩ := marked
  refine ⟨adminGrant_grantable stored none, by decide +kernel, ?_, lacks, ?_⟩
  · rw [grantRole_ok_iff (adminGrant_grantable stored none)]
    exact fun unmarked => unmarked b member ⟨global, holder, role⟩ active
  · rw [bootstrapGrants_iff (by decide) lacks (by decide) stored,
      grantRole_ok_iff (bootstrapGrant_grantable (by decide) stored (by decide))]
    exact fun unmarked => unmarked b member ⟨global, holder, role⟩ active

/-- The role is granted for a time, it is revoked, and the time passes. -/
def revokedHistory : List RoleCall :=
  [.grant (adminGrant (some 5)), .revoke 1 (bytes "owner") (bytes "r"), .advance 9]

/-- After a revocation the role can be granted again. -/
theorem revokedBinding_regranted :
    ∃ outcome, grantRole (Run.final roleStep oneUser revokedHistory).db (adminGrant none) = .ok outcome := by
  have unmarked : ∀ b ∈ (Run.final roleStep oneUser revokedHistory).db.bindings, b.status = .revoked := by decide +kernel
  refine ((roles_granted_again_iff oneUser revokedHistory).1 (adminGrant none) .everywhere
    (adminGrant_grantable (by decide +kernel) none) ?_).mpr ?_
  · intro b member _
    simp [liveBinding, unmarked b member]
  · rintro b member - ⟨active, -⟩
    exact nomatch active.symm.trans (unmarked b member)

end Expiry

end AreaFlow.Auth
