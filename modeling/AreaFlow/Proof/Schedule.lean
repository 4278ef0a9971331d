import AreaFlow.Construction.Project.WorkerPool

namespace AreaFlow.Project
open Go

section Arithmetic

theorem int64_eq {value : Int} (low : -2 ^ 63 ≤ value) (high : value < 2 ^ 63) : int64 value = value := by
  apply Int.bmod_eq_of_le <;> omega

@[simp] theorem int64_int64 (value : Int) : int64 (int64 value) = int64 value := Int.bmod_bmod

theorem int64_add_int64 (value other : Int) : int64 (int64 value + other) = int64 (value + other) := Int.bmod_add_bmod

theorem availableSlots_nonneg (onlineWorkers maxParallel activeLeases : Int) :
    0 ≤ availableSlots onlineWorkers maxParallel activeLeases := by
  simp only [availableSlots, minInt64, nonNegativeInt64]
  split_ifs <;> omega

/-- A value is a 64-bit integer. -/
def Fits (value : Int) : Prop := -2 ^ 63 ≤ value ∧ value < 2 ^ 63

instance (value : Int) : Decidable (Fits value) := inferInstanceAs (Decidable (_ ∧ _))

theorem Fits.same {value : Int} (fits : Fits value) : int64 value = value := int64_eq fits.1 fits.2

/-- The started tasks fit under the workers and under the policy. -/
theorem availableSlots_fit {onlineWorkers maxParallel activeLeases : Int} (workers : Fits (onlineWorkers - activeLeases))
    (policy : Fits (maxParallel - activeLeases)) (positive : 0 < availableSlots onlineWorkers maxParallel activeLeases) :
    activeLeases + availableSlots onlineWorkers maxParallel activeLeases ≤ onlineWorkers ∧
      activeLeases + availableSlots onlineWorkers maxParallel activeLeases ≤ maxParallel := by
  simp only [availableSlots, workers.same, policy.same, minInt64, nonNegativeInt64] at positive ⊢
  split_ifs at positive ⊢ <;> omega

end Arithmetic

section Readiness

theorem mem_normalizeCapabilityList {capabilities : List GoString} {capability : GoString} :
    capability ∈ normalizeCapabilityList capabilities ↔
      capability ≠ [] ∧ ∃ own ∈ capabilities, trimSpace own = capability := by
  simp [normalizeCapabilityList, mem_normalizeInto]

/-- A role is filled by a worker of its type. An empty role is filled by every worker. -/
def WorkerRow.fills (worker : WorkerRow) (role : GoString) : Bool :=
  trimSpace role == [] || workerTypeMatchesRole worker.workerType role

theorem workerTypeMatchesRole_trim (workerType role : GoString) :
    workerTypeMatchesRole (trimSpace workerType) (trimSpace role) = workerTypeMatchesRole workerType role := by
  simp [workerTypeMatchesRole, trimSpace_trimSpace]

theorem matches_ne_nil {workerType role : GoString} (required : trimSpace role ≠ [])
    (fits : workerTypeMatchesRole workerType role = true) : trimSpace workerType ≠ [] := by
  intro empty
  simp only [workerTypeMatchesRole, empty, Bool.or_eq_true, Bool.and_eq_true, beq_iff_eq] at fits
  rcases fits with same | ⟨_, same⟩
  · exact required same.symm
  · exact absurd same (by decide)

/-- The matched types are those of the list that fit the role. -/
theorem matchedTypes_eq_nil_iff {role : GoString} {workerTypes : List GoString} (required : trimSpace role ≠ []) :
    (normalize workerTypes).filter (workerTypeMatchesRole · (trimSpace role)) = [] ↔
      ∀ workerType ∈ workerTypes, workerTypeMatchesRole workerType role = false := by
  rw [List.filter_eq_nil_iff]
  constructor
  · intro unmatched workerType member
    by_contra fits
    rw [Bool.not_eq_false] at fits
    apply unmatched (trimSpace workerType) (mem_normalize.mpr ⟨matches_ne_nil required fits, workerType, member, rfl⟩)
    rwa [workerTypeMatchesRole_trim]
  · intro unmatched workerType member
    obtain ⟨_, own, listed, rfl⟩ := mem_normalize.mp member
    rw [workerTypeMatchesRole_trim, unmatched own listed]
    decide

theorem roleReadiness_blockedReasons (role : GoString) (workerTypes : List GoString) :
    (if (roleReadinessFromWorkerTypes role workerTypes).status = .blocked then
        (roleReadinessFromWorkerTypes role workerTypes).blockedReasons
      else []) = [] ↔
      trimSpace role = [] ∨ ∃ workerType ∈ workerTypes, workerTypeMatchesRole workerType role = true := by
  by_cases empty : trimSpace role = []
  · simp [roleReadinessFromWorkerTypes, empty]
  · have unmatched := @matchedTypes_eq_nil_iff role workerTypes empty
    by_cases empties : (normalize workerTypes).filter (workerTypeMatchesRole · (trimSpace role)) = []
    · have without := unmatched.mp empties
      simp only [roleReadinessFromWorkerTypes, empty, empties, if_false, if_true, false_or]
      simp only [List.cons_ne_nil, false_iff, not_exists, not_and]
      intro workerType member
      simp [without workerType member]
    · have filled := mt unmatched.mpr empties
      simp only [roleReadinessFromWorkerTypes, empty, empties, if_false, false_or, reduceCtorEq,
        true_iff]
      push Not at filled
      simpa using filled

theorem resourceReadiness_blockedReasons (limits : Metadata) (activeLeases queuedTasks : Int) :
    (if (resourceReadinessFromLimits limits activeLeases queuedTasks).status = .blocked then
        (resourceReadinessFromLimits limits activeLeases queuedTasks).blockedReasons
      else []) = [] ↔
      (resourceReadinessFromLimits limits activeLeases queuedTasks).status = .ready := by
  generalize reasons : resourceReadinessFromLimits limits activeLeases queuedTasks = readiness
  have agree : readiness.status = if readiness.blockedReasons = [] then .ready else .blocked := by
    rw [← reasons]
    rfl
  rw [agree]
  by_cases empty : readiness.blockedReasons = [] <;> simp [empty]

theorem engineReadiness_blockedReasons (engine : EngineReadiness) (profile : GoString) :
    (if (normalizeEngineReadiness engine profile).status = bytes "blocked" then
        (normalizeEngineReadiness engine profile).blockedReasons
      else []) = [] ↔ engine.blockedReasons = [] := by
  by_cases empty : engine.blockedReasons = []
  · simp [normalizeEngineReadiness, empty]
  · simp [normalizeEngineReadiness, empty]

theorem ite_singleton_eq_nil {A : Type} {condition : Prop} [Decidable condition] {reason : A} :
    (if condition then [reason] else []) = [] ↔ ¬condition := by
  by_cases holds : condition <;> simp [holds]

/-- A project is recommended if it has queued tasks and no check finds a reason against it. -/
theorem recommended_iff (summary : WorkerPoolProjectSummary) :
    (buildWorkerPoolProjectSchedule summary).recommended = true ↔
      summary.queuedTasks ≠ 0 ∧ summary.onlineWorkers ≠ 0 ∧
        (trimSpace (normalizeSchedulingPolicy summary.scheduling).agentRole = [] ∨
          ∃ workerType ∈ summary.workerTypes,
            workerTypeMatchesRole workerType (normalizeSchedulingPolicy summary.scheduling).agentRole = true) ∧
        availableSlots summary.onlineWorkers (normalizeSchedulingPolicy summary.scheduling).maxParallelTasks
          summary.activeLeases ≠ 0 ∧
        (∀ required ∈ (normalizeSchedulingPolicy summary.scheduling).requiredCapabilities,
          capabilityPresent summary.capabilities required = true) ∧
        summary.engine.blockedReasons = [] ∧
        (resourceReadinessFromLimits summary.engine.resourceLimits summary.activeLeases summary.queuedTasks).status =
          .ready := by
  simp only [buildWorkerPoolProjectSchedule, beq_iff_eq]
  by_cases idle : summary.queuedTasks = 0
  · simp [idle]
  · simp only [if_neg idle, scheduleBlockedReasons, List.append_eq_nil_iff, ite_singleton_eq_nil,
      roleReadiness_blockedReasons, engineReadiness_blockedReasons, resourceReadiness_blockedReasons,
      List.map_eq_nil_iff, List.filter_eq_nil_iff, Bool.not_eq_true', Bool.not_eq_false]
    tauto

end Readiness

section Achievable

theorem foldl_addProjectSummary_projects (items : List WorkerPoolProjectSummary) (summary : WorkerPoolSummary) :
    (items.foldl addProjectSummary summary).projects = summary.projects ++ items := by
  induction items generalizing summary with
  | nil => simp
  | cons item rest ih =>
      rw [List.foldl_cons, ih]
      simp [addProjectSummary]

theorem foldl_addSchedule_projects (items : List WorkerPoolProjectSchedule) (preview : WorkerPoolSchedulePreview) :
    (items.foldl addSchedule preview).projects = preview.projects ++ items := by
  induction items generalizing preview with
  | nil => simp
  | cons item rest ih =>
      rw [List.foldl_cons, ih]
      simp [addSchedule]

theorem preview_projects (summary : WorkerPoolSummary) :
    (buildWorkerPoolSchedulePreview summary).projects =
      sortWorkerPoolSchedule (summary.projects.map buildWorkerPoolProjectSchedule) := by
  simp [buildWorkerPoolSchedulePreview, foldl_addSchedule_projects]

theorem mem_workerPoolSummary {db : Database} {policies : PolicyTable} {now : Time} {item : WorkerPoolProjectSummary} :
    item ∈ (workerPoolSummary db policies now).projects ↔
      ∃ record ∈ db.identity.projects, record.archived = false ∧ workerPoolProjectSummary db policies record = item := by
  simp only [workerPoolSummary, foldl_addProjectSummary_projects, List.nil_append, Ranking.sortBy, List.mem_insertionSort,
    List.mem_map, List.mem_filter, Bool.not_eq_true', and_assoc]

theorem mem_workerPoolSchedulePreview {db : Database} {policies : PolicyTable} {now : Time}
    {item : WorkerPoolProjectSchedule} :
    item ∈ (workerPoolSchedulePreview db policies now).projects ↔
      ∃ record ∈ db.identity.projects, record.archived = false ∧
        buildWorkerPoolProjectSchedule (workerPoolProjectSummary db policies record) = item := by
  simp only [workerPoolSchedulePreview, preview_projects, sortWorkerPoolSchedule, List.mem_insertionSort, List.mem_map]
  constructor
  · rintro ⟨summary, member, rfl⟩
    obtain ⟨record, stored, current, rfl⟩ := mem_workerPoolSummary.mp member
    exact ⟨record, stored, current, rfl⟩
  · rintro ⟨record, stored, current, rfl⟩
    exact ⟨_, mem_workerPoolSummary.mpr ⟨record, stored, current, rfl⟩, rfl⟩

/-- This is the policy by which a project is scheduled. -/
def poolPolicy (policies : PolicyTable) (record : ProjectRow) : SchedulingPolicy :=
  normalizeSchedulingPolicy (schedulingPolicyFromConfig (storedPolicy policies record))

/-- A worker has every capability of a list. -/
def WorkerRow.has (worker : WorkerRow) (required : List GoString) : Prop :=
  missingWorkerCapabilities worker.capabilities required = []

/-- A single worker of the project is online, fills the role and has every required capability. -/
def Served (db : Database) (item : WorkerPoolProjectSchedule) : Prop :=
  ∃ worker ∈ db.workers.rows, worker.projectID = item.project.id ∧ worker.online = true ∧
    worker.fills item.agentRole = true ∧ worker.has item.requiredCaps

/-- A project waits for a worker: a task is queued, a slot is free and neither its engine nor its limits forbid a start. -/
structure Waiting (db : Database) (policies : PolicyTable) (record : ProjectRow) : Prop where
  queued : db.poolTasks record .queued ≠ []
  free :
    availableSlots ((db.poolWorkers record).filter (·.online)).length (poolPolicy policies record).maxParallelTasks
      (db.poolLeases record (bytes "active")).length ≠ 0
  engine : (storedEngine policies record).blockedReasons = []
  limits :
    (resourceReadinessFromLimits (storedEngine policies record).resourceLimits
      (db.poolLeases record (bytes "active")).length (db.poolTasks record .queued).length).status = .ready

/-- The workers of a project together have what its policy asks for: an online one fills the role, and each capability
is one of some worker, online or not. -/
structure Covered (db : Database) (policies : PolicyTable) (record : ProjectRow) : Prop where
  role : ∃ worker ∈ db.poolWorkers record, worker.online = true ∧ worker.fills (poolPolicy policies record).agentRole = true
  capabilities :
    ∀ required ∈ (poolPolicy policies record).requiredCapabilities,
      ∃ worker ∈ db.poolWorkers record, ∃ own ∈ worker.capabilities, trimSpace own = required

theorem requiredCapability {policies : PolicyTable} {record : ProjectRow} {required : GoString}
    (member : required ∈ (poolPolicy policies record).requiredCapabilities) :
    required ≠ [] ∧ trimSpace required = required := by
  obtain ⟨nonempty, own, _, rfl⟩ := mem_normalizeCapabilityList.mp member
  exact ⟨nonempty, trimSpace_trimSpace own⟩

theorem mem_pooledCapabilities {workers : List WorkerRow} {capability : GoString} :
    capability ∈ pooledCapabilities workers ↔ ∃ worker ∈ workers, capability ∈ worker.capabilities := by
  simp [pooledCapabilities]

theorem capabilityPresent_iff {workers : List WorkerRow} {required : GoString} (nonempty : required ≠ [])
    (trimmed : trimSpace required = required) :
    capabilityPresent (normalizeCapabilityList (pooledCapabilities workers)) required = true ↔
      ∃ worker ∈ workers, ∃ own ∈ worker.capabilities, trimSpace own = required := by
  simp only [capabilityPresent, List.any_eq_true, beq_iff_eq, trimmed]
  constructor
  · rintro ⟨capability, member, same⟩
    obtain ⟨_, own, listed, rfl⟩ := mem_normalizeCapabilityList.mp member
    obtain ⟨worker, inPool, owned⟩ := mem_pooledCapabilities.mp listed
    rw [trimSpace_trimSpace] at same
    exact ⟨worker, inPool, own, owned, same⟩
  · rintro ⟨worker, inPool, own, owned, same⟩
    have listed := mem_pooledCapabilities.mpr ⟨worker, inPool, owned⟩
    exact ⟨required, mem_normalizeCapabilityList.mpr ⟨nonempty, own, listed, same⟩, trimmed⟩

/-- An online worker fills the role exactly when the role is matched by the types of the online workers, of which there
are some. -/
theorem roleFilled_iff {workers : List WorkerRow} {role : GoString} :
    (∃ worker ∈ workers, worker.online = true ∧ worker.fills role = true) ↔
      ((workers.filter (·.online)).length : Int) ≠ 0 ∧
        (trimSpace role = [] ∨
          ∃ workerType ∈ normalize ((workers.filter (·.online)).map (·.workerType)),
            workerTypeMatchesRole workerType role = true) := by
  have someOnline : ((workers.filter (·.online)).length : Int) ≠ 0 ↔ ∃ worker ∈ workers, worker.online = true := by
    rw [Ne, Int.natCast_eq_zero, List.length_eq_zero_iff, List.filter_eq_nil_iff]
    push Not
    rfl
  rw [someOnline]
  simp only [WorkerRow.fills, Bool.or_eq_true, beq_iff_eq]
  constructor
  · rintro ⟨worker, member, online, filled⟩
    refine ⟨⟨worker, member, online⟩, ?_⟩
    by_cases empty : trimSpace role = []
    · exact Or.inl empty
    · right
      have fits := filled.resolve_left empty
      have listed : worker.workerType ∈ (workers.filter (·.online)).map (·.workerType) :=
        List.mem_map_of_mem (List.mem_filter.mpr ⟨member, online⟩)
      refine ⟨trimSpace worker.workerType, mem_normalize.mpr ⟨matches_ne_nil empty fits, _, listed, rfl⟩, ?_⟩
      rw [← workerTypeMatchesRole_trim, trimSpace_trimSpace, workerTypeMatchesRole_trim]
      exact fits
  · rintro ⟨⟨worker, member, online⟩, empty | ⟨workerType, listed, fits⟩⟩
    · exact ⟨worker, member, online, Or.inl empty⟩
    · obtain ⟨_, own, mapped, rfl⟩ := mem_normalize.mp listed
      obtain ⟨matching, filtered, rfl⟩ := List.mem_map.mp mapped
      obtain ⟨inPool, isOnline⟩ := List.mem_filter.mp filtered
      rw [← workerTypeMatchesRole_trim, trimSpace_trimSpace, workerTypeMatchesRole_trim] at fits
      exact ⟨matching, inPool, isOnline, Or.inr fits⟩

/-- A project is recommended if it waits for a worker and its workers together have what it needs. -/
theorem project_recommended_iff {db : Database} {policies : PolicyTable} {record : ProjectRow} :
    (buildWorkerPoolProjectSchedule (workerPoolProjectSummary db policies record)).recommended = true ↔
      Waiting db policies record ∧ Covered db policies record := by
  rw [recommended_iff]
  have present :
      (∀ required ∈ (poolPolicy policies record).requiredCapabilities,
        capabilityPresent (normalizeCapabilityList (pooledCapabilities (db.poolWorkers record))) required = true) ↔
      ∀ required ∈ (poolPolicy policies record).requiredCapabilities,
        ∃ worker ∈ db.poolWorkers record, ∃ own ∈ worker.capabilities, trimSpace own = required := by
    apply forall₂_congr
    intro required member
    exact capabilityPresent_iff (requiredCapability member).1 (requiredCapability member).2
  have queued : ((db.poolTasks record .queued).length : Int) ≠ 0 ↔ db.poolTasks record .queued ≠ [] := by simp
  constructor
  · rintro ⟨tasks, online, role, free, held, engine, limits⟩
    exact ⟨⟨queued.mp tasks, free, engine, limits⟩, ⟨roleFilled_iff.mpr ⟨online, role⟩, present.mp held⟩⟩
  · rintro ⟨waiting, covered⟩
    obtain ⟨online, role⟩ := roleFilled_iff.mp covered.role
    exact ⟨queued.mpr waiting.queued, online, role, waiting.free, present.mpr covered.capabilities, waiting.engine,
      waiting.limits⟩

/-- Every recommended project has a single worker that can do its work exactly when no project that waits for a worker
is covered by its workers together but by none of them alone. -/
theorem recommendations_served_iff (db : Database) (policies : PolicyTable) (now : Time) :
    (∀ item ∈ (workerPoolSchedulePreview db policies now).projects, item.recommended = true → Served db item) ↔
      ∀ record ∈ db.identity.projects, record.archived = false → Waiting db policies record →
        Covered db policies record →
        ∃ worker ∈ db.poolWorkers record, worker.online = true ∧
          worker.fills (poolPolicy policies record).agentRole = true ∧
          worker.has (poolPolicy policies record).requiredCapabilities := by
  have same (record : ProjectRow) :
      Served db (buildWorkerPoolProjectSchedule (workerPoolProjectSummary db policies record)) ↔
        ∃ worker ∈ db.poolWorkers record, worker.online = true ∧
          worker.fills (poolPolicy policies record).agentRole = true ∧
          worker.has (poolPolicy policies record).requiredCapabilities := by
    simp only [Database.poolWorkers, List.mem_filter, beq_iff_eq, and_assoc]
    rfl
  constructor
  · intro served record stored current waiting covered
    have listed : buildWorkerPoolProjectSchedule (workerPoolProjectSummary db policies record) ∈
        (workerPoolSchedulePreview db policies now).projects :=
      mem_workerPoolSchedulePreview.mpr ⟨record, stored, current, rfl⟩
    exact (same record).mp (served _ listed (project_recommended_iff.mpr ⟨waiting, covered⟩))
  · intro alone item member recommended
    obtain ⟨record, stored, current, rfl⟩ := mem_workerPoolSchedulePreview.mp member
    obtain ⟨waiting, covered⟩ := project_recommended_iff.mp recommended
    exact (same record).mpr (alone record stored current waiting covered)

/-- The online worker of a project has no capability, and the worker with the capability is offline. -/
def splitPool : Database where
  identity := { projects := [smallProject], projectIDs := nodup_smallProjects }
  workers :=
    { rows :=
        [{ id := 1, projectID := 1, actorID := none, workerKey := bytes "w1", workerType := bytes "local_host"
           status := bytes "online", hostname := [], pid := none, capabilities := [], metadata := [], registeredAt := 0
           lastHeartbeatAt := some 5, heartbeatIntervalSeconds := 30, leaseTimeoutSeconds := 300, updatedAt := 5 },
          { id := 2, projectID := 1, actorID := none, workerKey := bytes "w2", workerType := bytes "local_host"
            status := bytes "offline", hostname := [], pid := none, capabilities := [bytes "read_project"], metadata := []
            registeredAt := 0, lastHeartbeatAt := some 2, heartbeatIntervalSeconds := 30, leaseTimeoutSeconds := 300
            updatedAt := 2 }] }
  tasks :=
    { rows :=
        [{ id := 1, projectID := 1, versionID := none, itemID := none, runID := 1, taskKey := bytes "t"
           taskKind := .workflowItemPreview, status := .queued, riskLevel := bytes "low", sequence := 1, metadata := [], createdAt := 3 }] }

/-- The project is recommended although neither of its workers can do the work. -/
theorem splitPool_recommended :
    ∃ item ∈ (workerPoolSchedulePreview splitPool {} 9).projects, item.recommended = true ∧
      ¬Served splitPool item := by
  refine ⟨buildWorkerPoolProjectSchedule (workerPoolProjectSummary splitPool {} smallProject), ?_, ?_, ?_⟩
  · decide +kernel
  · decide +kernel
  · unfold Served WorkerRow.has
    decide +kernel

end Achievable

section Order

/-- This is the order that the preview promises. -/
def Precedes (first second : WorkerPoolProjectSchedule) : Prop :=
  first.recommended = true ∧ second.recommended = false ∨
    first.recommended = second.recommended ∧
      (second.priority < first.priority ∨
        first.priority = second.priority ∧
          (second.queuedTasks < first.queuedTasks ∨
            first.queuedTasks = second.queuedTasks ∧ first.project.key < second.project.key))

/-- The order compares these values one after another. -/
def scheduleRank (item : WorkerPoolProjectSchedule) : Bool ×ₗ Int ×ₗ Int ×ₗ GoString :=
  toLex (!item.recommended, toLex (-item.priority, toLex (-item.queuedTasks, item.project.key)))

theorem scheduleRank_lt_iff {first second : WorkerPoolProjectSchedule} :
    scheduleRank first < scheduleRank second ↔ Precedes first second := by
  simp only [scheduleRank, Precedes, Prod.Lex.toLex_lt_toLex, neg_lt_neg_iff, neg_inj, Bool.lt_iff, Bool.not_inj_iff,
    Bool.not_eq_false', Bool.not_eq_true']

theorem scheduledBefore_iff {first second : WorkerPoolProjectSchedule} :
    scheduledBefore first second = true ↔ scheduleRank first < scheduleRank second := by
  rw [scheduleRank_lt_iff]
  unfold scheduledBefore Precedes
  split_ifs with recommended priority queued
  · cases one : first.recommended <;> cases two : second.recommended <;> simp_all
  · grind
  · grind
  · grind

theorem sortWorkerPoolSchedule_eq (items : List WorkerPoolProjectSchedule) :
    sortWorkerPoolSchedule items = Ranking.sortBy scheduleRank items := by
  have same (first second : WorkerPoolProjectSchedule) :
      (scheduledBefore second first = false) = (scheduleRank first ≤ scheduleRank second) := by
    rw [← Bool.not_eq_true, scheduledBefore_iff, not_lt]
  unfold sortWorkerPoolSchedule Ranking.sortBy
  congr 1
  funext first second
  exact same first second

end Order

section Totals

/-- A counter that grows by a part of each item ends at the sum of the parts. -/
theorem foldl_addSchedule_total (total : WorkerPoolSchedulePreview → Int) (part : WorkerPoolProjectSchedule → Int)
    (adds : ∀ preview item, int64 (total preview) = total preview →
      total (addSchedule preview item) = int64 (total preview + part item))
    (items : List WorkerPoolProjectSchedule) (preview : WorkerPoolSchedulePreview)
    (start : int64 (total preview) = total preview) :
    total (items.foldl addSchedule preview) = int64 (total preview + (items.map part).sum) := by
  induction items generalizing preview with
  | nil => simp [start]
  | cons item rest ih =>
      have next := adds preview item start
      have kept : int64 (total (addSchedule preview item)) = total (addSchedule preview item) := by
        rw [next, int64_int64]
      rw [List.foldl_cons, ih _ kept, next, int64_add_int64, List.map_cons, List.sum_cons, add_assoc]

theorem sum_indicator {A : Type} (chosen : A → Bool) (items : List A) :
    (items.map fun item => if chosen item then (1 : Int) else 0).sum = items.countP chosen := by
  induction items with
  | nil => rfl
  | cons item rest ih =>
      rw [List.map_cons, List.sum_cons, ih, List.countP_cons]
      split <;> push_cast <;> omega

variable (summary : WorkerPoolSummary)

/-- These are the items of the preview before they are sorted. -/
def scheduled : List WorkerPoolProjectSchedule := summary.projects.map buildWorkerPoolProjectSchedule

theorem preview_total (total : WorkerPoolSchedulePreview → Int) (part : WorkerPoolProjectSchedule → Int)
    (adds : ∀ preview item, int64 (total preview) = total preview →
      total (addSchedule preview item) = int64 (total preview + part item))
    (sorts : ∀ preview items, total { preview with projects := items } = total preview)
    (start : ∀ now, total
      { queuedTasks := 0, availableSlot := 0, recommended := 0, blocked := 0, projects := [], generatedAt := now } = 0) :
    total (buildWorkerPoolSchedulePreview summary) = int64 ((scheduled summary).map part).sum := by
  have zero : int64 0 = 0 := by decide
  rw [buildWorkerPoolSchedulePreview, sorts, foldl_addSchedule_total total part adds, start, zero_add, scheduled]
  rw [start, zero]

theorem preview_queuedTasks :
    (buildWorkerPoolSchedulePreview summary).queuedTasks = int64 ((scheduled summary).map (·.queuedTasks)).sum := by
  apply preview_total summary (·.queuedTasks) (·.queuedTasks)
  · intro preview item _
    rfl
  · intro preview items
    rfl
  · intro now
    rfl

theorem preview_availableSlot :
    (buildWorkerPoolSchedulePreview summary).availableSlot = int64 ((scheduled summary).map (·.availableSlots)).sum := by
  apply preview_total summary (·.availableSlot) (·.availableSlots)
  · intro preview item _
    rfl
  · intro preview items
    rfl
  · intro now
    rfl

theorem preview_recommended :
    (buildWorkerPoolSchedulePreview summary).recommended = int64 ((scheduled summary).countP (·.recommended)) := by
  rw [← sum_indicator]
  apply preview_total summary (·.recommended)
  · intro preview item start
    simp only [addSchedule]
    split
    · rfl
    · rw [add_zero, start]
  · intro preview items
    rfl
  · intro now
    rfl

theorem preview_blocked :
    (buildWorkerPoolSchedulePreview summary).blocked =
      int64 ((scheduled summary).countP fun item => !item.recommended && decide (0 < item.queuedTasks)) := by
  rw [← sum_indicator]
  apply preview_total summary (·.blocked)
  · intro preview item start
    simp only [addSchedule]
    split
    · rfl
    · rw [add_zero, start]
  · intro preview items
    rfl
  · intro now
    rfl

theorem foldl_addSchedule_fixed (items : List WorkerPoolProjectSchedule) (preview : WorkerPoolSchedulePreview) :
    (items.foldl addSchedule preview).policy = preview.policy ∧
      (items.foldl addSchedule preview).generatedAt = preview.generatedAt := by
  induction items generalizing preview with
  | nil => exact ⟨rfl, rfl⟩
  | cons item rest ih => exact ih (addSchedule preview item)

/-- Among items of which only those with queued tasks are recommended, each one with queued tasks is counted once. -/
theorem countP_partition {items : List WorkerPoolProjectSchedule}
    (needed : ∀ item ∈ items, item.recommended = true → 0 < item.queuedTasks) :
    items.countP (·.recommended) + items.countP (fun item => !item.recommended && decide (0 < item.queuedTasks)) =
      items.countP fun item => decide (0 < item.queuedTasks) := by
  induction items with
  | nil => rfl
  | cons item rest ih =>
      have others := ih fun other member => needed other (List.mem_cons_of_mem _ member)
      simp only [List.countP_cons]
      cases recommended : item.recommended with
      | true =>
          have positive := needed item List.mem_cons_self recommended
          simp [positive]
          omega
      | false =>
          simp
          omega

theorem scheduled_distinct (distinct : (summary.projects.map (·.project.key)).Nodup) :
    ((scheduled summary).map scheduleRank).Nodup := by
  apply List.Nodup.of_map fun rank => (ofLex (ofLex (ofLex rank).2).2).2
  have keys : ((scheduled summary).map scheduleRank).map (fun rank => (ofLex (ofLex (ofLex rank).2).2).2) =
      summary.projects.map (·.project.key) := by
    simp only [scheduled, List.map_map]
    rfl
  rwa [keys]

theorem preview_projects_eq :
    (buildWorkerPoolSchedulePreview summary).projects = Ranking.sortBy scheduleRank (scheduled summary) := by
  rw [preview_projects, sortWorkerPoolSchedule_eq, scheduled]

theorem preview_perm : (buildWorkerPoolSchedulePreview summary).projects.Perm (scheduled summary) := by
  rw [preview_projects_eq]
  exact Ranking.sortBy_perm _ _

/-- The preview is the same for the same projects in another order. -/
theorem preview_eq_of_perm {other : WorkerPoolSummary} (distinct : (summary.projects.map (·.project.key)).Nodup)
    (reordered : other.projects.Perm summary.projects) (sameTime : other.generatedAt = summary.generatedAt) :
    buildWorkerPoolSchedulePreview other = buildWorkerPoolSchedulePreview summary := by
  have items : (scheduled other).Perm (scheduled summary) := reordered.map _
  apply WorkerPoolSchedulePreview.ext
  · simp only [buildWorkerPoolSchedulePreview, (foldl_addSchedule_fixed _ _).1]
  · rw [preview_queuedTasks, preview_queuedTasks, (items.map _).sum_eq]
  · rw [preview_availableSlot, preview_availableSlot, (items.map _).sum_eq]
  · rw [preview_recommended, preview_recommended, items.countP_eq]
  · rw [preview_blocked, preview_blocked, items.countP_eq]
  · rw [preview_projects_eq, preview_projects_eq]
    exact Ranking.sortBy_eq_of_perm (scheduled_distinct summary distinct) items
  · simp only [buildWorkerPoolSchedulePreview, (foldl_addSchedule_fixed _ _).2, sameTime]

variable {summary}

theorem preview_count (many : Fits summary.projects.length) {chosen : WorkerPoolProjectSchedule → Bool} :
    int64 ((scheduled summary).countP chosen) = (scheduled summary).countP chosen := by
  have bound : (scheduled summary).countP chosen ≤ (scheduled summary).length := List.countP_le_length
  have length : (scheduled summary).length = summary.projects.length := List.length_map _
  have high := many.2
  apply int64_eq <;> omega

theorem scheduled_recommended_queued (queued : ∀ item ∈ summary.projects, 0 ≤ item.queuedTasks)
    {item : WorkerPoolProjectSchedule} (member : item ∈ scheduled summary) (recommended : item.recommended = true) :
    0 < item.queuedTasks := by
  obtain ⟨source, listed, rfl⟩ := List.mem_map.mp member
  have present := ((recommended_iff source).mp recommended).1
  exact lt_of_le_of_ne (queued source listed) present.symm

end Totals

/-- The preview has one item for each project, in an order that does not depend on the order of the projects. The slots and
the totals are right where they are 64-bit integers, and every project with queued tasks is counted once if no count of
queued tasks is negative. -/
theorem schedulePreview_sound (summary : WorkerPoolSummary) (distinct : (summary.projects.map (·.project.key)).Nodup) :
    (buildWorkerPoolSchedulePreview summary).projects.Perm (summary.projects.map buildWorkerPoolProjectSchedule) ∧
      (∀ other : WorkerPoolSummary, other.projects.Perm summary.projects → other.generatedAt = summary.generatedAt →
        buildWorkerPoolSchedulePreview other = buildWorkerPoolSchedulePreview summary) ∧
      (buildWorkerPoolSchedulePreview summary).projects.Pairwise Precedes ∧
      (∀ item ∈ (buildWorkerPoolSchedulePreview summary).projects, 0 ≤ item.availableSlots) ∧
      (∀ item ∈ (buildWorkerPoolSchedulePreview summary).projects, Fits (item.onlineWorkers - item.activeLeases) →
        Fits (item.maxParallel - item.activeLeases) → 0 < item.availableSlots →
          item.activeLeases + item.availableSlots ≤ item.onlineWorkers ∧
            item.activeLeases + item.availableSlots ≤ item.maxParallel) ∧
      (Fits ((buildWorkerPoolSchedulePreview summary).projects.map (·.queuedTasks)).sum →
        (buildWorkerPoolSchedulePreview summary).queuedTasks =
          ((buildWorkerPoolSchedulePreview summary).projects.map (·.queuedTasks)).sum) ∧
      (Fits ((buildWorkerPoolSchedulePreview summary).projects.map (·.availableSlots)).sum →
        (buildWorkerPoolSchedulePreview summary).availableSlot =
          ((buildWorkerPoolSchedulePreview summary).projects.map (·.availableSlots)).sum) ∧
      ((∀ item ∈ summary.projects, 0 ≤ item.queuedTasks) → Fits summary.projects.length →
        (buildWorkerPoolSchedulePreview summary).recommended + (buildWorkerPoolSchedulePreview summary).blocked =
          (buildWorkerPoolSchedulePreview summary).projects.countP fun item => decide (0 < item.queuedTasks)) := by
  have reordered := preview_perm summary
  refine ⟨reordered, fun other => preview_eq_of_perm summary distinct, ?_, ?_, ?_, ?_, ?_, ?_⟩
  · rw [preview_projects_eq]
    exact (Ranking.sortBy_strict (scheduled_distinct summary distinct)).imp scheduleRank_lt_iff.mp
  · intro item member
    obtain ⟨source, _, rfl⟩ := List.mem_map.mp (reordered.mem_iff.mp member)
    exact availableSlots_nonneg _ _ _
  · intro item member
    obtain ⟨source, _, rfl⟩ := List.mem_map.mp (reordered.mem_iff.mp member)
    exact availableSlots_fit
  · intro fits
    rw [preview_queuedTasks, ← (reordered.map _).sum_eq, fits.same]
  · intro fits
    rw [preview_availableSlot, ← (reordered.map _).sum_eq, fits.same]
  · intro queued many
    have parts := countP_partition fun item member => scheduled_recommended_queued queued member
    rw [preview_recommended, preview_blocked, preview_count many, preview_count many, reordered.countP_eq]
    exact_mod_cast parts

/-- A project of a pool has one worker of the default type. -/
def poolRow (id : ID) (key : GoString) (onlineWorkers queuedTasks : Int) : WorkerPoolProjectSummary where
  project := { id := id, key := key }
  workers := 1
  onlineWorkers := onlineWorkers
  offlineWorkers := 0
  activeLeases := 0
  needsRecoveryLeases := 0
  queuedTasks := queuedTasks
  needsRecoveryTasks := 0
  capabilities := [bytes "read_project"]
  workerTypes := [bytes "local_host"]
  scheduling :=
    { priority := 100, maxParallelTasks := 1, agentRole := bytes "local_worker"
      requiredCapabilities := [bytes "read_project"], engineProfile := [] }
  role := roleReadinessFromWorkerTypes (bytes "local_worker") [bytes "local_host"]
  engine := {}
  resources := resourceReadinessFromLimits [] 0 queuedTasks
  lastWorkerHeartbeat := none

def poolOf (projects : List WorkerPoolProjectSummary) : WorkerPoolSummary where
  totalProjects := projects.length
  totalWorkers := projects.length
  totalOnlineWorkers := 0
  totalActiveLeases := 0
  totalQueuedTasks := 0
  totalNeedsRecovery := 0
  projects := projects
  generatedAt := 0

/-- This pool has a project that can start a task and one that waits for a worker. -/
def twoProjects : WorkerPoolSummary := poolOf [poolRow 1 (bytes "b") 0 2, poolRow 2 (bytes "a") 1 1]

theorem twoProjects_sound :
    (buildWorkerPoolSchedulePreview twoProjects).projects.Pairwise Precedes ∧
      (buildWorkerPoolSchedulePreview twoProjects).recommended + (buildWorkerPoolSchedulePreview twoProjects).blocked =
        (buildWorkerPoolSchedulePreview twoProjects).projects.countP fun item => decide (0 < item.queuedTasks) := by
  obtain ⟨-, -, ordered, -, -, -, -, counted⟩ := schedulePreview_sound twoProjects (by decide)
  exact ⟨ordered, counted (by decide +kernel) (by decide)⟩

/-- A negative count is not zero: its project is recommended, and it is not counted when it is blocked. -/
theorem negativeQueue_miscounted :
    ∃ summary : WorkerPoolSummary, (summary.projects.map (·.project.key)).Nodup ∧
      (buildWorkerPoolSchedulePreview summary).recommended + (buildWorkerPoolSchedulePreview summary).blocked ≠
        (buildWorkerPoolSchedulePreview summary).projects.countP (fun item => decide (0 < item.queuedTasks)) ∧
      (buildWorkerPoolSchedulePreview summary).recommended + (buildWorkerPoolSchedulePreview summary).blocked ≠
        (buildWorkerPoolSchedulePreview summary).projects.countP (fun item => decide (item.queuedTasks ≠ 0)) := by
  refine ⟨poolOf [poolRow 1 (bytes "a") 1 (-1), poolRow 2 (bytes "b") 0 (-1)], ?_, ?_, ?_⟩
  · decide
  · decide +kernel
  · decide +kernel

end AreaFlow.Project
