import AreaFlow.Construction.Project.Worker
import AreaFlow.Library.Ranking

namespace AreaFlow.Project
open Go

/-- This is the value of a 64-bit integer after an operation on integers. -/
def int64 (value : Int) : Int := Int.bmod value (2 ^ 64)

/-- These are the fields of a project that the schedule reads. -/
structure PoolProject where
  id : ID
  key : GoString
  deriving DecidableEq

structure SchedulingPolicy where
  priority : Int
  maxParallelTasks : Int
  agentRole : GoString
  requiredCapabilities : List GoString
  engineProfile : GoString
  deriving DecidableEq

inductive ReadinessStatus where
  | ready
  | blocked
  deriving DecidableEq

structure RoleReadiness where
  requiredRole : GoString
  matched : Bool
  matchedTypes : List GoString
  status : ReadinessStatus
  blockedReasons : List GoString
  deriving DecidableEq

/-- The readiness of an engine is read from the metadata of a policy, where its status is any text. -/
structure EngineReadiness where
  profileID : GoString := []
  provider : GoString := []
  enabled : Bool := false
  secretRef : GoString := []
  secretRequired : Bool := false
  secretReady : Bool := false
  resourceLimits : Metadata := []
  status : GoString := []
  blockedReasons : List GoString := []
  deriving DecidableEq

structure ResourceReadiness where
  maxActiveLeases : Int
  maxQueuedTasks : Int
  status : ReadinessStatus
  blockedReasons : List GoString
  deriving DecidableEq

structure WorkerPoolProjectSummary where
  project : PoolProject
  workers : Int
  onlineWorkers : Int
  offlineWorkers : Int
  activeLeases : Int
  needsRecoveryLeases : Int
  queuedTasks : Int
  needsRecoveryTasks : Int
  capabilities : List GoString
  workerTypes : List GoString
  scheduling : SchedulingPolicy
  role : RoleReadiness
  engine : EngineReadiness
  resources : ResourceReadiness
  lastWorkerHeartbeat : Option Time
  deriving DecidableEq

structure WorkerPoolSummary where
  totalProjects : Int
  totalWorkers : Int
  totalOnlineWorkers : Int
  totalActiveLeases : Int
  totalQueuedTasks : Int
  totalNeedsRecovery : Int
  projects : List WorkerPoolProjectSummary
  generatedAt : Time
  deriving DecidableEq

structure WorkerPoolProjectSchedule where
  project : PoolProject
  priority : Int
  maxParallel : Int
  agentRole : GoString
  role : RoleReadiness
  engineProfile : GoString
  engine : EngineReadiness
  resources : ResourceReadiness
  queuedTasks : Int
  activeLeases : Int
  onlineWorkers : Int
  availableSlots : Int
  needsRecovery : Int
  capabilities : List GoString
  requiredCaps : List GoString
  recommended : Bool
  blockedReasons : List GoString
  nextAction : GoString
  deriving DecidableEq

/-- This is what the preview says of its own rules. -/
structure WorkerPoolSchedulePolicy where
  strategy : GoString := bytes "default_fifo"
  defaultProjectPriority : Int := 100
  slotStrategy : GoString := bytes "min_online_workers_and_project_parallelism_minus_active_leases"
  dryRunOnly : Bool := true
  deriving DecidableEq

@[ext]
structure WorkerPoolSchedulePreview where
  policy : WorkerPoolSchedulePolicy := {}
  queuedTasks : Int
  availableSlot : Int
  recommended : Int
  blocked : Int
  projects : List WorkerPoolProjectSchedule
  generatedAt : Time
  deriving DecidableEq

section Policies

/-- This is a configured value, or its default when it is not positive or empty. -/
def normalizeScheduling (scheduling : SchedulingPolicy) : SchedulingPolicy :=
  { scheduling with
    priority := positiveOr 100 scheduling.priority
    maxParallelTasks := positiveOr 1 scheduling.maxParallelTasks
    agentRole := if scheduling.agentRole = [] then bytes "local_worker" else scheduling.agentRole
    requiredCapabilities := capabilitiesOr [bytes "read_project"] scheduling.requiredCapabilities }

def schedulingPolicyFromConfig (scheduling : SchedulingPolicy) : SchedulingPolicy :=
  { normalizeScheduling scheduling with engineProfile := trimSpace scheduling.engineProfile }

def normalizeSchedulingPolicy (policy : SchedulingPolicy) : SchedulingPolicy := schedulingPolicyFromConfig policy

def workerTypeMatchesRole (workerType requiredRole : GoString) : Bool :=
  let workerType := trimSpace workerType
  let requiredRole := trimSpace requiredRole
  workerType == requiredRole || (requiredRole == bytes "local_worker" && workerType == bytes "local_host")

/-- A role is matched by the type of some worker; an empty role needs none. -/
def roleReadinessFromWorkerTypes (requiredRole : GoString) (workerTypes : List GoString) : RoleReadiness :=
  let requiredRole := trimSpace requiredRole
  let matchedTypes := (normalize workerTypes).filter (workerTypeMatchesRole · requiredRole)
  if requiredRole = [] then
    { requiredRole := [], matched := false, matchedTypes := [], status := .ready, blockedReasons := [] }
  else if matchedTypes = [] then
    { requiredRole := requiredRole, matched := false, matchedTypes := [], status := .blocked
      blockedReasons := [bytes "missing_agent_role:" ++ requiredRole] }
  else
    { requiredRole := requiredRole, matched := true, matchedTypes := matchedTypes, status := .ready, blockedReasons := [] }

def int64FromLimit (limits : Metadata) (key : GoString) : Int :=
  match metadataGet limits key with
  | some (.number value) => value
  | _ => 0

def resourceReadinessFromLimits (limits : Metadata) (activeLeases queuedTasks : Int) : ResourceReadiness :=
  let maxActiveLeases := int64FromLimit limits (bytes "max_active_leases")
  let maxQueuedTasks := int64FromLimit limits (bytes "max_queued_tasks")
  let blockedReasons :=
    (if 0 < maxActiveLeases ∧ maxActiveLeases ≤ activeLeases then [bytes "resource_limit:max_active_leases"] else []) ++
      if 0 < maxQueuedTasks ∧ maxQueuedTasks < queuedTasks then [bytes "resource_limit:max_queued_tasks"] else []
  { maxActiveLeases := maxActiveLeases, maxQueuedTasks := maxQueuedTasks
    status := if blockedReasons = [] then .ready else .blocked, blockedReasons := blockedReasons }

def normalizeEngineReadiness (readiness : EngineReadiness) (fallbackProfile : GoString) : EngineReadiness :=
  { readiness with
    profileID := if readiness.profileID = [] then trimSpace fallbackProfile else readiness.profileID
    secretRef := if readiness.secretRef = [] then bytes "none" else readiness.secretRef
    status :=
      if readiness.blockedReasons ≠ [] then bytes "blocked"
      else if readiness.status = [] then bytes "ready"
      else readiness.status }

/-- A capability is present if it is the same text without white space at the ends. -/
def capabilityPresent (capabilities : List GoString) (required : GoString) : Bool :=
  capabilities.any fun capability => trimSpace capability == trimSpace required

end Policies

section Summary

/-- A project has at most one row with a policy of its own. -/
structure PolicyRow where
  projectID : ID
  priority : Int
  maxParallelTasks : Int
  agentRole : GoString
  requiredCapabilities : List GoString
  engineProfile : Option GoString
  engine : EngineReadiness
  deriving DecidableEq

abbrev PolicyTable := Table PolicyRow (·.projectID)

def WorkerRow.online (worker : WorkerRow) : Bool := worker.status == bytes "online"

def Database.poolWorkers (db : Database) (record : ProjectRow) : List WorkerRow :=
  db.workers.rows.filter (·.projectID == record.id)

def Database.poolLeases (db : Database) (record : ProjectRow) (status : GoString) : List LeaseRow :=
  db.leases.rows.filter fun lease => lease.projectID == record.id && lease.status == status

def Database.poolTasks (db : Database) (record : ProjectRow) (status : TaskStatus) : List TaskRow :=
  db.tasks.rows.filter fun task => task.projectID == record.id && task.status == status

/-- This is the policy that the query reads for a project. -/
def storedPolicy (policies : PolicyTable) (record : ProjectRow) : SchedulingPolicy :=
  match Table.rowAt (·.projectID) policies.rows record.id with
  | none =>
      { priority := 100, maxParallelTasks := 1, agentRole := bytes "local_worker"
        requiredCapabilities := [bytes "read_project"], engineProfile := [] }
  | some row =>
      { priority := row.priority, maxParallelTasks := row.maxParallelTasks, agentRole := row.agentRole
        requiredCapabilities := row.requiredCapabilities, engineProfile := row.engineProfile.getD [] }

def storedEngine (policies : PolicyTable) (record : ProjectRow) : EngineReadiness :=
  ((Table.rowAt (·.projectID) policies.rows record.id).map (·.engine)).getD {}

def engineReadinessFromSchedulingMetadata (engineProfile : GoString) (engine : EngineReadiness) : EngineReadiness :=
  normalizeEngineReadiness engine engineProfile

/-- This is the aggregate of the distinct capabilities of workers. The database sorts them, here by their bytes. -/
def pooledCapabilities (workers : List WorkerRow) : List GoString :=
  sortStrings (workers.flatMap (·.capabilities)).dedup

/-- This is the row of the summary for a project. The capabilities are those of all its workers, the types are those of
its online workers. -/
def workerPoolProjectSummary (db : Database) (policies : PolicyTable) (record : ProjectRow) : WorkerPoolProjectSummary :=
  let workers := db.poolWorkers record
  let activeLeases := (db.poolLeases record (bytes "active")).length
  let queuedTasks := (db.poolTasks record .queued).length
  let scheduling := schedulingPolicyFromConfig (storedPolicy policies record)
  let workerTypes := normalize ((workers.filter (·.online)).map (·.workerType))
  let engine := engineReadinessFromSchedulingMetadata scheduling.engineProfile (storedEngine policies record)
  { project := { id := record.id, key := record.projectKey }
    workers := workers.length
    onlineWorkers := (workers.filter (·.online)).length
    offlineWorkers := (workers.filter (!·.online)).length
    activeLeases := activeLeases
    needsRecoveryLeases := (db.poolLeases record (bytes "needs_recovery")).length
    queuedTasks := queuedTasks
    needsRecoveryTasks := (db.poolTasks record .needsRecovery).length
    capabilities := normalizeCapabilityList (pooledCapabilities workers)
    workerTypes := workerTypes
    scheduling := scheduling
    role := roleReadinessFromWorkerTypes scheduling.agentRole workerTypes
    engine := engine
    resources := resourceReadinessFromLimits engine.resourceLimits activeLeases queuedTasks
    lastWorkerHeartbeat := (workers.filterMap (·.lastHeartbeatAt)).max? }

/-- One project is added to the totals. -/
def addProjectSummary (summary : WorkerPoolSummary) (item : WorkerPoolProjectSummary) : WorkerPoolSummary :=
  { summary with
    totalProjects := int64 (summary.totalProjects + 1)
    totalWorkers := int64 (summary.totalWorkers + item.workers)
    totalOnlineWorkers := int64 (summary.totalOnlineWorkers + item.onlineWorkers)
    totalActiveLeases := int64 (summary.totalActiveLeases + item.activeLeases)
    totalQueuedTasks := int64 (summary.totalQueuedTasks + item.queuedTasks)
    totalNeedsRecovery := int64 (summary.totalNeedsRecovery + int64 (item.needsRecoveryLeases + item.needsRecoveryTasks))
    projects := summary.projects ++ [item] }

/-- Projects with more queued tasks come first, then those with more active leases. -/
def summaryRank (item : WorkerPoolProjectSummary) : Int ×ₗ Int ×ₗ GoString :=
  toLex (-item.queuedTasks, toLex (-item.activeLeases, item.project.key))

def workerPoolSummary (db : Database) (policies : PolicyTable) (now : Time) : WorkerPoolSummary :=
  let start : WorkerPoolSummary :=
    { totalProjects := 0, totalWorkers := 0, totalOnlineWorkers := 0, totalActiveLeases := 0, totalQueuedTasks := 0
      totalNeedsRecovery := 0, projects := [], generatedAt := now }
  let current := db.identity.projects.filter (!·.archived)
  (Ranking.sortBy summaryRank (current.map (workerPoolProjectSummary db policies))).foldl addProjectSummary start

end Summary

section Preview

def nonNegativeInt64 (value : Int) : Int := if value < 0 then 0 else value

def minInt64 (left right : Int) : Int := if left < right then left else right

/-- These are the tasks that a project could start: by its online workers and by its policy. -/
def availableSlots (onlineWorkers maxParallel activeLeases : Int) : Int :=
  minInt64 (nonNegativeInt64 (int64 (onlineWorkers - activeLeases))) (nonNegativeInt64 (int64 (maxParallel - activeLeases)))

/-- These are the reasons against starting a queued task of a project, in the order of the checks. -/
def scheduleBlockedReasons (onlineWorkers slots : Int) (role : RoleReadiness) (capabilities requiredCaps : List GoString)
    (engine : EngineReadiness) (resources : ResourceReadiness) : List GoString :=
  (if onlineWorkers = 0 then [bytes "no_online_workers"] else []) ++
    (if role.status = .blocked then role.blockedReasons else []) ++
    (if slots = 0 then [bytes "no_available_worker_slots"] else []) ++
    ((requiredCaps.filter fun required => !capabilityPresent capabilities required).map fun required =>
      bytes "missing_required_capability:" ++ required) ++
    (if engine.status = bytes "blocked" then engine.blockedReasons else []) ++
    if resources.status = .blocked then resources.blockedReasons else []

def buildWorkerPoolProjectSchedule (summary : WorkerPoolProjectSummary) : WorkerPoolProjectSchedule :=
  let policy := normalizeSchedulingPolicy summary.scheduling
  let slots := availableSlots summary.onlineWorkers policy.maxParallelTasks summary.activeLeases
  let role := roleReadinessFromWorkerTypes policy.agentRole summary.workerTypes
  let engine := normalizeEngineReadiness summary.engine policy.engineProfile
  let resources := resourceReadinessFromLimits summary.engine.resourceLimits summary.activeLeases summary.queuedTasks
  let blockedReasons :=
    if summary.queuedTasks = 0 then [bytes "no_queued_tasks"]
    else scheduleBlockedReasons summary.onlineWorkers slots role summary.capabilities policy.requiredCapabilities engine
      resources
  { project := summary.project
    priority := policy.priority
    maxParallel := policy.maxParallelTasks
    agentRole := policy.agentRole
    role := role
    engineProfile := policy.engineProfile
    engine := engine
    resources := resources
    queuedTasks := summary.queuedTasks
    activeLeases := summary.activeLeases
    onlineWorkers := summary.onlineWorkers
    availableSlots := slots
    needsRecovery := int64 (summary.needsRecoveryLeases + summary.needsRecoveryTasks)
    capabilities := summary.capabilities
    requiredCaps := policy.requiredCapabilities
    recommended := blockedReasons == []
    blockedReasons := blockedReasons
    nextAction := if blockedReasons = [] then bytes "worker_run_once_preview" else bytes "idle" }

/-- This is the order of the schedule: recommended projects first, then by priority, queued tasks and key. -/
def scheduledBefore (first second : WorkerPoolProjectSchedule) : Bool :=
  if first.recommended ≠ second.recommended then first.recommended
  else if first.priority ≠ second.priority then decide (second.priority < first.priority)
  else if first.queuedTasks ≠ second.queuedTasks then decide (second.queuedTasks < first.queuedTasks)
  else decide (first.project.key < second.project.key)

/-- The sort keeps the order of two items of which neither comes before the other. -/
def sortWorkerPoolSchedule (items : List WorkerPoolProjectSchedule) : List WorkerPoolProjectSchedule :=
  items.insertionSort fun first second => scheduledBefore second first = false

/-- One project is added to the totals. -/
def addSchedule (preview : WorkerPoolSchedulePreview) (item : WorkerPoolProjectSchedule) : WorkerPoolSchedulePreview :=
  { preview with
    queuedTasks := int64 (preview.queuedTasks + item.queuedTasks)
    availableSlot := int64 (preview.availableSlot + item.availableSlots)
    recommended := if item.recommended then int64 (preview.recommended + 1) else preview.recommended
    blocked :=
      if !item.recommended && decide (0 < item.queuedTasks) then int64 (preview.blocked + 1) else preview.blocked
    projects := preview.projects ++ [item] }

def buildWorkerPoolSchedulePreview (summary : WorkerPoolSummary) : WorkerPoolSchedulePreview :=
  let start : WorkerPoolSchedulePreview :=
    { queuedTasks := 0, availableSlot := 0, recommended := 0, blocked := 0, projects := []
      generatedAt := summary.generatedAt }
  let preview := (summary.projects.map buildWorkerPoolProjectSchedule).foldl addSchedule start
  { preview with projects := sortWorkerPoolSchedule preview.projects }

def workerPoolSchedulePreview (db : Database) (policies : PolicyTable) (now : Time) : WorkerPoolSchedulePreview :=
  buildWorkerPoolSchedulePreview (workerPoolSummary db policies now)

end Preview

end AreaFlow.Project
