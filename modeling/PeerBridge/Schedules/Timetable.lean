import Mathlib.Data.Rat.Floor
import PeerBridge.ControlRoom

namespace PeerBridge.Schedules
open Checked Rows

inductive ScheduleError where
  | queue (e : QueueError)
  | overflow (text : String)

-- a Python float, as next_run_epoch is given
inductive Epoch where
  | finite (q : ℚ)
  | posInf
  | negInf
  | nan
  deriving DecidableEq

namespace Epoch

def storable : Epoch → Bool
  | nan => false
  | finite _ | posInf | negInf => true

def reached (now : ℚ) : Epoch → Bool
  | finite q => q ≤ now
  | negInf => true
  | posInf | nan => false

def before : Epoch → Epoch → Bool
  | finite q, finite r => q < r
  | finite _, posInf | negInf, finite _ | negInf, posInf => true
  | finite _, negInf | finite _, nan | posInf, _ | negInf, negInf | negInf, nan | nan, _ => false

-- int(), which rounds toward zero and raises at the infinities
def whole? : Epoch → Option Int
  | finite q => some (if 0 ≤ q then ⌊q⌋ else ⌈q⌉)
  | posInf | negInf | nan => none

-- json.dumps writes the infinities as bare words, told apart here from every number and text
def json : Epoch → Json
  | finite q => .real q
  | posInf => .arr [.str "Infinity"]
  | negInf => .arr [.str "-Infinity"]
  | nan => .arr [.str "NaN"]

end Epoch

structure ScheduleRow where
  scope : String
  scheduleId : String
  workflowId : WorkflowId
  requestedBy : String
  taskText : String
  workingDirectory : String
  resourceKey : String
  permissionDecisionId : Option String
  intervalSeconds : Int
  nextRunEpoch : Epoch
  enabled : Bool
  lastMaterializedEpoch : Option ℚ
  createdUtc : Utc
  updatedUtc : Utc
  scheduleSha256 : Sha256

def minScheduleIntervalSeconds : Int := 60
def maxScheduleIntervalSeconds : Int := 31 * 24 * 60 * 60

def ScheduleRow.key (s : ScheduleRow) : String × String := (s.scope, s.scheduleId)

def schedulePayload (s : ScheduleRow) : Json :=
  .obj [("scope", .str s.scope), ("schedule_id", .str s.scheduleId),
    ("workflow_id", .str s.workflowId.text), ("requested_by", .str s.requestedBy),
    ("task_text", .str s.taskText), ("working_directory", .str s.workingDirectory),
    ("resource_key", .str s.resourceKey), ("permission_decision_id", .opt s.permissionDecisionId),
    ("interval_seconds", .int s.intervalSeconds), ("next_run_epoch", s.nextRunEpoch.json),
    ("enabled", .int s.enabled.toNat),
    ("last_materialized_epoch", s.lastMaterializedEpoch.elim .null .real),
    ("created_utc", .utc s.createdUtc), ("updated_utc", .utc s.updatedUtc)]

def sealSchedule (P : Platform) (s : ScheduleRow) : ScheduleRow :=
  { s with scheduleSha256 := P.stableSha256 (schedulePayload s) }

def ScheduleRow.Sealed (P : Platform) (s : ScheduleRow) : Prop :=
  P.stableSha256 (schedulePayload s) = s.scheduleSha256

instance (P : Platform) (s : ScheduleRow) : Decidable (s.Sealed P) :=
  inferInstanceAs (Decidable (_ = _))

structure Timetable where
  database : Database
  schedules : List ScheduleRow

def Timetable.schedule? (t : Timetable) (scope scheduleId : String) : Option ScheduleRow :=
  lookup ScheduleRow.key (scope, scheduleId) t.schedules

def Timetable.put (t : Timetable) (s : ScheduleRow) : Timetable :=
  { t with schedules := upsert ScheduleRow.key s t.schedules }

def Timetable.withDatabase (t : Timetable) (q : Database) : Timetable := { t with database := q }

def queued {α : Type} (x : Except QueueError α) : Except ScheduleError α :=
  x.mapError .queue

def refused (text : String) : ScheduleError := .queue (.queue text)

@[simp] theorem queued_eq_ok {α : Type} {x : Except QueueError α} {a : α} :
    queued x = .ok a ↔ x = .ok a := by
  cases x <;> simp [queued, Except.mapError]

structure SaveScheduleArgs where
  workflowId : String
  taskText : String
  workingDirectory : String
  resourceKey : String
  intervalSeconds : Int
  nextRunEpoch : Epoch
  enabled : Bool
  requestedBy : String := humanOperatorId
  permissionDecisionId : Option String := none
  scheduleId : Option String := none

def saveSchedule (P : Platform) (c : Ctx) (a : SaveScheduleArgs) (t : Timetable) :
    Except ScheduleError (Timetable × ScheduleRow) := do
  require (c.self.agentId = humanOperatorId ∧ a.requestedBy = humanOperatorId)
    (refused "only human-operator may save workflow schedules")
  require (minScheduleIntervalSeconds ≤ a.intervalSeconds ∧
      a.intervalSeconds ≤ maxScheduleIntervalSeconds)
    (refused "schedule interval is outside the bounded range")
  let workflowId ← queued <| requireWorkflow a.workflowId
  let taskText ← queued <| safeText P a.taskText "task text" maxTaskChars
  let workingDirectory ← queued <| safeText P a.workingDirectory "working directory" 2000
  let resourceKey ← queued <| requireId a.resourceKey "resource key"
  let permissionDecisionId ← queued <| permissionDecision a.permissionDecisionId
  let scheduleId ← queued <| requireId
    (if a.scheduleId.getD "" = "" then c.uuid.text else a.scheduleId.getD "") "schedule id"
  let created := utcNow c.clock.entry
  let row := sealSchedule P
    { scope := c.self.scope, scheduleId, workflowId, requestedBy := a.requestedBy, taskText,
      workingDirectory, resourceKey, permissionDecisionId, intervalSeconds := a.intervalSeconds,
      nextRunEpoch := a.nextRunEpoch, enabled := a.enabled, lastMaterializedEpoch := none,
      createdUtc := created, updatedUtc := created, scheduleSha256 := zeroSha256 }
  -- SQLite stores NaN as NULL, which the NOT NULL column refuses like a second row of the key
  require (a.nextRunEpoch.storable = true ∧ (t.schedule? c.self.scope scheduleId).isNone = true)
    (refused "schedule id already exists")
  let q ← queued <| t.database.event P c "workflow.schedule.saved"
    [("schedule_id", .str scheduleId), ("workflow_id", .str workflowId.text),
      ("enabled", .bool a.enabled), ("schedule_sha256", .sha row.scheduleSha256)] none
  pure ((t.put row).withDatabase q, row)

structure SetScheduleArgs where
  scheduleId : String
  enabled : Bool
  requestedBy : String := humanOperatorId

def setScheduleEnabled (P : Platform) (c : Ctx) (a : SetScheduleArgs) (t : Timetable) :
    Except ScheduleError (Timetable × ScheduleRow) := do
  require (c.self.agentId = humanOperatorId ∧ a.requestedBy = humanOperatorId)
    (refused "only human-operator may change workflow schedules")
  let scheduleId ← queued <| requireId a.scheduleId "schedule id"
  let row ← demand (t.schedule? c.self.scope scheduleId) (refused "schedule does not exist")
  require (row.Sealed P) (refused "schedule SHA-256 does not match its state")
  let changed := sealSchedule P
    { row with enabled := a.enabled, updatedUtc := utcNow c.clock.locked }
  let q ← queued <| t.database.event P c
    (if a.enabled then "workflow.schedule.enabled" else "workflow.schedule.disabled")
    [("schedule_id", .str scheduleId), ("enabled", .bool a.enabled),
      ("schedule_sha256", .sha changed.scheduleSha256)] none
  pure ((t.put changed).withDatabase q, changed)

def dueBefore (s t : ScheduleRow) : Prop :=
  s.nextRunEpoch.before t.nextRunEpoch = true ∨
    t.nextRunEpoch.before s.nextRunEpoch = false ∧ s.scheduleId ≤ t.scheduleId

instance : DecidableRel dueBefore := fun _ _ => inferInstanceAs (Decidable (_ ∨ _))

def dueSchedules (scope : String) (now : ℚ) (limit : Nat) (schedules : List ScheduleRow) :
    List ScheduleRow :=
  ((schedules.filter (fun s => s.scope = scope ∧ s.enabled = true ∧
    s.nextRunEpoch.reached now = true)).insertionSort dueBefore).take limit

def operationId (scheduleId : String) (epoch : Int) : String :=
  "schedule:" ++ scheduleId ++ ":" ++ toString epoch

def advancedSchedule (P : Platform) (c : Ctx) (now : ℚ) (s : ScheduleRow) : ScheduleRow :=
  sealSchedule P
    { s with lastMaterializedEpoch := some now, nextRunEpoch := .finite (now + s.intervalSeconds),
             updatedUtc := utcNow c.clock.locked }

def ScheduleRow.request (s : ScheduleRow) (now : ℚ) (epoch : Int) : EnqueueRequest :=
  { workflowId := s.workflowId.text, taskText := s.taskText,
    workingDirectory := s.workingDirectory, resourceKey := s.resourceKey,
    requestedBy := s.requestedBy, permissionDecisionId := s.permissionDecisionId,
    maxAttempts := if s.workflowId.automaticRetry then 3 else 1, timeoutSeconds := 1800,
    notBeforeEpoch := now, operationId := some (operationId s.scheduleId epoch) }

def materializeSchedule (P : Platform) (c : Ctx) (now : ℚ) (t : Timetable) (s : ScheduleRow) :
    Except ScheduleError (Timetable × OperationRow) := do
  require (s.Sealed P) (refused "schedule SHA-256 does not match its state")
  let epoch ← demand s.nextRunEpoch.whole?
    (.overflow "cannot convert float infinity to integer")
  let (q, row) ← queued <| enqueueLocked P c (s.request now epoch) t.database
  pure ((t.put (advancedSchedule P c now s)).withDatabase q, row)

def materializeAll (P : Platform) (c : Ctx) (now : ℚ) :
    List ScheduleRow → Timetable → Except ScheduleError (Timetable × List OperationRow)
  | [], t => pure (t, [])
  | s :: due, t => do
    let (t, row) ← materializeSchedule P c now t s
    let (t, rows) ← materializeAll P c now due t
    pure (t, row :: rows)

structure MaterializeArgs where
  nowEpoch : Option ℚ := none
  limit : Int := 20

def MaterializeArgs.now (a : MaterializeArgs) (c : Ctx) : ℚ := a.nowEpoch.getD c.clock.entry

def MaterializeArgs.cap (a : MaterializeArgs) : Nat := (max 1 (min a.limit 100)).toNat

def Timetable.due (t : Timetable) (c : Ctx) (a : MaterializeArgs) : List ScheduleRow :=
  dueSchedules c.self.scope (a.now c) a.cap t.schedules

def servesWorkflows (c : Ctx) : Prop :=
  c.self.agentId = humanOperatorId ∨ c.self.agentId = controlRoomWorkflowId

instance (c : Ctx) : Decidable (servesWorkflows c) := inferInstanceAs (Decidable (_ ∨ _))

def materializeDueSchedules (P : Platform) (c : Ctx) (a : MaterializeArgs) (t : Timetable) :
    Except ScheduleError (Timetable × List OperationRow) := do
  require (servesWorkflows c)
    (refused "only human-operator or control-room-workflow may materialize workflow schedules")
  materializeAll P c (a.now c) (t.due c a) t

-- the office beside the schedules of its operation queue
structure Planner where
  office : Office
  schedules : List ScheduleRow

def Planner.timetable (p : Planner) : Timetable :=
  { database := p.office.database, schedules := p.schedules }

def Planner.commit (P : Platform) (p : Planner) (t : Timetable) : Planner :=
  { office := p.office.commit P t.database .done, schedules := t.schedules }

inductive PlannerCall where
  | office (call : OfficeCall)
  | save (a : SaveScheduleArgs)
  | setEnabled (a : SetScheduleArgs)
  | materialize (a : MaterializeArgs)

inductive PlannerReply where
  | office (r : OfficeReply)
  | schedule (r : Except ScheduleError ScheduleRow)
  | materialized (r : Except ScheduleError (List OperationRow))

def Planner.finish {α : Type} (P : Platform) (p : Planner) (reply : Except ScheduleError α → PlannerReply)
    (x : Except ScheduleError (Timetable × α)) : Planner × PlannerReply :=
  match x with
  | .ok (t, r) => (p.commit P t, reply (.ok r))
  | .error e => (p, reply (.error e))

def attemptPlanner (P : Platform) (J : JsonReader) (p : Planner) (i : PlannerCall × Ctx) :
    Planner × PlannerReply :=
  match i.1 with
  | .office call =>
    let (o, r) := attemptOffice P J p.office (call, i.2)
    ({ p with office := o }, .office r)
  | .save a => p.finish P .schedule <| saveSchedule P i.2 a p.timetable
  | .setEnabled a => p.finish P .schedule <| setScheduleEnabled P i.2 a p.timetable
  | .materialize a => p.finish P .materialized <| materializeDueSchedules P i.2 a p.timetable

def Planner.admits (P : Platform) (p : Planner) (i : PlannerCall × Ctx) : Prop :=
  match i.1 with
  | .office call => p.office.admits P (call, i.2)
  | .save _ | .setEnabled _ | .materialize _ => True

instance (P : Platform) (p : Planner) (i : PlannerCall × Ctx) : Decidable (p.admits P i) := by
  unfold Planner.admits
  split <;> infer_instance

-- any store and any operations, no schedule saved yet
def planner (P : Platform) (J : JsonReader) : Machine Planner (PlannerCall × Ctx) PlannerReply where
  start p := p.schedules = []
  admits p i := p.admits P i
  exec := attemptPlanner P J

instance (P : Platform) (J : JsonReader) (p : Planner) (i : PlannerCall × Ctx) :
    Decidable ((planner P J).admits p i) := inferInstanceAs (Decidable (p.admits P i))

end PeerBridge.Schedules
