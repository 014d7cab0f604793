import MontrSecure.Api.Http
import MontrSecure.Async.Asking
import MontrSecure.Data.Scoped
import MontrSecure.StateStore.Phase4

/-!
# Schedules

`ScanScheduleRepositoryImpl` of `packages/state-store/src/phase4.ts`, with the table it works on, and the
routes of `apps/api/src/routes/schedules.ts` that write to it. The scheduler of `apps/worker` uses the same
repository; what it asks of BullMQ stands beside it here.
-/

namespace MontrSecure

open Async

/-! ## The table -/

/-- The table `ScanSchedule`. -/
abbrev ScheduleTable : Type := Table ScanSchedule.id

namespace ScheduleTable

variable (t : ScheduleTable) (clientId : ClientId)

/-- `get`. -/
def get (id : EntityId) : Option ScanSchedule := t.getOf ScanSchedule.clientId clientId id

/-- `listEnabled`: the enabled schedules of a client, the latest first. -/
def listEnabled : List ScanSchedule :=
  (t.rows.filter fun s => s.clientId = clientId && s.enabled).insertionSort
    fun s s' => s'.createdAt ≤ s.createdAt

/-- `create`. -/
def create (schedule : ScanSchedule) : Option (ScanSchedule × ScheduleTable) :=
  (t.insert? { schedule with clientId }).map fun t' => ({ schedule with clientId }, t')

/-- `update`. -/
def update (schedule : ScanSchedule) : Option (ScanSchedule × ScheduleTable) :=
  t.updateOf ScanSchedule.clientId clientId schedule.id
    (Tenancy.ScanScheduleRepositoryImpl.written schedule)

/-- `delete`. -/
def delete (id : EntityId) : Option ScheduleTable := t.deleteOf ScanSchedule.clientId clientId id

end ScheduleTable

/-! ## Operations -/

/-- `ScanScheduleJob`. -/
structure ScanScheduleJob where
  scheduleId : EntityId
  clientId : ClientId
  deriving DecidableEq

/-- `ScheduledJobInfo`. -/
structure ScheduledJobInfo where
  scheduleId : EntityId
  nextMs : Option ℕ

/-- What the routes and the scheduler ask of the store and of BullMQ. -/
inductive ScheduleOp where
  | create (clientId : ClientId) (schedule : ScanSchedule)
  | get (clientId : ClientId) (id : EntityId)
  | listEnabled (clientId : ClientId)
  | update (clientId : ClientId) (schedule : ScanSchedule)
  | delete (clientId : ClientId) (id : EntityId)
  | auditAppend (input : AuditInput)
  | schedule (job : ScanScheduleJob) (cron : String)
  | unschedule (scheduleId : EntityId)
  | listScheduled

/-- What an operation resolves to. -/
abbrev ScheduleOp.Val : ScheduleOp → Type
  | create .. | update .. => ScanSchedule
  | get .. => Option ScanSchedule
  | listEnabled _ => List ScanSchedule
  | delete .. | auditAppend _ | schedule .. | unschedule _ => Unit
  | listScheduled => List ScheduledJobInfo

/-- How an operation is answered: it resolves or it rejects. -/
abbrev ScheduleOp.Ans (op : ScheduleOp) : Type := Except ApiErr op.Val

/-- What the clock reads, and what `idgen` gives next. -/
structure ScheduleMemory where
  now : IsoDateTime
  id : EntityId

/-- An asynchronous action on schedules. -/
abbrev ScheduleProgram (α : Type) : Type := Program ScheduleOp ScheduleOp.Ans ScheduleMemory ApiErr α

/-- Await an operation; its rejection is thrown. -/
def askSchedules (op : ScheduleOp) : ScheduleProgram op.Val := Program.ask op

/-! ## Routes -/

/-- `CreateScanScheduleBodySchema`. -/
structure CreateScanScheduleBody where
  repo : String
  mode : ScanMode := .full
  cron : String
  budgetCeiling : ℚ
  enabled : Bool := false

/-- What the routes use from elsewhere: the cron evaluator, the check of CSRF tokens, and how numbers are
written. -/
structure ScheduleDeps where
  cronIsValid : String → Bool
  nextCronRun : String → IsoDateTime → Option IsoDateTime
  verifyCsrfToken : EntityId → String → Bool
  numberText : ℚ → String

variable (deps : ScheduleDeps)

/-- `computeNextRunAt`. -/
def computeNextRunAt (cron : String) (enabled : Bool) (now : IsoDateTime) :
    Except ApiErr (Option IsoDateTime) :=
  if !deps.cronIsValid cron then
    .error (.http (badRequest "Invalid cron expression" (some [("cron", .str cron)])))
  else if !enabled then .ok none
  else
    match deps.nextCronRun cron now with
    | none =>
      .error (.http (badRequest "Cron expression never fires within a 5-year horizon"
        (some [("cron", .str cron)])))
    | some next => .ok (some next)

/-- The guards of the routes that write schedules. -/
def guardSchedule (session : Session) : Except ApiErr AuthenticatedUser := do
  let _ ← session.user
  verifyCsrf deps.verifyCsrfToken session
  requireRole [.operator, .approver] session
  session.user

/-- The metadata that describe a schedule. -/
def scheduleMetadata (s : ScanSchedule) : JsRecord :=
  [("repo", .str s.repo), ("mode", .str s.mode.name), ("cron", .str s.cron),
    ("budgetCeiling", .num s.budgetCeiling), ("enabled", .bool s.enabled)]

/-- The summary of a change to a schedule. -/
def scheduleSummary (verb : String) (s : ScanSchedule) : String :=
  let state := if s.enabled then "enabled" else "disabled"
  s!"Scan schedule {verb} for {s.repo} ({s.cron}, {state}); " ++
    s!"budget ceiling ${deps.numberText s.budgetCeiling}/run."

/-- The audit event of a change to a schedule. -/
def scheduleAudit (user : AuthenticatedUser) (action summary : String) (s : ScanSchedule)
    (metadata : JsRecord) : AuditInput :=
  AuditInput.scrubbed
    { clientId := user.clientId, actor := actorFromUser user, action, targetType := some "scan_schedule"
      targetId := some s.id, summary, metadata := some metadata }

/-- `POST /schedules`. -/
def postSchedule (session : Session) (body : Except (List JsValue) CreateScanScheduleBody) :
    ScheduleProgram ScanSchedule := do
  let user ← Program.ofExcept (guardSchedule deps session)
  let body ← Program.ofExcept (parseBody body)
  let m ← Program.get
  let nextRunAt ← Program.ofExcept (computeNextRunAt deps body.cron body.enabled m.now)
  let created ← askSchedules (.create user.clientId
    { id := m.id, clientId := user.clientId, repo := body.repo, mode := body.mode, cron := body.cron
      budgetCeiling := body.budgetCeiling, enabled := body.enabled, nextRunAt, createdBy := user.id
      createdAt := m.now })
  askSchedules (.auditAppend
    (scheduleAudit user "schedule.created" (scheduleSummary deps "created" created) created
      (scheduleMetadata created)))
  return created

/-- `PUT /schedules/:id`. -/
def putSchedule (session : Session) (id : Except (List JsValue) EntityId)
    (body : Except (List JsValue) CreateScanScheduleBody) : ScheduleProgram ScanSchedule := do
  let user ← Program.ofExcept (guardSchedule deps session)
  let id ← Program.ofExcept (parsed "path parameters" id)
  let body ← Program.ofExcept (parseBody body)
  match ← askSchedules (.get user.clientId id) with
  | none => Program.throw (.http (notFound "Scan schedule not found"))
  | some existing =>
    let nextRunAt ← Program.ofExcept
      (computeNextRunAt deps body.cron body.enabled (← Program.get).now)
    let saved ← askSchedules (.update user.clientId
      { id := existing.id, clientId := existing.clientId, repo := body.repo, mode := body.mode
        cron := body.cron, budgetCeiling := body.budgetCeiling, enabled := body.enabled, nextRunAt
        createdBy := existing.createdBy, createdAt := existing.createdAt })
    askSchedules (.auditAppend
      (scheduleAudit user "schedule.updated" (scheduleSummary deps "updated" saved) saved
        (scheduleMetadata saved ++
          [("enabledChanged", .bool (decide (existing.enabled ≠ saved.enabled)))])))
    return saved

/-- `DELETE /schedules/:id`. -/
def deleteSchedule (session : Session) (id : Except (List JsValue) EntityId) :
    ScheduleProgram EntityId := do
  let user ← Program.ofExcept (guardSchedule deps session)
  let id ← Program.ofExcept (parsed "path parameters" id)
  match ← askSchedules (.get user.clientId id) with
  | none => Program.throw (.http (notFound "Scan schedule not found"))
  | some existing =>
    askSchedules (.delete user.clientId id)
    askSchedules (.auditAppend
      (scheduleAudit user "schedule.deleted"
        s!"Scan schedule deleted for {existing.repo} ({existing.cron})." existing
        [("repo", .str existing.repo), ("cron", .str existing.cron)]))
    return existing.id

end MontrSecure
