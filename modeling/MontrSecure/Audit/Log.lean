import MontrSecure.Async.Lawful
import MontrSecure.Audit.HashChain
import MontrSecure.Data.Table
import MontrSecure.Security.Scrubber

/-!
# The audit log

`PrismaAuditLogClient` of `packages/state-store/src/audit.ts`. An append scrubs its input, and then
reads the last event of the client and creates the next one in a transaction, which it begins again
when the unique index says that another writer was faster. Appends of any number of processes run
interleaved: what they share is the table.
-/

namespace MontrSecure

open Async

/-! ## Inputs -/

/-- `AuditActionSchema`. -/
def auditActions : List String :=
  ["scan.created", "scan.started", "scan.paused", "scan.resumed", "scan.cancelled", "scan.completed",
    "scan.failed", "gate.estimate_presented", "gate.estimate_approved", "gate.fix_approved",
    "gate.rejected", "llm.call", "appmap.built", "appmap.invalidated", "finding.candidate_created",
    "finding.promoted_probable", "finding.confirmed", "finding.demoted",
    "finding.marked_false_positive", "fix.generated", "fix.pr_opened", "fix.merged", "fix.rejected",
    "dast.authorized", "dast.probe", "dast.kill_switch", "budget.warning", "budget.exceeded",
    "config.changed", "auth.login", "auth.logout", "auth.role_changed", "export.generated",
    "rule.created", "rule.updated", "rule.deleted", "scenario.created", "scenario.updated",
    "scenario.deleted", "scenario.run", "scenario.authorized", "scenario.live_run_enqueued",
    "scenario.live_run_rejected", "scenario.live_run_executed", "schedule.created",
    "schedule.updated", "schedule.deleted", "schedule.triggered", "posture.snapshot",
    "learned_fact.recorded", "detection_rule.push_target_configured",
    "detection_rule.push_target_deleted", "detection_rule.pushed", "detection_rule.push_failed"]

/-- `AuditEventInput`: what `AuditEventInputSchema` accepts. -/
structure AuditLogInput where
  clientId : ClientId
  scanId : Option ScanId := none
  actor : AuditActor
  action : String
  targetType : Option String := none
  targetId : Option EntityId := none
  summary : String
  metadata : JsRecord := []
  /-- Where the metadata hold an object that they hold at another place before. -/
  met : JsPath → Bool := fun _ => false
  /-- Ids are not empty. -/
  ids : clientId ≠ "" ∧ scanId ≠ some "" ∧ actor.id ≠ "" ∧ targetId ≠ some ""
  action_mem : action ∈ auditActions
  /-- No object of the metadata has a key twice. -/
  distinct : (JsValue.obj metadata).distinct = true
  met_nil : met [] = false

/-- `SCRUB_FAILSAFE_SUMMARY`. -/
def scrubFailsafeSummary : String := "[REDACTED]:audit-scrub-failsafe"

/-- `value as Record<string, unknown>`. -/
def JsValue.record : JsValue → JsRecord
  | .obj fields => fields
  | _ => []

/-- `scrubAuditInput`: the summary and the metadata that are written. The verifier runs on fresh
objects, of which it meets none twice. -/
def scrubAuditInput (input : AuditLogInput) : String × JsRecord :=
  let metadata := (redactSensitive {} input.met (.obj input.metadata)).record
  let summary := redactString {} false input.summary
  let violations := findLogViolations {} (fun _ => false)
    (.obj [("summary", .str summary), ("metadata", .obj metadata)])
  if violations = [] then (summary, metadata)
  else
    (scrubFailsafeSummary,
      [("auditScrubFailsafe", .bool true), ("violationCount", .num violations.length),
        ("violationKinds", .arr (violations.eraseDups.map fun kind => .str kind.name))])

/-- What is written can be hashed before and after it is stored. -/
theorem scrubAuditInput_clean (input : AuditLogInput) :
    (JsValue.obj (scrubAuditInput input).2).plain = true ∧
      (JsValue.obj (scrubAuditInput input).2).distinct = true := by
  unfold scrubAuditInput
  dsimp only
  split
  · have hplain : (redactSensitive {} input.met (.obj input.metadata)).plain = true :=
      plain_redactWalk _
    have hdistinct : (redactSensitive {} input.met (.obj input.metadata)).distinct = true :=
      distinct_redactWalk input.distinct
    cases hv : redactSensitive {} input.met (.obj input.metadata) with
    | obj fields =>
      rw [hv] at hplain hdistinct
      exact ⟨hplain, hdistinct⟩
    | _ => exact ⟨rfl, rfl⟩
  · rw [plain_obj, js_distinct_obj]
    refine ⟨?_, (by decide : ["auditScrubFailsafe", "violationCount", "violationKinds"].Nodup), ?_⟩
    · simp [plain_arr]
    · have hitems (kinds : List LogViolationKind) :
          (JsValue.arr (kinds.map fun kind => .str kind.name)).distinct = true := by
        refine js_distinct_arr.mpr fun v hv => ?_
        obtain ⟨kind, -, rfl⟩ := List.mem_map.mp hv
        rfl
      exact List.forall_mem_cons.mpr ⟨rfl, List.forall_mem_cons.mpr ⟨rfl,
        List.forall_mem_singleton.mpr (hitems _)⟩⟩

/-! ## Rows -/

/-- A row of the table `AuditEvent`. -/
structure AuditEventRow where
  id : EntityId
  clientId : ClientId
  sequence : ℕ
  scanId : Option ScanId
  actorType : ActorType
  actorId : EntityId
  actorRole : Option Role
  action : String
  targetType : Option String
  targetId : Option EntityId
  summary : String
  metadata : Json
  prevHash : String
  hash : String
  at_ : IsoDateTime

/-- The columns of `@@unique([clientId, sequence])`. -/
def AuditEventRow.place (row : AuditEventRow) : ClientId × ℕ := (row.clientId, row.sequence)

/-- `rowToEvent`. -/
def rowToEvent (row : AuditEventRow) : AuditEvent :=
  { id := row.id, clientId := row.clientId, sequence := row.sequence, scanId := row.scanId
    actor := { type := row.actorType, id := row.actorId, role := row.actorRole }
    action := row.action, targetType := row.targetType, targetId := row.targetId
    summary := row.summary, metadata := (JsValue.ofJson row.metadata).record
    prevHash := row.prevHash, hash := row.hash, at_ := toISOString row.at_ }

/-- The table, with its two unique indexes. -/
structure AuditTable where
  table : Table AuditEventRow.id
  unique : (table.rows.map AuditEventRow.place).Nodup

namespace AuditTable

/-- The rows, in the order in which they were created. -/
def rows (t : AuditTable) : List AuditEventRow := t.table.rows

/-- No events yet. -/
def empty : AuditTable := { table := .empty, unique := List.nodup_nil }

/-- Create a row, unless a unique index forbids it. -/
def create? (t : AuditTable) (row : AuditEventRow) : Option AuditTable :=
  if h : t.table.contains row.id = true ∨ row.place ∈ t.rows.map AuditEventRow.place then none
  else
    some
      { table := t.table.insertNew row
        unique := by
          obtain ⟨hid, hplace⟩ := not_or.mp h
          rw [Table.rows_insertNew (by simpa using hid), List.map_append, List.map_singleton,
            ← List.concat_eq_append, List.nodup_concat]
          exact ⟨hplace, t.unique⟩ }

/-- The rows of a client. -/
def ofClient (t : AuditTable) (clientId : ClientId) : List AuditEventRow :=
  t.rows.filter (·.clientId = clientId)

/-- `findFirst` by `clientId`, `sequence` descending. -/
def findLast (t : AuditTable) (clientId : ClientId) : Option AuditEventRow :=
  ((t.ofClient clientId).insertionSort fun r r' => r'.sequence ≤ r.sequence).head?

/-- `findMany` by `clientId`, `sequence` ascending. -/
def findChain (t : AuditTable) (clientId : ClientId) : List AuditEventRow :=
  (t.ofClient clientId).insertionSort fun r r' => r.sequence ≤ r'.sequence

end AuditTable

/-! ## Appending -/

/-- What an append asks the database inside its transaction; the creation includes the commit. -/
inductive AuditOp where
  | findLast (clientId : ClientId)
  | create (row : AuditEventRow)

/-- What Prisma rejects with. -/
inductive AuditErr where
  /-- `P2002`. -/
  | uniqueViolation
  | other (message : String)
  deriving DecidableEq

/-- What an operation resolves to. -/
abbrev AuditOp.Val : AuditOp → Type
  | .findLast _ => Option AuditEventRow
  | .create _ => AuditEventRow

/-- How an operation is answered: it resolves or it rejects. -/
abbrev AuditOp.Ans (op : AuditOp) : Type := Except AuditErr op.Val

/-- What `randomUUID` returns. -/
abbrev Uuid := { s : String // s ≠ "" }

/-- What the clock reads: a date before the year 10000. -/
abbrev ClockTime := { ms : IsoDateTime // ms < 253402300800000 }

/-- What a process draws next. -/
structure AuditMemory where
  uuid : Uuid
  now : ClockTime

/-- An asynchronous action of the log. -/
abbrev AuditProgram (α : Type) : Type := Program AuditOp AuditOp.Ans AuditMemory AuditErr α

/-- `MAX_APPEND_ATTEMPTS`. -/
def maxAppendAttempts : ℕ := 5

variable (sha256 : String → String) (fmt : NumberFormat)

/-- The event of an append after the event `last`, without its hash. -/
def draftEvent (input : AuditLogInput) (last : Option AuditEventRow) (m : AuditMemory) : AuditEvent :=
  let scrubbed := scrubAuditInput input
  { id := m.uuid, clientId := input.clientId
    sequence := (last.map AuditEventRow.sequence).getD 0 + 1, scanId := input.scanId
    actor := input.actor, action := input.action, targetType := input.targetType
    targetId := input.targetId, summary := scrubbed.1, metadata := scrubbed.2
    prevHash := (last.map AuditEventRow.hash).getD "", hash := "", at_ := toISOString m.now }

/-- The row that is created for a draft. -/
def rowOfDraft (draft : AuditEvent) (now : IsoDateTime) : AuditEventRow :=
  { id := draft.id, clientId := draft.clientId, sequence := draft.sequence, scanId := draft.scanId
    actorType := draft.actor.type, actorId := draft.actor.id, actorRole := draft.actor.role
    action := draft.action, targetType := draft.targetType, targetId := draft.targetId
    summary := draft.summary, metadata := .obj (toJsonFields draft.metadata)
    prevHash := draft.prevHash, hash := hashAuditEvent sha256 fmt draft draft.prevHash, at_ := now }

/-- The row an append creates after the event `last`. -/
def nextRow (input : AuditLogInput) (last : Option AuditEventRow) (m : AuditMemory) : AuditEventRow :=
  rowOfDraft sha256 fmt (draftEvent input last m) m.now

/-- Await an operation; its rejection is thrown. -/
def askAudit (op : AuditOp) : AuditProgram op.Val := do
  match ← (Program.await op : AuditProgram op.Ans) with
  | .ok a => pure a
  | .error e => Program.throw e

/-- The transaction of an append. -/
def appendOnce (input : AuditLogInput) : AuditProgram AuditEvent := do
  let last ← askAudit (.findLast input.clientId)
  let m ← Program.get
  let row ← askAudit (.create (nextRow sha256 fmt input last m))
  return rowToEvent row

/-- The loop of `append`, with the attempts it has left. -/
def appendAttempts (input : AuditLogInput) : ℕ → AuditProgram AuditEvent
  | 0 => Program.throw (.other "audit append failed: could not obtain a unique sequence after retries")
  | n + 1 =>
    Program.tryCatch (appendOnce sha256 fmt input) fun e =>
      if e = .uniqueViolation ∧ 0 < n then appendAttempts input n else Program.throw e

/-- `append`. -/
def append (input : AuditLogInput) : AuditProgram AuditEvent :=
  appendAttempts sha256 fmt input maxAppendAttempts

/-! ## Interleaved appends -/

/-- What the database makes of an operation: it may abort a transaction, and the answer to a commit
may get lost. -/
inductive DbChoice where
  | answers
  | aborts (message : String)
  | answerLost (message : String)

/-- The effect of an operation on the table, and its answer. -/
def performAudit (t : AuditTable) (ch : DbChoice) : (op : AuditOp) → AuditTable × op.Ans
  | .findLast clientId =>
    match ch with
    | .answers => (t, .ok (t.findLast clientId))
    | .aborts message | .answerLost message => (t, .error (.other message))
  | .create row =>
    match ch, t.create? row with
    | .answers, some t' => (t', .ok row)
    | .answers, none => (t, .error .uniqueViolation)
    | .answerLost message, some t' => (t', .error (.other message))
    | .answerLost message, none | .aborts message, _ => (t, .error (.other message))

/-- The appends, the table they write to, and an environment in which time passes and other processes
run. -/
def auditSystem : System AuditLogInput AuditOp AuditOp.Ans DbChoice AuditMemory AuditMemory AuditTable
    AuditErr where
  body input := do
    let _ ← append sha256 fmt input
    return ()
  enter _ _ t := some t
  perform _ _ op ch _ t := performAudit t ch op
  leave _ _ _ t := t
  env m _ _ t := some (m, t)
  crash m t := (m, t)

/-- A state of the appends. -/
abbrev AuditConfig :=
  Config AuditLogInput AuditOp AuditOp.Ans AuditMemory AuditMemory AuditTable AuditErr

/-- Before the first append. -/
def initialAudit (m : AuditMemory) : AuditConfig :=
  { mem := m, world := .empty, tasks := [], history := [] }

/-- The states that interleaved appends reach. -/
def AuditReaches (m : AuditMemory) (cfg : AuditConfig) : Prop :=
  Reachable (auditSystem sha256 fmt) (fun _ _ => True) (initialAudit m) cfg

end MontrSecure
