import MontrSecure.Api.Scenarios

/-!
# Scenario runs

`processScenarioRunJob` of `apps/worker/src/scenario-runs/service.ts`, and the system of the requests about
scenarios and the queued jobs, which share the table of scenarios.
-/

namespace MontrSecure

open Async Confirm

/-! ## Jobs -/

/-- `ScenarioRunOutcome`. -/
inductive ScenarioRunOutcome where
  | executed (scenarioId : EntityId) (clientId : ClientId) (result : ScenarioRunResult)
  | rejected (scenarioId : EntityId) (clientId : ClientId) (reason : String)

/-- `msg`. -/
def ApiErr.message : ApiErr → String
  | .http e => e.message
  | .thrown (.montr _ message _) | .thrown (.other message) | .abort message => message

/-- `SCENARIO_RUN_ACTOR`. -/
def scenarioRunActor : AuditActor := { type := .system, id := "scenario-run-worker" }

/-- The audit event of a job. -/
def jobAudit (job : ScenarioRunJob) (action summary : String) (metadata : JsRecord) : ScenarioOp :=
  .auditAppend
    { clientId := job.clientId, actor := scenarioRunActor, action
      targetType := some "red_team_scenario", targetId := some job.scenarioId, summary
      metadata := some ([("requestedById", .str job.requestedById),
        ("requestedAt", .str (toISOString job.requestedAt))] ++ metadata) }

/-- `writtenAuthorizationGapReason` of the worker. -/
def runGapReason (s : RedTeamScenario) : String :=
  let authorizedFor := (s.liveAuthorizedForVersion.map toString).getD "?"
  if s.liveAuthorizedById.all (· = "") ∨ s.liveAuthorizedAt = none then
    "scenario has never been authorized for live execution " ++
      "(no written authorizationReference on record)"
  else if s.liveAuthorizedForVersion ≠ some s.version then
    s!"scenario was authorized for version {authorizedFor} but is now version {s.version} " ++
      "(edited since authorization) — re-authorization required"
  else "scenario's written authorization is incomplete (missing an authorization reference)"

/-- `reject`: an audit event that cannot be written is only logged. -/
def rejectRun (job : ScenarioRunJob) (reason : String) (scenario : Option RedTeamScenario := none) :
    ScenarioProgram ScenarioRunOutcome := do
  let version := (scenario.map fun s => ("version", JsValue.num s.version)).toList
  let _ ← (Program.attempt (Program.ask (jobAudit job "scenario.live_run_rejected"
    s!"Real worker-side scenario execution refused: {reason}" ([("reason", .str reason)] ++ version))) :
      ScenarioProgram _)
  return .rejected job.scenarioId job.clientId reason

variable (deps : ScenarioDeps)

/-- The end of a run that was executed. -/
def finishRun (job : ScenarioRunJob) (scenario : RedTeamScenario) (result : ScenarioRunResult) :
    ScenarioProgram ScenarioRunOutcome := do
  let _ ← (Program.attempt (Program.ask (jobAudit job "scenario.live_run_executed"
    (s!"Real worker-side execution completed for scenario \"{scenario.name}\" against " ++
      hostOf deps.parseUrl result.target)
    [("authorizedById", (scenario.liveAuthorizedById.map JsValue.str).getD .undefined),
      ("authorizationReference",
        (scenario.liveAuthorizationReference.map JsValue.str).getD .undefined),
      ("targetHost", .str (hostOf deps.parseUrl result.target)), ("probed", .bool result.probed),
      ("blocked", .bool result.blocked), ("requestsSent", .num result.requestsSent),
      ("mutatingSent", .num result.mutatingSent)])) : ScenarioProgram _)
  return .executed scenario.id job.clientId result

/-- A scenario that was loaded is checked, and run. -/
def runLoaded (job : ScenarioRunJob) (scenario : RedTeamScenario) : ScenarioProgram ScenarioRunOutcome := do
  if scenario.enabled = false then rejectRun job "scenario is disabled" (some scenario)
  else if deps.config.productionBlocked = false then
    rejectRun job "production DAST is blocked by policy (config invariant violated)" (some scenario)
  else if deps.config.killSwitchEnabled = false then
    rejectRun job "DAST kill switch must be enabled by policy (config invariant violated)" (some scenario)
  else if hasLiveRunAuthorization scenario = false then
    rejectRun job (runGapReason scenario) (some scenario)
  else
    match ← Program.attempt (askScenarios .buildTransport) with
    | .error e => rejectRun job s!"failed to construct live transport: {e.message}" (some scenario)
    | .ok () =>
      -- no target override: the scenario's own target
      match ← Program.attempt
          ((runScenario deps.parseUrl deps.config none true scenario true none).lift probing) with
      | .error e => rejectRun job s!"execution guardrail refused: {e.message}" (some scenario)
      | .ok result => finishRun deps job scenario result

/-- `processScenarioRunJob`. -/
def processScenarioRunJob (job : ScenarioRunJob) : ScenarioProgram ScenarioRunOutcome :=
  Program.tryCatch
    (do
      match ← askScenarios (.get job.clientId job.scenarioId) with
      | none => rejectRun job "scenario not found"
      | some scenario => runLoaded deps job scenario)
    fun e => rejectRun job s!"unexpected error: {e.message}"

/-! ## Interleaved requests and jobs -/

/-- A request, or a job that was taken from the queue. -/
inductive ScenarioCall where
  | post (session : Session) (body : Except (List JsValue) CreateRedTeamScenarioBody)
  | put (session : Session) (id : Except (List JsValue) EntityId)
    (body : Except (List JsValue) CreateRedTeamScenarioBody)
  | delete (session : Session) (id : Except (List JsValue) EntityId)
  | authorize (session : Session) (id : Except (List JsValue) EntityId)
    (body : Except (List JsValue) AuthorizeScenarioBody)
  | run (session : Session) (id : Except (List JsValue) EntityId)
    (body : Except (List JsValue) (Option String))
  | job (job : ScenarioRunJob)

/-- The table of scenarios, and the jobs that were queued. -/
structure ScenarioWorld where
  table : ScenarioTable
  queue : List ScenarioRunJob := []

/-- How an operation goes: it may be rejected, and the answers of others are arbitrary. -/
structure ScenarioChoice where
  rejects : Option ApiErr := none
  jobId : String := ""
  egressGuard : EgressGuard := fun _ => .ok ()
  response : LiveHttpResponse := { status := 200, body := "" }

/-- The effect of an operation, and its answer. -/
def execScenario (w : ScenarioWorld) (ch : ScenarioChoice) : (op : ScenarioOp) → ScenarioWorld × op.Ans
  | .create clientId s =>
    match w.table.create clientId s with
    | some (row, t) => ({ w with table := t }, .ok row)
    | none => (w, .error (.thrown uniqueConstraintError))
  | .get clientId id => (w, .ok (w.table.get clientId id))
  | .update clientId s =>
    match w.table.update clientId s with
    | some (row, t) => ({ w with table := t }, .ok row)
    | none =>
      -- the name and version of another row, or no such scenario of the client
      (w, .error (.thrown (if w.table.taken clientId s then uniqueConstraintError
        else repositoryScopeError s!"redTeamScenario {s.id} not found for client")))
  | .delete clientId id =>
    match w.table.delete clientId id with
    | some t => ({ w with table := t }, .ok ())
    | none => (w, .error (.thrown (repositoryScopeError s!"redTeamScenario {id} not found for client")))
  | .auditAppend _ | .buildTransport | .probe (.sleep _) => (w, .ok ())
  | .enqueue job => ({ w with queue := w.queue ++ [job] }, .ok ch.jobId)
  | .probe .buildEgressGuard => (w, .ok ch.egressGuard)
  | .probe (.send _) => (w, .ok ch.response)

/-- The operation, unless it is rejected. -/
def performScenario (ch : ScenarioChoice) (w : ScenarioWorld) (op : ScenarioOp) : ScenarioWorld × op.Ans :=
  match ch.rejects with
  | some e => (w, .error e)
  | none => execScenario w ch op

/-- The program of a call. -/
def ScenarioCall.body : ScenarioCall → ScenarioProgram Unit
  | .post session body => do
    let _ ← postScenario deps session body
    return ()
  | .put session id body => do
    let _ ← putScenario deps session id body
    return ()
  | .delete session id => do
    let _ ← deleteScenario deps session id
    return ()
  | .authorize session id body => do
    let _ ← authorizeScenario deps session id body
    return ()
  | .run session id body => do
    let _ ← postScenarioRun deps session id body
    return ()
  | .job queued => do
    let _ ← processScenarioRunJob deps queued
    return ()

/-- A job runs only after it was queued; it may be delivered more than once. -/
def ScenarioCall.enters (call : ScenarioCall) (w : ScenarioWorld) : Bool :=
  match call with
  | .job queued => decide (queued ∈ w.queue)
  | _ => true

/-- Requests and jobs, and an environment in which time passes and the kill signal of the worker fires. -/
def scenarioSystem : System ScenarioCall ScenarioOp ScenarioOp.Ans ScenarioChoice ScenarioMemory
    ScenarioMemory ScenarioWorld ApiErr where
  body := ScenarioCall.body deps
  enter _ call w := if call.enters w then some w else none
  perform _ _ op ch _ w := performScenario ch w op
  leave _ _ _ w := w
  env m _ _ w := some (m, w)
  crash m w := (m, w)

/-- A state of requests and jobs. -/
abbrev ScenarioConfig :=
  Config ScenarioCall ScenarioOp ScenarioOp.Ans ScenarioMemory ScenarioMemory ScenarioWorld ApiErr

/-- An event of requests and jobs. -/
abbrev ScenarioEvent := Event ScenarioCall ScenarioOp ScenarioOp.Ans ScenarioMemory ApiErr

/-- Before the first request. -/
def ScenarioConfig.start (m : ScenarioMemory) (t : ScenarioTable) : ScenarioConfig :=
  { mem := m, world := { table := t }, tasks := [], history := [] }

/-! ## What the operations do -/

variable {deps} {ch : ScenarioChoice} {w w' : ScenarioWorld} {clientId : ClientId} {s saved : RedTeamScenario}

/-- A created scenario is stored as it was given. -/
theorem create_of_performScenario (h : performScenario ch w (.create clientId s) = (w', .ok saved))
    (id : EntityId) :
    w'.table.get? id = if s.id = id then some { s with clientId } else w.table.get? id := by
  unfold performScenario at h
  split at h
  · cases h
  · simp only [execScenario, ScenarioTable.create] at h
    split at h
    · rename_i row t hcreate
      cases h
      split at hcreate
      · cases hcreate
      · obtain ⟨inserted, hinsert, hpair⟩ := Option.map_eq_some_iff.mp hcreate
        obtain ⟨-, rfl⟩ := Prod.mk.inj hpair
        obtain ⟨hfree, rfl⟩ := Table.insert?_eq_some_iff.mp hinsert
        exact Table.get?_insertNew hfree
    · cases h

/-- An update that was answered replaced the row, and kept its identity and provenance. -/
theorem update_of_performScenario (h : performScenario ch w (.update clientId s) = (w', .ok saved)) :
    ∃ old, w.table.get? s.id = some old ∧ old.clientId = clientId ∧
      saved = scenarioFromRow (scenarioWritten s old) ∧
      ∀ id, w'.table.get? id = if s.id = id then some (scenarioWritten s old) else w.table.get? id := by
  unfold performScenario at h
  split at h
  · cases h
  · simp only [execScenario, ScenarioTable.update] at h
    split at h
    · rename_i row t hupdate
      cases h
      split at hupdate
      · cases hupdate
      · obtain ⟨⟨written, t'⟩, hof, hpair⟩ := Option.map_eq_some_iff.mp hupdate
        obtain ⟨rfl, rfl⟩ := Prod.mk.inj hpair
        have hkey : ∀ r, (scenarioWritten s r).id = r.id := fun _ => rfl
        obtain ⟨old, hget, hclient, rfl, -⟩ := Table.updateOf_eq_some_iff.mp hof
        exact ⟨old, hget, hclient, rfl, fun id => Table.get?_updateOf hkey hof⟩
    · cases h

/-- A deleted scenario is not stored. -/
theorem delete_of_performScenario {removed : EntityId}
    (h : performScenario ch w (.delete clientId removed) = (w', .ok ())) (id : EntityId) :
    w'.table.get? id = if removed = id then none else w.table.get? id := by
  unfold performScenario at h
  split at h
  · cases h
  · simp only [execScenario] at h
    split at h
    · rename_i hdelete
      cases h
      exact Table.get?_deleteOf hdelete
    · cases h

/-- A read answers what is stored. -/
theorem get_of_performScenario {id : EntityId} {found : Option RedTeamScenario}
    (h : performScenario ch w (.get clientId id) = (w', .ok found)) :
    found = w.table.get clientId id := by
  unfold performScenario at h
  split at h <;> cases h
  rfl

/-- Only a creation, an update or a removal that is answered changes the table. -/
theorem table_of_performScenario {op : ScenarioOp} {r : op.Ans} (h : performScenario ch w op = (w', r)) :
    w'.table = w.table ∨
      (∃ c s saved, (⟨op, r⟩ : Σ op : ScenarioOp, op.Ans) = ⟨.create c s, .ok saved⟩) ∨
      (∃ c s saved, (⟨op, r⟩ : Σ op : ScenarioOp, op.Ans) = ⟨.update c s, .ok saved⟩) ∨
      ∃ c id, (⟨op, r⟩ : Σ op : ScenarioOp, op.Ans) = ⟨.delete c id, .ok ()⟩ := by
  unfold performScenario at h
  split at h
  · cases h
    exact .inl rfl
  · cases op with
    | create c s =>
      simp only [execScenario] at h
      split at h
      · cases h
        exact .inr (.inl ⟨c, s, _, rfl⟩)
      · cases h
        exact .inl rfl
    | update c s =>
      simp only [execScenario] at h
      split at h
      · cases h
        exact .inr (.inr (.inl ⟨c, s, _, rfl⟩))
      · cases h
        exact .inl rfl
    | delete c id =>
      simp only [execScenario] at h
      split at h
      · cases h
        exact .inr (.inr (.inr ⟨c, id, rfl⟩))
      · cases h
        exact .inl rfl
    | probe op =>
      cases op <;> cases h <;> exact .inl rfl
    | _ =>
      cases h
      exact .inl rfl

end MontrSecure
