import MontrSecure.Api.Http
import MontrSecure.Async.Embedding
import MontrSecure.Confirm.Scenarios
import MontrSecure.Data.Scoped
import MontrSecure.StateStore.Repositories

/-!
# Scenarios

`RedTeamScenarioRepositoryImpl` of `packages/state-store/src/phase4.ts`, as it appears to its callers, with
the steps in the clear, and the routes of `apps/api/src/routes/scenarios.ts`. What the worker asks when it
runs a scenario stands beside what the routes ask.
-/

namespace MontrSecure

open Async Confirm

/-! ## The table -/

/-- The table `RedTeamScenario`. -/
abbrev ScenarioTable : Type := Table RedTeamScenario.id

/-- `fromRow`: an empty id or reference is none. -/
def scenarioFromRow (row : RedTeamScenario) : RedTeamScenario :=
  { row with
    liveAuthorizedById := row.liveAuthorizedById.filter (· ≠ "")
    liveAuthorizationReference := row.liveAuthorizationReference.filter (· ≠ "") }

/-- The columns `update` writes. -/
def scenarioWritten (s row : RedTeamScenario) : RedTeamScenario :=
  { s with id := row.id, clientId := row.clientId, createdBy := row.createdBy, createdAt := row.createdAt }

namespace ScenarioTable

variable (t : ScenarioTable) (clientId : ClientId)

/-- Another row of the client has the name and the version: `@@unique([clientId, name, version])`. -/
def taken (s : RedTeamScenario) : Bool :=
  t.rows.any fun r => r.id ≠ s.id && r.clientId = clientId && r.name = s.name && r.version = s.version

/-- `get`. -/
def get (id : EntityId) : Option RedTeamScenario :=
  (t.getOf RedTeamScenario.clientId clientId id).map scenarioFromRow

/-- `create`. -/
def create (s : RedTeamScenario) : Option (RedTeamScenario × ScenarioTable) :=
  if t.taken clientId s then none
  else (t.insert? { s with clientId }).map fun t' => (scenarioFromRow { s with clientId }, t')

/-- `update`. -/
def update (s : RedTeamScenario) : Option (RedTeamScenario × ScenarioTable) :=
  if t.taken clientId s then none
  else
    (t.updateOf RedTeamScenario.clientId clientId s.id (scenarioWritten s)).map fun written =>
      (scenarioFromRow written.1, written.2)

/-- `delete`. -/
def delete (id : EntityId) : Option ScenarioTable := t.deleteOf RedTeamScenario.clientId clientId id

end ScenarioTable

/-! ## Operations -/

/-- `ScenarioRunJob`. -/
structure ScenarioRunJob where
  scenarioId : EntityId
  clientId : ClientId
  requestedById : EntityId
  requestedAt : IsoDateTime
  deriving DecidableEq

/-- What the routes and the worker ask. -/
inductive ScenarioOp where
  | create (clientId : ClientId) (s : RedTeamScenario)
  | get (clientId : ClientId) (id : EntityId)
  | update (clientId : ClientId) (s : RedTeamScenario)
  | delete (clientId : ClientId) (id : EntityId)
  | auditAppend (input : AuditInput)
  | enqueue (job : ScenarioRunJob)
  /-- `transportFactory`, or `defaultTransport`. -/
  | buildTransport
  | probe (op : ProbeOp)

/-- What an operation resolves to. -/
abbrev ScenarioOp.Val : ScenarioOp → Type
  | create .. | update .. => RedTeamScenario
  | get .. => Option RedTeamScenario
  | delete .. | auditAppend _ | buildTransport => Unit
  | enqueue _ => String
  | probe op => op.Val

/-- How an operation is answered: it resolves or it rejects. -/
abbrev ScenarioOp.Ans (op : ScenarioOp) : Type := Except ApiErr op.Val

/-- What the clock reads, what `idgen` gives next, and the kill signal of the worker. -/
structure ScenarioMemory extends ProbeMemory where
  id : EntityId

/-- An asynchronous action on scenarios. -/
abbrev ScenarioProgram (α : Type) : Type := Program ScenarioOp ScenarioOp.Ans ScenarioMemory ApiErr α

/-- Await an operation; its rejection is thrown. -/
def askScenarios (op : ScenarioOp) : ScenarioProgram op.Val := Program.ask op

/-- An error, as live probing sees it. -/
def ApiErr.toLive : ApiErr → LiveErr
  | .http e => .err (.other e.message)
  | .thrown e => .err e
  | .abort message => .abort message

/-- An error of live probing. -/
def liveToApi : LiveErr → ApiErr
  | .err e => .thrown e
  | .abort message => .abort message

/-- Probing inside a route or a job. -/
def probing : Embedding ProbeOp ProbeOp.Ans ProbeMemory LiveErr ScenarioOp ScenarioOp.Ans ScenarioMemory
    ApiErr where
  op := .probe
  answer _ r := r.mapError ApiErr.toLive
  view m := m.toProbeMemory
  put m m' := { m' with toProbeMemory := m }
  error := liveToApi

/-! ## Routes -/

/-- `CreateRedTeamScenarioBodySchema`; `version` is not used. -/
structure CreateRedTeamScenarioBody where
  name : String
  category : RedTeamCategory
  steps : List RedTeamStep := []
  targetAllowlistRef : String
  enabled : Bool := false

/-- `AuthorizeScenarioBodySchema`. -/
structure AuthorizeScenarioBody where
  authorizationReference : String
  trimmed : trim authorizationReference = authorizationReference
  nonempty : authorizationReference ≠ ""

/-- What the routes and the worker use from elsewhere. -/
structure ScenarioDeps where
  config : LiveConfig
  parseUrl : UrlParser
  verifyCsrfToken : EntityId → String → Bool

variable (deps : ScenarioDeps)

/-- The guards of the routes for authors. -/
def guardAuthor (session : Session) : Except ApiErr AuthenticatedUser := do
  let _ ← session.user
  verifyCsrf deps.verifyCsrfToken session
  requireRole [.operator, .approver] session
  session.user

/-- The guards of the routes for approvers. -/
def guardApprover (session : Session) : Except ApiErr AuthenticatedUser := do
  let _ ← session.user
  verifyCsrf deps.verifyCsrfToken session
  requireApprover session
  session.user

/-- `RedTeamCategorySchema`, as it is written. -/
def RedTeamCategory.name : RedTeamCategory → String
  | .accessControl => "access_control"
  | .injection => "injection"
  | .authentication => "authentication"
  | .ssrf => "ssrf"
  | .xss => "xss"
  | .businessLogic => "business_logic"
  | .recon => "recon"
  | .other => "other"

/-- The audit event of a request about a scenario. -/
def scenarioAudit (user : AuthenticatedUser) (action summary : String) (id : EntityId)
    (metadata : JsRecord) : AuditInput :=
  AuditInput.scrubbed
    { clientId := user.clientId, actor := actorFromUser user, action
      targetType := some "red_team_scenario", targetId := some id, summary, metadata := some metadata }

/-- The host of the target, as the audit names it. -/
def targetHost (s : RedTeamScenario) : String × JsValue :=
  ("targetHost", .str (hostOf deps.parseUrl s.targetAllowlistRef))

/-- The body, if the scenario it describes is valid. -/
def validated (body : CreateRedTeamScenarioBody) : Except ApiErr Unit :=
  let validation := validateScenario body.steps body.targetAllowlistRef
  if validation.valid then .ok ()
  else
    .error (.http (badRequest "Scenario failed validation"
      (some [("errors", .arr (validation.errors.map .str)),
        ("warnings", .arr (validation.warnings.map .str))])))

/-- `POST /scenarios`. -/
def postScenario (session : Session) (body : Except (List JsValue) CreateRedTeamScenarioBody) :
    ScenarioProgram RedTeamScenario := do
  let user ← Program.ofExcept (guardAuthor deps session)
  let body ← Program.ofExcept (parseBody body)
  Program.ofExcept (validated body)
  let m ← Program.get
  let created ← askScenarios (.create user.clientId
    { id := m.id, clientId := user.clientId, name := body.name, category := body.category
      steps := body.steps, targetAllowlistRef := body.targetAllowlistRef, version := 1, enabled := false
      createdBy := user.id, createdAt := m.now })
  askScenarios (.auditAppend (scenarioAudit user "scenario.created"
    s!"Red-team scenario authored (disabled): {created.name}" created.id
    [("category", .str created.category.name), ("stepCount", .num created.steps.length),
      targetHost deps created, ("enabled", .bool created.enabled), ("version", .num created.version)]))
  return created

/-- The scenario of an edit: the next version, without an authorization. -/
def editedScenario (existing : RedTeamScenario) (body : CreateRedTeamScenarioBody) : RedTeamScenario :=
  { id := existing.id, clientId := existing.clientId, createdBy := existing.createdBy
    createdAt := existing.createdAt, name := body.name, category := body.category, steps := body.steps
    targetAllowlistRef := body.targetAllowlistRef, enabled := body.enabled
    version := existing.version + 1 }

/-- The summary of an edit. -/
def editSummary (existing saved : RedTeamScenario) : String :=
  s!"Red-team scenario updated: {saved.name} (v{existing.version}→v{saved.version}, " ++
    s!"enabled={saved.enabled})" ++
      if hasLiveRunAuthorization existing then " — prior live-run authorization invalidated by this edit"
      else ""

/-- `PUT /scenarios/:id`. -/
def putScenario (session : Session) (id : Except (List JsValue) EntityId)
    (body : Except (List JsValue) CreateRedTeamScenarioBody) : ScenarioProgram RedTeamScenario := do
  let user ← Program.ofExcept (guardAuthor deps session)
  let id ← Program.ofExcept (parsed "path parameters" id)
  match ← askScenarios (.get user.clientId id) with
  | none => Program.throw (.http (notFound "Scenario not found"))
  | some existing =>
    let body ← Program.ofExcept (parseBody body)
    Program.ofExcept (validated body)
    let saved ← askScenarios (.update user.clientId (editedScenario existing body))
    askScenarios (.auditAppend (scenarioAudit user "scenario.updated" (editSummary existing saved) saved.id
      [("category", .str saved.category.name), ("stepCount", .num saved.steps.length),
        targetHost deps saved, ("enabled", .bool saved.enabled), ("fromVersion", .num existing.version),
        ("toVersion", .num saved.version),
        ("liveAuthorizationInvalidated", .bool (hasLiveRunAuthorization existing))]))
    return saved

/-- `DELETE /scenarios/:id`. -/
def deleteScenario (session : Session) (id : Except (List JsValue) EntityId) :
    ScenarioProgram EntityId := do
  let user ← Program.ofExcept (guardAuthor deps session)
  let id ← Program.ofExcept (parsed "path parameters" id)
  match ← askScenarios (.get user.clientId id) with
  | none => Program.throw (.http (notFound "Scenario not found"))
  | some existing =>
    askScenarios (.delete user.clientId id)
    askScenarios (.auditAppend (scenarioAudit user "scenario.deleted"
      s!"Red-team scenario deleted: {existing.name}" existing.id
      [("category", .str existing.category.name), ("version", .num existing.version)]))
    return existing.id

/-- The scenario with a written authorization for its version. -/
def authorizedScenario (existing : RedTeamScenario) (user : AuthenticatedUser)
    (body : AuthorizeScenarioBody) (now : IsoDateTime) : RedTeamScenario :=
  { existing with
    liveAuthorizedById := some user.id
    liveAuthorizationReference := some body.authorizationReference
    liveAuthorizedAt := some now
    liveAuthorizedForVersion := some existing.version }

/-- `POST /scenarios/:id/authorize`. -/
def authorizeScenario (session : Session) (id : Except (List JsValue) EntityId)
    (body : Except (List JsValue) AuthorizeScenarioBody) : ScenarioProgram RedTeamScenario := do
  let user ← Program.ofExcept (guardApprover deps session)
  let id ← Program.ofExcept (parsed "path parameters" id)
  match ← askScenarios (.get user.clientId id) with
  | none => Program.throw (.http (notFound "Scenario not found"))
  | some existing =>
    let body ← Program.ofExcept (parseBody body)
    let m ← Program.get
    let saved ← askScenarios (.update user.clientId (authorizedScenario existing user body m.now))
    askScenarios (.auditAppend (scenarioAudit user "scenario.authorized"
      (s!"Written live-run authorization recorded for scenario \"{saved.name}\" " ++
        s!"(v{saved.version}) by approver {user.id}") saved.id
      [targetHost deps saved, ("version", .num saved.version),
        ("authorizationReference",
          (saved.liveAuthorizationReference.map JsValue.str).getD .undefined)]))
    return saved

/-- `writtenAuthorizationGapReason` of the route. -/
def writtenAuthorizationGapReason (s : RedTeamScenario) : String :=
  let authorizedFor := (s.liveAuthorizedForVersion.map toString).getD "?"
  if s.liveAuthorizedById.all (· = "") ∨ s.liveAuthorizedAt = none then
    "This scenario has never been authorized for live execution. An approver must call " ++
      "POST /scenarios/:id/authorize with a written authorizationReference " ++
      "(a ticket number or signed agreement reference) before it can run for real."
  else if s.liveAuthorizedForVersion ≠ some s.version then
    s!"This scenario was authorized for version {authorizedFor}, but it is now version {s.version} " ++
      "(edited since authorization). An approver must re-authorize this exact version via " ++
      "POST /scenarios/:id/authorize before it can run for real."
  else
    "This scenario's written authorization is incomplete (missing an authorization reference). " ++
      "An approver must authorize it via POST /scenarios/:id/authorize before it can run for real."

/-- `POST /scenarios/:id/run`; the body is the target override, if there is one. -/
def postScenarioRun (session : Session) (id : Except (List JsValue) EntityId)
    (body : Except (List JsValue) (Option String)) :
    ScenarioProgram (ScenarioRunResult × String) := do
  let user ← Program.ofExcept (guardApprover deps session)
  let id ← Program.ofExcept (parsed "path parameters" id)
  match ← askScenarios (.get user.clientId id) with
  | none => Program.throw (.http (notFound "Scenario not found"))
  | some scenario =>
    if scenario.enabled = false then
      Program.throw (.http (forbidden "Scenario is disabled — enable it before running"))
    else if deps.config.productionBlocked = false then
      Program.throw (.http (forbidden "Production DAST is blocked by policy"))
    else if deps.config.killSwitchEnabled = false then
      Program.throw (.http (forbidden "DAST kill switch must be enabled by policy"))
    else if hasLiveRunAuthorization scenario = false then
      let reason := writtenAuthorizationGapReason scenario
      askScenarios (.auditAppend (scenarioAudit user "scenario.live_run_rejected"
        s!"Red-team scenario run refused (no valid written authorization): {scenario.name}" scenario.id
        [("category", .str scenario.category.name), targetHost deps scenario,
          ("version", .num scenario.version),
          ("liveAuthorizedForVersion",
            (scenario.liveAuthorizedForVersion.map fun v => JsValue.num v).getD .null),
          ("reason", .str reason)]))
      Program.throw (.http (forbidden reason))
    else
      let target ← Program.ofExcept (parseBody body)
      let result ← (runScenario deps.parseUrl deps.config none false scenario true target).lift probing
      askScenarios (.auditAppend (scenarioAudit user "scenario.run"
        s!"Red-team scenario authorized to run against allowlisted target: {scenario.name}" scenario.id
        [("category", .str scenario.category.name),
          ("targetHost", .str (hostOf deps.parseUrl result.target)),
          ("stepCount", .num scenario.steps.length), ("probed", .bool result.probed),
          ("blocked", .bool result.blocked), ("requestsSent", .num result.requestsSent),
          ("mutatingSent", .num result.mutatingSent)]))
      let requestedAt := (← Program.get).now
      let jobId ← askScenarios (.enqueue
        { scenarioId := scenario.id, clientId := user.clientId, requestedById := user.id, requestedAt })
      askScenarios (.auditAppend (scenarioAudit user "scenario.live_run_enqueued"
        s!"Real worker-side execution enqueued for scenario \"{scenario.name}\" (job {jobId})" scenario.id
        [("jobId", .str jobId), targetHost deps scenario, ("version", .num scenario.version),
          ("authorizedById", (scenario.liveAuthorizedById.map JsValue.str).getD .undefined),
          ("authorizationReference",
            (scenario.liveAuthorizationReference.map JsValue.str).getD .undefined)]))
      return (result, jobId)

end MontrSecure
