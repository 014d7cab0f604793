import MontrSecure.Orchestrator.Runtime

/-!
# Controller

`packages/orchestrator/src/controller.ts`: the lifecycle calls, the processor that runs a layer job,
and the transitions after a layer. Mutations of the scan object become new values of it; nothing
reads the object between a mutation and the write that follows it.
-/

namespace MontrSecure

open Async Action

/-! ## Audit records -/

/-- `SYSTEM_ACTOR`. -/
def systemActor : AuditActor := { type := .system, id := "orchestrator" }

/-- `userActor`. -/
def userActor (id : EntityId) (role : Role) : AuditActor := { type := .user, id, role := some role }

/-- `killActor`. -/
def killActor (signal : KillSwitchSignal) : AuditActor :=
  { type := .user, id := signal.requestedBy, role := signal.requestedByRole }

/-- `estimateMeta`. -/
def estimateMeta (scan : Scan) : List (String × Json) :=
  [("projectedUsd", .ofOption (fun e => .num e.projectedUsd) scan.costEstimate),
    ("projectedTotalTokens",
      .ofOption (fun e => .num e.projectedTotalTokens) scan.costEstimate)]

/-- An audit record about a scan. -/
def scanAudit (scan : Scan) (action : AuditAction) (actor : AuditActor) (summary : String)
    (metadata : List (String × Json)) : AuditEventInput :=
  { clientId := scan.clientId, scanId := some scan.id, action, actor, summary, metadata }

/-! ## Jobs -/

/-- `buildJob`: the job of a layer, checked against its schema. -/
def buildJob (config : MontrConfig) (scan : Scan) (layer : LayerId) (autoApply : Option Bool) :
    Except Err LayerJobData :=
  let build (payload : LayerPayload) : Except Err LayerJobData :=
    let job : LayerJobData :=
      { scanId := scan.id
        clientId := scan.clientId
        idempotencyKey := buildIdempotencyKey scan.id layer
        attempt := 0
        resumeTokenRef := some scan.id
        payload }
    if job.schemaOk then .ok job else .error (.other "ZodError")
  match layer with
  | .layer0 => build (.layer0 scan.repo scan.branch scan.mode scan.scope)
  | .layer1 =>
    match scan.appMapId with
    | none => .error (.other "ZodError")
    | some appMapId => build (.layer1 appMapId)
  | .layer2 => build .layer2
  | .layer3 => build (.layer3 (computeAllowLive scan config) scan.scope.stagingUrl)
  | .layer4 => build .layer4
  | .layer5 => build (.layer5 (autoApply.getD false))

/-- Enqueue the job of a layer. -/
def enqueueLayer (config : MontrConfig) (scan : Scan) (layer : LayerId)
    (autoApply : Option Bool) : Action Unit := do
  let job ← ofExcept (buildJob config scan layer autoApply)
  ask (.enqueue job (retryPolicies layer))

/-- `scheduleLayer`: entering Layer 1 puts the gate into its working phase. -/
def scheduleLayer (config : MontrConfig) (scan : Scan) (layer : LayerId)
    (autoApply : Option Bool := none) : Action Unit :=
  if layer = .layer1 ∧ scan.gateState ≠ .running then do
    let _ ← store (.scansUpdate scan.clientId { scan with gateState := .running })
    enqueueLayer config { scan with gateState := .running } layer autoApply
  else enqueueLayer config scan layer autoApply

/-! ## Outcomes -/

/-- `finalizeComplete`. -/
def finalizeComplete (scan : Scan) (partialReport : Bool) : Action Unit := do
  let finishedAt ← nowIso
  let costActual ← safeActual scan.id
  let scan :=
    { scan with
      status := if partialReport then .partialReport else .completed
      finishedAt := some finishedAt
      costActual }
  let _ ← store (.scansUpdate scan.clientId scan)
  emit (.scanCompleted scan.id partialReport (← nowIso))
  safeAudit (scanAudit scan .scanCompleted systemActor
    (if partialReport then "Scan completed (partial report)." else "Scan completed.")
    [("partial", .bool partialReport), ("gateState", .str scan.gateState.name)])
  cleanup scan.id

/-- The amounts in the audit records of the budget guard. -/
def budgetMeta (check : BudgetCheck) (policy : BudgetPolicy) : List (String × Json) :=
  [("spentUsd", .num check.spentUsd), ("ceilingUsd", .ofOption .num policy.maxUsd)]

/-- The first half of `enforceBudget`: warn once. -/
def warnBudget (scan : Scan) (policy : BudgetPolicy) (check : BudgetCheck) : Action Unit := do
  if check.warn = true ∧ scan.id ∉ (← Program.get).budgetWarned then
    Program.modify fun m => { m with budgetWarned := scan.id :: m.budgetWarned }
    emit (.budgetWarning scan.id check.spentUsd policy.maxUsd (← nowIso))
    safeAudit (scanAudit scan .budgetWarning systemActor "Budget warning threshold reached."
      (budgetMeta check policy))
  else pure ()

/-- `enforceBudget`: whether the scan was hard-halted by the budget ceiling. -/
def enforceBudget (config : MontrConfig) (scan : Scan) (meter : MeterRef) : Action Bool := do
  let policy := effectiveBudgetPolicy scan config
  match ← readMeter meter with
  | none => return false
  | some meter =>
    let check := meter.checkBudget policy
    warnBudget scan policy check
    if check.exceeded then
      emit (.budgetExceeded scan.id check.spentUsd policy.maxUsd (← nowIso))
      safeAudit (scanAudit scan .budgetExceeded systemActor "Budget ceiling exceeded."
        (budgetMeta check policy))
      match policy.enforcement with
      | .hardHalt =>
        finalizeComplete { scan with gateState := .blocked } true
        return true
      | .warn => return false
    else return false

/-- `failScan`: the checkpoint stays, so that the scan can be resumed. -/
def failScan (scan : Scan) (layer : LayerId) (err : Err) : Action Unit := do
  let finishedAt ← nowIso
  let costActual ← safeActual scan.id
  let scan := { scan with status := .failed, finishedAt := some finishedAt, costActual }
  let _ ← store (.scansUpdate scan.clientId scan)
  emit (.failed scan.id layer (toEnvelope err) (← nowIso))
  safeAudit (scanAudit scan .scanFailed systemActor
    s!"Layer {layer.name} failed: {err.code.name}"
    [("layer", .str layer.name), ("code", .str err.code.name)])

/-- The write of `blockKilled`: a scan that is over keeps its row. -/
def blockRow (scan : Scan) (at_ : IsoDateTime) : Action Unit :=
  if isTerminalStatus scan.status then pure ()
  else do
    let costActual ← safeActual scan.id
    let _ ← store (.scansUpdate scan.clientId
      { scan with
        status := .cancelled, gateState := .blocked, finishedAt := some at_, costActual })
    pure ()

/-- `blockKilled`. -/
def blockKilled (config : MontrConfig) (scanId : ScanId) (signal : KillSwitchSignal)
    (at_ : IsoDateTime) : Action Unit := do
  let clientId ← resolveClientId config scanId
  match ← store (.scansGet clientId scanId) with
  | none => pure ()
  | some scan =>
    setScanClient scanId scan.clientId
    blockRow scan at_
    emit (.killed scanId signal.reason at_)
    safeAudit
      { clientId := scan.clientId, scanId := some scanId, action := .dastKillSwitch
        actor := killActor signal, summary := s!"Kill switch halted scan: {signal.reason}"
        metadata := [("scope",
          .str (match signal.scope with | .scan => "scan" | .global => "global"))] }
    safeAudit
      { clientId := scan.clientId, scanId := some scanId, action := .scanCancelled
        actor := killActor signal, summary := "Scan halted by kill switch.", metadata := [] }
    cleanup scanId

/-- The loop over the scans of a global kill. -/
def blockAllKilled (config : MontrConfig) (signal : KillSwitchSignal) (at_ : IsoDateTime) :
    List ScanId → Action Unit
  | [] => pure ()
  | scanId :: scanIds => do
    blockKilled config scanId signal at_
    blockAllKilled config signal at_ scanIds

/-! ## Lifecycle calls -/

/-- `CreateScanInput`. -/
structure CreateScanInput where
  clientId : ClientId
  repo : String
  branch : String
  mode : ScanMode
  scope : ScanScope
  operator : EntityId
  budgetPolicy : Option BudgetPolicy := none

/-- The scan `createScan` makes. -/
def newScan (input : CreateScanInput) (id : ScanId) (now : IsoDateTime) : Scan :=
  { id
    clientId := input.clientId
    repo := input.repo
    branch := input.branch
    mode := input.mode
    scope := input.scope
    status := .queued
    gateState := .notStarted
    operator := input.operator
    budgetPolicy := input.budgetPolicy
    createdAt := now }

/-- `createScan`, with the id `ids()` gives. -/
def createScan (input : CreateScanInput) (id : ScanId) : Action Unit := do
  let scan := newScan input id (← nowIso)
  if scan.schemaOk then
    let _ ← store (.scansCreate input.clientId scan)
    setScanClient scan.id input.clientId
    safeAudit (scanAudit scan .scanCreated (userActor input.operator .operator) "Scan created."
      [("repo", .str scan.repo), ("branch", .str scan.branch), ("mode", .str scan.mode.name)])
  else Program.throw (.other "ZodError")

/-- `start`. -/
def start (config : MontrConfig) (scanId : ScanId) : Action Unit := do
  let scan ← load config scanId
  if scan.status ≠ .queued then pure ()
  else if (← Program.get).kills.isGlobalKilled then
    Program.throw (.killSwitchActivated "global kill switch active")
  else
    register scanId
    call ensureSchedulerStarted
    let startedAt ← nowIso
    let scan := { scan with status := .running, startedAt := some startedAt }
    let _ ← store (.scansUpdate scan.clientId scan)
    let updatedAt ← nowIso
    let _ ← store (.resumeSave scan.clientId
      { scanId, completedLayers := [], checkpointRef := some scanId, updatedAt })
    emit (.scanStarted scanId (← nowIso))
    safeAudit (scanAudit scan .scanStarted (userActor scan.operator .operator) "Scan started."
      [("mode", .str scan.mode.name)])
    scheduleLayer config scan .layer0

/-- `pause`. -/
def pause (config : MontrConfig) (scanId : ScanId) : Action Unit := do
  let scan ← load config scanId
  if isTerminalStatus scan.status then pure ()
  else
    let scan := { scan with status := .paused }
    let _ ← store (.scansUpdate scan.clientId scan)
    safeAudit (scanAudit scan .scanPaused (userActor scan.operator .operator) "Scan paused." [])

/-- The part of `resume` after the scan is set running: where it goes on. -/
def resumeFrom (config : MontrConfig) (scan : Scan) (completed : List LayerId) : Action Unit := do
  -- Never bypass a pending gate on resume.
  if scan.gateState = .estimatePending then
    emit (.gateRequired scan.id .estimate (← nowIso))
  else if scan.gateState = .fixGatePending then
    emit (.gateRequired scan.id .fix (← nowIso))
  else
    match nextLayer completed with
    | none => finalizeComplete scan false
    | some next =>
      emit (.resumed scan.id next (← nowIso))
      scheduleLayer config scan next

/-- `resume`. -/
def resume (config : MontrConfig) (scanId : ScanId) : Action Unit := do
  let scan ← load config scanId
  if ← isKilled scanId then Program.throw (.scanNotResumable "scan was killed")
  else if scan.status = .completed ∨ scan.status = .cancelled then pure ()
  else
    let token ← store (.resumeGet scan.clientId scanId)
    let completed := (token.map (·.completedLayers)).getD []
    register scanId
    call ensureSchedulerStarted
    let scan := { scan with status := .running }
    let _ ← store (.scansUpdate scan.clientId scan)
    safeAudit (scanAudit scan .scanResumed (userActor scan.operator .operator) "Scan resumed."
      [("completedLayers", .arr (completed.map fun layer => .str layer.name))])
    resumeFrom config scan completed

/-- `cancel`. -/
def cancel (config : MontrConfig) (scanId : ScanId) : Action Unit := do
  let scan ← load config scanId
  if isTerminalStatus scan.status then pure ()
  else
    Program.modify fun m => { m with kills := m.kills.abortScan scanId "cancelled by operator" }
    let finishedAt ← nowIso
    let costActual ← safeActual scanId
    let scan :=
      { scan with
        status := .cancelled
        gateState :=
          if scan.gateState = .estimatePending ∨ scan.gateState = .fixGatePending then .rejected
          else scan.gateState
        finishedAt := some finishedAt
        costActual }
    let _ ← store (.scansUpdate scan.clientId scan)
    safeAudit
      (scanAudit scan .scanCancelled (userActor scan.operator .operator) "Scan cancelled." [])
    cleanup scanId

/-- `kill`. -/
def kill (config : MontrConfig) (signal : KillSwitchSignal) : Action Unit := do
  let at_ ← nowIso
  match signal.scope with
  | .global =>
    let ids := (← Program.get).kills.activeScanIds
    Program.modify fun m => { m with kills := m.kills.abortAll signal.reason }
    ask (.publishKill signal)
    blockAllKilled config signal at_ ids
    safeAudit
      { clientId := config.clientId, action := .dastKillSwitch, actor := killActor signal
        summary := s!"Global kill switch: {signal.reason}"
        metadata := [("scope", .str "global"), ("scanCount", .num ids.length)] }
  | .scan =>
    match signal.scanId with
    | none => Program.throw (.internal "scoped kill requires a scanId")
    | some scanId =>
      Program.modify fun m => { m with kills := m.kills.abortScan scanId signal.reason }
      ask (.publishKill signal)
      blockKilled config scanId signal at_

/-- `handleRemoteKill`. -/
def handleRemoteKill (config : MontrConfig) (signal : KillSwitchSignal) : Action Unit := do
  let at_ ← nowIso
  match signal.scope with
  | .global =>
    let ids := (← Program.get).kills.activeScanIds
    Program.modify fun m => { m with kills := m.kills.abortAll signal.reason }
    blockAllKilled config signal at_ ids
  | .scan =>
    match signal.scanId with
    | none => pure ()
    | some scanId =>
      Program.modify fun m => { m with kills := m.kills.abortScan scanId signal.reason }
      blockKilled config scanId signal at_

/-- `approveGate`. -/
def approveGate (config : MontrConfig) (scanId : ScanId) (gate : Gate) (approver : EntityId) :
    Action Unit := do
  let scan ← load config scanId
  if isTerminalStatus scan.status then pure ()
  else
    match gate with
    | .estimate =>
      if scan.gateState ≠ .estimatePending then pure ()
      else
        let scan :=
          { scan with
            approver := some approver, gateState := .estimateApproved, status := .running }
        let _ ← store (.scansUpdate scan.clientId scan)
        safeAudit (scanAudit scan .gateEstimateApproved (userActor approver .approver)
          "Cost estimate approved." (estimateMeta scan))
        scheduleLayer config scan .layer1
    | .fix =>
      if scan.gateState ≠ .fixGatePending then pure ()
      else
        let scan := { scan with approver := some approver, gateState := .approved }
        let _ ← store (.scansUpdate scan.clientId scan)
        safeAudit (scanAudit scan .gateFixApproved (userActor approver .approver)
          "Fix gate approved by approver; PRs will open for auto-eligible fixes only." [])
        scheduleLayer config scan .layer5 (some true)

/-! ## Engine -/

/-- `executeLayer`: the runner of the job's layer, retried by its policy. -/
def executeLayer (scan : Scan) (job : LayerJobData) (meter : MeterRef) (signal : SignalId) :
    Action RawOutput :=
  runWithRetry (retryPolicies job.layer) signal fun attempt => do
    let priorOutputs ← getCache job.scanId
    ask (.runLayer { scan, job, meter, signal, attempt, priorOutputs })

/-- The token `advanceResumeToken` saves. -/
def advancedToken (existing : Option ResumeToken) (scanId : ScanId) (layer : LayerId)
    (now : IsoDateTime) : ResumeToken :=
  let completed := (existing.map (·.completedLayers)).getD []
  { id := existing.bind (·.id)
    scanId
    completedLayers := layerOrder.filter fun l => l = layer ∨ l ∈ completed
    lastCompletedLayer := some layer
    checkpointRef := some scanId
    updatedAt := now }

/-- `advanceResumeToken`. -/
def advanceResumeToken (clientId : ClientId) (scanId : ScanId) (layer : LayerId) :
    Action Unit := do
  let existing ← store (.resumeGet clientId scanId)
  let _ ← store (.resumeSave clientId (advancedToken existing scanId layer (← nowIso)))
  pure ()

/-- `auditLayer`. -/
def auditLayer (scan : Scan) (layer : LayerId) : Action Unit :=
  if layer = .layer0 then
    safeAudit
      { scanAudit scan .appmapBuilt systemActor "App Map built and persisted."
          [("routeCount", .ofOption (fun n => .num n) scan.scope.routeCount),
            ("fileCount", .ofOption (fun n => .num n) scan.scope.fileCount)] with
        targetType := some "AppMap", targetId := scan.appMapId }
  else pure ()

/-- The transition after Layer 0: the estimate gate before any expensive work. -/
def advanceAfterIntake (config : MontrConfig) (scan : Scan) : Action Unit :=
  if estimateGateRequired scan config then do
    let scan := { scan with gateState := .estimatePending }
    let _ ← store (.scansUpdate scan.clientId scan)
    emit (.gateRequired scan.id .estimate (← nowIso))
    safeAudit (scanAudit scan .gateEstimatePresented systemActor
      "Cost estimate presented; awaiting approval before Layer 1." (estimateMeta scan))
  else do
    let scan := { scan with gateState := .estimateApproved }
    let _ ← store (.scansUpdate scan.clientId scan)
    safeAudit (scanAudit scan .gateEstimateApproved systemActor
      "Estimate approval not required by policy; proceeding to Layer 1." (estimateMeta scan))
    scheduleLayer config scan .layer1

/-- The transition after Layer 4: the fix gate. -/
def advanceAfterFixes (config : MontrConfig) (scan : Scan) : Action Unit := do
  let fixes ← store (.fixesListByScan scan.clientId scan.id)
  let decision := evaluateFixGate fixes config
  if decision.wouldOpenPrs = true ∧ config.rbac.approverRequiredForGate = true then
    let scan := { scan with gateState := .fixGatePending }
    let _ ← store (.scansUpdate scan.clientId scan)
    emit (.gateRequired scan.id .fix (← nowIso))
  else if decision.wouldOpenPrs then
    let scan := { scan with gateState := .autoApproved }
    let _ ← store (.scansUpdate scan.clientId scan)
    safeAudit (scanAudit scan .gateFixApproved systemActor
      "Auto-eligible fixes passed the bar; opening PRs."
      [("mode", .str "auto"), ("autoEligibleFixIds", .arr (decision.autoEligibleFixIds.map .str))])
    scheduleLayer config scan .layer5 (some true)
  else
    -- Report-first (auto-fix off, or nothing auto-eligible): no code change.
    let scan := { scan with gateState := .autoApproved }
    let _ ← store (.scansUpdate scan.clientId scan)
    safeAudit (scanAudit scan .gateFixApproved systemActor
      "Report-first run; fixes are recommendations, no PRs opened."
      [("mode", .str "report_only")])
    scheduleLayer config scan .layer5 (some false)

/-- `advanceAfterLayer`. -/
def advanceAfterLayer (config : MontrConfig) (scan : Scan) (layer : LayerId) : Action Unit :=
  match layer with
  | .layer0 => advanceAfterIntake config scan
  | .layer1 | .layer2 | .layer3 =>
    match layerAfter layer with
    | none => pure ()
    | some next => scheduleLayer config scan next
  | .layer4 => advanceAfterFixes config scan
  | .layer5 => finalizeComplete scan false

/-- The part of `runLayerJob` after the output is persisted and the checkpoint advanced. -/
def afterCheckpoint (config : MontrConfig) (job : LayerJobData) (scan : Scan)
    (meter : MeterRef) : Action Unit := do
  emit (.layerCompleted job.scanId job.layer (← nowIso))
  call (auditLayer scan job.layer)
  if ← call (enforceBudget config scan meter) then pure ()
  else
    -- Re-read for fresh status and gate: pause, kill or approve may have landed meanwhile.
    let fresh ← store (.scansGet job.clientId job.scanId)
    let scan := fresh.getD scan
    if ← isKilled job.scanId then pure ()
    else if scan.status = .paused ∨ isTerminalStatus scan.status = true then pure ()
    else advanceAfterLayer config scan job.layer

/-- The part of `runLayerJob` after the runner has returned. -/
def persistAndAdvance (config : MontrConfig) (job : LayerJobData) (scan : Scan)
    (meter : MeterRef) (output : RawOutput) : Action Unit := do
  let _ ← getCache job.scanId
  let (scan, failure) ← call (persistLayerOutput job.clientId job.layer output scan)
  match failure with
  | some err => failScan scan job.layer err
  | none =>
    match ← attempt (advanceResumeToken job.clientId job.scanId job.layer) with
    | .error err => failScan scan job.layer err
    | .ok () => afterCheckpoint config job scan meter

/-- `runLayerJob`, the processor of the scheduler. -/
def runLayerJob (config : MontrConfig) (job : LayerJobData) : Action Unit := do
  if ← isKilled job.scanId then pure ()
  else
    match ← store (.scansGet job.clientId job.scanId) with
    | none => pure ()
    | some scan =>
      setScanClient job.scanId scan.clientId
      if isTerminalStatus scan.status = true ∨ scan.status = .paused then pure ()
      else
        let signal ← signalFor job.scanId
        let meter ← getMeter job.scanId
        registerBudget job.scanId meter (effectiveBudgetPolicy scan config)
        emit (.layerStarted job.scanId job.layer (← nowIso))
        match ← attempt (executeLayer scan job meter signal) with
        | .error err =>
          -- The kill path has blocked the scan already.
          if (← abortReason? signal).isSome || (← isKilled job.scanId) then pure ()
          else failScan scan job.layer err
        | .ok output => persistAndAdvance config job scan meter output

end MontrSecure
