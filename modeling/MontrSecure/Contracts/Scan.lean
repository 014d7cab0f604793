import MontrSecure.Contracts.Basic

/-!
# Configuration and scans

The parts of `MontrConfigSchema` (`packages/config/src/schema.ts`) the pipeline reads, with their
defaults.
-/

namespace MontrSecure

/-- `BudgetConfigSchema`. -/
structure BudgetConfig where
  maxUsdPerScan : Option ℚ := none
  maxTokensPerScan : Option ℕ := none
  enforcement : BudgetEnforcement := .hardHalt
  requireEstimateApproval : Bool := true
  warnThresholdPct : ℚ := 4 / 5

/-- `AutoFixConfigSchema`. -/
structure AutoFixConfig where
  enabled : Bool := false
  allowedRiskClasses : List RiskClass := [.autoEligible]

/-- `DastConfigSchema`. -/
structure DastConfig where
  enabled : Bool := false
  /-- Explicit staging targets. Empty: nothing may be probed. -/
  allowlist : List String := []
  requireApprover : Bool := true

/-- `DastScopeContractSchema`. -/
structure DastScopeContract where
  maxRequestsPerScan : ℕ := 500
  maxConcurrentRequests : ℕ := 2
  maxRequestsPerSecond : ℚ := 5
  maxMutatingRequests : ℕ := 0

/-- `RbacConfigSchema`. -/
structure RbacConfig where
  approverRequiredForGate : Bool := true

/-- `MontrConfigSchema`. -/
structure MontrConfig where
  clientId : ClientId
  budget : BudgetConfig := {}
  autoFix : AutoFixConfig := {}
  dast : DastConfig := {}
  rbac : RbacConfig := {}

/-- The configuration with the parts of `dast` that only live probing reads. -/
structure LiveConfig extends MontrConfig where
  scope : DastScopeContract := {}
  /-- Production is blocked by policy. -/
  productionBlocked : Bool := true
  killSwitchEnabled : Bool := true

end MontrSecure

/-!
## Scans and their checkpoint

`ScanSchema`, `ResumeTokenSchema`, the kill signal and the job data of `packages/contracts`.
-/

namespace MontrSecure

/-- `ScanScopeSchema`: what a scan covers. -/
structure ScanScope where
  mode : ScanMode
  includePaths : List String := []
  excludePaths : List String := []
  changedFiles : List String := []
  reachableFromChanges : Bool := false
  routeCount : Option ℕ := none
  fileCount : Option ℕ := none
  /-- The client-authorized staging URL for live DAST. -/
  stagingUrl : Option String := none
  deriving DecidableEq

/-- `ScanSchema`. -/
structure Scan where
  id : ScanId
  clientId : ClientId
  appMapId : Option EntityId := none
  repo : String
  branch : String
  commitSha : Option String := none
  mode : ScanMode
  scope : ScanScope
  status : ScanStatus := .queued
  gateState : GateState := .notStarted
  operator : EntityId
  approver : Option EntityId := none
  budgetPolicy : Option BudgetPolicy := none
  costEstimate : Option CostEstimate := none
  costActual : Option CostActual := none
  startedAt : Option IsoDateTime := none
  finishedAt : Option IsoDateTime := none
  createdAt : IsoDateTime

/-- The checks of `ScanSchema` on the strings it constrains. -/
def Scan.schemaOk (s : Scan) : Bool :=
  s.id ≠ "" && s.clientId ≠ "" && s.repo ≠ "" && s.branch ≠ "" && s.operator ≠ ""

/-- `ResumeTokenSchema`: the checkpoint of a scan. -/
structure ResumeToken where
  id : Option EntityId := none
  scanId : ScanId
  completedLayers : List LayerId := []
  lastCompletedLayer : Option LayerId := none
  checkpointRef : Option String := none
  updatedAt : IsoDateTime

/-- Whom a kill signal stops. -/
inductive KillScope where
  | scan
  | global
  deriving DecidableEq

/-- `KillSwitchSignalSchema`. -/
structure KillSwitchSignal where
  scope : KillScope
  scanId : Option ScanId := none
  reason : String
  requestedBy : EntityId
  requestedByRole : Option Role := none
  at_ : IsoDateTime
  deriving DecidableEq

/-! ## Jobs -/

/-- What the job of each layer carries besides the fields all jobs share. -/
inductive LayerPayload where
  | layer0 (repo branch : String) (mode : ScanMode) (scope : ScanScope)
  | layer1 (appMapId : EntityId)
  | layer2
  /-- `allowLive` lets Layer 3 probe the staging target. -/
  | layer3 (allowLive : Bool) (stagingUrl : Option String)
  | layer4
  /-- `autoApply` lets Layer 5 open pull requests. -/
  | layer5 (autoApply : Bool)
  deriving DecidableEq

/-- The layer a payload is for. -/
def LayerPayload.layer : LayerPayload → LayerId
  | layer0 .. => .layer0
  | layer1 _ => .layer1
  | layer2 => .layer2
  | layer3 .. => .layer3
  | layer4 => .layer4
  | layer5 _ => .layer5

/-- `LayerJobDataSchema`. -/
structure LayerJobData where
  scanId : ScanId
  clientId : ClientId
  idempotencyKey : String
  attempt : ℕ
  resumeTokenRef : Option EntityId
  payload : LayerPayload
  deriving DecidableEq

namespace LayerJobData

/-- The layer of a job. -/
def layer (job : LayerJobData) : LayerId := job.payload.layer

/-- The `autoApply` bit, which only Layer 5 jobs have. -/
def autoApply (job : LayerJobData) : Option Bool :=
  match job.payload with
  | .layer5 b => some b
  | _ => none

/-- The checks of `LayerJobDataSchema` on the strings it constrains. -/
def schemaOk (job : LayerJobData) : Bool :=
  job.scanId ≠ "" && job.clientId ≠ "" && job.idempotencyKey ≠ "" &&
    job.resumeTokenRef ≠ some "" &&
    match job.payload with
    | .layer0 repo branch _ _ => repo ≠ "" && branch ≠ ""
    | .layer1 appMapId => appMapId ≠ ""
    | _ => true

end LayerJobData

/-- `buildIdempotencyKey`. -/
def buildIdempotencyKey (scanId : ScanId) (layer : LayerId) (discriminator : String := "0") :
    String :=
  scanId ++ ":" ++ layer.name ++ ":" ++ discriminator

/-- How long to wait before a retry. -/
inductive BackoffType where
  | exponential
  | fixed
  deriving DecidableEq

/-- `RetryPolicy`; `removeOnComplete` is how many completed jobs a queue retains. -/
structure RetryPolicy where
  attempts : ℕ
  backoffType : BackoffType
  backoffDelay : ℕ
  removeOnComplete : Option ℕ := none

/-- `RETRY_POLICIES`. -/
def retryPolicies : LayerId → RetryPolicy
  | .layer3 =>
    { attempts := 2, backoffType := .fixed, backoffDelay := 5000, removeOnComplete := some 100 }
  | _ =>
    { attempts := 3, backoffType := .exponential, backoffDelay := 2000,
      removeOnComplete := some 100 }

/-! ## Events -/

/-- The gates a run can wait at. -/
inductive Gate where
  | estimate
  | fix
  deriving DecidableEq

/-- `PipelineEventSchema`. -/
inductive PipelineEvent where
  | scanStarted (scanId : ScanId) (at_ : IsoDateTime)
  | layerStarted (scanId : ScanId) (layer : LayerId) (at_ : IsoDateTime)
  | layerCompleted (scanId : ScanId) (layer : LayerId) (at_ : IsoDateTime)
  | gateRequired (scanId : ScanId) (gate : Gate) (at_ : IsoDateTime)
  | budgetWarning (scanId : ScanId) (spentUsd : ℚ) (ceilingUsd : Option ℚ) (at_ : IsoDateTime)
  | budgetExceeded (scanId : ScanId) (spentUsd : ℚ) (ceilingUsd : Option ℚ) (at_ : IsoDateTime)
  | killed (scanId : ScanId) (reason : String) (at_ : IsoDateTime)
  | failed (scanId : ScanId) (layer : LayerId) (error : ErrorEnvelope) (at_ : IsoDateTime)
  | resumed (scanId : ScanId) (fromLayer : LayerId) (at_ : IsoDateTime)
  | scanCompleted (scanId : ScanId) (partialReport : Bool) (at_ : IsoDateTime)

/-! ## Audit -/

/-- Who did it. -/
inductive ActorType where
  | user
  | agent
  | system
  deriving DecidableEq

/-- `AuditActorSchema`. -/
structure AuditActor where
  type : ActorType
  id : EntityId
  role : Option Role := none

/-- The audited actions of the orchestrator and of the DAST routes. -/
inductive AuditAction where
  | scanCreated
  | scanStarted
  | scanPaused
  | scanResumed
  | scanCancelled
  | scanCompleted
  | scanFailed
  | gateEstimatePresented
  | gateEstimateApproved
  | gateFixApproved
  | appmapBuilt
  | dastAuthorized
  | dastKillSwitch
  | budgetWarning
  | budgetExceeded
  deriving DecidableEq

/-- `AuditEventInputSchema`. -/
structure AuditEventInput where
  clientId : ClientId
  scanId : Option ScanId := none
  action : AuditAction
  actor : AuditActor
  targetType : Option String := none
  targetId : Option EntityId := none
  summary : String
  metadata : List (String × Json) := []

end MontrSecure
