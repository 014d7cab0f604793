import Mathlib.Data.Rat.Defs
import Mathlib.Algebra.Order.Ring.Rat

/-!
# Shared contracts

Identifiers, enumerations, cost records and errors of `packages/contracts`. Dates are numbers: the
model only stores and copies them. Amounts of dollars are rationals.
-/

namespace MontrSecure

/-! ## Primitives -/

/-- `IdSchema`, for the ids the model does not name separately. -/
abbrev EntityId := String
/-- The id of a scan. -/
abbrev ScanId := String
/-- The id of a client (tenant). -/
abbrev ClientId := String
/-- `IsoDateTimeSchema`, as the number of milliseconds it denotes. -/
abbrev IsoDateTime := ℕ

/-- A JSON value. -/
inductive Json where
  | null
  | bool (b : Bool)
  | num (q : ℚ)
  | str (s : String)
  | arr (items : List Json)
  | obj (fields : List (String × Json))

/-- An optional value, `null` when absent. -/
def Json.ofOption {α : Type} (f : α → Json) : Option α → Json
  | none => .null
  | some a => f a

/-- `SourceLocationSchema`. -/
structure SourceLocation where
  file : String
  line : ℕ
  endLine : Option ℕ := none
  column : Option ℕ := none
  endColumn : Option ℕ := none
  symbol : Option String := none

/-! ## Enumerations -/

/-- Full scan or changed files only. -/
inductive ScanMode where
  | full
  | diff
  deriving DecidableEq

/-- Safety classification of a fix. -/
inductive RiskClass where
  | autoEligible
  | humanRequired
  deriving DecidableEq

/-- Lifecycle of a proposed fix. -/
inductive FixStatus where
  | proposed
  | prOpen
  | merged
  | rejected
  deriving DecidableEq

/-- RBAC roles. -/
inductive Role where
  | operator
  | approver
  | viewer
  deriving DecidableEq

/-- The human or automatic gate, an explicit pipeline state. -/
inductive GateState where
  | notStarted
  | estimatePending
  | estimateApproved
  | running
  | fixGatePending
  | autoApproved
  | approved
  | rejected
  | blocked
  deriving DecidableEq

/-- Execution status of a scan. -/
inductive ScanStatus where
  | queued
  | running
  | paused
  | completed
  | failed
  | cancelled
  | partialReport
  deriving DecidableEq

/-- Pipeline layers. -/
inductive LayerId where
  | layer0
  | layer1
  | layer2
  | layer3
  | layer4
  | layer5
  deriving DecidableEq

/-- The string of a layer, as it stands in keys and messages. -/
def LayerId.name : LayerId → String
  | layer0 => "layer0"
  | layer1 => "layer1"
  | layer2 => "layer2"
  | layer3 => "layer3"
  | layer4 => "layer4"
  | layer5 => "layer5"

/-- The string of a scan mode. -/
def ScanMode.name : ScanMode → String
  | full => "full"
  | diff => "diff"

/-- The string of a gate state. -/
def GateState.name : GateState → String
  | notStarted => "not_started"
  | estimatePending => "estimate_pending"
  | estimateApproved => "estimate_approved"
  | running => "running"
  | fixGatePending => "fix_gate_pending"
  | autoApproved => "auto_approved"
  | approved => "approved"
  | rejected => "rejected"
  | blocked => "blocked"

/-! ## Costs -/

/-- What happens above the budget ceiling. -/
inductive BudgetEnforcement where
  | hardHalt
  | warn
  deriving DecidableEq

/-- `TokenUsageSchema`. -/
structure TokenUsage where
  inputTokens : ℕ
  outputTokens : ℕ
  totalTokens : ℕ
  cacheReadTokens : Option ℕ := none
  cacheWriteTokens : Option ℕ := none
  deriving DecidableEq

/-- A line of a cost breakdown. -/
structure CostLineItem where
  key : String
  usage : TokenUsage
  usd : ℚ

/-- The projection presented before a scan. -/
structure CostEstimate where
  scanId : Option ScanId
  mode : ScanMode
  projectedInputTokens : ℕ
  projectedOutputTokens : ℕ
  projectedTotalTokens : ℕ
  projectedUsd : ℚ
  projectedWallClockSeconds : ℚ
  basis : String
  byLayer : List CostLineItem
  createdAt : IsoDateTime

/-- Metered actuals of a scan. -/
structure CostActual where
  scanId : ScanId
  usage : TokenUsage
  actualUsd : ℚ
  wallClockSeconds : ℚ
  byLayer : List CostLineItem
  byModel : List CostLineItem
  updatedAt : IsoDateTime

/-- The budget ceiling of a scan. -/
structure BudgetPolicy where
  maxUsd : Option ℚ := none
  maxTotalTokens : Option ℕ := none
  enforcement : BudgetEnforcement := .hardHalt
  requireEstimateApproval : Bool := true
  warnThresholdPct : ℚ := 4 / 5
  deriving DecidableEq

/-! ## Errors -/

/-- `ErrorCodeSchema`. -/
inductive ErrorCode where
  | budgetExceeded
  | egressBlocked
  | dastTargetNotAllowlisted
  | gateNotPassed
  | keyTierRejected
  | modelBelowFloor
  | killSwitchActivated
  | scanNotResumable
  | configValidation
  | providerNotConfigured
  | humanApprovalRequired
  | rateLimitExceeded
  | notImplemented
  | requiredDetectorUnavailable
  | internal
  deriving DecidableEq

/-- What a promise rejects with: a `MontrError`, or any other thrown value. -/
inductive Err where
  /-- A typed error; `retriable` is what it was constructed with. -/
  | montr (code : ErrorCode) (message : String) (retriable : Bool)
  /-- An untyped error. -/
  | other (message : String)
  deriving DecidableEq

/-- The string of an error code. -/
def ErrorCode.name : ErrorCode → String
  | budgetExceeded => "BUDGET_EXCEEDED"
  | egressBlocked => "EGRESS_BLOCKED"
  | dastTargetNotAllowlisted => "DAST_TARGET_NOT_ALLOWLISTED"
  | gateNotPassed => "GATE_NOT_PASSED"
  | keyTierRejected => "KEY_TIER_REJECTED"
  | modelBelowFloor => "MODEL_BELOW_FLOOR"
  | killSwitchActivated => "KILL_SWITCH_ACTIVATED"
  | scanNotResumable => "SCAN_NOT_RESUMABLE"
  | configValidation => "CONFIG_VALIDATION"
  | providerNotConfigured => "PROVIDER_NOT_CONFIGURED"
  | humanApprovalRequired => "HUMAN_APPROVAL_REQUIRED"
  | rateLimitExceeded => "RATE_LIMIT_EXCEEDED"
  | notImplemented => "NOT_IMPLEMENTED"
  | requiredDetectorUnavailable => "REQUIRED_DETECTOR_UNAVAILABLE"
  | internal => "INTERNAL"

namespace Err

/-- `KillSwitchActivatedError`. -/
def killSwitchActivated (message : String) : Err := .montr .killSwitchActivated message false
/-- `ScanNotResumableError`. -/
def scanNotResumable (message : String) : Err := .montr .scanNotResumable message false
/-- `DastTargetNotAllowlistedError`. -/
def dastTargetNotAllowlisted (message : String) : Err :=
  .montr .dastTargetNotAllowlisted message false
/-- `BudgetExceededError`. -/
def budgetExceeded (message : String) : Err := .montr .budgetExceeded message false
/-- A plain `MontrError("INTERNAL", message)`. -/
def internal (message : String) : Err := .montr .internal message false

/-- `errorCode`: the code of a typed error, `INTERNAL` for any other. -/
def code : Err → ErrorCode
  | montr c _ _ => c
  | other _ => .internal

end Err

/-- The serialized form of an error. -/
structure ErrorEnvelope where
  code : ErrorCode
  message : String
  retriable : Bool

/-- `toEnvelope`: an untyped error becomes `INTERNAL` and is not retriable. -/
def toEnvelope : Err → ErrorEnvelope
  | .montr c message retriable => { code := c, message, retriable }
  | .other message => { code := .internal, message, retriable := false }

end MontrSecure
