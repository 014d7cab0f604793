import MontrSecure.Contracts.Layers
import MontrSecure.CostMeter.Pricing

/-!
# Scale and intelligence

The entities of `packages/contracts/src/phase4.ts`: custom rules, red-team scenarios with their written
authorization, scan schedules and posture snapshots.
-/

namespace MontrSecure

/-! ## Custom rules -/

/-- `RuleEngineSchema`. -/
inductive RuleEngine where
  | semgrep
  | secret
  deriving DecidableEq

/-- `CustomRuleSchema`. -/
structure CustomRule where
  id : EntityId
  clientId : ClientId
  name : String
  language : String
  engine : RuleEngine
  body : String
  version : ℕ := 1
  enabled : Bool := false
  createdBy : EntityId
  createdAt : IsoDateTime

/-! ## Red-team scenarios -/

/-- `RedTeamCategorySchema`. -/
inductive RedTeamCategory where
  | accessControl
  | injection
  | authentication
  | ssrf
  | xss
  | businessLogic
  | recon
  | other
  deriving DecidableEq

/-- `RedTeamStepSchema`. -/
structure RedTeamStep where
  order : ℕ
  action : String
  method : Option HttpMethod := none
  path : Option String := none
  body : Option String := none
  expectation : Option String := none
  deriving DecidableEq

/-- `RedTeamScenarioSchema`. -/
structure RedTeamScenario where
  id : EntityId
  clientId : ClientId
  name : String
  category : RedTeamCategory
  steps : List RedTeamStep := []
  targetAllowlistRef : String
  version : ℕ := 1
  enabled : Bool := false
  createdBy : EntityId
  createdAt : IsoDateTime
  liveAuthorizedById : Option EntityId := none
  liveAuthorizationReference : Option String := none
  liveAuthorizedAt : Option IsoDateTime := none
  liveAuthorizedForVersion : Option ℕ := none
  deriving DecidableEq

/-- `reference.trim().length > 0`. -/
def hasText (reference : String) : Bool := !reference.toList.all isTrimmed

/-- `hasLiveRunAuthorization`. -/
def hasLiveRunAuthorization (scenario : RedTeamScenario) : Bool :=
  scenario.liveAuthorizedById.any (· ≠ "") && scenario.liveAuthorizedAt.isSome &&
    scenario.liveAuthorizationReference.any (fun reference => reference ≠ "" && hasText reference) &&
      scenario.liveAuthorizedForVersion = some scenario.version

/-! ## Scan schedules -/

/-- `ScanScheduleSchema`. -/
structure ScanSchedule where
  id : EntityId
  clientId : ClientId
  repo : String
  mode : ScanMode := .full
  cron : String
  budgetCeiling : ℚ
  enabled : Bool := false
  nextRunAt : Option IsoDateTime := none
  createdBy : EntityId
  createdAt : IsoDateTime
  deriving DecidableEq

/-! ## Posture -/

/-- `PostureSnapshotSchema`; the counts and the delta are kept as they are stored. -/
structure PostureSnapshot where
  id : EntityId
  clientId : ClientId
  scanId : ScanId
  repo : String
  at_ : IsoDateTime
  confirmedBySeverity : List (Severity × ℕ) := []
  total : ℕ
  delta : Option Json := none

end MontrSecure
