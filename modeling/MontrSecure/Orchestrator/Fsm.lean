import MontrSecure.Contracts.Scan
import MontrSecure.Contracts.Layers

/-!
# Pipeline state machine

The pure decisions of `packages/orchestrator/src/fsm.ts`: the order of the layers, the terminal
statuses, the budget in effect, and the gates.
-/

namespace MontrSecure

/-! ## Layers -/

/-- `LAYER_ORDER`. -/
def layerOrder : List LayerId := [.layer0, .layer1, .layer2, .layer3, .layer4, .layer5]

/-- `nextLayer`: the first layer that is not completed. -/
def nextLayer (completed : List LayerId) : Option LayerId :=
  layerOrder.find? fun layer => layer ∉ completed

/-- `layerAfter`: the layer that follows, if there is one. -/
def layerAfter (layer : LayerId) : Option LayerId :=
  let idx := layerOrder.idxOf layer
  if idx ≥ layerOrder.length - 1 then none else layerOrder[idx + 1]?

/-- A layer that is next has not been completed. -/
theorem not_mem_of_nextLayer {completed : List LayerId} {layer : LayerId}
    (h : nextLayer completed = some layer) : layer ∉ completed := by
  simpa using List.find?_some h

/-- The layers before the next one have been completed. -/
theorem mem_of_nextLayer {completed : List LayerId} {layer : LayerId}
    (h : nextLayer completed = some layer) {earlier : LayerId}
    (hlt : layerOrder.idxOf earlier < layerOrder.idxOf layer) : earlier ∈ completed := by
  by_contra hmem
  cases earlier <;> cases layer <;>
    simp_all [nextLayer, layerOrder, List.find?_cons, List.idxOf_cons] <;> grind

example : nextLayer [.layer0, .layer1] = some .layer2 := by decide +kernel

/-! ## Statuses -/

/-- `isTerminalStatus`. -/
def isTerminalStatus : ScanStatus → Bool
  | .completed | .failed | .cancelled | .partialReport => true
  | _ => false

/-! ## Budget and estimate gate -/

/-- `effectiveBudgetPolicy`: the policy of the scan, else the one of the deployment. -/
def effectiveBudgetPolicy (scan : Scan) (config : MontrConfig) : BudgetPolicy :=
  scan.budgetPolicy.getD
    { maxUsd := config.budget.maxUsdPerScan
      maxTotalTokens := config.budget.maxTokensPerScan
      enforcement := config.budget.enforcement
      requireEstimateApproval := config.budget.requireEstimateApproval
      warnThresholdPct := config.budget.warnThresholdPct }

/-- `estimateGateRequired`. -/
def estimateGateRequired (scan : Scan) (config : MontrConfig) : Bool :=
  (effectiveBudgetPolicy scan config).requireEstimateApproval

/-! ## Fix gate -/

/-- `FixGateDecision`. -/
structure FixGateDecision where
  wouldOpenPrs : Bool
  autoEligibleFixIds : List EntityId

/-- A fix passes the auto-eligible bar of the policy. -/
def isAutoEligible (config : MontrConfig) (f : Fix) : Bool :=
  f.riskClass = .autoEligible && f.riskClass ∈ config.autoFix.allowedRiskClasses

/-- `evaluateFixGate`. -/
def evaluateFixGate (fixes : List Fix) (config : MontrConfig) : FixGateDecision :=
  let autoEligible := fixes.filter (isAutoEligible config)
  { wouldOpenPrs := config.autoFix.enabled && autoEligible.length > 0
    autoEligibleFixIds := autoEligible.map (·.id) }

/-- The gate opens pull requests exactly when auto-fix is on and some fix passes the bar. -/
theorem evaluateFixGate_wouldOpenPrs_iff (fixes : List Fix) (config : MontrConfig) :
    (evaluateFixGate fixes config).wouldOpenPrs = true ↔
      config.autoFix.enabled = true ∧ ∃ f ∈ fixes, isAutoEligible config f = true := by
  simp [evaluateFixGate, List.length_pos_iff_exists_mem]

/-! ## Live DAST -/

/-- `computeAllowLive`. -/
def computeAllowLive (scan : Scan) (config : MontrConfig) : Bool :=
  config.dast.enabled &&
    match scan.scope.stagingUrl with
    | none => false
    | some url =>
      url ≠ "" && (config.dast.allowlist.any fun entry => entry.toList.isPrefixOf url.toList) &&
        (!config.dast.requireApprover || scan.approver.any (· ≠ ""))

end MontrSecure
