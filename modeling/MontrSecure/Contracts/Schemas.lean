import MontrSecure.Contracts.Layers
import MontrSecure.Text.Utf16

/-!
# Schemas of findings and App Maps

What the schemas of `packages/contracts/src/findings.ts`, `appmap.ts` and `threat-model.ts` check beyond the
types: ids, rules, paths and files are not empty, CWE ids and commits have their form, scores are between 0
and 1 and ranks are positive.
-/

namespace MontrSecure

open Text

/-- `CweIdSchema`: `/^CWE-\d+$/`. -/
def isCweId (s : String) : Bool :=
  let digits := (units s).drop 4
  (units s).take 4 = units "CWE-" && !digits.isEmpty &&
    digits.all fun c => unit '0' ≤ c && c ≤ unit '9'

/-- `SourceLocationSchema` accepts. -/
def SourceLocation.valid (loc : SourceLocation) : Bool := loc.file ≠ ""

/-- `CandidateFindingSchema` accepts. -/
def CandidateFinding.valid (f : CandidateFinding) : Bool :=
  f.id ≠ "" && f.scanId ≠ "" && f.clientId ≠ "" && f.ruleId ≠ "" && f.cwe.all isCweId &&
    f.location.valid

/-- `Score01Schema` accepts. -/
def score01 (q : ℚ) : Bool := 0 ≤ q && q ≤ 1

/-- `ProbableFindingSchema` accepts. -/
def ProbableFinding.valid (f : ProbableFinding) : Bool :=
  f.id ≠ "" && f.scanId ≠ "" && f.clientId ≠ "" && f.rootCauseId ≠ "" &&
    f.mergedCandidateIds.all (· ≠ "") && f.routeId.all (· ≠ "") && f.location.valid &&
    score01 f.reachabilityScore && score01 f.exposureScore && score01 f.impactScore && 0 < f.rank

/-! ## App Maps -/

/-- `CommitShaSchema`: `/^[0-9a-f]{7,64}$/i`. -/
def isCommitSha (s : String) : Bool :=
  7 ≤ (units s).length && (units s).length ≤ 64 && (units s).all fun c =>
    unit '0' ≤ c && c ≤ unit '9' || unit 'a' ≤ c && c ≤ unit 'f' || unit 'A' ≤ c && c ≤ unit 'F'

/-- `RouteSchema` accepts. -/
def Route.valid (r : Route) : Bool :=
  r.id.all (· ≠ "") && r.path ≠ "" && r.handler.all (·.valid) &&
    (r.referencedModels.getD []).all (·.modelName ≠ "")

/-- `TaintSourceSchema` accepts. -/
def TaintSource.valid (s : TaintSource) : Bool :=
  s.id.all (· ≠ "") && s.location.valid && s.routeId.all (· ≠ "")

/-- `TaintSinkSchema` accepts. -/
def TaintSink.valid (s : TaintSink) : Bool := s.id.all (· ≠ "") && s.location.valid

/-- `TaintFlowEdgeSchema` accepts. -/
def TaintFlowEdge.valid (e : TaintFlowEdge) : Bool :=
  e.sourceLocation.valid && e.throughLocation.all (·.valid) && e.sinkLocation.valid

/-- `TrustBoundarySchema` accepts. -/
def TrustBoundary.valid (b : TrustBoundary) : Bool :=
  b.name ≠ "" && b.description ≠ "" && b.stride.all (·.rationale ≠ "")

/-- `AttackSurfaceEntrySchema` accepts. -/
def AttackSurfaceEntry.valid (e : AttackSurfaceEntry) : Bool := e.rationale ≠ ""

/-- `AbuseCaseSchema` accepts. -/
def AbuseCase.valid (c : AbuseCase) : Bool := c.title ≠ "" && c.description ≠ ""

/-- `ScopeHintsSchema` accepts. -/
def ScopeHints.valid (h : ScopeHints) : Bool := h.priorityCategories.all (·.rationale ≠ "")

/-- `ThreatModelSchema` accepts. -/
def ThreatModel.valid (t : ThreatModel) : Bool :=
  t.trustBoundaries.all (·.valid) && t.attackSurface.all (·.valid) && t.abuseCases.all (·.valid) &&
    t.scopeHints.valid

/-- `AppMapSchema` accepts. -/
def AppMap.valid (m : AppMap) : Bool :=
  m.id ≠ "" && m.clientId ≠ "" && m.scanId.all (· ≠ "") && m.repo ≠ "" && m.branch ≠ "" &&
    isCommitSha m.commitSha && m.routes.all (·.valid) && m.taintSources.all (·.valid) &&
    m.taintSinks.all (·.valid) && m.taintFlows.all (·.valid) &&
    m.entrypoints.all (fun e => e.name ≠ "" && e.location.all (·.valid)) &&
    m.envSecretSurfaces.all (fun e => e.name ≠ "" && e.location.all (·.valid)) &&
    m.thirdPartyCalls.all (·.name ≠ "") && m.dataStores.all (·.name ≠ "") &&
    m.ormModels.all (·.name ≠ "") && m.threatModel.all (·.valid) &&
    m.telemetrySurfaces.all (·.routes.all (·.path ≠ ""))

end MontrSecure
