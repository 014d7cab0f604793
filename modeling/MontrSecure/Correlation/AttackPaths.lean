import MontrSecure.Confirm.Scenarios
import MontrSecure.Correlation.Taxonomy
import MontrSecure.Correlation.Scoring
import MontrSecure.Graph.Chains
import Mathlib.Data.List.Sort

/-!
# Attack paths

`packages/correlation/src/attack-paths`: the conditions under which one confirmed finding leads to another,
the graph they make, the enumeration of its maximal chains, and the ranking of what was found.
-/

namespace MontrSecure

/-! ## Routes -/

/-- `resolveRoutes`: the nearest route in the file of each finding, by the id of the finding. -/
def resolveRoutes (appMap : AppMap) (findings : List ConfirmedFinding) (id : EntityId) : Option Route :=
  (findings.reverse.find? (·.id = id)).bind fun f =>
    pickNearestRoute
      (appMap.routes.filter fun r => r.handler.any fun h => h.file ≠ "" && h.file = f.location.file)
      f.location.line

/-! ## Credentials -/

/-- `CREDENTIAL_FIELD_PATTERN`, by the names it matches in lower case. -/
def credentialFields : List String :=
  ["password", "passwd", "pwd", "secret", "token", "api_key", "api-key", "apikey", "credential",
    "private_key", "private-key", "privatekey", "access_key", "access-key", "accesskey", "refresh_token",
    "refresh-token", "refreshtoken", "session_id", "session-id", "sessionid", "auth_token", "auth-token",
    "authtoken"]

/-- `modelHasCredentialField`. -/
def modelHasCredentialField (appMap : AppMap) (modelName : String) : Bool :=
  (appMap.ormModels.find? (·.name = modelName)).any fun m =>
    m.fields.any fun f => f.name.map Char.toLower ∈ credentialFields

/-- `routeLeaksCredentials`. -/
def routeLeaksCredentials (appMap : AppMap) (route : Option Route) : Bool :=
  (route.bind (·.referencedModels)).any fun refs =>
    refs.any fun ref => .read ∈ ref.operations && modelHasCredentialField appMap ref.modelName

/-! ## Conditions -/

/-- `ChainConditionKind`. -/
inductive ChainConditionKind where
  | rcePostExploitation
  | idorCredentialLeak
  | ssrfInternalPivot
  deriving DecidableEq

/-- `ChainCondition`. -/
structure ChainCondition where
  kind : ChainConditionKind
  strength : ℚ
  note : String

/-- `RCE_CATEGORIES`. -/
def rceCategories : List Category := [.commandInjection, .insecureDeserialization]

/-- `ACCESS_CATEGORIES`. -/
def accessCategories : List Category :=
  [.brokenAccessControl, .brokenAuthentication, .idor, .massAssignment]

/-- `requiresMoreThanPublicAccess`. -/
def requiresMoreThanPublicAccess (route : Option Route) (fallbackExposure : Exposure) : Bool :=
  match route with
  | some route => route.authState ≠ .public_
  | none => fallbackExposure ≠ .public_

/-- An id that is given. -/
def Route.givenId (r : Route) : Option EntityId := r.id.filter (· ≠ "")

/-- `sameRoute`. -/
def sameRoute (f₁ f₂ : ConfirmedFinding) (r₁ r₂ : Option Route) : Bool :=
  match r₁, r₂ with
  | some r₁, some r₂ =>
    match r₁.givenId, r₂.givenId with
    | some id₁, some id₂ => id₁ = id₂
    | _, _ => r₁.path = r₂.path && r₁.method = r₂.method
  | none, none => f₁.location.file = f₂.location.file
  | _, _ => false

/-- `hasHttpClientSinkNearby`. -/
def hasHttpClientSinkNearby (appMap : AppMap) (f : ConfirmedFinding) : Bool :=
  appMap.taintSinks.any fun sink => sink.kind = .httpClient && sink.location.file = f.location.file

section Conditions

variable (appMap : AppMap) (f₁ f₂ : ConfirmedFinding) (route₁ route₂ : Option Route)

/-- The conditions that connect two findings. -/
def chainConditions : List ChainCondition :=
  (if f₁.category ∈ rceCategories then
    [{ kind := .rcePostExploitation, strength := 19 / 20
       note := s!"{f₁.title} grants arbitrary code execution on the host — every other confirmed finding " ++
        s!"on this target, including \"{f₂.title}\", is reachable post-exploitation." }]
  else []) ++
  (if f₁.category ∈ accessCategories ∧ sameRoute f₁ f₂ route₁ route₂ = false ∧
      routeLeaksCredentials appMap route₁ = true ∧
        requiresMoreThanPublicAccess route₂ f₂.exposure = true then
    [{ kind := .idorCredentialLeak, strength := 3 / 5
       note := s!"{f₁.title} exposes a model with a credential-shaped field via its route -> ORM fan-out; " ++
        s!"the leaked credential can plausibly satisfy the auth gate on \"{f₂.title}\"'s route." }]
  else []) ++
  if f₁.category = .ssrf ∧ sameRoute f₁ f₂ route₁ route₂ = false ∧
      requiresMoreThanPublicAccess route₂ f₂.exposure = true then
    [{ kind := .ssrfInternalPivot
       strength := if hasHttpClientSinkNearby appMap f₁ then 11 / 20 else 9 / 20
       note := s!"{f₁.title} lets an attacker redirect server-side requests; \"{f₂.title}\"'s route is not " ++
        "directly public, consistent with being reachable only from the internal network space the SSRF " ++
        "can pivot into." }]
  else []

/-- `evaluateChainCondition`: the strongest condition. -/
def evaluateChainCondition : Option ChainCondition :=
  ((chainConditions appMap f₁ f₂ route₁ route₂).insertionSort fun a b => b.strength ≤ a.strength).head?

end Conditions

/-! ## Feasibility -/

/-- `findingConfidence`. -/
def findingConfidence (f : ConfirmedFinding) : ℚ :=
  match f.proofType with
  | .static => 7 / 10
  | .live => 1

/-- `computeFeasibility`. -/
def computeFeasibility (findings : List ConfirmedFinding) (conditions : List ChainCondition) : ℚ :=
  round3 (clamp01 ((findings.map findingConfidence).prod * (conditions.map (·.strength)).prod))

/-! ## Narratives -/

/-- `describeEntry`. -/
def describeEntry (f : ConfirmedFinding) (route : Option Route) : String :=
  match route with
  | some route =>
    let who :=
      match route.authState with
      | .public_ => "An unauthenticated attacker"
      | .authenticated => "An attacker with authenticated access"
      | .roleGated => "An attacker with role gated access"
      | .unknown => "An attacker with unknown access"
    s!"{who} can exploit {f.title} at {Confirm.methodName route.method} {route.path}"
  | none => s!"An attacker can exploit {f.title} at {f.location.file}:{f.location.line}"

/-- `describeHop`. -/
def describeHop (f : ConfirmedFinding) (route : Option Route) : String :=
  match route with
  | some route => s!"{f.title} ({Confirm.methodName route.method} {route.path})"
  | none => s!"{f.title} ({f.location.file}:{f.location.line})"

/-- `describeTransition`. -/
def describeTransition (condition : Option ChainCondition) (f : ConfirmedFinding) (route : Option Route) :
    String :=
  match condition.map ChainCondition.kind with
  | some .rcePostExploitation =>
    s!"achieving arbitrary code execution, which then makes {describeHop f route} trivially reachable"
  | some .idorCredentialLeak => s!"leaking credentials that grant access to {describeHop f route}"
  | some .ssrfInternalPivot =>
    s!"pivoting server-side to reach the internal-only surface at {describeHop f route}"
  | none => s!"reaching {describeHop f route}"

/-- `buildNarrative`, of the hops with their routes. -/
def buildNarrative (hops : List (ConfirmedFinding × Option Route)) (conditions : List ChainCondition) :
    String :=
  match hops with
  | [] => "."
  | (f, route) :: rest =>
    let parts := describeEntry f route ::
      rest.mapIdx fun i hop => describeTransition conditions[i]? hop.1 hop.2
    ", ".intercalate parts ++ "."

/-! ## Candidates -/

/-- `AttackPathStep`. -/
structure AttackPathStep where
  findingId : EntityId
  note : Option String := none

/-- `AttackPath`. -/
structure AttackPath where
  id : EntityId
  clientId : ClientId
  scanId : ScanId
  steps : List AttackPathStep
  feasibilityScore : ℚ
  severity : Severity
  narrative : String
  createdAt : IsoDateTime

/-- `AttackPathCandidate`. -/
structure AttackPathCandidate where
  attackPath : AttackPath
  findings : List ConfirmedFinding
  routes : List (Option Route)
  conditions : List ChainCondition

/-- `BuildAttackPathsInput`; `now` is what the clock reads. -/
structure BuildAttackPathsInput where
  clientId : ClientId
  scanId : ScanId
  appMap : AppMap
  findings : List ConfirmedFinding
  now : IsoDateTime
  maxChainLength : Option ℤ := none
  maxPaths : Option ℤ := none

/-- `DEFAULT_MAX_CHAIN_LENGTH`. -/
def defaultMaxChainLength : ℤ := 5

/-- `DEFAULT_MAX_PATHS`. -/
def defaultMaxPaths : ℤ := 50

/-- `MAX_RAW_PATHS`. -/
def maxRawPaths : ℕ := 5000

/-- `pathSeverity`. -/
def pathSeverity (findings : List ConfirmedFinding) (conditions : List ChainCondition) : Severity :=
  let best := findings.foldl
    (fun best f => if severityWeight best < severityWeight f.severity then f.severity else best) .info
  if conditions.any (·.kind = .rcePostExploitation) then .critical else best

/-- `makePathId`. -/
def makePathId (scanId : ScanId) (findingIds : List EntityId) : EntityId :=
  "ap_" ++ fnv1a (scanId ++ "|" ++ ">".intercalate findingIds)

/-- `array.slice(0, n)`. -/
def sliceTo {α : Type} (n : ℤ) (l : List α) : List α :=
  l.take (if 0 ≤ n then n else l.length + n).toNat

namespace BuildAttackPathsInput

variable (input : BuildAttackPathsInput)

/-- The edge from a finding to another, if there is one. -/
def edge (i j : ℕ) : Option (ChainGraph.Edge ChainCondition) :=
  if i = j then none
  else
    input.findings[i]?.bind fun f₁ => input.findings[j]?.bind fun f₂ =>
      (evaluateChainCondition input.appMap f₁ f₂ (resolveRoutes input.appMap input.findings f₁.id)
        (resolveRoutes input.appMap input.findings f₂.id)).map fun condition =>
          { target := j, label := condition }

/-- The edges out of a finding: `adjacency[i]` of `buildAdjacency`. -/
def edges (i : ℕ) : List (ChainGraph.Edge ChainCondition) :=
  (List.range input.findings.length).filterMap (input.edge i)

/-- The longest chain there may be. -/
def chainLimit : ℤ := input.maxChainLength.getD defaultMaxChainLength

/-- `enumerateMaximalPaths`. -/
def enumerateMaximalPaths : List (ChainGraph.Chain ChainCondition) :=
  (List.range input.findings.length).foldl
    (fun out start => ChainGraph.search input.edges input.chainLimit maxRawPaths input.findings.length
      (ChainGraph.Chain.start start) out)
    []

/-- The candidate of a chain. -/
def candidate (chain : ChainGraph.Chain ChainCondition) : AttackPathCandidate :=
  let pathFindings := chain.nodes.filterMap fun i => input.findings[i]?
  let routes := pathFindings.map fun f => resolveRoutes input.appMap input.findings f.id
  { attackPath :=
      { id := makePathId input.scanId (pathFindings.map (·.id))
        clientId := input.clientId
        scanId := input.scanId
        steps := pathFindings.mapIdx fun i f => { findingId := f.id, note := chain.labels[i]?.map (·.note) }
        feasibilityScore := computeFeasibility pathFindings chain.labels
        severity := pathSeverity pathFindings chain.labels
        narrative := buildNarrative (pathFindings.zip routes) chain.labels
        createdAt := input.now }
    findings := pathFindings
    routes
    conditions := chain.labels }

end BuildAttackPathsInput

/-- The order of the ranking: by feasibility, then by severity. -/
def AttackPathCandidate.ranksBefore (a b : AttackPathCandidate) : Prop :=
  b.attackPath.feasibilityScore < a.attackPath.feasibilityScore ∨
    a.attackPath.feasibilityScore = b.attackPath.feasibilityScore ∧
      severityWeight b.attackPath.severity ≤ severityWeight a.attackPath.severity

instance : DecidableRel AttackPathCandidate.ranksBefore := fun _ _ => inferInstanceAs (Decidable (_ ∨ _ ∧ _))

/-- `buildAttackPathCandidates`. -/
def buildAttackPathCandidates (input : BuildAttackPathsInput) : List AttackPathCandidate :=
  if input.findings.length < 2 then []
  else
    sliceTo (input.maxPaths.getD defaultMaxPaths)
      ((input.enumerateMaximalPaths.map input.candidate).insertionSort AttackPathCandidate.ranksBefore)

end MontrSecure
