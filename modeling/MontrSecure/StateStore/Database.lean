import MontrSecure.Contracts.Layers
import MontrSecure.Data.Table

/-!
# The database

The tables behind `packages/state-store` that the pipeline writes: their rows, as the mappers of
`mappers.ts` build them from contract values, and their primary keys. Ids the database itself
generates are numbered.
-/

namespace MontrSecure

/-! ## Rows -/

/-- A row of `ScanState`, the checkpoint of a scan. -/
structure ScanStateRow where
  id : EntityId
  clientId : ClientId
  scanId : ScanId
  layer : LayerId
  status : ScanStatus
  completedLayers : List LayerId
  checkpointRef : Option String
  updatedAt : IsoDateTime

/-- A row of `Route`, `TaintSource` or `TaintSink`. -/
structure AppMapPartRow (α : Type) where
  id : EntityId
  appMapId : EntityId
  value : α

/-- A row of `CandidateFinding`. -/
structure CandidateRow where
  id : EntityId
  clientId : ClientId
  scanId : ScanId
  source : ToolSource
  ruleId : String
  category : Category
  cwe : List String
  file : String
  line : ℕ
  rawSeverity : Severity
  evidenceSnippet : String
  metadata : Option (List (String × Json))
  createdAt : IsoDateTime

/-- The tier of a row of `ProbableFinding`. -/
inductive ProbableStatus where
  | probable
  | unconfirmed
  deriving DecidableEq

/-- A row of `ProbableFinding`, the table probable and unconfirmed findings share. -/
structure ProbableRow where
  id : EntityId
  clientId : ClientId
  scanId : ScanId
  rootCauseId : EntityId
  category : Category
  mergedCandidateIds : List EntityId
  reachabilityHypothesis : String
  exploitHypothesis : String
  exposure : Exposure
  authGate : Option String
  routeId : Option EntityId
  file : String
  line : ℕ
  reachabilityScore : ℚ
  exposureScore : ℚ
  impactScore : ℚ
  rank : ℕ
  status : ProbableStatus
  unconfirmedReason : Option String
  createdAt : IsoDateTime

/-- A row of `ConfirmedFinding`. -/
structure ConfirmedRow where
  id : EntityId
  clientId : ClientId
  scanId : ScanId
  probableId : Option EntityId
  title : String
  category : Category
  cwe : List String
  owasp : Option OwaspId
  severity : Severity
  exposure : Exposure
  file : String
  line : ℕ
  impact : String
  proofType : ProofType
  proofArtifact : Json
  createdAt : IsoDateTime

/-- A row of `DastTarget`. -/
structure DastTarget where
  id : EntityId
  clientId : ClientId
  url : String
  enabled : Bool
  approvedById : Option EntityId := none
  approvedAt : Option IsoDateTime := none
  createdAt : IsoDateTime

/-! ## Mappers -/

/-- `scanToUpdate` applied to the row it updates: the columns that are not written keep the value
of the row. -/
def scanToUpdate (row s : Scan) : Scan :=
  { s with
    id := row.id, clientId := row.clientId, repo := row.repo, branch := row.branch
    operator := row.operator, createdAt := row.createdAt }

/-- `routeToCreate`: the models a handler uses have no column. -/
def routeToCreate (r : Route) : Route := { r with referencedModels := none }

/-- `appMapScalarsToCreate`: the parts have tables of their own, and the scan and the telemetry surfaces have
no column. -/
def appMapScalarsToCreate (clientId : ClientId) (m : AppMap) : AppMap :=
  { m with
    clientId, scanId := none, telemetrySurfaces := none, routes := [], taintSources := [], taintSinks := [] }

/-- `appMapFromRows`: a part has the id of its row. -/
def appMapFromRows (row : AppMap) (routes : List (AppMapPartRow Route))
    (sources : List (AppMapPartRow TaintSource)) (sinks : List (AppMapPartRow TaintSink)) : AppMap :=
  { row with
    routes := routes.map fun r => { r.value with id := some r.id }
    taintSources := sources.map fun t => { t.value with id := some t.id }
    taintSinks := sinks.map fun t => { t.value with id := some t.id } }

/-- The key under which `candidateToCreate` stores what has no column. -/
def reservedMetaKey : String := "__montr"

/-- `locationHasExtras`. -/
def locationHasExtras (loc : SourceLocation) : Bool :=
  loc.endLine.isSome || loc.column.isSome || loc.endColumn.isSome || loc.symbol.isSome

/-- A location as JSON. -/
def locationToJson (loc : SourceLocation) : Json :=
  let num (key : String) (n : Option ℕ) : List (String × Json) :=
    n.toList.map fun n => (key, .num n)
  .obj ([("file", .str loc.file), ("line", .num loc.line)] ++ num "endLine" loc.endLine ++
    num "column" loc.column ++ num "endColumn" loc.endColumn ++
    loc.symbol.toList.map fun s => ("symbol", .str s))

/-- Set a property of an object: in place when it is there, else at the end. -/
def setField (key : String) (value : Json) : List (String × Json) → List (String × Json)
  | [] => [(key, value)]
  | (k, v) :: rest => if k = key then (k, value) :: rest else (k, v) :: setField key value rest

/-- `candidateToCreate`. -/
def candidateToCreate (clientId : ClientId) (f : CandidateFinding) : CandidateRow :=
  let ext : List (String × Json) :=
    (f.title.toList.map fun t => ("title", .str t)) ++
      if locationHasExtras f.location then [("location", locationToJson f.location)] else []
  let metadata := f.metadata.getD []
  let metadata := if ext.isEmpty then metadata else setField reservedMetaKey (.obj ext) metadata
  { id := f.id
    clientId
    scanId := f.scanId
    source := f.source
    ruleId := f.ruleId
    category := f.category
    cwe := f.cwe
    file := f.location.file
    line := f.location.line
    rawSeverity := f.rawSeverity
    evidenceSnippet := f.evidenceSnippet
    metadata := if metadata.isEmpty then none else some metadata
    createdAt := f.createdAt }

/-- `probableToCreate`. -/
def probableToCreate (clientId : ClientId) (f : ProbableFinding) : ProbableRow :=
  { id := f.id
    clientId
    scanId := f.scanId
    rootCauseId := f.rootCauseId
    category := f.category
    mergedCandidateIds := f.mergedCandidateIds
    reachabilityHypothesis := f.reachabilityHypothesis
    exploitHypothesis := f.exploitHypothesis
    exposure := f.exposure
    authGate := f.authGate
    routeId := f.routeId
    file := f.location.file
    line := f.location.line
    reachabilityScore := f.reachabilityScore
    exposureScore := f.exposureScore
    impactScore := f.impactScore
    rank := f.rank
    status := .probable
    unconfirmedReason := none
    createdAt := f.createdAt }

/-- `unconfirmedToCreate`: the row of the probable finding, demoted. -/
def unconfirmedToCreate (clientId : ClientId) (f : UnconfirmedFinding) : ProbableRow :=
  { probableToCreate clientId f.toProbableFinding with
    status := .unconfirmed
    unconfirmedReason := some f.unconfirmedReason }

/-- `probableFromRow`. -/
def probableFromRow (row : ProbableRow) : ProbableFinding :=
  { id := row.id
    scanId := row.scanId
    clientId := row.clientId
    rootCauseId := row.rootCauseId
    category := row.category
    mergedCandidateIds := row.mergedCandidateIds
    reachabilityHypothesis := row.reachabilityHypothesis
    exploitHypothesis := row.exploitHypothesis
    exposure := row.exposure
    authGate := row.authGate
    routeId := row.routeId
    location := { file := row.file, line := row.line }
    reachabilityScore := row.reachabilityScore
    exposureScore := row.exposureScore
    impactScore := row.impactScore
    rank := row.rank
    createdAt := row.createdAt }

/-- `unconfirmedFromRow`. -/
def unconfirmedFromRow (row : ProbableRow) : UnconfirmedFinding :=
  { toProbableFinding := probableFromRow row
    unconfirmedReason := row.unconfirmedReason.getD "unconfirmed" }

/-- `confirmedToCreate`. -/
def confirmedToCreate (clientId : ClientId) (f : ConfirmedFinding) : ConfirmedRow :=
  { id := f.id
    clientId
    scanId := f.scanId
    probableId := f.probableId
    title := f.title
    category := f.category
    cwe := f.cwe
    owasp := f.owasp
    severity := f.severity
    exposure := f.exposure
    file := f.location.file
    line := f.location.line
    impact := f.impact
    proofType := f.proofType
    proofArtifact := f.proofArtifact
    createdAt := f.createdAt }

/-- `fixToCreate` at time `now`; the database stamps `updatedAt` when it is not given. -/
def fixToCreate (clientId : ClientId) (now : IsoDateTime) (f : Fix) : Fix :=
  { f with clientId, updatedAt := some (f.updatedAt.getD now) }

/-- `fixToUpdate` applied to the row it updates at time `now`. -/
def fixToUpdate (row : Fix) (now : IsoDateTime) (f : Fix) : Fix :=
  { f with
    id := row.id, clientId := row.clientId, scanId := row.scanId
    confirmedFindingId := row.confirmedFindingId, createdAt := row.createdAt
    updatedAt := some now }

/-! ## Tables -/

/-- The tables the pipeline reads and writes. -/
structure Database where
  scans : Table Scan.id := .empty
  scanStates : Table (fun r : ScanStateRow => (r.clientId, r.scanId)) := .empty
  appMaps : Table AppMap.id := .empty
  routes : Table (AppMapPartRow.id (α := Route)) := .empty
  taintSources : Table (AppMapPartRow.id (α := TaintSource)) := .empty
  taintSinks : Table (AppMapPartRow.id (α := TaintSink)) := .empty
  candidates : Table CandidateRow.id := .empty
  probable : Table ProbableRow.id := .empty
  confirmed : Table ConfirmedRow.id := .empty
  fixes : Table Fix.id := .empty
  pullRequests : Table PullRequest.id := .empty
  dastTargets : Table DastTarget.id := .empty
  auditEvents : List AuditEventInput := []
  /-- How many ids the database has generated. -/
  generatedIds : ℕ := 0

/-- The `n`-th id the database generates. -/
def generatedId (n : ℕ) : EntityId := "cuid" ++ toString n

end MontrSecure
