import MontrSecure.Contracts.Scan

/-!
# What the layers hand over

The App Map, the findings of each tier, fixes and pull requests, and the outputs of the six layers
(`appmap.ts`, `findings.ts`, `fix.ts`, `layers.ts` of `packages/contracts`).
-/

namespace MontrSecure

/-! ## Categories -/

/-- Normalized finding categories. -/
inductive Category where
  | sqlInjection
  | nosqlInjection
  | commandInjection
  | xss
  | ssrf
  | pathTraversal
  | insecureDeserialization
  | hardcodedSecret
  | vulnerableDependency
  | permissiveCors
  | missingSecurityHeaders
  | insecureCookie
  | weakCrypto
  | brokenAccessControl
  | brokenAuthentication
  | openRedirect
  | xxe
  | csrf
  | sensitiveDataExposure
  | insufficientLogging
  | idor
  | massAssignment
  | rateLimitMissing
  | promptInjection
  | insecureConfiguration
  | other
  deriving DecidableEq

/-- The token of a category. -/
def Category.name : Category → String
  | sqlInjection => "sql_injection"
  | nosqlInjection => "nosql_injection"
  | commandInjection => "command_injection"
  | xss => "xss"
  | ssrf => "ssrf"
  | pathTraversal => "path_traversal"
  | insecureDeserialization => "insecure_deserialization"
  | hardcodedSecret => "hardcoded_secret"
  | vulnerableDependency => "vulnerable_dependency"
  | permissiveCors => "permissive_cors"
  | missingSecurityHeaders => "missing_security_headers"
  | insecureCookie => "insecure_cookie"
  | weakCrypto => "weak_crypto"
  | brokenAccessControl => "broken_access_control"
  | brokenAuthentication => "broken_authentication"
  | openRedirect => "open_redirect"
  | xxe => "xxe"
  | csrf => "csrf"
  | sensitiveDataExposure => "sensitive_data_exposure"
  | insufficientLogging => "insufficient_logging"
  | idor => "idor"
  | massAssignment => "mass_assignment"
  | rateLimitMissing => "rate_limit_missing"
  | promptInjection => "prompt_injection"
  | insecureConfiguration => "insecure_configuration"
  | other => "other"

/-! ## Parts of the App Map -/

/-- Detected languages. -/
inductive Language where
  | typescript
  | javascript
  | python
  | java
  | go
  | ruby
  | php
  | csharp
  | other
  deriving DecidableEq

/-- Auth state gating a route. -/
inductive AuthState where
  | public_
  | authenticated
  | roleGated
  | unknown
  deriving DecidableEq

/-- HTTP methods of registered routes. -/
inductive HttpMethod where
  | get
  | post
  | put
  | patch
  | delete
  | options
  | head
  | all
  deriving DecidableEq

/-- Where tainted input can enter. -/
inductive TaintSourceKind where
  | httpRequest
  | queryParam
  | pathParam
  | requestBody
  | requestHeader
  | cookie
  | env
  | fileRead
  | cliArg
  | websocket
  | thirdPartyResponse
  deriving DecidableEq

/-- Dangerous operations tainted input can reach. -/
inductive TaintSinkKind where
  | sqlQuery
  | ormRawQuery
  | commandExec
  | fsWrite
  | fsRead
  | httpResponse
  | templateRender
  | htmlRender
  | redirect
  | eval
  | deserialize
  | logger
  | httpClient
  | crypto
  deriving DecidableEq

/-- The token of a kind of sink. -/
def TaintSinkKind.name : TaintSinkKind → String
  | sqlQuery => "sql_query"
  | ormRawQuery => "orm_raw_query"
  | commandExec => "command_exec"
  | fsWrite => "fs_write"
  | fsRead => "fs_read"
  | httpResponse => "http_response"
  | templateRender => "template_render"
  | htmlRender => "html_render"
  | redirect => "redirect"
  | eval => "eval"
  | deserialize => "deserialize"
  | logger => "logger"
  | httpClient => "http_client"
  | crypto => "crypto"

/-- `RouteModelOperationSchema`. -/
inductive RouteModelOperation where
  | read
  | write
  | delete
  deriving DecidableEq

/-- `RouteModelRefSchema`: a model that a handler uses, and how. -/
structure RouteModelRef where
  modelName : String
  operations : List RouteModelOperation := []

/-- `RouteSchema`. -/
structure Route where
  id : Option EntityId := none
  path : String
  method : HttpMethod
  authState : AuthState := .unknown
  isApiRoute : Bool := false
  handler : Option SourceLocation := none
  authGate : Option String := none
  referencedModels : Option (List RouteModelRef) := none

/-- `TaintSourceSchema`. -/
structure TaintSource where
  id : Option EntityId := none
  kind : TaintSourceKind
  location : SourceLocation
  description : Option String := none
  routeId : Option EntityId := none

/-- `TaintSinkSchema`. -/
structure TaintSink where
  id : Option EntityId := none
  kind : TaintSinkKind
  location : SourceLocation
  description : Option String := none

/-- `EntrypointSchema`, where it is. -/
structure Entrypoint where
  name : String
  location : Option SourceLocation := none

/-- `EnvSecretSurfaceSchema`, where it is. -/
structure EnvSecretSurface where
  name : String
  location : Option SourceLocation := none

/-- `ThirdPartyCallSchema`, what is called. -/
structure ThirdPartyCall where
  name : String
  target : Option String := none

/-- `TaintFlowEdgeSchema`: a resolved flow, with its source, its sink and the function it goes through. -/
structure TaintFlowEdge where
  sourceLocation : SourceLocation
  sourceKind : Option TaintSourceKind := none
  throughFunction : Option String := none
  throughLocation : Option SourceLocation := none
  sinkLocation : SourceLocation
  sinkKind : TaintSinkKind

/-- Kinds of data stores. -/
inductive DataStoreKind where
  | postgres
  | mysql
  | sqlite
  | mongodb
  | redis
  | elasticsearch
  | other
  deriving DecidableEq

/-- `DataStoreSchema`, what it is. -/
structure DataStore where
  kind : DataStoreKind
  name : String

/-- A field of an `OrmModel`. -/
structure OrmField where
  name : String
  type : String
  isId : Bool := false

/-- `OrmModelSchema`, what it is made of. -/
structure OrmModel where
  name : String
  fields : List OrmField := []

/-! ## Threat model -/

/-- `StrideCategorySchema`. -/
inductive StrideCategory where
  | spoofing
  | tampering
  | repudiation
  | informationDisclosure
  | denialOfService
  | elevationOfPrivilege
  deriving DecidableEq

/-- `StrideFindingSchema`. -/
structure StrideFinding where
  category : StrideCategory
  rationale : String

/-- `TrustBoundarySchema`. -/
structure TrustBoundary where
  name : String
  description : String
  routePaths : List String := []
  stride : List StrideFinding := []

/-- `SurfacePlausibilitySchema`. -/
inductive SurfacePlausibility where
  | none
  | low
  | medium
  | high
  deriving DecidableEq

/-- `AttackSurfaceEntrySchema`. -/
structure AttackSurfaceEntry where
  category : Category
  plausibility : SurfacePlausibility
  rationale : String
  stride : List StrideCategory := []

/-- `AbuseCaseSchema`. -/
structure AbuseCase where
  title : String
  description : String
  routePaths : List String := []
  categories : List Category := []

/-- `PriorityCategoryHintSchema`. -/
structure PriorityCategoryHint where
  category : Category
  rationale : String

/-- `ScopeHintsSchema`. -/
structure ScopeHints where
  priorityCategories : List PriorityCategoryHint := []
  priorityRoutePaths : List String := []
  zeroSurfaceCategories : List Category := []

/-- `ThreatModelSchema`. -/
structure ThreatModel where
  trustBoundaries : List TrustBoundary := []
  attackSurface : List AttackSurfaceEntry := []
  abuseCases : List AbuseCase := []
  scopeHints : ScopeHints
  generatedByLlm : Bool := false

/-! ## Telemetry surfaces -/

/-- `RouteLoggerKindSchema`. -/
inductive RouteLoggerKind where
  | structured
  | console
  deriving DecidableEq

/-- `RouteTelemetrySchema`. -/
structure RouteTelemetry where
  path : String
  method : HttpMethod
  hasLoggingCall : Bool
  loggerKind : Option RouteLoggerKind := none
  sample : Option String := none

/-- `TelemetrySurfacesSchema`; libraries and tools by their names. -/
structure TelemetrySurfaces where
  hasStructuredLogging : Bool
  loggingLibraries : List String := []
  observabilityTools : List String := []
  routes : List RouteTelemetry := []

/-! ## App Map -/

/-- `AppMapSchema`, with the parts that have tables of their own, the keys of its row, and the parts
that the layers read. -/
structure AppMap where
  id : EntityId
  clientId : ClientId
  scanId : Option ScanId := none
  repo : String
  branch : String
  commitSha : String
  languages : List Language := []
  routes : List Route := []
  taintSources : List TaintSource := []
  taintSinks : List TaintSink := []
  taintFlows : List TaintFlowEdge := []
  entrypoints : List Entrypoint := []
  envSecretSurfaces : List EnvSecretSurface := []
  thirdPartyCalls : List ThirdPartyCall := []
  dataStores : List DataStore := []
  ormModels : List OrmModel := []
  threatModel : Option ThreatModel := none
  telemetrySurfaces : Option TelemetrySurfaces := none
  stale : Bool := false
  createdAt : IsoDateTime

/-! ## Findings -/

/-- The tool that produced a candidate finding. -/
inductive ToolSource where
  | semgrep
  | gitleaks
  | osv
  | ghsa
  | trivy
  | custom
  | llmTriage
  deriving DecidableEq

/-- OWASP Top 10 (2021) categories. -/
inductive OwaspId where
  | a01
  | a02
  | a03
  | a04
  | a05
  | a06
  | a07
  | a08
  | a09
  | a10
  deriving DecidableEq

/-- Severity scale. -/
inductive Severity where
  | info
  | low
  | medium
  | high
  | critical
  deriving DecidableEq

/-- Coarse exposure of a finding. -/
inductive Exposure where
  | public_
  | authed
  deriving DecidableEq

/-- How a finding was confirmed. -/
inductive ProofType where
  | static
  | live
  deriving DecidableEq

/-- `CandidateFindingSchema`. -/
structure CandidateFinding where
  id : EntityId
  scanId : ScanId
  clientId : ClientId
  source : ToolSource
  ruleId : String
  category : Category
  cwe : List String := []
  location : SourceLocation
  rawSeverity : Severity
  evidenceSnippet : String := ""
  title : Option String := none
  createdAt : IsoDateTime
  metadata : Option (List (String × Json)) := none

/-- `ProbableFindingSchema`, without its literal status. -/
structure ProbableFinding where
  id : EntityId
  scanId : ScanId
  clientId : ClientId
  rootCauseId : EntityId
  category : Category
  mergedCandidateIds : List EntityId := []
  reachabilityHypothesis : String
  exploitHypothesis : String
  exposure : Exposure
  authGate : Option String := none
  routeId : Option EntityId := none
  location : SourceLocation
  reachabilityScore : ℚ
  exposureScore : ℚ
  impactScore : ℚ
  rank : ℕ
  createdAt : IsoDateTime

/-- `UnconfirmedFindingSchema`: a probable finding with the reason it was not confirmed. -/
structure UnconfirmedFinding extends ProbableFinding where
  unconfirmedReason : String

/-- `ConfirmedFindingSchema`; the proof artifact is stored as the JSON it is. -/
structure ConfirmedFinding where
  id : EntityId
  scanId : ScanId
  clientId : ClientId
  probableId : Option EntityId := none
  title : String
  category : Category
  cwe : List String := []
  owasp : Option OwaspId := none
  severity : Severity
  exposure : Exposure
  location : SourceLocation
  impact : String
  proofType : ProofType
  proofArtifact : Json
  createdAt : IsoDateTime

/-! ## Fixes and pull requests -/

/-- `ProofOfFixTestSchema`. -/
structure ProofOfFixTest where
  filePath : Option String := none
  framework : Option String := none
  code : String
  failsPrePatch : Bool
  passesPostPatch : Bool

/-- `FixSchema`. -/
structure Fix where
  id : EntityId
  scanId : ScanId
  clientId : ClientId
  confirmedFindingId : EntityId
  patch : String
  rationale : String
  proofOfFixTest : ProofOfFixTest
  riskClass : RiskClass
  riskClassRationale : String
  status : FixStatus := .proposed
  pullRequestId : Option EntityId := none
  createdAt : IsoDateTime
  updatedAt : Option IsoDateTime := none

/-- Version-control hosts. -/
inductive VcsProvider where
  | github
  | gitlab
  deriving DecidableEq

/-- Lifecycle of a pull request. -/
inductive PullRequestStatus where
  | draft
  | open_
  | merged
  | closed
  deriving DecidableEq

/-- `PullRequestSchema`. -/
structure PullRequest where
  id : EntityId
  scanId : ScanId
  clientId : ClientId
  provider : VcsProvider
  url : Option String := none
  number : Option ℕ := none
  branch : String
  baseBranch : String := "main"
  title : String
  bodySummary : String
  fixIds : List EntityId
  status : PullRequestStatus := .open_
  createdAt : IsoDateTime

/-! ## Layer outputs -/

/-- `Layer0Output`: intake and scoping. -/
structure Layer0Output where
  appMap : AppMap
  scope : ScanScope
  costEstimate : CostEstimate

/-- `Layer1Output`: discovery. -/
structure Layer1Output where
  candidates : List CandidateFinding := []

/-- `Layer2Output`: correlation. -/
structure Layer2Output where
  probable : List ProbableFinding := []
  demoted : List CandidateFinding := []

/-- `Layer3Output`: confirmation. -/
structure Layer3Output where
  confirmed : List ConfirmedFinding := []
  unconfirmed : List UnconfirmedFinding := []

/-- `Layer4Output`: fix generation. -/
structure Layer4Output where
  fixes : List Fix := []

/-- `Layer5Output`: the pull requests opened. -/
structure Layer5Output where
  pullRequests : List PullRequest := []

/-- An output of some layer. -/
inductive LayerOutput where
  | layer0 (out : Layer0Output)
  | layer1 (out : Layer1Output)
  | layer2 (out : Layer2Output)
  | layer3 (out : Layer3Output)
  | layer4 (out : Layer4Output)
  | layer5 (out : Layer5Output)

/-- The layer an output is of. -/
def LayerOutput.layer : LayerOutput → LayerId
  | layer0 _ => .layer0
  | layer1 _ => .layer1
  | layer2 _ => .layer2
  | layer3 _ => .layer3
  | layer4 _ => .layer4
  | layer5 _ => .layer5

/-- What a runner returns, before it is validated: a value the schema of the layer accepts, shown
as what it parses to, or one that it rejects. -/
inductive RawOutput where
  | wellFormed (out : LayerOutput)
  | malformed

/-- `Layer<n>OutputSchema.parse`: rejects a malformed output and one of another layer. -/
def RawOutput.parse (layer : LayerId) : RawOutput → Except Err LayerOutput
  | wellFormed out => if out.layer = layer then .ok out else .error (.other "ZodError")
  | malformed => .error (.other "ZodError")

end MontrSecure
