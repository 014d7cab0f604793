import MontrSecure.Api.Http
import MontrSecure.Confirm.Heuristics
import MontrSecure.Contracts.Schemas
import MontrSecure.Correlation.Grounding
import MontrSecure.Correlation.Scoring
import MontrSecure.StateStore.Database

/-!
# Static confirmation

`packages/confirm/src/static.ts`: the data flow of a finding from its source to its sink, the argument that
is made of it, the review of the model, which may veto the finding or add to the argument, and the confirmed
finding.
-/

namespace MontrSecure.Confirm

open Async

/-! ## What the agents ask -/

/-- `LLMRequest`, by what it is about; its prompts and its schema are not read. -/
structure LLMRequest where
  purpose : String
  finding : EntityId

/-- `LLMToolCall`. -/
structure LLMToolCall where
  id : String
  name : String
  input : Json

/-- `LLMResponse`, without its cost. -/
structure LLMResponse where
  content : String
  toolCalls : List LLMToolCall := []

/-- `LLMStreamEvent`; what a stream ends with is not read. -/
inductive LLMStreamEvent where
  | textDelta (text : String)
  | toolUse (call : LLMToolCall)
  | error
  | messageDone

/-- The events of a stream, and whether it was cut off by an error. -/
structure LLMStream where
  events : List LLMStreamEvent := []
  cut : Bool := false

/-- `TestRunResult`. -/
structure TestRunResult where
  ran : Bool
  passed : Option Bool := none
  summary : String

/-- What confirmation asks, apart from live probing. -/
inductive AgentOp where
  | auditAppend (input : AuditInput)
  | resolvePrompt (name : String)
  | complete (request : LLMRequest)
  | stream (request : LLMRequest)
  /-- `executeInvestigationTool`. -/
  | tool (call : LLMToolCall)
  /-- `TestRunner.run`. -/
  | runTest (repoRoot testFile : String) (timeoutMs : ℕ)

/-- What an operation resolves to. -/
abbrev AgentOp.Val : AgentOp → Type
  | auditAppend _ => Unit
  | resolvePrompt .. => Option String
  | complete _ => LLMResponse
  | stream _ => LLMStream
  | tool _ => String
  | runTest .. => TestRunResult

/-- How an operation is answered: it resolves or it rejects. -/
abbrev AgentOp.Ans (op : AgentOp) : Type := Except LiveErr op.Val

/-- An asynchronous action of confirmation that contacts no target. -/
abbrev AgentProgram (α : Type) : Type := Program AgentOp AgentOp.Ans ProbeMemory LiveErr α

/-- Await an operation; its rejection is thrown. -/
def askAgent (op : AgentOp) : AgentProgram op.Val := Program.ask op

/-! ## Inputs -/

/-- `InvestigationConfig`. -/
structure InvestigationConfig where
  enabled : Bool := false
  maxTurns : Option ℕ := none
  verifierCount : Option ℕ := none
  severities : Option (List Severity) := none

/-- `ConfirmInput`. -/
structure ConfirmInput where
  clientId : ClientId
  scanId : ScanId
  appMap : AppMap
  probable : List ProbableFinding
  allowLive : Bool
  stagingUrl : Option String := none
  config : LiveConfig
  repoRoot : Option String := none

/-- `defaultConfirmedId`. -/
def defaultConfirmedId (p : ProbableFinding) : ProofType → EntityId
  | .static => s!"cf_static_{p.id}"
  | .live => s!"cf_live_{p.id}"

/-- `ConfirmDeps`, by whether a collaborator is there and what it answers at once. `now` is what the clock
reads when a finding is assembled. -/
structure ConfirmDeps where
  llm : Bool := false
  audit : Bool := true
  egressGuard : Option EgressGuard := none
  transport : Bool := true
  browser : Bool := true
  now : ProbableFinding → IsoDateTime
  idFactory : ProbableFinding → ProofType → EntityId := defaultConfirmedId
  useLlmCrossCheck : Option Bool := none
  isKnownFalsePositive : Category → String → ℕ → Bool := fun _ _ _ => false
  investigation : InvestigationConfig := {}
  priorConfirmedShapes : Category → String → Bool := fun _ _ => false
  learnedSanitizers : List String := []

/-- What is used from the runtime. -/
structure Runtime extends TextRuntime where
  parseUrl : UrlParser

/-! ## Proofs -/

/-- `DataFlowHopSchema`. -/
structure DataFlowHop where
  location : SourceLocation
  authState : AuthState
  transform : Option String := none
  note : Option String := none

/-- `StaticProofSchema`. -/
structure StaticProof where
  argument : String
  dataFlow : List DataFlowHop := []
  sanitizersBypassed : List String := []

/-- `ProofArtifactSchema`. -/
inductive ProofArtifact where
  | static (proof : StaticProof)
  | live (target : String) (transcript : List HttpExchange)

/-- `proofType`. -/
def ProofArtifact.type : ProofArtifact → ProofType
  | static _ => .static
  | live .. => .live

/-- `AuthState`, as it is written. -/
def authStateName : AuthState → String
  | .public_ => "public"
  | .authenticated => "authenticated"
  | .roleGated => "role_gated"
  | .unknown => "unknown"

/-- `TaintSourceKind`, as it is written. -/
def sourceKindName : TaintSourceKind → String
  | .httpRequest => "http_request"
  | .queryParam => "query_param"
  | .pathParam => "path_param"
  | .requestBody => "request_body"
  | .requestHeader => "request_header"
  | .cookie => "cookie"
  | .env => "env"
  | .fileRead => "file_read"
  | .cliArg => "cli_arg"
  | .websocket => "websocket"
  | .thirdPartyResponse => "third_party_response"

/-- A field that may be absent. -/
def optionalField {α : Type} (key : String) (f : α → Json) (a : Option α) : List (String × Json) :=
  (a.map fun a => (key, f a)).toList

/-- A hop, as it is written. -/
def DataFlowHop.toJson (hop : DataFlowHop) : Json :=
  .obj ([("location", locationToJson hop.location), ("authState", .str (authStateName hop.authState))] ++
    optionalField "transform" .str hop.transform ++ optionalField "note" .str hop.note)

/-- Headers, as they are written. -/
def headersJson (headers : List (String × String)) : Json :=
  .obj (headers.map fun h => (h.1, .str h.2))

/-- An exchange, as it is written. -/
def HttpExchange.toJson (x : HttpExchange) : Json :=
  .obj ([("request", .obj ([("method", .str x.method), ("url", .str x.url)] ++
        optionalField "headers" headersJson x.requestHeaders ++
          optionalField "bodySnippet" .str x.requestSnippet)),
      ("response", .obj ([("status", .num x.status)] ++
        optionalField "headers" headersJson x.responseHeaders ++
          optionalField "bodySnippet" .str x.responseSnippet))] ++
    optionalField "note" .str x.note)

/-- A static proof, as it is written. -/
def StaticProof.toJson (proof : StaticProof) : Json :=
  .obj [("kind", .str "static"), ("argument", .str proof.argument),
    ("dataFlow", .arr (proof.dataFlow.map DataFlowHop.toJson)),
    ("sanitizersBypassed", .arr (proof.sanitizersBypassed.map .str))]

/-- A proof, as it is written. -/
def ProofArtifact.toJson : ProofArtifact → Json
  | static proof => proof.toJson
  | live target transcript =>
    .obj [("kind", .str "live"), ("target", .str target),
      ("transcript", .arr (transcript.map HttpExchange.toJson))]

/-- `ProofArtifactSchema` accepts. -/
def ProofArtifact.valid : ProofArtifact → Bool
  | static proof => proof.dataFlow.all (·.location.valid)
  | live .. => true

variable (rt : Runtime) (input : ConfirmInput) (deps : ConfirmDeps) (finding : ProbableFinding)

/-! ## Data flow -/

/-- A handler of the route is in the file of the finding. -/
def handledIn (r : Route) : Bool := r.handler.any (·.file = finding.location.file)

/-- The route with an id, if one is asked for. -/
def routeWithId (appMap : AppMap) (id : Option EntityId) : Option Route :=
  id.bind fun id => if id = "" then none else appMap.routes.find? (·.id = some id)

/-- `findRoute`, and `routeFor` of live confirmation. -/
def findRoute (appMap : AppMap) : Option Route :=
  (routeWithId appMap finding.routeId).or (appMap.routes.find? (handledIn finding))

/-- The item on a line, or the first of the nearest. -/
def onOrNearLine {α : Type} (lineOf : α → ℕ) (line : ℕ) (items : List α) : Option α :=
  (items.find? (lineOf · = line)).or (nearest (fun item => lineDist (lineOf item) line) items)

/-- `findSinkFromFlow`. -/
def findSinkFromFlow (appMap : AppMap) (kinds : List TaintSinkKind) : Option TaintSink :=
  let edges := appMap.taintFlows.filter fun e =>
    decide (e.sinkKind ∈ kinds) && (e.sourceLocation.file = finding.location.file ||
      e.throughLocation.any (·.file = finding.location.file))
  (onOrNearLine (·.sourceLocation.line) finding.location.line edges).map fun edge =>
    (appMap.taintSinks.find? fun s =>
      s.location.file = edge.sinkLocation.file && s.location.line = edge.sinkLocation.line).getD
        { kind := edge.sinkKind, location := edge.sinkLocation }

/-- `findSink`. -/
def findSink (appMap : AppMap) : Option TaintSink :=
  let kinds := dataflowSinkKinds finding.category
  let inFile := appMap.taintSinks.filter fun s =>
    decide (s.kind ∈ kinds) && s.location.file = finding.location.file
  if inFile.isEmpty then findSinkFromFlow finding appMap kinds
  else onOrNearLine (·.location.line) finding.location.line inFile

/-- `findSourceFromFlow`. -/
def findSourceFromFlow (appMap : AppMap) (sink : TaintSink) : Option TaintSource :=
  (appMap.taintFlows.find? fun e =>
    e.sinkLocation.file = sink.location.file && e.sinkLocation.line = sink.location.line).bind fun edge =>
      (appMap.taintSources.find? fun s =>
        s.location.file = edge.sourceLocation.file && s.location.line = edge.sourceLocation.line).or
          (edge.sourceKind.map fun kind => { kind, location := edge.sourceLocation })

/-- `findSource`. -/
def findSource (appMap : AppMap) (sink : TaintSink) (route : Option Route) : Option TaintSource :=
  let routeId := (route.bind (·.id)).or finding.routeId
  let byRoute := routeId.bind fun id =>
    if id = "" then none else appMap.taintSources.find? (·.routeId = some id)
  (byRoute.or ((appMap.taintSources.find? (·.location.file = sink.location.file)).or
    (appMap.taintSources.find? (·.location.file = finding.location.file)))).or
      (findSourceFromFlow appMap sink)

/-- `describeRoute`. -/
def describeRoute (route : Option Route) (exposure : Exposure) : String :=
  match route with
  | some route =>
    let auth :=
      match route.authState with
      | .public_ => "public"
      | .unknown => "unknown-auth"
      | .roleGated => "role gated"
      | .authenticated => "authenticated"
    s!"the {auth} route {methodName route.method} {route.path}"
  | none => if exposure = .public_ then "a public entry point" else "an authenticated entry point"

/-- `DataFlowResult`. -/
structure DataFlowResult where
  reachable : Bool
  hops : List DataFlowHop := []
  sanitizersBypassed : List String := []
  reason : String
  entryAuthState : AuthState
  route : Option Route
  source : Option TaintSource := none
  sink : Option TaintSink := none
  param : Option String := none

/-- A text that is not empty. -/
def nonempty (text : Option String) : Option String := text.filter (· ≠ "")

/-- The name of a parameter, in quotes. -/
def quoted (param : Option String) : String := ((nonempty param).map fun p => s!" \"{p}\"").getD ""

/-- Where something is. -/
def placeOf (loc : SourceLocation) : String := s!"{loc.file}:{loc.line}"

/-- `buildDataFlow`. -/
def buildDataFlow (appMap : AppMap) (heuristics : ResolvedHeuristics) : DataFlowResult :=
  let category := finding.category
  let route := findRoute finding appMap
  let entryAuthState := (route.map (·.authState)).getD .unknown
  if isDataFlowConfirmable category = false then
    { entryAuthState, route, reachable := false
      reason := s!"{category.name} is a configuration/component-class finding with no tainted " ++
        "source→sink data-flow; static confirmation defers it to the appendix " ++
        "(live DAST or manual review required)." }
  else
    match findSink finding appMap with
    | none =>
      let kinds := "/".intercalate ((dataflowSinkKinds category).map TaintSinkKind.name)
      { entryAuthState, route, reachable := false
        reason := s!"no {category.name} sink ({kinds}) found in {finding.location.file}; " ++
          "reachability cannot be proven statically." }
    | some sink =>
      let source := findSource finding appMap sink route
      let param := extractParam heuristics (source.bind (·.description))
      let assessment := assessSink rt.toLowerCase heuristics sink
      let sourceHop (source : TaintSource) : DataFlowHop :=
        { location := source.location, authState := entryAuthState
          transform := some s!"read {sourceKindName source.kind}{quoted param}"
          note := nonempty source.description }
      let sinkHop : DataFlowHop :=
        { location := sink.location, authState := entryAuthState
          transform := some ((assessment.sanitizer.map fun s => s!"sanitizer: {s}").getD
            "no sanitizer on path")
          note := nonempty sink.description }
      let hops := (source.map sourceHop).toList ++ [sinkHop]
      if assessment.dangerous = false then
        { hops, entryAuthState, route, reachable := false, source, sink := some sink, param
          reason := s!"{assessment.reason}; tainted input does not reach an exploitable " ++
            s!"{sink.kind.name} sink." }
      else
        match source with
        | none =>
          { hops, entryAuthState, route, reachable := false, sink := some sink, param
            reason := s!"the {sink.kind.name} sink at {placeOf sink.location} is unsanitized, but no " ++
              "tainted source was proven to reach it; deferred (fail-safe)." }
        | some source =>
          { hops, entryAuthState, route, reachable := true, source := some source, sink := some sink, param
            reason := s!"tainted {sourceKindName source.kind} on " ++
              s!"{describeRoute route finding.exposure} reaches the {sink.kind.name} sink at " ++
              s!"{placeOf sink.location}; {assessment.reason}." }

/-- `buildStaticArgument`. -/
def buildStaticArgument (df : DataFlowResult) : String :=
  let entry := (df.source.map fun s =>
    s!"{sourceKindName s.kind}{quoted df.param} enters at {placeOf s.location}").getD "tainted input enters"
  let flow := (df.sink.map fun s =>
    s!"It flows to the {s.kind.name} sink at {placeOf s.location} with no interrupting sanitizer or " ++
      "validator.").getD ""
  let reach :=
    if df.entryAuthState = .public_ then "an unauthenticated attacker"
    else "an authorized-but-malicious caller"
  " ".intercalate
    (["Static proof of reachability (no requests fired):",
      s!"The {entry} on {describeRoute df.route finding.exposure}.", flow,
      s!"Auth state is \"{authStateName df.entryAuthState}\" at every hop, so the sink is reachable by " ++
        s!"{reach}.",
      s!"Exploit hypothesis: {finding.exploitHypothesis}"].filter (· ≠ ""))

/-! ## Confirmed findings -/

/-- `ConfirmedFindingSchema` accepts, with the proof that is written into it. -/
def confirmedValid (f : ConfirmedFinding) (proof : ProofArtifact) : Bool :=
  f.id ≠ "" && f.scanId ≠ "" && f.clientId ≠ "" && f.probableId.all (· ≠ "") && f.title ≠ "" &&
    f.cwe.all isCweId && f.location.valid && proof.valid && f.proofType = proof.type

/-- The finding that is assembled. -/
def assembled (route : Option Route) (param : Option String) (proof : ProofArtifact) (proofType : ProofType) :
    ConfirmedFinding :=
  let entry := categoryTaxonomy finding.category
  { id := deps.idFactory finding proofType
    scanId := finding.scanId, clientId := finding.clientId, probableId := some finding.id
    title := deriveTitle finding.category route finding.location.file finding.location.line param
    category := finding.category, cwe := entry.cwe, owasp := some entry.owasp
    severity := deriveSeverity finding.category finding.exposure
    exposure := finding.exposure, location := finding.location
    impact := deriveImpact finding.category finding.exploitHypothesis
    proofType, proofArtifact := proof.toJson, createdAt := deps.now finding }

/-- `assembleConfirmed`. -/
def assembleConfirmed (route : Option Route) (param : Option String) (proof : ProofArtifact)
    (proofType : ProofType) : Except LiveErr ConfirmedFinding :=
  let f := assembled deps finding route param proof proofType
  if confirmedValid f proof then .ok f else .error (.err (.other "ZodError"))

/-! ## Review -/

/-- `LlmReview`. -/
structure LlmReview where
  argument : Option String := none
  confirmed : Option Bool := none

/-- A value that is a boolean. -/
def booleanOf : Json → Option Bool
  | .bool b => some b
  | _ => none

/-- A value that is a string, also a blank one. -/
def textOf : Json → Option String
  | .str s => some s
  | _ => none

/-- What a reply says; one that is no JSON object says nothing. -/
def parseReview (content : String) : LlmReview :=
  match rt.parseJson content with
  | none => {}
  | some parsed =>
    { confirmed := (parsed.property "confirmed").bind booleanOf
      argument := (parsed.property "argument").bind textOf }

/-- `runLlmReview`. -/
def runLlmReview : AgentProgram (Option LlmReview) :=
  if deps.llm = false then return none
  else do
    let _ ← askAgent (.resolvePrompt "confirm.static_review.system")
    match ← Program.attempt
        (askAgent (.complete { purpose := "static_review", finding := finding.id })) with
    | .ok resp => return some (parseReview rt resp.content)
    | .error (_ : LiveErr) => return none

/-- `StaticConfirmOutcome`. -/
inductive StaticConfirmOutcome where
  | confirmed (finding : ConfirmedFinding) (dataFlow : List DataFlowHop)
  | unconfirmed (reason : String) (dataFlow : List DataFlowHop)

/-- The data flow of a finding. -/
def dataFlowOf : DataFlowResult :=
  buildDataFlow rt finding input.appMap
    (withLearnedSanitizers rt.toLowerCase (resolveHeuristics input.appMap.languages) deps.learnedSanitizers)

/-- The review vetoes the finding. -/
def vetoes (review : Option LlmReview) : Bool :=
  review.any fun r => deps.useLlmCrossCheck.getD deps.llm && r.confirmed = some false

/-- The argument, with what the review adds. -/
def reviewedArgument (argument : String) (review : Option LlmReview) : String :=
  match review.bind (·.argument) with
  | none => argument
  | some text => if 8 ≤ Text.length (trim text) then s!"{argument}\n\nModel review: {trim text}" else argument

/-- The proof of a data flow. -/
def flowProof (df : DataFlowResult) (argument : String) : ProofArtifact :=
  .static { argument, dataFlow := df.hops, sanitizersBypassed := df.sanitizersBypassed }

/-- `confirmStatic`. -/
def confirmStatic : AgentProgram StaticConfirmOutcome :=
  let df := dataFlowOf rt input deps finding
  if df.reachable = false then return .unconfirmed df.reason df.hops
  else do
    let review ← runLlmReview rt deps finding
    if vetoes deps review then
      return .unconfirmed (s!"{df.reason} However, the confirmation-tier model judged it NOT exploitable " ++
        "on review — demoted to the appendix (fail-safe, golden rule #4).") df.hops
    else do
      let argument := reviewedArgument (buildStaticArgument finding df) review
      let confirmed ← Program.ofExcept
        (assembleConfirmed deps finding df.route df.param (flowProof df argument) .static)
      return .confirmed confirmed df.hops

end MontrSecure.Confirm
