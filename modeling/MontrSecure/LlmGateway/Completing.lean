import MontrSecure.Async.Running
import MontrSecure.LlmGateway.PreCallBudget
import MontrSecure.Security.Egress

/-!
# The calls of the gateway

`packages/llm-gateway/src/gateway.ts`, with `retry.ts`, `escalation.ts` and `models.ts`: `complete`, which climbs the
tiers while the replies are doubtful, `stream` and `getBatchResults`. One gateway serves every scan of its process, so
that its calls share the meters, the registry of budgets and the log, and are suspended between a check, a dispatch
and the record of its reply. A `Gateway` is what the constructor has built.
-/

namespace MontrSecure.LlmGateway

open Async

/-! ## Requests and replies -/

/-- `ResponseFormatSchema`. -/
inductive ResponseFormat where
  | text
  | json
  deriving DecidableEq

/-- `StopReasonSchema`. -/
inductive StopReason where
  | endTurn
  | maxTokens
  | stopSequence
  | toolUse
  | refusal
  | error
  deriving DecidableEq

/-- `LLMRequest`, with what the gateway reads: its metadata are `layer`, `scanId` and `purpose`. -/
structure LlmRequest extends CompletionRequest where
  responseFormat : ResponseFormat := .text
  scanId : Option ScanId := none
  purpose : String

/-- `AdapterCompletion`. -/
structure AdapterCompletion extends Completion where
  id : String
  content : String
  stopReason : StopReason
  /-- The names of the tools that were called. -/
  toolCalls : List String := []

/-- `LLMResponse`. -/
structure LlmResponse extends AdapterCompletion where
  confidence : Option ℚ := none

/-- `LLMStreamEvent`. -/
inductive LlmStreamEvent where
  | textDelta (text : String)
  | toolUse (id name : String)
  | messageDone (usage : TokenUsage) (stopReason : StopReason)
  | error (message : String)

/-- How the stream of an adapter went: its events, and how it stopped. -/
inductive StreamEnd where
  | done
  /-- It failed, or an event took too long. -/
  | failed (message : String)
  /-- Whoever reads the stream has left it. -/
  | abandoned

/-- `AdapterBatchResult`. -/
inductive BatchItem where
  | succeeded (customId : String) (completion : AdapterCompletion)
  | errored (customId errorType message : String)
  | other (customId status : String)

/-- `LLMCallMetadata`. -/
structure CallMetadata where
  scanId : Option ScanId := none
  layer : Option LayerId := none
  purpose : String
  deriving DecidableEq

/-- The metadata of a request. -/
def LlmRequest.metadata (request : LlmRequest) : CallMetadata where
  scanId := request.scanId
  layer := request.layer
  purpose := request.purpose

/-! ## Confidence -/

/-- `ConfidenceSource`. -/
inductive ConfidenceSource where
  | selfReported
  | refusal
  | unparseableJson
  | none
  deriving DecidableEq

/-- `ConfidenceSignal`. -/
structure ConfidenceSignal where
  confidence : Option ℚ := none
  low : Bool
  source : ConfidenceSource

/-- `coerceReportedConfidence`. -/
def coerceReportedConfidence : Json → Option ℚ
  | .num q => if 0 ≤ q ∧ q ≤ 1 then some q else none
  | .str s =>
    let norm := Confirm.lower (Confirm.trim s)
    if norm = "low" then some (1 / 5)
    else if norm = "medium" ∨ norm = "med" then some (1 / 2)
    else if norm = "high" then some (9 / 10)
    else none
  | _ => none

/-- `extractSelfReportedConfidence`, of a text that was parsed. -/
def extractSelfReportedConfidence : Option Json → Option ℚ
  | some (.obj fields) => (fields.find? (·.1 = "confidence")).bind fun field => coerceReportedConfidence field.2
  | _ => none

/-- `evaluateConfidence`. -/
def evaluateConfidence (parseJson : String → Option Json) (responseFormat : ResponseFormat) (content : String)
    (stopReason : StopReason) (threshold : ℚ) : ConfidenceSignal :=
  let reported := if responseFormat = .json then extractSelfReportedConfidence (parseJson content) else none
  match reported with
  | some reported => { confidence := some reported, low := reported < threshold, source := .selfReported }
  | none =>
    if stopReason = .refusal then { low := true, source := .refusal }
    else if responseFormat = .json ∧ parseJson content = none then { low := true, source := .unparseableJson }
    else { low := false, source := .none }

/-- `isEligibleForEscalation`. -/
def isEligibleForEscalation (request : LlmRequest) : Bool := request.tier.isSome && request.model.isNone

/-- `nextTier`. -/
def nextTier : ModelTier → Option ModelTier
  | .triage => some .default
  | .default => some .confirmation
  | .confirmation => none

example : nextTier .triage = some .default := by decide +kernel

/-- `withEscalatedTier`. -/
def withEscalatedTier (request : LlmRequest) (tier : ModelTier) : LlmRequest :=
  { request with tier := some tier, model := none }

/-! ## The model floor -/

/-- `modelRank`. -/
def modelRank (modelId : String) : ℕ :=
  let id := Confirm.lower (normalizeModelId modelId)
  if Confirm.includes id "opus" || Confirm.includes id "fable" || Confirm.includes id "mythos" then 4
  else if Confirm.includes id "sonnet-5" || Confirm.includes id "sonnet5" then 3
  else if Confirm.includes id "sonnet" then 2
  else if Confirm.includes id "haiku" then 1
  else 0

/-- `FLOOR_RANK`. -/
def floorRank : ℕ := modelRank "claude-sonnet-5"

/-- `isBelowFloor`. -/
def isBelowFloor (modelId : String) : Bool := decide (0 < modelRank modelId) && decide (modelRank modelId < floorRank)

/-! ## The process -/

/-- `BudgetContext`: a meter, by its place in the heap, and a policy. -/
structure BudgetContext where
  meter : ℕ
  policy : BudgetPolicy

/-- `LLMCallLog`. -/
structure LlmCallLog where
  model : String
  usage : TokenUsage
  metadata : CallMetadata

/-- What is logged and counted. -/
inductive GatewayEvent where
  | modelBelowFloor (model purpose : String)
  | budgetPrecallRefused (model purpose : String) (scanId : Option ScanId) (policy : BudgetPolicy)
      (estimatedUsd : ℚ) (estimatedTokens : ℕ) (spentUsd : ℚ) (spentTokens : ℕ)
  | modelFallback (fromModel toModel : String)
  | modelEscalation (fromTier toTier : ModelTier) (signal : ConfidenceSignal)
  | responseParseFailure (model purpose : String)
  | streamError (model purpose : String)

/-- The memory that the calls share: the meters of the process, the registry of budgets, the calls that were logged,
the models that were warned about, and the events. The latest is first. -/
structure GatewayMemory where
  meters : ℕ → LiveCostMeter
  registry : ScanId → Option BudgetContext := fun _ => none
  callLog : List LlmCallLog := []
  warnedFloorModels : List String := []
  events : List GatewayEvent := []

/-- `EscalationPolicy`. -/
structure EscalationPolicy where
  enabled : Bool
  confidenceThreshold : Option ℚ := none
  maxEscalations : Option ℕ := none

/-- What the constructor of `MontrLlmGateway` has built, with `JSON.parse`. -/
structure Gateway where
  config : GatewayConfig
  endpoint : Option String := none
  egress : Confirm.EgressGuard
  enforceModelFloor : Bool := true
  baseDelayMs : ℕ := 500
  maxDelayMs : ℕ := 8000
  /-- The meter that every call is recorded in, besides that of its scan. -/
  costMeter : Option ℕ := none
  escalation : Option EscalationPolicy := none
  parseJson : String → Option Json

/-- What a call throws. -/
inductive GatewayError where
  | egress (e : Err)
  /-- `BudgetExceededError`. -/
  | budgetExceeded (modelId : String)
  /-- What `toGatewayError` makes of a failed attempt. -/
  | provider (e : AttemptError)

/-- What a call waits for. -/
inductive GatewayOp where
  /-- `await this.estimateTokens(request)`, which has settled already. -/
  | estimateTokens
  /-- The end of a call to an `async` method. -/
  | turn
  /-- `adapter.complete`, under the timeout. -/
  | dispatch (request : LlmRequest) (model : String) (attempt : ℕ)
  | sleep (ms : ℕ)
  /-- `adapter.stream`, read to its end. -/
  | stream (request : LlmRequest) (model : String)
  /-- How many results the iterator of `adapter.getBatchResults` has. -/
  | openBatch (batchId : String)
  | nextResult (batchId : String)

/-- How an operation is answered. -/
abbrev GatewayOp.Ans : GatewayOp → Type
  | estimateTokens | turn => Unit
  | dispatch .. => Except AttemptError AdapterCompletion
  | sleep _ => Except AttemptError Unit
  | stream .. => List LlmStreamEvent × StreamEnd
  | openBatch _ => ℕ
  | nextResult _ => Except AttemptError BatchItem

/-- An asynchronous method of the gateway. -/
abbrev GatewayProgram (α : Type) : Type := Program GatewayOp GatewayOp.Ans GatewayMemory GatewayError α

/-- Wait for an operation. -/
def await (op : GatewayOp) : GatewayProgram op.Ans := Program.await op

/-! ## The guards of a call -/

namespace Gateway

variable (g : Gateway)

/-- Record an event. -/
def emit (event : GatewayEvent) : GatewayProgram Unit :=
  Program.modify fun m => { m with events := event :: m.events }

/-- `assertEgress`. -/
def assertEgress : GatewayProgram Unit :=
  match Egress.setting g.endpoint with
  | none => pure ()
  | some endpoint =>
    match g.egress endpoint with
    | .ok () => pure ()
    | .error e => Program.throw (.egress e)

/-- `maybeWarnFloor`. -/
def maybeWarnFloor (request : LlmRequest) (modelId : String) : GatewayProgram Unit := do
  if g.enforceModelFloor = false then return
  let isConfirmation := request.tier = some .confirmation ∨ request.purpose = "confirmation"
  if ¬isConfirmation ∨ isBelowFloor modelId = false ∨ modelId ∈ (← Program.get).warnedFloorModels then return
  Program.modify fun m => { m with warnedFloorModels := modelId :: m.warnedFloorModels }
  emit (.modelBelowFloor modelId request.purpose)

/-- The budget that is registered for the scan of a request. -/
def contextOf (m : GatewayMemory) (request : LlmRequest) : Option BudgetContext :=
  match request.scanId with
  | none | some "" => none
  | some scanId => m.registry scanId

/-- A policy that halts before a call: it has a ceiling, and it is enforced. -/
def halts (policy : BudgetPolicy) : Bool :=
  !(policy.maxUsd.isNone && policy.maxTotalTokens.isNone) && decide (policy.enforcement = .hardHalt)

/-- `assertPreCallBudget`. -/
def assertPreCallBudget (request : LlmRequest) : GatewayProgram Unit := do
  match contextOf (← Program.get) request with
  | none => pure ()
  | some ctx =>
    if halts ctx.policy then
      await .estimateTokens
      let meter := (← Program.get).meters ctx.meter
      if refusedPreCall g.config ctx.policy meter request.toCompletionRequest then
        let modelId := resolveModelId g.config request.toCompletionRequest
        emit (.budgetPrecallRefused modelId request.purpose request.scanId ctx.policy
          (estimatedUsd g.config request.toCompletionRequest) (estimatedUsage request.toCompletionRequest).totalTokens
          (meter.checkBudget ctx.policy).spentUsd (meter.checkBudget ctx.policy).spentTokens)
        Program.throw (.budgetExceeded modelId)

/-! ## Attempts -/

/-- `Math.min(policy.baseDelayMs * 2 ** attempt, policy.maxDelayMs)`. -/
def backoff (attempt : ℕ) : ℕ := min (g.baseDelayMs * 2 ^ attempt) g.maxDelayMs

/-- The loop of `withRetry`, with the attempts that are left after this one. -/
def retrying (request : LlmRequest) (model : String) (attempt : ℕ) :
    ℕ → GatewayProgram (Except AttemptError AdapterCompletion)
  | 0 => await (.dispatch request model attempt)
  | left + 1 => do
    match ← await (.dispatch request model attempt) with
    | .ok completion => pure (.ok completion)
    | .error err =>
      if err.retriable then
        -- a wait that rejects leaves the loop
        match ← await (.sleep (backoff g attempt)) with
        | .ok () => retrying request model (attempt + 1) left
        | .error err => pure (.error err)
      else pure (.error err)

/-- The loop of `withRetryAndFallback` over the fallback models. -/
def fallingBack (request : LlmRequest) (primary : String) (attempted : List String) (lastError : AttemptError) :
    List String → GatewayProgram (Except AttemptError AdapterCompletion)
  | [] => pure (.error lastError)
  | model :: rest =>
    if model ∈ attempted then fallingBack request primary attempted lastError rest
    else do
      emit (.modelFallback primary model)
      match ← await (.dispatch request model 0) with
      | .ok completion => pure (.ok completion)
      | .error err => fallingBack request primary (model :: attempted) err rest

/-- `withRetryAndFallback`, as `completeOnce` uses it. -/
def attempts (request : LlmRequest) : GatewayProgram (Except AttemptError AdapterCompletion) := do
  let primary := resolveModelId g.config request.toCompletionRequest
  match ← retrying g request primary 0 g.config.maxRetries with
  | .ok completion => pure (.ok completion)
  | .error err => fallingBack request primary [primary] err (fallbackModelIds g.config primary)

/-! ## Accounting -/

/-- The meter of a scan that is registered. -/
def scanMeter (m : GatewayMemory) (metadata : CallMetadata) : Option ℕ :=
  match metadata.scanId with
  | none | some "" => none
  | some scanId => (m.registry scanId).map (·.meter)

/-- The meters that `account` records in: that of the scan, and the standalone one unless it is the same. -/
def metersOf (m : GatewayMemory) (metadata : CallMetadata) : List ℕ :=
  match scanMeter m metadata, g.costMeter with
  | none, costMeter => costMeter.toList
  | some meter, none => [meter]
  | some meter, some costMeter => if costMeter = meter then [meter] else [meter, costMeter]

/-- `account`, on the memory. -/
def charged (log : LlmCallLog) (batch : Bool) (m : GatewayMemory) : GatewayMemory :=
  let entry : MeterEntry := { modelId := log.model, usage := log.usage, layer := log.metadata.layer, batch }
  { m with
    callLog := log :: m.callLog
    meters := (metersOf g m log.metadata).foldl
      (fun meters ref => Function.update meters ref ((meters ref).record entry)) m.meters }

/-- `account`. -/
def account (metadata : CallMetadata) (model : String) (usage : TokenUsage) (batch : Bool := false) :
    GatewayProgram Unit :=
  Program.modify (charged g { model, usage, metadata } batch)

/-- `maybeRecordParseFailure`. -/
def maybeRecordParseFailure (request : LlmRequest) (completion : AdapterCompletion) : GatewayProgram Unit :=
  if request.responseFormat ≠ .json ∨ completion.toolCalls ≠ [] ∨ (g.parseJson completion.content).isSome then pure ()
  else emit (.responseParseFailure completion.model request.purpose)

/-! ## Calls -/

/-- `completeOnce`. -/
def completeOnce (request : LlmRequest) : GatewayProgram LlmResponse := do
  assertEgress g
  maybeWarnFloor g request (resolveModelId g.config request.toCompletionRequest)
  assertPreCallBudget g request
  await .turn
  match ← attempts g request with
  | .error err => Program.throw (.provider err)
  | .ok completion =>
    maybeRecordParseFailure g request completion
    account g request.metadata completion.model completion.usage
    return { toAdapterCompletion := completion }

/-- The confidence of a response, as the gateway was told to judge it. -/
def signalOf (policy : EscalationPolicy) (request : LlmRequest) (response : LlmResponse) : ConfidenceSignal :=
  evaluateConfidence g.parseJson request.responseFormat response.content response.stopReason
    (policy.confidenceThreshold.getD (1 / 2))

/-- The response that is returned, with the confidence of the last attempt. -/
def surfaced (signal : ConfidenceSignal) (response : LlmResponse) : LlmResponse :=
  match signal.confidence with
  | none => response
  | some confidence => { response with confidence := some confidence }

/-- The loop of `completeWithEscalation`, with the escalations that are left. -/
def climb (policy : EscalationPolicy) : ℕ → LlmRequest → LlmResponse → GatewayProgram LlmResponse
  | 0, current, response => return surfaced (signalOf g policy current response) response
  | left + 1, current, response =>
    let signal := signalOf g policy current response
    if signal.low && isEligibleForEscalation current then
      match current.tier.bind fun tier => (nextTier tier).map fun next => (tier, next) with
      | none => return surfaced signal response
      | some (fromTier, toTier) => do
        emit (.modelEscalation fromTier toTier signal)
        let escalated := withEscalatedTier current toTier
        let response ← completeOnce g escalated
        await .turn
        climb policy left escalated response
    else return surfaced signal response

/-- `completeWithEscalation`. -/
def completeWithEscalation (policy : EscalationPolicy) (request : LlmRequest) : GatewayProgram LlmResponse := do
  let response ← completeOnce g request
  await .turn
  climb g policy (policy.maxEscalations.getD 2) request response

/-- `complete`. -/
def complete (request : LlmRequest) : GatewayProgram LlmResponse :=
  match g.escalation with
  | none => completeOnce g request
  | some policy => if policy.enabled then completeWithEscalation g policy request else completeOnce g request

/-- The usage of the last `message_done`. -/
def lastUsage : List LlmStreamEvent → Option TokenUsage
  | [] => none
  | event :: events =>
    match lastUsage events, event with
    | some usage, _ => some usage
    | none, .messageDone usage _ => some usage
    | none, _ => none

/-- `stream`, with what it yields. -/
def stream (request : LlmRequest) : GatewayProgram (List LlmStreamEvent) := do
  assertEgress g
  let modelId := resolveModelId g.config request.toCompletionRequest
  maybeWarnFloor g request modelId
  assertPreCallBudget g request
  await .turn
  match ← await (.stream request modelId) with
  | (events, .abandoned) => return events
  | (events, .failed message) =>
    emit (.streamError modelId request.purpose)
    return events ++ [.error message]
  | (events, .done) =>
    match lastUsage events with
    | none => return events
    | some usage =>
      account g request.metadata modelId usage
      return events

/-- The loop of `getBatchResults`, with the results that are still to come. -/
def batchResults (batchId : String) (metadataByCustomId : List (String × CallMetadata)) :
    ℕ → GatewayProgram (List BatchItem)
  | 0 => return []
  | left + 1 => do
    match ← await (.nextResult batchId) with
    | .error err => Program.throw (.provider err)
    | .ok item =>
      match item with
      | .succeeded customId completion =>
        match metadataByCustomId.lookup customId with
        | none => pure ()
        | some metadata => account g metadata completion.model completion.usage true
      | _ => pure ()
      return item :: (← batchResults batchId metadataByCustomId left)

/-- `getBatchResults`. -/
def getBatchResults (batchId : String) (metadataByCustomId : List (String × CallMetadata)) :
    GatewayProgram (List BatchItem) := do
  assertEgress g
  batchResults g batchId metadataByCustomId (← await (.openBatch batchId))

end Gateway

end MontrSecure.LlmGateway
