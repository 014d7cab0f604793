import MontrSecure.CostMeter.Meter
import MontrSecure.Machine.Runs
import MontrSecure.Text.Utf16

/-!
# The budget guard before a call

`packages/llm-gateway/src/gateway.ts`, with `retry.ts` and `mapping.ts`: before a request is sent to a provider,
its worst case is added to what the scan has spent, and the call is refused above the ceiling. What is spent is
recorded when the reply is there, under the model that it names. Calls of a scan overlap, so that the guard does not
see the calls in flight. `withinCeiling_of_meets` says in which runs the ceiling holds nevertheless.
-/

namespace MontrSecure.LlmGateway

open Text

/-! ## Requests -/

/-- `ModelTierSchema`. -/
inductive ModelTier where
  | triage
  | default
  | confirmation
  deriving DecidableEq

/-- The content of an `LLMMessage`: a text, or blocks of text. -/
inductive MessageContent where
  | text (text : String)
  | blocks (texts : List String)

/-- `contentToString`. -/
def contentToString : MessageContent → String
  | .text text => text
  | .blocks texts => String.join texts

/-- `LLMRequest`, with what the budget guard and the accounting read. -/
structure CompletionRequest where
  model : Option String := none
  tier : Option ModelTier := none
  system : Option String := none
  messages : List MessageContent
  maxTokens : ℕ
  layer : Option LayerId := none

/-- The gateway's part of `MontrConfig`, and its retry policy. -/
structure GatewayConfig where
  modelMatrix : ModelTier → String
  fallbackModel : Option String := none
  maxRetries : ℕ := 2

/-- `resolveModelId`: the concrete model of a request, else the one of its tier. -/
def resolveModelId (config : GatewayConfig) (request : CompletionRequest) : String :=
  request.model.getD (config.modelMatrix (request.tier.getD .default))

/-- `fallbackModelIds`. -/
def fallbackModelIds (config : GatewayConfig) (primaryModelId : String) : List String :=
  match config.fallbackModel with
  | none => []
  | some fallback => if fallback = "" ∨ fallback = primaryModelId then [] else [fallback]

/-- `estimateTokens`: one token for four code units, rounded up. -/
def estimateTokens (request : CompletionRequest) : ℕ :=
  (Text.length (request.system.getD "" ++ String.join (request.messages.map contentToString)) + 3) / 4

/-! ## The provider -/

/-- What an adapter returns: the model that the reply names, and what it says was used. -/
structure Completion where
  model : String
  usage : TokenUsage

/-- A failed attempt, by whether `isRetriableProviderError` holds of it. -/
structure AttemptError where
  retriable : Bool

/-- How the adapter answers one dispatch of a request: by model and attempt. An attempt that runs into the timeout
fails. -/
abbrev Adapter := String → ℕ → Except AttemptError Completion

/-- The loop of `withRetry`, with the attempts that are left after this one. -/
def withRetryFrom (call : ℕ → Except AttemptError Completion) (attempt : ℕ) :
    ℕ → Except AttemptError Completion
  | 0 => call attempt
  | left + 1 =>
    match call attempt with
    | .ok completion => .ok completion
    | .error err => if err.retriable then withRetryFrom call (attempt + 1) left else .error err

/-- `withRetry`. -/
def withRetry (call : ℕ → Except AttemptError Completion) (maxRetries : ℕ) : Except AttemptError Completion :=
  withRetryFrom call 0 maxRetries

/-- The loop of `withRetryAndFallback` over the fallback models. -/
def tryFallbacks (call : Adapter) (attemptedModels : List String) (lastError : AttemptError) :
    List String → Except AttemptError Completion
  | [] => .error lastError
  | model :: rest =>
    if model ∈ attemptedModels then tryFallbacks call attemptedModels lastError rest
    else
      match call model 0 with
      | .ok completion => .ok completion
      | .error err => tryFallbacks call (model :: attemptedModels) err rest

/-- `withRetryAndFallback`. -/
def withRetryAndFallback (primaryModelId : String) (call : Adapter) (maxRetries : ℕ)
    (fallbackModels : List String) : Except AttemptError Completion :=
  match withRetry (call primaryModelId) maxRetries with
  | .ok completion => .ok completion
  | .error primaryErr => tryFallbacks call [primaryModelId] primaryErr fallbackModels

/-- The models that a request may be sent to. -/
def modelsOf (config : GatewayConfig) (request : CompletionRequest) : List String :=
  resolveModelId config request :: fallbackModelIds config (resolveModelId config request)

section Retrying

variable {call : Adapter} {completion : Completion}

theorem answered_of_withRetryFrom {model : String} {attempt left : ℕ}
    (h : withRetryFrom (call model) attempt left = .ok completion) : ∃ k, call model k = .ok completion := by
  induction left generalizing attempt with
  | zero => exact ⟨attempt, h⟩
  | succ left ih =>
    unfold withRetryFrom at h
    split at h
    next hcall =>
      obtain rfl := Except.ok.inj h
      exact ⟨attempt, hcall⟩
    next err hcall =>
      by_cases hretry : err.retriable = true
      · rw [if_pos hretry] at h
        exact ih h
      · rw [if_neg hretry] at h
        cases h

theorem answered_of_tryFallbacks {attempted models : List String} {lastError : AttemptError}
    (h : tryFallbacks call attempted lastError models = .ok completion) :
    ∃ model ∈ models, ∃ k, call model k = .ok completion := by
  induction models generalizing attempted lastError with
  | nil => cases h
  | cons model rest ih =>
    have hrest : (∃ m ∈ rest, ∃ k, call m k = .ok completion) →
        ∃ m ∈ model :: rest, ∃ k, call m k = .ok completion := by
      rintro ⟨m, hm, hk⟩
      exact ⟨m, List.mem_cons_of_mem _ hm, hk⟩
    unfold tryFallbacks at h
    by_cases hmem : model ∈ attempted
    · rw [if_pos hmem] at h
      exact hrest (ih h)
    · rw [if_neg hmem] at h
      split at h
      next hcall =>
        obtain rfl := Except.ok.inj h
        exact ⟨model, List.mem_cons_self, 0, hcall⟩
      next err hcall => exact hrest (ih h)

/-- A reply comes from one attempt on one of the models. -/
theorem answered_of_withRetryAndFallback {config : GatewayConfig} {request : CompletionRequest} {maxRetries : ℕ}
    (h : withRetryAndFallback (resolveModelId config request) call maxRetries
      (fallbackModelIds config (resolveModelId config request)) = .ok completion) :
    ∃ model ∈ modelsOf config request, ∃ k, call model k = .ok completion := by
  unfold withRetryAndFallback at h
  split at h
  next hprimary =>
    obtain rfl := Except.ok.inj h
    exact ⟨_, List.mem_cons_self, answered_of_withRetryFrom hprimary⟩
  next err hprimary =>
    obtain ⟨model, hmodel, hk⟩ := answered_of_tryFallbacks h
    exact ⟨model, List.mem_cons_of_mem _ hmodel, hk⟩

end Retrying

/-! ## The guard -/

/-- The usage that a request is estimated at: the output is taken as `maxTokens`. -/
def estimatedUsage (request : CompletionRequest) : TokenUsage where
  inputTokens := estimateTokens request
  outputTokens := request.maxTokens
  totalTokens := estimateTokens request + request.maxTokens

/-- What a request is estimated at in dollars, at the price of the model it resolves to. -/
def estimatedUsd (config : GatewayConfig) (request : CompletionRequest) : ℚ :=
  priceUsageUsd (estimatedUsage request) (resolveModelId config request)

/-- `assertPreCallBudget`, for a scan that is registered with a meter and a policy: the call is refused. -/
def refusedPreCall (config : GatewayConfig) (policy : BudgetPolicy) (meter : LiveCostMeter)
    (request : CompletionRequest) : Bool :=
  if policy.maxUsd = none ∧ policy.maxTotalTokens = none then false
  else if policy.enforcement ≠ .hardHalt then false
  else
    let spent := meter.checkBudget policy
    let projectedUsd := spent.spentUsd + estimatedUsd config request
    let projectedTokens := spent.spentTokens + (estimatedUsage request).totalTokens
    policy.maxUsd.any (fun maxUsd => decide (projectedUsd > maxUsd)) ||
      policy.maxTotalTokens.any (fun maxTokens => decide (projectedTokens > maxTokens))

/-- Under a hard halt, a call is refused exactly when what is recorded and its own estimate are above a ceiling. -/
theorem refusedPreCall_iff {config : GatewayConfig} {policy : BudgetPolicy} {meter : LiveCostMeter}
    {request : CompletionRequest} (hpolicy : policy.enforcement = .hardHalt) :
    refusedPreCall config policy meter request = true ↔
      policy.Exceeded (meter.totalUsd + estimatedUsd config request)
        (meter.total.totalTokens + (estimatedUsage request).totalTokens) := by
  unfold refusedPreCall BudgetPolicy.Exceeded
  by_cases hnone : policy.maxUsd = none ∧ policy.maxTotalTokens = none
  · rw [if_pos hnone]
    simp [hnone.1, hnone.2]
  · rw [if_neg hnone, if_neg (not_not_intro hpolicy)]
    simp [LiveCostMeter.checkBudget, Option.any_eq_true]

/-- What is within a ceiling stays so when less is spent. -/
theorem not_exceeded_mono {policy : BudgetPolicy} {usd usd' : ℚ} {tokens tokens' : ℕ}
    (h : ¬policy.Exceeded usd tokens) (husd : usd' ≤ usd) (htokens : tokens' ≤ tokens) :
    ¬policy.Exceeded usd' tokens' := by
  rintro (⟨maxUsd, hmax, hlt⟩ | ⟨maxTokens, hmax, hlt⟩)
  · exact h (Or.inl ⟨maxUsd, hmax, lt_of_lt_of_le hlt husd⟩)
  · exact h (Or.inr ⟨maxTokens, hmax, lt_of_lt_of_le hlt htokens⟩)

/-! ## The calls of a scan -/

/-- The meter of a registered scan, and the requests that were let through and whose replies are not recorded yet. -/
structure ScanCalls where
  meter : LiveCostMeter
  inFlight : List CompletionRequest

/-- The scan before its first call. -/
def ScanCalls.start (scanId : ScanId) (now : IsoDateTime) : ScanCalls where
  meter := createCostMeter scanId now
  inFlight := []

/-- What happens next in the gateway: a call gets to its guard, or the provider settles one that is in flight. -/
inductive GatewayAction where
  | complete (request : CompletionRequest)
  | settle (i : ℕ) (adapter : Adapter)

/-- What `account` records. -/
def accountEntry (request : CompletionRequest) (completion : Completion) : MeterEntry where
  modelId := completion.model
  usage := completion.usage
  layer := request.layer

/-- `completeOnce`, cut at the wait for the provider. An escalation makes several such calls. -/
def step (config : GatewayConfig) (policy : BudgetPolicy) : GatewayAction → ScanCalls → Option ScanCalls
  | .complete request, s =>
    some (if refusedPreCall config policy s.meter request then s
      else { s with inFlight := s.inFlight ++ [request] })
  | .settle i adapter, s =>
    s.inFlight[i]?.map fun request =>
      let modelId := resolveModelId config request
      match withRetryAndFallback modelId adapter config.maxRetries (fallbackModelIds config modelId) with
      | .ok completion =>
        { meter := s.meter.record (accountEntry request completion), inFlight := s.inFlight.eraseIdx i }
      | .error _ => { s with inFlight := s.inFlight.eraseIdx i }

/-- A reply reports no more than what its request was estimated at, and nothing of a cache. -/
structure Completion.BoundedBy (completion : Completion) (request : CompletionRequest) : Prop where
  input : completion.usage.inputTokens ≤ estimateTokens request
  output : completion.usage.outputTokens ≤ request.maxTokens
  cacheRead : completion.usage.cacheReadTokens.getD 0 = 0
  cacheWrite : completion.usage.cacheWriteTokens.getD 0 = 0

/-- Every reply that a call in flight may get has the property. -/
def Replies (config : GatewayConfig) (P : CompletionRequest → Completion → Prop) (i : ℕ) (adapter : Adapter)
    (s : ScanCalls) : Prop :=
  ∀ request, s.inFlight[i]? = some request → ∀ model ∈ modelsOf config request, ∀ k completion,
    adapter model k = .ok completion → P request completion

/-- The provider reports no more than what was estimated. -/
def RepliesBounded (config : GatewayConfig) : GatewayAction → ScanCalls → Prop
  | .complete _, _ => True
  | .settle i adapter, s => Replies config (fun request completion => completion.BoundedBy request) i adapter s

/-- Whatever order the calls of a scan and their replies come in: when no reply reports more than was estimated, the
spend that is recorded is never above a ceiling. -/
def WithinCeiling (config : GatewayConfig) (policy : BudgetPolicy) : Prop :=
  ∀ scanId now actions s, Machine.Meets (step config policy) (RepliesBounded config) actions (.start scanId now) →
    Machine.run (step config policy) actions (.start scanId now) = some s →
    ¬policy.Exceeded s.meter.totalUsd s.meter.total.totalTokens

/-! ## What is committed -/

/-- The dollars that requests are estimated at. -/
def committedUsd (config : GatewayConfig) (requests : List CompletionRequest) : ℚ :=
  (requests.map (estimatedUsd config)).sum

/-- The tokens that requests are estimated at. -/
def committedTokens (requests : List CompletionRequest) : ℕ :=
  (requests.map fun request => (estimatedUsage request).totalTokens).sum

/-- A model that a reply names is no dearer for the request than the model the request was estimated for, and the
total of the reply counts nothing besides its input and its output. -/
def Completion.NoDearer (config : GatewayConfig) (request : CompletionRequest) (completion : Completion) : Prop :=
  priceUsageUsd (estimatedUsage request) completion.model ≤ estimatedUsd config request ∧
    completion.usage.totalTokens ≤ completion.usage.inputTokens + completion.usage.outputTokens

/-- A call that is let through while others are in flight leaves room for their estimates as well, and no reply is
dearer than estimated. -/
def LeavesRoom (config : GatewayConfig) (policy : BudgetPolicy) : GatewayAction → ScanCalls → Prop
  | .complete request, s =>
    s.inFlight ≠ [] → refusedPreCall config policy s.meter request = false →
      ¬policy.Exceeded (s.meter.totalUsd + committedUsd config (s.inFlight ++ [request]))
        (s.meter.total.totalTokens + committedTokens (s.inFlight ++ [request]))
  | .settle i adapter, s => Replies config (Completion.NoDearer config) i adapter s

/-- What is recorded and what is in flight are within the ceilings together. -/
def Reserved (config : GatewayConfig) (policy : BudgetPolicy) (s : ScanCalls) : Prop :=
  ¬policy.Exceeded (s.meter.totalUsd + committedUsd config s.inFlight)
    (s.meter.total.totalTokens + committedTokens s.inFlight)

section Reserved

variable {config : GatewayConfig} {policy : BudgetPolicy} {s : ScanCalls} {request : CompletionRequest} {i : ℕ}

/-- A request in flight and the others. -/
theorem committedUsd_eraseIdx {requests : List CompletionRequest} (h : requests[i]? = some request) :
    committedUsd config requests = estimatedUsd config request + committedUsd config (requests.eraseIdx i) := by
  obtain ⟨hi, rfl⟩ := List.getElem?_eq_some_iff.mp h
  exact ((List.getElem_cons_eraseIdx_perm hi).map (estimatedUsd config)).sum_eq.symm

theorem committedTokens_eraseIdx {requests : List CompletionRequest} (h : requests[i]? = some request) :
    committedTokens requests = (estimatedUsage request).totalTokens + committedTokens (requests.eraseIdx i) := by
  obtain ⟨hi, rfl⟩ := List.getElem?_eq_some_iff.mp h
  exact ((List.getElem_cons_eraseIdx_perm hi).map fun request => (estimatedUsage request).totalTokens).sum_eq.symm

theorem committedUsd_nonneg (config : GatewayConfig) (requests : List CompletionRequest) : 0 ≤ committedUsd config requests := by
  refine List.sum_nonneg fun usd husd => ?_
  obtain ⟨request, -, rfl⟩ := List.mem_map.mp husd
  exact priceUsageUsd_nonneg _ _ _

/-- A reply within its estimate costs no more than the estimate at the price of the model it names. -/
theorem usd_accountEntry_le {completion : Completion} (h : completion.BoundedBy request) :
    (accountEntry request completion).usd ≤ priceUsageUsd (estimatedUsage request) completion.model :=
  priceUsageUsd_mono h.input h.output h.cacheRead h.cacheWrite

/-- A call that is let through keeps what is reserved: alone by the guard, among others by the room it leaves. -/
theorem Reserved.complete (hpolicy : policy.enforcement = .hardHalt) (hs : Reserved config policy s)
    (hroom : LeavesRoom config policy (.complete request) s) :
    Reserved config policy
      (if refusedPreCall config policy s.meter request then s
        else { s with inFlight := s.inFlight ++ [request] }) := by
  cases hrefused : refusedPreCall config policy s.meter request with
  | true => simpa using hs
  | false =>
    rw [if_neg (by simp)]
    by_cases halone : s.inFlight = []
    · -- nothing is in flight: the guard has looked at all there is
      have hguard : ¬policy.Exceeded (s.meter.totalUsd + estimatedUsd config request)
          (s.meter.total.totalTokens + (estimatedUsage request).totalTokens) := by
        rw [← refusedPreCall_iff hpolicy, hrefused]
        simp
      simpa [Reserved, halone, committedUsd, committedTokens] using hguard
    · exact hroom halone hrefused

/-- A call that is settled takes no more than what was reserved for it. -/
theorem Reserved.settle {adapter : Adapter} {t : ScanCalls} (hs : Reserved config policy s)
    (hbounded : RepliesBounded config (.settle i adapter) s)
    (hroom : LeavesRoom config policy (.settle i adapter) s)
    (hstep : step config policy (.settle i adapter) s = some t) : Reserved config policy t := by
  obtain ⟨request, hrequest, rfl⟩ := Option.map_eq_some_iff.mp hstep
  unfold Reserved at hs
  rw [committedUsd_eraseIdx hrequest, committedTokens_eraseIdx hrequest] at hs
  have husd : 0 ≤ estimatedUsd config request := priceUsageUsd_nonneg _ _ _
  dsimp only
  split
  next completion hcompletion =>
    obtain ⟨model, hmodel, k, hk⟩ := answered_of_withRetryAndFallback hcompletion
    have hb := hbounded request hrequest model hmodel k completion hk
    obtain ⟨hprice, htotal⟩ := hroom request hrequest model hmodel k completion hk
    have hentry := usd_accountEntry_le hb
    have hin := hb.input
    have hout := hb.output
    refine not_exceeded_mono hs ?_ ?_
    · rw [LiveCostMeter.totalUsd_record]
      linarith
    · show s.meter.total.totalTokens + completion.usage.totalTokens + _ ≤ _
      unfold estimatedUsage
      dsimp only
      omega
  next err herr => exact not_exceeded_mono hs (by simpa using husd) (by simp)

/-- Each step keeps what is recorded and what is in flight within the ceilings. -/
theorem Reserved.step {a : GatewayAction} {t : ScanCalls} (hpolicy : policy.enforcement = .hardHalt)
    (hmeets : RepliesBounded config a s ∧ LeavesRoom config policy a s) (hs : Reserved config policy s)
    (hstep : LlmGateway.step config policy a s = some t) : Reserved config policy t := by
  obtain ⟨hbounded, hroom⟩ := hmeets
  cases a with
  | complete request =>
    obtain rfl := Option.some.inj hstep
    exact hs.complete hpolicy hroom
  | settle i adapter => exact hs.settle hbounded hroom hstep

/-- At first nothing is spent, and the ceilings are positive. -/
theorem reserved_start {scanId : ScanId} {now : IsoDateTime} (hpolicy : policy.Valid) :
    Reserved config policy (.start scanId now) := by
  rintro (⟨maxUsd, hmax, hlt⟩ | ⟨maxTokens, hmax, hlt⟩)
  · have := hpolicy.1 maxUsd hmax
    simp only [ScanCalls.start, createCostMeter, committedUsd, List.map_nil, List.sum_nil, add_zero] at hlt
    linarith
  · simp [ScanCalls.start, createCostMeter, committedTokens] at hlt

end Reserved

/-- A policy with its ceilings raised. -/
def raised (policy : BudgetPolicy) (usd : ℚ) (tokens : ℕ) : BudgetPolicy :=
  { policy with maxUsd := policy.maxUsd.map (· + usd), maxTotalTokens := policy.maxTotalTokens.map (· + tokens) }

/-- At most `k` calls are in flight, each of them is estimated at no more than `usd` dollars and `tokens` tokens, and
no reply is dearer than estimated. -/
def Overlaps (config : GatewayConfig) (policy : BudgetPolicy) (k : ℕ) (usd : ℚ) (tokens : ℕ) :
    GatewayAction → ScanCalls → Prop
  | .complete request, s => refusedPreCall config policy s.meter request = false → s.inFlight.length < k ∧
      estimatedUsd config request ≤ usd ∧ (estimatedUsage request).totalTokens ≤ tokens
  | .settle i adapter, s => Replies config (Completion.NoDearer config) i adapter s

/-- What is in flight is small, and what is recorded and in flight is within the raised ceilings. -/
structure Overlapping (config : GatewayConfig) (policy : BudgetPolicy) (k : ℕ) (usd : ℚ) (tokens : ℕ)
    (s : ScanCalls) : Prop where
  small : ∀ request ∈ s.inFlight, estimatedUsd config request ≤ usd ∧ (estimatedUsage request).totalTokens ≤ tokens
  reserved : Reserved config (raised policy ((k - 1 : ℕ) * usd) ((k - 1) * tokens)) s

section Overlapping

variable {config : GatewayConfig} {policy : BudgetPolicy} {s : ScanCalls} {request : CompletionRequest} {k tokens : ℕ}
  {usd : ℚ}

/-- What is above a raised ceiling is above the ceiling without what it was raised by. -/
theorem not_exceeded_raised {usd' extra : ℚ} {tokens' more : ℕ} (h : ¬policy.Exceeded usd' tokens') :
    ¬(raised policy extra more).Exceeded (usd' + extra) (tokens' + more) := by
  rintro (⟨maxUsd, hmax, hlt⟩ | ⟨maxTokens, hmax, hlt⟩)
  · obtain ⟨ceiling, hceiling, rfl⟩ := Option.map_eq_some_iff.mp hmax
    exact h (.inl ⟨ceiling, hceiling, by linarith⟩)
  · obtain ⟨ceiling, hceiling, rfl⟩ := Option.map_eq_some_iff.mp hmax
    exact h (.inr ⟨ceiling, hceiling, by omega⟩)

theorem valid_raised (hpolicy : policy.Valid) (husd : 0 ≤ usd) : (raised policy usd tokens).Valid := by
  constructor
  · intro maxUsd hmax
    obtain ⟨ceiling, hceiling, rfl⟩ := Option.map_eq_some_iff.mp hmax
    have := hpolicy.1 ceiling hceiling
    linarith
  · intro maxTokens hmax
    obtain ⟨ceiling, hceiling, rfl⟩ := Option.map_eq_some_iff.mp hmax
    have := hpolicy.2 ceiling hceiling
    omega

theorem committedUsd_le {requests : List CompletionRequest}
    (h : ∀ request ∈ requests, estimatedUsd config request ≤ usd) :
    committedUsd config requests ≤ requests.length * usd := by
  have hsum := List.sum_le_card_nsmul (requests.map (estimatedUsd config)) usd (by simpa using h)
  rwa [List.length_map, nsmul_eq_mul] at hsum

theorem committedTokens_le {requests : List CompletionRequest}
    (h : ∀ request ∈ requests, (estimatedUsage request).totalTokens ≤ tokens) :
    committedTokens requests ≤ requests.length * tokens := by
  have hsum := List.sum_le_card_nsmul (requests.map fun request => (estimatedUsage request).totalTokens) tokens
    (by simpa using h)
  rwa [List.length_map, nsmul_eq_mul, Nat.cast_id] at hsum

/-- Each step keeps what is recorded and in flight within the raised ceilings: the guard has seen everything but the
calls in flight, which are fewer than `k`. -/
theorem Overlapping.step {a : GatewayAction} {t : ScanCalls} (hpolicy : policy.enforcement = .hardHalt)
    (husd : 0 ≤ usd) (hmeets : RepliesBounded config a s ∧ Overlaps config policy k usd tokens a s)
    (hs : Overlapping config policy k usd tokens s) (hstep : LlmGateway.step config policy a s = some t) :
    Overlapping config policy k usd tokens t := by
  obtain ⟨hbounded, hoverlaps⟩ := hmeets
  cases a with
  | complete request =>
    obtain rfl := Option.some.inj hstep
    cases hrefused : refusedPreCall config policy s.meter request with
    | true => simpa using hs
    | false =>
      obtain ⟨hlength, hrequest⟩ := hoverlaps hrefused
      rw [if_neg (by simp)]
      refine ⟨?_, ?_⟩
      · intro other hother
        obtain hother | rfl := (List.mem_append.mp hother).imp_right List.mem_singleton.mp
        · exact hs.small other hother
        · exact hrequest
      · have hguard : ¬policy.Exceeded (s.meter.totalUsd + estimatedUsd config request)
            (s.meter.total.totalTokens + (estimatedUsage request).totalTokens) := by
          rw [← refusedPreCall_iff hpolicy, hrefused]
          simp
        have hdollars := committedUsd_le fun other hother => (hs.small other hother).1
        have htokens := committedTokens_le fun other hother => (hs.small other hother).2
        have hmore : s.inFlight.length * tokens ≤ (k - 1) * tokens := Nat.mul_le_mul_right tokens (by omega)
        have hextra : (s.inFlight.length : ℚ) * usd ≤ ((k - 1 : ℕ) : ℚ) * usd :=
          mul_le_mul_of_nonneg_right (by exact_mod_cast (by omega : s.inFlight.length ≤ k - 1)) husd
        refine not_exceeded_mono (not_exceeded_raised hguard) ?_ ?_
        · rw [committedUsd, List.map_append, List.sum_append, List.map_singleton, List.sum_singleton]
          rw [committedUsd] at hdollars
          linarith
        · rw [committedTokens, List.map_append, List.sum_append, List.map_singleton, List.sum_singleton]
          rw [committedTokens] at htokens
          dsimp only
          omega
  | settle i adapter =>
    refine ⟨?_, hs.reserved.settle hbounded hoverlaps hstep⟩
    obtain ⟨request, -, rfl⟩ := Option.map_eq_some_iff.mp hstep
    intro other hother
    refine hs.small other (List.mem_of_mem_eraseIdx (i := i) ?_)
    dsimp only at hother
    split at hother <;> exact hother

end Overlapping

/-- When at most `k` calls of a scan overlap, none of them estimated at more than `usd` dollars and `tokens` tokens,
the recorded spend is above a ceiling by the estimates of `k - 1` calls at most. -/
theorem not_exceeded_of_overlaps {config : GatewayConfig} {policy : BudgetPolicy} {scanId : ScanId}
    {now : IsoDateTime} {actions : List GatewayAction} {s : ScanCalls} {k tokens : ℕ} {usd : ℚ}
    (hvalid : policy.Valid) (hpolicy : policy.enforcement = .hardHalt) (husd : 0 ≤ usd)
    (hmeets : Machine.Meets (step config policy)
      (fun a s => RepliesBounded config a s ∧ Overlaps config policy k usd tokens a s) actions (.start scanId now))
    (hrun : Machine.run (step config policy) actions (.start scanId now) = some s) :
    ¬(raised policy ((k - 1 : ℕ) * usd) ((k - 1) * tokens)).Exceeded s.meter.totalUsd
      s.meter.total.totalTokens := by
  have hstart : Overlapping config policy k usd tokens (.start scanId now) :=
    ⟨fun _ hnone => absurd hnone List.not_mem_nil,
      reserved_start (valid_raised hvalid (mul_nonneg (Nat.cast_nonneg _) husd))⟩
  have hs : Overlapping config policy k usd tokens s :=
    Machine.keeps_of_meets hstart (fun a t t' hP ht hstep => ht.step hpolicy husd hP hstep) hmeets hrun
  refine not_exceeded_mono hs.reserved ?_ (Nat.le_add_right _ _)
  have := committedUsd_nonneg config s.inFlight
  linarith

/-! ## Rates -/

/-- A model whose rates are no higher is no dearer for any usage. -/
theorem priceUsageUsd_le_of_rates {modelId other : String} (usage : TokenUsage)
    (hin : (effectiveRate other).inputPerMillionUsd ≤ (effectiveRate modelId).inputPerMillionUsd)
    (hout : (effectiveRate other).outputPerMillionUsd ≤ (effectiveRate modelId).outputPerMillionUsd) :
    priceUsageUsd usage other ≤ priceUsageUsd usage modelId := by
  unfold priceUsageUsd
  refine roundUsd_mono ?_
  simp only [Bool.false_eq_true, if_false]
  gcongr

/-- A reply that names a model whose rates are no higher, and whose total is the sum of its parts, is no dearer. -/
theorem noDearer_of_rates {config : GatewayConfig} {request : CompletionRequest} {completion : Completion}
    (hin : (effectiveRate completion.model).inputPerMillionUsd ≤
      (effectiveRate (resolveModelId config request)).inputPerMillionUsd)
    (hout : (effectiveRate completion.model).outputPerMillionUsd ≤
      (effectiveRate (resolveModelId config request)).outputPerMillionUsd)
    (htotal : completion.usage.totalTokens = completion.usage.inputTokens + completion.usage.outputTokens) :
    completion.NoDearer config request :=
  ⟨priceUsageUsd_le_of_rates _ hin hout, htotal.le⟩

/-! ## Two calls at a time -/

section Sample

/-- Every tier has the same model. -/
def sampleConfig : GatewayConfig := { modelMatrix := fun _ => "claude-opus-5" }

/-- At most 150 tokens. -/
def samplePolicy : BudgetPolicy := { maxTotalTokens := some 150 }

/-- A request that is estimated at 101 tokens. -/
def sampleRequest : CompletionRequest := { messages := [.text "ping"], maxTokens := 100 }

/-- A provider that uses all it may. -/
def sampleAdapter : Adapter := fun model _ =>
  .ok { model, usage := { inputTokens := 1, outputTokens := 100, totalTokens := 101 } }

theorem samplePolicy_valid : samplePolicy.Valid := by
  refine ⟨nofun, fun maxTokens hmax => ?_⟩
  obtain rfl := Option.some.inj hmax
  norm_num

theorem estimateTokens_sampleRequest : estimateTokens sampleRequest = 1 := by decide

/-- The replies of the provider are within the estimate of the request, and no dearer. -/
theorem sampleAdapter_bounded {s : ScanCalls} {i : ℕ} (hs : ∀ request ∈ s.inFlight, request = sampleRequest) :
    Replies sampleConfig (fun request completion =>
      completion.BoundedBy request ∧ completion.NoDearer sampleConfig request) i sampleAdapter s := by
  intro request hrequest model hmodel k completion hk
  obtain rfl := hs request (List.mem_of_getElem? hrequest)
  obtain rfl := Except.ok.inj hk
  obtain rfl : model = "claude-opus-5" := List.mem_singleton.mp hmodel
  exact ⟨⟨estimateTokens_sampleRequest.ge, le_rfl, rfl, rfl⟩, noDearer_of_rates le_rfl le_rfl rfl⟩

/-- Only the sample request is in flight, whatever is done with it. -/
theorem sampleRequest_inFlight {a : GatewayAction} {s t : ScanCalls}
    (ha : a = .complete sampleRequest ∨ a = .settle 0 sampleAdapter)
    (hs : ∀ request ∈ s.inFlight, request = sampleRequest)
    (hstep : step sampleConfig samplePolicy a s = some t) : ∀ request ∈ t.inFlight, request = sampleRequest := by
  rcases ha with rfl | rfl
  · obtain rfl := Option.some.inj hstep
    split
    · exact hs
    · simpa [or_imp, forall_and] using hs
  · obtain ⟨request, -, rfl⟩ := Option.map_eq_some_iff.mp hstep
    intro other hother
    refine hs other (List.mem_of_mem_eraseIdx (i := 0) ?_)
    dsimp only at hother
    split at hother <;> exact hother

end Sample

/-- Two calls at a time, of 101 tokens each, use no more than 251 tokens. -/
theorem not_exceeded_of_overlaps_two : ∃ s, Machine.run (step sampleConfig samplePolicy)
    [.complete sampleRequest, .complete sampleRequest, .settle 0 sampleAdapter] (.start "scan" 0) = some s ∧
      ¬(raised samplePolicy ((2 - 1 : ℕ) * estimatedUsd sampleConfig sampleRequest) ((2 - 1) * 101)).Exceeded
        s.meter.totalUsd s.meter.total.totalTokens := by
  have hlengths : (Machine.run (step sampleConfig samplePolicy)
      [.complete sampleRequest, .complete sampleRequest, .settle 0 sampleAdapter] (.start "scan" 0)).map
        (fun s => s.inFlight.length) = some 1 := by decide +kernel
  obtain ⟨s, hrun, -⟩ := Option.map_eq_some_iff.mp hlengths
  have hestimate : (estimatedUsage sampleRequest).totalTokens ≤ 101 := by decide
  refine ⟨s, hrun, not_exceeded_of_overlaps samplePolicy_valid rfl (priceUsageUsd_nonneg _ _ _) ?_ hrun⟩
  -- the first call finds none in flight, and the second one
  refine ⟨⟨trivial, fun _ => ⟨by decide, le_rfl, hestimate⟩⟩,
    fun t ht => ⟨⟨trivial, fun _ => ⟨?_, le_rfl, hestimate⟩⟩, fun u hu => ⟨?_, fun _ _ => trivial⟩⟩⟩
  · obtain rfl := Option.some.inj ht
    split <;> decide
  · have hinFlight := sampleRequest_inFlight (Or.inl rfl)
      (sampleRequest_inFlight (Or.inl rfl) (fun _ h => absurd h List.not_mem_nil) ht) hu
    have hreplies := sampleAdapter_bounded (i := 0) hinFlight
    exact ⟨fun request h model hm k completion hk => (hreplies request h model hm k completion hk).1,
      fun request h model hm k completion hk => (hreplies request h model hm k completion hk).2⟩

end MontrSecure.LlmGateway
