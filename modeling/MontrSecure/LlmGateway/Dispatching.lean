import MontrSecure.LlmGateway.Completing

/-!
# What a call dispatches

One call to `complete` may get to the provider many times: it is retried, it falls back to another model, and it
climbs the tiers while the replies are doubtful. `permitted_of_dispatch` says when a dispatch may be: after the egress
guard has accepted the endpoint and the budget guard this very request, on a rung of the ladder that a doubtful reply
led to, and as the first attempt, a retry or a fallback. `concluded_of_return` says with which reply a call returns,
and `cost_issued_complete` how much it dispatches and waits at most.
-/

namespace MontrSecure.LlmGateway

open Async

/-- What a call has awaited. -/
abbrev CallTrace : Type := Trace GatewayOp GatewayOp.Ans GatewayMemory

/-- What is known at a point of a call. -/
abbrev CallAssertion : Type := Assertion GatewayOp GatewayOp.Ans GatewayMemory

namespace Gateway

/-! ## The ladder -/

/-- How many escalations a call is allowed. -/
def maxEscalations (g : Gateway) : ℕ :=
  match g.escalation with
  | none => 0
  | some policy => if policy.enabled then policy.maxEscalations.getD 2 else 0

/-- The request was dispatched, and this is the reply. -/
def Answered (tr : CallTrace) (request : LlmRequest) (completion : AdapterCompletion) : Prop :=
  ∃ m model attempt, ⟨m, .dispatch request model attempt, .ok completion⟩ ∈ tr

/-- The request that a doubtful reply leads to. -/
def Doubted (g : Gateway) (request : LlmRequest) (completion : AdapterCompletion) (next : LlmRequest) : Prop :=
  ∃ policy fromTier toTier, g.escalation = some policy ∧ policy.enabled = true ∧
    (signalOf g policy request { toAdapterCompletion := completion }).low = true ∧
    isEligibleForEscalation request = true ∧ request.tier = some fromTier ∧ nextTier fromTier = some toTier ∧
    next = withEscalatedTier request toTier

/-- The request is the `n`-th that a call came to: it is that of the caller, or the reply to the one below it was
doubtful. -/
inductive Rung (g : Gateway) (request : LlmRequest) (tr : CallTrace) : ℕ → LlmRequest → Prop where
  | bottom : Rung g request tr 0 request
  | up {n : ℕ} {current next : LlmRequest} {completion : AdapterCompletion} (h : Rung g request tr n current)
      (hlt : n < maxEscalations g) (hanswered : Answered tr current completion)
      (hdoubted : Doubted g current completion next) : Rung g request tr (n + 1) next

/-! ## The guards -/

/-- The budget guard has let the request through, and the call went on from there: the scan has no ceiling that
halts calls, or the meter that was registered for it had room when it was looked at. -/
inductive Cleared (g : Gateway) (request : LlmRequest) : CallTrace → Prop where
  | unlimited {tr : CallTrace} {m : GatewayMemory}
      (h : ∀ ctx, contextOf m request = some ctx → halts ctx.policy = false) :
      Cleared g request (⟨m, .turn, ()⟩ :: tr)
  | checked {tr : CallTrace} {m m' : GatewayMemory} {ctx : BudgetContext} (hctx : contextOf m request = some ctx)
      (hroom : refusedPreCall g.config ctx.policy (m'.meters ctx.meter) request.toCompletionRequest = false) :
      Cleared g request (⟨m', .turn, ()⟩ :: ⟨m, .estimateTokens, ()⟩ :: tr)
  | later {tr : CallTrace} {x : Await GatewayOp GatewayOp.Ans GatewayMemory} (h : Cleared g request tr) :
      Cleared g request (x :: tr)

/-- The endpoint, if one is set, is one that the egress guard accepts. -/
def EgressAllowed (g : Gateway) : Prop :=
  ∀ endpoint, Egress.setting g.endpoint = some endpoint → g.egress endpoint = .ok ()

/-! ## Attempts -/

/-- The model that a request resolves to. -/
def primaryOf (g : Gateway) (request : LlmRequest) : String := resolveModelId g.config request.toCompletionRequest

/-- The attempts at the primary model are over: the last one has failed for good or was the last that is allowed, or
the wait for the next one was rejected. -/
inductive Exhausted (g : Gateway) (request : LlmRequest) : CallTrace → Prop where
  | failed {tr : CallTrace} {m : GatewayMemory} {attempt : ℕ} {err : AttemptError}
      (h : err.retriable = false ∨ attempt = g.config.maxRetries) :
      Exhausted g request (⟨m, .dispatch request (primaryOf g request) attempt, .error err⟩ :: tr)
  | rejected {tr : CallTrace} {m : GatewayMemory} {ms : ℕ} {err : AttemptError} :
      Exhausted g request (⟨m, .sleep ms, .error err⟩ :: tr)

/-- The next attempt at a request. -/
inductive Attempt (g : Gateway) (request : LlmRequest) : CallTrace → String → ℕ → Prop where
  | first {tr : CallTrace} {m : GatewayMemory} : Attempt g request (⟨m, .turn, ()⟩ :: tr) (primaryOf g request) 0
  | again {tr : CallTrace} {m m' : GatewayMemory} {attempt : ℕ} {err : AttemptError}
      (hretriable : err.retriable = true) (hlt : attempt < g.config.maxRetries) :
      Attempt g request (⟨m', .sleep (backoff g attempt), .ok ()⟩ ::
        ⟨m, .dispatch request (primaryOf g request) attempt, .error err⟩ :: tr) (primaryOf g request) (attempt + 1)
  | fallback {tr : CallTrace} {model : String} (hmodel : model ∈ fallbackModelIds g.config (primaryOf g request))
      (h : Exhausted g request tr) : Attempt g request tr model 0

/-- A dispatch may be: the guards have let it through, and it is the next attempt at a request of the ladder. -/
structure Permitted (g : Gateway) (request : LlmRequest) (tr : CallTrace) (current : LlmRequest) (model : String)
    (attempt : ℕ) : Prop where
  egress : EgressAllowed g
  rung : ∃ n, Rung g request tr n current
  cleared : Cleared g current tr
  attempt : Attempt g current tr model attempt

/-- A call dispatches what it may, and nothing else is asked of it. -/
def dispatching (g : Gateway) (request : LlmRequest) : Protocol GatewayOp GatewayOp.Ans GatewayMemory where
  answers _ _ := True
  awaits tr _ _ op :=
    match op with
    | .dispatch current model attempt => Permitted g request tr current model attempt
    | _ => True
  ends _ _ _ := True

variable {g : Gateway} {request current : LlmRequest} {tr : CallTrace}
  {x : Await GatewayOp GatewayOp.Ans GatewayMemory}

theorem Answered.later {completion : AdapterCompletion} (h : Answered tr current completion) :
    Answered (x :: tr) current completion := by
  obtain ⟨m, model, attempt, hmem⟩ := h
  exact ⟨m, model, attempt, List.mem_cons_of_mem x hmem⟩

/-- A rung stays one. -/
theorem Rung.later {n : ℕ} (h : Rung g request tr n current) : Rung g request (x :: tr) n current := by
  induction h with
  | bottom => exact .bottom
  | up _ hlt hanswered hdoubted ih => exact ih.up hlt hanswered.later hdoubted

/-! ## One request -/

section Once

variable {n : ℕ}

/-- The call has come to the request. -/
def At (g : Gateway) (request : LlmRequest) (n : ℕ) (current : LlmRequest) : CallAssertion :=
  fun tr _ _ => Rung g request tr n current

/-- The guards have let the request through. -/
def Guarded (g : Gateway) (request : LlmRequest) (n : ℕ) (current : LlmRequest) (tr : CallTrace) : Prop :=
  EgressAllowed g ∧ Rung g request tr n current ∧ Cleared g current tr

theorem Guarded.later (h : Guarded g request n current tr) : Guarded g request n current (x :: tr) :=
  ⟨h.1, h.2.1.later, .later h.2.2⟩

theorem Guarded.permitted {model : String} {attempt : ℕ} (h : Guarded g request n current tr)
    (hattempt : Attempt g current tr model attempt) : Permitted g request tr current model attempt :=
  ⟨h.1, ⟨n, h.2.1⟩, h.2.2, hattempt⟩

/-- After the attempts at a request: there is a reply, or an error. -/
def Tried (g : Gateway) (request : LlmRequest) (n : ℕ) (current : LlmRequest) :
    Except AttemptError AdapterCompletion → CallAssertion
  | .ok completion, tr, _, _ => Rung g request tr n current ∧ Answered tr current completion
  | .error _, _, _, _ => True

/-- After the attempts at the primary model of a request. -/
def TriedPrimary (g : Gateway) (request : LlmRequest) (n : ℕ) (current : LlmRequest) :
    Except AttemptError AdapterCompletion → CallAssertion
  | .ok completion, tr, _, _ => Rung g request tr n current ∧ Answered tr current completion
  | .error _, tr, _, _ => Guarded g request n current tr ∧ Exhausted g current tr

/-- After the wait behind an attempt at the primary model: it is the turn of the next attempt, unless the wait was
rejected. -/
def Waited (g : Gateway) (request : LlmRequest) (n : ℕ) (current : LlmRequest) (attempt : ℕ) :
    Except AttemptError Unit → CallAssertion
  | .ok (), tr, _, _ => Guarded g request n current tr ∧ Attempt g current tr (primaryOf g current) (attempt + 1)
  | .error _, tr, _, _ => Guarded g request n current tr ∧ Exhausted g current tr

theorem permits_emit {A : CallTrace → Prop} (event : GatewayEvent) :
    Program.Triple (dispatching g request) (fun tr _ _ => A tr) (emit event) fun _ tr _ _ => A tr :=
  Program.Triple.modify fun _ _ _ h => h

/-- The attempts from the one that is next, up to the last one that is allowed. -/
theorem permits_retrying {attempt left : ℕ} (hleft : attempt + left = g.config.maxRetries) :
    Program.Triple (dispatching g request)
      (fun tr _ _ => Guarded g request n current tr ∧ Attempt g current tr (primaryOf g current) attempt)
      (retrying g current (primaryOf g current) attempt left) (TriedPrimary g request n current) := by
  induction left generalizing attempt with
  | zero =>
    apply Program.Triple.await
    · exact fun tr m₀ m h => h.1.permitted h.2
    · rintro tr m₀ m (err | completion) m₁ ⟨hguarded, -⟩ -
      · exact ⟨hguarded.later, .failed (.inr hleft)⟩
      · exact ⟨hguarded.2.1.later, m, _, _, List.mem_cons_self⟩
  | succ left ih =>
    unfold retrying
    -- after the attempt, the trace begins with its answer
    have hdispatch : Program.Triple (dispatching g request)
        (fun tr _ _ => Guarded g request n current tr ∧ Attempt g current tr (primaryOf g current) attempt)
        (await (.dispatch current (primaryOf g current) attempt)) fun reply tr _ _ =>
          Guarded g request n current tr ∧
            ∃ m tr', tr = ⟨m, .dispatch current (primaryOf g current) attempt, reply⟩ :: tr' := by
      apply Program.Triple.await
      · exact fun tr m₀ m h => h.1.permitted h.2
      · exact fun tr m₀ m reply m₁ h _ => ⟨h.1.later, m, tr, rfl⟩
    apply hdispatch.bind
    rintro (err | completion)
    · apply Program.Triple.ite
      · intro hretriable
        have hsleep : Program.Triple (dispatching g request)
            (fun tr _ _ => Guarded g request n current tr ∧
              ∃ m tr', tr = ⟨m, .dispatch current (primaryOf g current) attempt, .error err⟩ :: tr')
            (await (.sleep (backoff g attempt))) (Waited g request n current attempt) := by
          apply Program.Triple.await
          · exact fun _ _ _ _ => trivial
          · rintro tr m₀ m (e | _) m₁ ⟨hguarded, m', tr', rfl⟩ -
            · exact ⟨hguarded.later, .rejected⟩
            · exact ⟨hguarded.later, .again hretriable (by omega)⟩
        apply hsleep.bind
        rintro (e | _)
        · exact .pure fun _ _ _ h => h
        · exact ih (by omega)
      · intro hfinal
        apply Program.Triple.pure
        rintro tr m₀ m ⟨hguarded, m', tr', rfl⟩
        exact ⟨hguarded, .failed (.inl (Bool.eq_false_iff.mpr hfinal))⟩
    · apply Program.Triple.pure
      rintro tr m₀ m ⟨hguarded, m', tr', rfl⟩
      exact ⟨hguarded.2.1, m', _, _, List.mem_cons_self⟩

theorem permits_fallingBack {lastError : AttemptError} :
    Program.Triple (dispatching g request) (fun tr _ _ => Guarded g request n current tr ∧ Exhausted g current tr)
      (fallingBack current (primaryOf g current) [primaryOf g current] lastError
        (fallbackModelIds g.config (primaryOf g current))) (Tried g request n current) := by
  -- there is one fallback model at most
  obtain hnone | ⟨model, hmodel⟩ : fallbackModelIds g.config (primaryOf g current) = [] ∨
      ∃ model, fallbackModelIds g.config (primaryOf g current) = [model] := by
    unfold fallbackModelIds
    split
    · exact .inl rfl
    · split
      · exact .inl rfl
      · exact .inr ⟨_, rfl⟩
  · rw [hnone]
    exact .pure fun _ _ _ _ => trivial
  · rw [hmodel, fallingBack]
    apply Program.Triple.ite
    · exact fun _ => .pure fun _ _ _ _ => trivial
    · intro _
      apply Program.Triple.bind (permits_emit _)
      intro _
      have hdispatch : Program.Triple (dispatching g request)
          (fun tr _ _ => Guarded g request n current tr ∧ Exhausted g current tr) (await (.dispatch current model 0))
          (Tried g request n current) := by
        apply Program.Triple.await
        · rintro tr m₀ m ⟨hguarded, hexhausted⟩
          exact hguarded.permitted (.fallback (hmodel ▸ List.mem_singleton_self model) hexhausted)
        · rintro tr m₀ m (err | completion) m₁ ⟨hguarded, -⟩ -
          · trivial
          · exact ⟨hguarded.2.1.later, m, _, _, List.mem_cons_self⟩
      apply hdispatch.bind
      rintro (err | completion)
      · exact .pure fun _ _ _ _ => trivial
      · exact .pure fun _ _ _ h => h

theorem permits_attempts :
    Program.Triple (dispatching g request)
      (fun tr _ _ => Guarded g request n current tr ∧ Attempt g current tr (primaryOf g current) 0)
      (attempts g current) (Tried g request n current) := by
  apply Program.Triple.bind (permits_retrying (Nat.zero_add _))
  rintro (err | completion)
  · exact permits_fallingBack
  · exact .pure fun _ _ _ h => h

theorem permits_assertEgress {A : CallTrace → Prop} :
    Program.Triple (dispatching g request) (fun tr _ _ => A tr) (assertEgress g) fun _ tr _ _ =>
      EgressAllowed g ∧ A tr := by
  unfold assertEgress
  split
  · next hnone =>
    apply Program.Triple.pure
    refine fun tr m₀ m hA => ⟨fun endpoint hendpoint => ?_, hA⟩
    rw [hnone] at hendpoint
    cases hendpoint
  · next endpoint hsome =>
    split
    · next hok =>
      apply Program.Triple.pure
      refine fun tr m₀ m hA => ⟨fun endpoint' hendpoint => ?_, hA⟩
      obtain rfl := Option.some.inj (hsome.symm.trans hendpoint)
      exact hok
    · exact .throw fun _ _ _ _ => trivial

theorem permits_maybeWarnFloor {A : CallTrace → Prop} (modelId : String) :
    Program.Triple (dispatching g request) (fun tr _ _ => A tr) (maybeWarnFloor g current modelId) fun _ tr _ _ =>
      A tr := by
  unfold maybeWarnFloor
  apply Program.Triple.ite
  · exact fun _ => .pure fun _ _ _ h => h
  · intro _
    have hget : Program.Triple (dispatching g request) (fun tr _ _ => A tr)
        (Program.get (ε := GatewayError)) fun _ tr _ _ => A tr := .get fun _ _ _ h => h
    apply hget.bind
    intro m
    apply Program.Triple.ite
    · exact fun _ => .pure fun _ _ _ h => h
    · intro _
      have hwarned : Program.Triple (dispatching g request) (fun tr _ _ => A tr)
          (Program.modify (ε := GatewayError) fun m => { m with warnedFloorModels := modelId :: m.warnedFloorModels })
          fun _ tr _ _ => A tr := .modify fun _ _ _ h => h
      exact hwarned.bind fun _ => permits_emit _

/-- The budget guard is done, and the call has not gone on yet. -/
def Checked (g : Gateway) (current : LlmRequest) (tr : CallTrace) (m : GatewayMemory) : Prop :=
  (∀ ctx, contextOf m current = some ctx → halts ctx.policy = false) ∨
    ∃ m' tr' ctx, tr = ⟨m', .estimateTokens, ()⟩ :: tr' ∧ contextOf m' current = some ctx ∧
      refusedPreCall g.config ctx.policy (m.meters ctx.meter) current.toCompletionRequest = false

theorem permits_assertPreCallBudget {A : CallTrace → Prop} (hA : ∀ x tr, A tr → A (x :: tr)) :
    Program.Triple (dispatching g request) (fun tr _ _ => A tr) (assertPreCallBudget g current) fun _ tr _ m =>
      A tr ∧ Checked g current tr m := by
  have hget {B : CallTrace → GatewayMemory → Prop} : Program.Triple (dispatching g request) (fun tr _ m => B tr m)
      (Program.get (ε := GatewayError)) fun found tr _ m => found = m ∧ B tr m := .get fun _ _ _ h => ⟨rfl, h⟩
  unfold assertPreCallBudget
  apply hget.bind
  intro found
  split
  · next hnone =>
    apply Program.Triple.pure
    rintro tr m₀ m ⟨rfl, h⟩
    refine ⟨h, .inl fun ctx hctx => ?_⟩
    rw [hnone] at hctx
    cases hctx
  · next ctx hctx =>
    apply Program.Triple.ite
    · intro _
      -- the context that was looked up is the one that is checked after the wait
      have hwait : Program.Triple (dispatching g request) (fun tr _ m => found = m ∧ A tr) (await .estimateTokens)
          fun _ tr _ _ => A tr ∧ ∃ tr', tr = ⟨found, .estimateTokens, ()⟩ :: tr' := by
        apply Program.Triple.await
        · exact fun _ _ _ _ => trivial
        · rintro tr m₀ m _ m₁ ⟨rfl, h⟩ -
          exact ⟨hA _ _ h, tr, rfl⟩
      apply hwait.bind
      intro _
      apply hget.bind
      intro now
      apply Program.Triple.ite
      · intro _
        have hemit (event : GatewayEvent) : Program.Triple (dispatching g request) (fun tr _ m => now = m ∧
            A tr ∧ ∃ tr', tr = ⟨found, .estimateTokens, ()⟩ :: tr') (emit event) fun _ _ _ _ => True :=
          .modify fun _ _ _ _ => trivial
        apply (hemit _).bind
        exact fun _ => .throw fun _ _ _ _ => trivial
      · intro hroom
        apply Program.Triple.pure
        rintro tr m₀ m ⟨rfl, h, tr', rfl⟩
        exact ⟨h, .inr ⟨found, tr', ctx, rfl, hctx, Bool.eq_false_iff.mpr hroom⟩⟩
    · intro hhalts
      apply Program.Triple.pure
      rintro tr m₀ m ⟨rfl, h⟩
      refine ⟨h, .inl fun ctx' hctx' => ?_⟩
      obtain rfl := Option.some.inj (hctx.symm.trans hctx')
      exact Bool.eq_false_iff.mpr hhalts

/-- The call has a response to the request it has come to. -/
def Replied (g : Gateway) (request : LlmRequest) (n : ℕ) (current : LlmRequest) (response : LlmResponse) :
    CallAssertion :=
  fun tr _ _ => ∃ completion, response = { toAdapterCompletion := completion } ∧ Rung g request tr n current ∧
    Answered tr current completion

/-- The turn after the guards lets the first attempt through. -/
theorem permits_turn :
    Program.Triple (dispatching g request)
      (fun tr _ m => (EgressAllowed g ∧ Rung g request tr n current) ∧ Checked g current tr m) (await .turn)
      fun _ tr _ _ => Guarded g request n current tr ∧ Attempt g current tr (primaryOf g current) 0 := by
  apply Program.Triple.await
  · exact fun _ _ _ _ => trivial
  · rintro tr m₀ m _ m₁ ⟨⟨hegress, hrung⟩, hunlimited | ⟨m', tr', ctx, rfl, hctx, hroom⟩⟩ -
    · exact ⟨⟨hegress, hrung.later, .unlimited hunlimited⟩, .first⟩
    · exact ⟨⟨hegress, hrung.later, .checked hctx hroom⟩, .first⟩

theorem permits_completeOnce :
    Program.Triple (dispatching g request) (At g request n current) (completeOnce g current)
      (Replied g request n current) := by
  unfold completeOnce
  apply Program.Triple.bind permits_assertEgress
  intro _
  apply Program.Triple.bind (permits_maybeWarnFloor _)
  intro _
  apply Program.Triple.bind (permits_assertPreCallBudget fun _ _ h => ⟨h.1, h.2.later⟩)
  intro _
  apply Program.Triple.bind permits_turn
  intro _
  apply Program.Triple.bind permits_attempts
  rintro (err | completion)
  · exact .throw fun _ _ _ _ => trivial
  · -- what is recorded of the reply changes the memory alone
    have hparse : Program.Triple (dispatching g request) (Tried g request n current (.ok completion))
        (maybeRecordParseFailure g current completion) fun _ => Tried g request n current (.ok completion) := by
      unfold maybeRecordParseFailure
      apply Program.Triple.ite
      · exact fun _ => .pure fun _ _ _ h => h
      · exact fun _ => .modify fun _ _ _ h => h
    have haccount : Program.Triple (dispatching g request) (Tried g request n current (.ok completion))
        (account g current.metadata completion.model completion.usage)
        fun _ => Tried g request n current (.ok completion) := .modify fun _ _ _ h => h
    apply hparse.bind
    intro _
    apply haccount.bind
    exact fun _ => .pure fun tr m₀ m h => ⟨completion, rfl, h⟩

end Once

/-! ## The climb -/

/-- How a call ends: with the reply to its own request when nothing escalates, and else with the last reply on the
ladder, where the call is at its last escalation or the reply leads no further. -/
inductive Concluded (g : Gateway) (request : LlmRequest) (tr : CallTrace) : LlmResponse → Prop where
  | once {completion : AdapterCompletion} (hoff : ∀ policy, g.escalation = some policy → policy.enabled = false)
      (hanswered : Answered tr request completion) : Concluded g request tr { toAdapterCompletion := completion }
  | last {policy : EscalationPolicy} {n : ℕ} {current : LlmRequest} {completion : AdapterCompletion}
      (hpolicy : g.escalation = some policy) (hrung : Rung g request tr n current)
      (hanswered : Answered tr current completion)
      (hlast : n = maxEscalations g ∨ ¬∃ next, Doubted g current completion next) :
      Concluded g request tr (surfaced (signalOf g policy current { toAdapterCompletion := completion })
        { toAdapterCompletion := completion })

section Climb

variable {policy : EscalationPolicy} {n : ℕ}

/-- What a doubtful reply leads to is known. -/
theorem Doubted.next_eq {completion : AdapterCompletion} {next : LlmRequest} (h : Doubted g current completion next)
    (hpolicy : g.escalation = some policy) :
    (signalOf g policy current { toAdapterCompletion := completion }).low = true ∧
      isEligibleForEscalation current = true ∧
      ∃ fromTier toTier, current.tier = some fromTier ∧ nextTier fromTier = some toTier := by
  obtain ⟨policy', fromTier, toTier, hpolicy', -, hlow, heligible, htier, hnext, -⟩ := h
  obtain rfl := Option.some.inj (hpolicy.symm.trans hpolicy')
  exact ⟨hlow, heligible, fromTier, toTier, htier, hnext⟩

theorem permits_climb (hpolicy : g.escalation = some policy) (henabled : policy.enabled = true) {left : ℕ}
    (hleft : n + left = maxEscalations g) (response : LlmResponse) :
    Program.Triple (dispatching g request) (Replied g request n current response)
      (climb g policy left current response) fun response tr _ _ => Concluded g request tr response := by
  induction left generalizing n current response with
  | zero =>
    apply Program.Triple.pure
    rintro tr m₀ m ⟨completion, rfl, hrung, hanswered⟩
    exact .last hpolicy hrung hanswered (.inl hleft)
  | succ left ih =>
    unfold climb
    apply Program.Triple.ite
    · intro hlow
      obtain ⟨hlow, heligible⟩ := Bool.and_eq_true_iff.mp hlow
      split
      · next htop =>
        apply Program.Triple.pure
        rintro tr m₀ m ⟨completion, rfl, hrung, hanswered⟩
        refine .last hpolicy hrung hanswered (.inr ?_)
        rintro ⟨next, hdoubted⟩
        obtain ⟨-, -, fromTier, toTier, htier, hnext⟩ := hdoubted.next_eq hpolicy
        simp [htier, hnext] at htop
      · next fromTier toTier htier =>
        obtain ⟨tier, hfrom, hnext⟩ := Option.bind_eq_some_iff.mp htier
        obtain ⟨next, hto, heq⟩ := Option.map_eq_some_iff.mp hnext
        obtain ⟨rfl, rfl⟩ := Prod.mk.inj heq
        -- the reply is doubtful: the call comes to the rung above
        have hup : Program.Triple (dispatching g request) (Replied g request n current response)
            (emit (.modelEscalation tier next (signalOf g policy current response)))
            fun _ => At g request (n + 1) (withEscalatedTier current next) := by
          apply Program.Triple.modify
          rintro tr m₀ m ⟨completion, rfl, hrung, hanswered⟩
          exact hrung.up (by omega) hanswered
            ⟨policy, tier, next, hpolicy, henabled, hlow, heligible, hfrom, hto, rfl⟩
        apply hup.bind
        intro _
        apply permits_completeOnce.bind
        intro response
        have hturn : Program.Triple (dispatching g request)
            (Replied g request (n + 1) (withEscalatedTier current next) response) (await .turn)
            fun _ => Replied g request (n + 1) (withEscalatedTier current next) response := by
          apply Program.Triple.await
          · exact fun _ _ _ _ => trivial
          · rintro tr m₀ m _ m₁ ⟨completion, hresponse, hrung, hanswered⟩ -
            exact ⟨completion, hresponse, hrung.later, hanswered.later⟩
        apply hturn.bind
        exact fun _ => ih (by omega) response
    · intro hlow
      apply Program.Triple.pure
      rintro tr m₀ m ⟨completion, rfl, hrung, hanswered⟩
      refine .last hpolicy hrung hanswered (.inr ?_)
      rintro ⟨next, hdoubted⟩
      obtain ⟨hdoubtful, heligible, -⟩ := hdoubted.next_eq hpolicy
      exact hlow (Bool.and_eq_true_iff.mpr ⟨hdoubtful, heligible⟩)

theorem permits_complete :
    Program.Triple (dispatching g request) (At g request 0 request) (complete g request)
      fun response tr _ _ => Concluded g request tr response := by
  have honce (hoff : ∀ policy, g.escalation = some policy → policy.enabled = false) :
      Program.Triple (dispatching g request) (At g request 0 request) (completeOnce g request)
        fun response tr _ _ => Concluded g request tr response := by
    apply permits_completeOnce.weaken
    · exact fun _ _ _ h => h
    · rintro response tr m₀ m ⟨completion, rfl, -, hanswered⟩
      exact .once hoff hanswered
  unfold complete
  cases hpolicy : g.escalation with
  | none =>
    refine honce fun policy hsome => ?_
    rw [hpolicy] at hsome
    cases hsome
  | some policy =>
    apply Program.Triple.ite
    · intro henabled
      apply permits_completeOnce.bind
      intro response
      have hturn : Program.Triple (dispatching g request) (Replied g request 0 request response) (await .turn)
          fun _ => Replied g request 0 request response := by
        apply Program.Triple.await
        · exact fun _ _ _ _ => trivial
        · rintro tr m₀ m _ m₁ ⟨completion, hresponse, hrung, hanswered⟩ -
          exact ⟨completion, hresponse, hrung.later, hanswered.later⟩
      apply hturn.bind
      intro _
      refine permits_climb hpolicy henabled ?_ response
      rw [Nat.zero_add, maxEscalations, hpolicy]
      exact (if_pos henabled).symm
    · intro hdisabled
      refine honce fun policy' hsome => ?_
      obtain rfl := Option.some.inj (hpolicy.symm.trans hsome)
      exact Bool.eq_false_iff.mpr hdisabled

end Climb

/-! ## Runs of a call -/

section Runs

variable {m₀ m : GatewayMemory}

theorem answers_dispatching (g : Gateway) (request : LlmRequest) (tr : CallTrace) :
    (dispatching g request).Answers tr :=
  fun _ _ => trivial

/-- What a call returns is the reply to a request of its ladder that leads no further. -/
theorem concluded_of_return {response : LlmResponse} (h : (complete g request).Ran tr m₀ (.ret m response)) :
    Concluded g request tr response :=
  permits_complete.returned (fun _ => .bottom) h (answers_dispatching g request tr)

/-- A request that names its model is never sent to another tier. -/
theorem Rung.eq_of_model {n : ℕ} (h : Rung g request tr n current) (hmodel : request.model ≠ none) :
    n = 0 ∧ current = request := by
  induction h with
  | bottom => exact ⟨rfl, rfl⟩
  | up _ _ _ hdoubted ih =>
    obtain ⟨-, rfl⟩ := ih
    obtain ⟨policy, fromTier, toTier, -, -, -, heligible, -⟩ := hdoubted
    simp [isEligibleForEscalation, Option.isNone_iff_eq_none, hmodel] at heligible

/-- A request that names its model gets to that model, and to the fallback at most. -/
theorem dispatch_of_pinned {model id : String} {attempt : ℕ} {k} (hmodel : request.model = some id)
    (h : (complete g request).Ran tr m₀ (.await m (.dispatch current model attempt) k)) :
    current = request ∧ (model = id ∨ g.config.fallbackModel = some model) := by
  have hpermitted : Permitted g request tr current model attempt :=
    permits_complete.awaits (fun _ => .bottom) h (answers_dispatching g request tr)
  obtain ⟨-, ⟨n, hrung⟩, -, hattempt⟩ := hpermitted
  obtain ⟨-, rfl⟩ := hrung.eq_of_model (by simp [hmodel])
  have hprimary : primaryOf g current = id := by rw [primaryOf, resolveModelId, hmodel, Option.getD_some]
  refine ⟨rfl, ?_⟩
  cases hattempt with
  | first => exact .inl hprimary
  | again => exact .inl hprimary
  | fallback hfallback =>
    refine .inr ?_
    unfold fallbackModelIds at hfallback
    split at hfallback
    · cases hfallback
    · next fallback hsome =>
      split at hfallback
      · cases hfallback
      · rw [List.mem_singleton.mp hfallback, hsome]

end Runs

/-! ## What a call costs -/

section Costs

/-- A dispatch costs `d`, and each millisecond of a wait costs `s`. -/
def weigh (d s : ℕ) : GatewayOp → ℕ
  | .dispatch .. => d
  | .sleep ms => s * ms
  | _ => 0

/-- What the attempts at one request cost at most: the first one, the retries with the longest waits, and one attempt
at the fallback model. -/
def attemptsCost (g : Gateway) (d s : ℕ) : ℕ :=
  (g.config.maxRetries + 1) * d + g.config.maxRetries * (s * g.maxDelayMs) +
    if g.config.fallbackModel.isSome then d else 0

/-- How many tiers are above the one of a request, if it may escalate. -/
def rungsAbove (request : LlmRequest) : ℕ :=
  if isEligibleForEscalation request then
    match request.tier with
    | some .triage => 2
    | some .default => 1
    | _ => 0
  else 0

variable {d s : ℕ}

theorem backoff_le (g : Gateway) (attempt : ℕ) : backoff g attempt ≤ g.maxDelayMs := Nat.min_le_right _ _

theorem spends_emit (event : GatewayEvent) {n : ℕ} : (emit event).Spends (weigh d s) n := .modify _

theorem spends_retrying (model : String) (attempt left : ℕ) :
    (retrying g current model attempt left).Spends (weigh d s) ((left + 1) * d + left * (s * g.maxDelayMs)) := by
  induction left generalizing attempt with
  | zero => exact .await (by simp [weigh])
  | succ left ih =>
    unfold retrying
    have hdispatch : (await (.dispatch current model attempt)).Spends (weigh d s) d := .await le_rfl
    have hcost : (left + 1 + 1) * d + (left + 1) * (s * g.maxDelayMs) =
        d + (s * g.maxDelayMs + ((left + 1) * d + left * (s * g.maxDelayMs))) := by ring
    rw [hcost]
    apply hdispatch.bind
    rintro (err | completion)
    · apply Program.Spends.ite
      · intro _
        have hsleep : (await (.sleep (backoff g attempt))).Spends (weigh d s) (s * g.maxDelayMs) :=
          .await (Nat.mul_le_mul_left s (backoff_le g attempt))
        apply hsleep.bind
        rintro (err | _)
        · exact .pure _
        · exact ih (attempt + 1)
      · exact fun _ => .pure _
    · exact .pure _

theorem spends_fallingBack (primary : String) (attempted models : List String) (lastError : AttemptError) :
    (fallingBack current primary attempted lastError models).Spends (weigh d s) (models.length * d) := by
  induction models generalizing attempted lastError with
  | nil => exact .pure _
  | cons model rest ih =>
    unfold fallingBack
    apply Program.Spends.ite
    · exact fun _ => (ih attempted lastError).mono (Nat.mul_le_mul_right d (Nat.le_succ _))
    · intro _
      have hdispatch : (await (.dispatch current model 0)).Spends (weigh d s) d := .await le_rfl
      apply (spends_emit _).after
      intro _
      rw [List.length_cons, Nat.add_mul, Nat.one_mul, Nat.add_comm]
      apply hdispatch.bind
      rintro (err | completion)
      · exact ih (model :: attempted) err
      · exact .pure _

theorem length_fallbackModelIds (config : GatewayConfig) (primary : String) :
    (fallbackModelIds config primary).length ≤ if config.fallbackModel.isSome then 1 else 0 := by
  unfold fallbackModelIds
  cases config.fallbackModel with
  | none => exact le_rfl
  | some fallback =>
    dsimp only
    split <;> simp

theorem spends_attempts : (attempts g current).Spends (weigh d s) (attemptsCost g d s) := by
  apply Program.Spends.bind (spends_retrying _ _ _)
  rintro (err | completion)
  · refine (spends_fallingBack _ _ _ _).mono ?_
    refine (Nat.mul_le_mul_right d (length_fallbackModelIds g.config _)).trans ?_
    split <;> simp
  · exact .pure _

theorem spends_completeOnce : (completeOnce g current).Spends (weigh d s) (attemptsCost g d s) := by
  have hegress : (assertEgress g).Spends (weigh d s) 0 := by
    unfold assertEgress
    split
    · exact .pure _
    · split
      · exact .pure _
      · exact .throw _
  have hfloor (modelId : String) : (maybeWarnFloor g current modelId).Spends (weigh d s) 0 := by
    unfold maybeWarnFloor
    apply Program.Spends.ite
    · exact fun _ => .pure _
    · intro _
      apply Program.Spends.after .get
      intro m
      apply Program.Spends.ite
      · exact fun _ => .pure _
      · exact fun _ => (Program.Spends.modify _).after fun _ => spends_emit _
  have hbudget : (assertPreCallBudget g current).Spends (weigh d s) 0 := by
    unfold assertPreCallBudget
    apply Program.Spends.after .get
    intro m
    split
    · exact .pure _
    · apply Program.Spends.ite
      · intro _
        have hestimate : (await .estimateTokens).Spends (weigh d s) 0 := .await le_rfl
        apply hestimate.after
        intro _
        apply Program.Spends.after .get
        intro m
        apply Program.Spends.ite
        · exact fun _ => (spends_emit _).after fun _ => .throw _
        · exact fun _ => .pure _
      · exact fun _ => .pure _
  have hturn : (await .turn).Spends (weigh d s) 0 := .await le_rfl
  unfold completeOnce
  apply hegress.after
  intro _
  apply (hfloor _).after
  intro _
  apply hbudget.after
  intro _
  apply hturn.after
  intro _
  rw [← Nat.add_zero (attemptsCost g d s)]
  apply spends_attempts.bind
  rintro (err | completion)
  · exact .throw _
  · have hparse : (maybeRecordParseFailure g current completion).Spends (weigh d s) 0 := by
      unfold maybeRecordParseFailure
      exact .ite (fun _ => .pure _) fun _ => spends_emit _
    apply hparse.after
    intro _
    exact (Program.Spends.modify _).after fun _ => .pure _

/-- Each escalation leaves one tier less above. -/
theorem rungsAbove_withEscalatedTier {fromTier toTier : ModelTier}
    (heligible : isEligibleForEscalation current = true) (htier : current.tier = some fromTier)
    (hnext : nextTier fromTier = some toTier) :
    rungsAbove (withEscalatedTier current toTier) + 1 = rungsAbove current := by
  have hnextEligible : isEligibleForEscalation (withEscalatedTier current toTier) = true := rfl
  rw [rungsAbove, rungsAbove, if_pos heligible, if_pos hnextEligible, htier]
  cases fromTier with
  | triage =>
    obtain rfl := Option.some.inj hnext
    rfl
  | default =>
    obtain rfl := Option.some.inj hnext
    rfl
  | confirmation => cases hnext

theorem spends_climb (policy : EscalationPolicy) (left : ℕ) (response : LlmResponse) :
    (climb g policy left current response).Spends (weigh d s)
      (min left (rungsAbove current) * attemptsCost g d s) := by
  induction left generalizing current response with
  | zero => exact .pure _
  | succ left ih =>
    unfold climb
    apply Program.Spends.ite
    · intro hlow
      obtain ⟨-, heligible⟩ := Bool.and_eq_true_iff.mp hlow
      split
      · exact .pure _
      · next fromTier toTier htier =>
        obtain ⟨tier, hfrom, hnext⟩ := Option.bind_eq_some_iff.mp htier
        obtain ⟨next, hto, heq⟩ := Option.map_eq_some_iff.mp hnext
        obtain ⟨rfl, rfl⟩ := Prod.mk.inj heq
        have hturn : (await .turn).Spends (weigh d s) 0 := .await le_rfl
        apply (spends_emit _).after
        intro _
        rw [← rungsAbove_withEscalatedTier heligible hfrom hto, Nat.add_min_add_right, Nat.add_mul, Nat.one_mul,
          Nat.add_comm]
        apply spends_completeOnce.bind
        intro response
        apply hturn.after
        exact fun _ => ih response
    · exact fun _ => .pure _

theorem spends_complete : (complete g request).Spends (weigh d s)
    ((1 + min (maxEscalations g) (rungsAbove request)) * attemptsCost g d s) := by
  have honce {n : ℕ} : (completeOnce g request).Spends (weigh d s) ((1 + n) * attemptsCost g d s) :=
    spends_completeOnce.mono (Nat.le_mul_of_pos_left _ (Nat.add_pos_left Nat.one_pos n))
  unfold complete
  cases hpolicy : g.escalation with
  | none => exact honce
  | some policy =>
    apply Program.Spends.ite
    · intro henabled
      have hmax : maxEscalations g = policy.maxEscalations.getD 2 := by
        rw [maxEscalations, hpolicy]
        exact if_pos henabled
      have hturn : (await .turn).Spends (weigh d s) 0 := .await le_rfl
      rw [hmax, Nat.add_mul, Nat.one_mul]
      apply spends_completeOnce.bind
      intro response
      apply hturn.after
      exact fun _ => spends_climb policy _ response
    · exact fun _ => honce

/-- Whatever a call is answered, its dispatches and its waits are bounded: every request of its ladder has its retries
and one fallback, and the ladder ends at the top tier and at the cap on escalations. -/
theorem cost_issued_complete {m₀ : GatewayMemory} {o}
    (h : (complete g request).Ran tr m₀ o) :
    ((o.issued tr).map (weigh d s)).sum ≤
      (1 + min (maxEscalations g) (rungsAbove request)) * attemptsCost g d s :=
  h.cost_issued_le spends_complete

end Costs

/-! ## Alone -/

section Alone

variable (adapter : String → ℕ → Except AttemptError AdapterCompletion)

/-- Every operation is performed at once, and the provider answers as the adapter does. -/
def performAlone : (op : GatewayOp) → Unit → op.Ans × Unit
  | .estimateTokens, w | .turn, w => ((), w)
  | .dispatch _ model attempt, w => (adapter model attempt, w)
  | .sleep _, w => (.ok (), w)
  | .stream .., w => (([], .abandoned), w)
  | .openBatch _, w => (0, w)
  | .nextResult _, w => (.error { retriable := false }, w)

/-- What an adapter answers, by model and attempt. -/
def replies : Adapter := fun model attempt => (adapter model attempt).map AdapterCompletion.toCompletion

variable (g : Gateway) (current : LlmRequest) (m : GatewayMemory)

theorem alone_retrying (model : String) (attempt left : ℕ) :
    ∃ reply, (retrying g current model attempt left m).runAlone (performAlone adapter) () = (.ok reply, m, ()) ∧
      reply.map AdapterCompletion.toCompletion = withRetryFrom (replies adapter model) attempt left := by
  induction left generalizing attempt with
  | zero => exact ⟨adapter model attempt, rfl, rfl⟩
  | succ left ih =>
    cases hreply : adapter model attempt with
    | ok completion =>
      refine ⟨.ok completion, ?_, ?_⟩
      · simp only [retrying, await, Program.bind_apply, Program.await_apply, Outcome.bind, Outcome.runAlone,
          performAlone, hreply, Program.pure_apply]
      · simp only [withRetryFrom, replies, hreply, Except.map]
    | error err =>
      by_cases hretriable : err.retriable = true
      · obtain ⟨reply, hrun, heq⟩ := ih (attempt + 1)
        refine ⟨reply, ?_, ?_⟩
        · simpa only [retrying, await, Program.bind_apply, Program.await_apply, Outcome.bind, Outcome.runAlone,
            performAlone, hreply, Program.ite_apply, if_pos hretriable] using hrun
        · rw [heq, withRetryFrom, replies, hreply, Except.map]
          exact (if_pos hretriable).symm
      · refine ⟨.error err, ?_, ?_⟩
        · simp only [retrying, await, Program.bind_apply, Program.await_apply, Outcome.bind, Outcome.runAlone,
            performAlone, hreply, Program.ite_apply, if_neg hretriable, Program.pure_apply]
        · rw [withRetryFrom, replies, hreply, Except.map]
          exact (if_neg hretriable).symm

theorem alone_fallingBack (primary : String) (attempted models : List String) (lastError : AttemptError) :
    ∃ reply m', (fallingBack current primary attempted lastError models m).runAlone (performAlone adapter) () =
        (.ok reply, m', ()) ∧
      reply.map AdapterCompletion.toCompletion = tryFallbacks (replies adapter) attempted lastError models := by
  induction models generalizing attempted lastError m with
  | nil => exact ⟨.error lastError, m, rfl, rfl⟩
  | cons model rest ih =>
    by_cases hmem : model ∈ attempted
    · obtain ⟨reply, m', hrun, heq⟩ := ih m attempted lastError
      refine ⟨reply, m', ?_, ?_⟩
      · simpa only [fallingBack, Program.ite_apply, if_pos hmem] using hrun
      · rw [heq, tryFallbacks, if_pos hmem]
    · -- the fallback is recorded, and then the model has one attempt
      let m' : GatewayMemory := { m with events := .modelFallback primary model :: m.events }
      cases hreply : adapter model 0 with
      | ok completion =>
        refine ⟨.ok completion, m', ?_, ?_⟩
        · simp only [fallingBack, emit, await, Program.ite_apply, if_neg hmem, Program.bind_apply,
            Program.modify_apply, Program.await_apply, Outcome.bind, Outcome.runAlone, performAlone, hreply,
            Program.pure_apply, m']
        · simp only [tryFallbacks, if_neg hmem, replies, hreply, Except.map]
      | error err =>
        obtain ⟨reply, m'', hrun, heq⟩ := ih m' (model :: attempted) err
        refine ⟨reply, m'', ?_, ?_⟩
        · simpa only [fallingBack, emit, await, Program.ite_apply, if_neg hmem, Program.bind_apply,
            Program.modify_apply, Program.await_apply, Outcome.bind, Outcome.runAlone, performAlone, hreply, m']
            using hrun
        · rw [heq, tryFallbacks, if_neg hmem]
          simp only [replies, hreply, Except.map]

/-- When nothing else happens meanwhile, the attempts come to what `withRetryAndFallback` returns. -/
theorem attempts_alone :
    ∃ reply m', (attempts g current m).runAlone (performAlone adapter) () = (.ok reply, m', ()) ∧
      reply.map AdapterCompletion.toCompletion =
        withRetryAndFallback (primaryOf g current) (replies adapter) g.config.maxRetries
          (fallbackModelIds g.config (primaryOf g current)) := by
  obtain ⟨reply, hrun, heq⟩ := alone_retrying adapter g current m (primaryOf g current) 0 g.config.maxRetries
  unfold primaryOf at hrun
  cases reply with
  | ok completion =>
    refine ⟨.ok completion, m, ?_, ?_⟩
    · rw [attempts, Program.bind_apply, Outcome.runAlone_bind, hrun]
      rfl
    · rw [withRetryAndFallback, withRetry, ← heq]
      rfl
  | error err =>
    obtain ⟨reply, m', hfallback, hreply⟩ := alone_fallingBack adapter current m (primaryOf g current)
      [primaryOf g current] (fallbackModelIds g.config (primaryOf g current)) err
    refine ⟨reply, m', ?_, ?_⟩
    · rw [attempts, Program.bind_apply, Outcome.runAlone_bind, hrun]
      exact hfallback
    · rw [hreply, withRetryAndFallback, withRetry, ← heq]
      rfl

end Alone

/-! ## A climb -/

section Sample

/-- A gateway that escalates. -/
def ladderGateway : Gateway where
  config := { modelMatrix := fun tier => match tier with | .triage => "claude-haiku-4-5" | _ => "claude-opus-5" }
  egress _ := .ok ()
  enforceModelFloor := false
  escalation := some { enabled := true }
  parseJson _ := none

/-- A request on the lowest tier. -/
def ladderRequest : LlmRequest where
  tier := some .triage
  messages := [.text "ping"]
  maxTokens := 100
  responseFormat := .json
  purpose := "triage"

example : rungsAbove ladderRequest = 2 := by decide +kernel

/-- A text that does not parse. -/
def ladderReply : AdapterCompletion where
  id := "msg"
  content := ""
  stopReason := .endTurn
  model := "claude-haiku-4-5"
  usage := zeroUsage

/-- Every dispatch is answered, and nothing else happens. -/
def ladderAnswer (op : GatewayOp) (m : GatewayMemory) : op.Ans × GatewayMemory :=
  ((performAlone (fun _ _ => .ok ladderReply) op ()).1, m)

/-- No scan is registered. -/
def ladderMemory : GatewayMemory where
  meters _ := createCostMeter "scan" 0

/-- The first awaits of a call. -/
def ladderRun (n : ℕ) :
    CallTrace × GatewayMemory × Outcome GatewayOp GatewayOp.Ans GatewayMemory GatewayError LlmResponse :=
  (complete ladderGateway ladderRequest ladderMemory).replay ladderAnswer n [] ladderMemory

theorem ran_ladderRun (n : ℕ) :
    (complete ladderGateway ladderRequest).Ran (ladderRun n).1 (ladderRun n).2.1 (ladderRun n).2.2 :=
  Program.Ran.replay (.start _)

/-- At the top tier the call ends. -/
theorem concluded_of_return_ladder : Concluded ladderGateway ladderRequest (ladderRun 9).1
    { toAdapterCompletion := ladderReply } :=
  concluded_of_return (ran_ladderRun 9)

/-- The climb dispatches three times. -/
theorem cost_issued_complete_ladder : (((ladderRun 9).2.2.issued (ladderRun 9).1).map (weigh 1 0)).sum = 3 ∧
    (((ladderRun 9).2.2.issued (ladderRun 9).1).map (weigh 1 0)).sum ≤
      (1 + min (maxEscalations ladderGateway) (rungsAbove ladderRequest)) * attemptsCost ladderGateway 1 0 :=
  ⟨rfl, cost_issued_complete (ran_ladderRun 9)⟩

/-- A request that names its model. -/
def pinnedRequest : LlmRequest := { ladderRequest with model := some "claude-haiku-4-5" }

theorem dispatch_of_pinned_ladder : ∃ tr m₀ m k, (complete ladderGateway pinnedRequest).Ran tr m₀
    (.await m (.dispatch pinnedRequest "claude-haiku-4-5" 0) k) ∧ pinnedRequest = pinnedRequest ∧
      ("claude-haiku-4-5" = "claude-haiku-4-5" ∨ ladderGateway.config.fallbackModel = some "claude-haiku-4-5") := by
  have hran : (complete ladderGateway pinnedRequest).Ran _ _
      ((complete ladderGateway pinnedRequest ladderMemory).replay ladderAnswer 1 [] ladderMemory).2.2 :=
    Program.Ran.replay (.start _)
  exact ⟨_, _, _, _, hran, dispatch_of_pinned rfl hran⟩

end Sample

end Gateway

end MontrSecure.LlmGateway
