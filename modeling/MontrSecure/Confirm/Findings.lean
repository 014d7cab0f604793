import MontrSecure.Async.Running
import MontrSecure.Confirm.Demotion
import MontrSecure.Confirm.Investigation

/-!
# Confirming a batch of findings

`packages/confirm/src/confirm.ts` with `structural-gate.ts` and `audit.ts`: live probing is authorized or not,
and then every probable finding is confirmed or kept in the appendix. Live probing itself is a parameter here:
the results are about batches for which it is not authorized. `decided_of_confirmFindings` says what a batch
returns, and `neitherLost_nor_promoted` that the model decides nothing but the text of an argument.
-/

namespace MontrSecure.Confirm

open Async

variable (rt : Runtime) (input : ConfirmInput) (deps : ConfirmDeps) (finding : ProbableFinding)

/-! ## Audit -/

/-- `agentAudit`. -/
def agentAudit (action summary : String) (metadata : JsRecord) (targetId : Option EntityId := none) :
    AuditInput :=
  { clientId := input.clientId, scanId := some input.scanId, actor := { type := .agent, id := "layer3-confirm" }
    action, targetType := some (if (nonempty targetId).isSome then "probable_finding" else "scan")
    targetId := nonempty targetId, summary, metadata := some metadata }

/-- `safeAppend`. -/
def safeAppend (ev : AuditInput) : AgentProgram Unit :=
  if deps.audit = false then return ()
  else do
    let _ ← (Program.attempt (askAgent (.auditAppend ev)) : AgentProgram (Except LiveErr Unit))
    return ()

/-! ## Live probing -/

/-- `LIVE_CONFIRMABLE_CATEGORIES`. -/
def liveConfirmableCategories : List Category :=
  [.sqlInjection, .nosqlInjection, .xss, .openRedirect, .ssrf, .idor, .brokenAccessControl, .pathTraversal,
    .commandInjection, .xxe, .insecureDeserialization]

/-- `isLiveEligible`. -/
def isLiveEligible (category : Category) : Bool := decide (category ∈ liveConfirmableCategories)

example : isLiveEligible .ssrf = true := by decide +kernel

/-- `LiveConfirmOutcome`, without its exchanges. -/
structure LiveConfirmOutcome where
  confirmed : Bool
  finding : Option ConfirmedFinding := none
  reason : Option String := none

/-- Live probing, as a batch uses it: `buildDefaultEgressGuard`, and `confirmLive`, which leaves what its guard
has counted. -/
structure LiveProbing where
  buildDefaultEgressGuard : AgentProgram EgressGuard
  confirmLive : ProbableFinding → String → EgressGuard → ScopeGuard → AgentProgram (LiveConfirmOutcome × ScopeGuard)

variable (live : LiveProbing)

/-- `hostOfSafe`. -/
def hostOfSafe (url : String) : String := ((rt.parseUrl url).map (·.host)).getD url

/-- A scope, as metadata. -/
def scopeJson (scope : DastScopeContract) : JsValue :=
  .obj [("maxRequestsPerScan", .num scope.maxRequestsPerScan),
    ("maxConcurrentRequests", .num scope.maxConcurrentRequests),
    ("maxRequestsPerSecond", .num scope.maxRequestsPerSecond),
    ("maxMutatingRequests", .num scope.maxMutatingRequests)]

/-- The target and the egress guard of a live run, which every guardrail has accepted. -/
def acceptedTarget : AgentProgram (String × EgressGuard) := do
  let target ← Program.ofExcept
    ((assertLiveAuthorized rt.parseUrl input.config input.allowLive input.stagingUrl).mapError LiveErr.err)
  let egressGuard ←
    match deps.egressGuard with
    | some egressGuard => pure egressGuard
    | none => live.buildDefaultEgressGuard
  safeAppend deps (agentAudit input "dast.authorized" "Live DAST authorized against allowlisted staging."
    [("host", .str (hostOfSafe rt target)), ("allowlistCount", .num input.config.dast.allowlist.length),
      ("scope", scopeJson input.config.scope)])
  return (target, egressGuard)

/-- The authorization of live probing: a refusal leaves static confirmation alone. -/
def authorizeLive : AgentProgram (Option (String × EgressGuard)) :=
  if (input.allowLive && input.config.dast.enabled) = false then return none
  else do
    match ← (Program.attempt (acceptedTarget rt input deps live) :
        AgentProgram (Except LiveErr (String × EgressGuard))) with
    | .ok accepted => return some accepted
    | .error _ => return none

/-- The live attempt at a finding, if there is one. -/
def attemptLive (authorized : Option (String × EgressGuard)) (guard : ScopeGuard) :
    AgentProgram (Option LiveConfirmOutcome × ScopeGuard) :=
  match authorized with
  | none => return (none, guard)
  | some (target, egressGuard) =>
    if isLiveEligible finding.category = false then return (none, guard)
    else do
      let (outcome, guard) ← live.confirmLive finding target egressGuard guard
      return (some outcome, guard)

/-! ## One finding -/

/-- `structuralConfirmationGate`: the reason when the finding is ruled out. -/
def structuralConfirmationGate (appMap : AppMap) : Option String :=
  (nonempty finding.routeId).bind fun routeId =>
    if appMap.routes.any (·.id = some routeId) then none
    else some (s!"structurally ruled out: route {routeId} that this finding was grounded against at " ++
      "correlation time is no longer registered in the App Map being confirmed against — the route was " ++
      "removed, or the App Map was rebuilt, since correlation ran, so this location is not reachable in the " ++
      "application as currently mapped (a hard existence check against the App Map's own route registry — " ++
      "no scoring or threshold judgment involved)")

/-- `isEligibleForInvestigation`. -/
def isEligibleForInvestigation : Bool :=
  match deps.investigation.severities with
  | none | some [] => true
  | some severities =>
    decide (baseSeverityForCategory finding.category ∈ severities) ||
      deps.priorConfirmedShapes finding.category finding.location.file

/-- What becomes of a finding. -/
inductive FindingVerdict where
  | confirmed (f : ConfirmedFinding)
  | unconfirmed (u : UnconfirmedFinding)

/-- `toUnconfirmed`, whose schema checks the finding. -/
def demote (reason : String) : AgentProgram FindingVerdict :=
  Program.ofExcept
    (if finding.valid then .ok (.unconfirmed (toUnconfirmed finding reason)) else .error (.err (.other "ZodError")))

/-- A finding goes to the appendix before anything is tried, and the audit log says why. -/
def suppress (reason summary : String) (metadata : JsRecord) : AgentProgram FindingVerdict := do
  let verdict ← demote finding reason
  safeAppend deps (agentAudit input "finding.demoted" s!"{summary}: {finding.category.name}"
    ([("category", .str finding.category.name), ("exposure", .str finding.exposure.token)] ++ metadata)
    (some finding.id))
  return verdict

/-- A finding is confirmed, and the audit log says how. -/
def promote (how : String) (proofType : String) (metadata : JsRecord) (f : ConfirmedFinding) :
    AgentProgram FindingVerdict := do
  safeAppend deps (agentAudit input "finding.confirmed" s!"Confirmed ({how}): {f.title}"
    ([("proofType", .str proofType), ("category", .str finding.category.name),
      ("severity", .str f.severity.token)] ++ metadata) (some finding.id))
  return .confirmed f

/-- The investigation of a finding that nothing has confirmed. -/
def investigated : AgentProgram (Option (ConfirmedFinding × AdversarialOutcome)) :=
  if isEligibleForInvestigation deps finding then attemptInvestigationConfirmation rt input deps finding
  else return none

/-- The reasons of both attempts, in one text. -/
def unconfirmedReason (staticReason : String) (live : Option LiveConfirmOutcome) : String :=
  let reason := " | ".intercalate ([some staticReason, live.bind (·.reason)].filterMap nonempty)
  if reason = "" then "not confirmed" else reason

/-- What the attempts come to: a live proof before the static one, and an investigation after both. -/
def settle (staticOutcome : StaticConfirmOutcome) (live : Option LiveConfirmOutcome) :
    AgentProgram FindingVerdict :=
  match (live.filter (·.confirmed)).bind (·.finding), staticOutcome with
  | some f, _ => promote input deps finding "live" "live" [] f
  | none, .confirmed f _ => promote input deps finding "static" "static" [] f
  | none, .unconfirmed reason _ => do
    match ← investigated rt input deps finding with
    | some (f, adversarial) =>
      promote input deps finding "investigation" "static"
        [("investigationProof", .bool true),
          ("adversarialVotes", .str s!"{adversarial.confirmVotes}/{adversarial.totalVerifiers}")] f
    | none => demote finding (unconfirmedReason reason live)

/-- The body of the loop over the findings. -/
def confirmFinding (authorized : Option (String × EgressGuard)) (guard : ScopeGuard) :
    AgentProgram (FindingVerdict × ScopeGuard) :=
  if deps.isKnownFalsePositive finding.category finding.location.file finding.location.line then do
    let verdict ← suppress input deps finding
      ("Matches a known false positive in the regression corpus (§15); suppressed to the appendix pending " ++
        "re-review (fail-safe).")
      "Suppressed known false positive (static)" [("reason", .str "known_false_positive")]
    return (verdict, guard)
  else
    match structuralConfirmationGate finding input.appMap with
    | some reason => do
      let verdict ← suppress input deps finding reason "Structurally ruled out before confirmation"
        [("reason", .str "structurally_ruled_out"), ("detail", .str reason),
          ("routeId", (finding.routeId.map JsValue.str).getD .undefined)]
      return (verdict, guard)
    | none => do
      let staticOutcome ← confirmStatic rt input deps finding
      let (live, guard) ← attemptLive finding live authorized guard
      let verdict ← settle rt input deps finding staticOutcome live
      return (verdict, guard)

/-! ## The batch -/

/-- The loop over the findings. -/
def confirmEach (authorized : Option (String × EgressGuard)) :
    List ProbableFinding → ScopeGuard → AgentProgram (List FindingVerdict)
  | [], _ => return []
  | finding :: rest, guard => do
    throwIfKilled "kill switch activated — halting Layer 3"
    let (verdict, guard) ← confirmFinding rt input deps finding live authorized guard
    let verdicts ← confirmEach authorized rest guard
    return verdict :: verdicts

/-- The confirmed findings, and the appendix. -/
def layer3Output (verdicts : List FindingVerdict) : Layer3Output where
  confirmed := verdicts.filterMap fun
    | .confirmed f => some f
    | .unconfirmed _ => none
  unconfirmed := verdicts.filterMap fun
    | .confirmed _ => none
    | .unconfirmed u => some u

/-- The findings, highest priority first. -/
def byRank : List ProbableFinding := input.probable.mergeSort fun a b => decide (a.rank ≤ b.rank)

/-- `confirmFindings`. The output is not parsed again: each of its findings was, when it was built. -/
def confirmFindings : AgentProgram Layer3Output := do
  let authorized ← authorizeLive rt input deps live
  let verdicts ← confirmEach rt input deps live authorized (byRank input) {}
  return layer3Output verdicts

/-! ## What is decided -/

/-- The answer of the test runner is not that an existing test fails. -/
def noFailingTest : (op : AgentOp) → op.Ans → Prop
  | .runTest .., .ok result => isEvidence result = false
  | _, _ => True

/-- What is assumed of the answers: nothing, where there is no model. -/
def quiet (op : AgentOp) (answer : op.Ans) : Prop := deps.llm = true → noFailingTest op answer

/-- Nothing but a model stands between the finding and its static proof. -/
def Provable : Prop :=
  deps.isKnownFalsePositive finding.category finding.location.file finding.location.line = false ∧
    structuralConfirmationGate finding input.appMap = none ∧ (dataFlowOf rt input deps finding).reachable = true

/-- The confirmed finding is that of the data flow, with some argument. -/
def ProvenAs (f : ConfirmedFinding) : Prop :=
  ∃ argument, f =
    assembled deps finding (dataFlowOf rt input deps finding).route (dataFlowOf rt input deps finding).param
      (flowProof (dataFlowOf rt input deps finding) argument) .static

/-- What is decided on a finding: it is confirmed by its static proof, or kept with a reason; without a model
it is kept only when there is no proof. -/
def Decided : FindingVerdict → Prop
  | .confirmed f => Provable rt input deps finding ∧ ProvenAs rt input deps finding f
  | .unconfirmed u =>
    (∃ reason, reason ≠ "" ∧ u = toUnconfirmed finding reason) ∧
      (deps.llm = false → ¬Provable rt input deps finding)

/-- What static confirmation decides on the data flow. -/
def StaticallyDecided : StaticConfirmOutcome → Prop
  | .confirmed f _ => (dataFlowOf rt input deps finding).reachable = true ∧ ProvenAs rt input deps finding f
  | .unconfirmed _ _ => deps.llm = false → (dataFlowOf rt input deps finding).reachable = false

variable {rt input deps finding live}

open Program

/-- An assembled finding is what was assembled. -/
theorem eq_assembled {route : Option Route} {param : Option String} {proof : ProofArtifact}
    {proofType : ProofType} {f : ConfirmedFinding}
    (h : assembleConfirmed deps finding route param proof proofType = .ok f) :
    f = assembled deps finding route param proof proofType := by
  unfold assembleConfirmed at h
  dsimp only at h
  split at h
  · exact (Except.ok.inj h).symm
  · cases h

variable {answers : (op : AgentOp) → op.Ans → Prop}

/-- Without a model there is no review. -/
theorem returns_runLlmReview :
    Returns answers (runLlmReview rt deps finding) fun review => deps.llm = false → review = none := by
  unfold runLlmReview
  split
  · exact Returns.pure fun _ => rfl
  · rename_i hllm
    exact Returns.any.mono fun _ _ hno => absurd hno hllm

/-- Static confirmation is decided by the data flow, and by a veto of the model. -/
theorem returns_confirmStatic :
    Returns answers (confirmStatic rt input deps finding) (StaticallyDecided rt input deps finding) := by
  unfold confirmStatic
  dsimp only
  split
  · rename_i hreachable
    exact Returns.pure fun _ => hreachable
  rename_i hreachable
  refine returns_runLlmReview.bind fun review hreview => ?_
  split
  · rename_i hveto
    -- only a review vetoes
    refine Returns.pure fun hno => ?_
    rw [hreview hno] at hveto
    cases hveto
  · refine (Returns.ofExcept fun f hf => eq_assembled hf).bind fun f hf => Returns.pure ?_
    exact ⟨Bool.eq_true_of_not_eq_false hreachable, _, hf⟩

/-- No test gives evidence when none fails. -/
theorem returns_gatherExecutableEvidence (hllm : deps.llm = true) (testFile : Option String) :
    Returns (quiet deps) (gatherExecutableEvidence input testFile) (· = none) := by
  unfold gatherExecutableEvidence
  split
  · rename_i repoRoot testFile _ _
    have hrun : Returns (quiet deps) (askAgent (.runTest repoRoot testFile 15000))
        fun result => isEvidence result = false :=
      Returns.ask fun result hquiet => hquiet hllm
    refine hrun.attempt.bind fun answer hanswer => ?_
    cases answer with
    | ok result =>
      refine Returns.pure ?_
      rw [hanswer result rfl]
      rfl
    | error e => exact Returns.pure rfl
  · exact Returns.pure rfl

/-- Without a failing test, no investigation confirms. -/
theorem returns_attemptInvestigation :
    Returns (quiet deps) (attemptInvestigationConfirmation rt input deps finding) (· = none) := by
  unfold attemptInvestigationConfirmation
  split
  · exact Returns.pure rfl
  rename_i henabled
  have hllm : deps.llm = true := Bool.eq_true_of_not_eq_false fun hno => henabled (.inl hno)
  refine Returns.after fun investigation => ?_
  split
  · exact Returns.pure rfl
  · refine (returns_gatherExecutableEvidence hllm _).bind fun evidence hnone => ?_
    rw [hnone]
    exact Returns.pure rfl

theorem returns_investigated : Returns (quiet deps) (investigated rt input deps finding) (· = none) := by
  unfold investigated
  split
  · exact returns_attemptInvestigation
  · exact Returns.pure rfl

/-- A demotion keeps the finding, with the reason. -/
theorem returns_demote {reason : String} :
    Returns answers (demote finding reason) (· = .unconfirmed (toUnconfirmed finding reason)) := by
  refine Returns.ofExcept fun verdict h => ?_
  split at h
  · exact (Except.ok.inj h).symm
  · cases h

theorem returns_suppress {reason summary : String} {metadata : JsRecord} :
    Returns answers (suppress input deps finding reason summary metadata)
      (· = .unconfirmed (toUnconfirmed finding reason)) :=
  returns_demote.bind fun _ hverdict => Returns.after fun _ => Returns.pure hverdict

theorem returns_promote {how proofType : String} {metadata : JsRecord} {f : ConfirmedFinding} :
    Returns answers (promote input deps finding how proofType metadata f) (· = .confirmed f) :=
  Returns.after fun _ => Returns.pure rfl

/-- There is always a reason. -/
theorem unconfirmedReason_ne_empty {staticReason : String} {live : Option LiveConfirmOutcome} :
    unconfirmedReason staticReason live ≠ "" := by
  unfold unconfirmedReason
  dsimp only
  split
  · decide
  · assumption

/-- What static confirmation decides is what is settled, when there was no live attempt. -/
theorem returns_settle {staticOutcome : StaticConfirmOutcome}
    (hfp : deps.isKnownFalsePositive finding.category finding.location.file finding.location.line = false)
    (hgate : structuralConfirmationGate finding input.appMap = none)
    (hstatic : StaticallyDecided rt input deps finding staticOutcome) :
    Returns (quiet deps) (settle rt input deps finding staticOutcome none) (Decided rt input deps finding) := by
  cases staticOutcome with
  | confirmed f dataFlow =>
    refine returns_promote.mono fun verdict hverdict => ?_
    rw [hverdict]
    exact ⟨⟨hfp, hgate, hstatic.1⟩, hstatic.2⟩
  | unconfirmed reason dataFlow =>
    refine returns_investigated.bind fun result hnone => ?_
    rw [hnone]
    refine returns_demote.mono fun verdict hverdict => ?_
    rw [hverdict]
    refine ⟨⟨_, unconfirmedReason_ne_empty, rfl⟩, fun hno hprovable => ?_⟩
    exact absurd ((hstatic hno).symm.trans hprovable.2.2) (by decide)

/-- A finding that is suppressed was not provable. -/
theorem decided_of_suppressed {reason : String} (hreason : reason ≠ "") (hno : ¬Provable rt input deps finding) :
    Decided rt input deps finding (.unconfirmed (toUnconfirmed finding reason)) :=
  ⟨⟨reason, hreason, rfl⟩, fun _ => hno⟩

/-- The reason of the gate is a text. -/
theorem ne_empty_of_gate {appMap : AppMap} {reason : String}
    (h : structuralConfirmationGate finding appMap = some reason) : reason ≠ "" := by
  obtain ⟨routeId, -, hreason⟩ := Option.bind_eq_some_iff.mp h
  split at hreason
  · cases hreason
  · rw [← Option.some.inj hreason]
    intro hempty
    have hlength := congrArg String.length hempty
    simp at hlength

/-- Every way through the body of the loop decides on the finding. -/
theorem returns_confirmFinding {guard : ScopeGuard} :
    Returns (quiet deps) (confirmFinding rt input deps finding live none guard)
      fun result => Decided rt input deps finding result.1 := by
  unfold confirmFinding
  split
  · rename_i hfp
    refine returns_suppress.bind fun verdict hverdict => Returns.pure ?_
    rw [hverdict]
    exact decided_of_suppressed (by decide) fun hprovable => absurd (hprovable.1.symm.trans hfp) (by decide)
  rename_i hfp
  split
  · rename_i reason hgate
    refine returns_suppress.bind fun verdict hverdict => Returns.pure ?_
    rw [hverdict]
    refine decided_of_suppressed (ne_empty_of_gate hgate) fun hprovable => ?_
    rw [hprovable.2.1] at hgate
    cases hgate
  · rename_i hgate
    refine returns_confirmStatic.bind fun staticOutcome hstatic => ?_
    have hlive : Returns (quiet deps) (attemptLive finding live none guard) (·.1 = none) := Returns.pure rfl
    refine hlive.bind fun attempted hnone => ?_
    obtain ⟨outcome, guard'⟩ := attempted
    obtain rfl : outcome = none := hnone
    exact (returns_settle (Bool.eq_false_of_not_eq_true hfp) hgate hstatic).bind fun verdict hverdict =>
      Returns.pure hverdict

/-- The loop decides on each of its findings. -/
theorem returns_confirmEach (findings : List ProbableFinding) (guard : ScopeGuard) :
    Returns (quiet deps) (confirmEach rt input deps live none findings guard)
      (List.Forall₂ (Decided rt input deps) findings) := by
  induction findings generalizing guard with
  | nil => exact Returns.pure .nil
  | cons finding findings ih =>
    refine Returns.after fun _ => returns_confirmFinding.bind fun result hresult => ?_
    exact (ih result.2).bind fun verdicts hverdicts => Returns.pure (.cons hresult hverdicts)

/-! ## Batches -/

/-- No run of the authorization grants a target. -/
def NeverAuthorized (rt : Runtime) (input : ConfirmInput) (deps : ConfirmDeps) (live : LiveProbing) : Prop :=
  ∀ tr m₀ m authorized, (authorizeLive rt input deps live).Ran tr m₀ (.ret m authorized) → authorized = none

/-- A refusal of the guardrails is one. -/
theorem neverAuthorized_of_refused
    (h : ∀ url, assertLiveAuthorized rt.parseUrl input.config input.allowLive input.stagingUrl ≠ .ok url) :
    NeverAuthorized rt input deps live := by
  have hreturns : Returns (fun _ _ => True) (authorizeLive rt input deps live) (· = none) := by
    unfold authorizeLive
    split
    · exact Returns.pure rfl
    cases herror : assertLiveAuthorized rt.parseUrl input.config input.allowLive input.stagingUrl with
    | ok url => exact absurd herror (h url)
    | error e =>
      have haccepted : Returns (fun _ _ => True) (acceptedTarget rt input deps live) fun _ => False := by
        unfold acceptedTarget
        rw [herror]
        exact Returns.throw.bind fun _ (hfalse : False) => hfalse.elim
      refine haccepted.attempt.bind fun answer hanswer => ?_
      cases answer with
      | ok accepted => exact (hanswer accepted rfl).elim
      | error e => exact Returns.pure rfl
  exact fun tr m₀ m authorized hran => hreturns.of_ran hran fun _ _ => trivial

/-- Every answer of the test runner in a run is quiet. -/
def NoFailingTest (tr : Trace AgentOp AgentOp.Ans ProbeMemory) : Prop :=
  ∀ x ∈ tr, noFailingTest x.op x.answer

/-- What a batch returns is decided finding by finding. -/
theorem decided_of_confirmFindings {tr : Trace AgentOp AgentOp.Ans ProbeMemory} {m₀ m : ProbeMemory}
    {out : Layer3Output} (hnever : NeverAuthorized rt input deps live)
    (h : (confirmFindings rt input deps live).Ran tr m₀ (.ret m out))
    (hquiet : ∀ x ∈ tr, quiet deps x.op x.answer) :
    ∃ verdicts, List.Forall₂ (Decided rt input deps) (byRank input) verdicts ∧ out = layer3Output verdicts := by
  have hloop : ∀ authorized, authorized = none →
      Returns (quiet deps) (do return layer3Output (← confirmEach rt input deps live authorized (byRank input) {}))
        fun out => ∃ verdicts, List.Forall₂ (Decided rt input deps) (byRank input) verdicts ∧
          out = layer3Output verdicts := by
    rintro authorized rfl
    exact (returns_confirmEach _ _).bind fun verdicts hverdicts => Returns.pure ⟨verdicts, hverdicts, rfl⟩
  exact h.returned_bind hnever hloop hquiet

/-! ## Nothing is lost, and nothing promoted -/

/-- The probable finding a verdict is about. -/
def FindingVerdict.probableId : FindingVerdict → Option EntityId
  | .confirmed f => f.probableId
  | .unconfirmed u => some u.id

/-- Each probable finding is in the output once, confirmed or unconfirmed, and each unconfirmed one is a probable
finding with a reason. -/
structure Accounted (probable : List ProbableFinding) (out : Layer3Output) : Prop where
  once : ∀ p ∈ probable,
    out.confirmed.countP (·.probableId = some p.id) + out.unconfirmed.countP (·.id = p.id) = 1
  kept : ∀ u ∈ out.unconfirmed, ∃ p ∈ probable, ∃ reason, reason ≠ "" ∧ u = toUnconfirmed p reason
  confirms : ∀ f ∈ out.confirmed, ∃ p ∈ probable, f.probableId = some p.id

/-- Both findings are equal in all but the text of the argument of their static proofs. -/
def SameButArgument (f f' : ConfirmedFinding) : Prop :=
  ∃ (proof : StaticProof) (argument : String), f.proofArtifact = StaticProof.toJson { proof with argument } ∧
    f' = { f with proofArtifact := proof.toJson }

/-- A verdict is about a finding: it has its id, and what is kept is the finding with a reason. -/
structure FindingVerdict.About (finding : ProbableFinding) (verdict : FindingVerdict) : Prop where
  probableId : verdict.probableId = some finding.id
  kept : ∀ u, verdict = .unconfirmed u → ∃ reason, reason ≠ "" ∧ u = toUnconfirmed finding reason

/-- A verdict that is decided is about its finding. -/
theorem Decided.about {verdict : FindingVerdict} (h : Decided rt input deps finding verdict) :
    verdict.About finding := by
  cases verdict with
  | confirmed f =>
    obtain ⟨-, argument, rfl⟩ := h
    exact ⟨rfl, fun u hu => nomatch hu⟩
  | unconfirmed u =>
    obtain ⟨⟨reason, hreason, rfl⟩, -⟩ := h
    exact ⟨rfl, fun u hu => ⟨reason, hreason, (FindingVerdict.unconfirmed.inj hu).symm⟩⟩

/-- Confirmed or unconfirmed, an id is counted once for each verdict about it. -/
theorem count_layer3Output (verdicts : List FindingVerdict) (id : EntityId) :
    (layer3Output verdicts).confirmed.countP (·.probableId = some id) +
        (layer3Output verdicts).unconfirmed.countP (·.id = id) =
      verdicts.countP (·.probableId = some id) := by
  induction verdicts with
  | nil => rfl
  | cons verdict verdicts ih =>
    cases verdict with
    | confirmed f =>
      show (f :: (layer3Output verdicts).confirmed).countP _ + (layer3Output verdicts).unconfirmed.countP _ = _
      rw [List.countP_cons, List.countP_cons, ← ih]
      exact Nat.add_right_comm _ _ _
    | unconfirmed u =>
      show (layer3Output verdicts).confirmed.countP _ + (u :: (layer3Output verdicts).unconfirmed).countP _ = _
      rw [List.countP_cons, List.countP_cons, ← ih]
      simp only [FindingVerdict.probableId, Option.some.injEq]
      omega

/-- There are as many verdicts about an id as findings with it. -/
theorem countP_of_about {findings : List ProbableFinding} {verdicts : List FindingVerdict}
    (h : List.Forall₂ (fun p (verdict : FindingVerdict) => verdict.About p) findings verdicts) (id : EntityId) :
    verdicts.countP (·.probableId = some id) = findings.countP (·.id = id) := by
  induction h with
  | nil => rfl
  | cons habout _ ih => simp only [List.countP_cons, ih, habout.probableId, Option.some.injEq]

theorem mem_confirmed_iff {verdicts : List FindingVerdict} {f : ConfirmedFinding} :
    f ∈ (layer3Output verdicts).confirmed ↔ .confirmed f ∈ verdicts := by
  simp only [layer3Output, List.mem_filterMap]
  constructor
  · rintro ⟨verdict, hverdict, hf⟩
    cases verdict with
    | confirmed g => rwa [← Option.some.inj hf]
    | unconfirmed u => cases hf
  · exact fun hf => ⟨_, hf, rfl⟩

theorem mem_unconfirmed_iff {verdicts : List FindingVerdict} {u : UnconfirmedFinding} :
    u ∈ (layer3Output verdicts).unconfirmed ↔ .unconfirmed u ∈ verdicts := by
  simp only [layer3Output, List.mem_filterMap]
  constructor
  · rintro ⟨verdict, hverdict, hu⟩
    cases verdict with
    | confirmed g => cases hu
    | unconfirmed v => rwa [← Option.some.inj hu]
  · exact fun hu => ⟨_, hu, rfl⟩

/-- A verdict among those given is given for one of the findings. -/
theorem exists_decided {R : ProbableFinding → FindingVerdict → Prop} {findings : List ProbableFinding}
    {verdicts : List FindingVerdict} (h : List.Forall₂ R findings verdicts) {verdict : FindingVerdict}
    (hverdict : verdict ∈ verdicts) : ∃ p ∈ findings, R p verdict := by
  obtain ⟨i, hi, rfl⟩ := List.mem_iff_getElem.mp hverdict
  have hlength := h.length_eq
  exact ⟨findings[i], List.getElem_mem _, h.get (by omega) hi⟩

/-- And every finding has one. -/
theorem exists_verdict {R : ProbableFinding → FindingVerdict → Prop} {findings : List ProbableFinding}
    {verdicts : List FindingVerdict} (h : List.Forall₂ R findings verdicts) {p : ProbableFinding} (hp : p ∈ findings) :
    ∃ verdict ∈ verdicts, R p verdict := by
  obtain ⟨i, hi, rfl⟩ := List.mem_iff_getElem.mp hp
  have hlength := h.length_eq
  exact ⟨verdicts[i], List.getElem_mem _, h.get hi (by omega)⟩

theorem mem_byRank {p : ProbableFinding} : p ∈ byRank input ↔ p ∈ input.probable := List.mem_mergeSort

/-- Findings with different ids, each with a verdict about it, are accounted for. -/
theorem accounted_of_about (hids : (input.probable.map (·.id)).Nodup) {verdicts : List FindingVerdict}
    (h : List.Forall₂ (fun p (verdict : FindingVerdict) => verdict.About p) (byRank input) verdicts) :
    Accounted input.probable (layer3Output verdicts) where
  once p hp := by
    have hsorted : ((byRank input).map (·.id)).Nodup := ((List.mergeSort_perm _ _).map _).nodup_iff.mpr hids
    have hcount : ((byRank input).map (·.id)).count p.id = 1 :=
      List.count_eq_one_of_mem hsorted (List.mem_map_of_mem (mem_byRank.mpr hp))
    rw [count_layer3Output, countP_of_about h, ← hcount, List.count, List.countP_map]
    rfl
  kept u hu := by
    obtain ⟨p, hp, habout⟩ := exists_decided h (mem_unconfirmed_iff.mp hu)
    obtain ⟨reason, hreason, rfl⟩ := habout.kept u rfl
    exact ⟨p, mem_byRank.mp hp, reason, hreason, rfl⟩
  confirms f hf := by
    obtain ⟨p, hp, habout⟩ := exists_decided h (mem_confirmed_iff.mp hf)
    exact ⟨p, mem_byRank.mp hp, habout.probableId⟩

/-- Findings with different ids that are decided are accounted for. -/
theorem accounted_of_decided (hids : (input.probable.map (·.id)).Nodup) {verdicts : List FindingVerdict}
    (h : List.Forall₂ (Decided rt input deps) (byRank input) verdicts) :
    Accounted input.probable (layer3Output verdicts) :=
  accounted_of_about hids (h.imp fun _ _ hdecided => hdecided.about)

/-- What a proof confirms, it confirms without a model, up to the argument. -/
theorem sameButArgument_of_decided {f : ConfirmedFinding} {verdict : FindingVerdict}
    (h : Decided rt input deps finding (.confirmed f))
    (h' : Decided rt input { deps with llm := false } finding verdict) :
    ∃ f', verdict = .confirmed f' ∧ SameButArgument f f' := by
  cases verdict with
  | confirmed f' =>
    obtain ⟨-, argument, rfl⟩ := h
    obtain ⟨-, argument', rfl⟩ := h'
    exact ⟨_, rfl, { argument := argument', dataFlow := (dataFlowOf rt input deps finding).hops
                     sanitizersBypassed := (dataFlowOf rt input deps finding).sanitizersBypassed },
      argument, rfl, rfl⟩
  | unconfirmed u => exact absurd h.1 (h'.2 rfl)

/-- Whatever the model answers, a batch for which live probing is not authorized and no existing test fails
accounts for each probable finding, and confirms nothing that it would not confirm without a model. -/
theorem neitherLost_nor_promoted {tr : Trace AgentOp AgentOp.Ans ProbeMemory} {m₀ m : ProbeMemory}
    {out : Layer3Output} (hids : (input.probable.map (·.id)).Nodup)
    (hnever : NeverAuthorized rt input deps live) (h : (confirmFindings rt input deps live).Ran tr m₀ (.ret m out))
    (htests : NoFailingTest tr) :
    Accounted input.probable out ∧
      ∀ tr' m₀' m' out', (confirmFindings rt input { deps with llm := false } live).Ran tr' m₀' (.ret m' out') →
        ∀ f ∈ out.confirmed, ∃ f' ∈ out'.confirmed, SameButArgument f f' := by
  obtain ⟨verdicts, hdecided, rfl⟩ := decided_of_confirmFindings hnever h fun x hx _ => htests x hx
  refine ⟨accounted_of_decided hids hdecided, fun tr' m₀' m' out' h' f hf => ?_⟩
  -- the authorization does not ask a model
  have hnever' : NeverAuthorized rt input { deps with llm := false } live := hnever
  obtain ⟨verdicts', hdecided', rfl⟩ :=
    decided_of_confirmFindings hnever' h' fun x _ hllm => (Bool.false_ne_true hllm).elim
  obtain ⟨p, hp, hconfirmed⟩ := exists_decided hdecided (mem_confirmed_iff.mp hf)
  obtain ⟨verdict, hverdict, hwithout⟩ := exists_verdict hdecided' hp
  obtain ⟨f', rfl, hsame⟩ := sameButArgument_of_decided hconfirmed hwithout
  exact ⟨f', mem_confirmed_iff.mpr hverdict, hsame⟩

/-! ## A batch of two -/

/-- A route with a raw query in its handler. -/
private def rawQueryMap : AppMap :=
  { id := "map", clientId := "acme", repo := "shop", branch := "main", commitSha := "0123456"
    routes :=
      [{ id := some "route", path := "/users", method := .get, authState := .public_
         handler := some { file := "src/db.ts", line := 1 } }]
    taintSources :=
      [{ kind := .queryParam, location := { file := "src/db.ts", line := 2 }, routeId := some "route" }]
    taintSinks := [{ kind := .ormRawQuery, location := { file := "src/db.ts", line := 9 } }]
    createdAt := 0 }

private def probableOf (id : EntityId) (category : Category) (rank : ℕ) : ProbableFinding :=
  { demoProbable with id, category, rank, location := { file := "src/db.ts", line := 9 }, routeId := some "route" }

/-- Nobody allows live probing. -/
private def twoFindings : ConfirmInput :=
  { clientId := "acme", scanId := "scan", appMap := rawQueryMap, allowLive := false
    config := { clientId := "acme" }
    probable := [probableOf "query" .sqlInjection 1, probableOf "headers" .missingSecurityHeaders 2] }

private def plainRuntime : Runtime where
  toLowerCase := lower
  parseJson _ := none
  parseUrl _ := none

private def modelDeps : ConfirmDeps := { llm := true, now := fun _ => 0 }

private def noProbing : LiveProbing where
  buildDefaultEgressGuard := Program.throw (.abort "")
  confirmLive _ _ _ guard := return ({ confirmed := false }, guard)

/-- The model does not answer, and the audit log takes everything. -/
private def silentModel : (op : AgentOp) → ProbeMemory → AgentOp.Ans op × ProbeMemory
  | .auditAppend _, m => (.ok (), m)
  | .resolvePrompt _, m => (.ok none, m)
  | .complete _, m => (.error (.abort "offline"), m)
  | .stream _, m => (.error (.abort "offline"), m)
  | .tool _, m => (.ok "", m)
  | .runTest .., m => (.error (.abort "offline"), m)

private theorem noFailingTest_silentModel (op : AgentOp) (m : ProbeMemory) :
    noFailingTest op (silentModel op m).1 := by
  cases op <;> trivial

private def running : ProbeMemory where
  now := 0
  aborted := none

/-- The findings are in order already. -/
private theorem byRank_twoFindings : byRank twoFindings = twoFindings.probable :=
  List.mergeSort_of_pairwise (by decide +kernel)

/-- What a batch of the two does, with its findings in order. -/
private def confirmTwo : AgentProgram Layer3Output := do
  let authorized ← authorizeLive plainRuntime twoFindings modelDeps noProbing
  let verdicts ← confirmEach plainRuntime twoFindings modelDeps noProbing authorized twoFindings.probable {}
  return layer3Output verdicts

/-- A raw query is confirmed and missing headers are kept, as they are without a model. -/
theorem neitherLost_nor_promoted_two : ∃ out : Layer3Output,
    out.confirmed.map (·.id) = ["cf_static_query"] ∧ out.unconfirmed.map (·.id) = ["headers"] ∧
      Accounted twoFindings.probable out ∧
      ∀ tr' m₀' m' out',
        (confirmFindings plainRuntime twoFindings { modelDeps with llm := false } noProbing).Ran tr' m₀'
            (.ret m' out') →
          ∀ f ∈ out.confirmed, ∃ f' ∈ out'.confirmed, SameButArgument f f' := by
  have htwo : confirmFindings plainRuntime twoFindings modelDeps noProbing = confirmTwo := by
    rw [confirmFindings, byRank_twoFindings, confirmTwo]
  let run := Outcome.replay silentModel 8 [] running (confirmTwo running)
  have hran : confirmTwo.Ran run.1 run.2.1 run.2.2 := (Program.Ran.start running).replay
  have htests : NoFailingTest run.1 := by
    intro x hx
    rcases Outcome.answer_of_mem_replay hx with hbefore | hanswer
    · cases hbefore
    · rw [hanswer]
      exact noFailingTest_silentModel x.op x.mem
  generalize hend : run.2.2 = o at hran
  have hids : (o.ended?.bind fun r => r.2.toOption).map
      (fun out => (out.confirmed.map (·.id), out.unconfirmed.map (·.id))) =
        some (["cf_static_query"], ["headers"]) := by
    rw [← hend]
    decide +kernel
  rw [← htwo] at hran
  have hnever : NeverAuthorized plainRuntime twoFindings modelDeps noProbing :=
    neverAuthorized_of_refused fun url h => by cases h
  cases o with
  | ret m out =>
    obtain ⟨hconfirmed, hunconfirmed⟩ := Prod.ext_iff.mp (Option.some.inj hids)
    exact ⟨out, hconfirmed, hunconfirmed, neitherLost_nor_promoted (by decide) hnever hran htests⟩
  | throw m e => cases hids
  | await m op k => cases hids

end MontrSecure.Confirm
