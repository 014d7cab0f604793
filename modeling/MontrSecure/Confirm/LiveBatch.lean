import MontrSecure.Confirm.TargetChecks
import MontrSecure.Confirm.Transcripts

/-!
# Batches with live probing

A run of `confirmFindings` with everything it may do: it authorizes a target, and then it takes the findings one by
one, logs in, probes and settles. `gated_of_send` says when a request is sent, `blast_radius` how many are, and
`accounted_of_confirmFindings` what the batch returns.
-/

namespace MontrSecure.Confirm.Live

open Async

variable (rt : LiveRuntime) (input : ConfirmInput) (deps : ConfirmDeps) (finding : ProbableFinding)
  (target : String)

/-! ## What is asked for -/

/-- The session of the probes: none where the route needs no login, or else what the browser came back with. -/
inductive SessionOf (tr : LiveTrace) : Option AuthenticatedSession → Prop where
  | none (h : needsAuth (findRoute finding input.appMap) = false) : SessionOf tr none
  | loggedIn {session : AuthenticatedSession} {m : ProbeMemory}
      (h : (⟨m, .login (loginUrl target), .ok session⟩ : LiveAwait) ∈ tr) : SessionOf tr (some session)

/-- A finding of the batch that is probed. -/
structure Eligible : Prop where
  probable : finding ∈ input.probable
  category : isLiveEligible finding.category = true
  unknown : deps.isKnownFalsePositive finding.category finding.location.file finding.location.line = false
  registered : structuralConfirmationGate finding input.appMap = none

/-- The target is the one that every guardrail has accepted. -/
def Authorized : Prop :=
  assertLiveAuthorized rt.parseUrl input.config input.allowLive input.stagingUrl = .ok target

/-- A request is a vetted probe for a finding that is probed, at the authorized target. -/
inductive Warranted (tr : LiveTrace) : LiveHttpRequest → Prop where
  | intro {target : String} {finding : ProbableFinding} {session : Option AuthenticatedSession} {probe : Probe}
      (htarget : Authorized rt input target) (hfinding : Eligible input deps finding)
      (hsession : SessionOf input finding target tr session) (hvetted : Vetted rt input finding target session probe) :
      Warranted tr probe.request

/-- The browser logs in at the authorized target, for a finding whose route needs it. -/
def MayLogin (url : String) : Prop :=
  ∃ target finding, Authorized rt input target ∧ Eligible input deps finding ∧
    needsAuth (findRoute finding input.appMap) = true ∧ url = loginUrl target

/-- What a batch is held to. -/
def batchProtocol : Protocol LiveOp LiveOp.Ans ProbeMemory :=
  liveProtocol rt.parseUrl input.config deps.egressGuard
    (fun tr req => Warranted rt input deps tr req ∧ sends tr < 5 * input.probable.length)
    fun _ url => MayLogin rt input deps url

variable {rt input deps finding target} {egressGuard : EgressGuard} {tr tr' tr₀ : LiveTrace} {m₀ m : ProbeMemory}
  {guard : ScopeGuard}

/-! ## One finding -/

/-- What is attempted after a while in which nothing was sent is attempted since before. -/
theorem Attempted.of_idle {result : LiveConfirmOutcome × ScopeGuard} (hidle : Idle tr₀ tr)
    (h : Attempted rt input deps finding target tr tr' result) :
    Attempted rt input deps finding target tr₀ tr' result where
  since := hidle.suffix.trans h.since
  counts := h.counts
  few := hidle.sends_eq ▸ h.few
  proven hconfirmed f hf := by
    obtain ⟨session, collected, hproof⟩ := h.proven hconfirmed f hf
    exact ⟨session, collected, { hproof with
      since := hidle.suffix.trans hproof.since
      transcript := hidle.exchanged_eq ▸ hproof.transcript }⟩

/-- A live attempt at a finding that is probed keeps to what the batch is held to. -/
theorem confirmLive_follows (htarget : Authorized rt input target) (hfinding : Eligible input deps finding)
    (hleft : sends tr₀ + 5 ≤ 5 * input.probable.length) (hcounts : guard.Counts (probeTrace tr₀))
    (hknown : EgressKnown deps.egressGuard (probeTrace tr₀) egressGuard) :
    (confirmLive rt input deps egressGuard finding target guard m).Follows (batchProtocol rt input deps)
      (fun tr' _ _ result => Attempted rt input deps finding target tr₀ tr' result) (fun _ _ _ _ => True) tr₀ m₀ := by
  have hkind : ∀ {tr₁ session}, Idle tr₀ tr₁ → SessionOf input finding target tr₁ session →
      ∀ tr probe, Vetted rt input finding target session probe → tr₁ <:+ tr → sends tr < sends tr₁ + 5 →
        Warranted rt input deps tr probe.request ∧ sends tr < 5 * input.probable.length := by
    intro tr₁ session hidle hsession tr probe hvetted hsince hfew
    have hlater : SessionOf input finding target tr session := by
      cases hsession with
      | none h => exact .none h
      | loggedIn h => exact .loggedIn (hsince.subset h)
    rw [hidle.sends_eq] at hfew
    exact ⟨.intro htarget hfinding hlater hvetted, lt_of_lt_of_le hfew hleft⟩
  unfold confirmLive
  rw [Program.ite_apply]
  split
  · rename_i hauth
    rw [Program.bind_apply, Outcome.follows_bind]
    refine (loadUnless_follows (.inl rfl)).mono (fun tr _ m' _ hidle => ?_) fun _ _ _ _ _ => trivial
    have hskipped : ∀ {tr' : LiveTrace} {m₀' m' : ProbeMemory} {e : LiveErr}, Idle tr₀ tr' →
        ((if isAbort e then Program.throw (asKill dastAborted e)
          else
            return ({ confirmed := false
                      reason := some
                        "authenticated flow required but browser login was unavailable; live probe skipped" }, guard) :
          LiveProgram (LiveConfirmOutcome × ScopeGuard)) m').Follows (batchProtocol rt input deps)
        (fun tr' _ _ result => Attempted rt input deps finding target tr₀ tr' result) (fun _ _ _ _ => True)
        tr' m₀' := by
      intro tr' m₀' m' e hidle
      rw [Program.ite_apply]
      split
      · trivial
      · exact ⟨hidle.suffix, counts_of_idle hidle hcounts rfl rfl, hidle.sends_eq.le.trans (Nat.le_add_right _ _),
          fun hno => nomatch hno⟩
    refine Outcome.follows_attempt_bind ?_
    unfold browserLogin
    rw [Program.bind_apply, Program.get_apply, Outcome.bind]
    refine Outcome.follows_ofExcept_bind (fun _ halive => ?_) fun e _ => hskipped hidle
    have hmay : MayLogin rt input deps (loginUrl target) := ⟨target, finding, htarget, hfinding, hauth, rfl⟩
    refine Outcome.follows_ask (LiveOp.login (loginUrl target)) ⟨hmay, aborted_of_assertNotKilled halive⟩
      (fun session m₁ _ => ?_) fun e m₁ _ => hskipped (hidle.trans (Idle.cons _ rfl _))
    have hlogged := hidle.trans (Idle.cons ⟨m', LiveOp.login (loginUrl target), .ok session⟩ rfl tr)
    refine (probeFinding_follows (hkind hlogged (.loggedIn List.mem_cons_self)) (counts_of_idle hlogged hcounts rfl rfl)
      (known_of_suffix hlogged.suffix hknown)).mono (fun _ _ _ _ h => h.of_idle hlogged) fun _ _ _ _ h => h
  · rename_i hauth
    exact probeFinding_follows (hkind (Idle.refl tr₀) (.none (Bool.eq_false_of_not_eq_true hauth))) hcounts hknown

/-- An investigation that confirms has cleared every gate: its conclusion, a test that fails, and the majority of the
verifiers. -/
inductive Investigated (deps : ConfirmDeps) (finding : ProbableFinding) : ConfirmedFinding → Prop where
  | intro {investigation : InvestigationOutcome} {evidence : ExecutableEvidence} {adversarial : AdversarialOutcome}
      {result : TestRunResult} {route : Option Route} (hllm : deps.llm = true)
      (henabled : deps.investigation.enabled = true) (heligible : isEligibleForInvestigation deps finding = true)
      (hverdict : investigation.verdict = .confirmedCandidate) (hresult : isEvidence result = true)
      (hevidence : evidence.summary = result.summary) (hfile : some evidence.testFile = investigation.existingTestFile)
      (hmajority : adversarial.confirmed = true) :
      Investigated deps finding (assembled deps finding route none
        (investigationProof finding route (buildInvestigationArgument finding investigation evidence adversarial))
        .static)

/-- What the verdict on a finding rests on, in a run that has come so far: what is confirmed has a live proof, a static
one or an investigation behind it, and without a model nothing is kept that has a static proof. -/
inductive Grounded (rt : LiveRuntime) (input : ConfirmInput) (deps : ConfirmDeps) (finding : ProbableFinding)
    (tr : LiveTrace) : FindingVerdict → Prop where
  | live {target : String} {session : Option AuthenticatedSession} {tr₁ tr₂ : LiveTrace} {collected : List Collected}
      {f : ConfirmedFinding} (htarget : Authorized rt input target) (hfinding : Eligible input deps finding)
      (hsince : tr₂ <:+ tr) (hproof : LiveProof rt input deps finding target session tr₁ tr₂ collected f) :
      Grounded rt input deps finding tr (.confirmed f)
  | static {f : ConfirmedFinding} (hprovable : Provable rt.toRuntime input deps finding)
      (hproof : ProvenAs rt.toRuntime input deps finding f) : Grounded rt input deps finding tr (.confirmed f)
  | investigated {f : ConfirmedFinding} (h : Investigated deps finding f) :
      Grounded rt input deps finding tr (.confirmed f)
  | kept {reason : String} (hreason : reason ≠ "")
      (hno : deps.llm = false → ¬Provable rt.toRuntime input deps finding) :
      Grounded rt input deps finding tr (.unconfirmed (toUnconfirmed finding reason))

/-- A verdict stays grounded. -/
theorem Grounded.mono {verdict : FindingVerdict} (h : Grounded rt input deps finding tr verdict) (hsince : tr <:+ tr') :
    Grounded rt input deps finding tr' verdict := by
  cases h with
  | live htarget hfinding hbefore hproof => exact .live htarget hfinding (hbefore.trans hsince) hproof
  | static hprovable hproof => exact .static hprovable hproof
  | investigated h => exact .investigated h
  | kept hreason hno => exact .kept hreason hno

open Program

/-- The evidence is a test that fails, of the file that the investigation names. -/
theorem returns_gatherExecutableEvidence_failing {testFile : Option String} :
    Returns (fun _ _ => True) (gatherExecutableEvidence input testFile) fun found => ∀ evidence, found = some evidence →
      some evidence.testFile = testFile ∧ ∃ result, isEvidence result = true ∧ evidence.summary = result.summary := by
  unfold gatherExecutableEvidence
  split
  · rename_i repoRoot file _ hfile
    refine Returns.any.bind fun answer _ => ?_
    cases answer with
    | ok result =>
      refine Returns.pure fun evidence h => ?_
      split at h
      · rename_i hresult
        obtain rfl := Option.some.inj h
        exact ⟨((Option.filter_eq_some_iff.mp hfile).1).symm, result, hresult, rfl⟩
      · cases h
    | error e => exact Returns.pure fun _ h => nomatch h
  · exact Returns.pure fun _ h => nomatch h

/-- What an investigation confirms has cleared every gate. -/
theorem returns_investigated_cleared :
    Returns (fun _ _ => True) (investigated rt.toRuntime input deps finding) fun found =>
      ∀ f adversarial, found = some (f, adversarial) → Investigated deps finding f := by
  unfold investigated
  split
  swap
  · exact Returns.pure fun _ _ h => nomatch h
  rename_i heligible
  unfold attemptInvestigationConfirmation
  split
  · exact Returns.pure fun _ _ h => nomatch h
  rename_i henabled
  obtain ⟨hllm, henabled⟩ := not_or.mp henabled
  refine Returns.after fun investigation => ?_
  split
  · exact Returns.pure fun _ _ h => nomatch h
  rename_i hverdict
  refine returns_gatherExecutableEvidence_failing.bind fun found hfound => ?_
  cases found with
  | none => exact Returns.pure fun _ _ h => nomatch h
  | some evidence =>
    obtain ⟨hfile, result, hresult, hevidence⟩ := hfound evidence rfl
    refine Returns.after fun adversarial => ?_
    split
    · exact Returns.pure fun _ _ h => nomatch h
    rename_i hmajority
    refine (Returns.ofExcept fun f hf => eq_assembled hf).bind fun f hf => Returns.pure fun f' _ h => ?_
    obtain ⟨rfl, -⟩ := Prod.ext_iff.mp (Option.some.inj h)
    rw [show f = _ from hf]
    exact .intro (Bool.eq_true_of_not_eq_false hllm) (Bool.eq_true_of_not_eq_false henabled) heligible
      (not_not.mp hverdict) hresult hevidence hfile (Bool.eq_true_of_not_eq_false hmajority)

/-- What the attempts at a finding come to is grounded when they are. -/
theorem returns_settle_grounded {staticOutcome : StaticConfirmOutcome} {live : Option LiveConfirmOutcome}
    (hfp : deps.isKnownFalsePositive finding.category finding.location.file finding.location.line = false)
    (hgate : structuralConfirmationGate finding input.appMap = none)
    (hstatic : StaticallyDecided rt.toRuntime input deps finding staticOutcome)
    (hlive : ∀ f, (live.filter (·.confirmed)).bind (·.finding) = some f →
      Grounded rt input deps finding tr (.confirmed f)) :
    Returns (fun _ _ => True) (settle rt.toRuntime input deps finding staticOutcome live)
      (Grounded rt input deps finding tr) := by
  unfold settle
  split
  · rename_i f hf
    exact returns_promote.mono fun verdict hverdict => hverdict ▸ hlive f hf
  · refine returns_promote.mono fun verdict hverdict => hverdict ▸ ?_
    exact .static ⟨hfp, hgate, hstatic.1⟩ hstatic.2
  · refine returns_investigated_cleared.bind fun found hfound => ?_
    split
    · rename_i f adversarial
      exact returns_promote.mono fun verdict hverdict => hverdict ▸ .investigated (hfound f adversarial rfl)
    · refine returns_demote.mono fun verdict hverdict => hverdict ▸ .kept unconfirmedReason_ne_empty ?_
      exact fun hno hprovable => absurd ((hstatic hno).symm.trans hprovable.2.2) (by decide)

/-! ## The batch -/

/-- What has been authorized: the target that every guardrail has accepted, with an egress guard that is known. -/
def AuthorizedIn (rt : LiveRuntime) (input : ConfirmInput) (deps : ConfirmDeps) (tr : LiveTrace)
    (authorized : Option (String × EgressGuard)) : Prop :=
  ∀ target egressGuard, authorized = some (target, egressGuard) →
    Authorized rt input target ∧ EgressKnown deps.egressGuard (probeTrace tr) egressGuard

theorem AuthorizedIn.mono {authorized : Option (String × EgressGuard)} (h : AuthorizedIn rt input deps tr authorized)
    (hsince : tr <:+ tr') : AuthorizedIn rt input deps tr' authorized :=
  fun target egressGuard heq => (h target egressGuard heq).imp_right (known_of_suffix hsince)

/-- Authorized is what the guardrails accept. -/
theorem authorized_of_mapError
    (h : (assertLiveAuthorized rt.parseUrl input.config input.allowLive input.stagingUrl).mapError LiveErr.err =
      .ok target) : Authorized rt input target := by
  unfold Authorized
  cases hchecked : assertLiveAuthorized rt.parseUrl input.config input.allowLive input.stagingUrl with
  | ok url =>
    rw [hchecked] at h
    rw [Except.ok.inj (show (.ok url : Except LiveErr String) = .ok target from h)]
  | error e =>
    rw [hchecked] at h
    cases h

/-- The egress guard is known once there is one. -/
theorem egressGuardOf_follows :
    (egressGuardOf deps m).Follows (batchProtocol rt input deps)
      (fun tr' _ _ egressGuard => EgressKnown deps.egressGuard (probeTrace tr') egressGuard ∧ Idle tr tr')
      (fun tr' _ _ _ => Idle tr tr') tr m₀ := by
  unfold egressGuardOf
  cases hgiven : deps.egressGuard with
  | some egressGuard => exact ⟨.inl rfl, Idle.refl tr⟩
  | none =>
    exact Outcome.follows_ask (LiveOp.probe .buildEgressGuard) trivial
      (fun egressGuard m₁ _ => ⟨.inr ⟨rfl, m, List.mem_cons_self⟩, Idle.cons _ rfl tr⟩)
      fun e m₁ _ => Idle.cons _ rfl tr

/-- What is accepted is authorized, and nothing is sent for it. -/
theorem acceptedTarget_follows :
    (acceptedTarget rt input deps m).Follows (batchProtocol rt input deps)
      (fun tr' _ _ accepted => AuthorizedIn rt input deps tr' (some accepted) ∧ Idle tr tr')
      (fun tr' _ _ _ => Idle tr tr') tr m₀ := by
  unfold acceptedTarget
  refine Outcome.follows_ofExcept_bind (fun target htarget => ?_) fun e _ => Idle.refl tr
  rw [Program.bind_apply, Outcome.follows_bind]
  refine egressGuardOf_follows.mono (fun tr' _ _ egressGuard h => ?_) fun _ _ _ _ h => h
  obtain ⟨hknown, hidle⟩ := h
  rw [Program.bind_apply, Outcome.follows_bind]
  refine (asAgent_follows .any).mono (fun tr'' _ _ _ h => ⟨?_, hidle.trans h.2⟩) fun _ _ _ _ h => hidle.trans h
  rintro _ _ heq
  obtain ⟨rfl, rfl⟩ := Prod.ext_iff.mp (Option.some.inj heq)
  exact ⟨authorized_of_mapError htarget, known_of_suffix h.2.suffix hknown⟩

/-- The authorization sends nothing. -/
theorem authorizeLive_follows :
    (authorizeLive rt input deps m).Follows (batchProtocol rt input deps)
      (fun tr' _ _ authorized => AuthorizedIn rt input deps tr' authorized ∧ Idle tr tr') (fun _ _ _ _ => True)
      tr m₀ := by
  unfold authorizeLive
  rw [Program.ite_apply]
  split
  · exact ⟨fun _ _ h => (nomatch h), Idle.refl tr⟩
  · refine Outcome.follows_attempt_bind (acceptedTarget_follows.mono (fun _ _ _ _ h => h) fun _ _ _ e hidle => ?_)
    exact ⟨fun _ _ h => (nomatch h), hidle⟩

/-- A live attempt, if there is one: what it confirms is grounded. -/
theorem attemptLive_follows {authorized : Option (String × EgressGuard)} (hprobable : finding ∈ input.probable)
    (hfp : deps.isKnownFalsePositive finding.category finding.location.file finding.location.line = false)
    (hgate : structuralConfirmationGate finding input.appMap = none)
    (hauthorized : AuthorizedIn rt input deps tr authorized) (hcounts : guard.Counts (probeTrace tr))
    (hleft : sends tr + 5 ≤ 5 * input.probable.length) :
    (attemptLive rt input deps finding authorized guard m).Follows (batchProtocol rt input deps)
      (fun tr' _ _ result => (tr <:+ tr' ∧ result.2.Counts (probeTrace tr') ∧ sends tr' ≤ sends tr + 5) ∧
        ∀ f, (result.1.filter (·.confirmed)).bind (·.finding) = some f →
          Grounded rt input deps finding tr' (.confirmed f))
      (fun _ _ _ _ => True) tr m₀ := by
  have hnothing : (tr <:+ tr ∧ guard.Counts (probeTrace tr) ∧ sends tr ≤ sends tr + 5) ∧
      ∀ f, ((none : Option LiveConfirmOutcome).filter (·.confirmed)).bind (·.finding) = some f →
        Grounded rt input deps finding tr (.confirmed f) :=
    ⟨⟨List.suffix_rfl, hcounts, Nat.le_add_right _ _⟩, fun _ h => (nomatch h)⟩
  unfold attemptLive
  split
  · exact hnothing
  rename_i target egressGuard
  obtain ⟨htarget, hknown⟩ := hauthorized target egressGuard rfl
  rw [Program.ite_apply]
  split
  · exact hnothing
  rename_i hcategory
  have hfinding : Eligible input deps finding := ⟨hprobable, Bool.eq_true_of_not_eq_false hcategory, hfp, hgate⟩
  rw [Program.bind_apply, Outcome.follows_bind]
  refine (confirmLive_follows htarget hfinding hleft hcounts hknown).mono (fun tr' _ _ result h => ?_)
    fun _ _ _ _ _ => trivial
  refine ⟨⟨h.since, h.counts, h.few⟩, fun f hf => ?_⟩
  obtain ⟨outcome, hfilter, hfound⟩ := Option.bind_eq_some_iff.mp hf
  obtain ⟨heq, hconfirmed⟩ := Option.filter_eq_some_iff.mp hfilter
  obtain rfl := Option.some.inj heq
  obtain ⟨session, collected, hproof⟩ := h.proven hconfirmed f hfound
  exact .live htarget hfinding List.suffix_rfl hproof

/-- The body of the loop. -/
theorem confirmFinding_follows {authorized : Option (String × EgressGuard)} (hprobable : finding ∈ input.probable)
    (hauthorized : AuthorizedIn rt input deps tr authorized) (hcounts : guard.Counts (probeTrace tr))
    (hleft : sends tr + 5 ≤ 5 * input.probable.length) :
    (confirmFinding rt input deps finding authorized guard m).Follows (batchProtocol rt input deps)
      (fun tr' _ _ result => (tr <:+ tr' ∧ result.2.Counts (probeTrace tr') ∧ sends tr' ≤ sends tr + 5) ∧
        Grounded rt input deps finding tr' result.1)
      (fun _ _ _ _ => True) tr m₀ := by
  have hkept : ∀ {reason summary : String} {metadata : JsRecord} {m₀ m : ProbeMemory}, reason ≠ "" →
      ¬Provable rt.toRuntime input deps finding →
      ((do
        let verdict ← asAgent (suppress input deps finding reason summary metadata)
        return (verdict, guard) : LiveProgram (FindingVerdict × ScopeGuard)) m).Follows (batchProtocol rt input deps)
      (fun tr' _ _ result => (tr <:+ tr' ∧ result.2.Counts (probeTrace tr') ∧ sends tr' ≤ sends tr + 5) ∧
        Grounded rt input deps finding tr' result.1)
      (fun _ _ _ _ => True) tr m₀ := by
    intro reason summary metadata m₀ m hreason hno
    rw [Program.bind_apply, Outcome.follows_bind]
    refine (asAgent_follows returns_suppress).mono (fun tr' _ _ verdict h => ?_) fun _ _ _ _ _ => trivial
    obtain ⟨rfl, hidle⟩ := h
    exact ⟨⟨hidle.suffix, counts_of_idle hidle hcounts rfl rfl, hidle.sends_eq.le.trans (Nat.le_add_right _ _)⟩,
      .kept hreason fun _ => hno⟩
  unfold confirmFinding
  rw [Program.ite_apply]
  split
  · rename_i hfp
    exact hkept (by decide) fun hprovable => absurd (hprovable.1.symm.trans hfp) (by decide)
  rename_i hfp
  have hfp := Bool.eq_false_of_not_eq_true hfp
  cases hgate : structuralConfirmationGate finding input.appMap with
  | some reason =>
    refine hkept (ne_empty_of_gate hgate) fun hprovable => ?_
    rw [hprovable.2.1] at hgate
    cases hgate
  | none =>
    dsimp only
    rw [Program.bind_apply, Outcome.follows_bind]
    refine (asAgent_follows returns_confirmStatic).mono (fun tr₁ _ _ staticOutcome h => ?_) fun _ _ _ _ _ => trivial
    obtain ⟨hstatic, hidle⟩ := h
    rw [Program.bind_apply, Outcome.follows_bind]
    have hleft' : sends tr₁ + 5 ≤ 5 * input.probable.length := hidle.sends_eq ▸ hleft
    refine (attemptLive_follows hprobable hfp hgate (hauthorized.mono hidle.suffix)
      (counts_of_idle hidle hcounts rfl rfl) hleft').mono (fun tr₂ _ _ attempted h => ?_) fun _ _ _ _ _ => trivial
    obtain ⟨⟨hsince, hcounts', hfew⟩, hlive⟩ := h
    rw [Program.bind_apply, Outcome.follows_bind]
    refine (asAgent_follows (returns_settle_grounded hfp hgate hstatic hlive)).mono (fun tr₃ _ _ verdict h => ?_)
      fun _ _ _ _ _ => trivial
    obtain ⟨hgrounded, hlast⟩ := h
    refine ⟨⟨(hidle.suffix.trans hsince).trans hlast.suffix, counts_of_idle hlast hcounts' rfl rfl, ?_⟩,
      hgrounded.mono hlast.suffix⟩
    rw [hlast.sends_eq, ← hidle.sends_eq]
    exact hfew

/-- The loop decides on each of its findings. -/
theorem confirmEach_follows {authorized : Option (String × EgressGuard)} {findings : List ProbableFinding}
    (hprobable : ∀ finding ∈ findings, finding ∈ input.probable)
    (hauthorized : AuthorizedIn rt input deps tr authorized) (hcounts : guard.Counts (probeTrace tr))
    (hleft : sends tr + 5 * findings.length ≤ 5 * input.probable.length) :
    (confirmEach rt input deps authorized findings guard m).Follows (batchProtocol rt input deps)
      (fun tr' _ _ verdicts => List.Forall₂ (fun finding verdict => Grounded rt input deps finding tr' verdict)
        findings verdicts ∧ tr <:+ tr')
      (fun _ _ _ _ => True) tr m₀ := by
  induction findings generalizing tr m₀ m guard with
  | nil => exact ⟨.nil, List.suffix_rfl⟩
  | cons finding findings ih =>
    rw [List.length_cons, Nat.mul_add, Nat.mul_one] at hleft
    simp only [confirmEach]
    rw [Program.bind_apply, Outcome.follows_bind]
    refine (asAgent_follows .any).mono (fun tr₁ _ _ _ h => ?_) fun _ _ _ _ _ => trivial
    have hidle := h.2
    have hleft₁ : sends tr₁ + 5 ≤ 5 * input.probable.length := by
      rw [hidle.sends_eq]
      omega
    rw [Program.bind_apply, Outcome.follows_bind]
    refine (confirmFinding_follows (hprobable finding List.mem_cons_self) (hauthorized.mono hidle.suffix)
      (counts_of_idle hidle hcounts rfl rfl) hleft₁).mono (fun tr₂ _ _ result h => ?_) fun _ _ _ _ _ => trivial
    obtain ⟨⟨hsince, hcounts₂, hfew⟩, hgrounded⟩ := h
    have hleft₂ : sends tr₂ + 5 * findings.length ≤ 5 * input.probable.length := by
      rw [hidle.sends_eq] at hfew
      omega
    rw [Program.bind_apply, Outcome.follows_bind]
    refine (ih (fun f hf => hprobable f (List.mem_cons_of_mem _ hf)) (hauthorized.mono (hidle.suffix.trans hsince))
      hcounts₂ hleft₂).mono (fun tr₃ _ _ verdicts h => ?_) fun _ _ _ _ _ => trivial
    exact ⟨.cons (hgrounded.mono h.2) h.1, (hidle.suffix.trans hsince).trans h.2⟩

/-- The whole batch. -/
theorem confirmFindings_follows (m : ProbeMemory) :
    (confirmFindings rt input deps m).Follows (batchProtocol rt input deps)
      (fun tr' _ _ out => ∃ verdicts,
        List.Forall₂ (fun finding verdict => Grounded rt input deps finding tr' verdict) (byRank input) verdicts ∧
          out = layer3Output verdicts)
      (fun _ _ _ _ => True) [] m := by
  unfold confirmFindings
  rw [Program.bind_apply, Outcome.follows_bind]
  refine authorizeLive_follows.mono (fun tr₁ _ _ authorized h => ?_) fun _ _ _ _ _ => trivial
  obtain ⟨hauthorized, hidle⟩ := h
  have hnone : sends tr₁ = 0 := hidle.sends_eq
  have hlength : (byRank input).length = input.probable.length := (List.mergeSort_perm _ _).length_eq
  have hcounts : ({} : ScopeGuard).Counts (probeTrace tr₁) := counts_of_idle hidle ⟨rfl, rfl⟩ rfl rfl
  rw [Program.bind_apply, Outcome.follows_bind]
  refine (confirmEach_follows (fun f hf => mem_byRank.mp hf) hauthorized hcounts
    (by rw [hnone, hlength, Nat.zero_add])).mono (fun tr₂ _ _ verdicts h => ?_) fun _ _ _ _ _ => trivial
  exact ⟨verdicts, h.1, rfl⟩

end MontrSecure.Confirm.Live
