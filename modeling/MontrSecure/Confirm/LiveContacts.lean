import MontrSecure.Confirm.LiveBatch
import MontrSecure.Security.Egress

/-!
# What a batch does to its target, and what it returns

The results about whole runs of `confirmFindings`: `mayContact_of_await` says when the target is contacted at all,
`blastRadius` bounds how much of it there is, `accounted_of_confirmFindings` says that nothing is lost and what every
confirmation rests on, and `confirmFindings_eq_asAgent` that without live probing the batch is the one that contacts
nothing.
-/

namespace MontrSecure.Confirm.Live

open Async

variable (rt : LiveRuntime) (input : ConfirmInput) (deps : ConfirmDeps)

/-! ## Contacts -/

/-- The answers to mutating requests. -/
def mutated (tr : LiveTrace) : ℕ := (exchanged tr).countP fun x => isMutating x.1.method

/-- What holds when a request is sent, after what was answered before. -/
structure Gated (tr : LiveTrace) (m : ProbeMemory) (req : LiveHttpRequest) : Prop where
  allowed : input.allowLive = true ∧ input.config.dast.enabled = true
  warranted : Warranted rt input deps tr req
  notKilled : m.aborted = none
  inScope : ∃ entry ∈ input.config.dast.allowlist, LiesUnder rt.parseUrl req.url entry
  notProduction : input.config.productionBlocked = true → looksLikeProduction rt.parseUrl req.url = false
  underCap : (exchanged tr).length < input.config.scope.maxRequestsPerScan
  underMutatingCap : isMutating req.method = true → mutated tr < input.config.scope.maxMutatingRequests
  egress : ∃ egressGuard, EgressKnown deps.egressGuard (probeTrace tr) egressGuard ∧ egressGuard req.url = .ok ()

/-- What holds when an operation is issued: a request is gated, and the browser logs in where it may. -/
def MayContact (tr : LiveTrace) (m : ProbeMemory) : LiveOp → Prop
  | .probe (.send req) => Gated rt input deps tr m req
  | .login url => MayLogin rt input deps url ∧ m.aborted = none
  | _ => True

variable {rt input deps} {tr : LiveTrace} {m₀ m : ProbeMemory}

/-- What the guard accepts. -/
theorem of_assertProbeAllowed {parseUrl : UrlParser} {config : LiveConfig} {egressGuard : EgressGuard}
    {guard : ScopeGuard} {url method : String}
    (h : guard.assertProbeAllowed parseUrl config egressGuard m url method = .ok ()) :
    guard.total < config.scope.maxRequestsPerScan ∧
      (isMutating method = true → guard.mutating < config.scope.maxMutatingRequests) ∧
      isAllowlisted parseUrl url config.dast.allowlist = true ∧
      (config.productionBlocked = true → looksLikeProduction parseUrl url = false) ∧ egressGuard url = .ok () := by
  unfold ScopeGuard.assertProbeAllowed at h
  cases halive : ScopeGuard.assertNotKilled m with
  | error e =>
    rw [halive] at h
    cases h
  | ok _ =>
    rw [halive] at h
    change (if _ then _ else _) = _ at h
    split_ifs at h with htotal hmutating hlisted hproduction
    refine ⟨not_le.mp htotal, fun hmethod => ?_, Bool.eq_true_of_not_eq_false hlisted, fun hblocked => ?_, ?_⟩
    · by_contra hfull
      exact hmutating (by rw [hmethod, Bool.true_and]; exact decide_eq_true (not_lt.mp hfull))
    · rw [hblocked, Bool.true_and] at hproduction
      exact Bool.eq_false_of_not_eq_true hproduction
    · split at h
      · assumption
      · cases h

/-- What is authorized was allowed. -/
theorem Authorized.allowed {target : String} (h : Authorized rt input target) :
    input.allowLive = true ∧ input.config.dast.enabled = true := by
  unfold Authorized assertLiveAuthorized at h
  split at h
  · cases h
  rename_i henabled
  split at h
  · cases h
  rename_i hallowed
  exact ⟨Bool.eq_true_of_not_eq_false hallowed, Bool.eq_true_of_not_eq_false henabled⟩

/-- What may be sent is gated. -/
theorem gated_of_sendable {req : LiveHttpRequest} (hwarranted : Warranted rt input deps tr req)
    (h : Sendable rt.parseUrl input.config deps.egressGuard (probeTrace tr) m req) : Gated rt input deps tr m req := by
  obtain ⟨hkilled, guard, egressGuard, m₁, -, ⟨htotal, hmutating⟩, hknown, haccepted⟩ := h
  obtain ⟨hcap, hmutatingCap, hlisted, hproduction, hegress⟩ := of_assertProbeAllowed haccepted
  rw [answered_probeTrace] at htotal hmutating
  have hallowed : input.allowLive = true ∧ input.config.dast.enabled = true := by
    obtain ⟨htarget, -, -, -⟩ := hwarranted
    exact htarget.allowed
  refine ⟨hallowed, hwarranted, hkilled, isAllowlisted_iff.mp hlisted, hproduction, ?_, fun hmethod => ?_,
    egressGuard, hknown, hegress⟩
  · rwa [htotal, List.length_map] at hcap
  · have hfewer := hmutatingCap hmethod
    rw [hmutating, List.countP_map] at hfewer
    exact hfewer

/-- The target is contacted only as it may be: before each request every guardrail has accepted it, with the answers
so far under the caps, and before a login the kill switch has not fired. -/
theorem mayContact_of_await {op : LiveOp} {k : op.Ans → ProbeMemory → Outcome LiveOp LiveOp.Ans ProbeMemory LiveErr Layer3Output}
    (h : (confirmFindings rt input deps).Ran tr m₀ (.await m op k)) : MayContact rt input deps tr m op := by
  have hawaits := h.awaits confirmFindings_follows fun _ _ => trivial
  cases op with
  | probe op =>
    cases op with
    | send req => exact gated_of_sendable hawaits.1.1 hawaits.2
    | sleep ms => trivial
    | buildEgressGuard => trivial
  | login url => exact hawaits
  | agent op => trivial
  | loadBrowser => trivial
  | loadTransport => trivial

/-- The egress guard that a batch has built itself is one that an operation of the run was answered with. -/
theorem exists_answer_of_known {egressGuard : EgressGuard} (hnone : deps.egressGuard = none)
    (h : EgressKnown deps.egressGuard (probeTrace tr) egressGuard) :
    ∃ m, ⟨m, .probe .buildEgressGuard, .ok egressGuard⟩ ∈ tr := by
  obtain hgiven | ⟨-, m, hmem⟩ := h
  · rw [hnone] at hgiven
    cases hgiven
  · obtain ⟨⟨m', op, r⟩, hx, hawait⟩ := List.mem_filterMap.mp hmem
    cases op with
    | probe op =>
      cases hawait
      exact ⟨m, hx⟩
    | agent op => cases hawait
    | login url => cases hawait
    | loadBrowser => cases hawait
    | loadTransport => cases hawait

/-- Default-deny over a whole run: a batch that builds its egress guard from the configuration sends requests to no
host but those that the configuration permits, the staging targets among them. -/
theorem permitted_of_send {hostname : String → Option String} {egress : Egress.EgressConfig}
    {req : LiveHttpRequest}
    {k : LiveOp.Ans (.probe (.send req)) → ProbeMemory → Outcome LiveOp LiveOp.Ans ProbeMemory LiveErr Layer3Output}
    (hnone : deps.egressGuard = none)
    (hbuilt : ∀ m egressGuard, ⟨m, .probe .buildEgressGuard, .ok egressGuard⟩ ∈ tr →
      Egress.createEgressGuard hostname egress { includeDastTargets := true } = .ok egressGuard)
    (h : (confirmFindings rt input deps).Ran tr m₀ (.await m (.probe (.send req)) k)) :
    ∃ host, Egress.normalizeHost hostname req.url = .ok host ∧
      Egress.Permitted hostname egress { includeDastTargets := true } host := by
  have hawaits := h.awaits confirmFindings_follows fun _ _ => trivial
  obtain ⟨egressGuard, hknown, haccepted⟩ := (gated_of_sendable hawaits.1.1 hawaits.2).egress
  obtain ⟨m', hanswer⟩ := exists_answer_of_known hnone hknown
  exact (Egress.assert_createEgressGuard_iff (hbuilt m' egressGuard hanswer) req.url).mp haccepted

/-! ## The blast radius -/

/-- What conforms to the protocol stays within the caps. -/
theorem within_of_conforms (h : (batchProtocol rt input deps).Conforms tr) :
    (exchanged tr).length ≤ input.config.scope.maxRequestsPerScan ∧
      mutated tr ≤ input.config.scope.maxMutatingRequests ∧ sends tr ≤ 5 * input.probable.length := by
  induction tr with
  | nil => exact ⟨Nat.zero_le _, Nat.zero_le _, Nat.zero_le _⟩
  | cons x tr ih =>
    obtain ⟨⟨m₀, hawaits⟩, -, hbefore⟩ := h
    obtain ⟨hlength, hmutated, hsends⟩ := ih hbefore
    cases hsend : x.op.isSend with
    | false =>
      have hidle := Idle.cons x hsend tr
      rw [mutated, hidle.exchanged_eq, hidle.sends_eq]
      exact ⟨hlength, hmutated, hsends⟩
    | true =>
      obtain ⟨m, op, r⟩ := x
      obtain ⟨req, rfl⟩ : ∃ req, op = .probe (.send req) := by
        cases op with
        | probe op =>
          cases op with
          | send req => exact ⟨req, rfl⟩
          | sleep ms => cases hsend
          | buildEgressGuard => cases hsend
        | agent op => cases hsend
        | login url => cases hsend
        | loadBrowser => cases hsend
        | loadTransport => cases hsend
      have hgated := gated_of_sendable hawaits.1.1 hawaits.2
      refine ⟨?_, ?_, (sends_cons_le _ tr).trans hawaits.1.2⟩
      · cases r with
        | error e => exact hlength
        | ok response => exact hgated.underCap
      · cases r with
        | error e => exact hmutated
        | ok response =>
          show List.countP _ ((req, response) :: exchanged tr) ≤ _
          rw [List.countP_cons]
          split
          · rename_i hmethod
            exact hgated.underMutatingCap hmethod
          · exact hmutated

/-- A verdict that is grounded is about its finding. -/
theorem Grounded.about {finding : ProbableFinding} {verdict : FindingVerdict}
    (h : Grounded rt input deps finding tr verdict) : verdict.About finding := by
  cases h with
  | live htarget hfinding hsince hproof =>
    rw [hproof.proof]
    exact ⟨rfl, fun u hu => nomatch hu⟩
  | static hprovable hproof =>
    obtain ⟨argument, rfl⟩ := hproof
    exact ⟨rfl, fun u hu => nomatch hu⟩
  | investigated h =>
    obtain ⟨-⟩ := h
    exact ⟨rfl, fun u hu => nomatch hu⟩
  | kept hreason hno => exact ⟨rfl, fun u hu => ⟨_, hreason, (FindingVerdict.unconfirmed.inj hu).symm⟩⟩

/-- The categories whose probes all post. -/
def postedCategories : List Category := [.xxe, .insecureDeserialization]

/-- A vetted probe of such a category posts. -/
theorem method_of_vetted {finding : ProbableFinding} {target : String} {session : Option AuthenticatedSession}
    {probe : Probe} (hcategory : finding.category ∈ postedCategories)
    (h : Vetted rt input finding target session probe) : probe.request.method = "POST" := by
  obtain hxxe | hdeserialization : finding.category = .xxe ∨ finding.category = .insecureDeserialization := by
    simpa [postedCategories] using hcategory
  · cases h with
    | crafted h =>
      simp only [craftProbes, craftFor, hxxe, List.mem_cons, List.not_mem_nil, or_false] at h
      obtain rfl | rfl := h
      · rfl
      · rfl
    | variant h =>
      simp only [payloadVariants, hxxe, List.mem_cons, List.not_mem_nil, or_false] at h
      obtain rfl | rfl := h
      · rfl
      · rfl
    | composed hcomposable => simp [hxxe, isComposableLiveCategory, composableLiveCategories] at hcomposable
  · cases h with
    | crafted h =>
      simp only [craftProbes, craftFor, hdeserialization, List.mem_cons, List.not_mem_nil, or_false] at h
      obtain rfl | rfl := h
      · rfl
      · rfl
    | variant h =>
      simp only [payloadVariants, hdeserialization, List.mem_cons, List.not_mem_nil, or_false] at h
      obtain rfl | rfl := h
      · rfl
      · rfl
    | composed hcomposable =>
      simp [hdeserialization, isComposableLiveCategory, composableLiveCategories] at hcomposable

/-- What the oracle accepts, it accepts for one of the responses. -/
theorem exists_of_oracle {toLowerCase : String → String} {category : Category} {collected : List Collected}
    (h : (oracle toLowerCase category collected).success = true) : ∃ c, c ∈ collected := by
  unfold oracle at h
  split at h
  · cases h
  · rename_i c hc
    exact ⟨c, List.mem_reverse.mp (List.mem_of_find?_eq_some hc)⟩

/-- While no mutating request is allowed, as is the default, nothing that needs a posted body is ever confirmed
live. -/
theorem not_posted_of_live {out : Layer3Output} {f : ConfirmedFinding}
    (hcap : input.config.scope.maxMutatingRequests = 0)
    (h : (confirmFindings rt input deps).Ran tr m₀ (.ret m out)) (hf : f ∈ out.confirmed)
    (hlive : f.proofType = .live) : f.category ∉ postedCategories := by
  obtain ⟨verdicts, hverdicts, rfl⟩ := h.returned confirmFindings_follows fun _ _ => trivial
  obtain ⟨p, -, hgrounded⟩ := exists_decided hverdicts (mem_confirmed_iff.mp hf)
  cases hgrounded with
  | live htarget hfinding hsince hproof =>
    rw [hproof.proof]
    intro hcategory
    obtain ⟨c, hc⟩ := exists_of_oracle hproof.accepted
    have hmethod := method_of_vetted hcategory (hproof.vetted c hc)
    -- its request was answered, and it is one that mutates
    have hmem : c.exchange ∈ exchanged tr := by
      refine (hsince.filterMap exchange).subset ?_
      show c.exchange ∈ exchanged _
      rw [hproof.transcript]
      exact List.mem_append_left _ (List.mem_reverse.mpr (List.mem_map_of_mem hc))
    have hmutating : isMutating c.exchange.1.method = true := by
      rw [Collected.exchange, hmethod]
      decide +kernel
    have hsome : 0 < mutated tr := List.countP_pos_iff.mpr ⟨c.exchange, hmem, hmutating⟩
    have hnone := (within_of_conforms (h.conforms confirmFindings_follows fun _ _ => trivial)).2.1
    omega
  | static hprovable hproof =>
    obtain ⟨argument, rfl⟩ := hproof
    cases hlive
  | investigated h =>
    obtain ⟨-⟩ := h
    cases hlive

/-! ## Without live probing -/

/-- A sequence that contacts nothing. -/
theorem asAgent_bind {α β : Type} (p : AgentProgram α) (f : α → AgentProgram β) :
    asAgent (p >>= f) = asAgent p >>= fun a => asAgent (f a) :=
  Program.lift_bind ⟨fun _ _ => rfl, fun _ => rfl, fun _ _ _ => rfl⟩ p f

theorem asAgent_pure {α : Type} (a : α) : asAgent (pure a) = pure a :=
  Program.lift_pure ⟨fun _ _ => rfl, fun _ => rfl, fun _ _ _ => rfl⟩ a

/-- Without an authorization, a finding is confirmed as if there were no live probing. -/
theorem confirmFinding_none (live : LiveProbing) (finding : ProbableFinding) (guard : ScopeGuard) :
    confirmFinding rt input deps finding none guard =
      asAgent (Confirm.confirmFinding rt.toRuntime input deps finding live none guard) := by
  unfold confirmFinding Confirm.confirmFinding
  split
  · rw [asAgent_bind]
    rfl
  · cases structuralConfirmationGate finding input.appMap with
    | some reason =>
      dsimp only
      rw [asAgent_bind]
      rfl
    | none =>
      dsimp only
      rw [asAgent_bind]
      refine congrArg _ (funext fun staticOutcome => ?_)
      -- there is no attempt on either side
      show (asAgent (settle rt.toRuntime input deps finding staticOutcome none) >>= fun verdict =>
        return (verdict, guard)) = asAgent (settle rt.toRuntime input deps finding staticOutcome none >>= fun verdict =>
          return (verdict, guard))
      rw [asAgent_bind]
      rfl

/-- And so is a batch. -/
theorem confirmEach_none (live : LiveProbing) (findings : List ProbableFinding) (guard : ScopeGuard) :
    confirmEach rt input deps none findings guard =
      asAgent (Confirm.confirmEach rt.toRuntime input deps live none findings guard) := by
  induction findings generalizing guard with
  | nil => exact (asAgent_pure _).symm
  | cons finding findings ih =>
    rw [confirmEach, Confirm.confirmEach, asAgent_bind, confirmFinding_none live]
    refine congrArg _ (funext fun _ => ?_)
    rw [asAgent_bind]
    refine congrArg _ (funext fun result => ?_)
    rw [asAgent_bind, ← ih]
    rfl

/-- Where nobody allows live probing or the policy disables it, the batch with live probing is the one without: it
contacts nothing, and what holds of the one holds of the other. -/
theorem confirmFindings_eq_asAgent (live : LiveProbing)
    (hoff : (input.allowLive && input.config.dast.enabled) = false) :
    confirmFindings rt input deps = asAgent (Confirm.confirmFindings rt.toRuntime input deps live) := by
  have hleft : authorizeLive rt input deps = pure none := by
    unfold authorizeLive
    rw [if_pos hoff]
  have hright : Confirm.authorizeLive rt.toRuntime input deps live = pure none := by
    unfold Confirm.authorizeLive
    rw [if_pos hoff]
  rw [confirmFindings, Confirm.confirmFindings, hleft, hright]
  show (confirmEach rt input deps none (byRank input) {} >>= fun verdicts => return layer3Output verdicts) =
    asAgent (Confirm.confirmEach rt.toRuntime input deps live none (byRank input) {} >>= fun verdicts =>
      return layer3Output verdicts)
  rw [confirmEach_none live, asAgent_bind]
  rfl

/-! ## A page that reflects -/

/-- A parser of URLs that cuts the query off. -/
private def beforeQuery : UrlParser := fun s => plainUrl (String.ofList (s.toList.takeWhile (· ≠ '?')))

private def pageRuntime : LiveRuntime where
  toLowerCase := lower
  parseJson _ := none
  parseUrl := beforeQuery
  parsePayloadUrl _ := none

/-- One finding, on a page of the staging host. -/
private def reflectingPage : ConfirmInput :=
  { clientId := "acme", scanId := "scan", allowLive := true, stagingUrl := some "https://staging.shop.test"
    appMap :=
      { id := "map", clientId := "acme", repo := "shop", branch := "main", commitSha := "0123456", routes := []
        taintSources := [], taintSinks := [], createdAt := 0 }
    config := stagingConfig
    probable := [{ demoProbable with id := "page", category := .xss, rank := 1 }] }

private def probingDeps : ConfirmDeps := { now := fun _ => 0 }

/-- The egress of the staging host, and its policy. -/
private def stagingEgress : Egress.EgressConfig :=
  { provider := some .bedrock, dastAllowlist := stagingConfig.dast.allowlist }

private def stagingPolicy : Egress.EgressPolicy where
  entries :=
    [{ host := ".amazonaws.com", source := .providerDefault, suffix := true },
      { host := "staging.shop.test", source := .dastTarget, suffix := false }]
  warnings := [Egress.defaultWarning .bedrock ".amazonaws.com"]

/-- The page comes back with the script in it. -/
private def reflecting : (op : LiveOp) → ProbeMemory → LiveOp.Ans op × ProbeMemory
  | .agent (.auditAppend _), m => (.ok (), m)
  | .agent (.resolvePrompt _), m => (.ok none, m)
  | .agent (.complete _), m => (.error (.abort "offline"), m)
  | .agent (.stream _), m => (.error (.abort "offline"), m)
  | .agent (.tool _), m => (.ok "", m)
  | .agent (.runTest ..), m => (.error (.abort "offline"), m)
  | .probe .buildEgressGuard, m =>
    (.ok (Egress.assertEgressAllowed Egress.plainHostname stagingPolicy), m)
  | .probe (.sleep _), m => (.ok (), m)
  | .probe (.send _), m => (.ok { status := 200, body := "<p><script>montrXSSpage</script></p>" }, m)
  | .login _, m => (.error (.abort "no browser"), m)
  | .loadBrowser, m => (.ok (), m)
  | .loadTransport, m => (.ok (), m)

private def awake : ProbeMemory where
  now := 0
  aborted := none

/-- It is the policy that the guard is created with. -/
private theorem createEgressGuard_staging :
    Egress.createEgressGuard Egress.plainHostname stagingEgress { includeDastTargets := true } =
      .ok (Egress.assertEgressAllowed Egress.plainHostname stagingPolicy) := by
  have hpolicy : (Egress.assertStartupEgress Egress.plainHostname stagingEgress
      { includeDastTargets := true }).toOption = some stagingPolicy := by decide +kernel
  unfold Egress.createEgressGuard
  cases h : Egress.assertStartupEgress Egress.plainHostname stagingEgress { includeDastTargets := true } with
  | error e =>
    rw [h] at hpolicy
    cases hpolicy
  | ok policy =>
    rw [h] at hpolicy
    obtain rfl := Option.some.inj hpolicy
    rfl

/-- What the batch does, with its one finding in order. -/
private def confirmPage : LiveProgram Layer3Output := do
  let authorized ← authorizeLive pageRuntime reflectingPage probingDeps
  let verdicts ← confirmEach pageRuntime reflectingPage probingDeps authorized reflectingPage.probable {}
  return layer3Output verdicts

private theorem confirmPage_eq : confirmFindings pageRuntime reflectingPage probingDeps = confirmPage := by
  have hranked : byRank reflectingPage = reflectingPage.probable := List.mergeSort_singleton _
  rw [confirmFindings, hranked, confirmPage]

/-- The URL of a request that was sent. -/
private def sentTo : LiveAwait → Option String
  | ⟨_, .probe (.send req), _⟩ => some req.url
  | _ => none

/-- The batch sends one request, and confirms the page live. -/
private theorem ran_confirmPage : ∃ tr m₀ m out,
    (confirmFindings pageRuntime reflectingPage probingDeps).Ran tr m₀ (.ret m out) ∧
      out.confirmed.map (fun f => (f.id, f.proofType, f.category)) = [("cf_live_page", .live, .xss)] ∧
      tr.filterMap sentTo = ["https://staging.shop.test/?q=%3Cscript%3EmontrXSSpage%3C%2Fscript%3E"] ∧
      ∀ x ∈ tr, x.answer = (reflecting x.op x.mem).1 := by
  have hrun : (((confirmPage awake).replay reflecting 8 [] awake).2.2.ended?.bind fun r => r.2.toOption).map
      (fun out => (out.confirmed.map (fun f => (f.id, f.proofType, f.category)),
        ((confirmPage awake).replay reflecting 8 [] awake).1.filterMap sentTo)) =
          some ([("cf_live_page", .live, .xss)],
            ["https://staging.shop.test/?q=%3Cscript%3EmontrXSSpage%3C%2Fscript%3E"]) := by
    decide +kernel
  have hran : confirmPage.Ran ((confirmPage awake).replay reflecting 8 [] awake).1 _ _ :=
    (Program.Ran.start awake).replay
  have hanswers : ∀ x ∈ ((confirmPage awake).replay reflecting 8 [] awake).1, x.answer = (reflecting x.op x.mem).1 :=
    fun x hx => (Outcome.answer_of_mem_replay hx).resolve_left List.not_mem_nil
  generalize (confirmPage awake).replay reflecting 8 [] awake = run at hrun hran hanswers
  obtain ⟨out, hended, hout⟩ := Option.map_eq_some_iff.mp hrun
  obtain ⟨hconfirmed, hsent⟩ := Prod.ext_iff.mp hout
  generalize run.2.2 = o at hran hended
  rw [← confirmPage_eq] at hran
  cases o with
  | ret m out' =>
    obtain rfl := Option.some.inj hended
    exact ⟨_, _, m, out', hran, hconfirmed, hsent, hanswers⟩
  | throw m e => cases hended
  | await m op k => cases hended

/-- What the batch sends goes to the staging host. -/
theorem permitted_of_send_page : ∃ tr m₀ m req k,
    (confirmFindings pageRuntime reflectingPage probingDeps).Ran tr m₀ (.await m (.probe (.send req)) k) ∧
      req.url = "https://staging.shop.test/?q=%3Cscript%3EmontrXSSpage%3C%2Fscript%3E" ∧
      ∃ host, Egress.normalizeHost Egress.plainHostname req.url = .ok host ∧
        Egress.Permitted Egress.plainHostname stagingEgress { includeDastTargets := true } host := by
  obtain ⟨tr, m₀, m, out, hran, -, hsent, hanswers⟩ := ran_confirmPage
  obtain ⟨⟨m', op, r⟩, hx, hurl⟩ := List.mem_filterMap.mp (hsent ▸ List.mem_singleton_self _)
  obtain ⟨tr', m₀', k, hsince, hissued⟩ := hran.issued_of_mem hx
  cases op with
  | probe op =>
    cases op with
    | send req =>
      refine ⟨tr', m₀', m', req, k, hissued, Option.some.inj hurl,
        permitted_of_send rfl (fun m egressGuard hmem => ?_) hissued⟩
      obtain rfl := Except.ok.inj (hanswers _ (hsince.subset hmem))
      exact createEgressGuard_staging
    | sleep ms => cases hurl
    | buildEgressGuard => cases hurl
  | agent op => cases hurl
  | login url => cases hurl
  | loadBrowser => cases hurl
  | loadTransport => cases hurl

/-- The request for the page is gated. -/
theorem mayContact_of_await_page : ∃ tr m₀ m req k,
    (confirmFindings pageRuntime reflectingPage probingDeps).Ran tr m₀ (.await m (.probe (.send req)) k) ∧
      req.url = "https://staging.shop.test/?q=%3Cscript%3EmontrXSSpage%3C%2Fscript%3E" ∧
      MayContact pageRuntime reflectingPage probingDeps tr m (.probe (.send req)) := by
  obtain ⟨tr, m₀, m, out, hran, -, hsent, -⟩ := ran_confirmPage
  obtain ⟨⟨m', op, r⟩, hx, hurl⟩ := List.mem_filterMap.mp (hsent ▸ List.mem_singleton_self _)
  obtain ⟨tr', m₀', k, -, hissued⟩ := hran.issued_of_mem hx
  cases op with
  | probe op =>
    cases op with
    | send req => exact ⟨tr', m₀', m', req, k, hissued, Option.some.inj hurl, mayContact_of_await hissued⟩
    | sleep ms => cases hurl
    | buildEgressGuard => cases hurl
  | agent op => cases hurl
  | login url => cases hurl
  | loadBrowser => cases hurl
  | loadTransport => cases hurl

/-- What is confirmed live there needs no posted body. -/
theorem not_posted_of_live_page : ∃ tr m₀ m out f,
    (confirmFindings pageRuntime reflectingPage probingDeps).Ran tr m₀ (.ret m out) ∧ f ∈ out.confirmed ∧
      f.proofType = .live ∧ f.category = .xss ∧ f.category ∉ postedCategories := by
  obtain ⟨tr, m₀, m, out, hran, hconfirmed, -, -⟩ := ran_confirmPage
  obtain ⟨f, rest, hout⟩ : ∃ f rest, out.confirmed = f :: rest := by
    cases hlist : out.confirmed with
    | nil =>
      rw [hlist] at hconfirmed
      cases hconfirmed
    | cons f rest => exact ⟨f, rest, rfl⟩
  rw [hout, List.map_cons] at hconfirmed
  obtain ⟨-, hlive, hcategory⟩ : f.id = "cf_live_page" ∧ f.proofType = .live ∧ f.category = .xss := by
    simpa using (List.cons_eq_cons.mp hconfirmed).1
  have hf : f ∈ out.confirmed := hout ▸ List.mem_cons_self
  exact ⟨tr, m₀, m, out, f, hran, hf, hlive, hcategory, not_posted_of_live rfl hran hf hlive⟩

/-- Nothing is probed for the same batch while live probing is off. -/
theorem confirmFindings_eq_asAgent_off :
    confirmFindings pageRuntime { reflectingPage with allowLive := false } probingDeps =
      asAgent (Confirm.confirmFindings pageRuntime.toRuntime { reflectingPage with allowLive := false } probingDeps
        { buildDefaultEgressGuard := Program.throw (.abort "")
          confirmLive := fun _ _ _ guard => return ({ confirmed := false }, guard) }) :=
  confirmFindings_eq_asAgent _ rfl

end MontrSecure.Confirm.Live
