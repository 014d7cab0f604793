import MontrSecure.Confirm.LiveGate

/-!
# The transcript of a finding

The probes of one finding, the fixed ones and those of the adaptive rounds: each of them is vetted, there are at most
five, and what they have collected is what was answered since the first. A live proof is made of that.
-/

namespace MontrSecure.Confirm.Live

open Async

variable (rt : LiveRuntime) (input : ConfirmInput) (deps : ConfirmDeps) (finding : ProbableFinding)
  (target : String) (session : Option AuthenticatedSession)

/-- The context of the adaptive probes. -/
def adaptiveCtx : VariantBuildCtx :=
  buildCtx input.appMap finding (findRoute finding input.appMap) target session (markerOf "montrAdapt" finding)

/-- A probe that may be sent for the finding: it is crafted for it, or a variant for its category, or it carries a
payload that the safety checks accept. -/
inductive Vetted : Probe → Prop where
  | crafted {probe : Probe}
      (h : probe ∈ craftProbes input.appMap finding (findRoute finding input.appMap) target session) : Vetted probe
  | variant {v : PayloadVariant} (h : v ∈ payloadVariants finding.category) :
      Vetted (v.build (adaptiveCtx input finding target session))
  | composed {payload : String} (hcategory : isComposableLiveCategory finding.category = true)
      (hsafe : (evaluateComposedPayloadSafety rt.parsePayloadUrl finding.category payload
        (some (adaptiveCtx input finding target session).marker)).safe = true) :
      Vetted (buildComposedProbe finding.category (adaptiveCtx input finding target session) payload)

/-- A collected response, as it was exchanged. -/
def Collected.exchange (c : Collected) : LiveHttpRequest × LiveHttpResponse := (c.probe.request, c.response)

/-- What the probes of a finding have come to is what was exchanged between two traces, and at most `n` of them were
sent. -/
structure Tracked (egressGuard : EgressGuard) (tr₀ : LiveTrace) (n : ℕ) (tr : LiveTrace) (progress : ProbeProgress) :
    Prop where
  since : tr₀ <:+ tr
  counts : progress.guard.Counts (probeTrace tr)
  known : EgressKnown deps.egressGuard (probeTrace tr) egressGuard
  few : sends tr ≤ sends tr₀ + n
  vetted : ∀ c ∈ progress.collected, Vetted rt input finding target session c.probe
  transcript : exchanged tr = (progress.collected.map Collected.exchange).reverse ++ exchanged tr₀
  exchanges : progress.exchanges = progress.collected.map fun c => probeExchange c.probe c.response

/-- A live proof of the finding: the oracle accepts what was exchanged between two traces, and that is what the proof
shows. -/
structure LiveProof (tr₀ tr : LiveTrace) (collected : List Collected) (f : ConfirmedFinding) : Prop where
  since : tr₀ <:+ tr
  vetted : ∀ c ∈ collected, Vetted rt input finding target session c.probe
  transcript : exchanged tr = (collected.map Collected.exchange).reverse ++ exchanged tr₀
  accepted : (oracle rt.toLowerCase finding.category collected).success = true
  proof : f = assembled deps finding (findRoute finding input.appMap)
    (some (paramFor input.appMap finding ((categoryDefaultParam finding.category).getD "q")))
    (.live target (collected.map fun c => probeExchange c.probe c.response)) .live

/-- What a live attempt leaves: it has sent at most five requests, its guard still counts, and what it confirms it
proves. -/
structure Attempted (tr₀ tr : LiveTrace) (result : LiveConfirmOutcome × ScopeGuard) : Prop where
  since : tr₀ <:+ tr
  counts : result.2.Counts (probeTrace tr)
  few : sends tr ≤ sends tr₀ + 5
  proven : result.1.confirmed = true → ∀ f, result.1.finding = some f →
    ∃ session collected, LiveProof rt input deps finding target session tr₀ tr collected f

variable {rt input deps finding target session} {egressGuard : EgressGuard} {tr₀ tr tr' : LiveTrace} {n n' : ℕ}
  {progress : ProbeProgress} {guard : ScopeGuard} {probe : Probe} {m₀ m : ProbeMemory}

/-! ## What is chosen -/

/-- A chosen variant is one of those that were offered. -/
theorem vetted_of_find? {remaining : List PayloadVariant} {id : String} {v : PayloadVariant}
    (hoffered : ∀ v ∈ remaining, v ∈ payloadVariants finding.category) (h : remaining.find? (·.id = id) = some v) :
    Vetted rt input finding target session (v.build (adaptiveCtx input finding target session)) :=
  .variant (hoffered v (List.mem_of_find?_eq_some h))

open Program

theorem returns_chooseNextVariant {remaining : List PayloadVariant}
    (hoffered : ∀ v ∈ remaining, v ∈ payloadVariants finding.category) :
    Returns (fun _ _ => True) (chooseNextVariant rt finding (adaptiveCtx input finding target session) remaining)
      fun choice => ∀ action, choice = .action action → Vetted rt input finding target session action.probe := by
  unfold chooseNextVariant
  refine Returns.after fun reply => ?_
  split
  · exact Returns.pure fun _ h => nomatch h
  · split
    · rename_i v hfind
      refine Returns.pure fun action h => ?_
      obtain rfl := AdaptiveChoice.action.inj h
      exact vetted_of_find? hoffered hfind
    · exact Returns.pure fun _ h => nomatch h

/-- A composed payload is used only when the safety checks accept it. -/
theorem returns_chooseAdaptiveActionWithComposition {remaining : List PayloadVariant}
    (hcategory : isComposableLiveCategory finding.category = true)
    (hoffered : ∀ v ∈ remaining, v ∈ payloadVariants finding.category) :
    Returns (fun _ _ => True)
      (chooseAdaptiveActionWithComposition rt finding (adaptiveCtx input finding target session) remaining)
      fun choice => ∀ action, choice = .action action → Vetted rt input finding target session action.probe := by
  unfold chooseAdaptiveActionWithComposition
  refine Returns.after fun reply => ?_
  dsimp only
  split
  · rename_i payload hcomposed
    refine Returns.pure fun action h => ?_
    obtain rfl := AdaptiveChoice.action.inj h
    exact .composed hcategory (Option.filter_eq_some_iff.mp hcomposed).2
  · split
    · rename_i v hchosen
      refine Returns.pure fun action h => ?_
      obtain rfl := AdaptiveChoice.action.inj h
      obtain ⟨id, -, hfind⟩ := Option.bind_eq_some_iff.mp hchosen
      exact vetted_of_find? hoffered hfind
    · exact Returns.pure fun _ h => nomatch h

/-! ## The probes, one after the other -/

namespace Tracked

theorem mono (h : Tracked rt input deps finding target session egressGuard tr₀ n tr progress) (hn : n ≤ n') :
    Tracked rt input deps finding target session egressGuard tr₀ n' tr progress :=
  { h with few := h.few.trans (Nat.add_le_add_left hn _) }

/-- Nothing changes while nothing is sent. -/
theorem idle (h : Tracked rt input deps finding target session egressGuard tr₀ n tr progress) (hidle : Idle tr tr') :
    Tracked rt input deps finding target session egressGuard tr₀ n tr' progress where
  since := h.since.trans hidle.suffix
  counts := counts_of_idle hidle h.counts rfl rfl
  known := known_of_suffix hidle.suffix h.known
  few := hidle.sends_eq ▸ h.few
  vetted := h.vetted
  transcript := hidle.exchanged_eq.trans h.transcript
  exchanges := h.exchanges

/-- A probe that was not answered leaves the transcript. -/
theorem unanswered {result : ProbeResult}
    (h : Tracked rt input deps finding target session egressGuard tr₀ n tr progress)
    (hsent : Sent probe tr tr' (result, guard)) (hresult : result.exchange probe = []) :
    Tracked rt input deps finding target session egressGuard tr₀ (n + 1) tr' { progress with guard } where
  since := h.since.trans hsent.since
  counts := hsent.counts
  known := known_of_suffix hsent.since h.known
  few := hsent.once.trans (Nat.add_le_add_right h.few 1)
  vetted := h.vetted
  transcript := by rw [hsent.answered, hresult, List.nil_append, h.transcript]
  exchanges := h.exchanges

/-- A probe that was answered comes last in it. -/
theorem answered {response : LiveHttpResponse}
    (h : Tracked rt input deps finding target session egressGuard tr₀ n tr progress)
    (hsent : Sent probe tr tr' (.answered response, guard)) (hvetted : Vetted rt input finding target session probe) :
    Tracked rt input deps finding target session egressGuard tr₀ (n + 1) tr'
      ({ progress with guard }.add probe response) where
  since := h.since.trans hsent.since
  counts := hsent.counts
  known := known_of_suffix hsent.since h.known
  few := hsent.once.trans (Nat.add_le_add_right h.few 1)
  vetted c hc := by
    obtain hc | hc := List.mem_append.mp hc
    · exact h.vetted c hc
    · exact List.mem_singleton.mp hc ▸ hvetted
  transcript := by
    rw [hsent.answered, h.transcript]
    simp [ProbeProgress.add, ProbeResult.exchange, Collected.exchange]
  exchanges := by
    show progress.exchanges ++ [probeExchange probe response] = (progress.collected ++ [_]).map _
    rw [h.exchanges, List.map_append]
    rfl

end Tracked

section Loops

variable {kind : LiveTrace → LiveHttpRequest → Prop} {mayLogin : LiveTrace → String → Prop}
  (hkind : ∀ tr probe, Vetted rt input finding target session probe → tr₀ <:+ tr → sends tr < sends tr₀ + 5 →
    kind tr probe.request)

include hkind

/-- A vetted probe is sent within what is left. -/
theorem probe_follows {summary : String} {metadata : JsRecord} (hn : n < 5)
    (h : Tracked rt input deps finding target session egressGuard tr₀ n tr progress)
    (hvetted : Vetted rt input finding target session probe) :
    (sendProbe rt input deps egressGuard finding probe summary metadata progress.guard m).Follows
      (liveProtocol rt.parseUrl input.config deps.egressGuard kind mayLogin)
      (fun tr' _ _ result => Sent probe tr tr' result) (fun _ _ _ _ => True) tr m₀ := by
  refine sendProbe_follows h.counts h.known fun tr' hidle => hkind tr' probe hvetted (h.since.trans hidle.suffix) ?_
  rw [hidle.sends_eq]
  exact lt_of_le_of_lt h.few (Nat.add_lt_add_left hn _)

/-- The fixed probes. -/
theorem fixedProbes_follows {probes : List Probe} (hn : n + probes.length ≤ 5)
    (h : Tracked rt input deps finding target session egressGuard tr₀ n tr progress)
    (hvetted : ∀ probe ∈ probes, Vetted rt input finding target session probe) :
    (fixedProbes rt input deps egressGuard finding probes progress m).Follows
      (liveProtocol rt.parseUrl input.config deps.egressGuard kind mayLogin)
      (fun tr' _ _ result =>
        Tracked rt input deps finding target session egressGuard tr₀ (n + probes.length) tr' result.2)
      (fun _ _ _ _ => True) tr m₀ := by
  induction probes generalizing n tr m₀ m progress with
  | nil => exact h
  | cons probe probes ih =>
    have hlength : n + (probe :: probes).length = n + 1 + probes.length := by
      rw [List.length_cons, Nat.add_comm probes.length, Nat.add_assoc]
    rw [hlength] at hn ⊢
    have hrest : ∀ probe ∈ probes, Vetted rt input finding target session probe :=
      fun p hp => hvetted p (List.mem_cons_of_mem _ hp)
    have hone : n < 5 := by omega
    simp only [fixedProbes]
    rw [Program.bind_apply, Outcome.follows_bind]
    refine (probe_follows hkind hone h (hvetted probe List.mem_cons_self)).mono (fun tr' m₀' m' result hsent => ?_)
      fun _ _ _ _ _ => trivial
    obtain ⟨result, guard⟩ := result
    cases result with
    | blocked e => exact (h.unanswered hsent rfl).mono (Nat.le_add_right _ _)
    | failed => exact ih hn (h.unanswered hsent rfl) hrest
    | answered response => exact ih hn (h.answered hsent (hvetted probe List.mem_cons_self)) hrest

/-- The adaptive rounds. -/
theorem adaptiveRounds_follows {left round : ℕ} {tried : List String} (hn : n + left ≤ 5)
    (h : Tracked rt input deps finding target session egressGuard tr₀ n tr progress) :
    (adaptiveRounds rt input deps egressGuard finding (adaptiveCtx input finding target session)
        (payloadVariants finding.category) left round tried progress m).Follows
      (liveProtocol rt.parseUrl input.config deps.egressGuard kind mayLogin)
      (fun tr' _ _ progress' => Tracked rt input deps finding target session egressGuard tr₀ (n + left) tr' progress')
      (fun _ _ _ _ => True) tr m₀ := by
  induction left generalizing n round tried tr m₀ m progress with
  | zero => exact h
  | succ left ih =>
    have hmore : n + (left + 1) = n + 1 + left := by omega
    rw [hmore] at hn ⊢
    have hone : n < 5 := by omega
    have hstays : n ≤ n + 1 + left := by omega
    simp only [adaptiveRounds]
    rw [Program.bind_apply, Program.get_apply, Outcome.bind]
    refine Outcome.follows_ofExcept_bind (fun _ _ => ?_) fun _ _ => trivial
    rw [Program.ite_apply]
    split
    · exact h.mono hstays
    have hoffered : ∀ v ∈ (payloadVariants finding.category).filter fun v => v.id ∉ tried,
        v ∈ payloadVariants finding.category := fun v hv => List.mem_of_mem_filter hv
    have hchosen : Returns (fun _ _ => True)
        (if isComposableLiveCategory finding.category = true then
          chooseAdaptiveActionWithComposition rt finding (adaptiveCtx input finding target session)
            ((payloadVariants finding.category).filter fun v => v.id ∉ tried)
        else chooseNextVariant rt finding (adaptiveCtx input finding target session)
          ((payloadVariants finding.category).filter fun v => v.id ∉ tried))
        fun choice => ∀ action, choice = .action action → Vetted rt input finding target session action.probe := by
      split
      · exact returns_chooseAdaptiveActionWithComposition ‹_› hoffered
      · exact returns_chooseNextVariant hoffered
    refine Outcome.follows_attempt_bind ((asAgent_follows hchosen).mono (fun tr' m₀' m' choice hchoice => ?_)
      fun tr' m₀' m' e hidle => ?_)
    · obtain ⟨hvetted, hidle⟩ := hchoice
      have h' := h.idle hidle
      cases choice with
      | notOffered => exact h'.mono hstays
      | nothing =>
        dsimp only
        rw [Program.bind_apply, Program.get_apply, Outcome.bind]
        exact Outcome.follows_ofExcept_bind (fun _ _ => h'.mono hstays) fun _ _ => trivial
      | action action =>
        dsimp only
        rw [Program.bind_apply, Program.get_apply, Outcome.bind]
        refine Outcome.follows_ofExcept_bind (fun _ _ => ?_) fun _ _ => trivial
        rw [Program.bind_apply, Outcome.follows_bind]
        refine (probe_follows hkind hone h' (hvetted action rfl)).mono (fun tr'' m₀'' m'' result hsent => ?_)
          fun _ _ _ _ _ => trivial
        obtain ⟨result, guard⟩ := result
        cases result with
        | blocked e => exact (h'.unanswered hsent rfl).mono (Nat.le_add_right _ _)
        | failed => exact ih hn (h'.unanswered hsent rfl)
        | answered response =>
          have hlater := h'.answered hsent (hvetted action rfl)
          dsimp only
          rw [Program.ite_apply]
          split
          · exact hlater.mono (Nat.le_add_right _ _)
          · exact ih hn hlater
    · dsimp only
      rw [Program.ite_apply]
      split
      · trivial
      · exact (h.idle hidle).mono hstays

/-- The adaptive loop. -/
theorem runAdaptiveLoop_follows (hn : n + maxAdaptiveRounds ≤ 5)
    (h : Tracked rt input deps finding target session egressGuard tr₀ n tr progress) :
    (runAdaptiveLoop rt input deps egressGuard finding (adaptiveCtx input finding target session) progress m).Follows
      (liveProtocol rt.parseUrl input.config deps.egressGuard kind mayLogin)
      (fun tr' _ _ progress' =>
        Tracked rt input deps finding target session egressGuard tr₀ (n + maxAdaptiveRounds) tr' progress')
      (fun _ _ _ _ => True) tr m₀ := by
  unfold runAdaptiveLoop
  rw [Program.ite_apply]
  split
  · exact h.mono (Nat.le_add_right _ _)
  · exact adaptiveRounds_follows hkind hn h

omit hkind in
/-- What is concluded from the probes. -/
theorem conclude_follows (hn : n ≤ 5)
    (h : Tracked rt input deps finding target session egressGuard tr₀ n tr progress) :
    (conclude rt input deps finding (findRoute finding input.appMap) target progress m).Follows
      (liveProtocol rt.parseUrl input.config deps.egressGuard kind mayLogin)
      (fun tr' _ _ result => Attempted rt input deps finding target tr₀ tr' result) (fun _ _ _ _ => True) tr m₀ := by
  have hfew : sends tr ≤ sends tr₀ + 5 := (h.mono hn).few
  unfold conclude
  dsimp only
  rw [Program.ite_apply]
  split
  · rename_i haccepted
    refine Outcome.follows_ofExcept_bind (fun f hf => ?_) fun _ _ => trivial
    refine ⟨h.since, h.counts, hfew, fun _ f' hf' => ⟨session, progress.collected, ?_⟩⟩
    obtain rfl := Option.some.inj hf'
    refine ⟨h.since, h.vetted, h.transcript, haccepted, ?_⟩
    rw [← h.exchanges]
    exact eq_assembled hf
  · exact ⟨h.since, h.counts, hfew, fun hno => nomatch hno⟩

omit hkind in
/-- At most two probes are crafted. -/
theorem length_craftProbes_le (appMap : AppMap) (route : Option Route) :
    (craftProbes appMap finding route target session).length ≤ 2 := by
  unfold craftProbes craftFor
  dsimp only
  split
  case h_7 =>
    split
    · exact Nat.zero_le 2
    · exact le_rfl
  all_goals simp only [List.length_cons, List.length_nil, Nat.zero_add, Nat.reduceAdd, Nat.reduceLeDiff, le_refl]

/-- The probes that were crafted, and the adaptive ones. -/
theorem runProbes_follows (hidle : Idle tr₀ tr) (hcounts : guard.Counts (probeTrace tr₀))
    (hknown : EgressKnown deps.egressGuard (probeTrace tr₀) egressGuard) :
    (runProbes rt input deps egressGuard finding (findRoute finding input.appMap) target session
        (craftProbes input.appMap finding (findRoute finding input.appMap) target session) guard m).Follows
      (liveProtocol rt.parseUrl input.config deps.egressGuard kind mayLogin)
      (fun tr' _ _ result => Attempted rt input deps finding target tr₀ tr' result) (fun _ _ _ _ => True) tr m₀ := by
  have hlength : (craftProbes input.appMap finding (findRoute finding input.appMap) target session).length ≤ 2 :=
    length_craftProbes_le _ _
  have hstart : Tracked rt input deps finding target session egressGuard tr₀ 0 tr₀ { guard } :=
    { since := List.suffix_rfl, counts := hcounts, known := hknown, few := le_rfl, vetted := fun c hc => nomatch hc
      transcript := rfl, exchanges := rfl }
  unfold runProbes
  rw [Program.bind_apply, Outcome.follows_bind]
  refine (fixedProbes_follows hkind (by omega) (hstart.idle hidle) fun probe => .crafted).mono
    (fun tr' m₀' m' result h => ?_) fun _ _ _ _ _ => trivial
  have h := h.mono (Nat.add_le_add_left hlength 0)
  obtain ⟨stopped, progress⟩ := result
  cases stopped with
  | some e => exact ⟨h.since, h.counts, (h.mono (by decide)).few, fun hno => nomatch hno⟩
  | none =>
    dsimp only
    rw [Program.ite_apply]
    split
    · rw [Program.bind_apply, Outcome.follows_bind]
      refine (runAdaptiveLoop_follows hkind (by decide) h).mono (fun tr'' m₀'' m'' progress' h' => ?_)
        fun _ _ _ _ _ => trivial
      exact conclude_follows (by decide) h'
    · exact conclude_follows (by decide) h

/-- The probes of a finding, behind the login. -/
theorem probeFinding_follows (hcounts : guard.Counts (probeTrace tr₀))
    (hknown : EgressKnown deps.egressGuard (probeTrace tr₀) egressGuard) :
    (probeFinding rt input deps egressGuard finding (findRoute finding input.appMap) target session guard m).Follows
      (liveProtocol rt.parseUrl input.config deps.egressGuard kind mayLogin)
      (fun tr' _ _ result => Attempted rt input deps finding target tr₀ tr' result) (fun _ _ _ _ => True) tr₀ m₀ := by
  unfold probeFinding
  rw [Program.ite_apply]
  split
  · exact ⟨List.suffix_rfl, hcounts, Nat.le_add_right _ _, fun hno => nomatch hno⟩
  · rw [Program.bind_apply, Outcome.follows_bind]
    refine (loadUnless_follows (.inr rfl)).mono (fun tr' _ _ _ hidle => ?_) fun _ _ _ _ _ => trivial
    exact runProbes_follows hkind hidle hcounts hknown

end Loops

end MontrSecure.Confirm.Live
