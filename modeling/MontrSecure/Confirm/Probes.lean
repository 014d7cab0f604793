import MontrSecure.Confirm.Scenarios

/-!
# What a scenario sends

A run of a scenario asks for its requests one by one. Before it asks for one, the guard has accepted it
since the request before, with counters that count the answers so far, and the kill signal has not fired.
-/

namespace MontrSecure.Confirm

open Async

/-- What live probing has asked. -/
abbrev ProbeTrace : Type := Trace ProbeOp ProbeOp.Ans ProbeMemory

/-- The requests that were answered, latest first. -/
def answered : ProbeTrace → List LiveHttpRequest
  | [] => []
  | ⟨_, .send req, .ok _⟩ :: tr => req :: answered tr
  | _ :: tr => answered tr

/-- What was asked since the last request. -/
def sinceSend : ProbeTrace → ProbeTrace
  | [] => []
  | ⟨_, .send _, _⟩ :: _ => []
  | x :: tr => x :: sinceSend tr

/-- The counters of the guard count the answers. -/
def ScopeGuard.Counts (guard : ScopeGuard) (tr : ProbeTrace) : Prop :=
  guard.total = (answered tr).length ∧
    guard.mutating = (answered tr).countP fun req => isMutating req.method

/-- The egress guard is the one that was passed, or else the one that was built. -/
def EgressKnown (given : Option EgressGuard) (tr : ProbeTrace) (egressGuard : EgressGuard) : Prop :=
  given = some egressGuard ∨ given = none ∧ ∃ m, ⟨m, .buildEgressGuard, .ok egressGuard⟩ ∈ tr

section

variable (parseUrl : UrlParser) (config : LiveConfig) (given : Option EgressGuard)

/-- A request may be sent: the kill signal has not fired, and the guard has accepted the request since the
one before. -/
structure Sendable (tr : ProbeTrace) (m : ProbeMemory) (req : LiveHttpRequest) : Prop where
  notKilled : m.aborted = none
  accepted : ∃ (guard : ScopeGuard) (egressGuard : EgressGuard) (m₁ : ProbeMemory),
    (m₁ = m ∨ ∃ x ∈ sinceSend tr, x.mem = m₁) ∧ guard.Counts tr ∧ EgressKnown given tr egressGuard ∧
      guard.assertProbeAllowed parseUrl config egressGuard m₁ req.url req.method = .ok ()

/-- Only requests of a kind are sent, and only when they may be. -/
def sendProtocol (kind : LiveHttpRequest → Prop) : Protocol ProbeOp ProbeOp.Ans ProbeMemory where
  answers _ _ := True
  awaits tr _ m op :=
    match op with
    | .send req => kind req ∧ Sendable parseUrl config given tr m req
    | _ => True
  ends _ _ _ := True

end

variable {parseUrl : UrlParser} {config : LiveConfig} {given : Option EgressGuard}
  {kind : LiveHttpRequest → Prop} {tr : ProbeTrace} {m₀ m : ProbeMemory} {guard : ScopeGuard}
  {egressGuard : EgressGuard}

/-- What the guard has accepted was not killed. -/
theorem aborted_of_assertNotKilled (h : ScopeGuard.assertNotKilled m = .ok ()) : m.aborted = none := by
  unfold ScopeGuard.assertNotKilled at h
  split at h
  · assumption
  · cases h
  · cases h

/-- A later await leaves the egress guard known. -/
theorem EgressKnown.cons (h : EgressKnown given tr egressGuard) (x : Await ProbeOp ProbeOp.Ans ProbeMemory) :
    EgressKnown given (x :: tr) egressGuard := by
  obtain h | ⟨hnone, m, hmem⟩ := h
  · exact .inl h
  · exact .inr ⟨hnone, m, List.mem_cons_of_mem x hmem⟩

/-- Throttling counts nothing, and asks for nothing but to sleep. -/
theorem throttle_follows {P : Protocol ProbeOp ProbeOp.Ans ProbeMemory}
    (hsleep : ∀ ms, P.awaits tr m₀ m (.sleep ms)) :
    (guard.throttle config m).Follows P
      (fun tr' _ m' guard' => guard'.total = guard.total ∧ guard'.mutating = guard.mutating ∧
        (tr' = tr ∧ m' = m ∨ ∃ ms r, tr' = ⟨m, .sleep ms, r⟩ :: tr))
      (fun tr' _ _ _ => tr' = tr ∨ ∃ ms r, tr' = ⟨m, .sleep ms, r⟩ :: tr) tr m₀ := by
  have hstays : ∀ sendTimes : List ℕ, ({ guard with sendTimes } : ScopeGuard).total = guard.total ∧
      ({ guard with sendTimes } : ScopeGuard).mutating = guard.mutating := fun _ => ⟨rfl, rfl⟩
  unfold ScopeGuard.throttle
  simp only [Program.ite_apply]
  split
  · exact ⟨rfl, rfl, .inl ⟨rfl, rfl⟩⟩
  · simp only [Program.bind_apply, Program.get_apply, Outcome.bind, Program.ite_apply]
    split
    · split
      · refine Outcome.follows_ofExcept_bind (fun _ _ => ?_) fun _ _ => .inl rfl
        refine Outcome.follows_ask_bind (ProbeOp.sleep _) (hsleep _) (fun _ m₁ _ => ?_)
          fun _ _ _ => .inr ⟨_, _, rfl⟩
        refine Outcome.follows_ofExcept_bind (fun _ _ => ?_) fun _ _ => .inr ⟨_, _, rfl⟩
        exact ⟨rfl, rfl, .inr ⟨_, _, rfl⟩⟩
      · exact ⟨rfl, rfl, .inl ⟨rfl, rfl⟩⟩
    · exact ⟨rfl, rfl, .inl ⟨rfl, rfl⟩⟩

section Send

variable {req : LiveHttpRequest}

/-- A request that was answered is counted next. -/
theorem answered_send (m : ProbeMemory) (req : LiveHttpRequest) (response : LiveHttpResponse)
    (tr : ProbeTrace) : answered (⟨m, .send req, .ok response⟩ :: tr) = req :: answered tr := rfl

/-- Recording what was answered keeps the counters right. -/
theorem ScopeGuard.Counts.record {guard' : ScopeGuard} {tr' : ProbeTrace} (h : guard.Counts tr)
    (htotal : guard'.total = guard.total) (hmutating : guard'.mutating = guard.mutating)
    (hanswered : answered tr' = req :: answered tr) (m : ProbeMemory) :
    (guard'.record req.method m).Counts tr' := by
  obtain ⟨hlength, hcount⟩ := h
  constructor
  · rw [hanswered, List.length_cons, ← hlength, ← htotal]
    rfl
  · rw [hanswered, List.countP_cons, ← hcount, ← hmutating]
    rfl

/-- A request that the guard has accepted is sent at once, or after the guard has slept. -/
theorem sendStep_follows (hkind : kind req) (hcounts : guard.Counts tr)
    (hknown : EgressKnown given tr egressGuard)
    (haccepted : guard.assertProbeAllowed parseUrl config egressGuard m req.url req.method = .ok ()) :
    (sendStep config guard req m).Follows (sendProtocol parseUrl config given kind)
      (fun tr' _ _ sent => (∀ m, (sent.1.record req.method m).Counts tr') ∧
        EgressKnown given tr' egressGuard)
      (fun _ _ _ _ => True) tr m₀ := by
  unfold sendStep
  rw [Program.bind_apply, Outcome.follows_bind]
  refine (throttle_follows fun _ => trivial).mono (fun tr' m₀' m' guard' hthrottled => ?_)
    fun _ _ _ _ _ => trivial
  obtain ⟨htotal, hmutating, hawaits⟩ := hthrottled
  rw [Program.bind_apply, Program.get_apply, Outcome.bind]
  refine Outcome.follows_ofExcept_bind (fun _ halive => ?_) fun _ _ => trivial
  have hsend : Sendable parseUrl config given tr' m' req := by
    refine ⟨aborted_of_assertNotKilled halive, ?_⟩
    obtain ⟨rfl, rfl⟩ | ⟨ms, r, rfl⟩ := hawaits
    · exact ⟨guard, egressGuard, m', .inl rfl, hcounts, hknown, haccepted⟩
    · -- the guard has slept since it accepted the request
      exact ⟨guard, egressGuard, m, .inr ⟨_, List.mem_cons_self, rfl⟩, hcounts, hknown.cons _, haccepted⟩
  refine Outcome.follows_ask_bind (ProbeOp.send req) ⟨hkind, hsend⟩ (fun response m₁ _ => ?_)
    fun _ _ _ => trivial
  have hanswered : answered (⟨m', .send req, .ok response⟩ :: tr') = req :: answered tr := by
    obtain ⟨rfl, -⟩ | ⟨ms, r, rfl⟩ := hawaits <;> rfl
  have hknown' : EgressKnown given tr' egressGuard := by
    obtain ⟨rfl, -⟩ | ⟨ms, r, rfl⟩ := hawaits
    · exact hknown
    · exact hknown.cons _
  exact ⟨hcounts.record htotal hmutating hanswered, hknown'.cons _⟩

end Send

/-- The loop over the steps sends the requests of steps, and only through a transport. -/
theorem runSteps_follows {transport : Bool} {target : String} {steps : List RedTeamStep}
    {progress : ScenarioProgress}
    (hkind : transport = true → ∀ step ∈ steps, kind (stepRequest target step))
    (hcounts : progress.guard.Counts tr) (hknown : EgressKnown given tr egressGuard) :
    (runSteps parseUrl config egressGuard transport target steps progress m).Follows
      (sendProtocol parseUrl config given kind) (fun _ _ _ _ => True) (fun _ _ _ _ => True) tr m₀ := by
  induction steps generalizing tr m₀ m progress with
  | nil => trivial
  | cons step steps ih =>
    have hrest : transport = true → ∀ step ∈ steps, kind (stepRequest target step) :=
      fun htransport step hstep => hkind htransport step (List.mem_cons_of_mem _ hstep)
    simp only [runSteps, Program.bind_apply, Program.get_apply, Outcome.bind]
    cases haccepted : progress.guard.assertProbeAllowed parseUrl config egressGuard m
        (stepRequest target step).url (stepRequest target step).method with
    | error e =>
      show Outcome.Follows _ _ _ tr m₀ ((if isAbort e then _ else _ : ProbeProgram _) m)
      rw [Program.ite_apply]
      split <;> trivial
    | ok _ =>
      show Outcome.Follows _ _ _ tr m₀ ((if transport = false then _ else _ : ProbeProgram _) m)
      by_cases htransport : transport = false
      · rw [if_pos htransport]
        exact ih hrest hcounts hknown
      · rw [if_neg htransport]
        refine Outcome.follows_attempt_bind ?_
        have hsend := hkind (Bool.eq_true_of_not_eq_false htransport) step List.mem_cons_self
        refine (sendStep_follows hsend hcounts hknown haccepted).mono
          (fun tr' m₀' m' sent hsent => ?_) fun tr' m₀' m' e _ => ?_
        · obtain ⟨hcounts', hknown'⟩ := hsent
          exact ih hrest (hcounts' m') hknown'
        · show Outcome.Follows _ _ _ tr' m₀' ((if isAbort e then _ else _ : ProbeProgram _) m')
          rw [Program.ite_apply]
          split <;> trivial

/-- A run of a scenario sends the requests of its steps to the target it is authorized for. -/
theorem runScenario_follows {transport : Bool} {scenario : RedTeamScenario} {allowLive : Bool}
    {targetOverride : Option String}
    (hkind : ∀ target, assertScenarioAuthorized parseUrl config scenario allowLive targetOverride =
      .ok target → transport = true → ∀ step ∈ scenario.steps, kind (stepRequest target step)) :
    (runScenario parseUrl config given transport scenario allowLive targetOverride m).Follows
      (sendProtocol parseUrl config given kind) (fun _ _ _ _ => True) (fun _ _ _ _ => True) [] m := by
  have hsorted : ∀ target, assertScenarioAuthorized parseUrl config scenario allowLive targetOverride =
      .ok target → transport = true →
        ∀ step ∈ scenario.steps.insertionSort (fun a b => a.order ≤ b.order),
          kind (stepRequest target step) := by
    intro target htarget htransport step hstep
    exact hkind target htarget htransport step ((List.perm_insertionSort _ _).mem_iff.mp hstep)
  unfold runScenario
  cases htarget : assertScenarioAuthorized parseUrl config scenario allowLive targetOverride with
  | error e => cases given <;> trivial
  | ok target =>
    cases given with
    | some egressGuard =>
      show Outcome.Follows _ _ _ [] m ((runSteps _ _ egressGuard _ _ _ _ >>= _ : ProbeProgram _) m)
      rw [Program.bind_apply, Outcome.follows_bind]
      exact (runSteps_follows (hsorted target htarget) ⟨rfl, rfl⟩ (.inl rfl)).mono
        (fun _ _ _ _ _ => trivial) fun _ _ _ _ _ => trivial
    | none =>
      refine Outcome.follows_ask_bind ProbeOp.buildEgressGuard trivial (fun egressGuard m₁ _ => ?_)
        fun _ _ _ => trivial
      show Outcome.Follows _ _ _ _ m₁ ((runSteps _ _ egressGuard _ _ _ _ >>= _ : ProbeProgram _) m₁)
      rw [Program.bind_apply, Outcome.follows_bind]
      exact (runSteps_follows (hsorted target htarget) ⟨rfl, rfl⟩
        (.inr ⟨rfl, m, List.mem_cons_self⟩)).mono (fun _ _ _ _ _ => trivial) fun _ _ _ _ _ => trivial

/-- A live run is authorized for the target it was asked for. -/
theorem assertLiveAuthorized_eq_ok {allowLive : Bool} {url target : String}
    (h : assertLiveAuthorized parseUrl config allowLive (some url) = .ok target) : target = url := by
  unfold assertLiveAuthorized at h
  split at h
  · cases h
  · split at h
    · cases h
    · split at h
      · cases h
      · cases h
      · rename_i hurl
        split at h
        · cases h
        · split at h
          · cases h
          · split at h
            · cases h
            · cases h
              exact (Option.some.inj hurl).symm

/-- Without an override a scenario is run against its own target. -/
theorem target_of_assertScenarioAuthorized {scenario : RedTeamScenario} {allowLive : Bool}
    {target : String}
    (h : assertScenarioAuthorized parseUrl config scenario allowLive none = .ok target) :
    target = scenario.targetAllowlistRef := assertLiveAuthorized_eq_ok h

end MontrSecure.Confirm
