import MontrSecure.Confirm.LiveConfirm
import MontrSecure.Confirm.Probes

/-!
# What live confirmation sends

Confirmation asks the model, the audit log and the target in turn. What it sends to the target is held to a
protocol: every request is one that may be sent at all, the guard has accepted it since the request before, and
the guard counts what has been answered. The probes of one finding keep a transcript besides: what they have
collected is what was answered since they began.
-/

namespace MontrSecure.Confirm.Live

open Async

/-! ## What was sent -/

/-- An await of confirmation. -/
abbrev LiveAwait : Type := Await LiveOp LiveOp.Ans ProbeMemory

/-- What confirmation has awaited. -/
abbrev LiveTrace : Type := Trace LiveOp LiveOp.Ans ProbeMemory

/-- An await of a guard. -/
def probeAwait : LiveAwait → Option (Await ProbeOp ProbeOp.Ans ProbeMemory)
  | ⟨m, .probe op, r⟩ => some ⟨m, op, r⟩
  | _ => none

/-- What the guards have awaited. -/
def probeTrace (tr : LiveTrace) : ProbeTrace := tr.filterMap probeAwait

/-- A request that was answered, with its response. -/
def exchange : LiveAwait → Option (LiveHttpRequest × LiveHttpResponse)
  | ⟨_, .probe (.send req), .ok response⟩ => some (req, response)
  | _ => none

/-- The requests that were answered, latest first, with their responses. -/
def exchanged (tr : LiveTrace) : List (LiveHttpRequest × LiveHttpResponse) := tr.filterMap exchange

/-- The operation sends a request. -/
def LiveOp.isSend : LiveOp → Bool
  | probe (.send _) => true
  | _ => false

/-- How many requests were sent. -/
def sends (tr : LiveTrace) : ℕ := tr.countP (·.op.isSend)

/-- Nothing was sent since the first trace. -/
def Idle (tr tr' : LiveTrace) : Prop := ∃ done, tr' = done ++ tr ∧ ∀ x ∈ done, x.op.isSend = false

variable {tr tr' tr'' tr₀ : LiveTrace} {m₀ m : ProbeMemory} {x : LiveAwait}

/-- What is no request was not answered as one. -/
theorem exchange_eq_none (h : x.op.isSend = false) : exchange x = none := by
  obtain ⟨m, op, r⟩ := x
  cases op with
  | probe op =>
    cases op with
    | send req => cases h
    | sleep ms => rfl
    | buildEgressGuard => rfl
  | agent op => rfl
  | login url => rfl
  | loadBrowser => rfl
  | loadTransport => rfl

/-- The guards await the requests that were answered. -/
theorem answered_probeTrace (tr : LiveTrace) : answered (probeTrace tr) = (exchanged tr).map (·.1) := by
  induction tr with
  | nil => rfl
  | cons x tr ih =>
    obtain ⟨m, op, r⟩ := x
    cases op with
    | probe op =>
      cases op with
      | send req =>
        cases r with
        | ok response => exact congrArg (List.cons _) ih
        | error e => exact ih
      | sleep ms => exact ih
      | buildEgressGuard => exact ih
    | agent op => exact ih
    | login url => exact ih
    | loadBrowser => exact ih
    | loadTransport => exact ih

theorem sends_cons_le (x : LiveAwait) (tr : LiveTrace) : sends (x :: tr) ≤ sends tr + 1 := by
  rw [sends, List.countP_cons]
  split
  · exact le_rfl
  · exact Nat.le_succ _

namespace Idle

theorem refl (tr : LiveTrace) : Idle tr tr := ⟨[], rfl, fun _ hx => nomatch hx⟩

theorem trans (h : Idle tr tr') (h' : Idle tr' tr'') : Idle tr tr'' := by
  obtain ⟨done, rfl, hdone⟩ := h
  obtain ⟨done', rfl, hdone'⟩ := h'
  refine ⟨done' ++ done, (List.append_assoc _ _ _).symm, fun x hx => ?_⟩
  exact (List.mem_append.mp hx).elim (hdone' x) (hdone x)

/-- One await that sends nothing. -/
theorem cons (x : LiveAwait) (hx : x.op.isSend = false) (tr : LiveTrace) : Idle tr (x :: tr) :=
  ⟨[x], rfl, fun _ hy => List.mem_singleton.mp hy ▸ hx⟩

theorem exchanged_eq (h : Idle tr tr') : exchanged tr' = exchanged tr := by
  obtain ⟨done, rfl, hdone⟩ := h
  rw [exchanged, List.filterMap_append, List.filterMap_eq_nil_iff.mpr fun x hx => exchange_eq_none (hdone x hx)]
  rfl

theorem sends_eq (h : Idle tr tr') : sends tr' = sends tr := by
  obtain ⟨done, rfl, hdone⟩ := h
  have hzero : done.countP (·.op.isSend) = 0 :=
    List.countP_eq_zero.mpr fun x hx => Bool.eq_false_iff.mp (hdone x hx)
  rw [sends, List.countP_append, hzero, Nat.zero_add]
  rfl

theorem suffix (h : Idle tr tr') : tr <:+ tr' := by
  obtain ⟨done, rfl, -⟩ := h
  exact List.suffix_append done tr

end Idle

/-- What a guard counts does not change while nothing is sent. -/
theorem counts_of_idle {guard guard' : ScopeGuard} (h : Idle tr tr') (hcounts : guard.Counts (probeTrace tr))
    (htotal : guard'.total = guard.total) (hmutating : guard'.mutating = guard.mutating) :
    guard'.Counts (probeTrace tr') := by
  have hsame : answered (probeTrace tr') = answered (probeTrace tr) := by
    rw [answered_probeTrace, answered_probeTrace, h.exchanged_eq]
  exact ⟨htotal.trans (hsame ▸ hcounts.1), hmutating.trans (hsame ▸ hcounts.2)⟩

/-- The egress guard stays known. -/
theorem known_of_suffix {given : Option EgressGuard} {egressGuard : EgressGuard} (h : tr <:+ tr')
    (hknown : EgressKnown given (probeTrace tr) egressGuard) : EgressKnown given (probeTrace tr') egressGuard := by
  obtain hgiven | ⟨hnone, m, hmem⟩ := hknown
  · exact .inl hgiven
  · refine .inr ⟨hnone, m, ?_⟩
    obtain ⟨x, hx, hawait⟩ := List.mem_filterMap.mp hmem
    exact List.mem_filterMap.mpr ⟨x, h.subset hx, hawait⟩

/-! ## The protocol -/

section Protocol

variable (parseUrl : UrlParser) (config : LiveConfig) (given : Option EgressGuard)
  (kind : LiveTrace → LiveHttpRequest → Prop) (mayLogin : LiveTrace → String → Prop)

/-- Only requests of a kind are sent, and only when they may be; the browser logs in only where it may, and not
once the kill signal has fired. -/
def liveProtocol : Protocol LiveOp LiveOp.Ans ProbeMemory where
  answers _ _ := True
  awaits tr _ m op :=
    match op with
    | .probe (.send req) => kind tr req ∧ Sendable parseUrl config given (probeTrace tr) m req
    | .login url => mayLogin tr url ∧ m.aborted = none
    | _ => True
  ends _ _ _ := True

end Protocol

variable {parseUrl : UrlParser} {config : LiveConfig} {given : Option EgressGuard}
  {kind : LiveTrace → LiveHttpRequest → Prop} {mayLogin : LiveTrace → String → Prop}

/-! ## Parts -/

/-- A part that contacts no target awaits only what contacts none. -/
theorem idle_of_agent {tr : Trace AgentOp AgentOp.Ans ProbeMemory} {done : LiveTrace}
    (h : agentPart.Image tr done) : ∀ x ∈ done, x.op.isSend = false := by
  induction h with
  | nil => exact fun x hx => nomatch hx
  | cons h m m' op r ih =>
    intro x hx
    obtain rfl | hx := List.mem_cons.mp hx
    · rfl
    · exact ih x hx

/-- A part that contacts no target sends nothing, and returns what it returns alone. -/
theorem asAgent_follows {α : Type} {p : AgentProgram α} {post : α → Prop}
    (hp : p.Returns (fun _ _ => True) post) :
    (asAgent p m).Follows (liveProtocol parseUrl config given kind mayLogin)
      (fun tr' _ _ a => post a ∧ Idle tr tr') (fun tr' _ _ _ => Idle tr tr') tr m₀ := by
  refine Program.follows_lift (hp [] m m) (fun _ _ _ _ _ _ _ => trivial) (fun _ _ _ => trivial)
    (fun _ _ _ _ op h => ?_) (fun _ done _ _ a himage ha => ?_) fun _ done _ _ e himage _ => ?_
  · cases op <;> exact h
  · exact ⟨ha, done, rfl, idle_of_agent himage⟩
  · exact ⟨done, rfl, idle_of_agent himage⟩

/-- Loading a collaborator sends nothing. -/
theorem loadUnless_follows {given' : Bool} {load : LiveOp}
    (hload : load = .loadBrowser ∨ load = .loadTransport) :
    (loadUnless given' load m).Follows (liveProtocol parseUrl config given kind mayLogin)
      (fun tr' _ _ _ => Idle tr tr') (fun tr' _ _ _ => Idle tr tr') tr m₀ := by
  have hsilent : load.isSend = false := by
    obtain rfl | rfl := hload
    · rfl
    · rfl
  unfold loadUnless
  rw [Program.ite_apply]
  split
  · exact Idle.refl tr
  · refine Outcome.follows_ask_bind load ?_ (fun _ _ _ => Idle.cons _ hsilent tr) fun _ _ _ => Idle.cons _ hsilent tr
    obtain rfl | rfl := hload
    · trivial
    · trivial

/-- The awaits of a guard, where they are found; those that send nothing send nothing there. -/
theorem probeTrace_of_image {tr : ProbeTrace} {done : LiveTrace} (h : probePart.Image tr done) :
    probeTrace done = tr ∧ ((∀ x ∈ tr, ∀ req, x.op ≠ .send req) → ∀ x ∈ done, x.op.isSend = false) := by
  induction h with
  | nil => exact ⟨rfl, fun _ x hx => nomatch hx⟩
  | cons h m m' op r ih =>
    refine ⟨congrArg (List.cons _) ih.1, fun hsilent x hx => ?_⟩
    obtain rfl | hx := List.mem_cons.mp hx
    · cases op with
      | send req => exact absurd rfl (hsilent _ List.mem_cons_self req)
      | sleep ms => rfl
      | buildEgressGuard => rfl
    · exact ih.2 (fun y hy => hsilent y (List.mem_cons_of_mem _ hy)) x hx

/-- A guard that throttles may only sleep. -/
def napping : Protocol ProbeOp ProbeOp.Ans ProbeMemory where
  answers _ _ := True
  awaits _ _ _ op := ∃ ms, op = .sleep ms
  ends _ _ _ := True

/-- At most, a guard has slept since some memory. -/
def Napped (tr tr' : LiveTrace) (m m' : ProbeMemory) : Prop :=
  Idle tr tr' ∧ (probeTrace tr' = probeTrace tr ∧ m' = m ∨
    ∃ ms r, probeTrace tr' = ⟨m, .sleep ms, r⟩ :: probeTrace tr)

section Probing

variable {guard : ScopeGuard}

/-- Throttling counts nothing, and sends nothing. -/
theorem asProbe_throttle_follows {limits : LiveConfig} :
    (asProbe (guard.throttle limits) m).Follows (liveProtocol parseUrl config given kind mayLogin)
      (fun tr' _ m' guard' => guard'.total = guard.total ∧ guard'.mutating = guard.mutating ∧ Napped tr tr' m m')
      (fun tr' _ _ _ => Idle tr tr') tr m₀ := by
  have halone : (guard.throttle limits m).Follows napping
      (fun tr' _ m' guard' => (guard'.total = guard.total ∧ guard'.mutating = guard.mutating) ∧
        (tr' = [] ∧ m' = m ∨ ∃ ms r, tr' = [⟨m, .sleep ms, r⟩]))
      (fun tr' _ _ _ => tr' = [] ∨ ∃ ms r, tr' = [⟨m, .sleep ms, r⟩]) [] m :=
    Outcome.Follows.mono (throttle_follows fun ms => ⟨ms, rfl⟩) (fun _ _ _ _ h => ⟨⟨h.1, h.2.1⟩, h.2.2⟩)
      fun _ _ _ _ h => h
  have hnap : ∀ {trp : ProbeTrace} {done : LiveTrace} {m' : ProbeMemory}, probePart.Image trp done →
      (trp = [] ∧ m' = m ∨ ∃ ms r, trp = [⟨m, .sleep ms, r⟩]) → Napped tr (done ++ tr) m m' := by
    intro trp done m' himage hslept
    obtain ⟨htrace, hsilent⟩ := probeTrace_of_image himage
    have hsplit : probeTrace (done ++ tr) = trp ++ probeTrace tr := by
      rw [probeTrace, List.filterMap_append]
      exact congrArg (· ++ probeTrace tr) htrace
    obtain ⟨rfl, hm⟩ | ⟨ms, r, rfl⟩ := hslept
    · exact ⟨⟨done, rfl, hsilent fun x hx => nomatch hx⟩, .inl ⟨hsplit, hm⟩⟩
    · refine ⟨⟨done, rfl, hsilent fun x hx req hop => ?_⟩, .inr ⟨ms, r, hsplit⟩⟩
      obtain rfl := List.mem_singleton.mp hx
      cases hop
  refine Program.follows_lift halone (fun _ _ _ _ op _ hop => ?_) (fun _ _ _ => trivial)
    (fun _ _ _ _ op h => ?_) (fun _ _ _ _ _ himage h => ?_) fun _ _ _ _ _ himage h => ?_
  · obtain ⟨ms, rfl⟩ := hop
    trivial
  · cases op <;> exact h
  · exact ⟨h.1.1, h.1.2, hnap himage h.2⟩
  · exact (hnap himage (h.imp_left fun h => ⟨h, rfl⟩)).1

variable {rt : LiveRuntime} {input : ConfirmInput} {deps : ConfirmDeps} {egressGuard : EgressGuard}
  {finding : ProbableFinding} {probe : Probe}

/-- What passes the gate may be sent. -/
theorem gate_follows (hcounts : guard.Counts (probeTrace tr))
    (hknown : EgressKnown given (probeTrace tr) egressGuard) :
    (gate rt input egressGuard probe guard m).Follows
      (liveProtocol rt.parseUrl input.config given kind mayLogin)
      (fun tr' _ m' guard' => Sendable rt.parseUrl input.config given (probeTrace tr') m' probe.request ∧
        guard'.Counts (probeTrace tr') ∧ Idle tr tr')
      (fun tr' _ _ _ => Idle tr tr') tr m₀ := by
  unfold gate
  rw [Program.bind_apply, Program.get_apply, Outcome.bind]
  refine Outcome.follows_ofExcept_bind (fun _ haccepted => ?_) fun _ _ => Idle.refl tr
  rw [Program.bind_apply, Outcome.follows_bind]
  refine asProbe_throttle_follows.mono (fun tr' m₀' m' guard' h => ?_) fun _ _ _ _ h => h
  obtain ⟨htotal, hmutating, hidle, hnapped⟩ := h
  rw [Program.bind_apply, Program.get_apply, Outcome.bind]
  refine Outcome.follows_ofExcept_bind (fun _ halive => ?_) fun _ _ => hidle
  have hcounts' := counts_of_idle hidle hcounts rfl rfl
  refine ⟨⟨aborted_of_assertNotKilled halive, ?_⟩, counts_of_idle hidle hcounts htotal hmutating, hidle⟩
  refine ⟨guard, egressGuard, m, ?_, hcounts', known_of_suffix hidle.suffix hknown, haccepted⟩
  obtain ⟨-, rfl⟩ | ⟨ms, r, hslept⟩ := hnapped
  · exact .inl rfl
  · -- the guard has slept since it accepted the probe
    rw [hslept]
    exact .inr ⟨_, List.mem_cons_self, rfl⟩

/-- When the kill switch has fired, nothing is returned. -/
theorem halt_follows {α : Type} {post : LiveTrace → ProbeMemory → ProbeMemory → α → Prop} {e : LiveErr} :
    (halt rt input deps finding probe e m).Follows (liveProtocol parseUrl config given kind mayLogin) post
      (fun _ _ _ _ => True) tr m₀ := by
  unfold halt
  rw [Program.bind_apply, Outcome.follows_bind]
  exact (asAgent_follows .any).mono (fun _ _ _ _ _ => trivial) fun _ _ _ _ _ => trivial

/-- What was answered to a probe. -/
def ProbeResult.exchange (probe : Probe) : ProbeResult → List (LiveHttpRequest × LiveHttpResponse)
  | .answered response => [(probe.request, response)]
  | _ => []

/-- What the traces before and after a probe say of it. -/
structure Sent (probe : Probe) (tr tr' : LiveTrace) (result : ProbeResult × ScopeGuard) : Prop where
  counts : result.2.Counts (probeTrace tr')
  since : tr <:+ tr'
  once : sends tr' ≤ sends tr + 1
  answered : exchanged tr' = result.1.exchange probe ++ exchanged tr

/-- A probe is sent at most once, when it may be, and the guard counts it when it is answered. -/
theorem sendProbe_follows {summary : String} {metadata : JsRecord} (hcounts : guard.Counts (probeTrace tr))
    (hknown : EgressKnown given (probeTrace tr) egressGuard) (hkind : ∀ tr', Idle tr tr' → kind tr' probe.request) :
    (sendProbe rt input deps egressGuard finding probe summary metadata guard m).Follows
      (liveProtocol rt.parseUrl input.config given kind mayLogin) (fun tr' _ _ result => Sent probe tr tr' result)
      (fun _ _ _ _ => True) tr m₀ := by
  unfold sendProbe
  refine Outcome.follows_attempt_bind ((gate_follows hcounts hknown).mono (fun tr' m₀' m' guard' h => ?_)
    fun tr' m₀' m' e hidle => ?_)
  · obtain ⟨hsendable, hcounts', hidle⟩ := h
    dsimp only
    refine Outcome.follows_attempt_bind (Outcome.follows_ask (LiveOp.probe (.send probe.request))
      ⟨hkind tr' hidle, hsendable⟩ (fun response m₁ _ => ?_) fun e m₁ _ => ?_)
    · dsimp only
      rw [Program.bind_apply, Program.get_apply, Outcome.bind]
      refine Outcome.follows_ofExcept_bind (fun entry _ => ?_) fun _ _ => trivial
      rw [Program.bind_apply, Outcome.follows_bind]
      refine (asAgent_follows .any).mono (fun tr'' _ _ _ h => ?_) fun _ _ _ _ _ => trivial
      have hlater := h.2
      refine ⟨counts_of_idle hlater (hcounts'.record rfl rfl rfl m₁) rfl rfl, ?_, ?_, ?_⟩
      · exact (hidle.suffix.trans (List.suffix_cons _ _)).trans hlater.suffix
      · rw [hlater.sends_eq, ← hidle.sends_eq]
        exact sends_cons_le _ tr'
      · rw [hlater.exchanged_eq, ← hidle.exchanged_eq]
        rfl
    · dsimp only
      rw [Program.ite_apply]
      split
      · exact halt_follows
      · refine ⟨hcounts', hidle.suffix.trans (List.suffix_cons _ _), ?_, hidle.exchanged_eq⟩
        rw [← hidle.sends_eq]
        exact sends_cons_le _ tr'
  · dsimp only
    rw [Program.ite_apply]
    split
    · exact halt_follows
    · exact ⟨counts_of_idle hidle hcounts rfl rfl, hidle.suffix, hidle.sends_eq.le.trans (Nat.le_succ _),
        hidle.exchanged_eq⟩

end Probing

end MontrSecure.Confirm.Live
