import MontrSecure.Async.Running
import MontrSecure.Confirm.Probes

/-!
# The rate of live probing

One probe after the other passes the guard, waits until it may be sent, and is recorded when its response has
arrived. Between two probes any time may pass, and so it may before a response. How many probes are sent within a
second is a question of what the throttle knows of: it knows the probes that were answered, and when.
-/

namespace MontrSecure.Confirm

open Async

variable (parseUrl : UrlParser) (config : LiveConfig) (egressGuard : EgressGuard)

/-- A probe of the loop of `confirmLive`, up to where it is recorded: a send that fails is left out. -/
def probe (guard : ScopeGuard) (req : LiveHttpRequest) : ProbeProgram ScopeGuard := do
  Program.ofExcept (guard.assertProbeAllowed parseUrl config egressGuard (← Program.get) req.url req.method)
  let guard ← guard.throttle config
  Program.ofExcept (ScopeGuard.assertNotKilled (← Program.get))
  match ← Program.attempt (askProbe (.send req)) with
  | .error e => if isAbort e then Program.throw (asKill "DAST probe aborted by kill switch" e) else return guard
  | .ok _ => return guard.record req.method (← Program.get)

/-! ## Time -/

/-- No time runs backwards, and a sleep that is not cut short lasts. -/
def Lasts : (op : ProbeOp) → op.Ans → ProbeMemory → ProbeMemory → Prop
  | .sleep ms, .ok _, m, m' => m.now + ms ≤ m'.now
  | _, _, m, m' => m.now ≤ m'.now

/-- The awaits, the latest first, last as they must, from a beginning up to a later memory. -/
def Timely (start : ProbeMemory) : ProbeTrace → ProbeMemory → Prop
  | [], m => m = start
  | x :: tr, m => Lasts x.op x.answer x.mem m ∧ Timely start tr x.mem

/-- The instants of the sends. -/
def sendInstants : ProbeTrace → List ℕ
  | [] => []
  | ⟨m, .send _, _⟩ :: tr => m.now :: sendInstants tr
  | _ :: tr => sendInstants tr

/-- A run of one probe from a guard, begun at some memory, that has got to an outcome. -/
structure ProbeRan (guard : ScopeGuard) (start : ProbeMemory) (tr : ProbeTrace) (m₀ : ProbeMemory)
    (o : Outcome ProbeOp ProbeOp.Ans ProbeMemory LiveErr ScopeGuard) : Prop where
  ran : ∃ req, (probe parseUrl config egressGuard guard req).Ran tr m₀ o
  timely : Timely start tr m₀

section Sessions

variable (steps : ScopeGuard → ProbeMemory → ProbeTrace → Prop)

/-- The guard after some probes, the time, and the instants of the sends, the latest first. Every probe is one that
the predicate admits. -/
inductive Session : ScopeGuard → ℕ → List ℕ → Prop where
  | start (now : ℕ) : Session {} now []
  | probe {guard guard' : ScopeGuard} {now : ℕ} {sends : List ℕ} {start m₀ m : ProbeMemory} {tr : ProbeTrace}
      (h : Session guard now sends) (hlater : now ≤ start.now)
      (hran : ProbeRan parseUrl config egressGuard guard start tr m₀ (.ret m guard'))
      (hstep : steps guard start tr) : Session guard' m.now (sendInstants tr ++ sends)

/-- What a session has sent, with the send that is underway. -/
inductive Sent : List ℕ → Prop where
  | between {guard : ScopeGuard} {now : ℕ} {sends : List ℕ}
      (h : Session parseUrl config egressGuard steps guard now sends) : Sent sends
  | underway {guard : ScopeGuard} {now : ℕ} {sends : List ℕ} {start m₀ m : ProbeMemory} {tr : ProbeTrace}
      {req : LiveHttpRequest} {k} (h : Session parseUrl config egressGuard steps guard now sends)
      (hlater : now ≤ start.now)
      (hran : ProbeRan parseUrl config egressGuard guard start tr m₀ (.await m (.send req) k))
      (hstep : steps guard start tr) : Sent (m.now :: (sendInstants tr ++ sends))

end Sessions

/-- The sends of a second from an instant on. -/
def windowCount (sends : List ℕ) (a : ℕ) : ℕ := sends.countP fun s => a ≤ s && s < a + 1000

/-- The instants that are less than a second old. -/
def recent (times : List ℕ) (now : ℕ) : List ℕ := times.filter fun t => now < t + 1000

/-- The throttle does not let a probe pass that is one too many for a fractional limit, and no send fails. -/
def Recorded (guard : ScopeGuard) (start : ProbeMemory) (tr : ProbeTrace) : Prop :=
  let rate := config.scope.maxRequestsPerSecond
  let sent : ℚ := (recent guard.sendTimes start.now).length
  ¬(sent < rate ∧ rate < sent + 1) ∧ ∀ m req e, (⟨m, .send req, .error e⟩ : Await ProbeOp ProbeOp.Ans ProbeMemory) ∉ tr

variable {parseUrl : UrlParser} {config : LiveConfig} {egressGuard : EgressGuard} {guard guard' : ScopeGuard}
  {now t : ℕ} {sends times : List ℕ} {start m₀ m : ProbeMemory} {tr : ProbeTrace} {req : LiveHttpRequest}

/-! ## What one probe does -/

/-- How a probe waits before it is sent, from when the throttle looks at the clock. -/
inductive Paced (config : LiveConfig) (guard : ScopeGuard) : ProbeTrace → ProbeMemory → ℕ → Prop where
  | atOnce {m : ProbeMemory} (h : ((recent guard.sendTimes m.now).length : ℚ) < config.scope.maxRequestsPerSecond) :
      Paced config guard [] m m.now
  | slept {m' m : ProbeMemory} {oldest : ℕ} {rest : List ℕ} (h : recent guard.sendTimes m'.now = oldest :: rest) :
      Paced config guard [⟨m', .sleep (oldest + 1000 - m'.now), .ok ()⟩] m m'.now

/-- What a probe awaits. -/
def pacing (config : LiveConfig) (guard : ScopeGuard) : Protocol ProbeOp ProbeOp.Ans ProbeMemory where
  answers _ _ := True
  awaits tr m₀ m op := m = m₀ ∧
    match op with
    | .send _ => ∃ t, Paced config guard tr m t
    | .sleep _ => tr = []
    | .buildEgressGuard => False
  ends _ _ _ := True

/-- The guard after a probe: what is recent, and the response if there is one. -/
def Probed (config : LiveConfig) (guard : ScopeGuard) (tr : ProbeTrace) (m₀ m : ProbeMemory) (guard' : ScopeGuard) :
    Prop :=
  m = m₀ ∧ ∃ s req r tr₀ t, tr = ⟨s, .send req, r⟩ :: tr₀ ∧ Paced config guard tr₀ s t ∧
    guard'.sendTimes = recent guard.sendTimes t ++ if r.isOk then [m.now] else []

theorem throttle_paced (hrate : 0 < config.scope.maxRequestsPerSecond) (m : ProbeMemory) :
    (guard.throttle config m).Follows (pacing config guard)
      (fun tr m₀ m guard' => m = m₀ ∧ ∃ t, Paced config guard tr m t ∧ guard'.sendTimes = recent guard.sendTimes t)
      (fun _ _ _ _ => True) [] m := by
  unfold ScopeGuard.throttle
  simp only [Program.ite_apply, Program.bind_apply, Program.get_apply, Outcome.bind]
  rw [if_neg (not_not.mpr hrate)]
  change Outcome.Follows _ _ _ _ _
    (if config.scope.maxRequestsPerSecond ≤ ((recent guard.sendTimes m.now).length : ℚ) then _ else _)
  split
  · rename_i hfull
    rcases hrecent : recent guard.sendTimes m.now with _ | ⟨oldest, rest⟩
    · rw [hrecent] at hfull
      exact absurd hfull (not_le.mpr (by simpa using hrate))
    · have hmem : oldest ∈ recent guard.sendTimes m.now := hrecent ▸ List.mem_cons_self
      have hyoung : m.now < oldest + 1000 := of_decide_eq_true (List.mem_filter.mp hmem).2
      have hhead : (guard.sendTimes.filter fun t => m.now < t + 1000).headD m.now = oldest := by
        change (recent guard.sendTimes m.now).headD m.now = oldest
        rw [hrecent]
        rfl
      rw [hhead, if_pos hyoung]
      refine Outcome.follows_ofExcept_bind (fun _ _ => ?_) fun _ _ => trivial
      refine Outcome.follows_ask_bind (ProbeOp.sleep _) ⟨rfl, rfl⟩ (fun _ m₁ _ => ?_) fun _ _ _ => trivial
      refine Outcome.follows_ofExcept_bind (fun _ _ => ?_) fun _ _ => trivial
      exact ⟨rfl, m.now, .slept hrecent, rfl⟩
  · rename_i hfree
    exact ⟨rfl, m.now, .atOnce (not_le.mp hfree), rfl⟩

theorem probe_paced (hrate : 0 < config.scope.maxRequestsPerSecond) (req : LiveHttpRequest) (m : ProbeMemory) :
    (probe parseUrl config egressGuard guard req m).Follows (pacing config guard)
      (fun tr m₀ m guard' => Probed config guard tr m₀ m guard') (fun _ _ _ _ => True) [] m := by
  unfold probe
  rw [Program.bind_apply, Program.get_apply, Outcome.bind]
  refine Outcome.follows_ofExcept_bind (fun _ _ => ?_) fun _ _ => trivial
  rw [Program.bind_apply, Outcome.follows_bind]
  refine (throttle_paced hrate m).mono (fun tr m₀ m₁ guard' hthrottled => ?_) fun _ _ _ _ _ => trivial
  obtain ⟨rfl, t, hpaced, htimes⟩ := hthrottled
  rw [Program.bind_apply, Program.get_apply, Outcome.bind]
  refine Outcome.follows_ofExcept_bind (fun _ _ => ?_) fun _ _ => trivial
  refine Outcome.follows_attempt_bind (Outcome.follows_ask (ProbeOp.send req) ⟨rfl, t, hpaced⟩ ?_ ?_)
  · intro response m₂ _
    refine ⟨rfl, m₁, req, .ok response, tr, t, rfl, hpaced, ?_⟩
    rw [ScopeGuard.record, htimes]
    rfl
  · intro e m₂ _
    change Outcome.Follows _ _ _ _ _ ((if isAbort e = true then Program.throw _ else pure guard') m₂)
    rw [Program.ite_apply]
    split
    · trivial
    · exact ⟨rfl, m₁, req, .error e, tr, t, rfl, hpaced, by rw [htimes]; simp [Except.isOk, Except.toBool]⟩

/-! ## What is recent -/

theorem recent_recent (times : List ℕ) {t t' : ℕ} (h : t ≤ t') : recent (recent times t) t' = recent times t' := by
  rw [recent, recent, recent, List.filter_filter]
  refine List.filter_congr fun c _ => ?_
  simp only [← Bool.decide_and, decide_eq_decide]
  omega

theorem length_recent_le (times : List ℕ) {t t' : ℕ} (h : t ≤ t') :
    (recent times t').length ≤ (recent times t).length := by
  rw [← recent_recent times h]
  exact List.length_filter_le _ _

theorem length_recent_append (times : List ℕ) (c t : ℕ) :
    (recent (times ++ [c]) t).length = (recent times t).length + if t < c + 1000 then 1 else 0 := by
  rw [recent, List.filter_append, List.length_append, ← recent]
  by_cases h : t < c + 1000
  · simp [h]
  · simp [h]

theorem length_recent_cons (sends : List ℕ) (s t : ℕ) :
    (recent (s :: sends) t).length = (recent sends t).length + if t < s + 1000 then 1 else 0 := by
  rw [recent, List.filter_cons, ← recent]
  by_cases h : t < s + 1000
  · simp [h]
  · simp [h]

/-- A window with a new send holds, besides it, only what was recent then. -/
theorem windowCount_cons (sends : List ℕ) (s a : ℕ) : windowCount (s :: sends) a = windowCount sends a ∨
    windowCount (s :: sends) a ≤ (recent sends s).length + 1 := by
  rw [windowCount, List.countP_cons]
  by_cases h : a ≤ s ∧ s < a + 1000
  · right
    have hle : sends.countP (fun s' => a ≤ s' && s' < a + 1000) ≤ sends.countP fun s' => decide (s < s' + 1000) := by
      refine List.countP_mono_left fun s' _ hs' => ?_
      simp only [Bool.and_eq_true, decide_eq_true_eq] at hs' ⊢
      omega
    rw [List.countP_eq_length_filter (p := fun s' => decide (s < s' + 1000))] at hle
    rw [if_pos (by simpa using h)]
    exact Nat.add_le_add_right hle 1
  · left
    rw [if_neg (by simpa using h), Nat.add_zero, windowCount]

/-! ## Sessions -/

/-- The guard knows of all that was sent within a second, that is within the limit, and so is every window. -/
structure Within (config : LiveConfig) (guard : ScopeGuard) (now : ℕ) (sends : List ℕ) : Prop where
  rate : ((recent guard.sendTimes now).length : ℚ) ≤ config.scope.maxRequestsPerSecond
  known : ∀ t, now ≤ t → (recent sends t).length ≤ (recent guard.sendTimes t).length
  window : ∀ a, (windowCount sends a : ℚ) ≤ config.scope.maxRequestsPerSecond

/-- A probe is sent when there is room for one more. -/
theorem Within.room (h : Within config guard now sends) (hlater : now ≤ start.now)
    (hfits : ¬(((recent guard.sendTimes start.now).length : ℚ) < config.scope.maxRequestsPerSecond ∧
      config.scope.maxRequestsPerSecond < (recent guard.sendTimes start.now).length + 1))
    (hpaced : Paced config guard tr m t) (htimely : Timely start tr m) :
    t = start.now ∧ t ≤ m.now ∧ ((recent guard.sendTimes m.now).length + 1 : ℚ) ≤ config.scope.maxRequestsPerSecond := by
  rcases hpaced with hfree | hrecent
  · obtain rfl := htimely
    exact ⟨rfl, le_rfl, not_lt.mp fun hlt => hfits ⟨hfree, hlt⟩⟩
  · rename_i m' oldest rest
    obtain ⟨hlasts, rfl⟩ := htimely
    have hlasts : m'.now + (oldest + 1000 - m'.now) ≤ m.now := hlasts
    have hle : m'.now ≤ m.now := by omega
    -- The oldest one is no longer recent, and the others are no more than there were.
    have hleft : (recent guard.sendTimes m.now).length ≤ rest.length := by
      rw [← recent_recent _ hle, hrecent, length_recent_cons, if_neg (by omega), Nat.add_zero]
      exact List.length_filter_le _ _
    have hbefore : (rest.length + 1 : ℚ) ≤ config.scope.maxRequestsPerSecond := by
      have hle := length_recent_le guard.sendTimes hlater
      rw [hrecent, List.length_cons] at hle
      exact le_trans (by exact_mod_cast hle) h.rate
    refine ⟨rfl, hle, le_trans ?_ hbefore⟩
    exact_mod_cast Nat.add_le_add_right hleft 1

/-- With room for one more, a window with the new send is within the limit. -/
theorem Within.window_cons (h : Within config guard now sends) {s : ℕ} (hlater : now ≤ s)
    (hroom : ((recent guard.sendTimes s).length + 1 : ℚ) ≤ config.scope.maxRequestsPerSecond) (a : ℕ) :
    (windowCount (s :: sends) a : ℚ) ≤ config.scope.maxRequestsPerSecond := by
  rcases windowCount_cons sends s a with heq | hle
  · rw [heq]
    exact h.window a
  · refine le_trans ?_ hroom
    exact_mod_cast hle.trans (Nat.add_le_add_right (h.known s hlater) 1)

theorem Paced.sendInstants_eq (h : Paced config guard tr m t) : sendInstants tr = [] := by
  rcases h with h | h
  · rfl
  · rfl

/-- A probe that is admitted keeps the guard in step with what is sent. -/
theorem Within.probe (h : Within config guard now sends) (hlater : now ≤ start.now) (htimely : Timely start tr m₀)
    (hstep : Recorded config guard start tr) (hprobed : Probed config guard tr m₀ m guard') :
    Within config guard' m.now (sendInstants tr ++ sends) := by
  obtain ⟨rfl, s, req, r, tr₀, t, rfl, hpaced, htimes⟩ := hprobed
  obtain ⟨hfits, hanswered⟩ := hstep
  obtain ⟨hlasts, htimely⟩ := htimely
  obtain ⟨rfl, hle, hroom⟩ := h.room hlater hfits hpaced htimely
  have hresponse : s.now ≤ m.now := by
    rcases r with e | response
    · exact hlasts
    · exact hlasts
  have hnow : now ≤ s.now := hlater.trans hle
  have hrecorded : guard'.sendTimes = recent guard.sendTimes start.now ++ [m.now] := by
    rcases r with e | response
    · exact absurd List.mem_cons_self (hanswered s req e)
    · exact htimes
  have hsends : sendInstants (⟨s, .send req, r⟩ :: tr₀) ++ sends = s.now :: sends := by
    rw [sendInstants, hpaced.sendInstants_eq]
    rfl
  have hlength {t : ℕ} (ht : start.now ≤ t) : (recent guard'.sendTimes t).length =
      (recent guard.sendTimes t).length + if t < m.now + 1000 then 1 else 0 := by
    rw [hrecorded, length_recent_append, recent_recent _ ht]
  rw [hsends]
  refine ⟨?_, fun t ht => ?_, h.window_cons hnow hroom⟩
  · rw [hlength (hle.trans hresponse), if_pos (by omega)]
    refine le_trans ?_ hroom
    exact_mod_cast Nat.add_le_add_right (length_recent_le _ hresponse) 1
  · rw [hlength (hle.trans (hresponse.trans ht)), length_recent_cons]
    have hknown := h.known t (hnow.trans (hresponse.trans ht))
    split_ifs
    · omega
    · omega
    · omega
    · omega

/-- Every session of admitted probes keeps the guard in step. -/
theorem Session.within (hrate : 0 < config.scope.maxRequestsPerSecond)
    (h : Session parseUrl config egressGuard (Recorded config) guard now sends) : Within config guard now sends := by
  induction h with
  | start now => exact ⟨hrate.le, fun t _ => le_rfl, fun a => hrate.le⟩
  | probe h hlater hran hstep ih =>
    obtain ⟨req, hran'⟩ := hran.ran
    have hprobed := hran'.returned (probe_paced hrate req) fun _ _ => trivial
    exact ih.probe hlater hran.timely hstep hprobed

/-- A probe that passes the guard is sent at once when there is room. -/
theorem probe_eq_await (hrate : 0 < config.scope.maxRequestsPerSecond)
    (hallowed : guard.assertProbeAllowed parseUrl config egressGuard m req.url req.method = .ok ())
    (hfree : ((recent guard.sendTimes m.now).length : ℚ) < config.scope.maxRequestsPerSecond) :
    ∃ k, probe parseUrl config egressGuard guard req m = .await m (.send req) k ∧
      ∀ e m', isAbort e = false → k (.error e) m' = .ret m' { guard with sendTimes := recent guard.sendTimes m.now } := by
  have halive : ScopeGuard.assertNotKilled m = .ok () := by
    rw [ScopeGuard.assertProbeAllowed] at hallowed
    rcases h : ScopeGuard.assertNotKilled m with e | ⟨⟩
    · rw [h] at hallowed
      cases hallowed
    · rfl
  have hthrottle : guard.throttle config m = .ret m { guard with sendTimes := recent guard.sendTimes m.now } := by
    unfold ScopeGuard.throttle
    simp only [Program.ite_apply, Program.bind_apply, Program.get_apply, Outcome.bind]
    rw [if_neg (not_not.mpr hrate)]
    change (if config.scope.maxRequestsPerSecond ≤ ((recent guard.sendTimes m.now).length : ℚ) then _ else _) = _
    rw [if_neg (not_le.mpr hfree)]
    rfl
  unfold probe
  simp only [Program.bind_apply, Program.get_apply, Outcome.bind, hallowed, Program.ofExcept, Program.pure_apply,
    hthrottle, halive]
  refine ⟨_, rfl, fun e m' habort => ?_⟩
  change (if isAbort e = true then Program.throw _ else pure _) m' = _
  rw [habort]
  rfl

/-- One target and a limit. -/
def oneTarget (rate : ℚ) : LiveConfig :=
  { clientId := "client", dast := { enabled := true, allowlist := ["http://staging.test/"] }
    scope := { maxRequestsPerSecond := rate }, productionBlocked := false }

/-- The request for the target. -/
def oneRequest : LiveHttpRequest := { method := "GET", url := "http://staging.test/" }

/-- Every URL is the target's. -/
def oneUrl : UrlParser := fun _ => some { host := "staging.test", pathname := "/" }

theorem oneRequest_allowed (rate : ℚ) (guard : ScopeGuard) (h : guard.total < 500) (now : ℕ) :
    guard.assertProbeAllowed oneUrl (oneTarget rate) (fun _ => .ok ()) ⟨now, none⟩ oneRequest.url oneRequest.method =
      .ok () := by
  have hallowlisted : isAllowlisted oneUrl oneRequest.url ["http://staging.test/"] = true := by decide +kernel
  have hmutating : isMutating oneRequest.method = false := by decide +kernel
  have hcap : ¬(oneTarget rate).scope.maxRequestsPerScan ≤ guard.total := not_le.mpr h
  have hlist : (oneTarget rate).dast.allowlist = ["http://staging.test/"] := rfl
  rw [ScopeGuard.assertProbeAllowed, hmutating, hlist, hallowlisted, if_neg hcap]
  rfl

section Examples

variable {rate : ℚ} (hrate : 0 < rate) {steps : ScopeGuard → ProbeMemory → ProbeTrace → Prop}
include hrate

/-- A probe of the target is sent at once when nothing was recorded. -/
theorem one_awaits (guard : ScopeGuard) (hguard : guard.sendTimes = []) (htotal : guard.total < 500) :
    ∃ k, (probe oneUrl (oneTarget rate) (fun _ => .ok ()) guard oneRequest).Ran [] ⟨0, none⟩
        (.await ⟨0, none⟩ (.send oneRequest) k) ∧
      ∀ e m', isAbort e = false → k (.error e) m' = .ret m' { guard with sendTimes := [] } := by
  have hempty : recent guard.sendTimes 0 = [] := by rw [hguard]; rfl
  have hfree : ((recent guard.sendTimes 0).length : ℚ) < (oneTarget rate).scope.maxRequestsPerSecond := by
    rw [hempty]
    exact hrate
  obtain ⟨k, hprobe, hfails⟩ := probe_eq_await hrate (oneRequest_allowed rate guard htotal 0) hfree
  refine ⟨k, hprobe ▸ Program.Ran.start _, fun e m' he => ?_⟩
  rw [hfails e m' he]
  exact congrArg _ (congrArg _ hempty)

theorem sent_one (hstep : steps {} ⟨0, none⟩ []) : Sent oneUrl (oneTarget rate) (fun _ => .ok ()) steps [0] := by
  obtain ⟨k, hran, -⟩ := one_awaits hrate {} rfl (by decide)
  exact .underway (.start 0) le_rfl ⟨⟨_, hran⟩, rfl⟩ hstep

/-- A send that fails leaves the guard as it was, and the next one follows at once. -/
theorem sent_two : Sent oneUrl (oneTarget rate) (fun _ => .ok ()) (fun _ _ _ => True) [0, 0] := by
  obtain ⟨k, hran, hfails⟩ := one_awaits hrate {} rfl (by decide)
  have hfirst := hran.step (.error (.err (.other "ECONNREFUSED"))) ⟨0, none⟩
  rw [hfails _ _ (by decide)] at hfirst
  obtain ⟨k', hran', -⟩ := one_awaits hrate {} rfl (by decide)
  exact .underway (.probe (.start 0) le_rfl ⟨⟨_, hfirst⟩, le_rfl, rfl⟩ trivial) le_rfl ⟨⟨_, hran'⟩, rfl⟩ trivial

end Examples

end MontrSecure.Confirm
