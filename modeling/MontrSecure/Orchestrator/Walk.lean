import MontrSecure.Orchestrator.Controller

/-!
# Walking through actions

How a protocol is carried through the actions the controller is written with: one rule for each kind
of await, and for each access to the memory the equation that computes it. Proving that a program
keeps to a protocol is then following its text, with the obligations of each await in turn.
-/

namespace MontrSecure

open Async

namespace Action

variable {P : Protocol Op Op.Ans Memory} {α β : Type} {tr : Trace Op Op.Ans Memory}
  {m₀ m m' : Memory} {exc : Trace Op Op.Ans Memory → Memory → Memory → Err → Prop}

/-! ## Rules -/

section Rules

variable {post : Trace Op Op.Ans Memory → Memory → Memory → α → Prop}

/-- A step of a `do` block: the rest of the block is its postcondition. -/
theorem follows_then {post : Trace Op Op.Ans Memory → Memory → Memory → β → Prop} {p : Action α}
    {f : α → Action β}
    (h : (p m).Follows P (fun tr m₀ m a => (f a m).Follows P post exc tr m₀) exc tr m₀) :
    ((p >>= f) m).Follows P post exc tr m₀ :=
  (Outcome.follows_bind _ _).mpr h

/-- An action that awaits nothing. -/
theorem follows_of_ret {p : Action α} {a : α} (hp : p m = .ret m' a) (h : post tr m₀ m' a) :
    (p m).Follows P post exc tr m₀ := by
  rwa [hp]

theorem follows_ofExcept {r : Except Err α} (hok : ∀ a, r = .ok a → post tr m₀ m a)
    (herr : ∀ e, r = .error e → exc tr m₀ m e) : (ofExcept r m).Follows P post exc tr m₀ := by
  cases r with
  | ok a => exact hok a rfl
  | error e => exact herr e rfl

theorem follows_attempt {post : Trace Op Op.Ans Memory → Memory → Memory → Except Err α → Prop}
    {p : Action α}
    (h : (p m).Follows P (fun tr m₀ m a => post tr m₀ m (.ok a))
      (fun tr m₀ m e => post tr m₀ m (.error e)) tr m₀) :
    (attempt p m).Follows P post exc tr m₀ := by
  rw [attempt, Program.tryCatch_apply, Outcome.follows_tryCatch]
  exact follows_then h

theorem follows_ask {op : Op} {post : Trace Op Op.Ans Memory → Memory → Memory → op.Val → Prop}
    (hissue : P.awaits tr m₀ m op)
    (hok : ∀ a, P.answers op (.ok a) → ∀ m', post (⟨m, op, .ok a⟩ :: tr) m' m' a)
    (herr : ∀ e, P.answers op (.error e) → ∀ m', exc (⟨m, op, .error e⟩ :: tr) m' m' e) :
    (ask op m).Follows P post exc tr m₀ := by
  refine ⟨hissue, ?_⟩
  rintro (e | a) hr m'
  · exact herr e hr m'
  · exact hok a hr m'

theorem follows_store {q : StoreOp} {post : Trace Op Op.Ans Memory → Memory → Memory → q.Val → Prop}
    (hissue : P.awaits tr m₀ m (.store q))
    (hok : ∀ a, P.answers (.store q) (.ok a) → ∀ m', post (⟨m, .store q, .ok a⟩ :: tr) m' m' a)
    (herr : ∀ e m', exc (⟨m, .store q, .error e⟩ :: tr) m' m' e) :
    (store q m).Follows P post exc tr m₀ :=
  follows_ask hissue hok fun e _ => herr e

/-- What the audit log answers makes no difference. -/
theorem follows_safeAudit {input : AuditEventInput}
    {post : Trace Op Op.Ans Memory → Memory → Memory → Unit → Prop}
    (hissue : P.awaits tr m₀ m (.store (.auditAppend input)))
    (h : ∀ r m', post (⟨m, .store (.auditAppend input), r⟩ :: tr) m' m' ()) :
    (safeAudit input m).Follows P post exc tr m₀ := by
  refine (Outcome.follows_tryCatch _ _).mpr (follows_store hissue ?_ ?_)
  · intro a _ m'
    exact h (.ok a) m'
  · intro e m'
    exact h (.error e) m'

theorem follows_call {p : Action α}
    (h : (p m).Follows P
      (fun tr m₀ m a => P.awaits tr m₀ m .tick ∧
        (∀ u, P.answers .tick (.ok u) → ∀ m', post (⟨m, .tick, .ok u⟩ :: tr) m' m' a) ∧
        ∀ e, P.answers .tick (.error e) → ∀ m', exc (⟨m, .tick, .error e⟩ :: tr) m' m' e)
      exc tr m₀) :
    (call p m).Follows P post exc tr m₀ :=
  follows_then (h.mono (fun _ _ _ _ ⟨hissue, hok, herr⟩ => follows_then (follows_ask hissue hok herr))
    fun _ _ _ _ he => he)

end Rules

/-! ## Memory -/

theorem nowIso_apply : nowIso m = .ret m m.now := rfl

theorem get_apply : (Program.get : Action Memory) m = .ret m m := rfl

theorem modify_apply (f : Memory → Memory) : (Program.modify f : Action Unit) m = .ret (f m) () :=
  rfl

theorem emit_apply (event : PipelineEvent) :
    emit event m = .ret { m with emitted := event :: m.emitted } () := rfl

theorem isKilled_apply (scanId : ScanId) : isKilled scanId m = .ret m (m.kills.isKilled scanId) :=
  rfl

theorem register_apply (scanId : ScanId) :
    register scanId m = .ret { m with kills := (m.kills.register scanId).1 } () := rfl

theorem signalFor_apply (scanId : ScanId) :
    signalFor scanId m =
      .ret { m with kills := (m.kills.signalFor scanId).1 } (m.kills.signalFor scanId).2 := rfl

theorem abortReason?_apply (signal : SignalId) :
    abortReason? signal m = .ret m (m.kills.reason? signal) := rfl

theorem resolveClientId_apply (config : MontrConfig) (scanId : ScanId) :
    resolveClientId config scanId m = .ret m ((m.scanClient scanId).getD config.clientId) := rfl

theorem setScanClient_apply (scanId : ScanId) (clientId : ClientId) :
    setScanClient scanId clientId m =
      .ret { m with scanClient := Function.update m.scanClient scanId (some clientId) } () := rfl

theorem readMeter_apply (meter : MeterRef) : readMeter meter m = .ret m m.meterHeap[meter]? := rfl

theorem cacheOutput_apply (scanId : ScanId) (out : LayerOutput) :
    cacheOutput scanId out m =
      .ret { m with
        caches := Function.update m.caches scanId
          ((m.caches scanId).map fun cache => Function.update cache out.layer (some out)) } () :=
  rfl

theorem registerBudget_apply (scanId : ScanId) (meter : MeterRef) (policy : BudgetPolicy) :
    registerBudget scanId meter policy m =
      .ret { m with
        budgetRegistry := Function.update m.budgetRegistry scanId (some { meter, policy }) } () :=
  rfl

theorem safeActual_apply (scanId : ScanId) :
    safeActual scanId m =
      .ret m ((m.meters scanId).bind fun meter => (m.meterHeap[meter]?).map (·.actual m.now)) :=
  rfl

/-- The memory after `cleanup`. -/
def cleaned (m : Memory) (scanId : ScanId) : Memory :=
  { m with
    meters := Function.update m.meters scanId none
    caches := Function.update m.caches scanId none
    budgetWarned := m.budgetWarned.filter (· ≠ scanId)
    budgetRegistry := Function.update m.budgetRegistry scanId none
    kills := m.kills.clear scanId
    ended := scanId :: m.ended }

theorem cleanup_apply (scanId : ScanId) : cleanup scanId m = .ret (cleaned m scanId) () := rfl

/-- The memory after `getMeter`. -/
def metered (m : Memory) (scanId : ScanId) : Memory :=
  match m.meters scanId with
  | some _ => m
  | none =>
    { m with
      meterHeap := m.meterHeap ++ [createCostMeter scanId m.now]
      meters := Function.update m.meters scanId (some m.meterHeap.length) }

theorem getMeter_apply (scanId : ScanId) :
    getMeter scanId m = .ret (metered m scanId) ((m.meters scanId).getD m.meterHeap.length) := by
  cases h : m.meters scanId <;> simp [getMeter, metered, h, Outcome.bind]

@[simp]
theorem metered_kills (scanId : ScanId) : (metered m scanId).kills = m.kills := by
  cases h : m.meters scanId <;> simp [metered, h]

/-- The memory after `getCache`. -/
def cached (m : Memory) (scanId : ScanId) : Memory :=
  match m.caches scanId with
  | some _ => m
  | none => { m with caches := Function.update m.caches scanId (some fun _ => none) }

theorem getCache_apply (scanId : ScanId) :
    getCache scanId m = .ret (cached m scanId) ((m.caches scanId).getD fun _ => none) := by
  cases h : m.caches scanId <;> simp [getCache, cached, h, Outcome.bind]

@[simp]
theorem cached_kills (scanId : ScanId) : (cached m scanId).kills = m.kills := by
  cases h : m.caches scanId <;> simp [cached, h]

end Action

end MontrSecure
