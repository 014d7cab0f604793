import MontrSecure.Orchestrator.Lifecycle

/-!
# The processor of layer jobs keeps to the protocol

The retry loop by induction on the attempts left, the writes of each layer, the checkpoint, the
budget guard and the transition, each from the stage it starts at to the stage it leads to.
-/

namespace MontrSecure

open Async Action

variable {config : MontrConfig} {job : LayerJobData} {tr : OpTrace} {m₀ m : Memory} {row : Scan}
  {exc : OpTrace → Memory → Memory → Err → Prop}

/-! ## Attempts -/

/-- The runner of the trace is given this signal and this meter. -/
def RunsWith (tr : OpTrace) (signal : SignalId) (meter : MeterRef) : Prop :=
  ∃ ctx, contextOf tr = some ctx ∧ ctx.signal = signal ∧ ctx.meter = meter

/-- What an attempt starts from: it is the first one and takes the signal the registry gives, or the
ones before had the same signal and meter. -/
def StartsWith (job : LayerJobData) (tr : OpTrace) (m₀ m : Memory) (signal : SignalId)
    (meter : MeterRef) : Prop :=
  contextOf tr = none ∧ m₀.kills.signalFor job.scanId = (m.kills, signal) ∨
    m.kills = m₀.kills ∧ RunsWith tr signal meter

theorem StartsWith.killsStep {signal : SignalId} {meter : MeterRef}
    (h : StartsWith job tr m₀ m signal meter) : KillsStep tr m₀.kills m.kills := by
  obtain ⟨-, h⟩ | ⟨h, -⟩ := h
  · have hkills : KillsStep tr m₀.kills (m₀.kills.signalFor job.scanId).1 := .signalFor job.scanId
    rwa [h] at hkills
  · exact h ▸ .keep

section Retry

variable {policy : RetryPolicy} {signal : SignalId} {meter : MeterRef}
  {post : OpTrace → Memory → Memory → RawOutput → Prop}

/-- One attempt of the runner. -/
theorem follows_runLayer {i : ℕ} (hlive : row.Live) (hstage : stageOf tr = .starting)
    (hrow : rowOf tr = some row) (hsignal : StartsWith job tr m₀ m signal meter)
    (habort : m.kills.reason? signal = none)
    (hpost : ∀ tr' m' output, stageOf tr' = .persisting → rowOf tr' = some row →
      RunsWith tr' signal meter → post tr' m' m' output)
    (hexc : ∀ tr' m' e, stageOf tr' = .failing → rowOf tr' = some row →
      RunsWith tr' signal meter → exc tr' m' m' e) :
    ((do
        let priorOutputs ← getCache job.scanId
        ask (.runLayer { scan := row, job, meter, signal, attempt := i, priorOutputs }) :
          Action RawOutput) m).Follows (pipelineProtocol config (.runLayerJob job)) post exc tr m₀ := by
  refine follows_then (follows_of_ret (getCache_apply _) ?_)
  have hkills := hsignal.killsStep
  refine follows_ask (awaits_of_stage ?_ ?_ ⟨rfl, hrow, hlive, ?_, ?_⟩) (fun output _ m' => ?_)
    fun e _ m' => ?_
  · rw [hstage]
    rfl
  · rwa [cached_kills]
  · obtain ⟨hnone, hfor⟩ | ⟨hsame, ctx, hctx, hsig, hmeter⟩ := hsignal
    · exact .inl ⟨hnone, by rw [cached_kills]; exact hfor⟩
    · exact .inr ⟨by rw [cached_kills, hsame], ctx, hctx, hsig, hmeter⟩
  · simp [KillRegistry.aborted, habort]
  · exact hpost _ _ _ (by rw [stageOf_cons, hstage]; rfl) hrow ⟨_, rfl, rfl, rfl⟩
  · exact hexc _ _ _ (by rw [stageOf_cons, hstage]; rfl) hrow ⟨_, rfl, rfl, rfl⟩

/-- The retry loop, by induction on the attempts left. -/
theorem follows_retryFrom (hlive : row.Live)
    (hpost : ∀ tr' m' output, stageOf tr' = .persisting → rowOf tr' = some row →
      RunsWith tr' signal meter → post tr' m' m' output)
    (hexc : ∀ tr' m₀' m' e, rowOf tr' = some row → KillsStep tr' m₀'.kills m'.kills →
      stageOf tr' = .failing ∨ (m'.kills.reason? signal).isSome = true → exc tr' m₀' m' e)
    (left i : ℕ) (hstage : stageOf tr = .starting) (hrow : rowOf tr = some row)
    (hsignal : StartsWith job tr m₀ m signal meter) :
    (retryFrom policy signal (fun attempt => do
        let priorOutputs ← getCache job.scanId
        ask (.runLayer { scan := row, job, meter, signal, attempt, priorOutputs })) left i m).Follows
      (pipelineProtocol config (.runLayerJob job)) post exc tr m₀ := by
  induction left generalizing i tr m₀ m with
  | zero =>
    rw [retryFrom]
    refine follows_then (follows_of_ret (abortReason?_apply _) ?_)
    cases habort : m.kills.reason? signal with
    | some reason => exact hexc _ _ _ _ hrow hsignal.killsStep (.inr (by simp [habort]))
    | none =>
      refine follows_then (follows_attempt
        (follows_runLayer hlive hstage hrow hsignal habort hpost fun tr' m' e hfailing hrow' _ => ?_))
      refine follows_then (follows_of_ret (abortReason?_apply _) ?_)
      split <;> exact hexc _ _ _ _ hrow' .keep (.inl hfailing)
  | succ left ih =>
    rw [retryFrom]
    refine follows_then (follows_of_ret (abortReason?_apply _) ?_)
    cases habort : m.kills.reason? signal with
    | some reason => exact hexc _ _ _ _ hrow hsignal.killsStep (.inr (by simp [habort]))
    | none =>
      refine follows_then (follows_attempt
        (follows_runLayer hlive hstage hrow hsignal habort hpost fun tr' m' e hfailing hrow' hruns => ?_))
      refine follows_then (follows_of_ret (abortReason?_apply _) ?_)
      split
      · exact hexc _ _ _ _ hrow' .keep (.inl hfailing)
      · rename_i hretry
        obtain ⟨ctx, hctx, rfl, hmeter⟩ := hruns
        have haborted : m'.kills.aborted ctx.signal = false := by
          simp only [Bool.or_eq_true, not_or] at hretry
          simpa [KillRegistry.aborted] using hretry.1
        refine follows_then (follows_ask (awaits_of_stage ?_ .keep ⟨rfl, haborted, ctx, hctx, rfl⟩)
          (fun _ _ m'' => ?_) fun _ _ m'' => ?_)
        · rw [hfailing]
          rfl
        · exact ih _ (by rw [stageOf_cons, hfailing]; rfl) hrow' (.inr ⟨rfl, ctx, hctx, rfl, hmeter⟩)
        · exact hexc _ _ _ _ hrow' .keep (.inl (by rw [stageOf_cons, hfailing]; rfl))

end Retry

/-! ## Positions -/

/-- The processor of `job` stands at `stage`, holds the row `row`, and has run a runner with the
meter `meter`. -/
structure JobAt (job : LayerJobData) (tr : OpTrace) (stage : JobStage) (row : Scan)
    (meter : MeterRef) : Prop where
  at_ : stageOf tr = stage
  holds : rowOf tr = some row
  live : row.Live
  scanId : row.id = job.scanId
  clientId : row.clientId = job.clientId
  runs : ∃ ctx, contextOf tr = some ctx ∧ ctx.meter = meter

namespace JobAt

variable {stage : JobStage} {meter : MeterRef}

/-- An await that neither reads nor writes the row. -/
theorem cons {x : OpAwait} (h : JobAt job tr stage row meter) (hrow : OpAwait.row? x = none)
    (hcontext : OpAwait.context? x = none) :
    JobAt job (x :: tr) (stage.next x.op x.answer) row meter where
  at_ := by rw [stageOf_cons, h.at_]
  holds := by simpa [rowOf, hrow] using h.holds
  live := h.live
  scanId := h.scanId
  clientId := h.clientId
  runs := by simpa [contextOf, hcontext] using h.runs

/-- A write of the row. -/
theorem update {row' : Scan} {clientId : ClientId} {r : Except Err Scan}
    (h : JobAt job tr stage row meter) (hrow : row'.Extends row) (hlive : row'.Live) :
    JobAt job (⟨m, .store (.scansUpdate clientId row'), r⟩ :: tr)
      (stage.next (.store (.scansUpdate clientId row')) r) row' meter where
  at_ := by rw [stageOf_cons, h.at_]
  holds := rfl
  live := hlive
  scanId := hrow.id.trans h.scanId
  clientId := hrow.clientId.trans h.clientId
  runs := h.runs

/-- What the processor may issue from where it stands. -/
theorem awaits {op : Op} (h : JobAt job tr stage row meter) (hstage : stage.issues op = true)
    (hkills : KillsStep tr m₀.kills m.kills) (hissues : Issues config (.runLayerJob job) tr m₀ m op) :
    (pipelineProtocol config (.runLayerJob job)).awaits tr m₀ m op :=
  awaits_of_stage (by rw [h.at_, hstage]) hkills hissues

/-- The processor may write a later state of the row. -/
theorem issues_update {row' : Scan} {clientId : ClientId} (h : JobAt job tr stage row meter)
    (hrow : row'.Extends row) (hclient : clientId = row.clientId)
    (hwrites : Writes config tr row (.runLayerJob job) row'.status row'.gateState) :
    Issues config (.runLayerJob job) tr m₀ m (.store (.scansUpdate clientId row')) :=
  ⟨row, h.holds, hclient, hrow, fun _ => h.live, hwrites⟩

end JobAt

/-! ## Persisting -/

section Persist

variable {meter : MeterRef}

/-- The output is being written, and the kill registry is as it was when the segment began. -/
def Persisting (job : LayerJobData) (row : Scan) (meter : MeterRef) {α : Type} (tr : OpTrace)
    (m₀ m : Memory) (_ : α) : Prop :=
  JobAt job tr .persisting row meter ∧ m.kills = m₀.kills

theorem Persisting.killsStep {α : Type} {a : α} (h : Persisting job row meter tr m₀ m a) :
    KillsStep tr m₀.kills m.kills :=
  h.2 ▸ .keep

/-- An operation of the store that leaves the row alone. -/
theorem follows_persist {q : StoreOp} (h : Persisting job row meter tr m₀ m ())
    (hpersists : q.persists = true) (hrow : ∀ r, OpAwait.row? ⟨m, .store q, r⟩ = none)
    (hissues : Issues config (.runLayerJob job) tr m₀ m (.store q)) :
    (store q m).Follows (pipelineProtocol config (.runLayerJob job)) (Persisting job row meter)
      (Persisting job row meter) tr m₀ :=
  follows_store (h.1.awaits hpersists h.killsStep hissues)
    (fun a _ _ => ⟨h.1.cons (x := ⟨m, .store q, .ok a⟩) (hrow _) rfl, rfl⟩)
    fun e _ => ⟨h.1.cons (x := ⟨m, .store q, .error e⟩) (hrow _) rfl, rfl⟩

/-- Any two ways to leave a persisting action are one. -/
theorem Persisting.any {α β : Type} {a : α} {b : β} (h : Persisting job row meter tr m₀ m a) :
    Persisting job row meter tr m₀ m b := h

/-- A sequence of writes. -/
theorem follows_persist_then {α β : Type} {p : Action α} {f : α → Action β}
    (hp : (p m).Follows (pipelineProtocol config (.runLayerJob job)) (Persisting job row meter)
      (Persisting job row meter) tr m₀)
    (hf : ∀ tr m₀ m a, Persisting job row meter tr m₀ m a →
      (f a m).Follows (pipelineProtocol config (.runLayerJob job)) (Persisting job row meter)
        (Persisting job row meter) tr m₀) :
    ((p >>= f) m).Follows (pipelineProtocol config (.runLayerJob job)) (Persisting job row meter)
      (Persisting job row meter) tr m₀ :=
  follows_then (hp.mono hf fun _ _ _ _ h => h)

theorem follows_createFixes {clientId : ClientId} (fixes : List Fix)
    (h : Persisting job row meter tr m₀ m ()) :
    (createFixes clientId fixes m).Follows (pipelineProtocol config (.runLayerJob job))
      (Persisting job row meter) (Persisting job row meter) tr m₀ := by
  induction fixes generalizing tr m₀ m with
  | nil => exact h
  | cons fix fixes ih =>
    exact follows_persist_then (follows_persist h rfl (fun _ => rfl) trivial)
      fun _ _ _ _ h' => ih h'.any

theorem follows_linkFix {clientId : ClientId} {prId fixId : EntityId}
    (h : Persisting job row meter tr m₀ m ()) :
    (linkFix clientId prId fixId m).Follows (pipelineProtocol config (.runLayerJob job))
      (Persisting job row meter) (Persisting job row meter) tr m₀ := by
  refine follows_then (follows_store (h.1.awaits rfl h.killsStep trivial) (fun fix hr m' => ?_)
    fun e m' => ⟨h.1.cons rfl rfl, rfl⟩)
  have h' : Persisting job row meter
      (⟨m, .store (.fixesGet clientId fixId), .ok fix⟩ :: tr) m' m' () := ⟨h.1.cons rfl rfl, rfl⟩
  cases fix with
  | none => exact h'
  | some fix =>
    obtain rfl : fix.id = fixId := hr
    exact follows_persist_then
      (follows_persist h' rfl (fun _ => rfl) ⟨m, fix, rfl, rfl⟩) fun _ _ _ _ h'' => h''.any

theorem follows_linkFixes {clientId : ClientId} (links : List (EntityId × EntityId))
    (h : Persisting job row meter tr m₀ m ()) :
    (linkFixes clientId links m).Follows (pipelineProtocol config (.runLayerJob job))
      (Persisting job row meter) (Persisting job row meter) tr m₀ := by
  induction links generalizing tr m₀ m with
  | nil => exact h
  | cons link links ih =>
    exact follows_persist_then (follows_linkFix h) fun _ _ _ _ h' => ih h'.any

theorem follows_cacheOutput {scanId : ScanId} {out : LayerOutput}
    (h : Persisting job row meter tr m₀ m ()) :
    (cacheOutput scanId out m).Follows (pipelineProtocol config (.runLayerJob job))
      (Persisting job row meter) (Persisting job row meter) tr m₀ := h

/-- Rows that are written only when there are any. -/
theorem follows_whenNonempty {α : Type} {rows : List α} {p : Action Unit}
    (h : Persisting job row meter tr m₀ m ())
    (hp : (p m).Follows (pipelineProtocol config (.runLayerJob job)) (Persisting job row meter)
      (Persisting job row meter) tr m₀) :
    (whenNonempty rows p m).Follows (pipelineProtocol config (.runLayerJob job))
      (Persisting job row meter) (Persisting job row meter) tr m₀ := by
  unfold whenNonempty
  split
  · exact h
  · exact hp

/-- The writes of a layer either way: the row the scan object has become is the one held. -/
theorem follows_settle {row' : Scan} {p : Action Unit}
    {post : OpTrace → Memory → Memory → Scan × Option Err → Prop}
    (hp : (p m).Follows (pipelineProtocol config (.runLayerJob job)) (Persisting job row' meter)
      (Persisting job row' meter) tr m₀)
    (hpost : ∀ tr m₀ m failure, Persisting job row' meter tr m₀ m () →
      post tr m₀ m (row', failure)) :
    (settle row' p m).Follows (pipelineProtocol config (.runLayerJob job)) post exc tr m₀ :=
  follows_then (follows_attempt (hp.mono (fun _ _ _ _ h => hpost _ _ _ _ h)
    fun _ _ _ _ h => hpost _ _ _ _ h))

theorem scanAfterIntake_extends (out : Layer0Output) : (scanAfterIntake row out).Extends row :=
  ⟨rfl, rfl, rfl⟩

/-- The writes of a layer, whichever it is and however they end: the row held is the one the scan
object has become. -/
theorem follows_persistLayerOutput {layer : LayerId} {output : RawOutput}
    {post : OpTrace → Memory → Memory → Scan × Option Err → Prop}
    (h : Persisting job row meter tr m₀ m ())
    (hpost : ∀ tr m₀ m row' failure, Persisting job row' meter tr m₀ m () →
      post tr m₀ m (row', failure)) :
    (persistLayerOutput job.clientId layer output row m).Follows
      (pipelineProtocol config (.runLayerJob job)) post exc tr m₀ := by
  unfold persistLayerOutput
  rcases output.parse layer with e | ⟨out⟩ | ⟨out⟩ | ⟨out⟩ | ⟨out⟩ | ⟨out⟩ | ⟨out⟩
  · exact hpost _ _ _ _ _ h
  · refine follows_then (follows_attempt ((follows_persist h rfl (fun _ => rfl) ?_).mono ?_ ?_))
    · trivial
    · intro tr m₀ m _ h
      have hclient : job.clientId = (scanAfterIntake row out).clientId := h.1.clientId.symm
      have hlive : (scanAfterIntake row out).Live := h.1.live
      rw [hclient]
      refine follows_settle (follows_then (follows_store (h.1.awaits rfl h.killsStep
        (h.1.issues_update (scanAfterIntake_extends out) rfl (.persists h.1.at_))) (fun _ _ _ => ?_)
        fun _ _ => ?_)) fun _ _ _ _ h => hpost _ _ _ _ _ h
      · exact ⟨h.1.update (scanAfterIntake_extends out) hlive, rfl⟩
      · exact ⟨h.1.update (scanAfterIntake_extends out) hlive, rfl⟩
    · intro tr m₀ m _ h
      exact hpost _ _ _ _ _ h
  · refine follows_settle (follows_persist_then (follows_whenNonempty h
      (follows_persist h rfl (fun _ => rfl) ?_)) fun _ _ _ _ h => follows_cacheOutput h.any)
      fun _ _ _ _ h => hpost _ _ _ _ _ h
    trivial
  · refine follows_settle (follows_persist_then (follows_whenNonempty h
      (follows_persist h rfl (fun _ => rfl) ?_)) fun _ _ _ _ h => follows_cacheOutput h.any)
      fun _ _ _ _ h => hpost _ _ _ _ _ h
    trivial
  · refine follows_settle (follows_persist_then (follows_whenNonempty h
      (follows_persist h rfl (fun _ => rfl) ?_)) fun _ _ _ _ h => follows_persist_then
      (follows_whenNonempty h.any (follows_persist h.any rfl (fun _ => rfl) ?_))
      fun _ _ _ _ h => follows_cacheOutput h.any) fun _ _ _ _ h => hpost _ _ _ _ _ h
    · trivial
    · trivial
  · exact follows_settle (follows_persist_then (follows_createFixes _ h)
      fun _ _ _ _ h => follows_cacheOutput h.any) fun _ _ _ _ h => hpost _ _ _ _ _ h
  · exact follows_settle (follows_persist_then (follows_linkFixes _ h)
      fun _ _ _ _ h => follows_cacheOutput h.any) fun _ _ _ _ h => hpost _ _ _ _ _ h

end Persist

/-! ## Failing -/

/-- Failing the scan, from any stage at which something has gone wrong. -/
theorem follows_failScan {err : Err}
    (hstage : stageOf tr = .failing ∨ stageOf tr = .persisted ∨ stageOf tr = .lost)
    (hrow : rowOf tr = some row) (hlive : row.Live) (hkills : KillsStep tr m₀.kills m.kills) :
    (failScan row job.layer err m).Follows (pipelineProtocol config (.runLayerJob job)) Ends Ends
      tr m₀ := by
  have hissues : ∀ scan, (stageOf tr).issues (.store (.scansUpdate row.clientId scan)) = true := by
    obtain h | h | h := hstage <;> exact fun _ => by rw [h]; rfl
  have hclosing : ∀ scan r,
      (stageOf tr).next (.store (.scansUpdate row.clientId scan)) r = .closing := by
    obtain h | h | h := hstage <;> exact fun _ _ => by rw [h]; rfl
  refine follows_then (follows_of_ret nowIso_apply ?_)
  refine follows_then (follows_of_ret (safeActual_apply _) ?_)
  refine follows_then (follows_store (awaits_of_stage (hissues _) hkills ⟨row, hrow, rfl,
    ⟨rfl, rfl, rfl⟩, fun _ => hlive, .fails hstage⟩) (fun _ _ _ => ?_) fun _ _ => .keep)
  refine follows_then (follows_of_ret nowIso_apply ?_)
  refine follows_then (follows_of_ret (emit_apply _) ?_)
  refine follows_safeAudit (awaits_of_stage ?_ .keep trivial) fun _ _ => .keep
  exact (congrArg (fun stage : JobStage => stage.issues _) (hclosing _ _)).trans rfl

/-! ## The checkpoint -/

section Checkpoint

variable {meter : MeterRef} {post : OpTrace → Memory → Memory → Unit → Prop}

/-- Advancing the checkpoint: it is read, and saved with the layer added. -/
theorem follows_advanceResumeToken (h : JobAt job tr .persisted row meter)
    (hpost : ∀ tr' m', JobAt job tr' .recorded row meter → post tr' m' m' ())
    (hexc : ∀ tr' m' e, JobAt job tr' .lost row meter → exc tr' m' m' e) :
    (advanceResumeToken job.clientId job.scanId job.layer m).Follows
      (pipelineProtocol config (.runLayerJob job)) post exc tr m := by
  refine follows_then (follows_store (h.awaits rfl .keep ⟨row, h.holds, h.clientId.symm,
    h.scanId.symm⟩) (fun existing _ m' => ?_) fun _ _ => hexc _ _ _ (h.cons rfl rfl))
  have h' := h.cons (x := ⟨m, .store (.resumeGet job.clientId job.scanId), .ok existing⟩) rfl rfl
  refine follows_then (follows_of_ret nowIso_apply ?_)
  refine follows_then (follows_store (h'.awaits rfl .keep ⟨row, h'.holds, h.clientId.symm,
    h.scanId.symm, .advances rfl⟩) (fun _ _ _ => ?_) fun _ _ => hexc _ _ _ (h'.cons rfl rfl))
  exact hpost _ _ (h'.cons rfl rfl)

theorem follows_auditLayer (h : JobAt job tr .recorded row meter) (hkills : m.kills = m₀.kills)
    (hpost : ∀ tr' m₀ m', JobAt job tr' .recorded row meter → m'.kills = m₀.kills →
      post tr' m₀ m' ()) :
    (auditLayer row job.layer m).Follows (pipelineProtocol config (.runLayerJob job)) post exc
      tr m₀ := by
  unfold auditLayer
  split
  · exact follows_safeAudit (h.awaits rfl (hkills ▸ .keep) trivial) fun _ _ =>
      hpost _ _ _ (h.cons rfl rfl) rfl
  · exact hpost _ _ _ h hkills

end Checkpoint

/-! ## The budget guard -/

section Guard

variable {meter : MeterRef} {heap : List LiveCostMeter}

/-- The guard has looked at the meters `heap`, and has warned or not. -/
def Guarding (job : LayerJobData) (row : Scan) (meter : MeterRef) (heap : List LiveCostMeter)
    (tr : OpTrace) (m₀ m : Memory) : Prop :=
  m.kills = m₀.kills ∧
    (JobAt job tr .checking row meter ∧ m.meterHeap = heap ∨
      ∃ x tr', tr = x :: tr' ∧ JobAt job tr .warned row meter ∧
        JobAt job tr' .checking row meter ∧ x.mem.meterHeap = heap)

/-- The meter is below the ceiling, or the policy does not halt the scan there. -/
def Within (config : MontrConfig) (row : Scan) (heap : List LiveCostMeter) (meter : MeterRef) :
    Prop :=
  ∀ cell, heap[meter]? = some cell → (effectiveBudgetPolicy row config).enforcement = .hardHalt →
    (cell.checkBudget (effectiveBudgetPolicy row config)).exceeded = false

theorem JobAt.not_hardHalts {stage : JobStage} (h : JobAt job tr stage row meter)
    (hwithin : Within config row m.meterHeap meter) : ¬HardHalts config m tr := by
  rintro ⟨ctx, row', cell, hctx, hrow', hcell, henforce, hexceeded⟩
  obtain ⟨ctx', hctx', rfl⟩ := h.runs
  obtain rfl := Option.some.inj (hctx.symm.trans hctx')
  obtain rfl := Option.some.inj (hrow'.symm.trans h.holds)
  simp [hwithin cell hcell henforce] at hexceeded

/-- Within the ceiling, the guard lets the scan go on. -/
theorem Guarding.passes {post : OpTrace → Memory → Memory → Bool → Prop}
    (h : Guarding job row meter heap tr m₀ m) (hwithin : Within config row heap meter)
    (hpost : ∀ tr' m', JobAt job tr' .passed row meter → post tr' m' m' false) :
    (pipelineProtocol config (.runLayerJob job)).awaits tr m₀ m .tick ∧
      ∀ m', post (⟨m, .tick, .ok ()⟩ :: tr) m' m' false := by
  obtain ⟨hkills, ⟨hat, rfl⟩ | ⟨x, tr', rfl, hwarned, hat, rfl⟩⟩ := h
  · refine ⟨hat.awaits rfl (hkills ▸ .keep) fun _ => ?_, fun m' => hpost _ _ (hat.cons rfl rfl)⟩
    simp only [LetsGoOn, hat.at_]
    exact hat.not_hardHalts hwithin
  · refine ⟨hwarned.awaits rfl (hkills ▸ .keep) fun _ => ?_,
      fun m' => hpost _ _ (hwarned.cons rfl rfl)⟩
    simp only [LetsGoOn, hwarned.at_]
    exact hat.not_hardHalts hwithin

/-- The record that the ceiling is exceeded comes next. -/
theorem Guarding.exceeds {input : AuditEventInput} {post : OpTrace → Memory → Memory → Unit → Prop}
    (h : Guarding job row meter heap tr m₀ m) (haction : input.action = .budgetExceeded)
    (hpost : ∀ tr' m', JobAt job tr' .exceeded row meter → post tr' m' m' ()) :
    (safeAudit input m).Follows (pipelineProtocol config (.runLayerJob job)) post exc tr m₀ := by
  obtain ⟨hkills, ⟨hat, -⟩ | ⟨x, tr', -, hat, -⟩⟩ := h
  · refine follows_safeAudit (hat.awaits rfl (hkills ▸ .keep) trivial) fun r m' => hpost _ _ ?_
    have := hat.cons (x := ⟨m, .store (.auditAppend input), r⟩) rfl rfl
    simpa [JobStage.next, haction] using this
  · exact follows_safeAudit (hat.awaits rfl (hkills ▸ .keep) trivial) fun _ _ =>
      hpost _ _ (hat.cons rfl rfl)

/-- The warning leaves the guard with what it has seen. -/
theorem follows_warnBudget {policy : BudgetPolicy} {check : BudgetCheck}
    {post : OpTrace → Memory → Memory → Unit → Prop} (h : JobAt job tr .checking row meter)
    (hpost : ∀ tr' m₀ m', Guarding job row meter m.meterHeap tr' m₀ m' → post tr' m₀ m' ()) :
    (warnBudget row policy check m).Follows (pipelineProtocol config (.runLayerJob job)) post exc
      tr m := by
  refine follows_then (follows_of_ret get_apply ?_)
  split
  · refine follows_then (follows_of_ret (modify_apply _) ?_)
    refine follows_then (follows_of_ret nowIso_apply ?_)
    refine follows_then (follows_of_ret (emit_apply _) ?_)
    exact follows_safeAudit (h.awaits rfl .keep trivial) fun _ _ =>
      hpost _ _ _ ⟨rfl, .inr ⟨_, _, rfl, h.cons rfl rfl, h, rfl⟩⟩
  · exact hpost _ _ _ ⟨rfl, .inl ⟨h, rfl⟩⟩

/-- The budget guard, and the turn after it: the scan goes on, or it is over. -/
theorem follows_enforceBudget {post : OpTrace → Memory → Memory → Bool → Prop}
    (h : JobAt job tr .checking row meter)
    (hover : ∀ tr' m', post tr' m' m' true)
    (hpasses : ∀ tr' m', JobAt job tr' .passed row meter → post tr' m' m' false) :
    (call (enforceBudget config row meter) m).Follows (pipelineProtocol config (.runLayerJob job))
      post Ends tr m := by
  refine follows_call (follows_then (follows_of_ret (readMeter_apply _) ?_))
  cases hcell : m.meterHeap[meter]? with
  | none =>
    refine Guarding.passes ⟨rfl, .inl ⟨h, rfl⟩⟩ (fun cell hcell' => ?_) hpasses
    simp [hcell] at hcell'
  | some cell =>
    refine follows_then (follows_warnBudget h fun tr' m₀' m' hguard => ?_)
    split
    · rename_i hexceeded
      refine follows_then (follows_of_ret nowIso_apply ?_)
      refine follows_then (follows_of_ret (emit_apply _) ?_)
      refine follows_then (Guarding.exceeds (m := { m' with emitted := _ }) hguard rfl
        fun tr'' m'' hat => ?_)
      cases henforce : (effectiveBudgetPolicy row config).enforcement with
      | warn =>
        refine ⟨hat.awaits rfl .keep fun _ => ?_, fun m₁ => hpasses _ _ (hat.cons rfl rfl)⟩
        simp only [LetsGoOn, hat.at_]
        exact ⟨row, hat.holds, henforce⟩
      | hardHalt =>
        refine follows_then (follows_finalizeComplete (fun _ _ => ⟨hat.live, fun _ _ => ?_⟩) .keep
          hat.holds ⟨rfl, rfl, rfl⟩ (.halts hat.at_) (fun tr₁ m₁ m₂ hclosing hkills => ?_)
          fun _ _ _ => .keep)
        · rw [hat.at_]
          exact ⟨rfl, fun _ _ => rfl⟩
        · refine ⟨awaits_of_stage ?_ hkills fun _ => ?_, fun m₃ => hover _ _⟩
          · rw [hclosing job rfl]
            rfl
          · simp only [LetsGoOn, hclosing job rfl]
    · rename_i hbelow
      refine hguard.passes (fun cell' hcell' _ => ?_) hpasses
      obtain rfl := Option.some.inj (hcell.symm.trans hcell')
      simpa using hbelow

end Guard

/-! ## The transition -/

section Advance

variable {meter : MeterRef}

/-- The row after a write of the transition is live, as the one before was. -/
theorem JobAt.advance {row' : Scan} {clientId : ClientId} {r : Except Err Scan} (h : JobAt job tr .advancing row meter)
    (hrow : row'.Extends row) (hstatus : row'.status = row.status)
    (hgate : isPendingGate row'.gateState = false) :
    JobAt job (⟨m, .store (.scansUpdate clientId row'), r⟩ :: tr) .advancing row' meter := by
  have hlive : row'.Live := ⟨hstatus ▸ h.live.1, hstatus ▸ h.live.2⟩
  have h' : JobAt job (⟨m, .store (.scansUpdate clientId row'), r⟩ :: tr) _ row' meter :=
    h.update hrow hlive
  simpa [JobStage.next, hlive.1, hgate] using h'

theorem follows_advanceAfterIntake (h : JobAt job tr .advancing row meter)
    (hlayer : job.layer = .layer0) :
    (advanceAfterIntake config row m).Follows (pipelineProtocol config (.runLayerJob job)) Ends Ends
      tr m := by
  unfold advanceAfterIntake
  split
  · rename_i hgate
    refine follows_then (follows_store (h.awaits rfl .keep (h.issues_update ⟨rfl, rfl, rfl⟩ rfl
      (.presents h.at_ hlayer hgate))) (fun _ _ _ => ?_) fun _ _ => .keep)
    refine follows_then (follows_of_ret nowIso_apply ?_)
    refine follows_then (follows_of_ret (emit_apply _) ?_)
    refine follows_safeAudit (awaits_of_stage ?_ .keep trivial) fun _ _ => .keep
    simp [h.at_, JobStage.next, isPendingGate, JobStage.issues]
  · rename_i hgate
    have hgate : estimateGateRequired row config = false := by simpa using hgate
    refine follows_then (follows_store (h.awaits rfl .keep (h.issues_update ⟨rfl, rfl, rfl⟩ rfl
      (.skipsEstimate h.at_ hlayer hgate))) (fun a _ m₁ => ?_) fun _ _ => .keep)
    have h₁ : JobAt job (⟨m, .store (.scansUpdate row.clientId _), .ok a⟩ :: tr) .advancing
        { row with gateState := .estimateApproved } meter := h.advance ⟨rfl, rfl, rfl⟩ rfl rfl
    refine follows_then (follows_safeAudit (h₁.awaits rfl .keep trivial) fun r m₂ => ?_)
    have h₂ := h₁.cons (x := ⟨m₁, .store (.auditAppend _), r⟩) rfl rfl
    refine follows_scheduleLayer (fun _ _ => ⟨h₂.at_, h₂.live⟩) .keep h₂.holds
      (fun _ _ => .enters h₂.at_ hlayer hgate) ?_
    intro tr' row' next _ hpolicy _ _ hnext _
    refine .afterIntake hlayer hnext ?_
    simpa [estimateGateRequired, effectiveBudgetPolicy, hpolicy] using hgate

/-- The layers in between are followed by the next one. -/
theorem follows_scheduleNext (h : JobAt job tr .advancing row meter) {next : LayerId}
    (hlayer : job.layer = .layer1 ∨ job.layer = .layer2 ∨ job.layer = .layer3)
    (hnext : layerAfter job.layer = some next) :
    (scheduleLayer config row next none m).Follows (pipelineProtocol config (.runLayerJob job)) Ends
      Ends tr m := by
  refine follows_scheduleLayer (fun _ _ => ⟨h.at_, h.live⟩) .keep h.holds (fun henters => ?_) ?_
  · subst henters
    obtain hj | hj | hj := hlayer <;> rw [hj] at hnext <;> cases hnext
  · intro tr' row' job' _ _ _ _ hjob' _
    exact .afterLayer hlayer (hjob' ▸ hnext)

theorem follows_advanceAfterFixes (h : JobAt job tr .advancing row meter)
    (hlayer : job.layer = .layer4) :
    (advanceAfterFixes config row m).Follows (pipelineProtocol config (.runLayerJob job)) Ends Ends
      tr m := by
  refine follows_then (follows_store (h.awaits rfl .keep ⟨row, h.holds, rfl, rfl, job, rfl, hlayer⟩)
    (fun fixes _ m₁ => ?_) fun _ _ => .keep)
  have h₁ := h.cons (x := ⟨m, .store (.fixesListByScan row.clientId row.id), .ok fixes⟩) rfl rfl
  dsimp only
  split
  · rename_i hpending
    refine follows_then (follows_store (h₁.awaits rfl .keep (h₁.issues_update ⟨rfl, rfl, rfl⟩ rfl
      (.fixPending h₁.at_ hlayer rfl hpending.1 hpending.2))) (fun _ _ _ => ?_) fun _ _ => .keep)
    refine follows_then (follows_of_ret nowIso_apply ?_)
    exact .keep
  · rename_i hpending
    have hopen : (evaluateFixGate fixes config).wouldOpenPrs = true →
        config.rbac.approverRequiredForGate = false := by
      intro hopen
      simpa [hopen] using hpending
    -- The two branches differ in the audit record and in the bit the job carries.
    have happroves : ∀ input auto, (auto.getD false) = (evaluateFixGate fixes config).wouldOpenPrs →
        ((do
          let _ ← store (.scansUpdate row.clientId { row with gateState := .autoApproved })
          safeAudit input
          scheduleLayer config { row with gateState := .autoApproved } .layer5 auto :
            Action Unit) m₁).Follows (pipelineProtocol config (.runLayerJob job)) Ends Ends
          (⟨m, .store (.fixesListByScan row.clientId row.id), .ok fixes⟩ :: tr) m₁ := by
      intro input auto hauto
      refine follows_then (follows_store (h₁.awaits rfl .keep (h₁.issues_update ⟨rfl, rfl, rfl⟩ rfl
        (.autoApproves h₁.at_ hlayer rfl hopen))) (fun a _ m₂ => ?_) fun _ _ => .keep)
      have h₂ : JobAt job (⟨m₁, .store (.scansUpdate row.clientId _), .ok a⟩ :: _ :: tr) .advancing
          { row with gateState := .autoApproved } meter := h₁.advance ⟨rfl, rfl, rfl⟩ rfl rfl
      refine follows_then (follows_safeAudit (h₂.awaits rfl .keep trivial) fun r m₃ => ?_)
      have h₃ := h₂.cons (x := ⟨m₂, .store (.auditAppend input), r⟩) rfl rfl
      refine follows_scheduleLayer (fun _ _ => ⟨h₃.at_, h₃.live⟩) .keep h₃.holds (by simp) ?_
      intro tr' row' job' hlater _ _ _ hjob' hbit
      exact .afterFixes hlayer hjob' hlater.fixes (by rw [hbit, if_pos rfl, hauto]) hopen
    split
    · rename_i hwould
      exact happroves _ _ (by simp [hwould])
    · rename_i hwould
      exact happroves _ _ (by simpa using hwould)

theorem follows_advanceAfterLayer (h : JobAt job tr .advancing row meter) :
    (advanceAfterLayer config row job.layer m).Follows (pipelineProtocol config (.runLayerJob job))
      Ends Ends tr m := by
  cases hlayer : job.layer with
  | layer0 => exact follows_advanceAfterIntake h hlayer
  | layer1 => exact follows_scheduleNext h (.inl hlayer) (by rw [hlayer]; rfl)
  | layer2 => exact follows_scheduleNext h (.inr (.inl hlayer)) (by rw [hlayer]; rfl)
  | layer3 => exact follows_scheduleNext h (.inr (.inr hlayer)) (by rw [hlayer]; rfl)
  | layer4 => exact follows_advanceAfterFixes h hlayer
  | layer5 =>
    refine follows_finalizeComplete (fun _ _ => ⟨h.live, fun _ _ => ?_⟩) .keep h.holds ⟨rfl, rfl, rfl⟩
      (.completes h.at_ hlayer) (fun _ _ _ _ hkills => hkills) fun _ _ _ => .keep
    rw [h.at_]
    exact ⟨rfl, fun _ hterminal => by simp [JobStage.next, hterminal]⟩

end Advance

/-! ## The processor -/

/-- From the checkpoint on. -/
theorem follows_afterCheckpoint {meter : MeterRef} (h : JobAt job tr .recorded row meter) :
    (afterCheckpoint config job row meter m).Follows (pipelineProtocol config (.runLayerJob job))
      Ends Ends tr m := by
  refine follows_then (follows_of_ret nowIso_apply ?_)
  refine follows_then (follows_of_ret (emit_apply _) ?_)
  refine follows_then (follows_call (follows_auditLayer h rfl fun tr₁ m₀ m₁ h₁ hkills => ?_))
  refine ⟨h₁.awaits rfl (hkills ▸ .keep) fun _ => ?_, fun m₂ => ?_⟩
  · simp only [LetsGoOn, h₁.at_]
  · refine follows_then (follows_enforceBudget (h₁.cons rfl rfl) (fun _ _ => .keep) fun tr₂ m₃ h₂ => ?_)
    have hscan : ∀ s, Call.scanId? (.runLayerJob job) = some s → job.scanId = s :=
      fun s hs => Option.some.inj hs
    have hclient : ∀ j, Call.runLayerJob job = .runLayerJob j → job.clientId = j.clientId := by
      rintro j hj
      cases hj
      rfl
    refine follows_then (follows_store (h₂.awaits rfl .keep ⟨hscan, hclient⟩) (fun fresh hr m₄ => ?_)
      fun _ _ => .keep)
    refine follows_then (follows_of_ret (isKilled_apply _) ?_)
    split
    · exact .keep
    · split
      · exact .keep
      · rename_i hgoes
        obtain ⟨hpaused, hterminal⟩ := not_or.mp hgoes
        have hlive : (fresh.getD row).Live := ⟨by simpa using hterminal, hpaused⟩
        have hadvancing : JobAt job (⟨m₃, .store (.scansGet job.clientId job.scanId), .ok fresh⟩ :: tr₂)
            .advancing (fresh.getD row) meter := by
          cases fresh with
          | none => exact ⟨by rw [stageOf_cons, h₂.at_]; rfl, h₂.holds, hlive, h₂.scanId,
              h₂.clientId, h₂.runs⟩
          | some fresh =>
            exact ⟨by rw [stageOf_cons, h₂.at_]; rfl, rfl, hlive, hr.1, hr.2, h₂.runs⟩
        exact follows_advanceAfterLayer hadvancing

/-- From the output of the runner on. -/
theorem follows_persistAndAdvance {meter : MeterRef} {output : RawOutput}
    (h : JobAt job tr .persisting row meter) :
    (persistAndAdvance config job row meter output m).Follows
      (pipelineProtocol config (.runLayerJob job)) Ends Ends tr m := by
  refine follows_then (follows_of_ret (getCache_apply _) ?_)
  have hpersisting : Persisting job row meter tr m (cached m job.scanId) () := ⟨h, cached_kills _⟩
  refine follows_then (follows_call (follows_persistLayerOutput hpersisting
    fun tr₁ m₀ m₁ row' failure h₁ => ?_))
  refine ⟨h₁.1.awaits rfl h₁.killsStep fun _ => ?_, fun m₂ => ?_⟩
  · simp only [LetsGoOn, h₁.1.at_]
  · have h₂ := h₁.1.cons (x := ⟨m₁, .tick, .ok ()⟩) rfl rfl
    cases failure with
    | some err => exact follows_failScan (.inr (.inl h₂.at_)) h₂.holds h₂.live .keep
    | none =>
      refine follows_then (follows_attempt (follows_advanceResumeToken h₂ (fun tr₂ m₃ h₃ => ?_)
        fun tr₂ m₃ e h₃ => ?_))
      · exact follows_afterCheckpoint h₃
      · exact follows_failScan (.inr (.inr h₃.at_)) h₃.holds h₃.live .keep

theorem runLayerJob_obeys (job : LayerJobData) :
    (runLayerJob config job).Obeys (pipelineProtocol config (.runLayerJob job)) := by
  intro m
  refine follows_then (follows_of_ret (isKilled_apply _) ?_)
  split
  · exact .keep
  · have hclient : ∀ j, Call.runLayerJob job = .runLayerJob j → job.clientId = j.clientId := by
      rintro j hj
      cases hj
      rfl
    refine follows_then (follows_store (awaits_of_stage rfl .keep
      ⟨fun s hs => Option.some.inj hs, hclient⟩) (fun row hr m₁ => ?_) fun _ _ => .keep)
    cases row with
    | none => exact .keep
    | some row =>
      refine follows_then (follows_of_ret (setScanClient_apply _ _) ?_)
      split
      · exact .keep
      · rename_i hgoes
        obtain ⟨hterminal, hpaused⟩ := not_or.mp hgoes
        have hlive : row.Live := ⟨by simpa using hterminal, hpaused⟩
        refine follows_then (follows_of_ret (signalFor_apply _) ?_)
        refine follows_then (follows_of_ret (getMeter_apply _) ?_)
        refine follows_then (follows_of_ret (registerBudget_apply _ _ _) ?_)
        refine follows_then (follows_of_ret nowIso_apply ?_)
        refine follows_then (follows_of_ret (emit_apply _) ?_)
        refine follows_then (follows_attempt (follows_retryFrom hlive (fun tr₁ m₂ output hstage hrow hruns => ?_)
          (fun tr₁ m₀ m₂ e hrow hkills hfailed => ?_) _ _ rfl rfl (.inl ⟨rfl, ?_⟩)))
        · obtain ⟨ctx, hctx, -, hmeter⟩ := hruns
          exact follows_persistAndAdvance ⟨hstage, hrow, hlive, hr.1, hr.2, ctx, hctx, hmeter⟩
        · refine follows_then (follows_of_ret (abortReason?_apply _) ?_)
          refine follows_then (follows_of_ret (isKilled_apply _) ?_)
          split
          · exact hkills
          · rename_i hgoes
            simp only [Bool.or_eq_true, not_or] at hgoes
            exact follows_failScan (.inl (hfailed.resolve_right hgoes.1)) hrow hlive hkills
        · simp

/-- Every call keeps to the protocol. -/
theorem Deployment.body_obeys (d : Deployment) (c : Call) :
    (d.body c).Obeys (pipelineProtocol d.config c) := by
  cases c with
  | createScan input id => exact createScan_obeys input id
  | start scanId => exact start_obeys scanId
  | pause scanId => exact pause_obeys scanId
  | resume scanId => exact resume_obeys scanId
  | cancel scanId => exact cancel_obeys scanId
  | kill signal => exact kill_obeys signal
  | remoteKill signal => exact handleRemoteKill_obeys signal
  | approveGate scanId gate approver => exact approveGate_obeys scanId gate approver
  | runLayerJob job => exact runLayerJob_obeys job
  | authorizeScanDast req => exact authorizeScanDast_obeys d.hostOf req

end MontrSecure
