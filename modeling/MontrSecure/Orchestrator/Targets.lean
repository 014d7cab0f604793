import MontrSecure.AppMap.DiffScope
import MontrSecure.Orchestrator.Runs

/-!
# Where staging targets come from

The staging target of a scan is a field of its scope, which most calls only hand on. `targetProtocol` says
so: a row a call writes has the target of a row it has read, or the one its intake has returned, or the one
it authorizes; and a job is built from such a row.
-/

namespace MontrSecure

open Async Action

/-! ## Intake -/

/-- The intake leaves the staging target alone. -/
@[simp]
theorem finalizedScope_stagingUrl (base : ScanScope) (mode : ScanMode) (routeCount fileCount : ℕ)
    (diff : Option DiffScope) :
    (finalizedScope base mode routeCount fileCount diff).stagingUrl = base.stagingUrl := by
  cases diff <;> rfl

/-- The Layer 0 runner returns a scope `finalize` makes of the scope of the job. -/
def RunsIntake : PipelineStep → Prop
  | .performed _ (.runLayerJob job) (.runLayer _) (.ok raw) =>
    ∀ out repo branch mode scope, raw.parse .layer0 = .ok (.layer0 out) →
      job.payload = .layer0 repo branch mode scope →
      ∃ routeCount fileCount diff, out.scope = finalizedScope scope mode routeCount fileCount diff
  | _ => True

/-! ## The protocol -/

/-- The intake of the job has returned this scope. -/
def IntakeScope (job : LayerJobData) (tr : OpTrace) (scope : ScanScope) : Prop :=
  ∃ m ctx, ∃ raw : RawOutput, ∃ out, ⟨m, .runLayer ctx, .ok raw⟩ ∈ tr ∧
    raw.parse job.layer = .ok (.layer0 out) ∧ out.scope = scope

/-- After the awaits `tr`, a call `c` may hold this row: the scan is one it has read, and so is the target,
unless it is that of the intake. -/
def Carries (c : Call) (tr : OpTrace) (row : Scan) : Prop :=
  ∃ x ∈ tr, ∃ old, OpAwait.readRow? x = some old ∧ row.id = old.id ∧
    (row.scope.stagingUrl = old.scope.stagingUrl ∨
      ∃ job, c = .runLayerJob job ∧ IntakeScope job tr row.scope)

/-- A call `c` that has completed the awaits `tr` may issue this operation. -/
def TargetIssues (config : MontrConfig) (c : Call) (tr : OpTrace) : Op → Prop
  | .store (.scansUpdate _ row) =>
    Carries c tr row ∨
      ∃ req, c = .authorizeScanDast req ∧ row.id = req.scanId ∧
        row.scope.stagingUrl = some req.stagingUrl
  | .enqueue job _ =>
    ∃ row auto, Carries c tr row ∧ buildJob config row job.layer auto = .ok job
  | _ => True

/-- The protocol of a call. -/
def targetProtocol (config : MontrConfig) (c : Call) : Protocol Op Op.Ans Memory where
  answers := Answers
  awaits tr _ _ op := TargetIssues config c tr op
  ends _ _ _ := True

/-! ## Rules -/

variable {config : MontrConfig} {c : Call} {tr tr' : OpTrace} {m₀ m : Memory} {row row' : Scan}
  {α β : Type}

theorem Carries.mono (h : Carries c tr row) (hsuffix : tr <:+ tr') : Carries c tr' row := by
  obtain ⟨x, hx, old, hold, hid, htarget⟩ := h
  refine ⟨x, hsuffix.subset hx, old, hold, hid, htarget.imp_right ?_⟩
  rintro ⟨job, hc, m, ctx, raw, out, hmem, hout⟩
  exact ⟨job, hc, m, ctx, raw, out, hsuffix.subset hmem, hout⟩

theorem Carries.of_eq (h : Carries c tr row) (hid : row'.id = row.id) (hscope : row'.scope = row.scope) :
    Carries c tr row' := by
  obtain ⟨x, hx, old, hold, hid', htarget⟩ := h
  exact ⟨x, hx, old, hold, hid.trans hid', hscope ▸ htarget⟩

theorem Carries.of_read {clientId : ClientId} {id : ScanId}
    (hmem : ⟨m, .store (.scansGet clientId id), .ok (some row)⟩ ∈ tr) : Carries c tr row :=
  ⟨_, hmem, row, rfl, rfl, .inl rfl⟩

/-- The program goes on from where the trace was. -/
abbrev Onward (tr : OpTrace) {α : Type} (tr' : OpTrace) (_ _ : Memory) (_ : α) : Prop := tr <:+ tr'

/-- The program keeps to the protocol, whatever comes of it. -/
abbrev Walks (config : MontrConfig) (c : Call) (tr : OpTrace) (m₀ : Memory)
    (o : Outcome Op Op.Ans Memory Err α) : Prop :=
  o.Follows (targetProtocol config c) (Onward tr) (Onward tr) tr m₀

/-- What goes on from a longer trace goes on from the shorter one. -/
theorem walks_after {o : Outcome Op Op.Ans Memory Err α} (hsuffix : tr <:+ tr')
    (h : Walks config c tr' m₀ o) :
    o.Follows (targetProtocol config c) (Onward tr) (Onward tr) tr' m₀ :=
  h.mono (fun _ _ _ _ h => hsuffix.trans h) fun _ _ _ _ h => hsuffix.trans h

/-- A sequence: the second part starts with a longer trace. -/
theorem walks_then {p : Action α} {f : α → Action β} (hp : Walks config c tr m₀ (p m))
    (hf : ∀ tr' m₀ m a, tr <:+ tr' → Walks config c tr' m₀ (f a m)) :
    Walks config c tr m₀ ((p >>= f) m) := by
  refine follows_then (hp.mono (fun tr' m₀ m a hsuffix => ?_) fun _ _ _ _ h => h)
  exact walks_after hsuffix (hf tr' m₀ m a hsuffix)

/-- Awaiting an async function adds one turn. -/
theorem walks_call {p : Action α} (hp : Walks config c tr m₀ (p m)) :
    Walks config c tr m₀ (call p m) := by
  refine Action.follows_call (hp.mono (fun tr' m₀ m a hsuffix => ⟨trivial, ?_, ?_⟩) fun _ _ _ _ h => h)
  · exact fun _ _ _ => hsuffix.trans (List.suffix_cons _ _)
  · exact fun _ _ _ => hsuffix.trans (List.suffix_cons _ _)

theorem walks_attempt {p : Action α} (hp : Walks config c tr m₀ (p m)) :
    Walks config c tr m₀ (attempt p m) :=
  follows_attempt hp

theorem walks_ask {op : Op} (hissue : TargetIssues config c tr op) :
    Walks config c tr m₀ (ask op m) :=
  follows_ask hissue (fun _ _ _ => List.suffix_cons _ _) fun _ _ _ => List.suffix_cons _ _

theorem walks_safeAudit (input : AuditEventInput) : Walks config c tr m₀ (safeAudit input m) :=
  follows_safeAudit trivial fun _ _ => List.suffix_cons _ _

/-- An action that awaits nothing. -/
theorem walks_ret {m' : Memory} {p : Action α} {a : α} (hp : p m = .ret m' a) :
    Walks config c tr m₀ (p m) :=
  follows_of_ret hp List.suffix_rfl

/-- An action that awaits nothing, and what comes after it. -/
theorem walks_ret_then {m' : Memory} {p : Action α} {a : α} {f : α → Action β} (hp : p m = .ret m' a)
    (hf : Walks config c tr m₀ (f a m')) : Walks config c tr m₀ ((p >>= f) m) :=
  follows_then (follows_of_ret hp hf)

theorem walks_ite {p q : Action α} {b : Prop} [Decidable b] (hp : b → Walks config c tr m₀ (p m))
    (hq : ¬b → Walks config c tr m₀ (q m)) : Walks config c tr m₀ ((if b then p else q) m) := by
  by_cases hb : b
  · rw [if_pos hb]
    exact hp hb
  · rw [if_neg hb]
    exact hq hb

/-- A write of a row the call may hold. -/
theorem walks_update {clientId : ClientId} (h : Carries c tr row) :
    Walks config c tr m₀ (store (.scansUpdate clientId row) m) :=
  walks_ask (.inl h)

/-- A read of a row, which the call may hold from here on. -/
theorem walks_read {clientId : ClientId} {id : ScanId} {f : Option Scan → Action β}
    (hf : ∀ tr' m' row, tr <:+ tr' → (∀ r, row = some r → Carries c tr' r) →
      Walks config c tr' m' (f row m')) :
    Walks config c tr m₀ ((store (.scansGet clientId id) >>= f) m) := by
  refine follows_then (follows_store trivial (fun row _ m' => ?_) fun _ _ => List.suffix_cons _ _)
  have hsuffix := List.suffix_cons (⟨m, .store (.scansGet clientId id), .ok row⟩ : OpAwait) tr
  refine walks_after hsuffix (hf _ m' row hsuffix ?_)
  rintro r rfl
  exact .of_read List.mem_cons_self

/-! ## Scheduling and ending -/

theorem walks_enqueueLayer {layer : LayerId} {auto : Option Bool} (h : Carries c tr row) :
    Walks config c tr m₀ (enqueueLayer config row layer auto m) := by
  refine follows_then (follows_ofExcept (fun job hjob => ?_) fun _ _ => List.suffix_rfl)
  have hlayer : job.layer = layer := (buildJob_eq_ok hjob).2.2.2.1
  refine walks_ask ⟨row, auto, h, ?_⟩
  rw [hlayer, hjob]

theorem walks_scheduleLayer {layer : LayerId} {auto : Option Bool} (h : Carries c tr row) :
    Walks config c tr m₀ (scheduleLayer config row layer auto m) := by
  unfold scheduleLayer
  split
  · refine walks_then (walks_update (h.of_eq rfl rfl)) fun tr' _ _ _ hsuffix => ?_
    exact walks_enqueueLayer ((h.of_eq rfl rfl).mono hsuffix)
  · exact walks_enqueueLayer h

theorem walks_finalizeComplete {partialReport : Bool} (h : Carries c tr row) :
    Walks config c tr m₀ (finalizeComplete row partialReport m) := by
  refine walks_ret_then nowIso_apply (walks_ret_then (safeActual_apply _) ?_)
  refine walks_then (walks_update (h.of_eq rfl rfl)) fun _ _ _ _ _ => ?_
  refine walks_ret_then nowIso_apply (walks_ret_then (emit_apply _) ?_)
  exact walks_then (walks_safeAudit _) fun _ _ _ _ _ => walks_ret (cleanup_apply _)

theorem walks_failScan {layer : LayerId} {err : Err} (h : Carries c tr row) :
    Walks config c tr m₀ (failScan row layer err m) := by
  refine walks_ret_then nowIso_apply (walks_ret_then (safeActual_apply _) ?_)
  refine walks_then (walks_update (h.of_eq rfl rfl)) fun _ _ _ _ _ => ?_
  exact walks_ret_then nowIso_apply (walks_ret_then (emit_apply _) (walks_safeAudit _))

theorem walks_blockRow {at_ : IsoDateTime} (h : Carries c tr row) :
    Walks config c tr m₀ (blockRow row at_ m) := by
  unfold blockRow
  split
  · exact walks_ret rfl
  · refine walks_ret_then (safeActual_apply _) ?_
    exact walks_then (walks_update (h.of_eq rfl rfl)) fun _ _ _ _ _ => walks_ret rfl

theorem walks_blockKilled {scanId : ScanId} {signal : KillSwitchSignal} {at_ : IsoDateTime} :
    Walks config c tr m₀ (blockKilled config scanId signal at_ m) := by
  refine walks_ret_then (resolveClientId_apply _ _) (walks_read fun tr' m' found _ hfound => ?_)
  cases found with
  | none => exact walks_ret rfl
  | some row =>
    refine walks_ret_then (setScanClient_apply _ _) ?_
    refine walks_then (walks_blockRow (hfound row rfl)) fun _ _ _ _ _ => ?_
    refine walks_ret_then (emit_apply _) (walks_then (walks_safeAudit _) fun _ _ _ _ _ => ?_)
    exact walks_then (walks_safeAudit _) fun _ _ _ _ _ => walks_ret (cleanup_apply _)

theorem walks_blockAllKilled {signal : KillSwitchSignal} {at_ : IsoDateTime} (scanIds : List ScanId) :
    Walks config c tr m₀ (blockAllKilled config signal at_ scanIds m) := by
  induction scanIds generalizing tr m₀ m with
  | nil => exact walks_ret rfl
  | cons scanId scanIds ih => exact walks_then walks_blockKilled fun _ _ _ _ _ => ih

/-! ## Lifecycle calls -/

/-- Every call about a scan begins by reading its row. -/
theorem walks_load {scanId : ScanId} {f : Scan → Action β}
    (hf : ∀ tr' m₀ m' row, Carries c tr' row → Walks config c tr' m₀ (f row m')) :
    Walks config c tr m₀ ((load config scanId >>= f) m) := by
  refine follows_then (follows_then (follows_of_ret (resolveClientId_apply _ _) ?_))
  refine follows_then (follows_store trivial (fun found _ m' => ?_) fun _ _ => List.suffix_cons _ _)
  have hsuffix := List.suffix_cons (⟨m, .store (.scansGet _ scanId), .ok found⟩ : OpAwait) tr
  cases found with
  | none => exact hsuffix
  | some row =>
    refine follows_then (follows_of_ret (setScanClient_apply _ _) (follows_of_ret rfl ?_))
    exact walks_after hsuffix (hf _ _ _ row (.of_read List.mem_cons_self))

theorem walks_createScan {input : CreateScanInput} {id : ScanId} :
    Walks config c tr m₀ (createScan input id m) := by
  refine walks_ret_then nowIso_apply (walks_ite (fun _ => ?_) fun _ => List.suffix_rfl)
  refine walks_then (walks_ask trivial) fun _ _ _ _ _ => ?_
  exact walks_ret_then (setScanClient_apply _ _) (walks_safeAudit _)

theorem walks_ensureSchedulerStarted : Walks config c tr m₀ (ensureSchedulerStarted m) := by
  refine walks_ret_then get_apply ?_
  split
  · exact walks_ret rfl
  · exact walks_ret_then (modify_apply _) (walks_ask trivial)

theorem walks_start {scanId : ScanId} : Walks config c tr m₀ (start config scanId m) := by
  refine walks_load fun tr' m₀ m' row h => ?_
  split
  · exact walks_ret rfl
  · refine walks_ret_then get_apply ?_
    split
    · exact List.suffix_rfl
    · refine walks_ret_then (register_apply _) ?_
      refine walks_then (walks_call walks_ensureSchedulerStarted) fun _ _ _ _ hsuffix => ?_
      have h := h.mono hsuffix
      refine walks_ret_then nowIso_apply ?_
      refine walks_then (walks_update (h.of_eq rfl rfl)) fun _ _ _ _ hsuffix => ?_
      have h := h.mono hsuffix
      refine walks_ret_then nowIso_apply (walks_then (walks_ask trivial) fun _ _ _ _ hsuffix => ?_)
      have h := h.mono hsuffix
      refine walks_ret_then nowIso_apply (walks_ret_then (emit_apply _) ?_)
      refine walks_then (walks_safeAudit _) fun _ _ _ _ hsuffix => ?_
      exact walks_scheduleLayer ((h.mono hsuffix).of_eq rfl rfl)

theorem walks_pause {scanId : ScanId} : Walks config c tr m₀ (pause config scanId m) := by
  refine walks_load fun tr' m₀ m' row h => ?_
  split
  · exact walks_ret rfl
  · exact walks_then (walks_update (h.of_eq rfl rfl)) fun _ _ _ _ _ => walks_safeAudit _

theorem walks_resumeFrom {completed : List LayerId} (h : Carries c tr row) :
    Walks config c tr m₀ (resumeFrom config row completed m) := by
  unfold resumeFrom
  split
  · exact walks_ret_then nowIso_apply (walks_ret (emit_apply _))
  · split
    · exact walks_ret_then nowIso_apply (walks_ret (emit_apply _))
    · cases nextLayer completed with
      | none => exact walks_finalizeComplete h
      | some next =>
        exact walks_ret_then nowIso_apply (walks_ret_then (emit_apply _) (walks_scheduleLayer h))

theorem walks_resume {scanId : ScanId} : Walks config c tr m₀ (resume config scanId m) := by
  refine walks_load fun tr' m₀ m' row h => walks_ret_then (isKilled_apply _) ?_
  split
  · exact List.suffix_rfl
  · split
    · exact walks_ret rfl
    · refine walks_then (walks_ask trivial) fun _ _ _ token hsuffix => ?_
      have h := h.mono hsuffix
      refine walks_ret_then (register_apply _) ?_
      refine walks_then (walks_call walks_ensureSchedulerStarted) fun _ _ _ _ hsuffix => ?_
      have h := h.mono hsuffix
      refine walks_then (walks_update (h.of_eq rfl rfl)) fun _ _ _ _ hsuffix => ?_
      have h := h.mono hsuffix
      refine walks_then (walks_safeAudit _) fun _ _ _ _ hsuffix => ?_
      exact walks_resumeFrom ((h.mono hsuffix).of_eq rfl rfl)

theorem walks_cancel {scanId : ScanId} : Walks config c tr m₀ (cancel config scanId m) := by
  refine walks_load fun tr' m₀ m' row h => ?_
  split
  · exact walks_ret rfl
  · refine walks_ret_then (modify_apply _) (walks_ret_then nowIso_apply ?_)
    refine walks_ret_then (safeActual_apply _) ?_
    refine walks_then (walks_update (h.of_eq rfl rfl)) fun _ _ _ _ _ => ?_
    exact walks_then (walks_safeAudit _) fun _ _ _ _ _ => walks_ret (cleanup_apply _)

theorem walks_kill {signal : KillSwitchSignal} : Walks config c tr m₀ (kill config signal m) := by
  refine walks_ret_then nowIso_apply ?_
  cases signal.scope with
  | global =>
    refine walks_ret_then get_apply (walks_ret_then (modify_apply _) ?_)
    refine walks_then (walks_ask trivial) fun _ _ _ _ _ => ?_
    exact walks_then (walks_blockAllKilled _) fun _ _ _ _ _ => walks_safeAudit _
  | scan =>
    cases signal.scanId with
    | none => exact List.suffix_rfl
    | some scanId =>
      refine walks_ret_then (modify_apply _) ?_
      exact walks_then (walks_ask trivial) fun _ _ _ _ _ => walks_blockKilled

theorem walks_handleRemoteKill {signal : KillSwitchSignal} :
    Walks config c tr m₀ (handleRemoteKill config signal m) := by
  refine walks_ret_then nowIso_apply ?_
  cases signal.scope with
  | global =>
    refine walks_ret_then get_apply (walks_ret_then (modify_apply _) ?_)
    exact walks_blockAllKilled _
  | scan =>
    cases signal.scanId with
    | none => exact walks_ret rfl
    | some scanId => exact walks_ret_then (modify_apply _) walks_blockKilled

theorem walks_approveGate {scanId : ScanId} {gate : Gate} {approver : EntityId} :
    Walks config c tr m₀ (approveGate config scanId gate approver m) := by
  refine walks_load fun tr' m₀ m' row h => ?_
  split
  · exact walks_ret rfl
  · cases gate with
    | estimate =>
      dsimp only
      split
      · exact walks_ret rfl
      · refine walks_then (walks_update (h.of_eq rfl rfl)) fun _ _ _ _ hsuffix => ?_
        have h := h.mono hsuffix
        refine walks_then (walks_safeAudit _) fun _ _ _ _ hsuffix => ?_
        exact walks_scheduleLayer ((h.mono hsuffix).of_eq rfl rfl)
    | fix =>
      dsimp only
      split
      · exact walks_ret rfl
      · refine walks_then (walks_update (h.of_eq rfl rfl)) fun _ _ _ _ hsuffix => ?_
        have h := h.mono hsuffix
        refine walks_then (walks_safeAudit _) fun _ _ _ _ hsuffix => ?_
        exact walks_scheduleLayer ((h.mono hsuffix).of_eq rfl rfl)

theorem walks_findOrCreateTarget {req : AuthorizeRequest} :
    Walks config c tr m₀ (findOrCreateTarget req m) := by
  refine walks_then (walks_ask trivial) fun _ _ _ found _ => ?_
  cases found with
  | some target => exact walks_ret rfl
  | none => exact walks_ret_then nowIso_apply (walks_ask trivial)

/-- Authorizing is the one call that brings in a target of its own. -/
theorem authorizeScanDast_walks (hostOf : String → Option String) (req : AuthorizeRequest) :
    (authorizeScanDast config hostOf req).Obeys (targetProtocol config (.authorizeScanDast req)) := by
  intro m
  refine follows_then (follows_store trivial (fun found hfound m' => ?_) fun _ _ => trivial)
  cases found with
  | none => trivial
  | some row =>
    obtain ⟨hid, -⟩ : row.id = req.scanId ∧ row.clientId = req.clientId := hfound
    dsimp only
    split
    · refine Outcome.Follows.mono (walks_then walks_findOrCreateTarget fun _ _ _ _ _ => ?_)
        (fun _ _ _ _ _ => trivial) fun _ _ _ _ _ => trivial
      refine walks_ret_then nowIso_apply (walks_then (walks_ask trivial) fun _ _ _ _ _ => ?_)
      refine walks_then (walks_ask (.inr ⟨req, rfl, hid, rfl⟩)) fun _ _ _ _ _ => ?_
      exact walks_ask trivial
    · trivial

/-! ## The processor -/

section Processor

variable {job : LayerJobData} {meter : MeterRef}

/-- The retry loop, by induction on the attempts left: what it returns a runner has returned. -/
theorem follows_retryFrom_answered {policy : RetryPolicy} {signal : SignalId} (left i : ℕ) :
    (retryFrom policy signal (fun attempt => do
        let priorOutputs ← getCache job.scanId
        ask (.runLayer { scan := row, job, meter, signal, attempt, priorOutputs })) left i m).Follows
      (targetProtocol config c)
      (fun tr' _ _ raw => tr <:+ tr' ∧ ∃ m ctx, ⟨m, .runLayer ctx, .ok raw⟩ ∈ tr') (Onward tr) tr m₀ := by
  induction left generalizing i tr m₀ m with
  | zero =>
    rw [retryFrom]
    refine follows_then (follows_of_ret (abortReason?_apply _) ?_)
    cases m.kills.reason? signal with
    | some reason => exact List.suffix_rfl
    | none =>
      refine follows_then (follows_attempt (follows_then (follows_of_ret (getCache_apply _)
        (follows_ask trivial (fun raw _ m' => ?_) fun e _ m' => ?_))))
      · exact ⟨List.suffix_cons _ _, _, _, List.mem_cons_self⟩
      · refine follows_then (follows_of_ret (abortReason?_apply _) ?_)
        split <;> exact List.suffix_cons _ _
  | succ left ih =>
    rw [retryFrom]
    refine follows_then (follows_of_ret (abortReason?_apply _) ?_)
    cases m.kills.reason? signal with
    | some reason => exact List.suffix_rfl
    | none =>
      refine follows_then (follows_attempt (follows_then (follows_of_ret (getCache_apply _)
        (follows_ask trivial (fun raw _ m' => ?_) fun e _ m' => ?_))))
      · exact ⟨List.suffix_cons _ _, _, _, List.mem_cons_self⟩
      · refine follows_then (follows_of_ret (abortReason?_apply _) ?_)
        split
        · exact List.suffix_cons _ _
        · refine follows_then (follows_ask trivial (fun _ _ m'' => ?_) fun e' _ m'' => ?_)
          · have hsuffix {a b : OpAwait} : tr <:+ a :: b :: tr :=
              (List.suffix_cons _ _).trans (List.suffix_cons _ _)
            exact (ih _).mono (fun _ _ _ _ h => ⟨hsuffix.trans h.1, h.2⟩) fun _ _ _ _ h => hsuffix.trans h
          · exact (List.suffix_cons _ _).trans (List.suffix_cons _ _)

theorem walks_createFixes {clientId : ClientId} (fixes : List Fix) :
    Walks config c tr m₀ (createFixes clientId fixes m) := by
  induction fixes generalizing tr m₀ m with
  | nil => exact walks_ret rfl
  | cons fix fixes ih => exact walks_then (walks_ask trivial) fun _ _ _ _ _ => ih

theorem walks_linkFix {clientId : ClientId} {prId fixId : EntityId} :
    Walks config c tr m₀ (linkFix clientId prId fixId m) := by
  refine walks_then (walks_ask trivial) fun _ _ _ fix _ => ?_
  cases fix with
  | none => exact walks_ret rfl
  | some fix => exact walks_then (walks_ask trivial) fun _ _ _ _ _ => walks_ret rfl

theorem walks_linkFixes {clientId : ClientId} (links : List (EntityId × EntityId)) :
    Walks config c tr m₀ (linkFixes clientId links m) := by
  induction links generalizing tr m₀ m with
  | nil => exact walks_ret rfl
  | cons link links ih => exact walks_then walks_linkFix fun _ _ _ _ _ => ih

theorem walks_whenNonempty {rows : List α} {p : Action Unit} (hp : Walks config c tr m₀ (p m)) :
    Walks config c tr m₀ (whenNonempty rows p m) := by
  unfold whenNonempty
  split
  · exact walks_ret rfl
  · exact hp

/-- The writes of a layer either way leave the scan object the processor holds. -/
theorem follows_settle_carries {p : Action Unit} {post : OpTrace → Memory → Memory → Scan × Option Err → Prop}
    {exc : OpTrace → Memory → Memory → Err → Prop} (h : Carries c tr row)
    (hp : Walks config c tr m₀ (p m))
    (hpost : ∀ tr' m₀ m failure, tr <:+ tr' → Carries c tr' row → post tr' m₀ m (row, failure)) :
    (settle row p m).Follows (targetProtocol config c) post exc tr m₀ := by
  refine follows_then (follows_attempt (hp.mono (fun _ _ _ _ hsuffix => ?_) fun _ _ _ _ hsuffix => ?_))
  · exact hpost _ _ _ _ hsuffix (h.mono hsuffix)
  · exact hpost _ _ _ _ hsuffix (h.mono hsuffix)

/-- The writes of a layer: the intake's scope is the one the scan object takes over. -/
theorem follows_persistLayerOutput_carries {output : RawOutput}
    {post : OpTrace → Memory → Memory → Scan × Option Err → Prop}
    {exc : OpTrace → Memory → Memory → Err → Prop} (h : Carries (.runLayerJob job) tr row)
    (houtput : ∃ m ctx, ⟨m, .runLayer ctx, .ok output⟩ ∈ tr)
    (hpost : ∀ tr' m₀ m row' failure, tr <:+ tr' → Carries (.runLayerJob job) tr' row' →
      post tr' m₀ m (row', failure)) :
    (persistLayerOutput job.clientId job.layer output row m).Follows
      (targetProtocol config (.runLayerJob job)) post exc tr m₀ := by
  unfold persistLayerOutput
  rcases hparse : output.parse job.layer with e | ⟨out⟩ | ⟨out⟩ | ⟨out⟩ | ⟨out⟩ | ⟨out⟩ | ⟨out⟩
  · exact hpost _ _ _ _ _ List.suffix_rfl h
  · refine follows_then (follows_attempt (follows_store trivial (fun _ _ m' => ?_) fun _ m' => ?_))
    · have hsuffix {x : OpAwait} : tr <:+ x :: tr := List.suffix_cons _ _
      have hintake : Carries (.runLayerJob job) tr (scanAfterIntake row out) := by
        obtain ⟨x, hx, old, hold, hid, -⟩ := h
        obtain ⟨m, ctx, hmem⟩ := houtput
        exact ⟨x, hx, old, hold, hid, .inr ⟨job, rfl, m, ctx, output, out, hmem, hparse, rfl⟩⟩
      refine follows_settle_carries (hintake.mono hsuffix) (walks_then (walks_update
        (hintake.mono hsuffix)) fun _ _ _ _ _ => walks_ret (cacheOutput_apply _ _)) ?_
      exact fun _ _ _ _ hsuffix' => hpost _ _ _ _ _ (hsuffix.trans hsuffix')
    · exact hpost _ _ _ _ _ (List.suffix_cons _ _) (h.mono (List.suffix_cons _ _))
  · refine follows_settle_carries h (walks_then (walks_whenNonempty (walks_ask trivial))
      fun _ _ _ _ _ => walks_ret (cacheOutput_apply _ _)) fun _ _ _ _ => hpost _ _ _ _ _
  · refine follows_settle_carries h (walks_then (walks_whenNonempty (walks_ask trivial))
      fun _ _ _ _ _ => walks_ret (cacheOutput_apply _ _)) fun _ _ _ _ => hpost _ _ _ _ _
  · refine follows_settle_carries h (walks_then (walks_whenNonempty (walks_ask trivial))
      fun _ _ _ _ _ => walks_then (walks_whenNonempty (walks_ask trivial))
      fun _ _ _ _ _ => walks_ret (cacheOutput_apply _ _)) fun _ _ _ _ => hpost _ _ _ _ _
  · refine follows_settle_carries h (walks_then (walks_createFixes _)
      fun _ _ _ _ _ => walks_ret (cacheOutput_apply _ _)) fun _ _ _ _ => hpost _ _ _ _ _
  · refine follows_settle_carries h (walks_then (walks_linkFixes _)
      fun _ _ _ _ _ => walks_ret (cacheOutput_apply _ _)) fun _ _ _ _ => hpost _ _ _ _ _

theorem walks_advanceResumeToken {clientId : ClientId} {scanId : ScanId} {layer : LayerId} :
    Walks config c tr m₀ (advanceResumeToken clientId scanId layer m) := by
  refine walks_then (walks_ask trivial) fun _ _ _ _ _ => walks_ret_then nowIso_apply ?_
  exact walks_then (walks_ask trivial) fun _ _ _ _ _ => walks_ret rfl

theorem walks_auditLayer {layer : LayerId} : Walks config c tr m₀ (auditLayer row layer m) := by
  unfold auditLayer
  split
  · exact walks_safeAudit _
  · exact walks_ret rfl

theorem walks_warnBudget {policy : BudgetPolicy} {check : BudgetCheck} :
    Walks config c tr m₀ (warnBudget row policy check m) := by
  refine walks_ret_then get_apply (walks_ite (fun _ => ?_) fun _ => walks_ret rfl)
  refine walks_ret_then (modify_apply _) (walks_ret_then nowIso_apply ?_)
  exact walks_ret_then (emit_apply _) (walks_safeAudit _)

theorem walks_enforceBudget (h : Carries c tr row) :
    Walks config c tr m₀ (enforceBudget config row meter m) := by
  refine walks_ret_then (readMeter_apply _) ?_
  cases m.meterHeap[meter]? with
  | none => exact walks_ret rfl
  | some cell =>
    refine walks_then walks_warnBudget fun _ _ _ _ hsuffix => ?_
    have h := h.mono hsuffix
    refine walks_ite (fun _ => ?_) fun _ => walks_ret rfl
    refine walks_ret_then nowIso_apply (walks_ret_then (emit_apply _) ?_)
    refine walks_then (walks_safeAudit _) fun _ _ _ _ hsuffix => ?_
    cases (effectiveBudgetPolicy row config).enforcement with
    | warn => exact walks_ret rfl
    | hardHalt =>
      refine walks_then (walks_finalizeComplete ((h.mono hsuffix).of_eq rfl rfl)) fun _ _ _ _ _ => ?_
      exact walks_ret rfl

theorem walks_advanceAfterIntake (h : Carries c tr row) :
    Walks config c tr m₀ (advanceAfterIntake config row m) := by
  unfold advanceAfterIntake
  split
  · refine walks_then (walks_update (h.of_eq rfl rfl)) fun _ _ _ _ _ => ?_
    exact walks_ret_then nowIso_apply (walks_ret_then (emit_apply _) (walks_safeAudit _))
  · refine walks_then (walks_update (h.of_eq rfl rfl)) fun _ _ _ _ hsuffix => ?_
    have h := h.mono hsuffix
    refine walks_then (walks_safeAudit _) fun _ _ _ _ hsuffix => ?_
    exact walks_scheduleLayer ((h.mono hsuffix).of_eq rfl rfl)

theorem walks_advanceAfterFixes (h : Carries c tr row) :
    Walks config c tr m₀ (advanceAfterFixes config row m) := by
  refine walks_then (walks_ask trivial) fun _ _ _ fixes hsuffix => ?_
  have h := h.mono hsuffix
  -- The two branches that go on differ in the audit record and in the bit of the job.
  have happroves : ∀ {tr m₀ m} input auto, Carries c tr row → Walks config c tr m₀ ((do
      let _ ← store (.scansUpdate row.clientId { row with gateState := .autoApproved })
      safeAudit input
      scheduleLayer config { row with gateState := .autoApproved } .layer5 auto : Action Unit) m) := by
    intro tr m₀ m input auto h
    refine walks_then (walks_update (h.of_eq rfl rfl)) fun _ _ _ _ hsuffix => ?_
    have h := h.mono hsuffix
    refine walks_then (walks_safeAudit _) fun _ _ _ _ hsuffix => ?_
    exact walks_scheduleLayer ((h.mono hsuffix).of_eq rfl rfl)
  refine walks_ite (fun _ => ?_) fun _ => walks_ite (fun _ => ?_) fun _ => ?_
  · refine walks_then (walks_update (h.of_eq rfl rfl)) fun _ _ _ _ _ => ?_
    exact walks_ret_then nowIso_apply (walks_ret (emit_apply _))
  · exact happroves _ _ h
  · exact happroves _ _ h

theorem walks_advanceAfterLayer {layer : LayerId} (h : Carries c tr row) :
    Walks config c tr m₀ (advanceAfterLayer config row layer m) := by
  cases layer with
  | layer0 => exact walks_advanceAfterIntake h
  | layer1 | layer2 | layer3 => exact walks_scheduleLayer h
  | layer4 => exact walks_advanceAfterFixes h
  | layer5 => exact walks_finalizeComplete h

theorem walks_afterCheckpoint (h : Carries c tr row) :
    Walks config c tr m₀ (afterCheckpoint config job row meter m) := by
  refine walks_ret_then nowIso_apply (walks_ret_then (emit_apply _) ?_)
  refine walks_then (walks_call walks_auditLayer) fun _ _ _ _ hsuffix => ?_
  have h := h.mono hsuffix
  refine walks_then (walks_call (walks_enforceBudget h)) fun _ _ _ exceeded hsuffix => ?_
  have h := h.mono hsuffix
  refine walks_ite (fun _ => walks_ret rfl) fun _ => walks_read fun tr' m' fresh hsuffix hfresh => ?_
  refine walks_ret_then (isKilled_apply _) (walks_ite (fun _ => walks_ret rfl) fun _ => ?_)
  refine walks_ite (fun _ => walks_ret rfl) fun _ => walks_advanceAfterLayer ?_
  cases fresh with
  | none => exact h.mono hsuffix
  | some fresh => exact hfresh fresh rfl

/-- From the output of the runner on. -/
theorem walks_persistAndAdvance {output : RawOutput} (h : Carries (.runLayerJob job) tr row)
    (houtput : ∃ m ctx, ⟨m, .runLayer ctx, .ok output⟩ ∈ tr) :
    Walks config (.runLayerJob job) tr m₀ (persistAndAdvance config job row meter output m) := by
  refine walks_ret_then (getCache_apply _) (follows_then (Action.follows_call
    (follows_persistLayerOutput_carries h houtput fun tr₁ m₁ m₂ row' failure hsuffix h => ?_)))
  refine ⟨trivial, fun _ _ m₃ => ?_, fun _ _ _ => hsuffix.trans (List.suffix_cons _ _)⟩
  have hsuffix := hsuffix.trans (List.suffix_cons (⟨m₂, .tick, .ok ()⟩ : OpAwait) tr₁)
  have h := h.mono (List.suffix_cons (⟨m₂, .tick, .ok ()⟩ : OpAwait) tr₁)
  refine walks_after hsuffix ?_
  cases failure with
  | some err => exact walks_failScan h
  | none =>
    refine walks_then (walks_attempt walks_advanceResumeToken) fun _ _ _ saved hsuffix => ?_
    cases saved with
    | error err => exact walks_failScan (h.mono hsuffix)
    | ok _ => exact walks_afterCheckpoint (h.mono hsuffix)

theorem runLayerJob_walks (job : LayerJobData) :
    (runLayerJob config job).Obeys (targetProtocol config (.runLayerJob job)) := by
  intro m
  refine Outcome.Follows.mono (walks_ret_then (isKilled_apply _) (walks_ite (fun _ => walks_ret rfl)
    fun _ => walks_read fun tr m₁ found _ hfound => ?_)) (fun _ _ _ _ _ => trivial)
    fun _ _ _ _ _ => trivial
  cases found with
  | none => exact walks_ret rfl
  | some row =>
    have h := hfound row rfl
    refine walks_ret_then (setScanClient_apply _ _) (walks_ite (fun _ => walks_ret rfl) fun _ => ?_)
    refine walks_ret_then (signalFor_apply _) (walks_ret_then (getMeter_apply _) ?_)
    refine walks_ret_then (registerBudget_apply _ _ _) (walks_ret_then nowIso_apply ?_)
    refine walks_ret_then (emit_apply _) (follows_then (follows_attempt
      ((follows_retryFrom_answered _ _).mono (fun tr' _ _ output hrun => ?_)
        fun tr' _ _ err hsuffix => ?_)))
    · obtain ⟨hsuffix, houtput⟩ := hrun
      exact walks_after hsuffix (walks_persistAndAdvance (h.mono hsuffix) houtput)
    · refine walks_after hsuffix ?_
      refine walks_ret_then (abortReason?_apply _) (walks_ret_then (isKilled_apply _) ?_)
      exact walks_ite (fun _ => walks_ret rfl) fun _ => walks_failScan (h.mono hsuffix)

end Processor

/-- What only ever goes on keeps to the protocol. -/
theorem obeys_of_walks {p : Action Unit} (h : ∀ m, Walks config c [] m (p m)) :
    p.Obeys (targetProtocol config c) :=
  fun m => (h m).mono (fun _ _ _ _ _ => trivial) fun _ _ _ _ _ => trivial

/-- Every call keeps to the protocol. -/
theorem Deployment.body_walks (d : Deployment) (c : Call) :
    (d.body c).Obeys (targetProtocol d.config c) := by
  cases c with
  | createScan input id => exact obeys_of_walks fun _ => walks_createScan
  | start scanId => exact obeys_of_walks fun _ => walks_start
  | pause scanId => exact obeys_of_walks fun _ => walks_pause
  | resume scanId => exact obeys_of_walks fun _ => walks_resume
  | cancel scanId => exact obeys_of_walks fun _ => walks_cancel
  | kill signal => exact obeys_of_walks fun _ => walks_kill
  | remoteKill signal => exact obeys_of_walks fun _ => walks_handleRemoteKill
  | approveGate scanId gate approver => exact obeys_of_walks fun _ => walks_approveGate
  | runLayerJob job => exact runLayerJob_walks job
  | authorizeScanDast req => exact authorizeScanDast_walks d.hostOf req

/-- Every configuration a run reaches is lawful. -/
theorem Deployment.Reaches.targetsLawful {d : Deployment} {ok : PipelineConfig → PipelineStep → Prop}
    {cfg : PipelineConfig} (h : d.Reaches ok cfg) : cfg.Lawful (targetProtocol d.config) := by
  refine Reachable.lawful d.body_walks ?_ ?_ h
  · intro _ _ op ch m w
    exact d.perform_answers op ch m w
  · intro _ _ ht
    simp [initialConfig] at ht

end MontrSecure
