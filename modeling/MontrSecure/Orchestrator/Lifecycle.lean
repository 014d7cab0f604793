import MontrSecure.Orchestrator.Protocol

/-!
# The lifecycle calls keep to the protocol

One lemma for each helper the calls share, then one for each call of the controller and for the
authorize handler, each following the text of its program.
-/

namespace MontrSecure

open Async Action

variable {config : MontrConfig} {c : Call} {tr : OpTrace} {m₀ m : Memory}

/-- How a call may end. -/
abbrev Ends {α : Type} (tr : OpTrace) (m₀ m : Memory) (_ : α) : Prop :=
  KillsStep tr m₀.kills m.kills

/-! ## Scheduling -/

/-- The job `buildJob` makes. -/
theorem buildJob_eq_ok {row : Scan} {layer : LayerId} {auto : Option Bool} {job : LayerJobData}
    (h : buildJob config row layer auto = .ok job) :
    job.scanId = row.id ∧ job.clientId = row.clientId ∧
      job.idempotencyKey = buildIdempotencyKey row.id layer ∧ job.layer = layer ∧
      job.autoApply = if layer = .layer5 then some (auto.getD false) else none := by
  unfold buildJob at h
  cases layer <;> simp only at h
  case layer1 =>
    split at h
    · cases h
    · split at h <;> cases h
      exact ⟨rfl, rfl, rfl, rfl, rfl⟩
  all_goals
    split at h <;> cases h
    exact ⟨rfl, rfl, rfl, rfl, rfl⟩

/-- Enqueueing a job of `row` the call may schedule. -/
theorem follows_enqueueLayer {row : Scan} {layer : LayerId} {auto : Option Bool}
    (hstage : ∀ job, c = .runLayerJob job → stageOf tr = .advancing)
    (hkills : KillsStep tr m₀.kills m.kills) (hrow : rowOf tr = some row)
    (hschedules : ∀ job : LayerJobData, job.layer = layer →
      job.autoApply = (if layer = .layer5 then some (auto.getD false) else none) →
      Schedules config tr row c job) :
    (enqueueLayer config row layer auto m).Follows (pipelineProtocol config c) Ends Ends tr m₀ := by
  refine follows_then (follows_ofExcept (fun job hjob => ?_) fun _ _ => hkills)
  obtain ⟨hid, hclient, hkey, hlayer, hauto⟩ := buildJob_eq_ok hjob
  refine follows_ask ⟨fun j hj => ?_, hkills, row, hrow, hid, hclient, hlayer ▸ hkey,
    hschedules job hlayer hauto⟩ (fun _ _ _ => .keep) fun _ _ _ => .keep
  rw [hstage j hj]
  rfl

/-- Scheduling a layer of `row` the call may schedule, once it may put the gate of Layer 1 into its
working phase. -/
theorem follows_scheduleLayer {row : Scan} {layer : LayerId} {auto : Option Bool}
    (hstage : ∀ job, c = .runLayerJob job → stageOf tr = .advancing ∧ row.Live)
    (hkills : KillsStep tr m₀.kills m.kills) (hrow : rowOf tr = some row)
    (hwrites : layer = .layer1 → row.gateState ≠ .running →
      Writes config tr row c row.status .running)
    (hschedules : ∀ tr' row' job, Later tr tr' → row'.budgetPolicy = row.budgetPolicy →
      (row'.gateState = row.gateState ∨ row'.gateState = .running) →
      (layer = .layer1 → row'.gateState = .running) → job.layer = layer →
      job.autoApply = (if layer = .layer5 then some (auto.getD false) else none) →
      Schedules config tr' row' c job) :
    (scheduleLayer config row layer auto m).Follows (pipelineProtocol config c) Ends Ends tr m₀ := by
  unfold scheduleLayer
  split
  · rename_i henters
    refine follows_then (follows_store ⟨fun job hjob => ?_, hkills, row, hrow, rfl, ⟨rfl, rfl, rfl⟩,
      fun ⟨job, hjob⟩ => (hstage job hjob).2, hwrites henters.1 henters.2⟩ (fun a _ m' => ?_)
      fun _ _ => .keep)
    · rw [(hstage job hjob).1]
      rfl
    · refine follows_enqueueLayer (fun job hjob => ?_) .keep rfl fun job hlayer hauto => ?_
      · have hlive := (hstage job hjob).2.1
        simp [(hstage job hjob).1, JobStage.next, hlive, isPendingGate]
      · exact hschedules _ _ job (.cons rfl rfl .refl) rfl (.inr rfl) (fun _ => rfl) hlayer hauto
  · rename_i hskips
    refine follows_enqueueLayer (fun job hjob => (hstage job hjob).1) hkills hrow
      fun job hlayer hauto => ?_
    refine hschedules tr row job .refl rfl (.inl rfl) (fun h => ?_) hlayer hauto
    by_contra hgate
    exact hskips ⟨h, hgate⟩

/-! ## Ending a scan -/

/-- Completing `row`, which the call may write over what it holds. -/
theorem follows_finalizeComplete {old row : Scan} {partialReport : Bool}
    {post : OpTrace → Memory → Memory → Unit → Prop} {exc : OpTrace → Memory → Memory → Err → Prop}
    (hstage : ∀ job, c = .runLayerJob job →
      old.Live ∧ ∀ clientId scan, (stageOf tr).issues (.store (.scansUpdate clientId scan)) = true ∧
        ∀ r, isTerminalStatus scan.status = true →
          (stageOf tr).next (.store (.scansUpdate clientId scan)) r = .closing)
    (hkills : KillsStep tr m₀.kills m.kills) (hold : rowOf tr = some old) (hrow : row.Extends old)
    (hwrites : Writes config tr old c (if partialReport then .partialReport else .completed)
      row.gateState)
    (hpost : ∀ tr' m₀' m', (∀ job, c = .runLayerJob job → stageOf tr' = .closing) →
      KillsStep tr' m₀'.kills m'.kills → post tr' m₀' m' ())
    (hexc : ∀ x m' e, exc (x :: tr) m' m' e) :
    (finalizeComplete row partialReport m).Follows (pipelineProtocol config c) post exc tr m₀ := by
  refine follows_then (follows_of_ret (nowIso_apply) ?_)
  refine follows_then (follows_of_ret (safeActual_apply _) ?_)
  refine follows_then (follows_store ⟨fun job hjob => ((hstage job hjob).2 _ _).1, hkills, old, hold,
    hrow.clientId, ⟨hrow.id, hrow.clientId, hrow.budgetPolicy⟩, fun ⟨job, hjob⟩ => (hstage job hjob).1,
    hwrites⟩ (fun a _ m' => ?_) fun _ _ => hexc _ _ _)
  refine follows_then (follows_of_ret nowIso_apply ?_)
  refine follows_then (follows_of_ret (emit_apply _) ?_)
  have hclosing : ∀ job, c = .runLayerJob job →
      (stageOf tr).next (.store (.scansUpdate row.clientId
        { row with
          status := if partialReport then .partialReport else .completed
          finishedAt := some m.now
          costActual := (m.meters row.id).bind fun meter =>
            (m.meterHeap[meter]?).map (·.actual m.now) })) (.ok a) = .closing := by
    intro job hjob
    refine ((hstage job hjob).2 _ _).2 _ ?_
    cases partialReport <;> rfl
  refine follows_then (follows_safeAudit ⟨fun job hjob => ?_, .keep, trivial⟩ fun r m'' => ?_)
  · exact (congrArg (fun stage : JobStage => stage.issues _) (hclosing job hjob)).trans rfl
  · refine follows_of_ret (cleanup_apply _) (hpost _ _ _ (fun job hjob => ?_) (.clear rfl))
    exact (congrArg (fun stage : JobStage => stage.next _ r) (hclosing job hjob)).trans rfl

/-! ## Calls -/

/-- Every call about a scan begins by reading its row. -/
theorem follows_load {scanId : ScanId} {post : OpTrace → Memory → Memory → Scan → Prop}
    {exc : OpTrace → Memory → Memory → Err → Prop} (hscan : c.scanId? = some scanId)
    (hc : ∀ job, c ≠ .runLayerJob job)
    (hpost : ∀ x row m' m'', OpAwait.readRow? x = some row → rowOf [x] = some row →
      row.id = scanId → KillsStep [x] m'.kills m''.kills → m''.kills = m'.kills →
      post [x] m' m'' row)
    (hexc : ∀ x m' e, exc [x] m' m' e) :
    (load config scanId m).Follows (pipelineProtocol config c) post exc [] m := by
  refine follows_then (follows_of_ret (resolveClientId_apply _ _) ?_)
  refine follows_then (follows_store (awaits_of_ne hc .keep ⟨fun s hs => ?_, fun job hjob => ?_⟩)
    (fun row hr m' => ?_) fun e m' => hexc _ _ _)
  · rw [hscan] at hs
    exact Option.some.inj hs
  · exact absurd hjob (hc job)
  · cases row with
    | none => exact hexc _ _ _
    | some row =>
      refine follows_then (follows_of_ret (setScanClient_apply _ _) ?_)
      exact hpost _ row _ _ rfl rfl hr.1 .keep rfl

theorem createScan_obeys (input : CreateScanInput) (id : ScanId) :
    (createScan input id).Obeys (pipelineProtocol config (.createScan input id)) := by
  intro m
  refine follows_then (follows_of_ret nowIso_apply ?_)
  split
  · refine follows_then (follows_store (awaits_of_ne (by simp) .keep ⟨input, id, rfl, rfl, rfl⟩)
      (fun _ _ m' => ?_) fun _ _ => .keep)
    refine follows_then (follows_of_ret (setScanClient_apply _ _) ?_)
    exact follows_safeAudit (awaits_of_ne (by simp) .keep trivial) fun _ _ => .keep
  · exact .keep

theorem pause_obeys (scanId : ScanId) :
    (pause config scanId).Obeys (pipelineProtocol config (.pause scanId)) := by
  intro m
  refine follows_then (follows_load rfl (by simp) ?_ fun _ _ _ => .keep)
  intro x row m' m'' hx hrow hid hkills _
  split
  · exact hkills
  · rename_i hstatus
    refine follows_then (follows_store (awaits_of_ne (by simp) hkills ⟨row, hrow, rfl,
      ⟨rfl, rfl, rfl⟩, by simp, .pause (by simpa using hstatus)⟩) (fun _ _ _ => ?_) fun _ _ => .keep)
    exact follows_safeAudit (awaits_of_ne (by simp) .keep trivial) fun _ _ => .keep

theorem cancel_obeys (scanId : ScanId) :
    (cancel config scanId).Obeys (pipelineProtocol config (.cancel scanId)) := by
  intro m
  refine follows_then (follows_load rfl (by simp) ?_ fun _ _ _ => .keep)
  rintro x row m' m'' hx hrow rfl hkills hsame
  split
  · exact hkills
  · rename_i hstatus
    refine follows_then (follows_of_ret (modify_apply _) ?_)
    refine follows_then (follows_of_ret nowIso_apply ?_)
    refine follows_then (follows_of_ret (safeActual_apply _) ?_)
    refine follows_then (follows_store (awaits_of_ne (by simp) (hsame ▸ .abortScan _ _) ⟨row, hrow,
      rfl, ⟨rfl, rfl, rfl⟩, by simp, ?_⟩) (fun _ _ _ => ?_) fun _ _ => .keep)
    · have hgate : (row.gateState = .estimatePending ∨ row.gateState = .fixGatePending) ↔
          isPendingGate row.gateState = true := by
        cases row.gateState <;> simp [isPendingGate]
      simp only [hgate]
      exact .cancel (by simpa using hstatus)
    · refine follows_then (follows_safeAudit (awaits_of_ne (by simp) .keep trivial) fun _ _ => ?_)
      exact follows_of_ret (cleanup_apply _) (.clear rfl)

theorem follows_blockRow {row : Scan} {signal : KillSwitchSignal} {at_ : IsoDateTime}
    {post : OpTrace → Memory → Memory → Unit → Prop}
    (hc : c = .kill signal ∨ c = .remoteKill signal) (hrow : rowOf tr = some row)
    (hkills : KillsStep tr m₀.kills m.kills)
    (hpost : ∀ tr' m₀' m', KillsStep tr' m₀'.kills m'.kills → post tr' m₀' m' ()) :
    (blockRow row at_ m).Follows (pipelineProtocol config c) post Ends tr m₀ := by
  have hne : ∀ job, c ≠ .runLayerJob job := by
    rintro job rfl
    simp at hc
  unfold blockRow
  split
  · exact hpost _ _ _ hkills
  · rename_i hstatus
    refine follows_then (follows_of_ret (safeActual_apply _) ?_)
    refine follows_then (follows_store (awaits_of_ne hne hkills ⟨row, hrow, rfl, ⟨rfl, rfl, rfl⟩,
      fun ⟨job, hjob⟩ => absurd hjob (hne job), ?_⟩) (fun _ _ _ => hpost _ _ _ .keep)
      fun _ _ => .keep)
    have hstatus : isTerminalStatus row.status = false := by simpa using hstatus
    obtain rfl | rfl := hc
    · exact .kill hstatus
    · exact .remoteKill hstatus

/-- Blocking a scan that was killed. -/
theorem follows_blockKilled {scanId : ScanId} {signal : KillSwitchSignal} {at_ : IsoDateTime}
    {post : OpTrace → Memory → Memory → Unit → Prop}
    (hc : c = .kill signal ∨ c = .remoteKill signal) (hkills : KillsStep tr m₀.kills m.kills)
    (hpost : ∀ tr' m₀' m', KillsStep tr' m₀'.kills m'.kills → post tr' m₀' m' ()) :
    (blockKilled config scanId signal at_ m).Follows (pipelineProtocol config c) post Ends tr m₀ := by
  have hne : ∀ job, c ≠ .runLayerJob job := by
    rintro job rfl
    simp at hc
  have hscan : c.scanId? = none := by
    obtain rfl | rfl := hc <;> rfl
  refine follows_then (follows_of_ret (resolveClientId_apply _ _) ?_)
  refine follows_then (follows_store (awaits_of_ne hne hkills
    ⟨by simp [hscan], fun job hjob => absurd hjob (hne job)⟩) (fun row hr m' => ?_) fun _ _ => .keep)
  cases row with
  | none => exact hpost _ _ _ .keep
  | some row =>
    refine follows_then (follows_of_ret (setScanClient_apply _ _) ?_)
    refine follows_then (follows_blockRow hc rfl .keep fun tr' m₀' m' hkills' => ?_)
    refine follows_then (follows_of_ret (emit_apply _) ?_)
    refine follows_then (follows_safeAudit (awaits_of_ne hne hkills' trivial) fun _ _ => ?_)
    refine follows_then (follows_safeAudit (awaits_of_ne hne .keep trivial) fun _ _ => ?_)
    exact follows_of_ret (cleanup_apply _) (hpost _ _ _ (.clear rfl))

/-- Blocking the scans of a global kill, one after the other. -/
theorem follows_blockAllKilled {signal : KillSwitchSignal} {at_ : IsoDateTime}
    {post : OpTrace → Memory → Memory → Unit → Prop}
    (hc : c = .kill signal ∨ c = .remoteKill signal)
    (hpost : ∀ tr' m₀' m', KillsStep tr' m₀'.kills m'.kills → post tr' m₀' m' ())
    (scanIds : List ScanId) (hkills : KillsStep tr m₀.kills m.kills) :
    (blockAllKilled config signal at_ scanIds m).Follows (pipelineProtocol config c) post Ends
      tr m₀ := by
  induction scanIds generalizing tr m₀ m with
  | nil => exact hpost _ _ _ hkills
  | cons scanId scanIds ih =>
    exact follows_then (follows_blockKilled hc hkills fun _ _ _ hkills' => ih hkills')

theorem kill_obeys (signal : KillSwitchSignal) :
    (kill config signal).Obeys (pipelineProtocol config (.kill signal)) := by
  intro m
  refine follows_then (follows_of_ret nowIso_apply ?_)
  cases hscope : signal.scope with
  | global =>
    refine follows_then (follows_of_ret get_apply ?_)
    refine follows_then (follows_of_ret (modify_apply _) ?_)
    refine follows_then (follows_ask (awaits_of_ne (by simp) (.abortAll _) ⟨rfl, rfl, ?_⟩)
      (fun _ _ _ => ?_) fun _ _ _ => .keep)
    · simp [hscope]
    · refine follows_then (follows_blockAllKilled (.inl rfl) (fun tr' m₀' m' hkills => ?_) _ .keep)
      exact follows_safeAudit (awaits_of_ne (by simp) hkills trivial) fun _ _ => .keep
  | scan =>
    cases hscan : signal.scanId with
    | none => exact .keep
    | some scanId =>
      refine follows_then (follows_of_ret (modify_apply _) ?_)
      refine follows_then (follows_ask (awaits_of_ne (by simp) (.abortScan _ _) ⟨rfl, rfl, ?_⟩)
        (fun _ _ _ => ?_) fun _ _ _ => .keep)
      · simp [hscope, hscan]
      · exact follows_blockKilled (.inl rfl) .keep fun _ _ _ hkills => hkills

theorem handleRemoteKill_obeys (signal : KillSwitchSignal) :
    (handleRemoteKill config signal).Obeys (pipelineProtocol config (.remoteKill signal)) := by
  intro m
  refine follows_then (follows_of_ret nowIso_apply ?_)
  cases hscope : signal.scope with
  | global =>
    refine follows_then (follows_of_ret get_apply ?_)
    refine follows_then (follows_of_ret (modify_apply _) ?_)
    exact follows_blockAllKilled (.inr rfl) (fun _ _ _ hkills => hkills) _ (.abortAll _)
  | scan =>
    cases hscan : signal.scanId with
    | none => exact .keep
    | some scanId =>
      refine follows_then (follows_of_ret (modify_apply _) ?_)
      exact follows_blockKilled (.inr rfl) (.abortScan _ _) fun _ _ _ hkills => hkills

/-- Starting the scheduler, once. -/
theorem follows_ensureSchedulerStarted {post : OpTrace → Memory → Memory → Unit → Prop}
    (hc : ∀ job, c ≠ .runLayerJob job) (hkills : KillsStep tr m₀.kills m.kills)
    (hpost : ∀ tr' m', Later tr tr' → rowOf tr' = rowOf tr → post tr' m' m' ()) :
    (call ensureSchedulerStarted m).Follows (pipelineProtocol config c) post Ends tr m₀ := by
  have htick : (∃ job, c = .runLayerJob job) → LetsGoOn config tr m := fun ⟨job, hjob⟩ =>
    absurd hjob (hc job)
  refine follows_call (follows_then (follows_of_ret get_apply ?_))
  split
  · exact ⟨awaits_of_ne hc hkills htick, fun m' => hpost _ _ (.cons rfl rfl .refl) rfl⟩
  · refine follows_then (follows_of_ret (modify_apply _) ?_)
    refine follows_ask (awaits_of_ne hc hkills trivial) (fun _ _ m' => ⟨awaits_of_ne hc .keep ?_,
      fun m'' => hpost _ _ (.cons rfl rfl (.cons rfl rfl .refl)) rfl⟩) fun _ _ _ => .keep
    exact fun ⟨job, hjob⟩ => absurd hjob (hc job)

theorem start_obeys (scanId : ScanId) :
    (start config scanId).Obeys (pipelineProtocol config (.start scanId)) := by
  intro m
  refine follows_then (follows_load rfl (by simp) ?_ fun _ _ _ => .keep)
  rintro x row m' m'' hx hrow rfl hkills hsame
  split
  · exact hkills
  · rename_i hstatus
    have hstatus : row.status = .queued := by simpa using hstatus
    refine follows_then (follows_of_ret get_apply ?_)
    split
    · exact hkills
    · refine follows_then (follows_of_ret (register_apply _) ?_)
      refine follows_then (follows_ensureSchedulerStarted (by simp) (hsame ▸ .register _) ?_)
      intro tr m₁ _ hrow'
      rw [hrow] at hrow'
      refine follows_then (follows_of_ret nowIso_apply ?_)
      refine follows_then (follows_store (awaits_of_ne (by simp) .keep ⟨row, hrow', rfl,
        ⟨rfl, rfl, rfl⟩, by simp, .start hstatus⟩) (fun _ _ _ => ?_) fun _ _ => .keep)
      refine follows_then (follows_of_ret nowIso_apply ?_)
      refine follows_then (follows_store (awaits_of_ne (by simp) .keep ⟨_, rfl, rfl, rfl, .start rfl⟩)
        (fun _ _ _ => ?_) fun _ _ => .keep)
      refine follows_then (follows_of_ret nowIso_apply ?_)
      refine follows_then (follows_of_ret (emit_apply _) ?_)
      refine follows_then (follows_safeAudit (awaits_of_ne (by simp) .keep trivial) fun _ _ => ?_)
      refine follows_scheduleLayer (by simp) .keep rfl (by simp) ?_
      intro tr' row' job _ _ _ _ hlayer _
      exact .start hlayer

/-- Going on from the layer after the last one completed, but never past a pending gate. -/
theorem follows_resumeFrom {scanId : ScanId} {row : Scan} {token : Option ResumeToken}
    (hrow : rowOf tr = some row) (htoken : tokenOf tr = some token)
    (hstatus : row.status = .running) :
    (resumeFrom config row (completedLayers token) m).Follows
      (pipelineProtocol config (.resume scanId)) Ends Ends tr m := by
  unfold resumeFrom
  split
  · refine follows_then (follows_of_ret nowIso_apply ?_)
    exact .keep
  · split
    · refine follows_then (follows_of_ret nowIso_apply ?_)
      exact .keep
    · rename_i hestimate hfix
      have hgate : isPendingGate row.gateState = false := by
        cases hg : row.gateState <;> simp_all [isPendingGate]
      cases hnext : nextLayer (completedLayers token) with
      | none =>
        exact follows_finalizeComplete (by simp) .keep hrow ⟨rfl, rfl, rfl⟩
          (.resumeCompletes htoken hnext hgate) (fun _ _ _ _ hkills => hkills) fun _ _ _ => .keep
      | some next =>
        refine follows_then (follows_of_ret nowIso_apply ?_)
        refine follows_then (follows_of_ret (emit_apply _) ?_)
        refine follows_scheduleLayer (by simp) .keep hrow (fun hlayer _ => ?_) ?_
        · exact .resumeEnters htoken (hlayer ▸ hnext) hgate hstatus
        · intro tr' row' job hlater _ hgate' henters hlayer hauto
          subst hlayer
          refine .resume (hlater.token.trans htoken) hnext ?_ henters ?_
          · obtain h | h := hgate' <;> rw [h]
            · exact hgate
            · rfl
          · rw [hauto]
            split <;> simp

theorem resume_obeys (scanId : ScanId) :
    (resume config scanId).Obeys (pipelineProtocol config (.resume scanId)) := by
  intro m
  refine follows_then (follows_load rfl (by simp) ?_ fun _ _ _ => .keep)
  rintro x row m' m'' hx hrow rfl hkills hsame
  refine follows_then (follows_of_ret (isKilled_apply _) ?_)
  split
  · exact hkills
  · split
    · exact hkills
    · rename_i hstatus
      obtain ⟨hcompleted, hcancelled⟩ := not_or.mp hstatus
      refine follows_then (follows_store (awaits_of_ne (by simp) hkills ⟨row, hrow, rfl, rfl⟩)
        (fun token _ m₁ => ?_) fun _ _ => .keep)
      refine follows_then (follows_of_ret (register_apply _) ?_)
      refine follows_then (follows_ensureSchedulerStarted (by simp) (.register _) ?_)
      intro tr m₂ hlater hrow'
      have hrow' : rowOf tr = some row := hrow'.trans hrow
      refine follows_then (follows_store (awaits_of_ne (by simp) .keep ⟨row, hrow', rfl,
        ⟨rfl, rfl, rfl⟩, by simp, .resumed hcompleted hcancelled⟩) (fun _ _ _ => ?_) fun _ _ => .keep)
      refine follows_then (follows_safeAudit (awaits_of_ne (by simp) .keep trivial) fun _ _ => ?_)
      exact follows_resumeFrom rfl hlater.token rfl

theorem approveGate_obeys (scanId : ScanId) (gate : Gate) (approver : EntityId) :
    (approveGate config scanId gate approver).Obeys
      (pipelineProtocol config (.approveGate scanId gate approver)) := by
  intro m
  refine follows_then (follows_load rfl (by simp) ?_ fun _ _ _ => .keep)
  rintro x row m' m'' hx hrow rfl hkills hsame
  split
  · exact hkills
  · rename_i hstatus
    have hstatus : isTerminalStatus row.status = false := by simpa using hstatus
    have hread : ReadAt row.gateState [x] := .of_readRow? hx hstatus
    cases gate with
    | estimate =>
      split
      · exact hkills
      · rename_i hgate
        have hgate : row.gateState = .estimatePending := by simpa using hgate
        rw [hgate] at hread
        refine follows_then (follows_store (awaits_of_ne (by simp) hkills ⟨row, hrow, rfl,
          ⟨rfl, rfl, rfl⟩, by simp, .approvesEstimate hread⟩) (fun _ _ _ => ?_) fun _ _ => .keep)
        refine follows_then (follows_safeAudit (awaits_of_ne (by simp) .keep trivial) fun _ _ => ?_)
        refine follows_scheduleLayer (by simp) .keep rfl (fun _ _ => ?_) ?_
        · exact .approvalEnters hread.cons.cons rfl
        · intro tr' row' job hlater _ _ _ hlayer _
          exact .estimateApproved (hlater.read _ hread.cons.cons) hlayer
    | fix =>
      dsimp only
      split
      · exact hkills
      · rename_i hgate
        have hgate : row.gateState = .fixGatePending := by simpa using hgate
        rw [hgate] at hread
        refine follows_then (follows_store (awaits_of_ne (by simp) hkills ⟨row, hrow, rfl,
          ⟨rfl, rfl, rfl⟩, by simp, .approvesFix hread hstatus⟩) (fun _ _ _ => ?_) fun _ _ => .keep)
        refine follows_then (follows_safeAudit (awaits_of_ne (by simp) .keep trivial) fun _ _ => ?_)
        refine follows_scheduleLayer (by simp) .keep rfl (by simp) ?_
        intro tr' row' job hlater _ _ _ hlayer hauto
        exact .fixApproved (hlater.read _ hread.cons.cons) hlayer hauto

/-- Finding the target reads nothing of the scan. -/
theorem follows_findOrCreateTarget {req : AuthorizeRequest}
    {post : OpTrace → Memory → Memory → DastTarget → Prop}
    (hpost : ∀ tr' m' target, rowOf tr' = rowOf tr → post tr' m' m' target) :
    (findOrCreateTarget req m).Follows (pipelineProtocol config (.authorizeScanDast req)) post Ends
      tr m := by
  refine follows_then (follows_store (awaits_of_ne (by simp) .keep trivial) (fun existing _ m' => ?_)
    fun _ _ => .keep)
  cases existing with
  | some target => exact hpost _ _ _ rfl
  | none =>
    refine follows_then (follows_of_ret nowIso_apply ?_)
    exact follows_store (awaits_of_ne (by simp) .keep trivial) (fun _ _ _ => hpost _ _ _ rfl)
      fun _ _ => .keep

theorem authorizeScanDast_obeys (hostOf : String → Option String) (req : AuthorizeRequest) :
    (authorizeScanDast config hostOf req).Obeys
      (pipelineProtocol config (.authorizeScanDast req)) := by
  intro m
  refine follows_then (follows_store (awaits_of_ne (by simp) .keep
    ⟨fun s hs => Option.some.inj hs, by simp⟩) (fun row hr m₁ => ?_) fun _ _ => .keep)
  cases row with
  | none => exact .keep
  | some row =>
    obtain ⟨-, hclient⟩ : row.id = req.scanId ∧ row.clientId = req.clientId := hr
    dsimp only
    split
    · refine follows_then (follows_findOrCreateTarget fun tr' m₂ target hrow => ?_)
      have hrow : rowOf tr' = some row := hrow
      refine follows_then (follows_of_ret nowIso_apply ?_)
      refine follows_then (follows_store (awaits_of_ne (by simp) .keep trivial) (fun _ _ _ => ?_)
        fun _ _ => .keep)
      refine follows_then (follows_store (awaits_of_ne (by simp) .keep ⟨row, hrow, hclient.symm,
        ⟨rfl, rfl, rfl⟩, by simp, .authorizes⟩) (fun _ _ _ => ?_) fun _ _ => .keep)
      exact follows_store (awaits_of_ne (by simp) .keep trivial) (fun _ _ _ => .keep) fun _ _ => .keep
    · exact .keep

end MontrSecure
