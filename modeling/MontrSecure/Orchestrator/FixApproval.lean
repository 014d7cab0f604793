import MontrSecure.Orchestrator.FixGate

/-!
# Granted fix approvals

Once an approver has approved the fixes of a scan, every Layer 5 job of it should open their pull
requests. The bit that says so lives in the job alone, and `resume` makes a job without it. So an
approval is kept exactly in the runs where no such job comes in between, `KeepsApproval`:
`autoApply_of_executed`.

That the Layer 4 jobs cannot go back on an approval rests on the database: a fix that passes the bar
is never taken away, and its risk class never changes.
-/

namespace MontrSecure

open Async

variable {d : Deployment} {ok : PipelineConfig → PipelineStep → Prop} {cfg cfg' : PipelineConfig}
  {n : ℕ} {t : PipelineTask} {config : MontrConfig} {scanId : ScanId} {history : List PipelineStep}
  {e : PipelineStep}

/-! ## Approvals -/

/-- The gate of the scan has become `approved` through an approval of the fixes, or `auto_approved`
through the branch after Layer 4 that opens pull requests. -/
inductive FixGranted (config : MontrConfig) (scanId : ScanId) (history : List PipelineStep) :
    Prop where
  | approved {n : ℕ} {approver : EntityId} {clientId : ClientId} {row r : Scan}
      (hwrite : .performed n (.approveGate scanId .fix approver)
        (.store (.scansUpdate clientId row)) (.ok r) ∈ history)
  | opened {n : ℕ} {job : LayerJobData} {clientId : ClientId} {row r : Scan}
      (hwrite : .performed n (.runLayerJob job) (.store (.scansUpdate clientId row)) (.ok r) ∈
        history) (hgate : row.gateState = .autoApproved) (hscan : job.scanId = scanId)
      {clientId' : ClientId} {s : ScanId} {fixes : List Fix}
      (hread : .performed n (.runLayerJob job) (.store (.fixesListByScan clientId' s)) (.ok fixes) ∈
        history) (hopen : (evaluateFixGate fixes config).wouldOpenPrs = true)

theorem FixesReady.mono {history' : List PipelineStep} (h : FixesReady config scanId history)
    (hsub : ∀ e ∈ history, e ∈ history') : FixesReady config scanId history' :=
  ⟨h.1, h.2.imp fun _ he => ⟨hsub _ he.1, he.2⟩⟩

/-- Approvals are granted only where Layer 4 has left something to approve. -/
theorem FixGranted.fixesReady (hreach : d.Reaches ok cfg)
    (h : FixGranted d.config scanId cfg.history) : FixesReady d.config scanId cfg.history := by
  cases h with
  | approved hwrite =>
    obtain ⟨post, pre, hhistory⟩ := List.append_of_mem hwrite
    obtain ⟨before, after, hbefore, -, hstep, rfl⟩ := hreach.exists_step rfl hhistory
    obtain ⟨t, m, k, m₀, ht, hcall, -, -, -, old, -, -, -, -, hwrites⟩ :=
      hstep.awaited (Deployment.Reaches.lawful hbefore)
    have hread : ReadAt .fixGatePending t.trace := by
      generalize Scan.status _ = status, Scan.gateState _ = gate at hwrites
      cases hwrites with
      | approvesFix hread _ => exact hread
    obtain ⟨clientId, read, -, hholds, hid, hgate, -⟩ :=
      exists_of_readAt hbefore ht (by rw [hcall]; rfl) hread
    have hready : FixesReady d.config read.id before.history :=
      Deployment.Reaches.fixKnown hbefore read.item hholds hgate
    rw [hid] at hready
    exact hready.mono fun e he => by simp [hhistory, he]
  | opened hwrite hgate hscan hread hopen =>
    obtain ⟨henabled, heligible⟩ := (evaluateFixGate_wouldOpenPrs_iff _ _).mp hopen
    obtain ⟨post, pre, hhistory⟩ := List.append_of_mem hread
    obtain ⟨before, after, hbefore, -, hstep, -⟩ := hreach.exists_step rfl hhistory
    have hlawful := Deployment.Reaches.lawful hbefore
    obtain ⟨t, m, k, m₀, ht, hcall, -, -, -, row, hrow, -, hs, job', hjob', hlayer⟩ :=
      hstep.awaited hlawful
    cases hjob'
    have hid : row.id = _ := rowOf_id (hcall ▸ hlawful.conforms ht) rfl hrow
    exact ⟨henabled, _, hread, hscan, hlayer, (hs.trans hid).trans hscan, heligible⟩

/-! ## Fixes stay -/

/-- The scan has a persisted fix that passes the bar. -/
def EligiblePersisted (config : MontrConfig) (scanId : ScanId) (db : Database) : Prop :=
  ∃ f ∈ db.fixes.rows, f.scanId = scanId ∧ isAutoEligible config f = true ∧
    ∃ row, db.scans.get? scanId = some row ∧ row.clientId = f.clientId

theorem EligiblePersisted.step (h : EligiblePersisted config scanId cfg.world.db)
    (hstep : Step d.system cfg e cfg') (hknown : Known Registered cfg) :
    EligiblePersisted config scanId cfg'.world.db := by
  obtain ⟨f, hf, hscan, heligible, row, hrow, hclient⟩ := h
  obtain ⟨f', hf', hclient', hscan', hclass⟩ :=
    get?_fix_of_step hstep hknown (Table.get?_of_mem hf)
  obtain ⟨row', hrow', hclient'', -⟩ := get?_of_step hstep hknown hrow
  refine ⟨f', Table.mem_of_get? hf', hscan'.trans hscan, ?_, row', hrow', ?_⟩
  · rw [isAutoEligible, hclass]
    exact heligible
  · rw [hclient'', hclient, hclient']

/-- Once a Layer 4 job has found such a fix, there is one. -/
theorem Deployment.Reaches.eligiblePersisted (hreach : d.Reaches ok cfg) {e : PipelineStep}
    (he : e ∈ cfg.history) (hfinds : FindsEligible d.config scanId e) :
    EligiblePersisted d.config scanId cfg.world.db := by
  induction hreach with
  | start => cases he
  | @step cfg cfg' e' hreach hok hstep ih =>
    have hknown := Deployment.Reaches.registered hreach
    rw [hstep.history] at he
    obtain rfl | he := List.mem_cons.mp he
    · unfold FindsEligible at hfinds
      split at hfinds
      · obtain ⟨rfl, -, rfl, f, hf, heligible⟩ := hfinds
        have hlawful := Deployment.Reaches.lawful hreach
        obtain ⟨t, m, k, m₀, ht, hcall, -, -, -, row, hrow, hclient, hscan, -⟩ :=
          hstep.awaited hlawful
        obtain ⟨row', hrow', hclient', -⟩ := hknown row.item (holds_of_rowOf ht hrow)
        have hexec := exec_of_performed hstep
        injection hexec with hexec
        obtain ⟨hfixes, hdb⟩ := Prod.mk.inj hexec
        rw [← hfixes] at hf
        simp only [FixRepository.listByScan, List.mem_filter, Bool.and_eq_true,
          decide_eq_true_eq] at hf
        obtain ⟨hf, hfclient, hfscan⟩ := hf
        rw [← hdb]
        refine ⟨f, hf, hfscan, heligible, row', ?_, ?_⟩
        · rw [hscan]
          exact hrow'
        · rw [hclient', hfclient, hclient]
      · cases hfinds
    · exact (ih he).step hstep hknown

/-! ## Jobs without the bit -/

theorem JobStage.ne_closing_of_next {stage : JobStage} {op : Op} {r : op.Ans}
    (h : stage.next op r ≠ .closing) : stage ≠ .closing := by
  rintro rfl
  exact h rfl

/-- No Layer 5 job of the scan lacks the bit, and no Layer 4 job is about to schedule one that
does. -/
structure NoUnapproved (config : MontrConfig) (scanId : ScanId) (cfg : PipelineConfig) : Prop where
  queued : ∀ job, cfg.world.HasJob job → job.scanId = scanId → job.layer = .layer5 →
    job.autoApply = some true
  processed : ∀ (n : ℕ) (t : PipelineTask) (job : LayerJobData), cfg.tasks[n]? = some t →
    t.running = true → t.call = .runLayerJob job → job.scanId = scanId → job.layer = .layer5 →
    (stageOf t.trace).beforeOutput = true → job.autoApply = some true
  advancing : ∀ (n : ℕ) (t : PipelineTask) (job : LayerJobData) (fixes : List Fix),
    cfg.tasks[n]? = some t → t.running = true → t.call = .runLayerJob job → job.scanId = scanId →
    stageOf t.trace ≠ .closing → fixesOf t.trace = some fixes →
    (evaluateFixGate fixes config).wouldOpenPrs = true

/-- What keeps the approval of a scan: once it is granted, no `resume` puts a Layer 5 job into the
queue, and it is not granted while one without the bit is still under way. -/
def KeepsApproval (d : Deployment) (scanId : ScanId) (cfg : PipelineConfig) (e : PipelineStep) :
    Prop :=
  (FixGranted d.config scanId cfg.history →
    ∀ n s job policy, e = .performed n (.resume s) (.enqueue job policy) (.ok ()) →
      job.scanId = scanId → job.layer = .layer5 → d.enqueue job cfg.world = cfg.world) ∧
  (¬FixGranted d.config scanId cfg.history → FixGranted d.config scanId (e :: cfg.history) →
    NoUnapproved d.config scanId cfg)

/-- Only a write grants an approval. -/
theorem FixGranted.of_enqueue {c : Call} {job : LayerJobData} {policy : RetryPolicy}
    {r : (Op.enqueue job policy).Ans}
    (h : FixGranted config scanId (.performed n c (.enqueue job policy) r :: history)) :
    FixGranted config scanId history := by
  cases h with
  | approved hwrite =>
    obtain h | hwrite := List.mem_cons.mp hwrite
    · cases h
    · exact .approved hwrite
  | opened hwrite hgate hscan hread hopen =>
    obtain h | hwrite := List.mem_cons.mp hwrite
    · cases h
    · obtain h | hread := List.mem_cons.mp hread
      · cases h
      · exact .opened hwrite hgate hscan hread hopen

/-- What a Layer 4 job reads once there is a fix that passes the bar. -/
theorem wouldOpenPrs_of_eligiblePersisted {job : LayerJobData} {clientId : ClientId} {s : ScanId}
    {fixes : List Fix} (hreach : d.Reaches ok cfg) (henabled : d.config.autoFix.enabled = true)
    (heligible : EligiblePersisted d.config job.scanId cfg'.world.db)
    (hstep : Step d.system cfg
      (.performed n (.runLayerJob job) (.store (.fixesListByScan clientId s)) (.ok fixes)) cfg') :
    (evaluateFixGate fixes d.config).wouldOpenPrs = true := by
  have hlawful := Deployment.Reaches.lawful hreach
  obtain ⟨t, m, k, m₀, ht, hcall, -, -, -, row, hrow, hclient, hs, -⟩ := hstep.awaited hlawful
  have hid : row.id = job.scanId := rowOf_id (hcall ▸ hlawful.conforms ht) rfl hrow
  obtain ⟨row', hrow', hclient', -⟩ :=
    Deployment.Reaches.registered hreach row.item (holds_of_rowOf ht hrow)
  have hexec := exec_of_performed hstep
  injection hexec with hexec
  obtain ⟨hfixes, hdb⟩ := Prod.mk.inj hexec
  rw [← hdb] at heligible
  obtain ⟨f, hf, hscan, hbar, old, hold, hfclient⟩ := heligible
  rw [hid, hold] at hrow'
  cases hrow'
  refine (evaluateFixGate_wouldOpenPrs_iff _ _).mpr ⟨henabled, f, ?_, hbar⟩
  rw [← hfixes, FixRepository.listByScan]
  refine List.mem_filter.mpr ⟨hf, ?_⟩
  simp [hs, hid, hscan, hclient, ← hclient', hfclient]

/-- Once an approval is granted, a step makes no job without the bit unless `resume` does. -/
theorem NoUnapproved.step (h : NoUnapproved d.config scanId cfg) (hreach : d.Reaches ok cfg)
    (hstep : Step d.system cfg e cfg') (henabled : d.config.autoFix.enabled = true)
    (heligible : EligiblePersisted d.config scanId cfg'.world.db)
    (hresume : ∀ n s job policy, e = .performed n (.resume s) (.enqueue job policy) (.ok ()) →
      job.scanId = scanId → job.layer = .layer5 → d.enqueue job cfg.world = cfg.world) :
    NoUnapproved d.config scanId cfg' := by
  have hlawful := Deployment.Reaches.lawful hreach
  refine ⟨?_, ?_, ?_⟩
  · -- A job comes into a queue: whose is it?
    intro job hjob hscan hlayer
    obtain hjob | ⟨n, t, m, policy, k, rfl, ht, hphase⟩ := step_hasJob hstep hjob
    · exact h.queued job hjob hscan hlayer
    · obtain ⟨m₀, -, -, row, hrow, hid, -, -, hschedules⟩ := hlawful.waiting ht hphase
      have hworld := enqueue_of_performed hstep
      have hrunning : t.running = true := by simp [Task.running, hphase]
      have hissues : ∀ j, t.call = .runLayerJob j → (stageOf t.trace).issues (.enqueue job policy) = true := by
        obtain ⟨m₀, hstage, -⟩ := hlawful.waiting ht hphase
        exact hstage
      generalize hcall : t.call = c at hschedules
      cases hschedules with
      | start hl | estimateApproved _ hl | afterIntake _ hl =>
        rw [hlayer] at hl
        cases hl
      | @resume s =>
        rw [hresume n s job policy (by rw [hcall]) hscan hlayer] at hworld
        exact h.queued job (hworld ▸ hjob) hscan hlayer
      | fixApproved _ _ hauto => exact hauto
      | afterLayer hj hl =>
        rw [hlayer] at hl
        obtain hj | hj | hj := hj <;> rw [hj] at hl <;> cases hl
      | @afterFixes j _ fixes hj _ hfixes hauto hopen =>
        have hclosing : stageOf t.trace ≠ .closing := by
          intro hstage
          have := hissues j hcall
          rw [hstage] at this
          cases this
        have hj' : j.scanId = scanId := by
          have := rowOf_id (hcall ▸ hlawful.conforms ht) rfl hrow
          rw [← this, ← hid, hscan]
        rw [hauto, h.advancing n t j fixes ht hrunning hcall hj' hclosing hfixes]
  · intro n u job hu hrunning hcall hscan hlayer hstage
    obtain ⟨rfl, -, -⟩ | hu | ⟨t, ht, htcall, hcases⟩ := hstep.task hu
    · -- The job is delivered.
      cases hstep with
      | enter henter =>
        rw [hcall] at henter
        exact h.queued job (Deployment.hasJob_of_enter henter) hscan hlayer
    · exact h.processed n u job hu hrunning hcall hscan hlayer hstage
    · rw [hcall] at htcall
      obtain ⟨p, op, q, -, hphase, -, htrace, -⟩ | ⟨m, op, q, r, -, hphase, htrace, -⟩ |
        ⟨-, hfinished⟩ := hcases
      · rw [htrace] at hstage
        exact h.processed n t job ht (by simp [Task.running, hphase]) htcall hscan hlayer hstage
      · rw [htrace] at hstage
        exact h.processed n t job ht (by simp [Task.running, hphase]) htcall hscan hlayer
          (JobStage.beforeOutput_of_next hstage)
      · simp [Task.running, hfinished] at hrunning
  · intro n u job fixes hu hrunning hcall hscan hstage hfixes
    obtain ⟨-, htrace, -⟩ | hu | ⟨t, ht, htcall, hcases⟩ := hstep.task hu
    · rw [htrace] at hfixes
      cases hfixes
    · exact h.advancing n u job fixes hu hrunning hcall hscan hstage hfixes
    · rw [hcall] at htcall
      obtain ⟨p, op, q, -, hphase, -, htrace, -⟩ | ⟨m, op, q, r, rfl, hphase, htrace, -⟩ |
        ⟨-, hfinished⟩ := hcases
      · rw [htrace] at hstage hfixes
        exact h.advancing n t job fixes ht (by simp [Task.running, hphase]) htcall hscan hstage
          hfixes
      · rw [htrace] at hstage hfixes
        have hrunning' : t.running = true := by simp [Task.running, hphase]
        rw [fixesOf, List.findSome?_cons] at hfixes
        split at hfixes
        · -- The fixes have just been read.
          cases hfixes
          rename_i hx
          unfold OpAwait.fixes? at hx
          split at hx
          · rename_i clientId s fixes' hx'
            cases hx'
            cases hx
            subst hscan
            rw [htcall] at hstep
            exact wouldOpenPrs_of_eligiblePersisted hreach henabled heligible hstep
          · cases hx
        · exact h.advancing n t job fixes ht hrunning' htcall hscan
            (JobStage.ne_closing_of_next hstage) hfixes
      · simp [Task.running, hfinished] at hrunning

/-- While the approval is kept, no job without the bit is under way. -/
theorem Deployment.Reaches.noUnapproved (hreach : d.Reaches (KeepsApproval d scanId) cfg)
    (hgranted : FixGranted d.config scanId cfg.history) : NoUnapproved d.config scanId cfg := by
  induction hreach with
  | start => cases hgranted <;> contradiction
  | @step cfg cfg' e hreach hok hstep ih =>
    have hreach' : d.Reaches (KeepsApproval d scanId) cfg' := .step hreach hok hstep
    obtain ⟨henabled, e', he', hfinds⟩ := hgranted.fixesReady hreach'
    have heligible := Deployment.Reaches.eligiblePersisted hreach' he' hfinds
    rw [hstep.history] at hgranted
    by_cases hbefore : FixGranted d.config scanId cfg.history
    · exact (ih hbefore).step hreach hstep henabled heligible (hok.1 hbefore)
    · refine (hok.2 hbefore hgranted).step hreach hstep henabled heligible ?_
      rintro n s job policy rfl
      exact absurd hgranted.of_enqueue hbefore

/-- Every Layer 5 job of the scan that is executed once the fixes are approved has the bit. -/
def OpensApproved (config : MontrConfig) (scanId : ScanId) (history : List PipelineStep) : Prop :=
  ∀ (n : ℕ) (job : LayerJobData) (ctx : LayerContext) (post pre : List PipelineStep),
    history = post ++ .issued n (.runLayerJob job) (.runLayer ctx) :: pre →
      FixGranted config scanId pre → job.scanId = scanId → job.layer = .layer5 →
        job.autoApply = some true

/-- An approval is not lost in the runs that keep it. -/
theorem opensApproved_of_keepsApproval (d : Deployment) (scanId : ScanId) (cfg : PipelineConfig)
    (hreach : d.Reaches (KeepsApproval d scanId) cfg) :
    OpensApproved d.config scanId cfg.history := by
  intro n job ctx post pre hhistory hgranted hscan hlayer
  obtain ⟨before, after, hbefore, -, hstep, rfl⟩ := hreach.exists_step rfl hhistory
  have hnone := Deployment.Reaches.noUnapproved hbefore hgranted
  obtain ⟨t, ht, hcall, hstage, -⟩ := hstep.awaits (Deployment.Reaches.lawful hbefore)
  have hissues := hstage job rfl
  have hstarting : stageOf t.trace = .starting := by
    revert hissues
    generalize stageOf t.trace = stage
    cases stage <;> simp [JobStage.issues]
  exact hnone.processed n t job ht (hstep.running ht) hcall hscan hlayer (by rw [hstarting]; rfl)

/-! ## Runs -/

/-- The fixes have been approved by an approver. -/
def approvesFixWrite (scanId : ScanId) : PipelineStep → Bool
  | .performed _ (.approveGate s .fix _) (.store (.scansUpdate _ _)) (.ok _) => s = scanId
  | _ => false

theorem fixGranted_of_any (h : history.any (approvesFixWrite scanId) = true) :
    FixGranted config scanId history := by
  obtain ⟨e, he, hwrite⟩ := List.any_eq_true.mp h
  unfold approvesFixWrite at hwrite
  split at hwrite
  · obtain rfl := of_decide_eq_true hwrite
    exact .approved he
  · cases hwrite

/-- The job is one of Layer 5 and of the scan, without the bit. -/
def LayerJobData.unapproved (scanId : ScanId) (job : LayerJobData) : Bool :=
  job.scanId = scanId && job.layer = .layer5 && job.autoApply ≠ some true

/-- `NoUnapproved`, computed. -/
def noUnapproved (config : MontrConfig) (scanId : ScanId) (cfg : PipelineConfig) : Bool :=
  cfg.world.inline.jobs.all (!LayerJobData.unapproved scanId ·) &&
  layerOrder.all (fun layer =>
    (cfg.world.bull layer).waiting.all (!LayerJobData.unapproved scanId ·.job) &&
      (cfg.world.bull layer).active.all (!LayerJobData.unapproved scanId ·.2.job)) &&
  cfg.tasks.all fun t =>
    !t.running ||
      match t.call with
      | .runLayerJob job =>
        job.scanId ≠ scanId ||
          (!LayerJobData.unapproved scanId job || !(stageOf t.trace).beforeOutput) &&
            (stageOf t.trace = .closing ||
              (fixesOf t.trace).all fun fixes => (evaluateFixGate fixes config).wouldOpenPrs)
      | _ => true

theorem noUnapproved_sound (h : noUnapproved config scanId cfg = true) :
    NoUnapproved config scanId cfg := by
  simp only [noUnapproved, Bool.and_eq_true, List.all_eq_true] at h
  obtain ⟨⟨hinline, hbull⟩, htasks⟩ := h
  have hbit : ∀ job, LayerJobData.unapproved scanId job = false → job.scanId = scanId →
      job.layer = .layer5 → job.autoApply = some true := by
    intro job hjob hscan hlayer
    simpa [LayerJobData.unapproved, hscan, hlayer] using hjob
  refine ⟨?_, ?_, ?_⟩
  · intro job hjob
    refine hbit job ?_
    obtain hjob | ⟨layer, hjob⟩ := hjob
    · simpa using hinline job hjob
    · have hlayer := hbull layer (by cases layer <;> simp [layerOrder])
      obtain ⟨held, hheld, rfl⟩ | ⟨entry, hentry, rfl⟩ := hjob
      · simpa using hlayer.1 held hheld
      · simpa using hlayer.2 entry hentry
  · intro n t job ht hrunning hcall hscan hlayer hstage
    have htask := htasks t (List.mem_of_getElem? ht)
    simp only [hrunning, hcall, hscan, hstage] at htask
    exact hbit job (by simp_all) hscan hlayer
  · intro n t job fixes ht hrunning hcall hscan hstage hfixes
    have htask := htasks t (List.mem_of_getElem? ht)
    simp only [hrunning, hcall, hscan, hfixes] at htask
    simp_all

example : noUnapproved fixDeployment.config "scan" initialConfig = true := by decide +kernel

/-- A job is enqueued by `resume`. -/
def enqueuedByResume : PipelineStep → Bool
  | .performed _ (.resume _) (.enqueue ..) _ => true
  | _ => false

/-- Nothing is ever enqueued by `resume`, and no job lacks the bit. -/
def keepsApproval (d : Deployment) (scanId : ScanId) (cfg : PipelineConfig) (e : PipelineStep) :
    Bool :=
  !enqueuedByResume e && noUnapproved d.config scanId cfg

theorem keepsApproval_sound (h : keepsApproval d scanId cfg e = true) :
    KeepsApproval d scanId cfg e := by
  obtain ⟨hresume, hnone⟩ := Bool.and_eq_true_iff.mp h
  refine ⟨?_, fun _ _ => noUnapproved_sound hnone⟩
  rintro - n s job policy rfl
  cases hresume

/-- A Layer 5 job with this bit is executed once the fixes of the scan are approved. -/
def executesApproved (scanId : ScanId) (bit : Bool) : PipelineStep → List PipelineStep → Bool
  | .issued _ (.runLayerJob job) (.runLayer _), pre =>
    job.scanId = scanId && job.layer = .layer5 && job.autoApply = some bit &&
      pre.any (approvesFixWrite scanId)
  | _, _ => false

theorem exists_of_executesApproved {bit : Bool}
    (h : anyEvent (executesApproved scanId bit) history = true) :
    ∃ n job ctx post pre, history = post ++ .issued n (.runLayerJob job) (.runLayer ctx) :: pre ∧
      FixGranted config scanId pre ∧ job.scanId = scanId ∧ job.layer = .layer5 ∧
      job.autoApply = some bit := by
  obtain ⟨post, e, pre, hhistory, he⟩ := exists_of_anyEvent h
  unfold executesApproved at he
  split at he
  · simp only [Bool.and_eq_true, decide_eq_true_eq] at he
    obtain ⟨⟨⟨hscan, hlayer⟩, hauto⟩, hany⟩ := he
    exact ⟨_, _, _, post, pre, hhistory, fixGranted_of_any hany, hscan, hlayer, hauto⟩
  · cases he

/-- The approved run goes on to execute its Layer 5 job, which has the bit. -/
theorem opensApproved_of_fixRun :
    ∃ cfg, fixDeployment.Reaches (KeepsApproval fixDeployment "scan") cfg ∧
      (∃ n job ctx post pre,
        cfg.history = post ++ .issued n (.runLayerJob job) (.runLayer ctx) :: pre ∧
          FixGranted fixDeployment.config "scan" pre ∧ job.scanId = "scan" ∧
          job.layer = .layer5 ∧ job.autoApply = some true) ∧
      OpensApproved fixDeployment.config "scan" cfg.history := by
  obtain ⟨cfg, hreach, hcfg⟩ := fixDeployment.exists_reaches (keepsApproval fixDeployment "scan")
    (fixRun ++ jobToRunner 8 (demoJob (.layer5 true)))
    (fun cfg => anyEvent (executesApproved "scan" true) cfg.history) (by decide +kernel)
  have hkeeps := hreach.mono fun cfg e => keepsApproval_sound
  exact ⟨cfg, hkeeps, exists_of_executesApproved hcfg,
    opensApproved_of_keepsApproval fixDeployment "scan" cfg hkeeps⟩

/-- The approved Layer 5 job fails, and `resume` runs Layer 5 again without the bit. -/
theorem not_opensApproved_of_resume :
    ¬∀ cfg, fixDeployment.Reaches (fun _ _ => True) cfg →
      OpensApproved fixDeployment.config "scan" cfg.history := by
  intro h
  obtain ⟨cfg, hreach, hcfg⟩ := fixDeployment.exists_reaches (fun _ _ => true)
    (fixRun ++ jobFails 8 (demoJob (.layer5 true)) ++ callThrough 9 (.resume "scan") 6 ++
      jobToRunner 10 (demoJob (.layer5 false)))
    (fun cfg => anyEvent (executesApproved "scan" false) cfg.history) (by decide +kernel)
  obtain ⟨n, job, ctx, post, pre, hhistory, hgranted, hscan, hlayer, hauto⟩ :=
    @exists_of_executesApproved fixDeployment.config _ _ _ hcfg
  have hbit := h cfg (hreach.mono fun _ _ _ => trivial) n job ctx post pre hhistory hgranted hscan
    hlayer
  rw [hauto] at hbit
  cases hbit

end MontrSecure
