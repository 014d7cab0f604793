import MontrSecure.Orchestrator.Provenance

/-!
# The fix gate

Pull requests are opened by a Layer 5 job whose `autoApply` bit is set. Such a job is only ever
enqueued when auto-fix is on, Layer 4 has left a fix that passes the bar, and an approver has
approved at the pending gate, where one is required: `autoApply_of_enqueued`. The invariant behind
it, `FixKnown`, links the gate of every row and the bit of every job to what has happened.

The converse is where the source fails: an approval that was granted does not always reach Layer 5.
-/

namespace MontrSecure

open Async

/-! ## What has happened -/

/-- A Layer 4 job of the scan reads the persisted fixes, and one of them passes the bar. -/
def FindsEligible (config : MontrConfig) (scanId : ScanId) : PipelineStep → Prop
  | .performed _ (.runLayerJob job) (.store (.fixesListByScan _ s)) (.ok fixes) =>
    job.scanId = scanId ∧ job.layer = .layer4 ∧ s = scanId ∧
      ∃ f ∈ fixes, isAutoEligible config f = true
  | _ => False

/-- `approveGate(scanId, "fix")` is executed while the persisted gate is pending. -/
def ApprovesFix (scanId : ScanId) : PipelineStep → Prop
  | .performed _ (.approveGate s .fix _) (.store (.scansGet _ _)) (.ok (some row)) =>
    s = scanId ∧ row.id = scanId ∧ row.gateState = .fixGatePending ∧
      isTerminalStatus row.status = false
  | _ => False

/-- Layer 4 has left something to open pull requests for. -/
def FixesReady (config : MontrConfig) (scanId : ScanId) (history : List PipelineStep) : Prop :=
  config.autoFix.enabled = true ∧ ∃ e ∈ history, FindsEligible config scanId e

/-- Opening pull requests has been approved, or needs no approval. -/
def FixApproved (config : MontrConfig) (scanId : ScanId) (history : List PipelineStep) : Prop :=
  config.rbac.approverRequiredForGate = false ∨ ∃ e ∈ history, ApprovesFix scanId e

variable {d : Deployment} {ok : PipelineConfig → PipelineStep → Prop} {cfg cfg' : PipelineConfig}
  {n : ℕ} {t : PipelineTask} {config : MontrConfig} {scanId : ScanId} {history : List PipelineStep}
  {e : PipelineStep}

theorem FixesReady.cons (h : FixesReady config scanId history) :
    FixesReady config scanId (e :: history) :=
  ⟨h.1, h.2.imp fun _ he => ⟨List.mem_cons_of_mem _ he.1, he.2⟩⟩

theorem FixApproved.cons (h : FixApproved config scanId history) :
    FixApproved config scanId (e :: history) :=
  h.imp_right fun h => h.imp fun _ he => ⟨List.mem_cons_of_mem _ he.1, he.2⟩

/-- What a Layer 4 job has read is in the history. -/
theorem fixesReady_of_fixesOf {job : LayerJobData} {fixes : List Fix} (hreach : d.Reaches ok cfg)
    (ht : cfg.tasks[n]? = some t) (hcall : t.call = .runLayerJob job)
    (hfixes : fixesOf t.trace = some fixes)
    (hopen : (evaluateFixGate fixes d.config).wouldOpenPrs = true) :
    FixesReady d.config job.scanId cfg.history := by
  obtain ⟨henabled, heligible⟩ := (evaluateFixGate_wouldOpenPrs_iff _ _).mp hopen
  obtain ⟨x, hx, hfixes⟩ := List.exists_of_findSome?_eq_some hfixes
  have hconforms := hreach.lawful.conforms ht
  obtain ⟨post, pre, -, hpre, m₀, -, -, hissues⟩ := hconforms.awaits hx
  have hmem := hreach.performed_of_mem ht hx
  rw [hcall] at hmem hissues hpre
  unfold OpAwait.fixes? at hfixes
  split at hfixes
  · cases hfixes
    obtain ⟨row, hrow, -, hscan, job', hjob', hlayer⟩ := hissues
    cases hjob'
    have hid : row.id = job.scanId := rowOf_id hpre rfl hrow
    exact ⟨henabled, _, hmem, rfl, hlayer, hscan.trans hid, heligible⟩
  · cases hfixes

/-! ## The invariant -/

/-- What the gate of a row and the bit of a job say about what has happened. -/
def FixKnown (config : MontrConfig) (cfg : PipelineConfig) : Item → Prop
  | .row id _ _ gate _ => gate = .fixGatePending → FixesReady config id cfg.history
  | .job job => job.autoApply = some true →
      FixesReady config job.scanId cfg.history ∧ FixApproved config job.scanId cfg.history
  | _ => True

/-- Only Layer 5 jobs have the bit. -/
theorem LayerJobData.layer_of_autoApply {job : LayerJobData} {b : Bool}
    (h : job.autoApply = some b) : job.layer = .layer5 := by
  unfold autoApply at h
  split at h
  · rename_i hpayload
    simp [layer, hpayload, LayerPayload.layer]
  · cases h

/-- A gate is put into the pending state by the Layer 4 job that has found the fixes. -/
theorem fixesReady_of_writes {old : Scan} {status : ScanStatus}
    (hreach : d.Reaches ok cfg) (hknown : Known (FixKnown d.config) cfg)
    (ht : cfg.tasks[n]? = some t) (hold : rowOf t.trace = some old)
    (hwrites : Writes d.config t.trace old t.call status .fixGatePending) :
    FixesReady d.config old.id cfg.history := by
  have hcarries : old.gateState = .fixGatePending → FixesReady d.config old.id cfg.history :=
    hknown old.item (holds_of_rowOf ht hold)
  generalize hcall : t.call = c at hwrites
  generalize hgate : GateState.fixGatePending = gate at hwrites
  cases hwrites with
  | start | pause | resumed | resumeCompletes | persists | fails | completes | authorizes =>
    exact hcarries hgate.symm
  | cancel =>
    split at hgate
    · cases hgate
    · exact hcarries hgate.symm
  | fixPending hstage hlayer hfixes hopen happrover =>
    rename_i job fixes
    have hid : old.id = job.scanId := rowOf_id (hcall ▸ hreach.lawful.conforms ht) rfl hold
    rw [hid]
    exact fixesReady_of_fixesOf hreach ht hcall hfixes hopen
  | _ => cases hgate

/-- A job with the bit is scheduled by an approval, or by the Layer 4 job that needs none. -/
theorem fixApproved_of_schedules {row : Scan} {job : LayerJobData}
    (hreach : d.Reaches ok cfg) (hknown : Known (FixKnown d.config) cfg)
    (ht : cfg.tasks[n]? = some t) (hrow : rowOf t.trace = some row) (hscan : job.scanId = row.id)
    (hschedules : Schedules d.config t.trace row t.call job) (hauto : job.autoApply = some true) :
    FixesReady d.config job.scanId cfg.history ∧ FixApproved d.config job.scanId cfg.history := by
  have hlayer : job.layer = .layer5 := LayerJobData.layer_of_autoApply hauto
  have hconforms := hreach.lawful.conforms ht
  generalize hcall : t.call = c at hschedules
  rw [hcall] at hconforms
  cases hschedules with
  | start h | estimateApproved _ h | afterIntake _ h =>
    rw [hlayer] at h
    cases h
  | resume _ _ _ _ h => exact absurd hauto h
  | afterLayer hj h =>
    rw [hlayer] at h
    obtain hj | hj | hj := hj <;> rw [hj] at h <;> cases h
  | @fixApproved s approver _ hread _ _ =>
    have hid := rowOf_id hconforms rfl hrow
    obtain ⟨clientId, read, hmem, hholds, hid', hgate, hstatus⟩ :=
      exists_of_readAt hreach ht (by rw [hcall]; rfl) hread
    have hready : FixesReady d.config read.id cfg.history := hknown read.item hholds hgate
    rw [hcall] at hmem
    rw [hid'] at hready
    rw [hscan, hid]
    exact ⟨hready, .inr ⟨_, hmem, rfl, hid', hgate, hstatus⟩⟩
  | @afterFixes j _ fixes hj _ hfixes hbit hopen =>
    have hid := rowOf_id hconforms rfl hrow
    have hwould : (evaluateFixGate fixes d.config).wouldOpenPrs = true := by
      rw [hauto] at hbit
      exact (Option.some.inj hbit).symm
    rw [hscan, hid]
    exact ⟨fixesReady_of_fixesOf hreach ht hcall hfixes hwould, .inl (hopen hwould)⟩

/-- The invariant holds in every state of every run. -/
theorem Deployment.Reaches.fixKnown (hreach : d.Reaches ok cfg) :
    Known (FixKnown d.config) cfg := by
  induction hreach with
  | start => exact known_initialConfig _
  | @step cfg cfg' e hreach hok hstep ih =>
    have hlawful := Deployment.Reaches.lawful hreach
    have hstable : ∀ item, FixKnown d.config cfg item → FixKnown d.config cfg' item := by
      intro item hitem
      unfold FixKnown
      rw [hstep.history]
      cases item with
      | row => exact fun hgate => (hitem hgate).cons
      | job => exact fun hauto => ⟨(hitem hauto).1.cons, (hitem hauto).2.cons⟩
      | token | fix => trivial
    refine ih.step hlawful hstep hstable fun item hbrings => ?_
    cases hbrings with
    | @issues n c op item he hitem =>
      subst he
      obtain ⟨t, ht, rfl, -, -, hissues⟩ := hstep.awaits hlawful
      refine hstable item ?_
      cases op with
      | store q =>
        cases q with
        | scansUpdate clientId row =>
          obtain rfl := Option.some.inj hitem
          obtain ⟨old, hold, -, hextends, -, hwrites⟩ := hissues
          intro hgate
          rw [hgate] at hwrites
          rw [hextends.id]
          exact fixesReady_of_writes hreach ih ht hold hwrites
        | resumeSave | fixesUpdate =>
          obtain rfl := Option.some.inj hitem
          trivial
        | _ => cases hitem
      | enqueue job policy =>
        obtain rfl := Option.some.inj hitem
        obtain ⟨row, hrow, hscan, -, -, hschedules⟩ := hissues
        exact fixApproved_of_schedules hreach ih ht hrow hscan hschedules
      | _ => cases hitem
    | @createsScan n c clientId scan r he =>
      subst he
      obtain ⟨t, m, k, m₀, ht, rfl, hphase, -, -, input, id, -, -, rfl⟩ := hstep.awaited hlawful
      intro hgate
      cases hgate
    | createsFix => trivial

/-- A Layer 5 job that may open pull requests is only enqueued once Layer 4 has left a fix that passes
the bar, auto-fix being on, and once an approver has approved it at the pending gate where the
configuration requires one. -/
theorem autoApply_of_enqueued (d : Deployment) (ok : PipelineConfig → PipelineStep → Prop)
    (cfg : PipelineConfig) (hreach : d.Reaches ok cfg) (n : ℕ) (c : Call) (job : LayerJobData)
    (policy : RetryPolicy) (post pre : List PipelineStep)
    (hhistory : cfg.history = post ++ .issued n c (.enqueue job policy) :: pre)
    (hauto : job.autoApply = some true) :
    FixesReady d.config job.scanId pre ∧ FixApproved d.config job.scanId pre := by
  obtain ⟨before, after, hbefore, -, hstep, rfl⟩ := hreach.exists_step rfl hhistory
  have hlawful := Deployment.Reaches.lawful hbefore
  obtain ⟨t, ht, rfl, -, -, row, hrow, hscan, -, -, hschedules⟩ := hstep.awaits hlawful
  exact fixApproved_of_schedules hbefore (Deployment.Reaches.fixKnown hbefore) ht hrow hscan
    hschedules hauto

/-! ## A run -/

/-- Auto-fix is on, and an approver has to approve. -/
def fixDeployment : Deployment :=
  { config :=
      { clientId := "acme", budget := { requireEstimateApproval := false }
        autoFix := { enabled := true } } }

/-- The finding Layer 3 confirms. -/
def demoFinding : ConfirmedFinding :=
  { id := "finding", scanId := "scan", clientId := "acme", title := "SQL injection"
    category := .sqlInjection, severity := .high, exposure := .public_
    location := { file := "db.ts", line := 7 }, impact := "", proofType := .static
    proofArtifact := .null, createdAt := 0 }

/-- The fix Layer 4 makes for it. -/
def demoFix : Fix :=
  { id := "fix", scanId := "scan", clientId := "acme", confirmedFindingId := "finding"
    patch := "", rationale := ""
    proofOfFixTest := { code := "", failsPrePatch := true, passesPostPatch := true }
    riskClass := .autoEligible, riskClassRationale := "", createdAt := 0 }

/-- The scan goes through Layers 0 to 4, and the fix is approved. -/
def fixRun : List PipelineLabel :=
  demoStart ++ jobThrough 2 demoIntakeJob demoIntake 13 ++
    jobThrough 3 (demoJob (.layer1 "map")) (.layer1 {}) 7 ++
    jobThrough 4 (demoJob .layer2) (.layer2 {}) 7 ++
    jobThrough 5 (demoJob (.layer3 false none)) (.layer3 { confirmed := [demoFinding] }) 8 ++
    jobThrough 6 (demoJob .layer4) (.layer4 { fixes := [demoFix] }) 9 ++
    callThrough 7 (.approveGate "scan" .fix "bob") 4

/-- A job with the bit is enqueued. -/
def enqueuesAutoApply : PipelineStep → Bool
  | .issued _ _ (.enqueue job _) => job.autoApply = some true
  | _ => false

/-- The approved run enqueues such a job. -/
theorem autoApply_of_enqueued_fixRun :
    ∃ cfg, fixDeployment.Reaches (fun _ _ => true) cfg ∧
      ∃ n c job policy post pre, cfg.history = post ++ .issued n c (.enqueue job policy) :: pre ∧
        job.autoApply = some true ∧
        FixesReady fixDeployment.config job.scanId pre ∧
        FixApproved fixDeployment.config job.scanId pre := by
  obtain ⟨cfg, hreach, hcfg⟩ := fixDeployment.exists_reaches (fun _ _ => true) fixRun
    (fun cfg => anyEvent (fun e _ => enqueuesAutoApply e) cfg.history) (by decide +kernel)
  obtain ⟨post, e, pre, hhistory, he⟩ := exists_of_anyEvent hcfg
  unfold enqueuesAutoApply at he
  split at he
  · rename_i n c job policy
    have hauto : job.autoApply = some true := by simpa using he
    exact ⟨cfg, hreach, n, c, job, policy, post, pre, hhistory, hauto,
      autoApply_of_enqueued _ _ cfg hreach n c job policy post pre hhistory hauto⟩
  · cases he

end MontrSecure
