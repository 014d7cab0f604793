import MontrSecure.Orchestrator.Provenance
import MontrSecure.Orchestrator.Targets

/-!
# Live DAST

A Layer 3 job may probe its target when the scan has one on the allowlist and an approver. The fields are
read where the job is built, so what authorizes the probing is whatever has put the target there: an
authorize request, or the request that created the scan.
-/

namespace MontrSecure

open Async

variable {config : MontrConfig} {scanId : ScanId} {url : String} {target : Option String}
  {history : List PipelineStep} {e : PipelineStep}

/-! ## What has happened -/

/-- The URL passes what `computeAllowLive` asks of a target. -/
def passesAllowLive (config : MontrConfig) (url : String) : Bool :=
  config.dast.enabled && url ≠ "" &&
    config.dast.allowlist.any fun entry => entry.toList.isPrefixOf url.toList

/-- Only a target that passes is probed. -/
theorem target_of_computeAllowLive {row : Scan} (h : computeAllowLive row config = true) :
    ∃ url, row.scope.stagingUrl = some url ∧ passesAllowLive config url = true := by
  unfold computeAllowLive at h
  obtain ⟨henabled, htarget⟩ := Bool.and_eq_true_iff.mp h
  split at htarget
  · cases htarget
  · rename_i url hurl
    refine ⟨url, hurl, ?_⟩
    obtain ⟨hlisted, -⟩ := Bool.and_eq_true_iff.mp htarget
    rw [passesAllowLive, henabled, Bool.true_and]
    exact hlisted

/-- What the Layer 3 job of a row carries. -/
theorem layer3_of_buildJob {row : Scan} {job : LayerJobData} {auto : Option Bool} {live : Bool}
    (hjob : buildJob config row job.layer auto = .ok job) (hpayload : job.payload = .layer3 live target) :
    computeAllowLive row config = live ∧ target = row.scope.stagingUrl := by
  have hlayer : job.layer = .layer3 := by rw [LayerJobData.layer, hpayload, LayerPayload.layer]
  rw [hlayer] at hjob
  simp only [buildJob] at hjob
  split at hjob
  · cases hjob
    cases hpayload
    exact ⟨rfl, rfl⟩
  · cases hjob

/-- What the Layer 0 job of a row carries. -/
theorem layer0_of_buildJob {row : Scan} {job : LayerJobData} {auto : Option Bool} {repo branch : String}
    {mode : ScanMode} {scope : ScanScope} (hjob : buildJob config row job.layer auto = .ok job)
    (hpayload : job.payload = .layer0 repo branch mode scope) : scope = row.scope := by
  have hlayer : job.layer = .layer0 := by rw [LayerJobData.layer, hpayload, LayerPayload.layer]
  rw [hlayer] at hjob
  simp only [buildJob] at hjob
  split at hjob
  · cases hjob
    cases hpayload
    rfl
  · cases hjob

/-- A request to authorize live DAST for the scan on this URL is carried out. -/
def Authorizes (scanId : ScanId) (url : String) : PipelineStep → Prop
  | .performed _ (.authorizeScanDast req) (.store (.scansUpdate ..)) (.ok _) =>
    req.scanId = scanId ∧ req.stagingUrl = url
  | _ => False

/-- A scan is not created with a target that passes. -/
def NamesNoTarget (config : MontrConfig) : PipelineStep → Prop
  | .entered _ (.createScan input _) =>
    ∀ url, input.scope.stagingUrl = some url → passesAllowLive config url = false
  | _ => True

/-- If the target passes, it has been authorized. -/
def TargetKnown (config : MontrConfig) (history : List PipelineStep) (scanId : ScanId)
    (target : Option String) : Prop :=
  ∀ url, target = some url → passesAllowLive config url = true → ∃ e ∈ history, Authorizes scanId url e

theorem TargetKnown.cons (h : TargetKnown config history scanId target) :
    TargetKnown config (e :: history) scanId target := by
  intro url hurl hpasses
  obtain ⟨e', he', hauthorizes⟩ := h url hurl hpasses
  exact ⟨e', List.mem_cons_of_mem _ he', hauthorizes⟩

/-! ## The invariant -/

/-- What is known of the target a Layer 0 job carries. -/
def JobTargetKnown (config : MontrConfig) (cfg : PipelineConfig) : Item → Prop
  | .job job => ∀ repo branch mode scope, job.payload = .layer0 repo branch mode scope →
      TargetKnown config cfg.history job.scanId scope.stagingUrl
  | _ => True

/-- Every target there is, in the table of scans, in what the calls have read and in the jobs. -/
structure TargetsKnown (config : MontrConfig) (cfg : PipelineConfig) : Prop where
  stored : ∀ row ∈ cfg.world.db.scans.rows, TargetKnown config cfg.history row.id row.scope.stagingUrl
  read : ∀ {n : ℕ} {t : PipelineTask} {x : OpAwait} {row : Scan}, cfg.tasks[n]? = some t → x ∈ t.trace →
    OpAwait.readRow? x = some row → TargetKnown config cfg.history row.id row.scope.stagingUrl
  jobs : Known (JobTargetKnown config) cfg

section Runs

variable {d : Deployment} {ok : PipelineConfig → PipelineStep → Prop} {cfg cfg' : PipelineConfig}
  {n : ℕ} {t : PipelineTask} {row : Scan}

/-- What the intake of a job returns has the target of the job. -/
theorem target_of_intakeScope {job : LayerJobData} {scope : ScanScope} (hreach : d.Reaches ok cfg)
    (hintake : ∀ cfg e, ok cfg e → RunsIntake e) (ht : cfg.tasks[n]? = some t)
    (hcall : t.call = .runLayerJob job) (h : IntakeScope job t.trace scope) :
    ∃ repo branch mode base, job.payload = .layer0 repo branch mode base ∧
      scope.stagingUrl = base.stagingUrl := by
  obtain ⟨m, ctx, raw, out, hmem, hparse, rfl⟩ := h
  have hperformed := hreach.performed_of_mem ht hmem
  rw [hcall] at hperformed
  obtain ⟨before, hok⟩ := Reachable.ok_of_mem rfl hreach hperformed
  have hlayer : job.layer = .layer0 := by
    unfold RawOutput.parse at hparse
    split at hparse
    · split at hparse
      · rename_i hout
        cases hparse
        exact hout.symm
      · cases hparse
    · cases hparse
  rw [hlayer] at hparse
  have hpayload : ∃ repo branch mode base, job.payload = .layer0 repo branch mode base := by
    unfold LayerJobData.layer at hlayer
    cases hp : job.payload with
    | layer0 repo branch mode base => exact ⟨repo, branch, mode, base, rfl⟩
    | _ => rw [hp] at hlayer; cases hlayer
  obtain ⟨repo, branch, mode, base, hpayload⟩ := hpayload
  obtain ⟨routeCount, fileCount, diff, hscope⟩ :=
    hintake _ _ hok out repo branch mode base hparse hpayload
  exact ⟨repo, branch, mode, base, hpayload, by rw [hscope, finalizedScope_stagingUrl]⟩

/-- A row that a call has read is a row of the scan the call is about. -/
theorem readRow?_id {x : OpAwait} {scanId : ScanId} (hreach : d.Reaches ok cfg)
    (ht : cfg.tasks[n]? = some t) (hscan : t.call.scanId? = some scanId) (hx : x ∈ t.trace)
    (hrow : OpAwait.readRow? x = some row) : row.id = scanId := by
  obtain ⟨post, pre, htrace⟩ := List.append_of_mem hx
  have hconforms := hreach.lawful.conforms ht
  rw [htrace] at hconforms
  exact rowOf_id hconforms.of_append hscan (rowOf_of_readRow? hrow)

/-- What is known of all targets is known of the row a call holds. -/
theorem TargetsKnown.carried (h : TargetsKnown d.config cfg) (hreach : d.Reaches ok cfg)
    (hintake : ∀ cfg e, ok cfg e → RunsIntake e) (ht : cfg.tasks[n]? = some t)
    (hcarries : Carries t.call t.trace row) :
    TargetKnown d.config cfg.history row.id row.scope.stagingUrl := by
  obtain ⟨x, hx, old, hold, hid, htarget | ⟨job, hcall, hscope⟩⟩ := hcarries
  · rw [hid, htarget]
    exact h.read ht hx hold
  · obtain ⟨repo, branch, mode, base, hpayload, htarget⟩ :=
      target_of_intakeScope hreach hintake ht hcall hscope
    have hjob : old.id = job.scanId := readRow?_id hreach ht (by rw [hcall]; rfl) hx hold
    rw [hid, hjob, htarget]
    exact h.jobs (.job job) (.delivered ht hcall) repo branch mode base hpayload

/-- A scan that is created has no target that passes. -/
theorem targetKnown_of_create {input : CreateScanInput} {id : ScanId} (hreach : d.Reaches ok cfg)
    (hnames : ∀ cfg e, ok cfg e → NamesNoTarget d.config e) (ht : cfg.tasks[n]? = some t)
    (hcall : t.call = .createScan input id) (scanId : ScanId) :
    TargetKnown d.config history scanId input.scope.stagingUrl := by
  have hentered := Reachable.entered_of_task rfl hreach ht
  rw [hcall] at hentered
  obtain ⟨before, hok⟩ := Reachable.ok_of_mem rfl hreach hentered
  intro url hurl hpasses
  rw [hnames _ _ hok url hurl] at hpasses
  cases hpasses

/-- What is known of the rows is preserved. -/
theorem TargetsKnown.stored_of_step (h : TargetsKnown d.config cfg) (hreach : d.Reaches ok cfg)
    (hintake : ∀ cfg e, ok cfg e → RunsIntake e) (hnames : ∀ cfg e, ok cfg e → NamesNoTarget d.config e)
    (hstep : Step d.system cfg e cfg') (hrow : row ∈ cfg'.world.db.scans.rows) :
    TargetKnown d.config cfg'.history row.id row.scope.stagingUrl := by
  rw [hstep.history]
  obtain hdb | ⟨pr, prs, -, hdb⟩ | ⟨n, t, m, q, k, v, rfl, ht, hphase, hexec⟩ := step_db hstep
  · rw [hdb] at hrow
    exact (h.stored row hrow).cons
  · rw [hdb] at hrow
    exact (h.stored row hrow).cons
  · obtain hscans | ⟨clientId, scan, rfl, hfresh, hscans⟩ | ⟨clientId, scan, old, rfl, hold, -, hscans⟩ :=
      StoreOp.exec_scans hexec
    · rw [hscans] at hrow
      exact (h.stored row hrow).cons
    · have hfresh : cfg.world.db.scans.contains ({ scan with clientId } : Scan).id = false := hfresh
      rw [hscans, Table.rows_insertNew hfresh] at hrow
      obtain hrow | hrow := List.mem_append.mp hrow
      · exact (h.stored row hrow).cons
      · obtain rfl := List.mem_singleton.mp hrow
        obtain ⟨m₀, -, -, input, id, hcall, -, rfl⟩ := hreach.lawful.waiting ht hphase
        exact targetKnown_of_create hreach hnames ht hcall _
    · rw [hscans] at hrow
      obtain rfl | hrow := Table.mem_replace hrow
      · have hid : old.id = scan.id := Table.key_of_get? hold
        show TargetKnown _ _ old.id scan.scope.stagingUrl
        rw [hid]
        obtain ⟨m₀, hcarries | ⟨req, hcall, hscan, htarget⟩⟩ :=
          (Deployment.Reaches.targetsLawful hreach).waiting ht hphase
        · exact (h.carried hreach hintake ht hcarries).cons
        · -- The write of the authorize request is the event itself.
          rw [htarget, hscan, hcall]
          intro url hurl _
          exact ⟨_, List.mem_cons_self, rfl, Option.some.inj hurl⟩
      · exact (h.stored row hrow).cons

/-- What is known of what the calls have read is preserved. -/
theorem TargetsKnown.read_of_step {u : PipelineTask} {x : OpAwait} (h : TargetsKnown d.config cfg)
    (hstep : Step d.system cfg e cfg') (hu : cfg'.tasks[n]? = some u) (hx : x ∈ u.trace)
    (hrow : OpAwait.readRow? x = some row) :
    TargetKnown d.config cfg'.history row.id row.scope.stagingUrl := by
  rw [hstep.history]
  obtain ⟨-, htrace⟩ | ⟨t, ht, -, htrace | ⟨m, op, k, r, rfl, hphase, htrace⟩⟩ := hstep.trace hu
  · simp [htrace] at hx
  · exact (h.read ht (htrace ▸ hx) hrow).cons
  · rw [htrace] at hx
    obtain rfl | hx := List.mem_cons.mp hx
    · -- What has just been read is a row of the table.
      unfold OpAwait.readRow? at hrow
      split at hrow
      · rename_i heq
        cases heq
        cases hrow
        have hexec := exec_of_performed hstep
        simp only [StoreOp.exec, Except.ok.injEq, Prod.mk.injEq, ScanRepository.get,
          Option.filter_eq_some_iff] at hexec
        exact (h.stored row (Table.mem_of_get? hexec.1.1)).cons
      · cases hrow
    · exact (h.read ht hx hrow).cons

/-- What is known of the jobs is preserved. -/
theorem TargetsKnown.jobs_of_step (h : TargetsKnown d.config cfg) (hreach : d.Reaches ok cfg)
    (hintake : ∀ cfg e, ok cfg e → RunsIntake e) (hstep : Step d.system cfg e cfg') :
    Known (JobTargetKnown d.config) cfg' := by
  have hstable : ∀ item, JobTargetKnown d.config cfg item → JobTargetKnown d.config cfg' item := by
    intro item hitem
    unfold JobTargetKnown
    rw [hstep.history]
    cases item with
    | job job => exact fun repo branch mode scope hpayload => (hitem repo branch mode scope hpayload).cons
    | _ => trivial
  refine h.jobs.step hreach.lawful hstep hstable fun item hbrings => ?_
  cases hbrings with
  | @issues n c op item he hitem =>
    subst he
    obtain ⟨t, ht, rfl, hissues⟩ := hstep.awaits (Deployment.Reaches.targetsLawful hreach)
    refine hstable item ?_
    cases op with
    | enqueue job policy =>
      obtain rfl := Option.some.inj hitem
      obtain ⟨row, auto, hcarries, hjob⟩ := hissues
      intro repo branch mode scope hpayload
      have hknown := h.carried hreach hintake ht hcarries
      obtain ⟨hid, -⟩ := buildJob_eq_ok hjob
      rw [hid, layer0_of_buildJob hjob hpayload]
      exact hknown
    | store q => cases q <;> cases hitem <;> trivial
    | _ => cases hitem
  | createsScan => trivial
  | createsFix => trivial

/-- The invariant holds in every state of a run in which no scan is created with a target that passes. -/
theorem Deployment.Reaches.targetsKnown (hreach : d.Reaches ok cfg)
    (hintake : ∀ cfg e, ok cfg e → RunsIntake e) (hnames : ∀ cfg e, ok cfg e → NamesNoTarget d.config e) :
    TargetsKnown d.config cfg := by
  induction hreach with
  | start =>
    refine ⟨fun row hrow => ?_, fun ht _ _ => ?_, known_initialConfig _⟩
    · cases hrow
    · simp [initialConfig] at ht
  | step hreach hok hstep ih =>
    refine ⟨fun row hrow => ?_, fun hu hx hrow => ?_, ?_⟩
    · exact ih.stored_of_step hreach hintake hnames hstep hrow
    · exact ih.read_of_step hstep hu hx hrow
    · exact ih.jobs_of_step hreach hintake hstep

end Runs

end MontrSecure
