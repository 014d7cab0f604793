import MontrSecure.Orchestrator.Provenance

/-!
# The estimate gate

A scan whose budget policy asks for the approval of its estimate should not enter Layer 1 before an
approver has approved it. The gate is only presented after the checkpoint lists Layer 0, and
`resume` goes by the checkpoint: it schedules Layer 1 for a row whose gate was never presented, or
was blocked by a budget halt. Those steps are `SkipsEstimate`; the runs without them are gated,
`gatesLayer1_of_keepsEstimate`.

The invariant is `Ungated`: until the approval there are only Layer 0 jobs and checkpoints that list
no other layer, and the gate of every row is short of the approval.
-/

namespace MontrSecure

open Async

/-! ## The gate -/

/-- `approveGate(scanId, "estimate")` is executed while the persisted gate is pending. -/
def ApprovesEstimate (scanId : ScanId) : PipelineStep → Prop
  | .performed _ (.approveGate s .estimate _) (.store (.scansGet _ _)) (.ok (some row)) =>
    s = scanId ∧ row.id = scanId ∧ row.gateState = .estimatePending ∧
      isTerminalStatus row.status = false
  | _ => False

/-- The estimate has been approved. -/
def EstimateApproved (scanId : ScanId) (history : List PipelineStep) : Prop :=
  ∃ e ∈ history, ApprovesEstimate scanId e

/-- The runner of Layer 1 is given the scan only once its estimate has been approved. -/
def GatesLayer1 (scanId : ScanId) (history : List PipelineStep) : Prop :=
  ∀ (n : ℕ) (job : LayerJobData) (ctx : LayerContext) (post pre : List PipelineStep),
    history = post ++ .issued n (.runLayerJob job) (.runLayer ctx) :: pre →
      job.scanId = scanId → job.layer = .layer1 → EstimateApproved scanId pre

/-- A `resume` that has read a checkpoint with Layer 0 and without Layer 1 puts the gate into its
working phase, where the row it holds has a gate that was never presented or that is blocked. -/
def SkipsEstimate (scanId : ScanId) (cfg : PipelineConfig) (e : PipelineStep) : Prop :=
  ∃ (n : ℕ) (t : PipelineTask) (s : ScanId) (clientId : ClientId) (row old : Scan)
      (token : Option ResumeToken),
    e = .issued n (.resume s) (.store (.scansUpdate clientId row)) ∧ row.gateState = .running ∧
      cfg.tasks[n]? = some t ∧ rowOf t.trace = some old ∧ old.id = scanId ∧
      tokenOf t.trace = some token ∧ nextLayer (completedLayers token) = some .layer1 ∧
      (old.gateState = .notStarted ∨ old.gateState = .blocked)

/-- What keeps the estimate gate of a scan: no `resume` skips it before the approval. -/
def KeepsEstimate (scanId : ScanId) (cfg : PipelineConfig) (e : PipelineStep) : Prop :=
  ¬EstimateApproved scanId cfg.history → ¬SkipsEstimate scanId cfg e

variable {d : Deployment} {ok : PipelineConfig → PipelineStep → Prop} {cfg cfg' : PipelineConfig}
  {n : ℕ} {t : PipelineTask} {scanId : ScanId} {history : List PipelineStep} {e : PipelineStep}
  {completed : List LayerId}

theorem EstimateApproved.cons (h : EstimateApproved scanId history) :
    EstimateApproved scanId (e :: history) :=
  h.imp fun _ he => ⟨List.mem_cons_of_mem _ he.1, he.2⟩

/-- A call that has found the gate of the estimate pending is an approval of it, or is none. -/
theorem estimateApproved_of_readAt {approver : EntityId} (hreach : d.Reaches ok cfg)
    (ht : cfg.tasks[n]? = some t) (hcall : t.call = .approveGate scanId .estimate approver)
    (hread : ReadAt .estimatePending t.trace) : EstimateApproved scanId cfg.history := by
  obtain ⟨clientId, row, hmem, -, hid, hgate, hstatus⟩ :=
    exists_of_readAt hreach ht (by rw [hcall]; rfl) hread
  rw [hcall] at hmem
  exact ⟨_, hmem, rfl, hid, hgate, hstatus⟩

/-! ## The invariant -/

/-- A gate short of the approval of the estimate. Only a cancelled scan has a rejected gate. -/
def ShortOfApproval (status : ScanStatus) : GateState → Prop
  | .notStarted | .estimatePending | .blocked => True
  | .rejected => status = .cancelled
  | _ => False

/-- What is known of a scan whose estimate has not been approved. -/
def Ungated (scanId : ScanId) : Item → Prop
  | .row id _ status gate _ => id = scanId → ShortOfApproval status gate
  | .token s completed => s = scanId → ∀ layer ∈ completed, layer = .layer0
  | .job job => job.scanId = scanId → job.layer = .layer0
  | .fix .. => True

/-- Rows keep a gate short of the approval when they are written without changing it, unless the
write takes a cancelled scan up again. -/
theorem ShortOfApproval.of_status {status status' : ScanStatus} {gate : GateState}
    (h : ShortOfApproval status gate) (hstatus : status = .cancelled → status' = .cancelled) :
    ShortOfApproval status' gate := by
  cases gate with
  | rejected => exact hstatus h
  | _ => exact h

/-- With no layer but the first completed, Layer 0 or Layer 1 is next. -/
theorem nextLayer_of_layer0 (h : ∀ layer ∈ completed, layer = .layer0) :
    nextLayer completed = some .layer0 ∨ nextLayer completed = some .layer1 := by
  have hlayer1 : LayerId.layer1 ∉ completed := fun hmem => nomatch h _ hmem
  by_cases hlayer0 : LayerId.layer0 ∈ completed
  · exact .inr (by simp [nextLayer, layerOrder, hlayer0, hlayer1])
  · exact .inl (by simp [nextLayer, layerOrder, hlayer0])

/-- The checkpoint a call has read, before the approval. -/
theorem completedLayers_of_ungated {token : Option ResumeToken}
    (hlawful : cfg.Lawful (pipelineProtocol d.config))
    (hknown : ∀ item, Holds cfg item → Ungated scanId item) (ht : cfg.tasks[n]? = some t)
    (hscan : t.call.scanId? = some scanId) (htoken : tokenOf t.trace = some token) :
    ∀ layer ∈ completedLayers token, layer = .layer0 := by
  cases token with
  | none => simp [completedLayers]
  | some token =>
    have hid := tokenOf_scanId (hlawful.conforms ht) hscan htoken
    exact hknown _ (holds_of_tokenOf ht htoken) hid

/-- Before the approval a row is written with a gate short of it, where no `resume` skips the
gate. -/
theorem shortOfApproval_of_writes {old : Scan} {status : ScanStatus} {gate : GateState}
    (hreach : d.Reaches ok cfg) (hknown : ∀ item, Holds cfg item → Ungated old.id item)
    (hunapproved : ¬EstimateApproved old.id cfg.history)
    (hgated : estimateGateRequired old d.config = true) (ht : cfg.tasks[n]? = some t)
    (hold : rowOf t.trace = some old) (hlive : (∃ job, t.call = .runLayerJob job) → old.Live)
    (hskips : ∀ s token, t.call = .resume s → tokenOf t.trace = some token →
      nextLayer (completedLayers token) = some .layer1 → gate = .running →
      old.gateState ≠ .notStarted ∧ old.gateState ≠ .blocked)
    (hwrites : Writes d.config t.trace old t.call status gate) : ShortOfApproval status gate := by
  have hlawful := Deployment.Reaches.lawful hreach
  have hshort : ShortOfApproval old.status old.gateState :=
    hknown old.item (holds_of_rowOf ht hold) rfl
  have hid : ∀ s, t.call.scanId? = some s → old.id = s := fun s hs =>
    rowOf_id (hlawful.conforms ht) hs hold
  have hlayer : ∀ job, t.call = .runLayerJob job → job.layer = .layer0 := fun job hjob =>
    hknown _ (.delivered ht hjob) (hid _ (by rw [hjob]; rfl)).symm
  generalize hcall : t.call = c at hwrites
  cases hwrites with
  | start hstatus | pause hstatus =>
    refine hshort.of_status fun hcancelled => ?_
    rw [hcancelled] at hstatus
    cases hstatus
  | resumed _ hcancelled => exact hshort.of_status fun h => absurd h hcancelled
  | @resumeEnters s token htoken hnext hgate hstatus =>
    obtain ⟨hnotStarted, hblocked⟩ := hskips s token hcall htoken hnext rfl
    cases hg : old.gateState <;> simp_all [ShortOfApproval, isPendingGate]
  | @resumeCompletes s token htoken hnext =>
    have hs := hid s (by rw [hcall]; rfl)
    have hlayers := completedLayers_of_ungated hlawful hknown ht
      (by rw [hcall, hs]; rfl) htoken
    obtain h | h := nextLayer_of_layer0 hlayers <;> rw [h] at hnext <;> cases hnext
  | cancel =>
    split
    · rfl
    · exact hshort.of_status fun _ => rfl
  | kill | remoteKill | halts | presents => trivial
  | @approvesEstimate s approver hread | @approvalEnters s approver hread =>
    have hs := hid s (by rw [hcall]; rfl)
    rw [hs] at hunapproved
    exact absurd (estimateApproved_of_readAt hreach ht hcall hread) hunapproved
  | @approvesFix s approver hread =>
    obtain ⟨clientId, row, -, hholds, hrow, hgate, -⟩ :=
      exists_of_readAt hreach ht (by rw [hcall]; rfl) hread
    have hpending := hknown row.item hholds (hrow.trans (hid s (by rw [hcall]; rfl)).symm)
    rw [hgate] at hpending
    cases hpending
  | persists | authorizes => exact hshort
  | @fails job =>
    obtain ⟨hterminal, -⟩ := hlive ⟨job, hcall⟩
    refine hshort.of_status fun hcancelled => ?_
    rw [hcancelled] at hterminal
    cases hterminal
  | skipsEstimate _ _ hgate | enters _ _ hgate =>
    rw [hgated] at hgate
    cases hgate
  | @fixPending job _ _ hjob | @autoApproves job _ _ hjob | @completes job _ hjob =>
    rw [hlayer job hcall] at hjob
    cases hjob

/-- Before the approval only Layer 0 is scheduled. -/
theorem layer0_of_schedules {row : Scan} {job : LayerJobData} (hreach : d.Reaches ok cfg)
    (hknown : ∀ item, Holds cfg item → Ungated row.id item)
    (hunapproved : ¬EstimateApproved row.id cfg.history)
    (hgated : estimateGateRequired row d.config = true) (ht : cfg.tasks[n]? = some t)
    (hrow : rowOf t.trace = some row)
    (hschedules : Schedules d.config t.trace row t.call job) : job.layer = .layer0 := by
  have hlawful := Deployment.Reaches.lawful hreach
  have hshort : ShortOfApproval row.status row.gateState :=
    hknown row.item (holds_of_rowOf ht hrow) rfl
  have hid : ∀ s, t.call.scanId? = some s → row.id = s := fun s hs =>
    rowOf_id (hlawful.conforms ht) hs hrow
  have hlayer : ∀ j, t.call = .runLayerJob j → j.layer = .layer0 := fun j hj =>
    hknown _ (.delivered ht hj) (hid _ (by rw [hj]; rfl)).symm
  generalize hcall : t.call = c at hschedules
  cases hschedules with
  | start hl => exact hl
  | @resume s _ token htoken hnext hgate henters =>
    have hs := hid s (by rw [hcall]; rfl)
    have hlayers := completedLayers_of_ungated hlawful hknown ht
      (by rw [hcall, hs]; rfl) htoken
    obtain h | h := nextLayer_of_layer0 hlayers
    · exact Option.some.inj (hnext.symm.trans h)
    · have hrunning := henters (Option.some.inj (hnext.symm.trans h))
      rw [hrunning] at hshort
      cases hshort
  | @estimateApproved s approver _ hread =>
    rw [hid s (by rw [hcall]; rfl)] at hunapproved
    exact absurd (estimateApproved_of_readAt hreach ht hcall hread) hunapproved
  | @fixApproved s approver _ hread =>
    obtain ⟨clientId, read, -, hholds, hread, hgate, -⟩ :=
      exists_of_readAt hreach ht (by rw [hcall]; rfl) hread
    have hpending := hknown read.item hholds (hread.trans (hid s (by rw [hcall]; rfl)).symm)
    rw [hgate] at hpending
    cases hpending
  | afterIntake _ _ hgate =>
    rw [hgated] at hgate
    cases hgate
  | @afterLayer j _ hj =>
    rw [hlayer j hcall] at hj
    obtain hj | hj | hj := hj <;> cases hj
  | @afterFixes j _ _ hj =>
    rw [hlayer j hcall] at hj
    cases hj

/-- The policy of the scan asks for the approval of its estimate. -/
def AsksForApproval (config : MontrConfig) (scanId : ScanId) (db : Database) : Prop :=
  ∀ row, db.scans.get? scanId = some row → estimateGateRequired row config = true

/-- No step changes the policy of a scan that is there. -/
theorem AsksForApproval.of_step (hstep : Step d.system cfg e cfg') (hknown : Known Registered cfg)
    (h : AsksForApproval d.config scanId cfg'.world.db) :
    AsksForApproval d.config scanId cfg.world.db := by
  intro row hrow
  obtain ⟨row', hrow', -, hpolicy⟩ := get?_of_step hstep hknown hrow
  have hgated := h row' hrow'
  rw [estimateGateRequired, effectiveBudgetPolicy, hpolicy] at hgated
  exact hgated

/-- A row of the scan has its policy. -/
theorem AsksForApproval.estimateGateRequired {row : Scan} (hknown : Known Registered cfg)
    (h : AsksForApproval d.config row.id cfg.world.db) (hrow : Holds cfg row.item) :
    estimateGateRequired row d.config = true := by
  obtain ⟨row', hrow', -, hpolicy⟩ := hknown row.item hrow
  have hgated := h row' hrow'
  rw [MontrSecure.estimateGateRequired, effectiveBudgetPolicy, hpolicy] at hgated
  exact hgated

/-- What a step brings up is ungated as well. -/
theorem ungated_of_brings {item : Item} (hreach : d.Reaches ok cfg)
    (hstep : Step d.system cfg e cfg') (hkept : ¬SkipsEstimate scanId cfg e)
    (hknown : ∀ item, Holds cfg item → Ungated scanId item)
    (hunapproved : ¬EstimateApproved scanId cfg.history)
    (hgated : AsksForApproval d.config scanId cfg.world.db) (hbrings : Brings e item) :
    Ungated scanId item := by
  have hlawful := Deployment.Reaches.lawful hreach
  have hregistered := Deployment.Reaches.registered hreach
  cases hbrings with
  | @issues n c op item he hitem =>
    subst he
    obtain ⟨t, ht, rfl, -, -, hissues⟩ := hstep.awaits hlawful
    cases op with
    | store q =>
      cases q with
      | scansUpdate clientId row =>
        obtain rfl := Option.some.inj hitem
        obtain ⟨old, hold, -, hextends, hlive, hwrites⟩ := hissues
        intro hrow
        obtain rfl : old.id = scanId := hextends.id.symm.trans hrow
        refine shortOfApproval_of_writes hreach hknown hunapproved
          (hgated.estimateGateRequired hregistered (holds_of_rowOf ht hold)) ht hold hlive ?_ hwrites
        intro s token hcall htoken hnext hgate
        have hskips : ¬(old.gateState = .notStarted ∨ old.gateState = .blocked) := fun h =>
          hkept ⟨n, t, s, clientId, row, old, token, by rw [hcall], hgate, ht, hold, rfl, htoken,
            hnext, h⟩
        exact not_or.mp hskips
      | resumeSave clientId token =>
        obtain rfl := Option.some.inj hitem
        obtain ⟨row, hrow, -, hid, hsaves⟩ := hissues
        intro hscan
        generalize hcall : t.call = c at hsaves
        cases hsaves with
        | start hempty => simp [hempty]
        | @advances job existing now htoken =>
          have hjob : row.id = job.scanId :=
            rowOf_id (hlawful.conforms ht) (by rw [hcall]; rfl) hrow
          have hscan : job.scanId = scanId := hscan
          have hlayer : job.layer = .layer0 := hknown _ (.delivered ht hcall) hscan
          have hlayers := completedLayers_of_ungated hlawful hknown ht
            (by rw [hcall, ← hscan]; rfl) htoken
          intro layer hmem
          simp only [advancedToken, List.mem_filter, decide_eq_true_eq] at hmem
          obtain ⟨-, h | h⟩ := hmem
          · exact h.trans hlayer
          · exact hlayers layer h
      | fixesUpdate =>
        obtain rfl := Option.some.inj hitem
        trivial
      | _ => cases hitem
    | enqueue job policy =>
      obtain rfl := Option.some.inj hitem
      obtain ⟨row, hrow, hid, -, -, hschedules⟩ := hissues
      intro hscan
      obtain rfl : row.id = scanId := hid.symm.trans hscan
      exact layer0_of_schedules hreach hknown hunapproved
        (hgated.estimateGateRequired hregistered (holds_of_rowOf ht hrow)) ht hrow hschedules
    | _ => cases hitem
  | @createsScan n c clientId scan r he =>
    subst he
    obtain ⟨t, m, k, m₀, ht, rfl, hphase, -, -, input, id, -, -, rfl⟩ := hstep.awaited hlawful
    intro _
    trivial
  | createsFix => trivial

/-- Until the approval, everything there is of the scan is ungated. -/
theorem Deployment.Reaches.ungated (hreach : d.Reaches (KeepsEstimate scanId) cfg)
    (hgated : AsksForApproval d.config scanId cfg.world.db)
    (hunapproved : ¬EstimateApproved scanId cfg.history) :
    ∀ item, Holds cfg item → Ungated scanId item := by
  induction hreach with
  | start => exact known_initialConfig fun _ item => Ungated scanId item
  | @step cfg cfg' e hreach hok hstep ih =>
    have hbefore : ¬EstimateApproved scanId cfg.history := fun h =>
      hunapproved (hstep.history ▸ h.cons)
    have hgated := hgated.of_step hstep (Deployment.Reaches.registered hreach)
    have hknown := ih hgated hbefore
    intro item hitem
    obtain hitem | hbrings := hitem.of_step hstep (Deployment.Reaches.lawful hreach)
    · exact hknown item hitem
    · exact ungated_of_brings hreach hstep (hok hbefore) hknown hbefore hgated hbrings

/-- In the runs that do not skip the gate, Layer 1 comes only after the approval of the estimate. -/
theorem gatesLayer1_of_keepsEstimate (d : Deployment) (scanId : ScanId) (cfg : PipelineConfig)
    (hreach : d.Reaches (KeepsEstimate scanId) cfg)
    (hgated : AsksForApproval d.config scanId cfg.world.db) : GatesLayer1 scanId cfg.history := by
  induction hreach with
  | start => simp [GatesLayer1, initialConfig]
  | @step cfg cfg' e hreach hok hstep ih =>
    have hgated := hgated.of_step hstep (Deployment.Reaches.registered hreach)
    intro n job ctx post pre hhistory hscan hlayer
    rw [hstep.history] at hhistory
    cases post with
    | cons _ post => exact ih hgated n job ctx post pre (List.cons.inj hhistory).2 hscan hlayer
    | nil =>
      obtain ⟨rfl, rfl⟩ := List.cons.inj hhistory
      by_contra hunapproved
      obtain ⟨t, ht, hcall, -⟩ := hstep.awaits (Deployment.Reaches.lawful hreach)
      have hintake : job.layer = .layer0 :=
        Deployment.Reaches.ungated hreach hgated hunapproved _ (.delivered ht hcall) hscan
      rw [hlayer] at hintake
      cases hintake

/-! ## Runs -/

/-- By default the estimate has to be approved. -/
def estimateDeployment : Deployment := { config := { clientId := "acme" } }

/-- An approval of the estimate does something. -/
def isEstimateApproval : PipelineStep → Bool
  | .performed _ (.approveGate _ .estimate _) _ _ => true
  | _ => false

theorem isEstimateApproval_of_approves (h : ApprovesEstimate scanId e) :
    isEstimateApproval e = true := by
  unfold ApprovesEstimate at h
  split at h
  · rfl
  · cases h

/-- The runner of Layer 1 is given the scan. -/
def runsLayer1 (scanId : ScanId) : PipelineStep → Bool
  | .issued _ (.runLayerJob job) (.runLayer _) => job.scanId = scanId && job.layer = .layer1
  | _ => false

theorem exists_of_runsLayer1 (h : runsLayer1 scanId e = true) :
    ∃ n job ctx, e = .issued n (.runLayerJob job) (.runLayer ctx) ∧ job.scanId = scanId ∧
      job.layer = .layer1 := by
  unfold runsLayer1 at h
  split at h
  · simp only [Bool.and_eq_true, decide_eq_true_eq] at h
    exact ⟨_, _, _, rfl, h⟩
  · cases h

/-- The operation is not issued by `resume`. -/
def notByResume : PipelineStep → Bool
  | .issued _ (.resume _) _ => false
  | _ => true

theorem keepsEstimate_of_notByResume (h : notByResume e = true) : KeepsEstimate scanId cfg e := by
  rintro - ⟨n, t, s, clientId, row, old, token, rfl, -⟩
  cases h

/-- The estimate is presented and approved, and the Layer 1 runner is called. -/
theorem gatesLayer1_of_approval :
    ∃ cfg, estimateDeployment.Reaches (KeepsEstimate "scan") cfg ∧
      AsksForApproval estimateDeployment.config "scan" cfg.world.db ∧
      cfg.history.any (runsLayer1 "scan") = true ∧ GatesLayer1 "scan" cfg.history := by
  obtain ⟨cfg, hreach, hcfg⟩ := estimateDeployment.exists_reaches (fun _ e => notByResume e)
    (demoStart ++ jobThrough 2 demoIntakeJob demoIntake 11 ++
      callThrough 3 (.approveGate "scan" .estimate "bob") 5 ++
      jobToRunner 4 (demoJob (.layer1 "map")))
    (fun cfg => cfg.history.any (runsLayer1 "scan") &&
      (cfg.world.db.scans.get? "scan").all (estimateGateRequired · estimateDeployment.config))
    (by decide +kernel)
  obtain ⟨hruns, hpolicy⟩ := Bool.and_eq_true_iff.mp hcfg
  have hkeeps : estimateDeployment.Reaches (KeepsEstimate "scan") cfg :=
    hreach.mono fun _ _ => keepsEstimate_of_notByResume
  have hgated : AsksForApproval estimateDeployment.config "scan" cfg.world.db := by
    intro row hrow
    rw [hrow] at hpolicy
    exact hpolicy
  exact ⟨cfg, hkeeps, hgated, hruns,
    gatesLayer1_of_keepsEstimate estimateDeployment "scan" cfg hkeeps hgated⟩

/-- The process stops between the checkpoint of Layer 0 and the gate, and `resume` goes on to Layer 1
without an approval. -/
theorem not_gatesLayer1_of_crash :
    ¬∀ cfg, estimateDeployment.Reaches (fun _ _ => True) cfg →
      AsksForApproval estimateDeployment.config "scan" cfg.world.db →
        GatesLayer1 "scan" cfg.history := by
  intro h
  obtain ⟨cfg, hreach, hcfg⟩ := estimateDeployment.exists_reaches (fun _ _ => true)
    (demoStart ++ jobToRunner 2 demoIntakeJob ++
      [.perform 2 (.output (.wellFormed demoIntake))] ++ turns 2 5 .resolve ++ [.crash] ++
      callThrough 3 (.resume "scan") 8 ++ jobToRunner 4 (demoJob (.layer1 "map")))
    (fun cfg => anyEvent (fun e pre => runsLayer1 "scan" e && !pre.any isEstimateApproval)
        cfg.history &&
      (cfg.world.db.scans.get? "scan").all (estimateGateRequired · estimateDeployment.config))
    (by decide +kernel)
  obtain ⟨hruns, hpolicy⟩ := Bool.and_eq_true_iff.mp hcfg
  obtain ⟨post, e, pre, hhistory, he⟩ := exists_of_anyEvent hruns
  obtain ⟨he, hnone⟩ := Bool.and_eq_true_iff.mp he
  obtain ⟨n, job, ctx, rfl, hscan, hlayer⟩ := exists_of_runsLayer1 he
  obtain ⟨e, hmem, happroves⟩ := h cfg (hreach.mono fun _ _ _ => trivial)
    (fun row hrow => by rw [hrow] at hpolicy; exact hpolicy) n job ctx post pre hhistory hscan hlayer
  have hany : pre.any isEstimateApproval = true :=
    List.any_eq_true.mpr ⟨e, hmem, isEstimateApproval_of_approves happroves⟩
  rw [hany] at hnone
  cases hnone

end MontrSecure
