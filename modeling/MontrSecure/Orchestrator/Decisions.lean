import MontrSecure.Orchestrator.Runs

/-!
# Lifecycle decisions

`pause`, `cancel` and `kill` decide on a scan by writing its status. Every other writer stores a
whole row back that it has read some awaits before, and the status in it. `standing` is the decision
in force after a history, and `heard` says that a call has accessed the row since. A decision is
lost exactly where a call that has not heard of it writes another status; the runs without such
writes keep every decision, `decisionsHold_of_heedsDecisions`.
-/

namespace MontrSecure

open Async

/-! ## Decisions -/

/-- The calls that stop a scan. -/
def Call.stops : Call → Bool
  | .cancel _ | .kill _ | .remoteKill _ => true
  | _ => false

/-- The calls that take a scan up again. -/
def Call.takesUp : Call → Bool
  | .resume _ | .approveGate .. => true
  | _ => false

/-- The call has paused or stopped the scan. -/
def decides (scanId : ScanId) : PipelineStep → Bool
  | .performed _ c (.store (.scansUpdate _ row)) (.ok _) =>
    row.id = scanId && (c.stops || match c with | .pause _ => true | _ => false)
  | _ => false

/-- Task `n` has read or written the row of the scan. -/
def accesses (n : ℕ) (scanId : ScanId) : PipelineStep → Bool
  | .performed k _ (.store (.scansGet _ _)) (.ok (some row)) => k = n && row.id = scanId
  | .performed k _ (.store (.scansUpdate _ row)) (.ok _) => k = n && row.id = scanId
  | _ => false

/-- Task `n` has accessed the row of the scan since the last decision on it. -/
def heard (n : ℕ) (scanId : ScanId) : List PipelineStep → Bool
  | [] => false
  | e :: history =>
    if decides scanId e then false else accesses n scanId e || heard n scanId history

/-- The decision in force: `paused` or `cancelled`, once `pause`, `cancel` or `kill` has written it
and until `resume` or `approveGate`, having heard of it, changes it. Only `cancel` and `kill` change
a pause into a cancellation, and nothing takes a cancellation back to a pause. -/
def standing (scanId : ScanId) : List PipelineStep → Option ScanStatus
  | [] => none
  | e :: history =>
    match e with
    | .performed n c (.store (.scansUpdate _ row)) (.ok _) =>
      if row.id ≠ scanId then standing scanId history
      else if c.stops then some .cancelled
      else
        match c with
        | .pause _ => some ((standing scanId history).getD .paused)
        | _ =>
          if c.takesUp && heard n scanId history then
            (standing scanId history).filter (· = row.status)
          else standing scanId history
    | _ => standing scanId history

/-- The decision in force is what the database says. -/
def DecisionsHold (scanId : ScanId) (cfg : PipelineConfig) : Prop :=
  ∀ status, standing scanId cfg.history = some status →
    ∃ row, cfg.world.db.scans.get? scanId = some row ∧ row.status = status

/-- A call that has not heard of the decision in force does not write another status. -/
def HeedsDecisions (scanId : ScanId) (cfg : PipelineConfig) : PipelineStep → Prop
  | .performed n c (.store (.scansUpdate _ row)) (.ok _) =>
    row.id = scanId → c.stops = false → ∀ status, standing scanId cfg.history = some status →
      heard n scanId cfg.history = true ∨ row.status = status
  | _ => True

variable {d : Deployment} {ok : PipelineConfig → PipelineStep → Prop} {cfg cfg' : PipelineConfig}
  {n : ℕ} {t : PipelineTask} {scanId : ScanId} {history : List PipelineStep} {e : PipelineStep}
  {status : ScanStatus}

/-- Only pauses and cancellations are decided. -/
theorem eq_of_standing (h : standing scanId history = some status) :
    status = .paused ∨ status = .cancelled := by
  induction history generalizing status with
  | nil => cases h
  | cons e history ih =>
    rw [standing.eq_def] at h
    simp only at h
    split at h
    · split at h
      · exact ih h
      · split at h
        · cases h
          exact .inr rfl
        · split at h
          · cases hstanding : standing scanId history with
            | none =>
              rw [hstanding] at h
              cases h
              exact .inl rfl
            | some status' =>
              rw [hstanding] at h
              cases h
              exact ih hstanding
          · split at h
            · exact ih (Option.filter_eq_some_iff.mp h).1
            · exact ih h
    · exact ih h

example : standing "scan" [] = none := by decide +kernel

/-! ## Rows held -/

/-- What a call writes that has heard of the decision and is no lifecycle call that may change
it. -/
theorem status_of_writes {config : MontrConfig} {tr : OpTrace} {c : Call} {old : Scan}
    {new : ScanStatus} {gate : GateState} (hwrites : Writes config tr old c new gate)
    (hlive : (∃ job, c = .runLayerJob job) → old.Live) (hstops : c.stops = false)
    (htakesUp : c.takesUp = false) (hstatus : status = .paused ∨ status = .cancelled)
    (hold : old.status = status) : new = status := by
  subst hold
  cases hwrites with
  | start h =>
    rw [h] at hstatus
    obtain hstatus | hstatus := hstatus <;> cases hstatus
  | pause h =>
    obtain hstatus | hstatus := hstatus
    · exact hstatus.symm
    · rw [hstatus] at h
      cases h
  | resumed | resumeEnters | resumeCompletes | approvesEstimate | approvalEnters | approvesFix =>
    cases htakesUp
  | cancel | kill | remoteKill => cases hstops
  | authorizes => rfl
  | _ =>
    -- A layer job only goes on with a scan that is neither over nor paused.
    obtain ⟨hterminal, hpaused⟩ := hlive ⟨_, rfl⟩
    obtain hstatus | hstatus := hstatus
    · exact absurd hstatus hpaused
    · simp [hstatus, isTerminalStatus] at hterminal

/-- The rows held by the calls that have heard of the decision in force, and may not change it, say
so. -/
def HeardRows (scanId : ScanId) (cfg : PipelineConfig) : Prop :=
  ∀ (n : ℕ) (t : PipelineTask) (status : ScanStatus) (old : Scan), cfg.tasks[n]? = some t →
    t.call.stops = false → t.call.takesUp = false → standing scanId cfg.history = some status →
      heard n scanId cfg.history = true → rowOf t.trace = some old → old.id = scanId →
        old.status = status

/-! ## Steps -/

/-- Nothing but a write that is carried out changes the decision in force. -/
theorem standing_cons (h : ∀ n c clientId row r,
      e ≠ .performed n c (.store (.scansUpdate clientId row)) (.ok r)) :
    standing scanId (e :: history) = standing scanId history := by
  rw [standing]
  intro n c clientId row r he
  exact h n c clientId row r he

/-- A row that no step writes keeps its status. -/
theorem get?_of_no_write {row : Scan} (hstep : Step d.system cfg e cfg')
    (hwrite : ∀ n c clientId scan r,
      e = .performed n c (.store (.scansUpdate clientId scan)) (.ok r) → scan.id ≠ scanId)
    (hrow : cfg.world.db.scans.get? scanId = some row) :
    cfg'.world.db.scans.get? scanId = some row := by
  obtain hdb | ⟨pr, prs, -, hdb⟩ | ⟨n, t, m, q, k, v, rfl, ht, hphase, hexec⟩ := step_db hstep
  · exact hdb ▸ hrow
  · rw [hdb]
    exact hrow
  · obtain h | ⟨clientId, scan, rfl, hfresh, h⟩ | ⟨clientId, scan, old, rfl, hold, hclient, h⟩ :=
      StoreOp.exec_scans hexec
    · exact h ▸ hrow
    · exact h ▸ Table.get?_insertNew_of_some hrow
    · have hid : old.id = scan.id := Table.key_of_get? hold
      have hne : (scanToUpdate old scan).id ≠ scanId := fun h =>
        hwrite n t.call clientId scan v rfl (hid.symm.trans h)
      rw [h, Table.get?_replace, if_neg hne]
      exact hrow

/-- A row that is written has the status that was written. -/
theorem get?_of_write {c : Call} {clientId : ClientId} {scan r : Scan}
    (hstep : Step d.system cfg (.performed n c (.store (.scansUpdate clientId scan)) (.ok r)) cfg') :
    ∃ row, cfg'.world.db.scans.get? scan.id = some row ∧ row.status = scan.status := by
  have hexec := exec_of_performed hstep
  simp only [StoreOp.exec, ScanRepository.update] at hexec
  split at hexec
  · cases hexec
  · rename_i old hget
    split at hexec
    · injection hexec with hexec
      have hold := (Option.filter_eq_some_iff.mp hget).1
      have hid : old.id = scan.id := Table.key_of_get? hold
      have hid : (scanToUpdate old scan).id = scan.id := hid
      refine ⟨scanToUpdate old scan, ?_, rfl⟩
      rw [← (Prod.mk.inj hexec).2, Table.get?_replace, if_pos hid, hold]
      rfl
    · cases hexec

/-- What the calls that stop a scan write. -/
theorem status_of_stops {config : MontrConfig} {tr : OpTrace} {c : Call} {old : Scan}
    {new : ScanStatus} {gate : GateState} (hwrites : Writes config tr old c new gate)
    (hstops : c.stops = true) : new = .cancelled := by
  cases hwrites with
  | cancel | kill | remoteKill => rfl
  | _ => cases hstops

/-- A step that decides nothing does not bring up a decision. -/
theorem standing_of_cons (hdecides : decides scanId e = false)
    (h : standing scanId (e :: history) = some status) :
    standing scanId history = some status := by
  rw [standing.eq_def] at h
  simp only at h
  split at h
  · rename_i n c clientId row r
    split at h
    · exact h
    · rename_i hrow
      simp only [ne_eq, not_not] at hrow
      split at h
      · rename_i hstops
        simp [decides, hrow, hstops] at hdecides
      · split at h
        · simp [decides, hrow] at hdecides
        · split at h
          · exact (Option.filter_eq_some_iff.mp h).1
          · exact h
  · exact h

/-- The row that is written says what the decision in force says. -/
theorem status_of_standing {c : Call} {clientId : ClientId} {row r : Scan}
    (hreach : d.Reaches ok cfg)
    (hstep : Step d.system cfg (.performed n c (.store (.scansUpdate clientId row)) (.ok r)) cfg')
    (hheeds : HeedsDecisions scanId cfg
      (.performed n c (.store (.scansUpdate clientId row)) (.ok r)))
    (hheard : HeardRows scanId cfg) (hrow : row.id = scanId)
    (h : standing scanId (.performed n c (.store (.scansUpdate clientId row)) (.ok r) ::
      cfg.history) = some status) : row.status = status := by
  obtain ⟨t, m, k, m₀, ht, rfl, hphase, -, -, old, hold, -, hextends, hlive, hwrites⟩ :=
    hstep.awaited (Deployment.Reaches.lawful hreach)
  have hid : old.id = scanId := hextends.id.symm.trans hrow
  -- A decision that stood before is heeded, or has been heard of.
  have hstood : ∀ status, standing scanId cfg.history = some status → t.call.stops = false →
      (heard n scanId cfg.history = true → t.call.takesUp = false) → row.status = status := by
    intro status hstanding hstops htakesUp
    obtain hn | hstatus := hheeds hrow hstops status hstanding
    · have hheld := hheard n t status old ht hstops (htakesUp hn) hstanding hn hold hid
      exact status_of_writes hwrites hlive hstops (htakesUp hn) (eq_of_standing hstanding) hheld
    · exact hstatus
  rw [standing.eq_def] at h
  simp only [hrow, ne_eq, not_true_eq_false, if_false] at h
  split at h
  · rename_i hstops
    cases h
    exact status_of_stops hwrites hstops
  · rename_i hstops
    have hstops : t.call.stops = false := by simpa using hstops
    split at h
    · rename_i s hcall
      cases hstanding : standing scanId cfg.history with
      | none =>
        rw [hstanding] at h
        cases h
        rw [hcall] at hwrites
        generalize row.status = new, row.gateState = gate at hwrites
        cases hwrites
        rfl
      | some status' =>
        rw [hstanding] at h
        cases h
        exact hstood _ hstanding hstops fun _ => by rw [hcall]; rfl
    · split at h
      · exact (of_decide_eq_true (Option.filter_eq_some_iff.mp h).2).symm
      · rename_i hnot
        refine hstood _ h hstops fun hn => ?_
        simpa [hn] using hnot

/-- A step keeps the decision in force. -/
theorem DecisionsHold.step (h : DecisionsHold scanId cfg) (hreach : d.Reaches ok cfg)
    (hstep : Step d.system cfg e cfg') (hheeds : HeedsDecisions scanId cfg e)
    (hheard : HeardRows scanId cfg) : DecisionsHold scanId cfg' := by
  intro status hstanding
  rw [hstep.history] at hstanding
  by_cases hwrite : ∃ n c clientId row r,
      e = .performed n c (.store (.scansUpdate clientId row)) (.ok r) ∧ row.id = scanId
  · obtain ⟨n, c, clientId, row, r, rfl, rfl⟩ := hwrite
    obtain ⟨row', hrow', hstatus⟩ := get?_of_write hstep
    exact ⟨row', hrow',
      hstatus.trans (status_of_standing hreach hstep hheeds hheard rfl hstanding)⟩
  · have hdecides : decides scanId e = false := by
      unfold decides
      split
      · rename_i n c clientId row r
        have hrow : row.id ≠ scanId := fun hrow => hwrite ⟨n, c, clientId, row, r, rfl, hrow⟩
        simp [hrow]
      · rfl
    obtain ⟨row, hrow, hstatus⟩ := h status (standing_of_cons hdecides hstanding)
    refine ⟨row, get?_of_no_write hstep ?_ hrow, hstatus⟩
    intro n c clientId scan r he hscan
    exact hwrite ⟨n, c, clientId, scan, r, he, hscan⟩

/-- A task that accesses a row holds it. -/
theorem row?_of_accesses {c : Call} {m : Memory} {op : Op} {r : op.Ans}
    (h : accesses n scanId (.performed n c op r) = true) : OpAwait.row? ⟨m, op, r⟩ ≠ none := by
  unfold accesses at h
  split at h
  · rename_i heq
    cases heq
    simp [OpAwait.row?]
  · rename_i heq
    cases heq
    simp [OpAwait.row?]
  · cases h

/-- A step keeps what is known of the rows held. -/
theorem HeardRows.step (h : HeardRows scanId cfg) (hreach : d.Reaches ok cfg)
    (hstep : Step d.system cfg e cfg') (hheeds : HeedsDecisions scanId cfg e)
    (hdecisions : DecisionsHold scanId cfg) : HeardRows scanId cfg' := by
  intro k u status old hu hstops htakesUp hstanding hheard hold hid
  have hlawful := Deployment.Reaches.lawful hreach
  have hstep' := hstep
  rw [hstep.history] at hstanding hheard
  have hdecides : decides scanId e = false := by
    by_contra hdecides
    simp [heard, hdecides] at hheard
  have hstood := standing_of_cons hdecides hstanding
  have hheard : (accesses k scanId e || heard k scanId cfg.history) = true := by
    simpa [heard, hdecides] using hheard
  cases hstep with
  | enter henter =>
    obtain ⟨-, rfl⟩ | hu := task_of_append hu
    · cases hold
    · exact h k u status old hu hstops htakesUp hstood (by simpa [accesses] using hheard) hold hid
  | issue ht hphase hrun | leave ht hphase hrun =>
    have hheard : heard k scanId cfg.history = true := by simpa [accesses] using hheard
    obtain ⟨rfl, rfl⟩ | ⟨-, hu⟩ := task_of_set hu
    · exact h _ _ status old ht hstops htakesUp hstood hheard hold hid
    · exact h k u status old hu hstops htakesUp hstood hheard hold hid
  | env =>
    exact h k u status old hu hstops htakesUp hstood (by simpa [accesses] using hheard) hold hid
  | crash =>
    obtain ⟨t, ht, rfl⟩ := task_of_crash hu
    exact h k t status old ht hstops htakesUp hstood (by simpa [accesses] using hheard) hold hid
  | @perform n t m op q ch ht hphase w r hperform =>
    obtain ⟨rfl, rfl⟩ | ⟨hne, hu⟩ := task_of_set hu
    · rw [rowOf, List.findSome?_cons] at hold
      split at hold
      · rename_i hx
        cases hold
        unfold OpAwait.row? at hx
        split at hx
        · -- The row has just been read, so it is the one that is persisted.
          rename_i hread
          cases hread
          cases hx
          have hexec := exec_of_performed hstep'
          injection hexec with hexec
          obtain ⟨hget, -⟩ := Prod.mk.inj hexec
          have hpersisted := (Option.filter_eq_some_iff.mp hget).1
          have hread : old.id = _ := Table.key_of_get? hpersisted
          obtain ⟨row, hrow, hstatus⟩ := hdecisions status hstood
          rw [← hread, hid, hrow] at hpersisted
          cases hpersisted
          exact hstatus
        · rename_i hwritten
          cases hwritten
          cases hx
          rename_i clientId r _
          obtain ⟨m₀, -, -, old', hold', -, hextends, hlive, hwrites⟩ := hlawful.waiting ht hphase
          cases r with
          | ok r =>
            exact status_of_standing hreach hstep' hheeds h hid hstanding
          | error err =>
            have hheard : heard k scanId cfg.history = true := by simpa [accesses] using hheard
            have hheld := h _ t status old' ht hstops htakesUp hstood hheard hold'
              (hextends.id.symm.trans hid)
            exact status_of_writes hwrites hlive hstops htakesUp (eq_of_standing hstood) hheld
        · cases hx
      · rename_i hx
        have haccesses : accesses k scanId (.performed k t.call op r) = false := by
          by_contra haccesses
          exact row?_of_accesses (by simpa using haccesses) hx
        rw [haccesses, Bool.false_or] at hheard
        exact h k t status old ht hstops htakesUp hstood hheard hold hid
    · have haccesses : accesses k scanId (.performed n t.call op r) = false := by
        unfold accesses
        split
        · rename_i heq
          cases heq
          simp [Ne.symm hne]
        · rename_i heq
          cases heq
          simp [Ne.symm hne]
        · rfl
      rw [haccesses, Bool.false_or] at hheard
      exact h k u status old hu hstops htakesUp hstood hheard hold hid

/-- In the runs whose writers heed the decisions, a decision stands until a later lifecycle call
changes it. -/
theorem decisionsHold_of_heedsDecisions (d : Deployment) (scanId : ScanId) (cfg : PipelineConfig)
    (hreach : d.Reaches (HeedsDecisions scanId) cfg) : DecisionsHold scanId cfg := by
  have hinv : DecisionsHold scanId cfg ∧ HeardRows scanId cfg := by
    induction hreach with
    | start =>
      refine ⟨fun status h => ?_, fun n t status old ht => ?_⟩
      · cases h
      · simp [initialConfig] at ht
    | step hreach hok hstep ih =>
      obtain ⟨hdecisions, hheard⟩ := ih
      exact ⟨hdecisions.step hreach hstep hok hheard, hheard.step hreach hstep hok hdecisions⟩
  exact hinv.1

/-! ## Runs -/

/-- `HeedsDecisions`, computed. -/
def heedsDecisions (scanId : ScanId) (cfg : PipelineConfig) : PipelineStep → Bool
  | .performed n c (.store (.scansUpdate _ row)) (.ok _) =>
    row.id ≠ scanId || c.stops ||
      (standing scanId cfg.history).all fun status =>
        heard n scanId cfg.history || row.status = status
  | _ => true

theorem heedsDecisions_sound (h : heedsDecisions scanId cfg e = true) :
    HeedsDecisions scanId cfg e := by
  unfold heedsDecisions at h
  split at h
  · intro hrow hstops status hstanding
    simpa [hrow, hstops, hstanding] using h
  · rename_i hne
    unfold HeedsDecisions
    split
    · exact absurd rfl (hne _ _ _ _ _)
    · trivial

/-- The scan is paused while its Layer 0 runner is at work. -/
def pausedRun : List PipelineLabel :=
  demoStart ++ jobToRunner 2 demoIntakeJob ++ callThrough 3 (.pause "scan") 3

/-- The pause holds as long as the runner does not return. -/
theorem decisionsHold_of_pausedRun :
    ∃ cfg, estimateFreeDeployment.Reaches (HeedsDecisions "scan") cfg ∧
      standing "scan" cfg.history = some .paused ∧ DecisionsHold "scan" cfg := by
  obtain ⟨cfg, hreach, hcfg⟩ := estimateFreeDeployment.exists_reaches (heedsDecisions "scan")
    pausedRun (fun cfg => standing "scan" cfg.history = some .paused) (by decide +kernel)
  have hheeds : estimateFreeDeployment.Reaches (HeedsDecisions "scan") cfg :=
    hreach.mono fun _ _ => heedsDecisions_sound
  exact ⟨cfg, hheeds, by simpa using hcfg,
    decisionsHold_of_heedsDecisions estimateFreeDeployment "scan" cfg hheeds⟩

/-- The runner returns, and the scan object it was started with is stored back: the scan is running
again. -/
theorem not_decisionsHold_of_persist :
    ¬∀ cfg, estimateFreeDeployment.Reaches (fun _ _ => True) cfg → DecisionsHold "scan" cfg := by
  intro h
  obtain ⟨cfg, hreach, hcfg⟩ := estimateFreeDeployment.exists_reaches (fun _ _ => true)
    (pausedRun ++ [.perform 2 (.output (.wellFormed demoIntake))] ++ turns 2 2 .resolve)
    (fun cfg => standing "scan" cfg.history = some .paused &&
      (cfg.world.db.scans.get? "scan").any (·.status = .running)) (by decide +kernel)
  simp only [Bool.and_eq_true, decide_eq_true_eq, Option.any_eq_true] at hcfg
  obtain ⟨hstanding, row, hrow, hrunning⟩ := hcfg
  obtain ⟨row', hrow', hpaused⟩ := h cfg (hreach.mono fun _ _ _ => trivial) _ hstanding
  rw [hrow] at hrow'
  cases hrow'
  rw [hrunning] at hpaused
  cases hpaused

end MontrSecure
