import MontrSecure.Orchestrator.Runs

/-!
# Provenance

Rows, checkpoints, jobs and fixes are handed on from the database to the calls, from call to call
through the queues, and back. `Holds` says where in a configuration a piece of such data is, and
`Holds.of_step` that a step brings up a new one only by issuing an operation with it, or by creating
a row. What holds of all data there is can therefore be proved once for each await that hands on new
data: `Reaches.known` is that rule.
-/

namespace MontrSecure

open Async

/-- What is known of a scan, of its checkpoint, of one of its jobs or of a fix. -/
inductive Item where
  | row (id : ScanId) (clientId : ClientId) (status : ScanStatus) (gate : GateState)
    (budgetPolicy : Option BudgetPolicy)
  | token (scanId : ScanId) (completed : List LayerId)
  | job (job : LayerJobData)
  | fix (id : EntityId) (riskClass : RiskClass)

/-- What a row says of its scan. -/
def Scan.item (scan : Scan) : Item :=
  .row scan.id scan.clientId scan.status scan.gateState scan.budgetPolicy

/-- What an operation hands on. -/
def Op.item? : Op → Option Item
  | .store (.scansUpdate _ row) => some row.item
  | .store (.resumeSave _ token) => some (.token token.scanId token.completedLayers)
  | .store (.fixesUpdate _ fix) => some (.fix fix.id fix.riskClass)
  | .enqueue job _ => some (.job job)
  | _ => none

/-- What an await was answered. -/
def OpAwait.answered : OpAwait → List Item
  | ⟨_, .store (.scansGet ..), .ok row⟩ => (row.map Scan.item).toList
  | ⟨_, .store (.resumeGet ..), .ok token⟩ =>
    (token.map fun t => .token t.scanId t.completedLayers).toList
  | ⟨_, .store (.fixesGet ..), .ok fix⟩ => (fix.map fun f => .fix f.id f.riskClass).toList
  | ⟨_, .store (.fixesListByScan ..), .ok fixes⟩ => fixes.map fun f => .fix f.id f.riskClass
  | _ => []

/-- A configuration holds an item: in a table, in a queue, or in a call. -/
inductive Holds (cfg : PipelineConfig) : Item → Prop where
  | scan {row : Scan} (h : row ∈ cfg.world.db.scans.rows) : Holds cfg row.item
  | state {row : ScanStateRow} (h : row ∈ cfg.world.db.scanStates.rows) :
      Holds cfg (.token row.scanId row.completedLayers)
  | fix {f : Fix} (h : f ∈ cfg.world.db.fixes.rows) : Holds cfg (.fix f.id f.riskClass)
  | queued {job : LayerJobData} (h : cfg.world.HasJob job) : Holds cfg (.job job)
  | delivered {n : ℕ} {t : PipelineTask} {job : LayerJobData} (ht : cfg.tasks[n]? = some t)
      (hcall : t.call = .runLayerJob job) : Holds cfg (.job job)
  | issued {n : ℕ} {t : PipelineTask} {m : Memory} {op : Op}
      {k : op.Ans → Memory → Outcome Op Op.Ans Memory Err Unit} {item : Item}
      (ht : cfg.tasks[n]? = some t) (hphase : t.phase = .waiting m op k)
      (hitem : op.item? = some item) : Holds cfg item
  | handed {n : ℕ} {t : PipelineTask} {x : OpAwait} {item : Item} (ht : cfg.tasks[n]? = some t)
      (hx : x ∈ t.trace) (hitem : x.op.item? = some item) : Holds cfg item
  | answered {n : ℕ} {t : PipelineTask} {x : OpAwait} {item : Item} (ht : cfg.tasks[n]? = some t)
      (hx : x ∈ t.trace) (hitem : item ∈ OpAwait.answered x) : Holds cfg item

/-- How a step brings up new data: an operation is issued with it, or a row is created. -/
inductive Brings (e : PipelineStep) : Item → Prop where
  | issues {n : ℕ} {c : Call} {op : Op} {item : Item} (he : e = .issued n c op)
      (hitem : op.item? = some item) : Brings e item
  | createsScan {n : ℕ} {c : Call} {clientId : ClientId} {scan r : Scan}
      (he : e = .performed n c (.store (.scansCreate clientId scan)) (.ok r)) :
      Brings e ({ scan with clientId } : Scan).item
  | createsFix {n : ℕ} {c : Call} {clientId : ClientId} {fix r : Fix}
      (he : e = .performed n c (.store (.fixesCreate clientId fix)) (.ok r)) :
      Brings e (.fix fix.id fix.riskClass)

variable {d : Deployment} {ok : PipelineConfig → PipelineStep → Prop} {cfg cfg' : PipelineConfig}
  {e : PipelineStep} {item : Item}

/-! ## What a step brings up -/

/-- An answer holds nothing that the database did not. -/
theorem holds_of_answered {op : Op} {m : Memory} {r : op.Ans} {ch : Choice} {w : World}
    (hperform : d.perform op ch cfg.mem cfg.world = (w, r))
    (hitem : item ∈ OpAwait.answered ⟨m, op, r⟩) : Holds cfg item := by
  cases op with
  | store q =>
    obtain ⟨-, err, rfl⟩ | ⟨v, db, hexec, -, rfl⟩ := Deployment.perform_store hperform
    · cases q <;> cases hitem
    · cases q with
      | scansGet clientId id =>
        cases hexec
        simp only [OpAwait.answered, Option.mem_toList, Option.map_eq_some_iff,
          ScanRepository.get, Option.filter_eq_some_iff] at hitem
        obtain ⟨row, ⟨hrow, -⟩, rfl⟩ := hitem
        exact .scan (Table.mem_of_get? hrow)
      | resumeGet clientId scanId =>
        cases hexec
        simp only [OpAwait.answered, Option.mem_toList, Option.map_eq_some_iff,
          ResumeRepository.get] at hitem
        obtain ⟨_, ⟨row, hrow, rfl⟩, rfl⟩ := hitem
        exact .state (Table.mem_of_get? hrow)
      | fixesGet clientId id =>
        cases hexec
        simp only [OpAwait.answered, Option.mem_toList, Option.map_eq_some_iff,
          FixRepository.get, Option.filter_eq_some_iff] at hitem
        obtain ⟨f, ⟨hf, -⟩, rfl⟩ := hitem
        exact .fix (Table.mem_of_get? hf)
      | fixesListByScan clientId scanId =>
        cases hexec
        simp only [OpAwait.answered, List.mem_map, FixRepository.listByScan, List.mem_filter] at hitem
        obtain ⟨f, ⟨hf, -⟩, rfl⟩ := hitem
        exact .fix hf
      | _ => cases hitem
  | _ => cases hitem

/-- A row of the table of scans. -/
theorem holds_of_scan {row : Scan} (hstep : Step d.system cfg e cfg')
    (hlawful : cfg.Lawful (pipelineProtocol d.config)) (hrow : row ∈ cfg'.world.db.scans.rows) :
    Holds cfg row.item ∨ Brings e row.item := by
  obtain hdb | ⟨pr, prs, -, hdb⟩ | ⟨n, t, m, q, k, v, rfl, ht, hphase, hexec⟩ := step_db hstep
  · exact .inl (.scan (hdb ▸ hrow))
  · rw [hdb] at hrow
    exact .inl (.scan hrow)
  · obtain h | ⟨clientId, scan, rfl, hfresh, h⟩ | ⟨clientId, scan, old, rfl, hold, hclient, h⟩ :=
      StoreOp.exec_scans hexec
    · exact .inl (.scan (h ▸ hrow))
    · have hfresh : cfg.world.db.scans.contains ({ scan with clientId } : Scan).id = false := hfresh
      rw [h, Table.rows_insertNew hfresh] at hrow
      obtain hrow | hrow := List.mem_append.mp hrow
      · exact .inl (.scan hrow)
      · rw [List.mem_singleton.mp hrow]
        exact .inr (.createsScan rfl)
    · rw [h] at hrow
      obtain rfl | hrow := Table.mem_replace hrow
      · -- The identity of the row is the one the call had read.
        obtain ⟨m₀, -, -, old', hold', hclient', hextends, -⟩ := hlawful.waiting ht hphase
        have hitem : (scanToUpdate old scan).item = scan.item := by
          have hid : old.id = scan.id := Table.key_of_get? hold
          have hclient : old.clientId = scan.clientId := by
            rw [hclient, hclient', hextends.clientId]
          simp [Scan.item, scanToUpdate, hid, hclient]
        rw [hitem]
        exact .inl (.issued ht hphase rfl)
      · exact .inl (.scan hrow)

/-- A row of the table of checkpoints. -/
theorem holds_of_state {row : ScanStateRow} (hstep : Step d.system cfg e cfg')
    (hrow : row ∈ cfg'.world.db.scanStates.rows) :
    Holds cfg (.token row.scanId row.completedLayers) := by
  obtain hdb | ⟨pr, prs, -, hdb⟩ | ⟨n, t, m, q, k, v, rfl, ht, hphase, hexec⟩ := step_db hstep
  · exact .state (hdb ▸ hrow)
  · rw [hdb] at hrow
    exact .state hrow
  · obtain h | ⟨clientId, token, rfl, h⟩ := StoreOp.exec_scanStates hexec
    · exact .state (h ▸ hrow)
    · have hget : ResumeRepository.get row.clientId row.scanId cfg'.world.db =
          some (resumeTokenFromState row) := by
        have hrow' := Table.get?_of_mem hrow
        simp [ResumeRepository.get, hrow']
      have hstate := h (row.clientId, row.scanId)
      rw [hget] at hstate
      split at hstate
      · rename_i hkey
        have hcompleted : row.completedLayers = token.completedLayers :=
          congrArg ResumeToken.completedLayers (Option.some.inj hstate)
        rw [hcompleted, (Prod.mk.inj hkey).2]
        exact .issued ht hphase rfl
      · obtain ⟨old, hold, heq⟩ := Option.map_eq_some_iff.mp hstate.symm
        have hcompleted : old.completedLayers = row.completedLayers :=
          congrArg ResumeToken.completedLayers heq
        have hscan : old.scanId = row.scanId := congrArg ResumeToken.scanId heq
        rw [← hcompleted, ← hscan]
        exact .state (Table.mem_of_get? hold)

/-- A row of the table of fixes. -/
theorem holds_of_fix {f : Fix} (hstep : Step d.system cfg e cfg')
    (hf : f ∈ cfg'.world.db.fixes.rows) :
    Holds cfg (.fix f.id f.riskClass) ∨ Brings e (.fix f.id f.riskClass) := by
  obtain hdb | ⟨pr, prs, -, hdb⟩ | ⟨n, t, m, q, k, v, rfl, ht, hphase, hexec⟩ := step_db hstep
  · exact .inl (.fix (hdb ▸ hf))
  · rw [hdb] at hf
    exact .inl (.fix hf)
  · obtain h | ⟨clientId, fix, rfl, h⟩ | ⟨clientId, fix, old, rfl, hold, h⟩ :=
      StoreOp.exec_fixes hexec
    · exact .inl (.fix (h ▸ hf))
    · rw [h] at hf
      cases hc : cfg.world.db.fixes.contains (fixToCreate clientId cfg.mem.now fix).id with
      | true =>
        rw [Table.insertNew_of_contains hc] at hf
        exact .inl (.fix hf)
      | false =>
        rw [Table.rows_insertNew hc] at hf
        obtain hf | hf := List.mem_append.mp hf
        · exact .inl (.fix hf)
        · obtain rfl := List.mem_singleton.mp hf
          exact .inr (show Brings _ (.fix fix.id fix.riskClass) from .createsFix rfl)
    · rw [h] at hf
      obtain rfl | hf := Table.mem_replace hf
      · have hid : old.id = fix.id := by
          simp only [FixRepository.get, Option.filter_eq_some_iff] at hold
          exact Table.key_of_get? hold.1
        have hitem : Item.fix (fixToUpdate old cfg.mem.now fix).id
            (fixToUpdate old cfg.mem.now fix).riskClass = .fix fix.id fix.riskClass := by
          simp [fixToUpdate, hid]
        rw [hitem]
        exact .inl (.issued ht hphase rfl)
      · exact .inl (.fix hf)

/-- A step brings up new data only where `Brings` says so. -/
theorem Holds.of_step (hstep : Step d.system cfg e cfg')
    (hlawful : cfg.Lawful (pipelineProtocol d.config)) (h : Holds cfg' item) :
    Holds cfg item ∨ Brings e item := by
  cases h with
  | scan h => exact holds_of_scan hstep hlawful h
  | state h => exact .inl (holds_of_state hstep h)
  | fix h => exact holds_of_fix hstep h
  | queued h =>
    obtain h | ⟨n, t, m, policy, k, -, ht, hphase⟩ := step_hasJob hstep h
    · exact .inl (.queued h)
    · exact .inl (.issued ht hphase rfl)
  | @delivered n u job hu hcall =>
    cases hstep with
    | enter henter =>
      obtain ⟨-, rfl⟩ | hu := task_of_append hu
      · obtain rfl := hcall
        exact .inl (.queued (Deployment.hasJob_of_enter henter))
      · exact .inl (.delivered hu hcall)
    | issue ht _ _ | perform _ ht _ _ | leave ht _ _ =>
      obtain ⟨rfl, rfl⟩ | ⟨-, hu⟩ := task_of_set hu
      · exact .inl (.delivered ht hcall)
      · exact .inl (.delivered hu hcall)
    | env => exact .inl (.delivered hu hcall)
    | crash =>
      obtain ⟨t, ht, rfl⟩ := task_of_crash hu
      exact .inl (.delivered ht hcall)
  | @issued n u m op k item hu hphase hitem =>
    obtain ⟨-, -, hready⟩ | hu | ⟨t, ht, -, h⟩ := hstep.task hu
    · rw [hready] at hphase
      cases hphase
    · exact .inl (.issued hu hphase hitem)
    · obtain ⟨p, op', q, rfl, -, -, -, hwaiting⟩ | ⟨_, _, _, _, -, -, -, hready⟩ | ⟨-, hfinished⟩ := h
      · rw [hwaiting] at hphase
        cases hphase
        exact .inr (.issues rfl hitem)
      · rw [hready] at hphase
        cases hphase
      · rw [hfinished] at hphase
        cases hphase
  | @handed n u x item hu hx hitem =>
    obtain ⟨-, htrace⟩ | ⟨t, ht, -, htrace | ⟨m, op, q, r, -, hphase, htrace⟩⟩ := hstep.trace hu
    · simp [htrace] at hx
    · exact .inl (.handed ht (htrace ▸ hx) hitem)
    · rw [htrace] at hx
      obtain rfl | hx := List.mem_cons.mp hx
      · exact .inl (.issued ht hphase hitem)
      · exact .inl (.handed ht hx hitem)
  | @answered n u x item hu hx hitem =>
    cases hstep with
    | enter =>
      obtain ⟨-, rfl⟩ | hu := task_of_append hu
      · cases hx
      · exact .inl (.answered hu hx hitem)
    | issue ht _ _ | leave ht _ _ =>
      obtain ⟨rfl, rfl⟩ | ⟨-, hu⟩ := task_of_set hu
      · exact .inl (.answered ht hx hitem)
      · exact .inl (.answered hu hx hitem)
    | perform ch ht hphase hperform =>
      obtain ⟨rfl, rfl⟩ | ⟨-, hu⟩ := task_of_set hu
      · obtain rfl | hx := List.mem_cons.mp hx
        · exact .inl (holds_of_answered hperform hitem)
        · exact .inl (.answered ht hx hitem)
      · exact .inl (.answered hu hx hitem)
    | env => exact .inl (.answered hu hx hitem)
    | crash =>
      obtain ⟨t, ht, rfl⟩ := task_of_crash hu
      exact .inl (.answered ht hx hitem)

/-! ## The rule -/

/-- Everything a configuration holds meets `P`. -/
def Known (P : PipelineConfig → Item → Prop) (cfg : PipelineConfig) : Prop :=
  ∀ item, Holds cfg item → P cfg item

/-- Nothing is held in the beginning. -/
theorem known_initialConfig (P : PipelineConfig → Item → Prop) : Known P initialConfig := by
  intro item h
  cases h with
  | scan h | state h | fix h => cases h
  | queued h =>
    obtain h | ⟨layer, h | h⟩ := h
    · cases h
    · obtain ⟨_, h, -⟩ := h
      cases h
    · obtain ⟨_, h, -⟩ := h
      cases h
  | delivered ht | issued ht | handed ht | answered ht => simp [initialConfig] at ht

/-- What holds of all data is preserved by a step that preserves it and of which it holds. -/
theorem Known.step {P : PipelineConfig → Item → Prop} (hknown : Known P cfg)
    (hlawful : cfg.Lawful (pipelineProtocol d.config)) (hstep : Step d.system cfg e cfg')
    (hstable : ∀ item, P cfg item → P cfg' item) (hbrings : ∀ item, Brings e item → P cfg' item) :
    Known P cfg' := by
  intro item h
  obtain h | h := h.of_step hstep hlawful
  · exact hstable item (hknown item h)
  · exact hbrings item h

/-! ## What a call holds -/

section Traces

variable {n : ℕ} {t : PipelineTask} {x : OpAwait} {row : Scan}

theorem holds_of_row? (ht : cfg.tasks[n]? = some t) (hx : x ∈ t.trace)
    (hrow : OpAwait.row? x = some row) : Holds cfg row.item := by
  unfold OpAwait.row? at hrow
  split at hrow
  · cases hrow
    exact .answered ht hx (by simp [OpAwait.answered])
  · cases hrow
    exact .handed ht hx rfl
  · cases hrow

theorem holds_of_rowOf (ht : cfg.tasks[n]? = some t) (hrow : rowOf t.trace = some row) :
    Holds cfg row.item := by
  obtain ⟨x, hx, hrow⟩ := List.exists_of_findSome?_eq_some hrow
  exact holds_of_row? ht hx hrow

theorem holds_of_tokenOf {token : ResumeToken} (ht : cfg.tasks[n]? = some t)
    (htoken : tokenOf t.trace = some (some token)) :
    Holds cfg (.token token.scanId token.completedLayers) := by
  obtain ⟨x, hx, htoken⟩ := List.exists_of_findSome?_eq_some htoken
  unfold OpAwait.token? at htoken
  split at htoken
  · cases htoken
    exact .answered ht hx (by simp [OpAwait.answered])
  · cases htoken

/-- A row that a call about a scan has read at some gate is a row of that scan, and the read is in
the history. -/
theorem exists_of_readAt {gate : GateState} {scanId : ScanId} (hreach : d.Reaches ok cfg)
    (ht : cfg.tasks[n]? = some t) (hscan : t.call.scanId? = some scanId)
    (hread : ReadAt gate t.trace) :
    ∃ clientId, ∃ row : Scan,
      .performed n t.call (.store (.scansGet clientId scanId)) (.ok (some row)) ∈ cfg.history ∧
        Holds cfg row.item ∧ row.id = scanId ∧ row.gateState = gate ∧
        isTerminalStatus row.status = false := by
  obtain ⟨x, hx, row, hrow, hgate, hstatus⟩ := hread
  have hconforms := hreach.lawful.conforms ht
  obtain ⟨post, pre, -, -, m₀, -, -, hissues⟩ := hconforms.awaits hx
  have hanswers := hconforms.answers hx
  have hmem := hreach.performed_of_mem ht hx
  have hholds := holds_of_row? ht hx (OpAwait.row?_of_readRow? hrow)
  unfold OpAwait.readRow? at hrow
  split at hrow
  · cases hrow
    obtain ⟨hid, -⟩ : row.id = _ ∧ row.clientId = _ := hanswers
    obtain rfl := hissues.1 scanId hscan
    exact ⟨_, row, hmem, hholds, hid, hgate, hstatus⟩
  · cases hrow

end Traces

/-! ## Clients and policies -/

/-- The scan an item is about is in the database, with the client and the policy the item has; and so
is the fix, with its risk class. -/
def Registered (cfg : PipelineConfig) : Item → Prop
  | .row id clientId _ _ budgetPolicy =>
    ∃ row, cfg.world.db.scans.get? id = some row ∧ row.clientId = clientId ∧
      row.budgetPolicy = budgetPolicy
  | .job job => ∃ row, cfg.world.db.scans.get? job.scanId = some row ∧ row.clientId = job.clientId
  | .fix id riskClass => ∃ f, cfg.world.db.fixes.get? id = some f ∧ f.riskClass = riskClass
  | .token .. => True

/-- No step changes the client or the policy of a scan. -/
theorem get?_of_step {id : ScanId} {row : Scan} (hstep : Step d.system cfg e cfg') (hknown : Known Registered cfg)
    (hget : cfg.world.db.scans.get? id = some row) :
    ∃ row', cfg'.world.db.scans.get? id = some row' ∧ row'.clientId = row.clientId ∧
      row'.budgetPolicy = row.budgetPolicy := by
  obtain hdb | ⟨pr, prs, -, hdb⟩ | ⟨n, t, m, q, k, v, rfl, ht, hphase, hexec⟩ := step_db hstep
  · exact ⟨row, hdb ▸ hget, rfl, rfl⟩
  · exact ⟨row, by rw [hdb]; exact hget, rfl, rfl⟩
  · obtain h | ⟨clientId, scan, rfl, hfresh, h⟩ | ⟨clientId, scan, old, rfl, hold, hclient, h⟩ :=
      StoreOp.exec_scans hexec
    · exact ⟨row, h ▸ hget, rfl, rfl⟩
    · exact ⟨row, h ▸ Table.get?_insertNew_of_some hget, rfl, rfl⟩
    · rw [h, Table.get?_replace]
      have hid : old.id = scan.id := Table.key_of_get? hold
      by_cases hrow : (scanToUpdate old scan).id = id
      · obtain rfl : scan.id = id := hid.symm.trans hrow
        obtain rfl : old = row := Option.some.inj (hold.symm.trans hget)
        obtain ⟨row', hrow', -, hpolicy⟩ := hknown scan.item (.issued ht hphase rfl)
        obtain rfl : old = row' := Option.some.inj (hold.symm.trans hrow')
        exact ⟨scanToUpdate old scan, by simp [hrow, hget], rfl, hpolicy.symm⟩
      · exact ⟨row, by rw [if_neg hrow, hget], rfl, rfl⟩

/-- No step takes a fix away, or changes whose it is and its risk class. -/
theorem get?_fix_of_step {id : EntityId} {f : Fix} (hstep : Step d.system cfg e cfg')
    (hknown : Known Registered cfg) (hget : cfg.world.db.fixes.get? id = some f) :
    ∃ f', cfg'.world.db.fixes.get? id = some f' ∧ f'.clientId = f.clientId ∧ f'.scanId = f.scanId ∧
      f'.riskClass = f.riskClass := by
  obtain hdb | ⟨pr, prs, -, hdb⟩ | ⟨n, t, m, q, k, v, rfl, ht, hphase, hexec⟩ := step_db hstep
  · exact ⟨f, hdb ▸ hget, rfl, rfl, rfl⟩
  · exact ⟨f, by rw [hdb]; exact hget, rfl, rfl, rfl⟩
  · obtain h | ⟨clientId, fix, rfl, h⟩ | ⟨clientId, fix, old, rfl, hold, h⟩ := StoreOp.exec_fixes hexec
    · exact ⟨f, h ▸ hget, rfl, rfl, rfl⟩
    · exact ⟨f, h ▸ Table.get?_insertNew_of_some hget, rfl, rfl, rfl⟩
    · rw [h, Table.get?_replace]
      simp only [FixRepository.get, Option.filter_eq_some_iff] at hold
      have hid : old.id = fix.id := Table.key_of_get? hold.1
      by_cases hf : (fixToUpdate old cfg.mem.now fix).id = id
      · obtain rfl : fix.id = id := hid.symm.trans hf
        obtain rfl : old = f := Option.some.inj (hold.1.symm.trans hget)
        obtain ⟨f', hf', hclass⟩ := hknown (.fix fix.id fix.riskClass) (.issued ht hphase rfl)
        obtain rfl : old = f' := Option.some.inj (hold.1.symm.trans hf')
        exact ⟨fixToUpdate old cfg.mem.now fix, by simp [hf, hget], rfl, rfl, hclass.symm⟩
      · exact ⟨f, by rw [if_neg hf, hget], rfl, rfl, rfl⟩

/-- A fix that is created is there with its risk class. -/
theorem get?_of_createFix {n : ℕ} {c : Call} {clientId : ClientId} {fix r : Fix}
    (hstep : Step d.system cfg (.performed n c (.store (.fixesCreate clientId fix)) (.ok r)) cfg') :
    ∃ f, cfg'.world.db.fixes.get? fix.id = some f ∧ f.riskClass = fix.riskClass := by
  have hexec := exec_of_performed hstep
  simp only [StoreOp.exec, FixRepository.create] at hexec
  split at hexec
  · cases hexec
  · rename_i fixes hinsert
    obtain ⟨hfresh, rfl⟩ := Table.insert?_eq_some_iff.mp hinsert
    split at hexec
    · injection hexec with hexec
      rw [← (Prod.mk.inj hexec).2]
      exact ⟨_, Table.get?_insertNew_self hfresh, rfl⟩
    · cases hexec

/-- A scan that is created was not there before. -/
theorem get?_of_create {n : ℕ} {c : Call} {clientId : ClientId} {scan r : Scan}
    (hstep : Step d.system cfg (.performed n c (.store (.scansCreate clientId scan)) (.ok r)) cfg') :
    cfg.world.db.scans.contains scan.id = false ∧
      cfg'.world.db.scans.get? scan.id = some { scan with clientId } := by
  have hexec := exec_of_performed hstep
  simp only [StoreOp.exec, ScanRepository.create] at hexec
  split at hexec
  · cases hexec
  · rename_i scans hinsert
    obtain ⟨hfresh, rfl⟩ := Table.insert?_eq_some_iff.mp hinsert
    injection hexec with hexec
    rw [← (Prod.mk.inj hexec).2]
    exact ⟨hfresh, Table.get?_insertNew_self hfresh⟩

/-- Every item is about a scan of the database, and has its client and its policy. -/
theorem Deployment.Reaches.registered (hreach : d.Reaches ok cfg) : Known Registered cfg := by
  induction hreach with
  | start => exact known_initialConfig _
  | @step cfg cfg' e hreach hok hstep ih =>
    have hlawful := Deployment.Reaches.lawful hreach
    have hstable : ∀ item, Registered cfg item → Registered cfg' item := by
      intro item hitem
      cases item with
      | row id clientId status gate policy =>
        obtain ⟨row, hget, rfl, rfl⟩ := hitem
        exact get?_of_step hstep ih hget
      | job job =>
        obtain ⟨row, hget, hclient⟩ := hitem
        obtain ⟨row', hget', hclient', -⟩ := get?_of_step hstep ih hget
        exact ⟨row', hget', hclient'.trans hclient⟩
      | fix id riskClass =>
        obtain ⟨f, hget, hclass⟩ := hitem
        obtain ⟨f', hget', -, -, hclass'⟩ := get?_fix_of_step hstep ih hget
        exact ⟨f', hget', hclass'.trans hclass⟩
      | token => trivial
    refine ih.step hlawful hstep hstable fun item hbrings => ?_
    cases hbrings with
    | @issues n c op item he hitem =>
      subst he
      obtain ⟨t, ht, rfl, -, -, hissues⟩ := hstep.awaits hlawful
      refine hstable item ?_
      cases op with
      | store q =>
        cases q with
        | scansUpdate clientId row =>
          obtain rfl := Option.some.inj hitem
          obtain ⟨old, hold, -, hextends, -⟩ := hissues
          obtain ⟨row', hrow', hclient, hpolicy⟩ := ih old.item (holds_of_rowOf ht hold)
          exact ⟨row', hextends.id ▸ hrow', hclient.trans hextends.clientId.symm,
            hpolicy.trans hextends.budgetPolicy.symm⟩
        | fixesUpdate clientId fix =>
          obtain rfl := Option.some.inj hitem
          obtain ⟨m', fix', hhead, hclass⟩ := hissues
          have hx := List.mem_of_mem_head? hhead
          have hid : fix'.id = fix.id := (hlawful.conforms ht).answers hx
          obtain ⟨f, hf, hclass'⟩ := ih (.fix fix'.id fix'.riskClass)
            (.answered ht hx (by simp [OpAwait.answered]))
          exact ⟨f, hid ▸ hf, hclass'.trans hclass⟩
        | resumeSave =>
          obtain rfl := Option.some.inj hitem
          trivial
        | _ => cases hitem
      | enqueue job policy =>
        obtain rfl := Option.some.inj hitem
        obtain ⟨row, hrow, hscan, hclient, -⟩ := hissues
        obtain ⟨row', hrow', hclient', -⟩ := ih row.item (holds_of_rowOf ht hrow)
        exact ⟨row', hscan ▸ hrow', hclient'.trans hclient.symm⟩
      | _ => cases hitem
    | createsScan he =>
      subst he
      exact ⟨_, (get?_of_create hstep).2, rfl, rfl⟩
    | createsFix he =>
      subst he
      exact get?_of_createFix hstep

end MontrSecure
