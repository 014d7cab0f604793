import MontrSecure.Orchestrator.History

/-!
# Scans and the scans before them

What the outputs of a new scan leave in a store that earlier scans have written, and when it is what a store
with no other scan would hold (`persisted_iff`). The tables are shared by all clients; ids that name the scan
are never taken, those of candidates, routes and commits may be.
-/

namespace MontrSecure

/-! ## What the layers leave -/

section Layers

variable {now : IsoDateTime} {clientId : ClientId} {scan : Scan} {m : Memory} {db db' : Database}

/-- Findings of a scan there is are inserted. -/
theorem bulkCreate_of_scans {α ρ : Type} {key : ρ → EntityId} (scanOf : ρ → ScanId) (toRow : α → ρ)
    {findings : List α} {table : Table key}
    (h : ∀ f ∈ findings, db.scans.contains (scanOf (toRow f)) = true) :
    FindingRepo.bulkCreate scanOf (findings.map toRow) table db =
      .ok (table.insertMissing (findings.map toRow)) := by
  refine if_pos (List.all_eq_true.mpr fun r hr => ?_)
  obtain ⟨f, hf, rfl⟩ := List.mem_map.mp hr
  rw [h f hf, Bool.or_true]

/-- Layer 0 creates the map, and the scan refers to it. -/
theorem persistStored_layer0_iff {out : Layer0Output} {row : Scan}
    (hscan : ScanRepository.get clientId scan.id db = some row) :
    persistStored now clientId (.layer0 out) scan m db = .ok db' ↔
      Creatable clientId out.appMap db ∧
        { withAppMap clientId out.appMap db with
          scans := db.scans.replace (scanToUpdate row (scanAfterIntake scan out)) } = db' := by
  have hupdate : (StoreOp.scansUpdate clientId (scanAfterIntake scan out)).step now
      (withAppMap clientId out.appMap db) =
        .ok { withAppMap clientId out.appMap db with
          scans := db.scans.replace (scanToUpdate row (scanAfterIntake scan out)) } := by
    have hget : ScanRepository.get clientId (scanAfterIntake scan out).id
        (withAppMap clientId out.appMap db) = some row := hscan
    have hmap : (scanAfterIntake scan out).appMapId.all
        (withAppMap clientId out.appMap db).appMaps.contains = true := by
      simp [scanAfterIntake, withAppMap, appMapScalarsToCreate]
    simp only [StoreOp.step, StoreOp.exec, ScanRepository.update, hget, hmap, if_true]
    rfl
  rw [persistStored_eq, written]
  constructor
  · intro h
    cases hcreate : (StoreOp.appMapsCreate clientId out.appMap).step now db with
    | error e =>
      rw [hcreate] at h
      cases h
    | ok db₁ =>
      obtain ⟨hfree, rfl⟩ := appMapsCreate_step_iff.mp hcreate
      rw [hcreate] at h
      exact ⟨hfree, Except.ok.inj (hupdate.symm.trans h)⟩
  · rintro ⟨hfree, rfl⟩
    rw [appMapsCreate_step_iff.mpr ⟨hfree, rfl⟩]
    exact hupdate

theorem persistStored_layer1 {out : Layer1Output}
    (h : ∀ c ∈ out.candidates, db.scans.contains c.scanId = true) :
    persistStored now clientId (.layer1 out) scan m db =
      .ok { db with
        candidates := db.candidates.insertMissing (out.candidates.map (candidateToCreate clientId)) } := by
  rw [persistStored_eq, written, StoreOp.step, StoreOp.exec,
    bulkCreate_of_scans CandidateRow.scanId (candidateToCreate clientId) h]
  rfl

theorem persistStored_layer2 {out : Layer2Output}
    (h : ∀ p ∈ out.probable, db.scans.contains p.scanId = true) :
    persistStored now clientId (.layer2 out) scan m db =
      .ok { db with
        probable := db.probable.insertMissing (out.probable.map (probableToCreate clientId)) } := by
  rw [persistStored_eq, written, StoreOp.step, StoreOp.exec,
    bulkCreate_of_scans ProbableRow.scanId (probableToCreate clientId) h]
  rfl

theorem step_unconfirmed {findings : List UnconfirmedFinding}
    (h : ∀ u ∈ findings, db.scans.contains u.scanId = true) :
    (StoreOp.unconfirmedBulkCreate clientId findings).step now db =
      .ok { db with
        probable := db.probable.insertMissing (findings.map (unconfirmedToCreate clientId)) } := by
  rw [StoreOp.step, StoreOp.exec, bulkCreate_of_scans ProbableRow.scanId (unconfirmedToCreate clientId) h]
  rfl

theorem persistStored_layer3 {out : Layer3Output}
    (h : ∀ f ∈ out.confirmed, db.scans.contains f.scanId = true)
    (h' : ∀ u ∈ out.unconfirmed, db.scans.contains u.scanId = true) :
    persistStored now clientId (.layer3 out) scan m db =
      .ok { db with
        confirmed := db.confirmed.insertMissing (out.confirmed.map (confirmedToCreate clientId))
        probable := db.probable.insertMissing (out.unconfirmed.map (unconfirmedToCreate clientId)) } := by
  rw [persistStored_eq, written, StoreOp.step, StoreOp.exec,
    bulkCreate_of_scans ConfirmedRow.scanId (confirmedToCreate clientId) h]
  exact step_unconfirmed h'

/-- The fixes of findings there are can be created when their ids are free. -/
theorem createdFixes_iff {fixes : List Fix}
    (h : ∀ f ∈ fixes, db.scans.contains f.scanId = true ∧
      db.confirmed.contains f.confirmedFindingId = true ∧ f.pullRequestId = none) :
    createdFixes now clientId fixes db = .ok db' ↔
      db.fixes.Free (fixes.map (·.id)) ∧
        { db with fixes := db.fixes.insertMissing (fixes.map (fixToCreate clientId now)) } = db' := by
  induction fixes generalizing db with
  | nil =>
    simp only [createdFixes, List.foldlM_nil, List.map_nil, Table.free_nil, true_and]
    exact ⟨Except.ok.inj, congrArg Except.ok⟩
  | cons fix fixes ih =>
    obtain ⟨⟨hscan, hconfirmed, hpr⟩, hrest⟩ := List.forall_mem_cons.mp h
    have hfree : db.fixes.Free ((fix :: fixes).map (·.id)) ↔
        db.fixes.contains fix.id = false ∧
          (db.fixes.insertNew (fixToCreate clientId now fix)).Free (fixes.map (·.id)) :=
      Table.free_cons_iff (r := fixToCreate clientId now fix)
    rw [createdFixes, List.foldlM_cons, hfree]
    cases hid : db.fixes.contains fix.id with
    | true =>
      rw [fixesCreate_of_contains hid]
      simp only [reduceCtorEq, false_and, iff_false]
      exact fun h => by cases h
    | false =>
      have hinsert : db.fixes.insert? (fixToCreate clientId now fix) =
          some (db.fixes.insertNew (fixToCreate clientId now fix)) :=
        Table.insert?_eq_some_iff.mpr ⟨hid, rfl⟩
      have hcreate : (StoreOp.fixesCreate clientId fix).step now db =
          .ok { db with fixes := db.fixes.insertNew (fixToCreate clientId now fix) } := by
        simp only [StoreOp.step, StoreOp.exec, FixRepository.create, hinsert, hscan, hconfirmed, hpr]
        rfl
      rw [hcreate]
      refine (@ih { db with fixes := db.fixes.insertNew (fixToCreate clientId now fix) } hrest).trans ?_
      simp

/-- The last layer is stored when each pull request that lists a fix of the client is in the store. -/
theorem persistStored_layer5_iff {out : Layer5Output} :
    (∃ db', persistStored now clientId (.layer5 out) scan m db = .ok db') ↔
      ∀ link ∈ fixLinks out.pullRequests, Linkable clientId link db := by
  simp only [persistStored_eq, written]
  obtain ⟨hlinks, db', h, -, -⟩ | ⟨hlinks, e, h⟩ :=
    linkedFixes_spec now clientId (fixLinks out.pullRequests) db
  · exact ⟨fun _ => hlinks, fun _ => ⟨db', h⟩⟩
  · refine ⟨?_, fun hall => absurd hall hlinks⟩
    rintro ⟨db', h'⟩
    rw [h] at h'
    cases h'

/-- It changes fixes only. -/
theorem frame_of_layer5 {out : Layer5Output}
    (h : persistStored now clientId (.layer5 out) scan m db = .ok db') :
    { db' with fixes := db.fixes } = db := by
  rw [persistStored_eq, written] at h
  obtain ⟨-, db₁, h₁, hframe, -⟩ | ⟨-, e, he⟩ :=
    linkedFixes_spec now clientId (fixLinks out.pullRequests) db
  · rw [h] at h₁
    cases h₁
    exact hframe
  · rw [h] at he
    cases he

end Layers

/-! ## A new scan -/

/-- The outputs of the layers of a scan. -/
structure ScanOutputs where
  intake : Layer0Output
  discovery : Layer1Output := {}
  correlation : Layer2Output := {}
  confirmation : Layer3Output := {}
  fixing : Layer4Output := {}
  report : Layer5Output := {}

/-- What the layers of a scan give: everything is of the scan and its client, under ids the layers make. -/
structure ScanOutputs.Valid (hash : String → String) (clientId : ClientId) (scanId : ScanId)
    (o : ScanOutputs) : Prop where
  appMap : o.intake.appMap.clientId = clientId
  candidates : ∀ c ∈ o.discovery.candidates, c.clientId = clientId ∧ c.scanId = scanId ∧ c.ProducedBy hash
  probable : ∀ p ∈ o.correlation.probable, p.clientId = clientId ∧ p.scanId = scanId ∧ p.ProducedBy hash
  confirmed : ∀ f ∈ o.confirmation.confirmed, f.clientId = clientId ∧ f.scanId = scanId ∧
    ∃ p ∈ o.correlation.probable, f.id = Confirm.defaultConfirmedId p f.proofType
  unconfirmed : o.confirmation.DemotedFrom o.correlation
  fixes : ∀ f ∈ o.fixing.fixes, f.clientId = clientId ∧ f.scanId = scanId ∧ f.Produced ∧
    f.pullRequestId = none ∧ ∃ c ∈ o.confirmation.confirmed, c.id = f.confirmedFindingId

/-- The outputs after intake are persisted one after the other; `now` is what the clock reads then, and `m` the
memory of the process. -/
def persistLater (now : LayerId → IsoDateTime) (m : LayerId → Memory) (clientId : ClientId) (scan : Scan)
    (o : ScanOutputs) (db : Database) : Except Err Database := do
  let db ← persistStored (now .layer1) clientId (.layer1 o.discovery) scan (m .layer1) db
  let db ← persistStored (now .layer2) clientId (.layer2 o.correlation) scan (m .layer2) db
  let db ← persistStored (now .layer3) clientId (.layer3 o.confirmation) scan (m .layer3) db
  let db ← persistStored (now .layer4) clientId (.layer4 o.fixing) scan (m .layer4) db
  persistStored (now .layer5) clientId (.layer5 o.report) scan (m .layer5) db

/-- All outputs are persisted; intake changes the scan the later layers are persisted with. -/
def persistScan (now : LayerId → IsoDateTime) (m : LayerId → Memory) (clientId : ClientId) (scan : Scan)
    (o : ScanOutputs) (db : Database) : Except Err Database := do
  let db ← persistStored (now .layer0) clientId (.layer0 o.intake) scan (m .layer0) db
  persistLater now m clientId (scanAfterIntake scan o.intake) o db

/-- Every layer is persisted, and then the map, the candidates and the confirmed findings of the scan are those
of its outputs. -/
def PersistedExactly (now : LayerId → IsoDateTime) (m : LayerId → Memory) (clientId : ClientId) (scan : Scan)
    (o : ScanOutputs) (db : Database) : Prop :=
  ∃ db', persistScan now m clientId scan o db = .ok db' ∧
    (∃ got, AppMapRepository.get clientId o.intake.appMap.id db' = some got ∧ got.Same o.intake.appMap) ∧
    (CandidateRepository.listByScan clientId scan.id db').Perm o.discovery.candidates ∧
    (ConfirmedRepository.listByScan clientId scan.id db').Perm o.confirmation.confirmed

/-- Earlier scans do not stand in the way of the outputs, and the tables have a place for all they say. -/
structure Undisturbed (clientId : ClientId) (o : ScanOutputs) (db : Database) : Prop where
  commit : hasAppMap clientId o.intake.appMap db = false
  appMap : db.appMaps.contains o.intake.appMap.id = false
  routes : db.routes.Free (o.intake.appMap.routes.filterMap Route.id)
  taintSources : db.taintSources.Free (o.intake.appMap.taintSources.filterMap TaintSource.id)
  taintSinks : db.taintSinks.Free (o.intake.appMap.taintSinks.filterMap TaintSink.id)
  storable : o.intake.appMap.Storable
  candidates : db.candidates.Free (o.discovery.candidates.map (·.id))
  metadata : ∀ c ∈ o.discovery.candidates, c.PlainMetadata
  confirmed : (o.confirmation.confirmed.map (·.id)).Nodup
  locations : ∀ f ∈ o.confirmation.confirmed, locationHasExtras f.location = false
  fixes : (o.fixing.fixes.map (·.id)).Nodup
  pullRequests : ∀ pr ∈ o.report.pullRequests, ∀ fixId ∈ pr.fixIds,
    HasFix clientId fixId db ∨ fixId ∈ o.fixing.fixes.map (·.id) → db.pullRequests.contains pr.id = true

theorem ScanOutputs.Valid.findings_produced {hash : String → String} {clientId : ClientId} {scanId : ScanId}
    {o : ScanOutputs} (h : o.Valid hash clientId scanId) :
    (LayerOutput.layer3 o.confirmation).ProducedBy hash := by
  constructor
  · intro f hf
    obtain ⟨-, hscan, p, hp, hpid⟩ := h.confirmed f hf
    obtain ⟨-, hpscan, hproduced⟩ := h.probable p hp
    exact ⟨p, hproduced, hpscan.trans hscan.symm, hpid⟩
  · intro u hu
    obtain ⟨p, hp, reason, rfl⟩ := h.unconfirmed u hu
    exact (h.probable p hp).2.2

section NewScan

variable {hash : String → String} {now₀ : IsoDateTime} {now : LayerId → IsoDateTime} {m : LayerId → Memory}
  {clientId : ClientId} {scan : Scan} {o : ScanOutputs} {db db₀ db' : Database}

/-- The database with the map and the findings of the scan. -/
def withFindings (clientId : ClientId) (scan : Scan) (o : ScanOutputs) (db : Database) : Database :=
  { withAppMap clientId o.intake.appMap db with
    scans := db.scans.replace (scanToUpdate { scan with clientId } (scanAfterIntake scan o.intake))
    candidates := db.candidates.insertMissing (o.discovery.candidates.map (candidateToCreate clientId))
    probable :=
      (db.probable.insertMissing (o.correlation.probable.map (probableToCreate clientId))).insertMissing
        (o.confirmation.unconfirmed.map (unconfirmedToCreate clientId))
    confirmed := db.confirmed.insertMissing (o.confirmation.confirmed.map (confirmedToCreate clientId)) }

/-- A database in which the scan has just been created. -/
structure JustCreated (clientId : ClientId) (scan : Scan) (db db₀ : Database) : Prop where
  fresh : db.scans.contains scan.id = false
  eq : { db with scans := db.scans.insertNew { scan with clientId } } = db₀

theorem justCreated (h : (StoreOp.scansCreate clientId scan).step now₀ db = .ok db₀) :
    JustCreated clientId scan db db₀ := by
  simp only [StoreOp.step, StoreOp.exec, ScanRepository.create] at h
  split at h
  · cases h
  · rename_i scans hinsert
    obtain ⟨hfresh, rfl⟩ := Table.insert?_eq_some_iff.mp hinsert
    cases h
    exact ⟨hfresh, rfl⟩

theorem JustCreated.contains (h : JustCreated clientId scan db db₀) : db₀.scans.contains scan.id = true := by
  rw [← h.eq]
  simp

theorem JustCreated.get (h : JustCreated clientId scan db db₀) :
    ScanRepository.get clientId scan.id db₀ = some { scan with clientId } := by
  have hget : (db.scans.insertNew { scan with clientId }).get? scan.id = some { scan with clientId } :=
    Table.get?_insertNew_self h.fresh
  rw [← h.eq, ScanRepository.get, hget]
  simp

theorem ok_bind {α β : Type} (a : α) (f : α → Except Err β) : (Except.ok a >>= f) = f a := rfl

/-- Findings are inserted, whatever else the database holds; fixes and pull requests may be rejected. -/
theorem persistLater_eq (hvalid : o.Valid hash clientId scan.id) (hscan : db.scans.contains scan.id = true)
    (scan' : Scan) :
    persistLater now m clientId scan' o db =
      createdFixes (now .layer4) clientId o.fixing.fixes
        { db with
          candidates := db.candidates.insertMissing (o.discovery.candidates.map (candidateToCreate clientId))
          probable := (db.probable.insertMissing
            (o.correlation.probable.map (probableToCreate clientId))).insertMissing
              (o.confirmation.unconfirmed.map (unconfirmedToCreate clientId))
          confirmed :=
            db.confirmed.insertMissing (o.confirmation.confirmed.map (confirmedToCreate clientId)) } >>=
        persistStored (now .layer5) clientId (.layer5 o.report) scan' (m .layer5) := by
  have hcandidates : ∀ c ∈ o.discovery.candidates, db.scans.contains c.scanId = true := by
    intro c hc
    rw [(hvalid.candidates c hc).2.1, hscan]
  have hprobable : ∀ p ∈ o.correlation.probable, db.scans.contains p.scanId = true := by
    intro p hp
    rw [(hvalid.probable p hp).2.1, hscan]
  have hconfirmed : ∀ f ∈ o.confirmation.confirmed, db.scans.contains f.scanId = true := by
    intro f hf
    rw [(hvalid.confirmed f hf).2.1, hscan]
  have hunconfirmed : ∀ u ∈ o.confirmation.unconfirmed, db.scans.contains u.scanId = true := by
    intro u hu
    obtain ⟨p, hp, reason, rfl⟩ := hvalid.unconfirmed u hu
    exact hprobable p hp
  rw [persistLater, persistStored_layer1 hcandidates, ok_bind, persistStored_layer2, ok_bind,
    persistStored_layer3, ok_bind, persistStored_eq]
  · rfl
  · exact hconfirmed
  · exact hunconfirmed
  · exact hprobable

/-- The fixes refer to the scan and to its findings. -/
theorem fixes_refs (hnew : JustCreated clientId scan db db₀) (hvalid : o.Valid hash clientId scan.id) :
    ∀ f ∈ o.fixing.fixes, (withFindings clientId scan o db₀).scans.contains f.scanId = true ∧
      (withFindings clientId scan o db₀).confirmed.contains f.confirmedFindingId = true ∧
      f.pullRequestId = none := by
  intro f hf
  obtain ⟨-, hscan, -, hpr, c, hc, hcid⟩ := hvalid.fixes f hf
  refine ⟨?_, ?_, hpr⟩
  · rw [hscan]
    exact Table.contains_replace.trans hnew.contains
  · rw [← hcid]
    exact Table.contains_insertMissing_of_mem (r := confirmedToCreate clientId c) (List.mem_map_of_mem hc)

/-- The scan is persisted when the keys of the map are free and what comes after the findings is not rejected. -/
theorem persistScan_ok_iff (hnew : JustCreated clientId scan db db₀) (hvalid : o.Valid hash clientId scan.id) :
    persistScan now m clientId scan o db₀ = .ok db' ↔
      Creatable clientId o.intake.appMap db₀ ∧
        (createdFixes (now .layer4) clientId o.fixing.fixes (withFindings clientId scan o db₀) >>=
          persistStored (now .layer5) clientId (.layer5 o.report) (scanAfterIntake scan o.intake) (m .layer5)) =
            .ok db' := by
  have hlater : ∀ d, { withAppMap clientId o.intake.appMap db₀ with
      scans := db₀.scans.replace (scanToUpdate { scan with clientId } (scanAfterIntake scan o.intake)) } = d →
      persistLater now m clientId (scanAfterIntake scan o.intake) o d =
        createdFixes (now .layer4) clientId o.fixing.fixes (withFindings clientId scan o db₀) >>=
          persistStored (now .layer5) clientId (.layer5 o.report) (scanAfterIntake scan o.intake) (m .layer5) := by
    rintro d rfl
    rw [persistLater_eq hvalid]
    · rfl
    · exact Table.contains_replace.trans hnew.contains
  rw [persistScan]
  constructor
  · intro h
    cases h₀ : persistStored (now .layer0) clientId (.layer0 o.intake) scan (m .layer0) db₀ with
    | error e =>
      rw [h₀] at h
      cases h
    | ok db₁ =>
      obtain ⟨hfree, hdb₁⟩ := (persistStored_layer0_iff hnew.get).mp h₀
      rw [h₀, ok_bind, hlater db₁ hdb₁] at h
      exact ⟨hfree, h⟩
  · rintro ⟨hfree, h⟩
    rw [(persistStored_layer0_iff hnew.get).mpr ⟨hfree, rfl⟩, ok_bind, hlater _ rfl, h]

/-! ### Ids that name the scan -/

/-- The findings of the scan are confirmed under ids no other scan uses. -/
theorem confirmed_fresh (hinj : Function.Injective hash) (hdb : Grounded hash db)
    (hid : '|' ∉ scan.id.toList) (hfresh : db.scans.contains scan.id = false)
    (hvalid : o.Valid hash clientId scan.id) {f : ConfirmedFinding} (hf : f ∈ o.confirmation.confirmed) :
    db.confirmed.contains f.id = false := by
  obtain ⟨-, -, p, hp, hpid⟩ := hvalid.confirmed f hf
  obtain ⟨-, hpscan, hproduced⟩ := hvalid.probable p hp
  rw [← Bool.not_eq_true, Table.contains_iff]
  rintro ⟨r, hr, hrid⟩
  obtain ⟨hscan, hby⟩ := hdb.confirmed r hr
  obtain ⟨s, hs, hsid⟩ := Table.contains_iff.mp hscan
  have hrow : '|' ∉ r.scanId.toList := hsid ▸ hdb.scans s hs
  have hsame : r.scanId = scan.id :=
    scan_of_confirmedId hinj hrow hid hby ⟨p, hproduced, hpscan, hrid.trans hpid⟩
  rw [hsame, hfresh] at hscan
  cases hscan

/-- So are its fixes. -/
theorem fixes_fresh (hinj : Function.Injective hash) (hdb : Grounded hash db)
    (hid : '|' ∉ scan.id.toList) (hfresh : db.scans.contains scan.id = false)
    (hvalid : o.Valid hash clientId scan.id) {f : Fix} (hf : f ∈ o.fixing.fixes) :
    db.fixes.contains f.id = false := by
  obtain ⟨-, -, hproduced, -, c, hc, hcid⟩ := hvalid.fixes f hf
  rw [← Bool.not_eq_true, Table.contains_iff]
  rintro ⟨g, hg, hgid⟩
  obtain ⟨htaken, hgproduced⟩ := hdb.fixes g hg
  have hfinding : g.confirmedFindingId = f.confirmedFindingId := by
    have hchars := congrArg String.toList (hgproduced.symm.trans (hgid.trans hproduced))
    simpa [toString, String.toList_append, String.toList_inj] using hchars
  rw [hfinding, ← hcid, confirmed_fresh hinj hdb hid hfresh hvalid hc] at htaken
  cases htaken

/-! ### What is read -/

/-- The rows of a table that are listed for the scan are the ones inserted for it. -/
theorem listed_perm_iff {α ρ : Type} {key : ρ → EntityId} {table : Table key} (clientOf : ρ → ClientId)
    (scanOf : ρ → ScanId) (createdAt : ρ → IsoDateTime) (toRow : α → ρ) (fromRow : ρ → α) (idOf : α → EntityId)
    {findings : List α} (hkey : ∀ a, key (toRow a) = idOf a) (hid : ∀ r, idOf (fromRow r) = key r)
    (hold : ∀ r ∈ table.rows, db.scans.contains (scanOf r) = true) (hfresh : db.scans.contains scan.id = false)
    (hnew : ∀ a ∈ findings, clientOf (toRow a) = clientId ∧ scanOf (toRow a) = scan.id) :
    ((((table.insertMissing (findings.map toRow)).rows.filter fun r =>
        clientOf r = clientId && scanOf r = scan.id).mergeSort
          fun r s => decide (createdAt r ≤ createdAt s)).map fromRow).Perm findings ↔
      table.Free (findings.map idOf) ∧ ∀ a ∈ findings, fromRow (toRow a) = a := by
  rw [← Table.perm_insertMissing_iff hkey hid
    (p := fun r => decide (clientOf r = clientId) && decide (scanOf r = scan.id)) ?_ ?_]
  · exact ((List.mergeSort_perm _ _).map fromRow).congr_left findings
  · intro r hr
    have hother : scanOf r ≠ scan.id := by
      intro h
      have hscan := hold r hr
      rw [h, hfresh] at hscan
      cases hscan
    simp [hother]
  · intro a ha
    simp [hnew a ha]

/-- The parts of a map that is created are those inserted for it. -/
theorem filter_parts {α : Type} {table : Table (AppMapPartRow.id (α := α))} {rows : List (AppMapPartRow α)}
    {appMapId : EntityId} (hold : ∀ r ∈ table.rows, db.appMaps.contains r.appMapId = true)
    (hfresh : db.appMaps.contains appMapId = false) (hrows : ∀ r ∈ rows, r.appMapId = appMapId)
    (hfree : table.Free (rows.map (·.id))) :
    (table.insertMissing rows).rows.filter (fun r => decide (r.appMapId = appMapId)) = rows := by
  have hothers : table.rows.filter (fun r => decide (r.appMapId = appMapId)) = [] := by
    rw [List.filter_eq_nil_iff]
    intro r hr
    rw [decide_eq_true_eq]
    rintro rfl
    rw [hold r hr] at hfresh
    cases hfresh
  rw [Table.rows_insertMissing_of_free hfree, List.filter_append, hothers, List.nil_append, List.filter_eq_self]
  simpa using hrows

/-- A map that is created is read from its own rows. -/
theorem get_withAppMap {appMap : AppMap} (hdb : Grounded hash db) (h : Creatable clientId appMap db) :
    AppMapRepository.get clientId appMap.id (withAppMap clientId appMap db) =
      some (appMapFromRows (appMapScalarsToCreate clientId appMap) (routeRows appMap db) (sourceRows appMap db)
        (sinkRows appMap db)) := by
  have hrow : (db.appMaps.insertNew (appMapScalarsToCreate clientId appMap)).get? appMap.id =
      some (appMapScalarsToCreate clientId appMap) :=
    Table.get?_insertNew_self (r := appMapScalarsToCreate clientId appMap) h.id
  have hroutes : ∀ r ∈ routeRows appMap db, r.appMapId = appMap.id := fun _ => mem_partRows
  have hsources : ∀ r ∈ sourceRows appMap db, r.appMapId = appMap.id := fun _ => mem_partRows
  have hsinks : ∀ r ∈ sinkRows appMap db, r.appMapId = appMap.id := fun _ => mem_partRows
  unfold AppMapRepository.get withAppMap
  dsimp only
  rw [hrow, filter_parts hdb.routes h.id hroutes h.routes, filter_parts hdb.taintSources h.id hsources h.taintSources,
    filter_parts hdb.taintSinks h.id hsinks h.taintSinks]
  simp [appMapScalarsToCreate]

/-- The keys of a map whose parts have ids are those ids. -/
theorem creatable_iff {appMap : AppMap} (h : appMap.Storable) :
    Creatable clientId appMap db ↔
      hasAppMap clientId appMap db = false ∧ db.appMaps.contains appMap.id = false ∧
        db.routes.Free (appMap.routes.filterMap Route.id) ∧
        db.taintSources.Free (appMap.taintSources.filterMap TaintSource.id) ∧
        db.taintSinks.Free (appMap.taintSinks.filterMap TaintSink.id) := by
  have hroutes : (routeRows appMap db).map (·.id) = appMap.routes.filterMap Route.id := by
    refine (ids_partRows _ _ _ _ ?_).trans List.filterMap_map
    exact List.forall_mem_map.mpr fun r hr => (h.routes r hr).1
  have hsources := ids_partRows appMap.id TaintSource.id appMap.taintSources
    (db.generatedIds + appMap.routes.length) h.taintSources
  have hsinks := ids_partRows appMap.id TaintSink.id appMap.taintSinks
    (db.generatedIds + appMap.routes.length + appMap.taintSources.length) h.taintSinks
  rw [← hroutes, ← hsources, ← hsinks]
  exact ⟨fun ⟨hcommit, hid, hr, hs, ht⟩ => ⟨hcommit, hid, hr, hs, ht⟩,
    fun ⟨hcommit, hid, hr, hs, ht⟩ => ⟨hcommit, hid, hr, hs, ht⟩⟩

/-! ### Together -/

/-- What is left are the map, the findings and the fixes. -/
theorem frame_of_persistScan (hnew : JustCreated clientId scan db db₀) (hvalid : o.Valid hash clientId scan.id)
    (h : persistScan now m clientId scan o db₀ = .ok db') :
    { db' with fixes := db₀.fixes } = withFindings clientId scan o db₀ := by
  obtain ⟨-, hrest⟩ := (persistScan_ok_iff hnew hvalid).mp h
  cases hfixes : createdFixes (now .layer4) clientId o.fixing.fixes (withFindings clientId scan o db₀) with
  | error e =>
    rw [hfixes] at hrest
    cases hrest
  | ok d =>
    rw [hfixes] at hrest
    obtain ⟨-, rfl⟩ := (createdFixes_iff (fixes_refs hnew hvalid)).mp hfixes
    have hframe := frame_of_layer5 hrest
    exact congrArg (fun d : Database => { d with fixes := db₀.fixes }) hframe

/-- The links of the last layer, when the fixes of the scan have been created. -/
theorem linkable_created_iff {fixes : List Fix} {pullRequests : List PullRequest} {d : Database}
    {now : IsoDateTime} (hfree : d.fixes.Free (fixes.map (·.id))) :
    (∀ link ∈ fixLinks pullRequests, Linkable clientId link
        { d with fixes := d.fixes.insertMissing (fixes.map (fixToCreate clientId now)) }) ↔
      ∀ pr ∈ pullRequests, ∀ fixId ∈ pr.fixIds,
        HasFix clientId fixId d ∨ fixId ∈ fixes.map (·.id) → d.pullRequests.contains pr.id = true := by
  have hrows : (d.fixes.insertMissing (fixes.map (fixToCreate clientId now))).rows =
      d.fixes.rows ++ fixes.map (fixToCreate clientId now) := by
    refine Table.rows_insertMissing_of_free ?_
    rw [List.map_map]
    exact hfree
  have hhas : ∀ fixId, HasFix clientId fixId
      { d with fixes := d.fixes.insertMissing (fixes.map (fixToCreate clientId now)) } ↔
        HasFix clientId fixId d ∨ fixId ∈ fixes.map (·.id) := by
    intro fixId
    simp [HasFix, hrows, or_and_right, exists_or, fixToCreate]
  simp only [Linkable, hhas, fixLinks, List.forall_mem_flatMap, List.forall_mem_map]

/-- Fixes are inserted and linked when their ids differ and the pull requests that list them are there. -/
theorem exists_fixed_iff (now : LayerId → IsoDateTime) (m : LayerId → Memory)
    (hinj : Function.Injective hash) (hdb : Grounded hash db) (hid : '|' ∉ scan.id.toList)
    (hnew : JustCreated clientId scan db db₀) (hvalid : o.Valid hash clientId scan.id) :
    (∃ db', (createdFixes (now .layer4) clientId o.fixing.fixes (withFindings clientId scan o db₀) >>=
        persistStored (now .layer5) clientId (.layer5 o.report) (scanAfterIntake scan o.intake) (m .layer5)) =
          .ok db') ↔
      (o.fixing.fixes.map (·.id)).Nodup ∧ ∀ pr ∈ o.report.pullRequests, ∀ fixId ∈ pr.fixIds,
        HasFix clientId fixId db ∨ fixId ∈ o.fixing.fixes.map (·.id) →
          db.pullRequests.contains pr.id = true := by
  have hfixes : (withFindings clientId scan o db₀).fixes = db.fixes := by
    rw [← hnew.eq]
    rfl
  have hpullRequests : (withFindings clientId scan o db₀).pullRequests = db.pullRequests := by
    rw [← hnew.eq]
    rfl
  have hhas : ∀ fixId, HasFix clientId fixId (withFindings clientId scan o db₀) ↔ HasFix clientId fixId db := by
    intro fixId
    rw [HasFix, hfixes, HasFix]
  have hfree : (withFindings clientId scan o db₀).fixes.Free (o.fixing.fixes.map (·.id)) ↔
      (o.fixing.fixes.map (·.id)).Nodup := by
    rw [hfixes]
    refine and_iff_left (List.forall_mem_map.mpr fun f hf => ?_)
    exact fixes_fresh hinj hdb hid hnew.fresh hvalid hf
  rw [← hfree]
  simp only [← hhas, ← hpullRequests]
  constructor
  · rintro ⟨db', h⟩
    cases hcreated : createdFixes (now .layer4) clientId o.fixing.fixes (withFindings clientId scan o db₀) with
    | error e =>
      rw [hcreated] at h
      cases h
    | ok d =>
      obtain ⟨hnodup, rfl⟩ := (createdFixes_iff (fixes_refs hnew hvalid)).mp hcreated
      rw [hcreated] at h
      exact ⟨hnodup, (linkable_created_iff hnodup).mp (persistStored_layer5_iff.mp ⟨db', h⟩)⟩
  · rintro ⟨hnodup, hlinks⟩
    obtain ⟨db', h⟩ := persistStored_layer5_iff.mpr ((linkable_created_iff hnodup).mpr hlinks)
    refine ⟨db', ?_⟩
    rw [(createdFixes_iff (fixes_refs hnew hvalid)).mpr ⟨hnodup, rfl⟩]
    exact h

/-- Which confirmed findings are read. -/
theorem confirmed_perm_iff (hinj : Function.Injective hash) (hdb : Grounded hash db) (hid : '|' ∉ scan.id.toList)
    (hfresh : db.scans.contains scan.id = false) (hvalid : o.Valid hash clientId scan.id)
    (hdb' : db'.confirmed =
      db.confirmed.insertMissing (o.confirmation.confirmed.map (confirmedToCreate clientId))) :
    (ConfirmedRepository.listByScan clientId scan.id db').Perm o.confirmation.confirmed ↔
      (o.confirmation.confirmed.map (·.id)).Nodup ∧
        ∀ f ∈ o.confirmation.confirmed, locationHasExtras f.location = false := by
  have hfree : db.confirmed.Free (o.confirmation.confirmed.map (·.id)) ↔
      (o.confirmation.confirmed.map (·.id)).Nodup :=
    and_iff_left (List.forall_mem_map.mpr fun f hf => confirmed_fresh hinj hdb hid hfresh hvalid hf)
  rw [ConfirmedRepository.listByScan, hdb', ← hfree]
  refine (listed_perm_iff ConfirmedRow.clientId ConfirmedRow.scanId ConfirmedRow.createdAt
    (confirmedToCreate clientId) confirmedFromRow ConfirmedFinding.id (fun _ => rfl) (fun _ => rfl)
    (fun r hr => (hdb.confirmed r hr).1) hfresh fun f hf => ⟨rfl, (hvalid.confirmed f hf).2.1⟩).trans ?_
  refine and_congr_right fun _ => forall₂_congr fun f hf => ?_
  exact confirmedFromRow_toCreate_iff.trans (and_iff_right (hvalid.confirmed f hf).1)

/-- What is read of the scan after it is persisted. -/
theorem read_iff (hinj : Function.Injective hash) (hdb : Grounded hash db) (hdb₀ : Grounded hash db₀)
    (hid : '|' ∉ scan.id.toList) (hnew : JustCreated clientId scan db db₀) (hvalid : o.Valid hash clientId scan.id)
    (hfree : Creatable clientId o.intake.appMap db₀)
    (hframe : { db' with fixes := db₀.fixes } = withFindings clientId scan o db₀) :
    ((∃ got, AppMapRepository.get clientId o.intake.appMap.id db' = some got ∧ got.Same o.intake.appMap) ∧
        (CandidateRepository.listByScan clientId scan.id db').Perm o.discovery.candidates ∧
        (ConfirmedRepository.listByScan clientId scan.id db').Perm o.confirmation.confirmed) ↔
      o.intake.appMap.Storable ∧
        (db.candidates.Free (o.discovery.candidates.map (·.id)) ∧
          ∀ c ∈ o.discovery.candidates, c.PlainMetadata) ∧
        (o.confirmation.confirmed.map (·.id)).Nodup ∧
          ∀ f ∈ o.confirmation.confirmed, locationHasExtras f.location = false := by
  have hget : AppMapRepository.get clientId o.intake.appMap.id db' =
      AppMapRepository.get clientId o.intake.appMap.id (withAppMap clientId o.intake.appMap db₀) := by
    show AppMapRepository.get clientId o.intake.appMap.id { db' with fixes := db₀.fixes } = _
    rw [hframe]
    rfl
  have hcandidates : db'.candidates =
      db.candidates.insertMissing (o.discovery.candidates.map (candidateToCreate clientId)) := by
    refine (congrArg Database.candidates hframe).trans ?_
    rw [← hnew.eq]
    rfl
  have hconfirmed : db'.confirmed =
      db.confirmed.insertMissing (o.confirmation.confirmed.map (confirmedToCreate clientId)) := by
    refine (congrArg Database.confirmed hframe).trans ?_
    rw [← hnew.eq]
    rfl
  refine and_congr ?_ (and_congr ?_ (confirmed_perm_iff hinj hdb hid hnew.fresh hvalid hconfirmed))
  · rw [hget, get_withAppMap hdb₀ hfree]
    simp only [Option.some.injEq, exists_eq_left']
    exact same_appMapFromRows_iff.trans (and_iff_right hvalid.appMap)
  · rw [CandidateRepository.listByScan, hcandidates]
    refine (listed_perm_iff CandidateRow.clientId CandidateRow.scanId CandidateRow.createdAt
      (candidateToCreate clientId) candidateFromRow CandidateFinding.id (fun _ => rfl) (fun _ => rfl) hdb.candidates
      hnew.fresh fun c hc => ⟨rfl, (hvalid.candidates c hc).2.1⟩).trans ?_
    refine and_congr_right fun _ => forall₂_congr fun c hc => ?_
    exact candidateFromRow_toCreate_iff.trans (and_iff_right (hvalid.candidates c hc).1)

/-- The scans persisted before are earlier scans. -/
theorem reached_of_persistScan (hreached : Reached hash db) (hvalid : o.Valid hash clientId scan.id)
    (hrun : persistScan now m clientId scan o db = .ok db') : Reached hash db' := by
  obtain ⟨db₁, h₀, hrun⟩ := exists_of_bind_eq_ok hrun
  obtain ⟨db₂, h₁, hrun⟩ := exists_of_bind_eq_ok hrun
  obtain ⟨db₃, h₂, hrun⟩ := exists_of_bind_eq_ok hrun
  obtain ⟨db₄, h₃, hrun⟩ := exists_of_bind_eq_ok hrun
  obtain ⟨db₅, h₄, h₅⟩ := exists_of_bind_eq_ok hrun
  have r₁ := reached_of_persistStored hreached h₀ trivial
  have r₂ := reached_of_persistStored r₁ h₁ fun c hc => (hvalid.candidates c hc).2.2
  have r₃ := reached_of_persistStored r₂ h₂ fun p hp => (hvalid.probable p hp).2.2
  have r₄ := reached_of_persistStored r₃ h₃ hvalid.findings_produced
  have r₅ := reached_of_persistStored r₄ h₄ fun f hf => (hvalid.fixes f hf).2.2.1
  exact reached_of_persistStored r₅ h₅ trivial

end NewScan

/-! ## The same finding in another scan -/

section Example

/-- A client and a scan of the shop, by their ids; the rule finds the same query in each. -/
def shopOutputs (clientId : ClientId) (scanId : ScanId) : ScanOutputs :=
  let spec : CandidateSpec :=
    { source := .semgrep, ruleId := "sqli", category := .sqlInjection, file := "db.ts", line := 7
      rawSeverity := .high }
  let probable : ProbableFinding :=
    { demoProbable with id := probableIdBy id scanId "root", scanId, clientId, rootCauseId := "root" }
  { intake :=
      { appMap :=
          { id := s!"appmap_{scanId}", clientId, repo := "shop", branch := "main", commitSha := "c0ffee0"
            createdAt := 0 }
        scope := { mode := .full }
        costEstimate :=
          { scanId := some scanId, mode := .full, projectedInputTokens := 0, projectedOutputTokens := 0
            projectedTotalTokens := 0, projectedUsd := 0, projectedWallClockSeconds := 0, basis := ""
            byLayer := [], createdAt := 0 } }
    discovery := { candidates := [specCandidate id { clientId, scanId, now := 0 } spec] }
    correlation := { probable := [probable] }
    confirmation :=
      { confirmed :=
          [{ demoFinding with id := Confirm.defaultConfirmedId probable .static, scanId, clientId }] } }

theorem shopOutputs_valid (clientId : ClientId) (scanId : ScanId) :
    (shopOutputs clientId scanId).Valid id clientId scanId := by
  constructor
  · rfl
  · rintro c hc
    obtain rfl := List.mem_singleton.mp hc
    exact ⟨rfl, rfl, _, rfl, rfl, rfl, rfl, rfl⟩
  · rintro p hp
    obtain rfl := List.mem_singleton.mp hp
    exact ⟨rfl, rfl, rfl⟩
  · rintro f hf
    obtain rfl := List.mem_singleton.mp hf
    exact ⟨rfl, rfl, _, List.mem_singleton_self _, rfl⟩
  · rintro u hu
    cases hu
  · rintro f hf
    cases hf

/-- A scan of the shop. -/
def shopScanOf (clientId : ClientId) (scanId : ScanId) : Scan := newScan { demoInput with clientId } scanId 0

/-- One client scans the shop, then another one. -/
theorem exists_shared : ∃ db₁ db₂ db₃,
    (StoreOp.scansCreate "acme" (shopScanOf "acme" "first")).step 0 {} = .ok db₁ ∧
      persistScan (fun _ => 0) (fun _ => {}) "acme" (shopScanOf "acme" "first") (shopOutputs "acme" "first") db₁ =
        .ok db₂ ∧
      (StoreOp.scansCreate "globex" (shopScanOf "globex" "second")).step 1 db₂ = .ok db₃ := by
  obtain ⟨db₃, h⟩ := exists_ok (r := (((StoreOp.scansCreate "acme" (shopScanOf "acme" "first")).step 0 {}).bind
    (persistScan (fun _ => 0) (fun _ => {}) "acme" (shopScanOf "acme" "first") (shopOutputs "acme" "first"))).bind
      ((StoreOp.scansCreate "globex" (shopScanOf "globex" "second")).step 1)) (by decide +kernel)
  obtain ⟨db₂, h, h₃⟩ := exists_of_bind_eq_ok h
  obtain ⟨db₁, h₁, h₂⟩ := exists_of_bind_eq_ok h
  exact ⟨db₁, db₂, db₃, h₁, h₂, h₃⟩

theorem reached_shared {db₁ db₂ : Database}
    (h₁ : (StoreOp.scansCreate "acme" (shopScanOf "acme" "first")).step 0 {} = .ok db₁)
    (h₂ : persistScan (fun _ => 0) (fun _ => {}) "acme" (shopScanOf "acme" "first") (shopOutputs "acme" "first")
      db₁ = .ok db₂) : Reached id db₂ :=
  have hfirst : Reached id db₁ := Reached.empty.then h₁ (by decide : '|' ∉ (shopScanOf "acme" "first").id.toList)
  reached_of_persistScan hfirst (shopOutputs_valid "acme" "first") h₂

end Example

end MontrSecure
