import MontrSecure.Confirm.Demotion
import MontrSecure.Confirm.Static
import MontrSecure.Correlation.Taxonomy
import MontrSecure.Discovery.Candidates
import MontrSecure.StateStore.Reading

/-!
# The store after earlier scans

A database is reached by operations of the store on values whose ids are produced as the layers produce them.
What is known of every such database (`Grounded`): rows refer to rows there are, and the ids of probable
findings, of confirmed findings and of fixes go back to the scan they are of.
-/

namespace MontrSecure

/-! ## Produced ids -/

/-- `makeProbableId`, over the hash. -/
def probableIdBy (hash : String → String) (scanId : ScanId) (rootCauseId : EntityId) : EntityId :=
  "prob_" ++ hash (scanId ++ "|" ++ rootCauseId)

theorem makeProbableId_eq (scanId : ScanId) (rootCauseId : EntityId) :
    makeProbableId scanId rootCauseId = probableIdBy fnv1a scanId rootCauseId := rfl

/-- The id of a probable finding is made from its scan and its root cause. -/
def ProbableFinding.ProducedBy (hash : String → String) (p : ProbableFinding) : Prop :=
  p.id = probableIdBy hash p.scanId p.rootCauseId

/-- The id is the one of the confirmation of a probable finding of the scan. -/
def ConfirmedIdBy (hash : String → String) (scanId : ScanId) (proofType : ProofType) (id : EntityId) : Prop :=
  ∃ p : ProbableFinding, p.ProducedBy hash ∧ p.scanId = scanId ∧
    id = Confirm.defaultConfirmedId p proofType

/-- The id of a candidate is made from its source, its rule and where it is. -/
def CandidateFinding.ProducedBy (hash : String → String) (c : CandidateFinding) : Prop :=
  ∃ spec : CandidateSpec, c.id = candidateId hash spec ∧ spec.source = c.source ∧
    spec.ruleId = c.ruleId ∧ spec.file = c.location.file ∧ spec.line = c.location.line

/-- The id of a fix is made from the finding it fixes. -/
def Fix.Produced (fix : Fix) : Prop := fix.id = s!"fix_{fix.confirmedFindingId}"

/-- The operation is on values whose ids are produced as the layers produce them. The ids of scans are UUIDs. -/
def StoreOp.ProducedBy (hash : String → String) : StoreOp → Prop
  | scansCreate _ scan => '|' ∉ scan.id.toList
  | candidatesBulkCreate _ findings => ∀ c ∈ findings, c.ProducedBy hash
  | probableBulkCreate _ findings => ∀ p ∈ findings, p.ProducedBy hash
  | unconfirmedBulkCreate _ findings => ∀ u ∈ findings, u.toProbableFinding.ProducedBy hash
  | confirmedBulkCreate _ findings => ∀ f ∈ findings, ConfirmedIdBy hash f.scanId f.proofType f.id
  | fixesCreate _ fix => fix.Produced
  | _ => True

/-- The databases reached from the empty one by operations on produced values, whichever scans and clients they
are of. -/
inductive Reached (hash : String → String) : Database → Prop
  | empty : Reached hash {}
  | step {db db' : Database} {now : IsoDateTime} {q : StoreOp} :
      Reached hash db → q.ProducedBy hash → q.step now db = .ok db' → Reached hash db'
  | pullRequest {db : Database} {pr : PullRequest} {pullRequests : Table PullRequest.id} :
      Reached hash db → db.pullRequests.insert? pr = some pullRequests → Reached hash { db with pullRequests }

section Apart

variable {hash : String → String} {scanId scanId' : ScanId} {t t' : ProofType} {id : EntityId}

/-- Probable findings of different scans have different ids. -/
theorem scan_of_probableId (hinj : Function.Injective hash) {rc rc' : EntityId}
    (hscan : '|' ∉ scanId.toList) (hscan' : '|' ∉ scanId'.toList)
    (h : probableIdBy hash scanId rc = probableIdBy hash scanId' rc') : scanId = scanId' := by
  have hchars := congrArg String.toList h
  simp only [probableIdBy, String.toList_append] at hchars
  have hhash := hinj (String.toList_inj.mp (List.append_cancel_left hchars))
  have hkey := congrArg String.toList hhash
  simp only [String.toList_append, List.append_assoc] at hkey
  exact String.toList_inj.mp (append_separator_inj hscan hscan' hkey).1

theorem defaultConfirmedId_inj {p p' : ProbableFinding}
    (h : Confirm.defaultConfirmedId p t = Confirm.defaultConfirmedId p' t') : p.id = p'.id := by
  have hchars := congrArg String.toList h
  cases t <;> cases t' <;>
    simp [Confirm.defaultConfirmedId, toString, String.toList_append] at hchars
  · exact String.toList_inj.mp hchars
  · exact String.toList_inj.mp hchars

/-- Confirmed findings of different scans have different ids. -/
theorem scan_of_confirmedId (hinj : Function.Injective hash) (hscan : '|' ∉ scanId.toList)
    (hscan' : '|' ∉ scanId'.toList) (h : ConfirmedIdBy hash scanId t id)
    (h' : ConfirmedIdBy hash scanId' t' id) : scanId = scanId' := by
  obtain ⟨p, hp, rfl, rfl⟩ := h
  obtain ⟨p', hp', rfl, hid⟩ := h'
  have hprobable := defaultConfirmedId_inj hid
  rw [hp, hp'] at hprobable
  exact scan_of_probableId hinj hscan hscan' hprobable

end Apart

/-! ## What every reached database satisfies -/

/-- Rows refer to rows there are, and produced ids go back to their scans. -/
structure Grounded (hash : String → String) (db : Database) : Prop where
  scans : ∀ s ∈ db.scans.rows, '|' ∉ s.id.toList
  routes : ∀ r ∈ db.routes.rows, db.appMaps.contains r.appMapId = true
  taintSources : ∀ r ∈ db.taintSources.rows, db.appMaps.contains r.appMapId = true
  taintSinks : ∀ r ∈ db.taintSinks.rows, db.appMaps.contains r.appMapId = true
  candidates : ∀ r ∈ db.candidates.rows, db.scans.contains r.scanId = true
  probable : ∀ r ∈ db.probable.rows,
    db.scans.contains r.scanId = true ∧ r.id = probableIdBy hash r.scanId r.rootCauseId
  confirmed : ∀ r ∈ db.confirmed.rows,
    db.scans.contains r.scanId = true ∧ ConfirmedIdBy hash r.scanId r.proofType r.id
  fixes : ∀ f ∈ db.fixes.rows, db.confirmed.contains f.confirmedFindingId = true ∧ f.Produced

section Preservation

variable {hash : String → String} {now : IsoDateTime} {db db' : Database}

theorem grounded_empty : Grounded hash {} := by
  constructor <;> intro r hr <;> cases hr

/-- A row that is inserted belongs to a scan there is. -/
theorem mem_of_bulkCreate {ρ : Type} {key : ρ → EntityId} {scanOf : ρ → ScanId} {rows : List ρ}
    {table table' : Table key} {r : ρ} (h : FindingRepo.bulkCreate scanOf rows table db = .ok table')
    (hr : r ∈ table'.rows) : r ∈ table.rows ∨ r ∈ rows ∧ db.scans.contains (scanOf r) = true := by
  rw [bulkCreate_eq h] at hr
  refine (Table.mem_insertMissing hr).imp_right fun ⟨hmem, hfree⟩ => ⟨hmem, ?_⟩
  unfold FindingRepo.bulkCreate at h
  split at h
  · rename_i hall
    simpa [hfree] using List.all_eq_true.mp hall r hmem
  · cases h

/-- The tables the invariant is about, when scans are added. -/
theorem Grounded.of_scans (h : Grounded hash db) {scans : Table Scan.id}
    (hkeep : ∀ id, db.scans.contains id = true → scans.contains id = true)
    (hids : ∀ s ∈ scans.rows, '|' ∉ s.id.toList) : Grounded hash { db with scans } :=
  { h with
    scans := hids
    candidates := fun r hr => hkeep _ (h.candidates r hr)
    probable := fun r hr => (h.probable r hr).imp_left (hkeep _)
    confirmed := fun r hr => (h.confirmed r hr).imp_left (hkeep _) }

theorem grounded_scansCreate {clientId : ClientId} {scan : Scan} (h : Grounded hash db)
    (hid : '|' ∉ scan.id.toList) (hstep : (StoreOp.scansCreate clientId scan).step now db = .ok db') :
    Grounded hash db' := by
  simp only [StoreOp.step, StoreOp.exec, ScanRepository.create] at hstep
  split at hstep
  · cases hstep
  · rename_i scans hinsert
    obtain ⟨-, rfl⟩ := Table.insert?_eq_some_iff.mp hinsert
    cases hstep
    refine h.of_scans (fun id hold => by simp [hold]) fun s hs => ?_
    obtain hold | ⟨rfl, -⟩ := Table.mem_insertNew hs
    · exact h.scans s hold
    · exact hid

theorem grounded_scansUpdate {clientId : ClientId} {scan : Scan} (h : Grounded hash db)
    (hstep : (StoreOp.scansUpdate clientId scan).step now db = .ok db') : Grounded hash db' := by
  simp only [StoreOp.step, StoreOp.exec, ScanRepository.update] at hstep
  split at hstep
  · cases hstep
  · rename_i row hget
    split at hstep
    · cases hstep
      have hrow : row ∈ db.scans.rows := by
        simp only [ScanRepository.get, Option.filter_eq_some_iff] at hget
        exact Table.mem_of_get? hget.1
      refine h.of_scans (fun id hold => by simp [hold]) fun s hs => ?_
      obtain rfl | hold := Table.mem_replace hs
      · exact h.scans row hrow
      · exact h.scans s hold
    · cases hstep

theorem mem_partRows {α : Type} {appMapId : EntityId} {idOf : α → Option EntityId} {parts : List α}
    {generated : ℕ} {r : AppMapPartRow α} (h : r ∈ AppMapRepository.partRows appMapId idOf parts generated) :
    r.appMapId = appMapId := by
  obtain ⟨i, hi, rfl⟩ := List.mem_mapIdx.mp h
  rfl

/-- The rows of the routes of a map that is created. -/
def routeRows (m : AppMap) (db : Database) : List (AppMapPartRow Route) :=
  AppMapRepository.partRows m.id Route.id (m.routes.map routeToCreate) db.generatedIds

/-- The rows of its sources. -/
def sourceRows (m : AppMap) (db : Database) : List (AppMapPartRow TaintSource) :=
  AppMapRepository.partRows m.id TaintSource.id m.taintSources (db.generatedIds + m.routes.length)

/-- The rows of its sinks. -/
def sinkRows (m : AppMap) (db : Database) : List (AppMapPartRow TaintSink) :=
  AppMapRepository.partRows m.id TaintSink.id m.taintSinks
    (db.generatedIds + m.routes.length + m.taintSources.length)

/-- The keys under which the map and its parts are inserted are free. -/
structure Creatable (clientId : ClientId) (m : AppMap) (db : Database) : Prop where
  commit : hasAppMap clientId m db = false
  id : db.appMaps.contains m.id = false
  routes : db.routes.Free ((routeRows m db).map (·.id))
  taintSources : db.taintSources.Free ((sourceRows m db).map (·.id))
  taintSinks : db.taintSinks.Free ((sinkRows m db).map (·.id))

/-- The database with the map. -/
def withAppMap (clientId : ClientId) (m : AppMap) (db : Database) : Database :=
  { db with
    appMaps := db.appMaps.insertNew (appMapScalarsToCreate clientId m)
    routes := db.routes.insertMissing (routeRows m db)
    taintSources := db.taintSources.insertMissing (sourceRows m db)
    taintSinks := db.taintSinks.insertMissing (sinkRows m db)
    generatedIds := db.generatedIds + m.routes.length + m.taintSources.length + m.taintSinks.length }

/-- When a map is created, and what that leaves. -/
theorem appMapsCreate_step_iff {clientId : ClientId} {m : AppMap} :
    (StoreOp.appMapsCreate clientId m).step now db = .ok db' ↔
      Creatable clientId m db ∧ withAppMap clientId m db = db' := by
  simp only [StoreOp.step, StoreOp.exec, AppMapRepository.create]
  constructor
  · intro h
    split at h
    · cases h
    · rename_i hhas
      split at h
      · rename_i _ _ _ _ hmaps hr hs ht
        obtain ⟨hfresh, rfl⟩ := Table.insert?_eq_some_iff.mp hmaps
        obtain ⟨hroutes, rfl⟩ := Table.insertAll?_eq_some_iff.mp hr
        obtain ⟨hsources, rfl⟩ := Table.insertAll?_eq_some_iff.mp hs
        obtain ⟨hsinks, rfl⟩ := Table.insertAll?_eq_some_iff.mp ht
        cases h
        exact ⟨⟨Bool.eq_false_iff.mpr hhas, hfresh, hroutes, hsources, hsinks⟩, rfl⟩
      · cases h
  · rintro ⟨⟨hcommit, hid, hroutes, hsources, hsinks⟩, rfl⟩
    have hmap : db.appMaps.insert? (appMapScalarsToCreate clientId m) = some _ :=
      Table.insert?_eq_some_iff.mpr ⟨hid, rfl⟩
    have hr := Table.insertAll?_eq_some_iff.mpr ⟨hroutes, rfl⟩
    have hs := Table.insertAll?_eq_some_iff.mpr ⟨hsources, rfl⟩
    have ht := Table.insertAll?_eq_some_iff.mpr ⟨hsinks, rfl⟩
    simp only [routeRows, sourceRows, sinkRows] at hr hs ht
    rw [hasAppMap] at hcommit
    simp only [hcommit, hmap, hr, hs, ht]
    rfl

theorem grounded_appMapsCreate {clientId : ClientId} {m : AppMap} (h : Grounded hash db)
    (hstep : (StoreOp.appMapsCreate clientId m).step now db = .ok db') : Grounded hash db' := by
  obtain ⟨-, rfl⟩ := appMapsCreate_step_iff.mp hstep
  -- a part is of this map, or of one that was there
  have hkeep : ∀ {α : Type} {table : Table (AppMapPartRow.id (α := α))} {rows : List (AppMapPartRow α)},
      (∀ r ∈ table.rows, db.appMaps.contains r.appMapId = true) → (∀ r ∈ rows, r.appMapId = m.id) →
      ∀ r ∈ (table.insertMissing rows).rows,
        (db.appMaps.insertNew (appMapScalarsToCreate clientId m)).contains r.appMapId = true := by
    intro α table rows hold hnew r hmem
    rw [Table.contains_insertNew]
    obtain hmem | ⟨hmem, -⟩ := Table.mem_insertMissing hmem
    · rw [hold r hmem, Bool.true_or]
    · rw [hnew r hmem]
      simp [appMapScalarsToCreate]
  exact { h with
    routes := hkeep h.routes fun r => mem_partRows
    taintSources := hkeep h.taintSources fun r => mem_partRows
    taintSinks := hkeep h.taintSinks fun r => mem_partRows }

theorem grounded_fixesCreate {clientId : ClientId} {fix : Fix} (h : Grounded hash db)
    (hfix : fix.Produced) (hstep : (StoreOp.fixesCreate clientId fix).step now db = .ok db') :
    Grounded hash db' := by
  simp only [StoreOp.step, StoreOp.exec, FixRepository.create] at hstep
  split at hstep
  · cases hstep
  · rename_i fixes hinsert
    obtain ⟨-, rfl⟩ := Table.insert?_eq_some_iff.mp hinsert
    split at hstep
    · rename_i hrefs
      cases hstep
      simp only [Bool.and_eq_true] at hrefs
      refine { h with fixes := fun f hf => ?_ }
      obtain hold | ⟨rfl, -⟩ := Table.mem_insertNew hf
      · exact h.fixes f hold
      · exact ⟨hrefs.1.2, hfix⟩
    · cases hstep

theorem grounded_fixesUpdate {clientId : ClientId} {fix : Fix} (h : Grounded hash db)
    (hstep : (StoreOp.fixesUpdate clientId fix).step now db = .ok db') : Grounded hash db' := by
  simp only [StoreOp.step, StoreOp.exec, FixRepository.update] at hstep
  split at hstep
  · cases hstep
  · rename_i row hget
    split at hstep
    · cases hstep
      have hrow : row ∈ db.fixes.rows := by
        simp only [FixRepository.get, Option.filter_eq_some_iff] at hget
        exact Table.mem_of_get? hget.1
      refine { h with fixes := fun f hf => ?_ }
      obtain rfl | hold := Table.mem_replace hf
      · exact h.fixes row hrow
      · exact h.fixes f hold
    · cases hstep

/-- An operation on produced values keeps the invariant. -/
theorem grounded_step {q : StoreOp} (h : Grounded hash db) (hq : q.ProducedBy hash)
    (hstep : q.step now db = .ok db') : Grounded hash db' := by
  cases q with
  | scansCreate clientId scan => exact grounded_scansCreate h hq hstep
  | scansUpdate clientId scan => exact grounded_scansUpdate h hstep
  | appMapsCreate clientId m => exact grounded_appMapsCreate h hstep
  | candidatesBulkCreate clientId findings =>
    obtain ⟨table, htable, rfl⟩ := map_map_eq_ok.mp hstep
    refine { h with candidates := fun r hr => ?_ }
    obtain hold | ⟨-, hscan⟩ := mem_of_bulkCreate htable hr
    · exact h.candidates r hold
    · exact hscan
  | probableBulkCreate clientId findings =>
    obtain ⟨table, htable, rfl⟩ := map_map_eq_ok.mp hstep
    refine { h with probable := fun r hr => ?_ }
    obtain hold | ⟨hnew, hscan⟩ := mem_of_bulkCreate htable hr
    · exact h.probable r hold
    · obtain ⟨p, hp, rfl⟩ := List.mem_map.mp hnew
      exact ⟨hscan, hq p hp⟩
  | unconfirmedBulkCreate clientId findings =>
    obtain ⟨table, htable, rfl⟩ := map_map_eq_ok.mp hstep
    refine { h with probable := fun r hr => ?_ }
    obtain hold | ⟨hnew, hscan⟩ := mem_of_bulkCreate htable hr
    · exact h.probable r hold
    · obtain ⟨u, hu, rfl⟩ := List.mem_map.mp hnew
      exact ⟨hscan, hq u hu⟩
  | confirmedBulkCreate clientId findings =>
    obtain ⟨table, htable, rfl⟩ := map_map_eq_ok.mp hstep
    have htaken : ∀ id, db.confirmed.contains id = true → table.contains id = true := by
      intro id hid
      rw [bulkCreate_eq htable]
      exact Table.contains_insertMissing_of_contains hid
    refine { h with
      confirmed := fun r hr => ?_
      fixes := fun f hf => (h.fixes f hf).imp_left (htaken _) }
    obtain hold | ⟨hnew, hscan⟩ := mem_of_bulkCreate htable hr
    · exact h.confirmed r hold
    · obtain ⟨f, hf, rfl⟩ := List.mem_map.mp hnew
      exact ⟨hscan, hq f hf⟩
  | fixesCreate clientId fix => exact grounded_fixesCreate h hq hstep
  | fixesUpdate clientId fix => exact grounded_fixesUpdate h hstep
  | scansGet | resumeGet | fixesGet | fixesListByScan | dastFindByUrl | auditAppend =>
    cases hstep
    exact { h with }
  | resumeSave | dastCreate | dastUpdate =>
    -- no table the invariant is about is changed
    simp only [StoreOp.step, StoreOp.exec, ResumeRepository.save, DastTargetStore.create,
      DastTargetStore.update] at hstep
    repeat' split at hstep
    all_goals cases hstep <;> exact { h with }

/-- Every reached database satisfies the invariant. -/
theorem grounded_of_reached (h : Reached hash db) : Grounded hash db := by
  induction h with
  | empty => exact grounded_empty
  | step _ hq hstep ih => exact grounded_step ih hq hstep
  | pullRequest _ _ ih => exact { ih with }

end Preservation

/-! ## Persisting is reaching -/

/-- The output of a layer is of values whose ids are produced as the layers produce them. -/
def LayerOutput.ProducedBy (hash : String → String) : LayerOutput → Prop
  | .layer1 out => ∀ c ∈ out.candidates, c.ProducedBy hash
  | .layer2 out => ∀ p ∈ out.probable, p.ProducedBy hash
  | .layer3 out => (∀ f ∈ out.confirmed, ConfirmedIdBy hash f.scanId f.proofType f.id) ∧
      ∀ u ∈ out.unconfirmed, u.toProbableFinding.ProducedBy hash
  | .layer4 out => ∀ f ∈ out.fixes, f.Produced
  | .layer0 _ | .layer5 _ => True

section Persisting

variable {hash : String → String} {now : IsoDateTime} {clientId : ClientId} {scan : Scan} {m : Memory}
  {db db' : Database}

theorem exists_of_bind_eq_ok {α β : Type} {r : Except Err α} {f : α → Except Err β} {b : β}
    (h : r.bind f = .ok b) : ∃ a, r = .ok a ∧ f a = .ok b := by
  cases r with
  | ok a => exact ⟨a, rfl, h⟩
  | error e => cases h

theorem Reached.then {q : StoreOp} (h : Reached hash db) (hstep : q.step now db = .ok db')
    (hq : q.ProducedBy hash) : Reached hash db' :=
  h.step hq hstep

/-- Steps that each keep a database reached, one after the other. -/
theorem reached_of_foldlM {α : Type} {f : Database → α → Except Err Database} {as : List α}
    (hf : ∀ a ∈ as, ∀ {db db'}, Reached hash db → f db a = .ok db' → Reached hash db') (h : Reached hash db)
    (hrun : as.foldlM f db = .ok db') : Reached hash db' := by
  induction as generalizing db with
  | nil =>
    cases hrun
    exact h
  | cons a as ih =>
    rw [List.foldlM_cons] at hrun
    obtain ⟨db₁, h₁, hrest⟩ := exists_of_bind_eq_ok hrun
    exact ih (fun b hb => hf b (List.mem_cons_of_mem _ hb)) (hf a List.mem_cons_self h h₁) hrest

theorem reached_of_linkedFix {link : EntityId × EntityId} (h : Reached hash db)
    (hrun : linkedFix now clientId link db = .ok db') : Reached hash db' := by
  unfold linkedFix at hrun
  split at hrun
  · cases hrun
    exact h
  · exact h.then hrun trivial

/-- The outputs of the layers of earlier scans lead to reached databases. -/
theorem reached_of_persistStored {out : LayerOutput} (h : Reached hash db)
    (hrun : persistStored now clientId out scan m db = .ok db') (hout : out.ProducedBy hash) :
    Reached hash db' := by
  rw [persistStored_eq] at hrun
  cases out with
  | layer0 out =>
    obtain ⟨db₁, h₁, h₂⟩ := exists_of_bind_eq_ok hrun
    exact (h.then h₁ trivial).then h₂ trivial
  | layer1 out => exact h.then hrun hout
  | layer2 out => exact h.then hrun hout
  | layer3 out =>
    obtain ⟨db₁, h₁, h₂⟩ := exists_of_bind_eq_ok hrun
    exact (h.then h₁ hout.1).then h₂ hout.2
  | layer4 out =>
    refine reached_of_foldlM (f := fun db fix => (StoreOp.fixesCreate clientId fix).step now db) ?_ h hrun
    exact fun fix hfix _ _ h hstep => h.then hstep (hout fix hfix)
  | layer5 out => exact reached_of_foldlM (fun _ _ _ _ h hrun => reached_of_linkedFix h hrun) h hrun

end Persisting

end MontrSecure
