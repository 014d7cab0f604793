import MontrSecure.Orchestrator.Stored

/-!
# Demoted findings in the store

Layer 3 demotes a probable finding by `toUnconfirmed` of `packages/confirm/src/static.ts`, which
keeps its id. Unconfirmed findings share the table of the probable ones, whose rows Layer 2 has
already inserted, and an insert skips the rows whose id is taken: `demotionStored_iff` says when a
demotion gets to the store.
-/

namespace MontrSecure

/-- `toUnconfirmed`. -/
def toUnconfirmed (finding : ProbableFinding) (reason : String) : UnconfirmedFinding :=
  { finding with unconfirmedReason := reason }

/-- Each unconfirmed finding was built from a probable one. -/
def Layer3Output.DemotedFrom (out₃ : Layer3Output) (out₂ : Layer2Output) : Prop :=
  ∀ u ∈ out₃.unconfirmed, ∃ p ∈ out₂.probable, ∃ reason, u = toUnconfirmed p reason

/-- The demotion of a finding is stored: it is listed as unconfirmed, with its reason, and not as
probable. -/
def DemotionStored (clientId : ClientId) (scanId : ScanId) (u : UnconfirmedFinding) (db : Database) :
    Prop :=
  (∃ v ∈ UnconfirmedRepository.listByScan clientId scanId db,
      v.id = u.id ∧ v.unconfirmedReason = u.unconfirmedReason) ∧
    ∀ p ∈ ProbableRepository.listByScan clientId scanId db, p.id ≠ u.id

/-- The row a demotion is listed from. -/
def ProbableRow.Demotes (clientId : ClientId) (scanId : ScanId) (u : UnconfirmedFinding)
    (row : ProbableRow) : Prop :=
  row.status = .unconfirmed ∧ row.clientId = clientId ∧ row.scanId = scanId ∧
    row.unconfirmedReason.getD "unconfirmed" = u.unconfirmedReason

variable {now now' : IsoDateTime} {clientId : ClientId} {scanId : ScanId} {scan scan' : Scan}
  {m m' : Memory} {db db₁ db₂ : Database} {u : UnconfirmedFinding}

theorem mem_listByScan_iff {status : ProbableStatus} {table : Table ProbableRow.id}
    {row : ProbableRow} :
    row ∈ FindingRepo.listByScan status clientId scanId table ↔
      row ∈ table.rows ∧ row.status = status ∧ row.clientId = clientId ∧ row.scanId = scanId := by
  rw [FindingRepo.listByScan, List.mem_mergeSort, List.mem_filter]
  simp [and_assoc]

/-- An id has one row, so that what is listed as unconfirmed is not listed as probable. -/
theorem demotionStored_iff_get? :
    DemotionStored clientId scanId u db ↔
      ∃ row, db.probable.get? u.id = some row ∧ row.Demotes clientId scanId u := by
  constructor
  · rintro ⟨⟨v, hv, hid, hreason⟩, -⟩
    obtain ⟨row, hrow, rfl⟩ := List.mem_map.mp hv
    obtain ⟨hmem, hstatus, hclient, hscan⟩ := mem_listByScan_iff.mp hrow
    refine ⟨row, ?_, hstatus, hclient, hscan, hreason⟩
    rw [← hid]
    exact Table.get?_of_mem hmem
  · rintro ⟨row, hget, hstatus, hclient, hscan, hreason⟩
    have hmem : row ∈ db.probable.rows := Table.mem_of_get? hget
    have hid : row.id = u.id := Table.key_of_get? hget
    constructor
    · refine ⟨unconfirmedFromRow row, List.mem_map_of_mem ?_, hid, hreason⟩
      exact mem_listByScan_iff.mpr ⟨hmem, hstatus, hclient, hscan⟩
    · intro p hp hpid
      obtain ⟨row', hrow', rfl⟩ := List.mem_map.mp hp
      obtain ⟨hmem', hstatus', -, -⟩ := mem_listByScan_iff.mp hrow'
      have hsame : row' = row :=
        List.inj_on_of_nodup_map db.probable.nodup hmem' hmem (hpid.trans hid.symm)
      rw [hsame, hstatus] at hstatus'
      cases hstatus'

theorem bulkCreate_eq {ρ : Type} {key : ρ → EntityId} {scanOf : ρ → ScanId} {rows : List ρ}
    {table table' : Table key} (h : FindingRepo.bulkCreate scanOf rows table db = .ok table') :
    table' = table.insertMissing rows := by
  unfold FindingRepo.bulkCreate at h
  split at h <;> cases h
  rfl

/-- What Layer 2 leaves in the table. -/
theorem probable_of_layer2 {out : Layer2Output}
    (h : persistStored now clientId (.layer2 out) scan m db = .ok db₁) :
    db₁.probable = db.probable.insertMissing (out.probable.map (probableToCreate clientId)) := by
  rw [persistStored_eq] at h
  obtain ⟨table, htable, rfl⟩ := map_map_eq_ok.mp h
  exact bulkCreate_eq htable

/-- What Layer 3 leaves in it. -/
theorem probable_of_layer3 {out : Layer3Output}
    (h : persistStored now clientId (.layer3 out) scan m db = .ok db₁) :
    db₁.probable = db.probable.insertMissing (out.unconfirmed.map (unconfirmedToCreate clientId)) := by
  rw [persistStored_eq, written] at h
  cases hconfirmed : (StoreOp.confirmedBulkCreate clientId out.confirmed).step now db with
  | error e =>
    rw [hconfirmed] at h
    cases h
  | ok db' =>
    rw [hconfirmed] at h
    obtain ⟨confirmed, -, rfl⟩ := map_map_eq_ok.mp hconfirmed
    obtain ⟨table, htable, rfl⟩ := map_map_eq_ok.mp h
    exact bulkCreate_eq htable

/-- Layer 2 has taken the ids of what Layer 3 demotes, so that nothing is inserted for them. -/
theorem probable_unchanged {out₂ : Layer2Output} {out₃ : Layer3Output}
    (h₂ : persistStored now clientId (.layer2 out₂) scan m db = .ok db₁)
    (h₃ : persistStored now' clientId (.layer3 out₃) scan' m' db₁ = .ok db₂)
    (hdemoted : out₃.DemotedFrom out₂) : db₂.probable = db₁.probable := by
  rw [probable_of_layer3 h₃]
  refine Table.insertMissing_of_contains fun row hrow => ?_
  obtain ⟨u, hu, rfl⟩ := List.mem_map.mp hrow
  obtain ⟨p, hp, reason, rfl⟩ := hdemoted u hu
  rw [probable_of_layer2 h₂]
  exact Table.contains_insertMissing_of_mem (r := probableToCreate clientId p) (List.mem_map_of_mem hp)

/-- Every demotion of Layer 3 is stored when the table held the unconfirmed findings, with their
reasons, before Layer 2 was stored. -/
theorem demotionStored_iff {out₂ : Layer2Output} {out₃ : Layer3Output}
    (h₂ : persistStored now clientId (.layer2 out₂) scan m db = .ok db₁)
    (h₃ : persistStored now' clientId (.layer3 out₃) scan' m' db₁ = .ok db₂)
    (hdemoted : out₃.DemotedFrom out₂) :
    (∀ u ∈ out₃.unconfirmed, DemotionStored clientId scanId u db₂) ↔
      ∀ u ∈ out₃.unconfirmed, ∃ row, db.probable.get? u.id = some row ∧
        row.Demotes clientId scanId u := by
  refine forall₂_congr fun u hu => ?_
  rw [demotionStored_iff_get?, probable_unchanged h₂ h₃ hdemoted, probable_of_layer2 h₂,
    Table.get?_insertMissing]
  cases hold : db.probable.get? u.id with
  | some row => rw [Option.some_or]
  | none =>
    -- the row under the id is then the one Layer 2 inserted
    simp only [Option.none_or, reduceCtorEq, false_and, exists_false, iff_false]
    rintro ⟨row, hrow, hstatus, -⟩
    obtain ⟨p, -, rfl⟩ := List.mem_map.mp (List.mem_of_find?_eq_some hrow)
    cases hstatus

/-- A probable finding. -/
def demoProbable : ProbableFinding :=
  { id := "probable", scanId := "scan", clientId := "acme", rootCauseId := "root"
    category := .sqlInjection, reachabilityHypothesis := "", exploitHypothesis := ""
    exposure := .public_, location := { file := "db.ts", line := 7 }
    reachabilityScore := 0, exposureScore := 0, impactScore := 0, rank := 1, createdAt := 0 }

/-- Layer 3 demotes it. -/
def demoDemotion : Layer3Output := { unconfirmed := [toUnconfirmed demoProbable "no path"] }

example : demoDemotion.unconfirmed.map (·.id) = ["probable"] := by decide +kernel

theorem demoDemotion_demotedFrom : demoDemotion.DemotedFrom { probable := [demoProbable] } := by
  intro u hu
  exact ⟨demoProbable, List.mem_singleton_self _, "no path", List.mem_singleton.mp hu⟩

/-- Both layers can be stored. -/
theorem exists_demoStored : ∃ db₁ db₂,
    persistStored 0 "acme" (.layer2 { probable := [demoProbable] }) (newScan demoInput "scan" 0) {}
        demoDatabase = .ok db₁ ∧
      persistStored 1 "acme" (.layer3 demoDemotion) (newScan demoInput "scan" 0) {} db₁ =
        .ok db₂ := by
  obtain ⟨db₂, h⟩ := exists_ok (r := (persistStored 0 "acme" (.layer2 { probable := [demoProbable] })
    (newScan demoInput "scan" 0) {} demoDatabase).bind
      (persistStored 1 "acme" (.layer3 demoDemotion) (newScan demoInput "scan" 0) {}))
    (by decide +kernel)
  cases h₁ : persistStored 0 "acme" (.layer2 { probable := [demoProbable] })
      (newScan demoInput "scan" 0) {} demoDatabase with
  | error e =>
    rw [h₁] at h
    cases h
  | ok db₁ =>
    rw [h₁] at h
    exact ⟨db₁, db₂, rfl, h⟩

/-- The law at this demotion. -/
theorem demotionStored_iff_demo : ∃ db₂,
    (∀ u ∈ demoDemotion.unconfirmed, DemotionStored "acme" "scan" u db₂) ↔
      ∀ u ∈ demoDemotion.unconfirmed, ∃ row, demoDatabase.probable.get? u.id = some row ∧
        row.Demotes "acme" "scan" u := by
  obtain ⟨db₁, db₂, h₁, h₂⟩ := exists_demoStored
  exact ⟨db₂, demotionStored_iff h₁ h₂ demoDemotion_demotedFrom⟩

/-- The demotion of a finding that Layer 2 has just stored is lost. -/
theorem demotion_lost :
    ¬∀ (now now' : IsoDateTime) (clientId : ClientId) (scan scan' : Scan) (m m' : Memory)
      (db db₁ db₂ : Database) (out₂ : Layer2Output) (out₃ : Layer3Output),
      persistStored now clientId (.layer2 out₂) scan m db = .ok db₁ →
      persistStored now' clientId (.layer3 out₃) scan' m' db₁ = .ok db₂ → out₃.DemotedFrom out₂ →
      ∀ u ∈ out₃.unconfirmed, DemotionStored clientId scan.id u db₂ := by
  intro hall
  obtain ⟨db₁, db₂, h₁, h₂⟩ := exists_demoStored
  have hstored := hall 0 1 "acme" (newScan demoInput "scan" 0) (newScan demoInput "scan" 0) {} {}
    demoDatabase db₁ db₂ _ _ h₁ h₂ demoDemotion_demotedFrom _ (List.mem_singleton_self _)
  rw [demotionStored_iff_get?, probable_unchanged h₁ h₂ demoDemotion_demotedFrom,
    probable_of_layer2 h₁] at hstored
  obtain ⟨row, hrow, hstatus, -⟩ := hstored
  cases hrow
  cases hstatus

end MontrSecure
