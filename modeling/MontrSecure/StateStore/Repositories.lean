import MontrSecure.StateStore.Database

/-!
# Repositories

The operations of `packages/state-store/src/repositories.ts` that the pipeline uses. Every read and
write is scoped by the client. An operation is one transaction: it answers and changes the database,
or rejects and leaves it as it was. `StoreOp` names the operations and `StoreOp.exec` performs one.

The last part is what the rest of the development knows about them: `exec_scans`,
`exec_scanStates` and `exec_fixes` say how each table changes, and that no other operation changes
it.
-/

namespace MontrSecure

/-- What an operation gives: an answer and the database after it, or a rejection. -/
abbrev StoreResult (α : Type) : Type := Except Err (α × Database)

/-- `RepositoryScopeError`. -/
def repositoryScopeError (message : String) : Err := .other message

/-- The rejection of a row whose primary or unique key is taken. -/
def uniqueConstraintError : Err := .other "Unique constraint failed"

/-- The rejection of a row that refers to one that does not exist. -/
def foreignKeyError : Err := .other "Foreign key constraint failed"

/-! ## Scans -/

namespace ScanRepository

/-- `create`. -/
def create (clientId : ClientId) (scan : Scan) (db : Database) : StoreResult Scan :=
  let row := { scan with clientId }
  match db.scans.insert? row with
  | none => .error uniqueConstraintError
  | some scans => .ok (row, { db with scans })

/-- `get`. -/
def get (clientId : ClientId) (id : ScanId) (db : Database) : Option Scan :=
  (db.scans.get? id).filter (·.clientId = clientId)

/-- `update`: every column but the identity of the scan is written. -/
def update (clientId : ClientId) (scan : Scan) (db : Database) : StoreResult Scan :=
  match get clientId scan.id db with
  | none => .error (repositoryScopeError s!"scan {scan.id} not found for client")
  | some row =>
    if scan.appMapId.all db.appMaps.contains then
      .ok (scanToUpdate row scan, { db with scans := db.scans.replace (scanToUpdate row scan) })
    else .error foreignKeyError

end ScanRepository

/-! ## Checkpoints -/

/-- `resumeTokenFromState`. -/
def resumeTokenFromState (row : ScanStateRow) : ResumeToken :=
  { id := some row.id
    scanId := row.scanId
    completedLayers := row.completedLayers
    lastCompletedLayer := some row.layer
    checkpointRef := row.checkpointRef
    updatedAt := row.updatedAt }

namespace ResumeRepository

/-- `get`. -/
def get (clientId : ClientId) (scanId : ScanId) (db : Database) : Option ResumeToken :=
  (db.scanStates.get? (clientId, scanId)).map resumeTokenFromState

/-- The row `save` writes; an existing row keeps its id. -/
def stateRow (clientId : ClientId) (token : ResumeToken) (existing : Option ScanStateRow)
    (now : IsoDateTime) (db : Database) : ScanStateRow :=
  { id := (existing.map (·.id)).getD (token.id.getD (generatedId db.generatedIds))
    clientId
    scanId := token.scanId
    layer := (token.lastCompletedLayer.or token.completedLayers.getLast?).getD .layer0
    status := if .layer5 ∈ token.completedLayers then .completed else .running
    completedLayers := token.completedLayers
    checkpointRef := token.checkpointRef
    updatedAt := now }

/-- `save`: update the checkpoint of the scan, or create it. -/
def save (clientId : ClientId) (token : ResumeToken) (now : IsoDateTime) (db : Database) :
    StoreResult ResumeToken :=
  let existing := db.scanStates.get? (clientId, token.scanId)
  let row := stateRow clientId token existing now db
  match existing with
  | some _ => .ok (resumeTokenFromState row, { db with scanStates := db.scanStates.replace row })
  | none =>
    if db.scans.contains token.scanId then
      .ok (resumeTokenFromState row,
        { db with
          scanStates := db.scanStates.insertNew row, generatedIds := db.generatedIds + 1 })
    else .error foreignKeyError

end ResumeRepository

/-! ## App Maps -/

namespace AppMapRepository

/-- Rows for the parts of an App Map, with generated ids where the parts have none. -/
def partRows {α : Type} (appMapId : EntityId) (idOf : α → Option EntityId) (parts : List α)
    (generated : ℕ) : List (AppMapPartRow α) :=
  parts.mapIdx fun i part =>
    { id := (idOf part).getD (generatedId (generated + i)), appMapId, value := part }

/-- `create`: the row of the map, unique by id and by commit, then the rows of its parts. -/
def create (clientId : ClientId) (appMap : AppMap) (db : Database) : StoreResult AppMap :=
  let row := appMapScalarsToCreate clientId appMap
  if db.appMaps.rows.any fun m =>
      m.clientId = clientId && m.repo = appMap.repo && m.commitSha = appMap.commitSha then
    .error uniqueConstraintError
  else
    let routes := partRows appMap.id Route.id (appMap.routes.map routeToCreate) db.generatedIds
    let generated := db.generatedIds + appMap.routes.length
    let sources := partRows appMap.id TaintSource.id appMap.taintSources generated
    let generated := generated + appMap.taintSources.length
    let sinks := partRows appMap.id TaintSink.id appMap.taintSinks generated
    let generated := generated + appMap.taintSinks.length
    match db.appMaps.insert? row, db.routes.insertAll? routes, db.taintSources.insertAll? sources,
        db.taintSinks.insertAll? sinks with
    | some appMaps, some routeTable, some taintSources, some taintSinks =>
      .ok (appMapFromRows row routes sources sinks,
        { db with
          appMaps, routes := routeTable, taintSources, taintSinks, generatedIds := generated })
    | _, _, _, _ => .error uniqueConstraintError

end AppMapRepository

/-! ## Findings -/

namespace FindingRepo

/-- `bulkCreate` of the rows `rows` into `table`: rows whose id is taken are skipped, and a row that
is inserted must belong to a scan there is. -/
def bulkCreate {ρ : Type} {key : ρ → EntityId} (scanOf : ρ → ScanId) (rows : List ρ)
    (table : Table key) (db : Database) : Except Err (Table key) :=
  if rows.all fun r => table.contains (key r) || db.scans.contains (scanOf r) then
    .ok (table.insertMissing rows)
  else .error foreignKeyError

/-- `listByScan` of the rows of `table` that pass the filter of the repository, by creation. -/
def listByScan (status : ProbableStatus) (clientId : ClientId) (scanId : ScanId)
    (table : Table ProbableRow.id) : List ProbableRow :=
  (table.rows.filter fun r => r.status = status && r.clientId = clientId && r.scanId = scanId).mergeSort
    fun r s => decide (r.createdAt ≤ s.createdAt)

end FindingRepo

/-- `listByScan` of `makeProbableRepo`. -/
def ProbableRepository.listByScan (clientId : ClientId) (scanId : ScanId) (db : Database) :
    List ProbableFinding :=
  (FindingRepo.listByScan .probable clientId scanId db.probable).map probableFromRow

/-- `listByScan` of `makeUnconfirmedRepo`: the same table, under the other status. -/
def UnconfirmedRepository.listByScan (clientId : ClientId) (scanId : ScanId) (db : Database) :
    List UnconfirmedFinding :=
  (FindingRepo.listByScan .unconfirmed clientId scanId db.probable).map unconfirmedFromRow

/-! ## Fixes -/

namespace FixRepository

/-- `create`. -/
def create (clientId : ClientId) (fix : Fix) (now : IsoDateTime) (db : Database) :
    StoreResult Fix :=
  let row := fixToCreate clientId now fix
  match db.fixes.insert? row with
  | none => .error uniqueConstraintError
  | some fixes =>
    if db.scans.contains fix.scanId && db.confirmed.contains fix.confirmedFindingId &&
        fix.pullRequestId.all db.pullRequests.contains then
      .ok (row, { db with fixes })
    else .error foreignKeyError

/-- `get`. -/
def get (clientId : ClientId) (id : EntityId) (db : Database) : Option Fix :=
  (db.fixes.get? id).filter (·.clientId = clientId)

/-- `listByScan`, in the order of insertion. -/
def listByScan (clientId : ClientId) (scanId : ScanId) (db : Database) : List Fix :=
  db.fixes.rows.filter fun f => f.clientId = clientId && f.scanId = scanId

/-- `update`. -/
def update (clientId : ClientId) (fix : Fix) (now : IsoDateTime) (db : Database) :
    StoreResult Fix :=
  match get clientId fix.id db with
  | none => .error (repositoryScopeError s!"fix {fix.id} not found for client")
  | some row =>
    if fix.pullRequestId.all db.pullRequests.contains then
      .ok (fixToUpdate row now fix,
        { db with fixes := db.fixes.replace (fixToUpdate row now fix) })
    else .error foreignKeyError

end FixRepository

/-! ## DAST targets -/

namespace DastTargetStore

/-- `findByUrl`. -/
def findByUrl (clientId : ClientId) (url : String) (db : Database) : Option DastTarget :=
  db.dastTargets.rows.find? fun t => t.clientId = clientId && t.url = url

/-- `create`, unique by id and by client and url. -/
def create (target : DastTarget) (db : Database) : StoreResult DastTarget :=
  if (findByUrl target.clientId target.url db).isSome then .error uniqueConstraintError
  else
    match db.dastTargets.insert? target with
    | none => .error uniqueConstraintError
    | some dastTargets => .ok (target, { db with dastTargets })

/-- `update`. -/
def update (clientId : ClientId) (target : DastTarget) (db : Database) : StoreResult DastTarget :=
  match (db.dastTargets.get? target.id).filter (·.clientId = clientId) with
  | none => .error (.other s!"dastTarget {target.id} not found for client")
  | some row =>
    let target := { target with clientId := row.clientId, createdAt := row.createdAt }
    .ok (target, { db with dastTargets := db.dastTargets.replace target })

end DastTargetStore

/-! ## Operations -/

/-- The operations of the state store. -/
inductive StoreOp where
  | scansCreate (clientId : ClientId) (scan : Scan)
  | scansGet (clientId : ClientId) (id : ScanId)
  | scansUpdate (clientId : ClientId) (scan : Scan)
  | resumeGet (clientId : ClientId) (scanId : ScanId)
  | resumeSave (clientId : ClientId) (token : ResumeToken)
  | appMapsCreate (clientId : ClientId) (appMap : AppMap)
  | candidatesBulkCreate (clientId : ClientId) (findings : List CandidateFinding)
  | probableBulkCreate (clientId : ClientId) (findings : List ProbableFinding)
  | confirmedBulkCreate (clientId : ClientId) (findings : List ConfirmedFinding)
  | unconfirmedBulkCreate (clientId : ClientId) (findings : List UnconfirmedFinding)
  | fixesCreate (clientId : ClientId) (fix : Fix)
  | fixesGet (clientId : ClientId) (id : EntityId)
  | fixesUpdate (clientId : ClientId) (fix : Fix)
  | fixesListByScan (clientId : ClientId) (scanId : ScanId)
  | dastFindByUrl (clientId : ClientId) (url : String)
  | dastCreate (target : DastTarget)
  | dastUpdate (clientId : ClientId) (target : DastTarget)
  | auditAppend (input : AuditEventInput)

namespace StoreOp

/-- What an operation answers. -/
abbrev Val : StoreOp → Type
  | scansCreate .. | scansUpdate .. => Scan
  | scansGet .. => Option Scan
  | resumeGet .. => Option ResumeToken
  | resumeSave .. => ResumeToken
  | appMapsCreate .. => AppMap
  | candidatesBulkCreate .. | probableBulkCreate .. | confirmedBulkCreate ..
  | unconfirmedBulkCreate .. | auditAppend _ => Unit
  | fixesCreate .. | fixesUpdate .. => Fix
  | fixesGet .. => Option Fix
  | fixesListByScan .. => List Fix
  | dastFindByUrl .. => Option DastTarget
  | dastCreate _ | dastUpdate .. => DastTarget

/-- Perform an operation at time `now`. -/
def exec (now : IsoDateTime) : (q : StoreOp) → Database → StoreResult q.Val
  | scansCreate clientId scan, db => ScanRepository.create clientId scan db
  | scansGet clientId id, db => .ok (ScanRepository.get clientId id db, db)
  | scansUpdate clientId scan, db => ScanRepository.update clientId scan db
  | resumeGet clientId scanId, db => .ok (ResumeRepository.get clientId scanId db, db)
  | resumeSave clientId token, db => ResumeRepository.save clientId token now db
  | appMapsCreate clientId appMap, db => AppMapRepository.create clientId appMap db
  | candidatesBulkCreate clientId findings, db =>
    (FindingRepo.bulkCreate CandidateRow.scanId (findings.map (candidateToCreate clientId))
      db.candidates db).map fun candidates => ((), { db with candidates })
  | probableBulkCreate clientId findings, db =>
    (FindingRepo.bulkCreate ProbableRow.scanId (findings.map (probableToCreate clientId))
      db.probable db).map fun probable => ((), { db with probable })
  | confirmedBulkCreate clientId findings, db =>
    (FindingRepo.bulkCreate ConfirmedRow.scanId (findings.map (confirmedToCreate clientId))
      db.confirmed db).map fun confirmed => ((), { db with confirmed })
  | unconfirmedBulkCreate clientId findings, db =>
    (FindingRepo.bulkCreate ProbableRow.scanId (findings.map (unconfirmedToCreate clientId))
      db.probable db).map fun probable => ((), { db with probable })
  | fixesCreate clientId fix, db => FixRepository.create clientId fix now db
  | fixesGet clientId id, db => .ok (FixRepository.get clientId id db, db)
  | fixesUpdate clientId fix, db => FixRepository.update clientId fix now db
  | fixesListByScan clientId scanId, db => .ok (FixRepository.listByScan clientId scanId db, db)
  | dastFindByUrl clientId url, db => .ok (DastTargetStore.findByUrl clientId url db, db)
  | dastCreate target, db => DastTargetStore.create target db
  | dastUpdate clientId target, db => DastTargetStore.update clientId target db
  | auditAppend input, db => .ok ((), { db with auditEvents := db.auditEvents ++ [input] })

/-! ## Which operation changes what -/

variable {now : IsoDateTime} {db : Database}

/-- Scans are changed by their creation and their update only. -/
theorem exec_scans {q : StoreOp} {v : q.Val} {db' : Database} (h : exec now q db = .ok (v, db')) :
    db'.scans = db.scans ∨
      (∃ clientId scan, q = scansCreate clientId scan ∧ db.scans.contains scan.id = false ∧
        db'.scans = db.scans.insertNew { scan with clientId }) ∨
      ∃ clientId scan row, q = scansUpdate clientId scan ∧
        db.scans.get? scan.id = some row ∧ row.clientId = clientId ∧
        db'.scans = db.scans.replace (scanToUpdate row scan) := by
  cases q with
  | scansCreate clientId scan =>
    simp only [exec, ScanRepository.create] at h
    split at h
    · cases h
    · rename_i scans hinsert
      obtain ⟨hfresh, rfl⟩ := Table.insert?_eq_some_iff.mp hinsert
      cases h
      exact .inr (.inl ⟨clientId, scan, rfl, hfresh, rfl⟩)
  | scansUpdate clientId scan =>
    simp only [exec, ScanRepository.update] at h
    split at h
    · cases h
    · rename_i row hget
      split at h
      · cases h
        simp only [ScanRepository.get, Option.filter_eq_some_iff, decide_eq_true_eq] at hget
        exact .inr (.inr ⟨clientId, scan, row, rfl, hget.1, hget.2, rfl⟩)
      · cases h
  | scansGet | resumeGet | fixesGet | fixesListByScan | dastFindByUrl | auditAppend =>
    cases h
    exact .inl rfl
  | resumeSave | appMapsCreate | fixesCreate | fixesUpdate | dastCreate | dastUpdate =>
    simp only [exec, ResumeRepository.save, AppMapRepository.create, FixRepository.create,
      FixRepository.update, DastTargetStore.create, DastTargetStore.update] at h
    repeat' split at h
    all_goals cases h <;> exact .inl rfl
  | candidatesBulkCreate | probableBulkCreate | confirmedBulkCreate | unconfirmedBulkCreate =>
    simp only [exec, FindingRepo.bulkCreate] at h
    split at h <;> cases h
    exact .inl rfl

/-- Checkpoints are changed by `resumeSave` only, and it changes the one of its scan. -/
theorem exec_scanStates {q : StoreOp} {v : q.Val} {db' : Database}
    (h : exec now q db = .ok (v, db')) :
    db'.scanStates = db.scanStates ∨
      ∃ clientId token, q = resumeSave clientId token ∧
        ∀ k, ResumeRepository.get k.1 k.2 db' =
          if k = (clientId, token.scanId) then
            some (resumeTokenFromState
              (ResumeRepository.stateRow clientId token
                (db.scanStates.get? (clientId, token.scanId)) now db))
          else ResumeRepository.get k.1 k.2 db := by
  cases q with
  | resumeSave clientId token =>
    refine .inr ⟨clientId, token, rfl, fun k => ?_⟩
    simp only [exec, ResumeRepository.save] at h
    split at h
    · rename_i row hrow
      cases h
      rw [ResumeRepository.get, Table.get?_replace]
      by_cases hk : k = (clientId, token.scanId)
      · subst hk
        simp [ResumeRepository.stateRow, hrow]
      · have hk' : ¬(clientId, token.scanId) = (k.1, k.2) := fun h => hk h.symm
        simp [ResumeRepository.stateRow, ResumeRepository.get, hk, hk']
    · rename_i hrow
      split at h
      · cases h
        have hfresh : db.scanStates.contains (clientId, token.scanId) = false := by
          rw [← Bool.not_eq_true, ← Table.get?_isSome_iff, hrow]
          simp
        rw [ResumeRepository.get, Table.get?_insertNew hfresh]
        by_cases hk : k = (clientId, token.scanId)
        · subst hk
          simp [ResumeRepository.stateRow]
        · have hk' : ¬(clientId, token.scanId) = (k.1, k.2) := fun h => hk h.symm
          simp [ResumeRepository.stateRow, ResumeRepository.get, hk, hk']
      · cases h
  | scansGet | resumeGet | fixesGet | fixesListByScan | dastFindByUrl | auditAppend =>
    cases h
    exact .inl rfl
  | scansCreate | scansUpdate | appMapsCreate | fixesCreate | fixesUpdate | dastCreate
  | dastUpdate =>
    simp only [exec, ScanRepository.create, ScanRepository.update, AppMapRepository.create,
      FixRepository.create, FixRepository.update, DastTargetStore.create,
      DastTargetStore.update] at h
    repeat' split at h
    all_goals cases h <;> exact .inl rfl
  | candidatesBulkCreate | probableBulkCreate | confirmedBulkCreate | unconfirmedBulkCreate =>
    simp only [exec, FindingRepo.bulkCreate] at h
    split at h <;> cases h
    exact .inl rfl

/-- Fixes are changed by their creation and their update only. -/
theorem exec_fixes {q : StoreOp} {v : q.Val} {db' : Database} (h : exec now q db = .ok (v, db')) :
    db'.fixes = db.fixes ∨
      (∃ clientId fix, q = fixesCreate clientId fix ∧
        db'.fixes = db.fixes.insertNew (fixToCreate clientId now fix)) ∨
      ∃ clientId fix row, q = fixesUpdate clientId fix ∧
        FixRepository.get clientId fix.id db = some row ∧
        db'.fixes = db.fixes.replace (fixToUpdate row now fix) := by
  cases q with
  | fixesCreate clientId fix =>
    simp only [exec, FixRepository.create] at h
    split at h
    · cases h
    · rename_i fixes hinsert
      obtain ⟨-, rfl⟩ := Table.insert?_eq_some_iff.mp hinsert
      split at h
      · cases h
        exact .inr (.inl ⟨clientId, fix, rfl, rfl⟩)
      · cases h
  | fixesUpdate clientId fix =>
    simp only [exec, FixRepository.update] at h
    split at h
    · cases h
    · rename_i row hget
      split at h
      · cases h
        exact .inr (.inr ⟨clientId, fix, row, rfl, hget, rfl⟩)
      · cases h
  | scansGet | resumeGet | fixesGet | fixesListByScan | dastFindByUrl | auditAppend =>
    cases h
    exact .inl rfl
  | scansCreate | scansUpdate | resumeSave | appMapsCreate | dastCreate | dastUpdate =>
    simp only [exec, ScanRepository.create, ScanRepository.update, ResumeRepository.save,
      AppMapRepository.create, DastTargetStore.create, DastTargetStore.update] at h
    repeat' split at h
    all_goals cases h <;> exact .inl rfl
  | candidatesBulkCreate | probableBulkCreate | confirmedBulkCreate | unconfirmedBulkCreate =>
    simp only [exec, FindingRepo.bulkCreate] at h
    split at h <;> cases h
    exact .inl rfl

end StoreOp

end MontrSecure
