import MontrSecure.StateStore.Repositories
import MontrSecure.StateStore.Schema

/-!
# The per-client repositories

`packages/state-store/src/repositories.ts`. A method answers with the rows that the mappers of
`mappers.ts` make its result from, except for `bulkCreate`, which hands back what it was given. A
transaction that rejects leaves the database as it was, as does a single call.
-/

namespace MontrSecure.Tenancy

open Relational

/-! ## Calls scoped by client -/

/-- A transaction of the store. -/
abbrev Tx (α : Type) : Type := Transaction Store Err α

instance : Violations Err := { unique := uniqueConstraintError, foreignKey := foreignKeyError }

/-- The time, and the ids that the database generates in a transaction. -/
structure Env where
  now : IsoDateTime
  cuid : ℕ → EntityId

/-- The condition that a field has a value. -/
def fieldIs {ρ α : Type} [DecidableEq α] (name : String) (field : ρ → α) (value : α) :
    String × (ρ → Bool) :=
  (name, fun r => field r = value)

section

variable (m : Model) (clientId : ClientId)

/-- `{ id }`. -/
def idIs (id : EntityId) : String × (m.Row → Bool) := fieldIs "id" m.id id

/-- `{ clientId }`. -/
def clientIs : String × (m.Row → Bool) := fieldIs "clientId" m.clientId (some clientId)

/-- No order is asked for. -/
def unordered {ρ : Type} (_ _ : ρ) : Bool := true

/-- Ascending by a column. -/
def ascending {ρ : Type} (column : ρ → IsoDateTime) (r s : ρ) : Bool := column r ≤ column s

/-- Descending by a column. -/
def descending {ρ : Type} (column : ρ → IsoDateTime) (r s : ρ) : Bool := column s ≤ column r

/-- `findFirst({ where: { id, clientId } })`. -/
def getRow (id : EntityId) : Tx (Option m.Row) :=
  findFirst m [idIs m id, clientIs m clientId] unordered

/-- `findMany({ where: { ...filter, clientId } })`. -/
def listRows (filter : Where m.Row) (le : m.Row → m.Row → Bool) : Tx (List m.Row) :=
  findMany m (spread filter [clientIs m clientId]) le

/-- `updateMany({ where: { id, clientId } })` and the row after it. -/
def updateRow (id : EntityId) (data : m.Row → m.Row) (name : String) : Tx m.Row := do
  let count ← updateMany m [idIs m id, clientIs m clientId] data
  if count = 0 then throw (repositoryScopeError s!"{name} {id} not found for client")
  else
    match ← getRow m clientId id with
    | none => throw (repositoryScopeError s!"{name} {id} vanished after update")
    | some row => return row

/-- `deleteMany({ where: { id, clientId } })`. -/
def deleteRow (id : EntityId) (name : String) : Tx Unit := do
  let count ← deleteMany m [idIs m id, clientIs m clientId]
  if count = 0 then throw (repositoryScopeError s!"{name} {id} not found for client")
  else return ()

end

variable (env : Env) (clientId : ClientId)

/-! ## Scans -/

namespace ScanRepositoryImpl

/-- `create`. -/
def create (scan : Scan) : Tx Scan := Relational.create (m := Model.scan) { scan with clientId }

/-- `get`. -/
def get (id : ScanId) : Tx (Option Scan) := getRow .scan clientId id

/-- `list`. -/
def list (filter : Where Scan) : Tx (List Scan) :=
  listRows .scan clientId filter (descending Scan.createdAt)

/-- `update`. -/
def update (scan : Scan) : Tx Scan :=
  updateRow .scan clientId scan.id (fun row => scanToUpdate row scan) "scan"

/-- By the start, scans that have not started last. -/
def byStart (r s : Scan) : Bool :=
  match r.startedAt, s.startedAt with
  | some t, some u => t ≤ u
  | some _, none => true
  | none, some _ => false
  | none, none => true

/-- `listByStatus`. -/
def listByStatus (status : ScanStatus) : Tx (List Scan) :=
  findMany (m := Model.scan) [clientIs .scan clientId, fieldIs "status" Scan.status status] byStart

end ScanRepositoryImpl

/-! ## App Maps -/

/-- What an App Map is assembled from. -/
structure AppMapRows where
  row : AppMapRow
  routes : List (AppMapPartRow Route)
  taintSources : List (AppMapPartRow TaintSource)
  taintSinks : List (AppMapPartRow TaintSink)

/-- `appMapScalarsToCreate`. -/
def appMapScalarsToCreate (appMap : AppMap) : AppMapRow :=
  { id := appMap.id
    clientId
    repo := appMap.repo
    branch := appMap.branch
    commitSha := appMap.commitSha
    languages := appMap.languages
    taintFlows := appMap.taintFlows
    entrypoints := appMap.entrypoints
    envSecretSurfaces := appMap.envSecretSurfaces
    thirdPartyCalls := appMap.thirdPartyCalls
    dataStores := appMap.dataStores
    ormModels := appMap.ormModels
    threatModel := appMap.threatModel
    stale := appMap.stale
    createdAt := appMap.createdAt }

/-- `routeToCreate`, `taintSourceToCreate` and `taintSinkToCreate` for the parts of a map; those
without an id get one, the first of them the id number `generated`. -/
def partsToCreate {α : Type} (appMapId : EntityId) (idOf : α → Option EntityId) (generated : ℕ)
    (parts : List α) : List (AppMapPartRow α) :=
  parts.mapIdx fun i part =>
    { id := (idOf part).getD (env.cuid (generated + i)), appMapId, value := part }

namespace AppMapRepositoryImpl

/-- `assemble`. -/
def assemble (id : EntityId) : Tx (Option AppMapRows) := do
  match ← getRow .appMap clientId id with
  | none => return none
  | some row =>
    let routes ← findMany (m := Model.route) [fieldIs "appMapId" AppMapPartRow.appMapId id] unordered
    let taintSources ←
      findMany (m := Model.taintSource) [fieldIs "appMapId" AppMapPartRow.appMapId id] unordered
    let taintSinks ←
      findMany (m := Model.taintSink) [fieldIs "appMapId" AppMapPartRow.appMapId id] unordered
    return some { row, routes, taintSources, taintSinks }

/-- The parts of one kind, in one call if there are any. -/
def createPart (m : Model) (rows : List m.Row) : Tx ℕ :=
  if 0 < rows.length then createMany m rows false else pure 0

/-- The parts of a map. -/
def createParts (appMap : AppMap) : Tx Unit := do
  let routes := partsToCreate env appMap.id Route.id 0 (appMap.routes.map routeToCreate)
  let sources := partsToCreate env appMap.id TaintSource.id appMap.routes.length appMap.taintSources
  let sinks := partsToCreate env appMap.id TaintSink.id
    (appMap.routes.length + appMap.taintSources.length) appMap.taintSinks
  let _ ← createPart .route routes
  let _ ← createPart .taintSource sources
  let _ ← createPart .taintSink sinks
  return ()

/-- `create`. -/
def create (appMap : AppMap) : Tx AppMapRows := do
  let _ ← Relational.create (m := Model.appMap) (appMapScalarsToCreate clientId appMap)
  createParts env appMap
  match ← assemble clientId appMap.id with
  | none => throw (repositoryScopeError s!"appMap {appMap.id} missing after create")
  | some created => return created

/-- `get`. -/
def get (id : EntityId) : Tx (Option AppMapRows) := assemble clientId id

/-- `list`. -/
def list (filter : Where AppMapRow) : Tx (List AppMapRows) := do
  let rows ← listRows .appMap clientId filter (descending AppMapRow.createdAt)
  let maps ← rows.mapM fun row => assemble clientId row.id
  return maps.reduceOption

/-- The newest of the maps a condition selects, assembled. -/
def latest (w : Where AppMapRow) : Tx (Option AppMapRows) := do
  match ← findFirst (m := Model.appMap) w (descending AppMapRow.createdAt) with
  | none => return none
  | some row => assemble clientId row.id

/-- `latestForCommit`. -/
def latestForCommit (repo commitSha : String) : Tx (Option AppMapRows) :=
  latest clientId [clientIs .appMap clientId, fieldIs "repo" AppMapRow.repo repo,
    fieldIs "commitSha" AppMapRow.commitSha commitSha]

/-- `latestForRepo`. -/
def latestForRepo (repo : String) : Tx (Option AppMapRows) :=
  latest clientId [clientIs .appMap clientId, fieldIs "repo" AppMapRow.repo repo]

/-- `markStale`. -/
def markStale (appMapId : EntityId) : Tx Unit := do
  let count ← updateMany (m := Model.appMap) [idIs .appMap appMapId, clientIs .appMap clientId]
    fun row => { row with stale := true }
  if count = 0 then throw (repositoryScopeError s!"appMap {appMapId} not found for client")
  else return ()

/-- `invalidateStaleForCommit`. -/
def invalidateStaleForCommit (repo currentCommitSha : String) : Tx ℕ :=
  updateMany (m := Model.appMap)
    [clientIs .appMap clientId, fieldIs "repo" AppMapRow.repo repo,
      ("commitSha", fun row => row.commitSha ≠ currentCommitSha), fieldIs "stale" AppMapRow.stale false]
    fun row => { row with stale := true }

end AppMapRepositoryImpl

/-! ## Findings -/

/-- `FindingRepo`: what differs between the repositories of findings `τ`. -/
structure FindingRepo (τ : Type) (m : Model) where
  toCreate : ClientId → τ → m.Row
  /-- `{ ...f, clientId }`. -/
  withClient : ClientId → τ → τ
  baseWhere : Where m.Row
  scanId : m.Row → ScanId
  createdAt : m.Row → IsoDateTime

namespace FindingRepo

variable {τ : Type} {m : Model} (repo : FindingRepo τ m)

/-- `create`. -/
def create (entity : τ) : Tx m.Row := Relational.create m (repo.toCreate clientId entity)

/-- `bulkCreate`. -/
def bulkCreate (findings : List τ) : Tx (List τ) := do
  if findings.isEmpty then return []
  else
    let _ ← createMany m (findings.map (repo.toCreate clientId)) true
    return findings.map (repo.withClient clientId)

/-- `get`. -/
def get (id : EntityId) : Tx (Option m.Row) :=
  findFirst m (spread repo.baseWhere [idIs m id, clientIs m clientId]) unordered

/-- `list`. -/
def list (filter : Where m.Row) : Tx (List m.Row) :=
  findMany m (spread (spread repo.baseWhere filter) [clientIs m clientId]) (ascending repo.createdAt)

/-- `listByScan`. -/
def listByScan (scanId : ScanId) : Tx (List m.Row) :=
  findMany m (spread repo.baseWhere [clientIs m clientId, fieldIs "scanId" repo.scanId scanId])
    (ascending repo.createdAt)

end FindingRepo

/-- `makeCandidateRepo`. -/
def makeCandidateRepo : FindingRepo CandidateFinding .candidateFinding :=
  { toCreate := candidateToCreate
    withClient := fun clientId f => { f with clientId }
    baseWhere := []
    scanId := CandidateRow.scanId
    createdAt := CandidateRow.createdAt }

/-- `makeProbableRepo`. -/
def makeProbableRepo : FindingRepo ProbableFinding .probableFinding :=
  { toCreate := probableToCreate
    withClient := fun clientId f => { f with clientId }
    baseWhere := [fieldIs "status" ProbableRow.status .probable]
    scanId := ProbableRow.scanId
    createdAt := ProbableRow.createdAt }

/-- `makeConfirmedRepo`. -/
def makeConfirmedRepo : FindingRepo ConfirmedFinding .confirmedFinding :=
  { toCreate := confirmedToCreate
    withClient := fun clientId f => { f with clientId }
    baseWhere := []
    scanId := ConfirmedRow.scanId
    createdAt := ConfirmedRow.createdAt }

/-- `makeUnconfirmedRepo`. -/
def makeUnconfirmedRepo : FindingRepo UnconfirmedFinding .probableFinding :=
  { toCreate := unconfirmedToCreate
    withClient := fun clientId f => { f with clientId }
    baseWhere := [fieldIs "status" ProbableRow.status .unconfirmed]
    scanId := ProbableRow.scanId
    createdAt := ProbableRow.createdAt }

/-! ## Fixes and pull requests -/

namespace FixRepositoryImpl

/-- `create`. -/
def create (fix : Fix) : Tx Fix := Relational.create (m := Model.fix) (fixToCreate clientId env.now fix)

/-- `get`. -/
def get (id : EntityId) : Tx (Option Fix) := getRow .fix clientId id

/-- `list`. -/
def list (filter : Where Fix) : Tx (List Fix) := listRows .fix clientId filter (ascending Fix.createdAt)

/-- `listByScan`. -/
def listByScan (scanId : ScanId) : Tx (List Fix) :=
  findMany (m := Model.fix) [clientIs .fix clientId, fieldIs "scanId" Fix.scanId scanId]
    (ascending Fix.createdAt)

/-- `update`. -/
def update (fix : Fix) : Tx Fix :=
  updateRow .fix clientId fix.id (fun row => fixToUpdate row env.now fix) "fix"

end FixRepositoryImpl

namespace PullRequestRepositoryImpl

/-- `create`. -/
def create (pr : PullRequest) : Tx PullRequest :=
  Relational.create (m := Model.pullRequest) { pr with clientId }

/-- `get`. -/
def get (id : EntityId) : Tx (Option PullRequest) := getRow .pullRequest clientId id

/-- `list`. -/
def list (filter : Where PullRequest) : Tx (List PullRequest) :=
  listRows .pullRequest clientId filter (descending PullRequest.createdAt)

/-- `listByScan`. -/
def listByScan (scanId : ScanId) : Tx (List PullRequest) :=
  findMany (m := Model.pullRequest)
    [clientIs .pullRequest clientId, fieldIs "scanId" PullRequest.scanId scanId]
    (ascending PullRequest.createdAt)

/-- `update`. -/
def update (pr : PullRequest) : Tx PullRequest :=
  updateRow .pullRequest clientId pr.id
    (fun row => { row with
      url := pr.url, number := pr.number, title := pr.title, bodySummary := pr.bodySummary
      fixIds := pr.fixIds, status := pr.status })
    "pr"

end PullRequestRepositoryImpl

/-! ## Reports -/

/-- `reportToCreate`. -/
def reportToCreate (report : Report) : ReportRow :=
  { id := report.id, clientId, scanId := report.scanId, generatedAt := report.generatedAt
    document := report }

namespace ReportRepositoryImpl

/-- `upsert`, by the scan alone. -/
def upsert (report : Report) : Tx ReportRow :=
  Relational.upsert (m := Model.report) [fieldIs "scanId" ReportRow.scanId report.scanId]
    (reportToCreate clientId report)
    fun row => { row with document := report, generatedAt := report.generatedAt }

/-- `getByScan`. -/
def getByScan (scanId : ScanId) : Tx (Option ReportRow) :=
  findFirst (m := Model.report) [fieldIs "scanId" ReportRow.scanId scanId, clientIs .report clientId]
    unordered

end ReportRepositoryImpl

/-! ## Checkpoints -/

namespace ResumeRepositoryImpl

/-- The checkpoints of a scan. -/
def ofScan (scanId : ScanId) : Where ScanStateRow :=
  [clientIs .scanState clientId, fieldIs "scanId" (fun row => row.scanId) scanId]

/-- The columns `save` writes. -/
def written (token : ResumeToken) (row : ScanStateRow) : ScanStateRow :=
  { row with
    layer := (token.lastCompletedLayer.or token.completedLayers.getLast?).getD .layer0
    status := if .layer5 ∈ token.completedLayers then .completed else .running
    completedLayers := token.completedLayers
    checkpointRef := token.checkpointRef.filter (· ≠ "")
    updatedAt := env.now }

/-- `save`. -/
def save (token : ResumeToken) : Tx ScanStateRow := do
  match ← findFirst (m := Model.scanState) (ofScan clientId token.scanId)
      (descending fun row => row.updatedAt) with
  | some existing =>
    let _ ← updateMany (m := Model.scanState) [idIs .scanState existing.id, clientIs .scanState clientId]
      (written env token)
    match ← getRow .scanState clientId existing.id with
    | none => throw (repositoryScopeError "scanState vanished after update")
    | some row => return row
  | none =>
    Relational.create (m := Model.scanState)
      (written env token
        { id := (token.id.filter (· ≠ "")).getD (env.cuid 0)
          clientId
          scanId := token.scanId
          layer := .layer0
          status := .running
          completedLayers := []
          checkpointRef := none
          updatedAt := env.now
          createdAt := env.now })

/-- `get`. -/
def get (scanId : ScanId) : Tx (Option ScanStateRow) :=
  findFirst (m := Model.scanState) (ofScan clientId scanId) (descending fun row => row.updatedAt)

/-- `markLayerCompleted`. -/
def markLayerCompleted (scanId : ScanId) (layer : LayerId) (checkpointRef : Option String) :
    Tx ScanStateRow := do
  let current ← get clientId scanId
  let completed := (current.map fun row => row.completedLayers).getD []
  let merged := if layer ∈ completed then completed else completed ++ [layer]
  save env clientId
    { scanId
      completedLayers := merged
      lastCompletedLayer := some layer
      checkpointRef := checkpointRef.or (current.bind fun row => row.checkpointRef)
      updatedAt := env.now }

/-- `listStates`. -/
def listStates (scanId : ScanId) : Tx (List ScanStateRow) :=
  findMany (m := Model.scanState) (ofScan clientId scanId) (ascending ScanStateRow.createdAt)

end ResumeRepositoryImpl

/-! ## Credentials -/

/-- `FieldCipher`: envelopes bound to a client. -/
structure FieldCipher where
  encrypt : String → ClientId → String
  decrypt : String → ClientId → Except Err String

/-- `requireCipher`. -/
def requireCipher (cipher : Option FieldCipher) (what : String) : Tx FieldCipher :=
  match cipher with
  | none => throw (.other s!"field-encryption key is required to read/write {what}")
  | some cipher => pure cipher

/-- Open an envelope. -/
def openEnvelope (cipher : FieldCipher) (envelope : String) : Tx String :=
  match cipher.decrypt envelope clientId with
  | .error e => throw e
  | .ok text => pure text

/-- `LlmCredentialInput`. -/
structure LlmCredentialInput where
  provider : String
  endpoint : Option String := none
  apiKey : String
  refreshToken : Option String := none
  keyTier : Option String := none

namespace CredentialRepositoryImpl

variable (cipher : Option FieldCipher)

/-- The columns `upsert` writes. -/
def written (cipher : FieldCipher) (cred : LlmCredentialInput) (row : LlmCredentialRow) :
    LlmCredentialRow :=
  { row with
    provider := cred.provider
    endpoint := cred.endpoint
    apiKey := cipher.encrypt cred.apiKey clientId
    refreshToken := (cred.refreshToken.filter (· ≠ "")).map fun token => cipher.encrypt token clientId
    keyTier := cred.keyTier.getD "unknown"
    updatedAt := env.now }

/-- `upsert`. -/
def upsert (cred : LlmCredentialInput) : Tx LlmCredentialRow := do
  let cipher ← requireCipher cipher "LLM credentials"
  Relational.upsert (m := Model.llmCredential) [clientIs .llmCredential clientId]
    (written env clientId cipher cred
      { id := env.cuid 0, clientId, provider := "", endpoint := none, apiKey := ""
        refreshToken := none, keyTier := "unknown", createdAt := env.now, updatedAt := env.now })
    (written env clientId cipher cred)

/-- `get`: the row, if its envelopes can be opened. -/
def get : Tx (Option LlmCredentialRow) := do
  let cipher ← requireCipher cipher "LLM credentials"
  match ← findFirst (m := Model.llmCredential) [clientIs .llmCredential clientId] unordered with
  | none => return none
  | some row =>
    let _ ← openEnvelope clientId cipher row.apiKey
    match row.refreshToken with
    | none => return some row
    | some token =>
      let _ ← openEnvelope clientId cipher token
      return some row

/-- `getMetadata`. -/
def getMetadata : Tx (Option LlmCredentialRow) :=
  findFirst (m := Model.llmCredential) [clientIs .llmCredential clientId] unordered

/-- `delete`. -/
def delete : Tx Unit := do
  let _ ← deleteMany (m := Model.llmCredential) [clientIs .llmCredential clientId]
  return ()

end CredentialRepositoryImpl

end MontrSecure.Tenancy
