import MontrSecure.Contracts.Phase4
import MontrSecure.Relational.Cascade
import MontrSecure.Relational.Tenancy
import MontrSecure.StateStore.Database

/-!
# The schema of the store

`packages/state-store/prisma/schema.prisma`, for the models the per-client repositories use and those whose rows
belong to a scan or an App Map: the columns of their rows, the keys and unique indexes that keep rows apart, the
foreign keys, what a deletion does to the rows that refer to what is deleted, and the client a row
belongs to. Routes, sources and sinks have no client of their own: they belong to that of their App Map.
-/

namespace MontrSecure.Tenancy

open Relational

/-! ## Rows -/

/-- The models. -/
inductive Model where
  | client
  | user
  | scan
  | scanState
  | appMap
  | route
  | taintSource
  | taintSink
  | candidateFinding
  | probableFinding
  | confirmedFinding
  | fix
  | pullRequest
  | report
  | llmCredential
  | customRule
  | redTeamScenario
  | scanSchedule
  | postureSnapshot
  | learnedFact
  | codeChunk
  | detectionRule
  | attackPath
  | detectionCoverage
  deriving DecidableEq

/-- A row of `User`, as far as other rows refer to it. -/
structure UserRow where
  id : EntityId
  clientId : ClientId

/-- A row of `ScanState`. -/
structure ScanStateRow extends MontrSecure.ScanStateRow where
  createdAt : IsoDateTime

/-- A row of `AppMap`, without the parts that have tables of their own. -/
structure AppMapRow where
  id : EntityId
  clientId : ClientId
  repo : String
  branch : String
  commitSha : String
  languages : List Language
  taintFlows : List TaintFlowEdge
  entrypoints : List Entrypoint
  envSecretSurfaces : List EnvSecretSurface
  thirdPartyCalls : List ThirdPartyCall
  dataStores : List DataStore
  ormModels : List OrmModel
  threatModel : Option ThreatModel
  stale : Bool
  createdAt : IsoDateTime

/-- A report: the columns of its row, and the document they are taken from. -/
structure Report where
  id : EntityId
  scanId : ScanId
  clientId : ClientId
  generatedAt : IsoDateTime
  sections : Json

/-- A row of `Report`. -/
structure ReportRow where
  id : EntityId
  clientId : ClientId
  scanId : ScanId
  generatedAt : IsoDateTime
  document : Report

/-- A row of `LlmCredential`; the secrets are envelopes. -/
structure LlmCredentialRow where
  id : EntityId
  clientId : ClientId
  provider : String
  endpoint : Option String
  apiKey : String
  refreshToken : Option String
  keyTier : String
  createdAt : IsoDateTime
  updatedAt : IsoDateTime

/-- A row of `RedTeamScenario`; `steps` is an envelope. -/
structure RedTeamScenarioRow where
  id : EntityId
  clientId : ClientId
  name : String
  category : RedTeamCategory
  steps : String
  targetAllowlistRef : String
  version : ℕ
  enabled : Bool
  createdBy : EntityId
  createdAt : IsoDateTime
  liveAuthorizedById : Option EntityId
  liveAuthorizationReference : Option String
  liveAuthorizedAt : Option IsoDateTime
  liveAuthorizedForVersion : Option ℕ

/-- `LearnedFactType`. -/
inductive LearnedFactType where
  | customSanitizer
  | frameworkIdiom
  | operatorDecision
  | confirmedExploitShape
  deriving DecidableEq

/-- A row of `LearnedFact`. -/
structure LearnedFactRow where
  id : EntityId
  clientId : ClientId
  repo : String
  type : LearnedFactType
  content : Json
  provenance : Json
  createdAt : IsoDateTime

/-- A row of `CodeChunk`, as far as it refers to other rows. -/
structure CodeChunkRow where
  id : EntityId
  clientId : ClientId
  appMapId : EntityId

/-- A row of `DetectionRule`, `AttackPath` or `DetectionCoverage`, as far as it refers to other rows. -/
structure ScanPartRow where
  id : EntityId
  clientId : ClientId
  scanId : ScanId

/-- The rows of a model; of `Client` only the id is used. -/
abbrev Model.Row : Model → Type
  | client => ClientId
  | user => UserRow
  | scan => Scan
  | scanState => ScanStateRow
  | appMap => AppMapRow
  | route => AppMapPartRow Route
  | taintSource => AppMapPartRow TaintSource
  | taintSink => AppMapPartRow TaintSink
  | candidateFinding => CandidateRow
  | probableFinding => ProbableRow
  | confirmedFinding => ConfirmedRow
  | fix => Fix
  | pullRequest => PullRequest
  | report => ReportRow
  | llmCredential => LlmCredentialRow
  | customRule => CustomRule
  | redTeamScenario => RedTeamScenarioRow
  | scanSchedule => ScanSchedule
  | postureSnapshot => PostureSnapshot
  | learnedFact => LearnedFactRow
  | codeChunk => CodeChunkRow
  | detectionRule | attackPath | detectionCoverage => ScanPartRow

/-! ## Columns -/

/-- The primary key. -/
def Model.id : ∀ m : Model, m.Row → EntityId
  | client => fun id => id
  | user => UserRow.id
  | scan => Scan.id
  | scanState => fun r => r.id
  | appMap => AppMapRow.id
  | route | taintSource | taintSink => AppMapPartRow.id
  | candidateFinding => CandidateRow.id
  | probableFinding => ProbableRow.id
  | confirmedFinding => ConfirmedRow.id
  | fix => Fix.id
  | pullRequest => PullRequest.id
  | report => ReportRow.id
  | llmCredential => LlmCredentialRow.id
  | customRule => CustomRule.id
  | redTeamScenario => RedTeamScenarioRow.id
  | scanSchedule => ScanSchedule.id
  | postureSnapshot => PostureSnapshot.id
  | learnedFact => LearnedFactRow.id
  | codeChunk => CodeChunkRow.id
  | detectionRule | attackPath | detectionCoverage => ScanPartRow.id

/-- The column `clientId`, where there is one. -/
def Model.clientId : ∀ m : Model, m.Row → Option ClientId
  | client => some
  | user => fun r => some r.clientId
  | scan => fun r => some r.clientId
  | scanState => fun r => some r.clientId
  | appMap => fun r => some r.clientId
  | route | taintSource | taintSink => fun _ => none
  | candidateFinding => fun r => some r.clientId
  | probableFinding => fun r => some r.clientId
  | confirmedFinding => fun r => some r.clientId
  | fix => fun r => some r.clientId
  | pullRequest => fun r => some r.clientId
  | report => fun r => some r.clientId
  | llmCredential => fun r => some r.clientId
  | customRule => fun r => some r.clientId
  | redTeamScenario => fun r => some r.clientId
  | scanSchedule => fun r => some r.clientId
  | postureSnapshot => fun r => some r.clientId
  | learnedFact => fun r => some r.clientId
  | codeChunk => fun r => some r.clientId
  | detectionRule | attackPath | detectionCoverage => fun r => some (ScanPartRow.clientId r)

/-- Two rows agree on a unique index other than the primary key. -/
def Model.agree : ∀ m : Model, m.Row → m.Row → Bool
  | appMap => fun r s => r.clientId = s.clientId && r.repo = s.repo && r.commitSha = s.commitSha
  | report => fun r s => r.scanId = s.scanId
  | llmCredential => fun r s => r.clientId = s.clientId
  | customRule => fun r s => r.clientId = s.clientId && r.name = s.name && r.version = s.version
  | redTeamScenario => fun r s => r.clientId = s.clientId && r.name = s.name && r.version = s.version
  | _ => fun _ _ => false

/-- The rows a foreign key leads to, by model and id. -/
def Model.foreignKeys : ∀ m : Model, m.Row → List (Model × EntityId)
  | client => fun _ => []
  | user => fun r => [(client, r.clientId)]
  | scan => fun r =>
    [(client, r.clientId), (user, r.operator)] ++ (r.appMapId.toList.map fun id => (appMap, id)) ++
      r.approver.toList.map fun id => (user, id)
  | scanState => fun r => [(scan, r.scanId)]
  | appMap => fun r => [(client, r.clientId)]
  | route | taintSource | taintSink => fun r => [(appMap, AppMapPartRow.appMapId r)]
  | candidateFinding => fun r => [(scan, r.scanId)]
  | probableFinding => fun r => [(scan, r.scanId)]
  | confirmedFinding => fun r => [(scan, r.scanId)]
  | fix => fun r =>
    [(scan, r.scanId), (confirmedFinding, r.confirmedFindingId)] ++
      r.pullRequestId.toList.map fun id => (pullRequest, id)
  | pullRequest => fun r => [(scan, r.scanId)]
  | report => fun r => [(scan, r.scanId)]
  | llmCredential => fun r => [(client, r.clientId)]
  | customRule => fun r => [(client, r.clientId)]
  | redTeamScenario => fun r =>
    (client, r.clientId) :: r.liveAuthorizedById.toList.map fun id => (user, id)
  | scanSchedule => fun r => [(client, r.clientId)]
  | postureSnapshot => fun r => [(client, r.clientId)]
  | learnedFact => fun r => [(client, r.clientId)]
  | codeChunk => fun r => [(appMap, r.appMapId)]
  | detectionRule | attackPath | detectionCoverage => fun r =>
    [(client, ScanPartRow.clientId r), (scan, ScanPartRow.scanId r)]

instance : Schema Model where
  Row := Model.Row
  conflict m r s := m.id r = m.id s || m.agree r s
  refers rows m r := (m.foreignKeys r).all fun key => (rows key.1).any fun s => key.1.id s = key.2

/-- The database. -/
abbrev Store : Type := Db Model

/-! ## Deletions -/

/-- The foreign keys with `onDelete: Cascade`. -/
def Model.cascading : ∀ m : Model, m.Row → List (Model × EntityId)
  | scanState => fun r => [(scan, r.scanId)]
  | route | taintSource | taintSink => fun r => [(appMap, AppMapPartRow.appMapId r)]
  | codeChunk => fun r => [(appMap, r.appMapId)]
  | candidateFinding => fun r => [(scan, r.scanId)]
  | probableFinding => fun r => [(scan, r.scanId)]
  | confirmedFinding => fun r => [(scan, r.scanId)]
  | fix => fun r => [(scan, r.scanId), (confirmedFinding, r.confirmedFindingId)]
  | pullRequest => fun r => [(scan, r.scanId)]
  | report => fun r => [(scan, r.scanId)]
  | detectionRule | attackPath | detectionCoverage => fun r => [(scan, ScanPartRow.scanId r)]
  | _ => fun _ => []

/-- The foreign keys that may be null, `onDelete: SetNull`, without those that are gone. -/
def Model.setNull (gone : Model × EntityId → Bool) : ∀ m : Model, m.Row → m.Row
  | scan => fun r =>
    { r with
      appMapId := r.appMapId.filter fun id => !gone (appMap, id)
      approver := r.approver.filter fun id => !gone (user, id) }
  | fix => fun r => { r with pullRequestId := r.pullRequestId.filter fun id => !gone (pullRequest, id) }
  | redTeamScenario => fun r =>
    { r with liveAuthorizedById := r.liveAuthorizedById.filter fun id => !gone (user, id) }
  | _ => fun r => r

/-- How many cascades lead to a row of the model at most. -/
def Model.rank : Model → ℕ
  | scanState | route | taintSource | taintSink | codeChunk | candidateFinding | probableFinding | confirmedFinding
  | pullRequest | report | detectionRule | attackPath | detectionCoverage => 1
  | fix => 2
  | _ => 0

instance : Cascading Model EntityId where
  key := Model.id
  owners := Model.cascading
  release := Model.setNull
  rank := Model.rank
  rank_lt := by
    intro m r k hk
    cases m
    case fix =>
      obtain rfl | hk := List.mem_cons.mp hk
      · exact Nat.zero_lt_two
      · rw [List.mem_singleton.mp hk]
        exact Nat.one_lt_two
    case client | user | scan | appMap | llmCredential | customRule | redTeamScenario | scanSchedule |
      postureSnapshot | learnedFact => cases hk
    all_goals
      rw [List.mem_singleton.mp hk]
      exact Nat.zero_lt_one
  conflict_of_key h := Bool.or_eq_true_iff.mpr (.inl (decide_eq_true h))
  conflict_release := by
    intro gone m r s
    cases m <;> rfl
  key_release := by
    intro gone m r
    cases m <;> rfl
  owners_release := by
    intro gone m r
    cases m <;> rfl

example : Model.rank .fix = 2 := by decide +kernel

/-! ## Owners -/

/-- The client an App Map belongs to. -/
def clientOfAppMap (db : Store) (id : EntityId) : Option ClientId :=
  ((db .appMap).rows.find? fun r => Model.appMap.id r = id).bind Model.appMap.clientId

/-- The client of a row: its column, or that of its App Map. -/
def clientOf (db : Store) : ∀ m : Model, m.Row → Option ClientId
  | .route, r => clientOfAppMap db (AppMapPartRow.appMapId r)
  | .taintSource, r => clientOfAppMap db (AppMapPartRow.appMapId r)
  | .taintSink, r => clientOfAppMap db (AppMapPartRow.appMapId r)
  | m, r => m.clientId r

instance : Relational.Tenancy Model ClientId := ⟨clientOf⟩

/-- Two maps with one id are one map. -/
theorem clientOfAppMap_of_mem {db : Store} {r : AppMapRow} (h : r ∈ (db .appMap).rows) :
    clientOfAppMap db r.id = some r.clientId := by
  obtain ⟨s, hs⟩ : ∃ s, (db .appMap).rows.find? (fun s => Model.appMap.id s = r.id) = some s := by
    rw [← Option.isSome_iff_exists, List.find?_isSome]
    exact ⟨r, h, decide_eq_true rfl⟩
  have hfound : decide (Model.appMap.id s = r.id) = true :=
    List.find?_some (p := fun s => decide (Model.appMap.id s = r.id)) hs
  have hid : Model.appMap.id s = Model.appMap.id r := of_decide_eq_true hfound
  have hsame : s = r := by
    refine Rows.eq_of_conflict (List.mem_of_find?_eq_some hs) h ?_ ?_
    · exact Bool.or_eq_true_iff.mpr (.inl (decide_eq_true hid))
    · exact Bool.or_eq_true_iff.mpr (.inl (decide_eq_true hid.symm))
  rw [clientOfAppMap, hs, hsame]
  rfl

/-- A row of a model with a column for it belongs to the client there. -/
theorem clientOf_eq {db : Store} {m : Model} {r : m.Row} {c : ClientId} (h : m.clientId r = some c) :
    clientOf db m r = some c := by
  cases m
  case route | taintSource | taintSink => cases h
  all_goals exact h

/-- Only App Maps decide about other rows. -/
theorem detached {m : Model} (h : m ≠ .appMap) : Detached ClientId m := by
  intro db rows
  have hmaps : clientOfAppMap (db.set m rows) = clientOfAppMap db := by
    funext id
    rw [clientOfAppMap, Db.set_of_ne h.symm]
    rfl
  funext m' r
  show clientOf (db.set m rows) m' r = clientOf db m' r
  cases m'
  case route | taintSource | taintSink => exact congrFun hmaps _
  all_goals rfl

end MontrSecure.Tenancy
