import Mathlib.Data.List.ReduceOption
import MontrSecure.StateStore.Phase4

/-!
# Isolation of clients

Every operation of the per-client repositories, what it returns, and that it touches no row of another
client. There is one exception: a report is found by its scan alone when it is saved, whoever it belongs
to (`isolates_iff`).
-/

namespace MontrSecure.Tenancy

open Relational

/-! ## Operations -/

/-- The methods of a repository of findings. -/
inductive FindingCall (τ ρ : Type) where
  | create (entity : τ)
  | bulkCreate (findings : List τ)
  | get (id : EntityId)
  | list (filter : Where ρ)
  | listByScan (scanId : ScanId)

/-- The operations. -/
inductive Operation where
  | scansCreate (scan : Scan)
  | scansGet (id : ScanId)
  | scansList (filter : Where Scan)
  | scansUpdate (scan : Scan)
  | scansListByStatus (status : ScanStatus)
  | appMapsCreate (appMap : AppMap)
  | appMapsGet (id : EntityId)
  | appMapsList (filter : Where AppMapRow)
  | appMapsLatestForCommit (repo commitSha : String)
  | appMapsLatestForRepo (repo : String)
  | appMapsMarkStale (appMapId : EntityId)
  | appMapsInvalidateStaleForCommit (repo currentCommitSha : String)
  | candidates (call : FindingCall CandidateFinding CandidateRow)
  | probable (call : FindingCall ProbableFinding ProbableRow)
  | confirmed (call : FindingCall ConfirmedFinding ConfirmedRow)
  | unconfirmed (call : FindingCall UnconfirmedFinding ProbableRow)
  | fixesCreate (fix : Fix)
  | fixesGet (id : EntityId)
  | fixesList (filter : Where Fix)
  | fixesListByScan (scanId : ScanId)
  | fixesUpdate (fix : Fix)
  | pullRequestsCreate (pr : PullRequest)
  | pullRequestsGet (id : EntityId)
  | pullRequestsList (filter : Where PullRequest)
  | pullRequestsListByScan (scanId : ScanId)
  | pullRequestsUpdate (pr : PullRequest)
  | reportsUpsert (report : Report)
  | reportsGetByScan (scanId : ScanId)
  | resumeSave (token : ResumeToken)
  | resumeGet (scanId : ScanId)
  | resumeMarkLayerCompleted (scanId : ScanId) (layer : LayerId) (checkpointRef : Option String)
  | resumeListStates (scanId : ScanId)
  | credentialsUpsert (cred : LlmCredentialInput)
  | credentialsGet
  | credentialsGetMetadata
  | credentialsDelete
  | customRulesCreate (rule : CustomRule)
  | customRulesGet (id : EntityId)
  | customRulesList (filter : Where CustomRule)
  | customRulesUpdate (rule : CustomRule)
  | customRulesDelete (id : EntityId)
  | redTeamScenariosCreate (scenario : RedTeamScenario)
  | redTeamScenariosGet (id : EntityId)
  | redTeamScenariosList (filter : Where RedTeamScenarioRow)
  | redTeamScenariosUpdate (scenario : RedTeamScenario)
  | redTeamScenariosDelete (id : EntityId)
  | scanSchedulesCreate (schedule : ScanSchedule)
  | scanSchedulesGet (id : EntityId)
  | scanSchedulesList (filter : Where ScanSchedule)
  | scanSchedulesListEnabled
  | scanSchedulesUpdate (schedule : ScanSchedule)
  | scanSchedulesDelete (id : EntityId)
  | postureRecord (snapshot : PostureSnapshot)
  | postureList
  | postureListByRepo (repo : String)
  | postureLatestForRepo (repo : String)
  | learnedFactsRecord (input : LearnedFactInput)
  | learnedFactsListByRepo (repo : String) (limit : ℤ)

/-- What an operation returns: something made from a row, or a finding handed back with its client. -/
inductive Returned where
  | row (m : Model) (r : m.Row)
  | finding (clientId : ClientId)

/-- What is returned belongs to the client. -/
def Returned.belongs (c : ClientId) (db : Store) : Returned → Prop
  | row m r => clientOf db m r = some c
  | finding clientId => clientId = c

/-- The rows of an assembled map. -/
def AppMapRows.returned (map : AppMapRows) : List Returned :=
  .row .appMap map.row :: (map.routes.map (.row .route) ++ map.taintSources.map (.row .taintSource) ++
    map.taintSinks.map (.row .taintSink))

/-- Settings and services of the store. -/
structure Deps where
  env : Env
  cipher : Option FieldCipher
  text : StepsText

section Run

variable {m : Model}

/-- A row, returned. -/
def one (m : Model) (x : Tx m.Row) : Tx (List Returned) := (fun r => [.row m r]) <$> x

/-- A row that may be missing, returned. -/
def oneOrNone (m : Model) (x : Tx (Option m.Row)) : Tx (List Returned) :=
  (fun r => r.toList.map (.row m)) <$> x

/-- Rows, returned. -/
def many (m : Model) (x : Tx (List m.Row)) : Tx (List Returned) := (fun rs => rs.map (.row m)) <$> x

/-- Nothing is returned. -/
def nothing {α : Type} (x : Tx α) : Tx (List Returned) := (fun _ => []) <$> x

/-- A method of a repository of findings. -/
def FindingCall.run {τ : Type} (repo : FindingRepo τ m) (clientOfFinding : τ → ClientId) (c : ClientId) :
    FindingCall τ m.Row → Tx (List Returned)
  | create entity => one m (repo.create c entity)
  | bulkCreate findings =>
    (fun fs => fs.map fun f => .finding (clientOfFinding f)) <$> repo.bulkCreate c findings
  | get id => oneOrNone m (repo.get c id)
  | list filter => many m (repo.list c filter)
  | listByScan scanId => many m (repo.listByScan c scanId)

/-- Run an operation for a client. -/
def Operation.run (deps : Deps) (c : ClientId) : Operation → Tx (List Returned)
  | scansCreate scan => one .scan (ScanRepositoryImpl.create c scan)
  | scansGet id => oneOrNone .scan (ScanRepositoryImpl.get c id)
  | scansList filter => many .scan (ScanRepositoryImpl.list c filter)
  | scansUpdate scan => one .scan (ScanRepositoryImpl.update c scan)
  | scansListByStatus status => many .scan (ScanRepositoryImpl.listByStatus c status)
  | appMapsCreate appMap => AppMapRows.returned <$> AppMapRepositoryImpl.create deps.env c appMap
  | appMapsGet id =>
    (fun map => map.toList.flatMap AppMapRows.returned) <$> AppMapRepositoryImpl.get c id
  | appMapsList filter =>
    (fun maps => maps.flatMap AppMapRows.returned) <$> AppMapRepositoryImpl.list c filter
  | appMapsLatestForCommit repo commitSha => (fun map => map.toList.flatMap AppMapRows.returned) <$>
      AppMapRepositoryImpl.latestForCommit c repo commitSha
  | appMapsLatestForRepo repo =>
    (fun map => map.toList.flatMap AppMapRows.returned) <$> AppMapRepositoryImpl.latestForRepo c repo
  | appMapsMarkStale appMapId => nothing (AppMapRepositoryImpl.markStale c appMapId)
  | appMapsInvalidateStaleForCommit repo currentCommitSha =>
    nothing (AppMapRepositoryImpl.invalidateStaleForCommit c repo currentCommitSha)
  | candidates call => call.run makeCandidateRepo CandidateFinding.clientId c
  | probable call => call.run makeProbableRepo ProbableFinding.clientId c
  | confirmed call => call.run makeConfirmedRepo ConfirmedFinding.clientId c
  | unconfirmed call => call.run makeUnconfirmedRepo (fun f => f.clientId) c
  | fixesCreate fix => one .fix (FixRepositoryImpl.create deps.env c fix)
  | fixesGet id => oneOrNone .fix (FixRepositoryImpl.get c id)
  | fixesList filter => many .fix (FixRepositoryImpl.list c filter)
  | fixesListByScan scanId => many .fix (FixRepositoryImpl.listByScan c scanId)
  | fixesUpdate fix => one .fix (FixRepositoryImpl.update deps.env c fix)
  | pullRequestsCreate pr => one .pullRequest (PullRequestRepositoryImpl.create c pr)
  | pullRequestsGet id => oneOrNone .pullRequest (PullRequestRepositoryImpl.get c id)
  | pullRequestsList filter => many .pullRequest (PullRequestRepositoryImpl.list c filter)
  | pullRequestsListByScan scanId => many .pullRequest (PullRequestRepositoryImpl.listByScan c scanId)
  | pullRequestsUpdate pr => one .pullRequest (PullRequestRepositoryImpl.update c pr)
  | reportsUpsert report => one .report (ReportRepositoryImpl.upsert c report)
  | reportsGetByScan scanId => oneOrNone .report (ReportRepositoryImpl.getByScan c scanId)
  | resumeSave token => one .scanState (ResumeRepositoryImpl.save deps.env c token)
  | resumeGet scanId => oneOrNone .scanState (ResumeRepositoryImpl.get c scanId)
  | resumeMarkLayerCompleted scanId layer checkpointRef =>
    one .scanState (ResumeRepositoryImpl.markLayerCompleted deps.env c scanId layer checkpointRef)
  | resumeListStates scanId => many .scanState (ResumeRepositoryImpl.listStates c scanId)
  | credentialsUpsert cred =>
    one .llmCredential (CredentialRepositoryImpl.upsert deps.env c deps.cipher cred)
  | credentialsGet => oneOrNone .llmCredential (CredentialRepositoryImpl.get c deps.cipher)
  | credentialsGetMetadata => oneOrNone .llmCredential (CredentialRepositoryImpl.getMetadata c)
  | credentialsDelete => nothing (CredentialRepositoryImpl.delete c)
  | customRulesCreate rule => one .customRule (CustomRuleRepositoryImpl.create c rule)
  | customRulesGet id => oneOrNone .customRule (CustomRuleRepositoryImpl.get c id)
  | customRulesList filter => many .customRule (CustomRuleRepositoryImpl.list c filter)
  | customRulesUpdate rule => one .customRule (CustomRuleRepositoryImpl.update c rule)
  | customRulesDelete id => nothing (CustomRuleRepositoryImpl.delete c id)
  | redTeamScenariosCreate scenario => one .redTeamScenario
      (RedTeamScenarioRepositoryImpl.create c deps.text deps.cipher scenario)
  | redTeamScenariosGet id => oneOrNone .redTeamScenario
      (RedTeamScenarioRepositoryImpl.get c deps.text deps.cipher id)
  | redTeamScenariosList filter => many .redTeamScenario
      (RedTeamScenarioRepositoryImpl.list c deps.text deps.cipher filter)
  | redTeamScenariosUpdate scenario => one .redTeamScenario
      (RedTeamScenarioRepositoryImpl.update c deps.text deps.cipher scenario)
  | redTeamScenariosDelete id => nothing (RedTeamScenarioRepositoryImpl.delete c id)
  | scanSchedulesCreate schedule => one .scanSchedule (ScanScheduleRepositoryImpl.create c schedule)
  | scanSchedulesGet id => oneOrNone .scanSchedule (ScanScheduleRepositoryImpl.get c id)
  | scanSchedulesList filter => many .scanSchedule (ScanScheduleRepositoryImpl.list c filter)
  | scanSchedulesListEnabled => many .scanSchedule (ScanScheduleRepositoryImpl.listEnabled c)
  | scanSchedulesUpdate schedule => one .scanSchedule (ScanScheduleRepositoryImpl.update c schedule)
  | scanSchedulesDelete id => nothing (ScanScheduleRepositoryImpl.delete c id)
  | postureRecord snapshot => one .postureSnapshot (PostureRepositoryImpl.record c snapshot)
  | postureList => many .postureSnapshot (PostureRepositoryImpl.list c)
  | postureListByRepo repo => many .postureSnapshot (PostureRepositoryImpl.listByRepo c repo)
  | postureLatestForRepo repo => oneOrNone .postureSnapshot (PostureRepositoryImpl.latestForRepo c repo)
  | learnedFactsRecord input => one .learnedFact (LearnedFactRepositoryImpl.record deps.env c input)
  | learnedFactsListByRepo repo limit =>
    many .learnedFact (LearnedFactRepositoryImpl.listByRepo c repo limit)

end Run

/-- Whatever an operation returns belongs to the client, and rows of other clients are left unchanged. -/
def Operation.isolates (deps : Deps) (c : ClientId) (db : Store) (op : Operation) : Prop :=
  ∀ answer db', op.run deps c db = .ok (answer, db') →
    (∀ r ∈ answer, r.belongs c db') ∧ Isolated c db db'

/-! ## Rows of the client -/

variable {deps : Deps} {c : ClientId} {m : Model} {P : Store → Prop}

/-- The judgement: the transaction is isolated and its rows belong to the client. -/
def Scoped {α : Type} (c : ClientId) (x : Tx α) (own : Store → α → Prop) : Prop :=
  Runs (Isolated c) (fun _ => True) x fun a db => own db a

/-- The row has the client in its column. -/
def Own (c : ClientId) (m : Model) (r : m.Row) : Prop := m.clientId r = some c

theorem not_foreign {db : Store} {r : m.Row} (h : Own c m r) : foreign c db m r = false :=
  foreign_eq_false_of_owner (clientOf_eq h)

theorem own_of_holds {w : Where m.Row} {r : m.Row} (h : w.holds r = true)
    (hmem : clientIs m c ∈ w) : Own c m r := by
  have hclient : decide (m.clientId r = some c) = true := holds_of_mem h hmem
  rw [Own]
  exact of_decide_eq_true hclient

/-! ## The calls -/

theorem scoped_findMany {w : Where m.Row} {le : m.Row → m.Row → Bool} (hw : ∀ r, w.holds r = true → Own c m r) :
    Scoped c (findMany m w le) fun _ rs => ∀ r ∈ rs, Own c m r :=
  Runs.of_reads (Runs.findMany.post fun _ _ h r hr => hw r (h.2 r hr).2)

theorem scoped_findFirst {w : Where m.Row} {le : m.Row → m.Row → Bool} (hw : ∀ r, w.holds r = true → Own c m r) :
    Scoped c (findFirst m w le) fun _ r? => ∀ r ∈ r?, Own c m r :=
  Runs.of_reads (Runs.findFirst.post fun _ _ h r hr => hw r (h.2 r hr).2)

theorem scoped_getRow (id : EntityId) : Scoped c (getRow m c id) fun _ r? => ∀ r ∈ r?, Own c m r :=
  scoped_findFirst fun _ h => own_of_holds h (by simp)

theorem scoped_listRows {filter : Where m.Row} {le : m.Row → m.Row → Bool} :
    Scoped c (listRows m c filter le) fun _ rs => ∀ r ∈ rs, Own c m r :=
  scoped_findMany fun _ h => own_of_holds (holds_spread_right h) List.mem_cons_self

theorem scoped_create {r : m.Row} (hm : m ≠ .appMap) (hr : Own c m r) :
    Scoped c (Relational.create m r) fun _ a => Own c m a :=
  (Runs.create (detached hm) (fun _ _ h => h) fun _ _ => not_foreign hr).post fun _ _ h => h.2 ▸ hr

theorem scoped_updateMany {w : Where m.Row} {data : m.Row → m.Row} (hm : m ≠ .appMap)
    (hw : ∀ r, w.holds r = true → Own c m r) (hdata : ∀ r, Own c m r → Own c m (data r)) :
    Scoped c (updateMany m w data) fun _ _ => True :=
  Runs.updateMany (detached hm) (fun _ _ h => h) fun _ _ r hr =>
    ⟨not_foreign (hw r hr), not_foreign (hdata r (hw r hr))⟩

theorem scoped_deleteMany {w : Where m.Row} (hm : m ≠ .appMap) (hw : ∀ r, w.holds r = true → Own c m r) :
    Scoped c (deleteMany m w) fun _ _ => True :=
  Runs.deleteMany (detached hm) (fun _ _ h => h) fun _ _ r hr => not_foreign (hw r hr)

theorem scoped_throw {α : Type} {e : Err} {own : Store → α → Prop} : Scoped c (throw e) own := Runs.throw

theorem scoped_pure {α : Type} {a : α} {own : Store → α → Prop} (h : ∀ db, own db a) :
    Scoped c (pure a) own :=
  Runs.pure fun db _ => h db

/-- What the first transaction gives has its property in every database. -/
theorem Scoped.bind {α β : Type} {x : Tx α} {f : α → Tx β} {p : α → Prop} {own : Store → β → Prop}
    (hx : Scoped c x fun _ a => p a) (hf : ∀ a, p a → Scoped c (f a) own) : Scoped c (x >>= f) own := by
  refine Runs.bind hx fun a db ha b db' hrun => ?_
  exact hf a ha db trivial b db' hrun

theorem Scoped.weaken {α : Type} {x : Tx α} {own own' : Store → α → Prop} (hx : Scoped c x own)
    (h : ∀ db a, own db a → own' db a) : Scoped c x own' :=
  Runs.post hx fun a db ha => h db a ha

theorem scoped_updateRow {id : EntityId} {data : m.Row → m.Row} {name : String} (hm : m ≠ .appMap)
    (hdata : ∀ r, Own c m r → Own c m (data r)) :
    Scoped c (updateRow m c id data name) fun _ r => Own c m r := by
  refine (scoped_updateMany hm (fun r h => own_of_holds h (by simp)) hdata).bind fun count _ => ?_
  refine Runs.ite (fun _ => scoped_throw) fun _ => ?_
  refine (scoped_getRow id).bind fun r? hr => ?_
  cases r? with
  | none => exact scoped_throw
  | some r => exact scoped_pure fun _ => hr r rfl

theorem scoped_deleteRow {id : EntityId} {name : String} (hm : m ≠ .appMap) :
    Scoped c (deleteRow m c id name) fun _ _ => True := by
  refine (scoped_deleteMany hm fun r h => own_of_holds h (by simp)).bind fun count _ => ?_
  exact Runs.ite (fun _ => scoped_throw) fun _ => scoped_pure fun _ => trivial

/-! ## App Maps -/

/-- There is a map of the client with the id. -/
def HasMap (c : ClientId) (id : EntityId) (db : Store) : Prop :=
  ∃ row ∈ (db .appMap).rows, row.id = id ∧ row.clientId = c

theorem HasMap.client {id : EntityId} {db : Store} (h : HasMap c id db) :
    clientOfAppMap db id = some c := by
  obtain ⟨row, hrow, rfl, rfl⟩ := h
  exact clientOfAppMap_of_mem hrow

theorem HasMap.set {id : EntityId} (hm : m ≠ .appMap) (db : Store) (rows : Rows m) (h : HasMap c id db) :
    HasMap c id (db.set m rows) := by
  rw [HasMap, Db.set_of_ne hm.symm]
  exact h

/-- Adding a map of the client changes the owner of no row of another. -/
theorem foreign_of_addMap {db : Store} {rows : Rows Model.appMap} {row : AppMapRow}
    (hrows : rows.rows = (db .appMap).rows ++ [row]) (hrow : row.clientId = c) (m : Model) (r : m.Row) :
    foreign c (db.set .appMap rows) m r = foreign c db m r := by
  have hmaps : ∀ id, (clientOfAppMap (db.set .appMap rows) id).any (fun d => d ≠ c) =
      (clientOfAppMap db id).any fun d => d ≠ c := by
    intro id
    rw [clientOfAppMap, clientOfAppMap, Db.set_self, hrows, List.find?_append]
    cases (db .appMap).rows.find? fun r => Model.appMap.id r = id with
    | some found => rfl
    | none =>
      rw [Option.none_or, List.find?_singleton]
      split
      · show decide (row.clientId ≠ c) = false
        exact decide_eq_false (not_not_intro hrow)
      · rfl
  cases m
  case route | taintSource | taintSink => exact hmaps _
  all_goals rfl

/-- Changing maps without their ids and clients changes no owner. -/
theorem foreign_of_mapMaps {db : Store} {rows : Rows Model.appMap} {w : AppMapRow → Bool}
    {data : AppMapRow → AppMapRow} (hrows : rows.rows = (db .appMap).rows.map fun r => if w r then data r else r)
    (hdata : ∀ r, (data r).id = r.id ∧ (data r).clientId = r.clientId) (m : Model) (r : m.Row) :
    foreign c (db.set .appMap rows) m r = foreign c db m r := by
  have hmaps : ∀ id, clientOfAppMap (db.set .appMap rows) id = clientOfAppMap db id := by
    intro id
    have hid : ((fun r => decide (Model.appMap.id r = id)) ∘ fun r => if w r then data r else r) =
        fun r => decide (Model.appMap.id r = id) := by
      funext r
      show decide ((if w r then data r else r).id = id) = decide (r.id = id)
      split
      · rw [(hdata r).1]
      · rfl
    rw [clientOfAppMap, clientOfAppMap, Db.set_self, hrows, List.find?_map, hid]
    cases (db .appMap).rows.find? fun r => Model.appMap.id r = id with
    | none => rfl
    | some found =>
      show some (if w found then data found else found).clientId = some found.clientId
      split
      · rw [(hdata found).2]
      · rfl
  cases m
  case route | taintSource | taintSink => exact congrArg (Option.any fun d => d ≠ c) (hmaps _)
  all_goals rfl

theorem runs_createMap {row : AppMapRow} (hrow : row.clientId = c) :
    Runs (Isolated c) (fun _ => True) (Relational.create (m := Model.appMap) row : Tx AppMapRow)
      fun _ db => HasMap c row.id db := by
  refine (Runs.create_of fun db _ rows hrows => ⟨?_, ?_⟩).post fun _ _ h => h.1
  · refine isolated_set ?_ fun m _ r _ => foreign_of_addMap hrows hrow m r
    rw [hrows]
    refine (filter_append_of_not fun r hr => ?_).trans ?_
    · rw [List.mem_singleton.mp hr]
      exact not_foreign (congrArg some hrow)
    · rfl
  · rw [HasMap, Db.set_self, hrows]
    exact ⟨row, List.mem_append_right _ List.mem_cons_self, rfl, hrow⟩

theorem scoped_markMaps {w : Where AppMapRow} (hw : ∀ r, w.holds r = true → Own c .appMap r) :
    Scoped c (updateMany (m := Model.appMap) w fun row => { row with stale := true }) fun _ _ => True := by
  refine Runs.updateMany_of fun db _ rows hrows => ⟨?_, trivial⟩
  refine isolated_set ?_ fun m _ r _ => foreign_of_mapMaps hrows (fun _ => ⟨rfl, rfl⟩) m r
  rw [hrows]
  refine (filter_map_of_not fun r _ hr => ⟨?_, ?_⟩).trans ?_
  · exact not_foreign (hw r hr)
  · exact not_foreign (hw r hr)
  · rfl

theorem appMapId_of_mem {α : Type} {env : Env} {id : EntityId} {idOf : α → Option EntityId} {n : ℕ}
    {parts : List α} {r : AppMapPartRow α} (h : r ∈ partsToCreate env id idOf n parts) : r.appMapId = id := by
  obtain ⟨i, hi, rfl⟩ := List.mem_mapIdx.mp h
  rfl

/-- A kind of parts is created for a map of the client. -/
theorem runs_createPart {id : EntityId} {rows : List m.Row} (hm : m ≠ .appMap)
    (hrows : ∀ db, HasMap c id db → ∀ r ∈ rows, clientOf db m r = some c) :
    Runs (Isolated c) (HasMap c id) (AppMapRepositoryImpl.createPart m rows) fun _ db => HasMap c id db := by
  refine Runs.ite (fun _ => ?_) fun _ => Runs.pure fun _ h => h
  exact Runs.createMany (detached hm) (HasMap.set hm) fun db hmap r hr =>
    foreign_eq_false_of_owner (hrows db hmap r hr)

/-- The parts of a map of the client are rows of the client. -/
theorem runs_createParts {appMap : AppMap} :
    Runs (Isolated c) (HasMap c appMap.id) (AppMapRepositoryImpl.createParts deps.env appMap)
      fun _ db => HasMap c appMap.id db := by
  have hclient : ∀ {α : Type} {idOf : α → Option EntityId} {n : ℕ} {parts : List α} (db : Store),
      HasMap c appMap.id db → ∀ r ∈ partsToCreate deps.env appMap.id idOf n parts,
        clientOfAppMap db r.appMapId = some c := by
    intro α idOf n parts db hmap r hr
    rw [appMapId_of_mem hr, hmap.client]
  refine Runs.bind (runs_createPart (by decide) hclient) fun _ => ?_
  refine Runs.bind (runs_createPart (by decide) hclient) fun _ => ?_
  refine Runs.bind (runs_createPart (by decide) hclient) fun _ => ?_
  exact Runs.pure fun _ h => h

/-- What `assemble` reads belongs to the client of the map. -/
theorem runs_assemble {id : EntityId} :
    Runs Eq P (AppMapRepositoryImpl.assemble c id) fun map? db =>
      ∀ map ∈ map?, ∀ r ∈ map.returned, r.belongs c db := by
  refine Runs.findFirst.bind fun row? => ?_
  cases row? with
  | none => exact Runs.pure fun _ _ _ h => nomatch h
  | some row =>
    refine Runs.findMany.bind fun routes => Runs.findMany.bind fun sources =>
      Runs.findMany.bind fun sinks => Runs.pure fun db h => ?_
    obtain ⟨⟨⟨⟨-, hrow⟩, hroutes⟩, hsources⟩, hsinks⟩ := h
    obtain ⟨hmem, hholds⟩ := hrow row rfl
    have hid : row.id = id := by
      have hcondition : decide (Model.appMap.id row = id) = true := holds_of_mem hholds List.mem_cons_self
      exact of_decide_eq_true hcondition
    have hown : Own c .appMap row := own_of_holds hholds (by simp)
    have hclient : clientOfAppMap db id = some c := by
      rw [← hid, clientOfAppMap_of_mem hmem]
      exact hown
    intro map hmap r hr
    obtain rfl := Option.some.inj hmap
    rw [AppMapRows.returned, List.mem_cons, List.mem_append, List.mem_append, List.mem_map, List.mem_map,
      List.mem_map] at hr
    have happMapId : ∀ {α : Type} {part : AppMapPartRow α},
        Where.holds [fieldIs "appMapId" AppMapPartRow.appMapId id] part = true →
          clientOfAppMap db part.appMapId = some c := by
      intro α part hpart
      have hcondition : decide (part.appMapId = id) = true := holds_of_mem hpart List.mem_cons_self
      rw [of_decide_eq_true hcondition, hclient]
    obtain rfl | (⟨part, hpart, rfl⟩ | ⟨part, hpart, rfl⟩) | ⟨part, hpart, rfl⟩ := hr
    · exact hown
    · exact happMapId (hroutes part hpart).2
    · exact happMapId (hsources part hpart).2
    · exact happMapId (hsinks part hpart).2

/-- What a transaction on maps returns belongs to the client. -/
def OwnMaps (c : ClientId) (db : Store) (maps : List AppMapRows) : Prop :=
  ∀ map ∈ maps, ∀ r ∈ map.returned, r.belongs c db

theorem runs_assemble_toList {id : EntityId} :
    Runs Eq P (AppMapRepositoryImpl.assemble c id) fun map? db => OwnMaps c db map?.toList :=
  runs_assemble.post fun _ _ h map hmap => h map (Option.mem_toList.mp hmap)

theorem scoped_latest {w : Where AppMapRow} :
    Scoped c (AppMapRepositoryImpl.latest c w) fun db map? => OwnMaps c db map?.toList := by
  refine Runs.of_reads (Runs.findFirst.bind fun row? => ?_)
  cases row? with
  | none => exact Runs.pure fun _ _ _ h => nomatch h
  | some row => exact runs_assemble_toList

theorem scoped_listMaps {filter : Where AppMapRow} :
    Scoped c (AppMapRepositoryImpl.list c filter) fun db maps => OwnMaps c db maps := by
  refine Runs.of_reads (Runs.findMany.bind fun rows => ?_)
  refine Runs.bind (Runs.mapM (fun _ => runs_assemble) rows) fun maps => Runs.pure fun db h map hmap => ?_
  have hmem : some map ∈ maps := List.reduceOption_mem_iff.mp hmap
  exact h (some map) hmem map rfl

theorem scoped_createMap {appMap : AppMap} :
    Scoped c (AppMapRepositoryImpl.create deps.env c appMap) fun db map => OwnMaps c db [map] := by
  refine Runs.bind (runs_createMap rfl) fun _ => Runs.bind runs_createParts fun _ => ?_
  refine Runs.bind (Runs.of_reads runs_assemble_toList) fun map? => ?_
  cases map? with
  | none => exact Runs.throw
  | some map => exact Runs.pure fun db h => h

theorem scoped_markStale {id : EntityId} :
    Scoped c (AppMapRepositoryImpl.markStale c id) fun _ _ => True := by
  refine (scoped_markMaps fun r h => own_of_holds h (by simp)).bind fun count _ => ?_
  exact Runs.ite (fun _ => scoped_throw) fun _ => scoped_pure fun _ => trivial

/-! ## What is returned -/

/-- Everything returned belongs to the client. -/
def OwnAll (c : ClientId) (db : Store) (answer : List Returned) : Prop := ∀ r ∈ answer, r.belongs c db

theorem scoped_one {x : Tx m.Row} (h : Scoped c x fun _ r => Own c m r) : Scoped c (one m x) (OwnAll c) :=
  Runs.map (h.weaken fun db r hr returned hmem => by
    obtain rfl := List.mem_singleton.mp hmem
    exact clientOf_eq hr)

theorem scoped_oneOrNone {x : Tx (Option m.Row)} (h : Scoped c x fun _ r? => ∀ r ∈ r?, Own c m r) :
    Scoped c (oneOrNone m x) (OwnAll c) :=
  Runs.map (h.weaken fun db r? hr returned hmem => by
    obtain ⟨r, hr', rfl⟩ := List.mem_map.mp hmem
    exact clientOf_eq (hr r (Option.mem_toList.mp hr')))

theorem scoped_many {x : Tx (List m.Row)} (h : Scoped c x fun _ rs => ∀ r ∈ rs, Own c m r) :
    Scoped c (many m x) (OwnAll c) :=
  Runs.map (h.weaken fun db rs hrs returned hmem => by
    obtain ⟨r, hr, rfl⟩ := List.mem_map.mp hmem
    exact clientOf_eq (hrs r hr))

theorem scoped_nothing {α : Type} {x : Tx α} (h : Scoped c x fun _ _ => True) :
    Scoped c (nothing x) (OwnAll c) :=
  Runs.map (h.weaken fun _ _ _ _ hmem => nomatch hmem)

theorem scoped_maps {α : Type} {x : Tx α} {maps : α → List AppMapRows}
    (h : Scoped c x fun db a => OwnMaps c db (maps a)) :
    Scoped c ((fun a => (maps a).flatMap AppMapRows.returned) <$> x) (OwnAll c) :=
  Runs.map (h.weaken fun db a ha returned hmem => by
    obtain ⟨map, hmap, hmem⟩ := List.mem_flatMap.mp hmem
    exact ha map hmap returned hmem)

/-- Every method of a repository of findings is isolated. -/
theorem scoped_findings {τ : Type} {repo : FindingRepo τ m} {clientOfFinding : τ → ClientId} (hm : m ≠ .appMap)
    (hcreate : ∀ f, Own c m (repo.toCreate c f)) (hclient : ∀ f, clientOfFinding (repo.withClient c f) = c)
    (call : FindingCall τ m.Row) : Scoped c (call.run repo clientOfFinding c) (OwnAll c) := by
  cases call with
  | create entity => exact scoped_one (scoped_create hm (hcreate entity))
  | bulkCreate findings =>
    have hbulk : Scoped c (repo.bulkCreate c findings) fun _ fs => ∀ f ∈ fs, clientOfFinding f = c := by
      refine Runs.ite (fun _ => Runs.pure fun _ _ _ h => nomatch h) fun _ => ?_
      refine Runs.bind (Runs.createMany (P := fun _ => True) (detached hm) (fun _ _ h => h) ?_) fun _ => ?_
      · intro db _ r hr
        obtain ⟨f, -, rfl⟩ := List.mem_map.mp hr
        exact not_foreign (hcreate f)
      · refine Runs.pure fun db _ f hf => ?_
        obtain ⟨f, -, rfl⟩ := List.mem_map.mp hf
        exact hclient f
    exact Runs.map (hbulk.weaken fun db fs hfs returned hmem => by
      obtain ⟨f, hf, rfl⟩ := List.mem_map.mp hmem
      exact hfs f hf)
  | get id =>
    exact scoped_oneOrNone (scoped_findFirst fun r h => own_of_holds (holds_spread_right h) (by simp))
  | list filter =>
    exact scoped_many (scoped_findMany fun r h => own_of_holds (holds_spread_right h) List.mem_cons_self)
  | listByScan scanId =>
    exact scoped_many (scoped_findMany fun r h => own_of_holds (holds_spread_right h) List.mem_cons_self)

/-! ## Rows found by a key -/

/-- `upsert` is isolated as long as the row it finds belongs to the client. -/
theorem runs_upsert {w : Where m.Row} {new : m.Row} {data : m.Row → m.Row} (hm : m ≠ .appMap)
    (hnew : Own c m new) (hdata : ∀ r, Own c m r → Own c m (data r)) :
    Runs (Isolated c) (fun db : Store => ∀ r ∈ (db m).rows, w.holds r = true → Own c m r)
      (Relational.upsert m w new data : Tx m.Row) fun r _ => Own c m r := by
  refine (Runs.of_reads Runs.query).bind fun found => ?_
  cases found with
  | none =>
    refine (Runs.create (P := fun _ => True) (detached hm) (fun _ _ h => h) fun _ _ =>
      not_foreign hnew).conseq (fun _ _ => trivial) fun r _ h => ?_
    rw [h.2]
    exact hnew
  | some r =>
    have hupdate : Runs (Isolated c)
        (fun db : Store => (∀ r ∈ (db m).rows, w.holds r = true → Own c m r) ∧
          some r = (db m).rows.find? w.holds) (updateMany m w data : Tx ℕ) fun _ _ => Own c m r := by
      refine Runs.updateMany_of fun db h rows hrows => ⟨?_, ?_⟩
      · refine isolated_set_of_detached (detached hm) ?_
        rw [hrows]
        refine filter_map_of_not fun r hr hw => ⟨not_foreign (h.1 r hr hw), ?_⟩
        exact not_foreign (hdata r (h.1 r hr hw))
      · exact h.1 r (List.mem_of_find?_eq_some h.2.symm) (List.find?_some h.2.symm)
    exact hupdate.bind fun _ => Runs.pure fun _ h => hdata r h

theorem scoped_upsert {w : Where m.Row} {new : m.Row} {data : m.Row → m.Row} (hm : m ≠ .appMap)
    (hw : ∀ r, w.holds r = true → Own c m r) (hnew : Own c m new)
    (hdata : ∀ r, Own c m r → Own c m (data r)) :
    Scoped c (Relational.upsert m w new data) fun _ r => Own c m r :=
  (runs_upsert hm hnew hdata).conseq (fun _ _ r _ hr => hw r hr) fun _ _ h => h

/-! ## Checkpoints, credentials and scenarios -/

theorem scoped_save {token : ResumeToken} :
    Scoped c (ResumeRepositoryImpl.save deps.env c token) fun _ r => Own c .scanState r := by
  have hofScan : ∀ r, Where.holds (ResumeRepositoryImpl.ofScan c token.scanId) r = true →
      Own c .scanState r := fun r h => own_of_holds h List.mem_cons_self
  refine (scoped_findFirst hofScan).bind fun existing hexisting => ?_
  cases existing with
  | none => exact scoped_create (by decide) rfl
  | some existing =>
    have hupdate : Scoped c (updateMany .scanState [idIs .scanState existing.id, clientIs .scanState c]
        (ResumeRepositoryImpl.written deps.env token)) fun _ _ => True :=
      scoped_updateMany (by decide) (fun r h => own_of_holds h (by simp)) fun r h => h
    refine hupdate.bind fun _ _ => ?_
    refine (scoped_getRow existing.id).bind fun r? hr => ?_
    cases r? with
    | none => exact scoped_throw
    | some r => exact scoped_pure fun _ => hr r rfl

theorem scoped_getState {scanId : ScanId} :
    Scoped c (ResumeRepositoryImpl.get c scanId) fun _ r? => ∀ r ∈ r?, Own c .scanState r :=
  scoped_findFirst fun _ h => own_of_holds h List.mem_cons_self

theorem scoped_markLayerCompleted {scanId : ScanId} {layer : LayerId} {checkpointRef : Option String} :
    Scoped c (ResumeRepositoryImpl.markLayerCompleted deps.env c scanId layer checkpointRef)
      fun _ r => Own c .scanState r :=
  scoped_getState.bind fun _ _ => scoped_save

theorem runs_requireCipher {cipher : Option FieldCipher} {what : String} :
    Runs Eq P (requireCipher cipher what) fun _ db => P db := by
  cases cipher with
  | none => exact Runs.throw
  | some cipher => exact Runs.pure fun _ h => h

theorem runs_openEnvelope {d : ClientId} {cipher : FieldCipher} {envelope : String} :
    Runs Eq P (openEnvelope d cipher envelope) fun _ db => P db := by
  rw [openEnvelope]
  split
  · exact Runs.throw
  · exact Runs.pure fun _ h => h

theorem scoped_requireCipher {cipher : Option FieldCipher} {what : String} :
    Scoped c (requireCipher cipher what) fun _ _ => True := Runs.of_reads runs_requireCipher

theorem scoped_openEnvelope {d : ClientId} {cipher : FieldCipher} {envelope : String} :
    Scoped c (openEnvelope d cipher envelope) fun _ _ => True := Runs.of_reads runs_openEnvelope

theorem scoped_upsertCredential {cipher : Option FieldCipher} {cred : LlmCredentialInput} :
    Scoped c (CredentialRepositoryImpl.upsert deps.env c cipher cred) fun _ r => Own c .llmCredential r :=
  scoped_requireCipher.bind fun _ _ => scoped_upsert (by decide)
    (fun _ h => own_of_holds h List.mem_cons_self) rfl fun _ h => h

theorem scoped_getCredential {cipher : Option FieldCipher} :
    Scoped c (CredentialRepositoryImpl.get c cipher) fun _ r? => ∀ r ∈ r?, Own c .llmCredential r := by
  refine scoped_requireCipher.bind fun key _ => ?_
  refine (scoped_findFirst fun r h => own_of_holds h List.mem_cons_self).bind fun r? hr => ?_
  cases r? with
  | none => exact scoped_pure fun _ _ h => nomatch h
  | some row =>
    refine scoped_openEnvelope.bind fun _ _ => ?_
    split
    · exact scoped_pure fun _ => hr
    · exact scoped_openEnvelope.bind fun _ _ => scoped_pure fun _ => hr

section Scenarios

open RedTeamScenarioRepositoryImpl

variable {text : StepsText} {cipher : Option FieldCipher}

theorem runs_fromRow {row : RedTeamScenarioRow} :
    Runs Eq P (fromRow text cipher row) fun r _ => r = row := by
  refine runs_requireCipher.bind fun _ => runs_openEnvelope.bind fun steps => ?_
  split
  · exact Runs.throw
  · exact Runs.pure fun _ _ => rfl

theorem scoped_fromRow {row : RedTeamScenarioRow} : Scoped c (fromRow text cipher row) fun _ r => r = row :=
  Runs.of_reads runs_fromRow

theorem scoped_createScenario {scenario : RedTeamScenario} :
    Scoped c (create c text cipher scenario) fun _ r => Own c .redTeamScenario r := by
  refine scoped_requireCipher.bind fun key _ => ?_
  refine Scoped.bind (p := Own c .redTeamScenario) (scoped_create (by decide) rfl) fun row hrow => ?_
  exact scoped_fromRow.weaken fun _ r h => h ▸ hrow

theorem scoped_getScenario {id : EntityId} :
    Scoped c (get c text cipher id) fun _ r? => ∀ r ∈ r?, Own c .redTeamScenario r := by
  refine (scoped_getRow id).bind fun r? hr => ?_
  cases r? with
  | none => exact scoped_pure fun _ _ h => nomatch h
  | some row =>
    refine Runs.map (scoped_fromRow.weaken fun _ r h r' hr' => ?_)
    obtain rfl := Option.some.inj hr'
    exact h ▸ hr row rfl

theorem scoped_listScenarios {filter : Where RedTeamScenarioRow} :
    Scoped c (list c text cipher filter) fun _ rs => ∀ r ∈ rs, Own c .redTeamScenario r := by
  refine scoped_listRows.bind fun rows hrows => ?_
  have hfromRow : ∀ row, Runs Eq (fun _ => True) (fromRow text cipher row) fun _ _ => True :=
    fun row => runs_fromRow.post fun _ _ _ => trivial
  have hread : Scoped c (rows.mapM (fromRow text cipher)) fun _ _ => True :=
    Runs.of_reads ((Runs.mapM hfromRow rows).post fun _ _ _ => trivial)
  exact hread.bind fun _ _ => scoped_pure fun _ => hrows

theorem scoped_updateScenario {scenario : RedTeamScenario} :
    Scoped c (update c text cipher scenario) fun _ r => Own c .redTeamScenario r := by
  refine scoped_requireCipher.bind fun key _ => ?_
  refine Scoped.bind (p := Own c .redTeamScenario) (scoped_updateRow (by decide) fun _ h => h)
    fun row hrow => ?_
  exact scoped_fromRow.weaken fun _ r h => h ▸ hrow

end Scenarios

/-! ## Every operation -/

/-- The condition that a report is saved over one of the client, or anew. -/
def Operation.keepsReports (c : ClientId) (db : Store) : Operation → Prop
  | reportsUpsert report => ∀ row ∈ (db .report).rows, ReportRow.scanId row = report.scanId →
      ReportRow.clientId row = c
  | _ => True

theorem runs_saveReport {report : Report} :
    Runs (Isolated c) (Operation.keepsReports c · (.reportsUpsert report))
      ((Operation.reportsUpsert report).run deps c) fun answer db => OwnAll c db answer := by
  refine Runs.map (Runs.conseq (runs_upsert (by decide) rfl fun _ h => h) (fun db h row hrow hw => ?_)
    fun row db hrow returned hmem => ?_)
  · have hscan : decide (ReportRow.scanId row = report.scanId) = true := holds_of_mem hw List.mem_cons_self
    exact congrArg some (h row hrow (of_decide_eq_true hscan))
  · obtain rfl := List.mem_singleton.mp hmem
    exact clientOf_eq hrow

theorem scoped_run {op : Operation} (hop : ∀ report, op ≠ .reportsUpsert report) :
    Scoped c (op.run deps c) (OwnAll c) := by
  cases op with
  | reportsUpsert report => exact absurd rfl (hop report)
  | scansCreate | pullRequestsCreate | customRulesCreate | scanSchedulesCreate | postureRecord
  | learnedFactsRecord | fixesCreate => exact scoped_one (scoped_create (by decide) rfl)
  | scansGet | fixesGet | pullRequestsGet | customRulesGet | scanSchedulesGet =>
    exact scoped_oneOrNone (scoped_getRow _)
  | scansList | fixesList | pullRequestsList | customRulesList | scanSchedulesList
  | scanSchedulesListEnabled => exact scoped_many scoped_listRows
  | scansUpdate | fixesUpdate | pullRequestsUpdate | customRulesUpdate | scanSchedulesUpdate =>
    exact scoped_one (scoped_updateRow (by decide) fun _ h => h)
  | customRulesDelete | redTeamScenariosDelete | scanSchedulesDelete =>
    exact scoped_nothing (scoped_deleteRow (by decide))
  | scansListByStatus | fixesListByScan | pullRequestsListByScan | resumeListStates | postureList
  | postureListByRepo => exact scoped_many (scoped_findMany fun _ h => own_of_holds h List.mem_cons_self)
  | reportsGetByScan => exact scoped_oneOrNone (scoped_findFirst fun _ h => own_of_holds h (by simp))
  | postureLatestForRepo | credentialsGetMetadata =>
    exact scoped_oneOrNone (scoped_findFirst fun _ h => own_of_holds h List.mem_cons_self)
  | appMapsCreate => exact Runs.map (scoped_createMap.weaken fun db map h => h map List.mem_cons_self)
  | appMapsGet => exact scoped_maps (Runs.of_reads runs_assemble_toList)
  | appMapsList => exact scoped_maps scoped_listMaps
  | appMapsLatestForCommit | appMapsLatestForRepo => exact scoped_maps scoped_latest
  | appMapsMarkStale => exact scoped_nothing scoped_markStale
  | appMapsInvalidateStaleForCommit =>
    exact scoped_nothing (scoped_markMaps fun _ h => own_of_holds h List.mem_cons_self)
  | candidates call =>
    have hcreate : ∀ f, Own c .candidateFinding (makeCandidateRepo.toCreate c f) := fun _ => rfl
    exact scoped_findings (by decide) hcreate (fun _ => rfl) call
  | probable call =>
    have hcreate : ∀ f, Own c .probableFinding (makeProbableRepo.toCreate c f) := fun _ => rfl
    exact scoped_findings (by decide) hcreate (fun _ => rfl) call
  | confirmed call =>
    have hcreate : ∀ f, Own c .confirmedFinding (makeConfirmedRepo.toCreate c f) := fun _ => rfl
    exact scoped_findings (by decide) hcreate (fun _ => rfl) call
  | unconfirmed call =>
    have hcreate : ∀ f, Own c .probableFinding (makeUnconfirmedRepo.toCreate c f) := fun _ => rfl
    exact scoped_findings (by decide) hcreate (fun _ => rfl) call
  | resumeSave => exact scoped_one scoped_save
  | resumeGet => exact scoped_oneOrNone scoped_getState
  | resumeMarkLayerCompleted => exact scoped_one scoped_markLayerCompleted
  | credentialsUpsert => exact scoped_one scoped_upsertCredential
  | credentialsGet => exact scoped_oneOrNone scoped_getCredential
  | credentialsDelete =>
    refine scoped_nothing (Scoped.bind (p := fun _ => True) ?_ fun _ _ => scoped_pure fun _ => trivial)
    exact scoped_deleteMany (by decide) fun _ h => own_of_holds h List.mem_cons_self
  | redTeamScenariosCreate => exact scoped_one scoped_createScenario
  | redTeamScenariosGet => exact scoped_oneOrNone scoped_getScenario
  | redTeamScenariosList => exact scoped_many scoped_listScenarios
  | redTeamScenariosUpdate => exact scoped_one scoped_updateScenario
  | learnedFactsListByRepo repo limit =>
    have hrows : Scoped c (findMany (m := Model.learnedFact)
        [clientIs .learnedFact c, fieldIs "repo" LearnedFactRow.repo repo]
        (descending LearnedFactRow.createdAt)) fun _ rs => ∀ r ∈ rs, Own c .learnedFact r :=
      scoped_findMany fun _ h => own_of_holds h List.mem_cons_self
    refine scoped_many (Runs.map (hrows.weaken fun _ rows h r hr => h r ?_))
    rw [LearnedFactRepositoryImpl.take] at hr
    split at hr
    · exact List.mem_of_mem_take hr
    · exact List.mem_of_mem_drop hr

/-! ## Reports -/

/-- Saving a report over one that is there is done, and returns the row with its client. -/
theorem run_saveReport {db : Store} {report : Report} {row : ReportRow} (hrow : row ∈ (db .report).rows)
    (hscan : row.scanId = report.scanId) :
    ∃ db', (Operation.reportsUpsert report).run deps c db =
      .ok ([.row .report { row with document := report, generatedAt := report.generatedAt }], db') := by
  have hfound : (db .report).rows.find?
      (Where.holds [fieldIs "scanId" ReportRow.scanId report.scanId]) = some row := by
    obtain ⟨found, hfound⟩ : ∃ found, (db .report).rows.find?
        (Where.holds [fieldIs "scanId" ReportRow.scanId report.scanId]) = some found := by
      rw [← Option.isSome_iff_exists, List.find?_isSome]
      exact ⟨row, hrow, by simp [Where.holds, fieldIs, hscan]⟩
    have hcondition : decide (ReportRow.scanId found = report.scanId) = true :=
      holds_of_mem (List.find?_some hfound) List.mem_cons_self
    have hsame : ReportRow.scanId found = row.scanId := (of_decide_eq_true hcondition).trans hscan.symm
    rw [hfound]
    refine congrArg some (Rows.eq_of_conflict (List.mem_of_find?_eq_some hfound) hrow ?_ ?_)
    · exact Bool.or_eq_true_iff.mpr (.inr (decide_eq_true hsame))
    · exact Bool.or_eq_true_iff.mpr (.inr (decide_eq_true hsame.symm))
  obtain ⟨n, rows, hupdate⟩ : ∃ (n : ℕ) (rows : Rows Model.report),
      (updateMany (m := Model.report) [fieldIs "scanId" ReportRow.scanId report.scanId] (fun row : ReportRow =>
        { row with document := report, generatedAt := report.generatedAt }) : Tx ℕ) db =
          .ok (n, db.set .report rows) :=
    updateMany_eq_ok (fun _ _ => rfl) fun _ _ => ⟨rfl, rfl⟩
  have hupsert : ReportRepositoryImpl.upsert c report db =
      .ok ({ row with document := report, generatedAt := report.generatedAt }, db.set .report rows) :=
    upsert_eq_ok hfound hupdate
  refine ⟨db.set .report rows, ?_⟩
  simp only [Operation.run, one, Functor.map, StateT.map, bind, Except.bind, hupsert]
  rfl

/-- Every operation isolates clients, except saving a report of a scan whose report is another client's. -/
theorem isolates_iff (deps : Deps) (c : ClientId) (db : Store) (op : Operation) :
    op.isolates deps c db ↔ op.keepsReports c db := by
  constructor
  · intro h
    cases op with
    | reportsUpsert report =>
      intro row hrow hscan
      obtain ⟨db', hrun⟩ := run_saveReport hrow hscan
      have hbelongs := (h _ db' hrun).1 _ List.mem_cons_self
      exact Option.some.inj hbelongs
    | _ => trivial
  · intro h answer db' hrun
    by_cases hop : ∃ report, op = .reportsUpsert report
    · obtain ⟨report, rfl⟩ := hop
      exact (runs_saveReport db h answer db' hrun).symm
    · exact (scoped_run (fun report heq => hop ⟨report, heq⟩) db trivial answer db' hrun).symm

/-! ### A report of another client -/

section Counterexample

/-- A scan of the client `a`. -/
private def scanOfA : Scan :=
  { id := "s", clientId := "a", repo := "r", branch := "main", mode := .full, scope := { mode := .full }
    operator := "u", createdAt := 0 }

/-- The report of a client about that scan. -/
private def reportOf (id : EntityId) (clientId : ClientId) : Report :=
  { id, scanId := "s", clientId, generatedAt := 0, sections := .null }

/-- Two clients; `a` has a scan with a report. -/
private def twoClients : Store
  | .client => { rows := ["a", "b"], nodup := by decide }
  | .user => { rows := [{ id := "u", clientId := "a" }], nodup := List.pairwise_singleton _ _ }
  | .scan => { rows := [scanOfA], nodup := List.pairwise_singleton _ _ }
  | .report => { rows := [reportToCreate "a" (reportOf "report-a" "a")]
                 nodup := List.pairwise_singleton _ _ }
  | m => Rows.empty m

/-- Client `b` saves a report about the scan of client `a`. -/
theorem not_isolates : ¬∀ (deps : Deps) (c : ClientId) (db : Store) (op : Operation),
    op.isolates deps c db := by
  intro h
  have hrow : reportToCreate "a" (reportOf "report-a" "a") ∈ (twoClients .report).rows := List.mem_cons_self
  let deps : Deps :=
    { env := { now := 0, cuid := fun n => "id" ++ toString n }, cipher := none
      text := { stringify := fun _ => "[]", parse := fun _ => .ok [] } }
  obtain ⟨db', hrun⟩ : ∃ db', (Operation.reportsUpsert (reportOf "report-b" "b")).run deps "b" twoClients =
      .ok ([_], db') := run_saveReport hrow rfl
  have hbelongs := (h deps "b" twoClients (.reportsUpsert (reportOf "report-b" "b")) _ db' hrun).1 _
    List.mem_cons_self
  have hclient : "a" = "b" := Option.some.inj hbelongs
  exact absurd hclient (by decide)

end Counterexample

end MontrSecure.Tenancy
