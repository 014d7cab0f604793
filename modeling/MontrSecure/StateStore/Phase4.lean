import MontrSecure.StateStore.Tenants

/-!
# The repositories of scale and intelligence

`packages/state-store/src/phase4.ts` and `learned-facts.ts`: custom rules, red-team scenarios whose steps
are envelopes, schedules, posture snapshots and learned facts.
-/

namespace MontrSecure.Tenancy

open Relational

variable (env : Env) (clientId : ClientId)

/-! ## Custom rules -/

namespace CustomRuleRepositoryImpl

/-- `create`. -/
def create (rule : CustomRule) : Tx CustomRule :=
  Relational.create (m := Model.customRule) { rule with clientId }

/-- `get`. -/
def get (id : EntityId) : Tx (Option CustomRule) := getRow .customRule clientId id

/-- `list`. -/
def list (filter : Where CustomRule) : Tx (List CustomRule) :=
  listRows .customRule clientId filter (descending CustomRule.createdAt)

/-- `update`. -/
def update (rule : CustomRule) : Tx CustomRule :=
  updateRow .customRule clientId rule.id
    (fun row => { row with
      name := rule.name, language := rule.language, engine := rule.engine, body := rule.body
      version := rule.version, enabled := rule.enabled })
    "customRule"

/-- `delete`. -/
def delete (id : EntityId) : Tx Unit := deleteRow .customRule clientId id "customRule"

end CustomRuleRepositoryImpl

/-! ## Red-team scenarios -/

/-- `JSON.stringify` and `JSON.parse` of the steps of a scenario. -/
structure StepsText where
  stringify : List RedTeamStep → String
  parse : String → Except Err (List RedTeamStep)

namespace RedTeamScenarioRepositoryImpl

variable (text : StepsText) (cipher : Option FieldCipher)

/-- `toCreate`. -/
def toCreate (cipher : FieldCipher) (s : RedTeamScenario) : RedTeamScenarioRow :=
  { id := s.id
    clientId
    name := s.name
    category := s.category
    steps := cipher.encrypt (text.stringify s.steps) clientId
    targetAllowlistRef := s.targetAllowlistRef
    version := s.version
    enabled := s.enabled
    createdBy := s.createdBy
    createdAt := s.createdAt
    liveAuthorizedById := s.liveAuthorizedById
    liveAuthorizationReference := s.liveAuthorizationReference
    liveAuthorizedAt := s.liveAuthorizedAt
    liveAuthorizedForVersion := s.liveAuthorizedForVersion }

/-- `fromRow`: the row, if its steps can be opened and read. -/
def fromRow (row : RedTeamScenarioRow) : Tx RedTeamScenarioRow := do
  let cipher ← requireCipher cipher "red-team scenarios"
  let steps ← openEnvelope row.clientId cipher row.steps
  match text.parse steps with
  | .error e => throw e
  | .ok _ => return row

/-- `create`. -/
def create (scenario : RedTeamScenario) : Tx RedTeamScenarioRow := do
  let key ← requireCipher cipher "red-team scenarios"
  let row ← Relational.create (m := Model.redTeamScenario) (toCreate clientId text key scenario)
  fromRow text cipher row

/-- `get`. -/
def get (id : EntityId) : Tx (Option RedTeamScenarioRow) := do
  match ← getRow .redTeamScenario clientId id with
  | none => return none
  | some row => some <$> fromRow text cipher row

/-- `list`. -/
def list (filter : Where RedTeamScenarioRow) : Tx (List RedTeamScenarioRow) := do
  let rows ← listRows .redTeamScenario clientId filter (descending RedTeamScenarioRow.createdAt)
  let _ ← rows.mapM (fromRow text cipher)
  return rows

/-- `update`. -/
def update (scenario : RedTeamScenario) : Tx RedTeamScenarioRow := do
  let key ← requireCipher cipher "red-team scenarios"
  let written := toCreate clientId text key scenario
  let row ← updateRow .redTeamScenario clientId scenario.id
    (fun row => { written with
      id := row.id, clientId := row.clientId, createdBy := row.createdBy, createdAt := row.createdAt })
    "redTeamScenario"
  fromRow text cipher row

/-- `delete`. -/
def delete (id : EntityId) : Tx Unit := deleteRow .redTeamScenario clientId id "redTeamScenario"

end RedTeamScenarioRepositoryImpl

/-! ## Schedules -/

namespace ScanScheduleRepositoryImpl

/-- `create`. -/
def create (schedule : ScanSchedule) : Tx ScanSchedule :=
  Relational.create (m := Model.scanSchedule) { schedule with clientId }

/-- `get`. -/
def get (id : EntityId) : Tx (Option ScanSchedule) := getRow .scanSchedule clientId id

/-- `list`. -/
def list (filter : Where ScanSchedule) : Tx (List ScanSchedule) :=
  listRows .scanSchedule clientId filter (descending ScanSchedule.createdAt)

/-- `listEnabled`. -/
def listEnabled : Tx (List ScanSchedule) :=
  list clientId [fieldIs "enabled" ScanSchedule.enabled true]

/-- The columns `update` writes. -/
def written (schedule row : ScanSchedule) : ScanSchedule :=
  { row with
    repo := schedule.repo, mode := schedule.mode, cron := schedule.cron
    budgetCeiling := schedule.budgetCeiling, enabled := schedule.enabled
    nextRunAt := schedule.nextRunAt }

/-- `update`. -/
def update (schedule : ScanSchedule) : Tx ScanSchedule :=
  updateRow .scanSchedule clientId schedule.id (written schedule) "scanSchedule"

/-- `delete`. -/
def delete (id : EntityId) : Tx Unit := deleteRow .scanSchedule clientId id "scanSchedule"

end ScanScheduleRepositoryImpl

/-! ## Posture -/

namespace PostureRepositoryImpl

/-- `record`. -/
def record (snapshot : PostureSnapshot) : Tx PostureSnapshot :=
  Relational.create (m := Model.postureSnapshot) { snapshot with clientId }

/-- `list`. -/
def list : Tx (List PostureSnapshot) :=
  findMany (m := Model.postureSnapshot) [clientIs .postureSnapshot clientId]
    (ascending PostureSnapshot.at_)

/-- The snapshots of a repo. -/
def ofRepo (repo : String) : Where PostureSnapshot :=
  [clientIs .postureSnapshot clientId, fieldIs "repo" PostureSnapshot.repo repo]

/-- `listByRepo`. -/
def listByRepo (repo : String) : Tx (List PostureSnapshot) :=
  findMany (m := Model.postureSnapshot) (ofRepo clientId repo) (ascending PostureSnapshot.at_)

/-- `latestForRepo`. -/
def latestForRepo (repo : String) : Tx (Option PostureSnapshot) :=
  findFirst (m := Model.postureSnapshot) (ofRepo clientId repo) (descending PostureSnapshot.at_)

end PostureRepositoryImpl

/-! ## Learned facts -/

/-- `LearnedFactInput`, whose client is that of the call. -/
structure LearnedFactInput where
  repo : String
  type : LearnedFactType
  content : Json
  provenance : Json

namespace LearnedFactRepositoryImpl

/-- `record`. -/
def record (input : LearnedFactInput) : Tx LearnedFactRow :=
  Relational.create (m := Model.learnedFact)
    { id := env.cuid 0, clientId, repo := input.repo, type := input.type, content := input.content
      provenance := input.provenance, createdAt := env.now }

/-- `take`: the first rows, or as many from the end when it is negative. -/
def take {ρ : Type} (limit : ℤ) (rows : List ρ) : List ρ :=
  if 0 ≤ limit then rows.take limit.toNat else rows.drop (rows.length - limit.natAbs)

/-- `listByRepo`. -/
def listByRepo (repo : String) (limit : ℤ) : Tx (List LearnedFactRow) :=
  take limit <$> findMany (m := Model.learnedFact)
    [clientIs .learnedFact clientId, fieldIs "repo" LearnedFactRow.repo repo]
    (descending LearnedFactRow.createdAt)

end LearnedFactRepositoryImpl

end MontrSecure.Tenancy
