import MontrSecure.StateStore.Tenants
import MontrSecure.Worker.Restart

/-!
# Retention

`packages/state-store/src/retention.ts`: the scans of a client that have ended and are old are deleted, and the App
Maps of the client that are old, whoever still uses them. `removed_iff` says which rows one run removes.
-/

namespace MontrSecure.Tenancy

open Relational

/-! ## The enforcer -/

/-- `RetentionPolicy`. -/
structure RetentionPolicy where
  scanDays : ℤ
  appMapDays : ℤ
  auditDays : ℤ
  auditImmutable : Bool

/-- `RetentionResult`. -/
structure RetentionResult where
  scansDeleted : ℕ
  appMapsDeleted : ℕ
  auditEventsDeleted : ℕ

/-- `TERMINAL_SCAN_STATUSES`. -/
def terminalScanStatuses : List ScanStatus := [.completed, .failed, .cancelled, .partialReport]

example : .completed ∈ terminalScanStatuses := by decide +kernel

/-- `DAY_MS`. -/
def dayMs : ℤ := 24 * 60 * 60 * 1000

/-- `daysAgo`. -/
def daysAgo (now : IsoDateTime) (days : ℤ) : ℤ := now - days * dayMs

variable (clientId : ClientId) (policy : RetentionPolicy) (now : IsoDateTime)

/-- The scans of the client that have ended and are too old. -/
def expiredScans : Where Scan :=
  [clientIs .scan clientId, ("status", fun s => s.status ∈ terminalScanStatuses),
    ("createdAt", fun s => (s.createdAt : ℤ) < daysAgo now policy.scanDays)]

/-- The App Maps of the client that are too old. -/
def expiredAppMaps : Where AppMapRow :=
  [clientIs .appMap clientId, ("createdAt", fun m => (m.createdAt : ℤ) < daysAgo now policy.appMapDays)]

/-- `enforce`. -/
def RetentionEnforcer.enforce : Tx RetentionResult := do
  let scans ← deleteCascading (m := Model.scan) (expiredScans clientId policy now)
  let appMaps ← deleteCascading (m := Model.appMap) (expiredAppMaps clientId policy now)
  return { scansDeleted := scans, appMapsDeleted := appMaps, auditEventsDeleted := 0 }

/-- The database after a run. -/
def enforced (db : Store) : Store :=
  sweep (sweep db (selecting Model.scan (expiredScans clientId policy now)))
    (selecting Model.appMap (expiredAppMaps clientId policy now))

/-! ## What a run removes -/

variable {clientId policy now} {db : Store} {m : Model} {r : Row m}

/-- A run always ends, in the database without what has expired. -/
theorem enforce_eq_ok :
    ∃ result, RetentionEnforcer.enforce clientId policy now db = .ok (result, enforced clientId policy now db) :=
  ⟨_, rfl⟩

/-- Expiry does not depend on the references that a deletion clears. -/
theorem selecting_expiredAppMaps_release (gone : Model × EntityId → Bool) (m : Model) (r : Row m) :
    selecting Model.appMap (expiredAppMaps clientId policy now) m (release gone m r) =
      selecting Model.appMap (expiredAppMaps clientId policy now) m r := by
  cases m <;> rfl

theorem kept_enforced (hr : r ∈ (db m).rows) : Kept (enforced clientId policy now db) m r ↔
    ¬Doomed db (selecting Model.scan (expiredScans clientId policy now)) m r ∧
      ¬Doomed db (selecting Model.appMap (expiredAppMaps clientId policy now)) m r :=
  kept_sweep_sweep selecting_expiredAppMaps_release hr

/-- A run removes the expired scans and App Maps with what belongs to them, and nothing else. -/
theorem removed_iff (hr : r ∈ (db m).rows) : ¬Kept (enforced clientId policy now db) m r ↔
    Doomed db (selecting Model.scan (expiredScans clientId policy now)) m r ∨
      Doomed db (selecting Model.appMap (expiredAppMaps clientId policy now)) m r := by
  rw [kept_enforced hr, not_and_or, not_not, not_not]

/-! ## Scans and App Maps -/

/-- A row without owners is only taken along when it is selected. -/
theorem doomed_iff_of_no_owner {selected : ∀ m : Model, Row m → Bool} (h : m.cascading r = []) :
    Doomed db selected m r ↔ selected m r = true := by
  refine ⟨fun hdoomed => ?_, Doomed.selected⟩
  cases hdoomed with
  | selected h => exact h
  | owned hk =>
    have hk : _ ∈ m.cascading r := hk
    rw [h] at hk
    cases hk

/-- No App Map goes with a scan. -/
theorem not_doomed_appMap {w : Where Scan} {a : AppMapRow} :
    ¬Doomed db (selecting Model.scan w) .appMap a :=
  fun h => nomatch (doomed_iff_of_no_owner (m := .appMap) rfl).mp h

/-- No scan goes with an App Map. -/
theorem not_doomed_scan {w : Where AppMapRow} {s : Scan} : ¬Doomed db (selecting Model.appMap w) .scan s :=
  fun h => nomatch (doomed_iff_of_no_owner (m := .scan) rfl).mp h

theorem doomed_scan_iff {w : Where Scan} {s : Scan} :
    Doomed db (selecting Model.scan w) .scan s ↔ w.holds s = true :=
  doomed_iff_of_no_owner (m := .scan) rfl

theorem doomed_appMap_iff {w : Where AppMapRow} {a : AppMapRow} :
    Doomed db (selecting Model.appMap w) .appMap a ↔ w.holds a = true :=
  doomed_iff_of_no_owner (m := .appMap) rfl

end MontrSecure.Tenancy

/-!
## What retention leaves to live scans

A scan that has not ended reads its App Map again whenever a process has none in its cache. `spares_iff` says when
a run of the retention enforcer leaves it one: when no such scan refers to a map that is old enough to be deleted,
which the enforcer does not look at.
-/

namespace MontrSecure.Tenancy

open Relational

/-! ## Reading an App Map -/

/-- `appMapFromRows`. -/
def appMapFromRows (map : AppMapRows) : AppMap :=
  { id := map.row.id
    clientId := map.row.clientId
    repo := map.row.repo
    branch := map.row.branch
    commitSha := map.row.commitSha
    languages := map.row.languages
    routes := map.routes.map fun r => { r.value with id := some r.id }
    taintSources := map.taintSources.map fun t => { t.value with id := some t.id }
    taintSinks := map.taintSinks.map fun t => { t.value with id := some t.id }
    taintFlows := map.row.taintFlows
    entrypoints := map.row.entrypoints
    envSecretSurfaces := map.row.envSecretSurfaces
    thirdPartyCalls := map.row.thirdPartyCalls
    dataStores := map.row.dataStores
    ormModels := map.row.ormModels
    threatModel := map.row.threatModel
    stale := map.row.stale
    createdAt := map.row.createdAt }

/-- The id under which a layer looks for its App Map. -/
def appMapIdOf (ctx : LayerContext) : Option EntityId := (ctx.scan.appMapId.or ctx.jobAppMapId).filter (· ≠ "")

/-- `resolveAppMap`. -/
def resolveAppMap (ctx : LayerContext) : Tx AppMap := do
  match PriorOutputs.appMap ctx.priorOutputs with
  | some cached => return cached
  | none =>
    let persisted ← match appMapIdOf ctx with
      | some id => AppMapRepositoryImpl.get ctx.job.clientId id
      | none => pure none
    match persisted with
    | some map => return appMapFromRows map
    | none => throw (.internal s!"{ctx.job.layer.name}: App Map not found for scan {ctx.job.scanId}")

/-- `resolveAppMap` finds an App Map. -/
def Resolves (ctx : LayerContext) (db : Store) : Prop := ∃ answer, resolveAppMap ctx db = .ok answer

/-- The context is that of a job that was built for the scan. -/
def BuiltFor (ctx : LayerContext) (scan : Scan) : Prop :=
  ctx.scan = scan ∧ ∃ config layer autoApply, buildJob config scan layer autoApply = .ok ctx.job

/-! ## What retention promises -/

/-- The scan has not ended. -/
def Live (s : Scan) : Prop := s.status ∉ terminalScanStatuses

instance (s : Scan) : Decidable (Live s) := inferInstanceAs (Decidable (s.status ∉ terminalScanStatuses))

section

variable (clientId : ClientId) (policy : RetentionPolicy) (now : IsoDateTime) (db : Store)

/-- The expired App Maps that no live scan refers to. -/
def unusedAppMaps : Where AppMapRow :=
  expiredAppMaps clientId policy now ++
    [("scans", fun m => (db .scan).rows.all fun s => !decide (Live s) || s.appMapId ≠ some m.id)]

/-- Between two databases every live scan stays, with an App Map if there was one, and whatever is removed belongs to
the client and is an expired scan or an unused App Map, or belongs to one. -/
structure Spares (db' : Store) : Prop where
  live : ∀ s ∈ (db .scan).rows, Live s → ∃ s' ∈ (db' .scan).rows, s'.id = s.id ∧
    ∀ ctx, BuiltFor ctx s → Resolves ctx db → Resolves { ctx with scan := s' } db'
  removed : ∀ m, ∀ r ∈ (db m).rows, ¬Kept db' m r → clientOf db m r = some clientId ∧
    (Doomed db (selecting Model.scan (expiredScans clientId policy now)) m r ∨
      Doomed db (selecting Model.appMap (unusedAppMaps clientId policy now db)) m r)

/-- No live scan refers to an expired App Map, and what belongs to an expired scan or App Map is the client's. -/
structure Sparing : Prop where
  unused : ∀ s ∈ (db .scan).rows, Live s → ∀ a ∈ (db .appMap).rows,
    (expiredAppMaps clientId policy now).holds a = true → s.appMapId ≠ some a.id
  owned : ∀ m, ∀ r ∈ (db m).rows,
    Doomed db (selecting Model.scan (expiredScans clientId policy now)) m r ∨
      Doomed db (selecting Model.appMap (expiredAppMaps clientId policy now)) m r → clientOf db m r = some clientId

end

/-! ## What is found -/

variable {clientId : ClientId} {policy : RetentionPolicy} {now : IsoDateTime} {db : Store} {ctx : LayerContext}
  {s : Scan}

/-- What `get` answers. -/
theorem get_eq_ok (clientId : ClientId) (id : EntityId) (db : Store) :
    ∃ map?, AppMapRepositoryImpl.get clientId id db = .ok (map?, db) ∧
    (map?.isSome ↔ ∃ a ∈ (db .appMap).rows, a.id = id ∧ a.clientId = clientId) := by
  have hfound : getRow .appMap clientId id db =
      .ok ((((db .appMap).rows.filter (Where.holds [idIs .appMap id, clientIs .appMap clientId])).mergeSort
        unordered).head?, db) := rfl
  have hmem : ∀ a, a ∈ ((db .appMap).rows.filter
      (Where.holds [idIs .appMap id, clientIs .appMap clientId])).mergeSort unordered ↔
        a ∈ (db .appMap).rows ∧ a.id = id ∧ a.clientId = clientId := by
    intro a
    have hid : (idIs .appMap id).2 a = true ↔ a.id = id := decide_eq_true_iff
    have hclient : (clientIs .appMap clientId).2 a = true ↔ a.clientId = clientId :=
      decide_eq_true_iff.trans Option.some_inj
    rw [List.mem_mergeSort, List.mem_filter, Where.holds, List.all_cons, List.all_cons, List.all_nil, Bool.and_true,
      Bool.and_eq_true, hid, hclient]
  simp only [AppMapRepositoryImpl.get, AppMapRepositoryImpl.assemble, bind, StateT.bind, hfound, Except.bind]
  generalize ((db .appMap).rows.filter
    (Where.holds [idIs .appMap id, clientIs .appMap clientId])).mergeSort unordered = found at hmem
  rcases found with _ | ⟨a, rest⟩
  · refine ⟨none, rfl, ⟨fun h => absurd h Bool.false_ne_true, ?_⟩⟩
    rintro ⟨a, ha⟩
    exact absurd ((hmem a).mpr ha) List.not_mem_nil
  · exact ⟨_, rfl, fun _ => ⟨a, (hmem a).mp List.mem_cons_self⟩, fun _ => rfl⟩

/-- A layer finds what is cached, else a map of the client under the id it has. -/
theorem resolves_iff : Resolves ctx db ↔ PriorOutputs.appMap ctx.priorOutputs ≠ none ∨
    ∃ a ∈ (db .appMap).rows, appMapIdOf ctx = some a.id ∧ a.clientId = ctx.job.clientId := by
  rw [Resolves, resolveAppMap]
  rcases PriorOutputs.appMap ctx.priorOutputs with _ | cached
  · rcases appMapIdOf ctx with _ | id
    · refine ⟨fun ⟨_, h⟩ => (nomatch h), ?_⟩
      rintro (h | ⟨_, _, h, _⟩)
      · exact absurd rfl h
      · cases h
    · obtain ⟨map?, hget, hsome⟩ := get_eq_ok ctx.job.clientId id db
      simp only [bind, StateT.bind, hget, Except.bind]
      rcases map? with _ | map
      · refine ⟨fun ⟨_, h⟩ => (nomatch h), ?_⟩
        rintro (h | ⟨a, ha, hid, hclient⟩)
        · exact absurd rfl h
        · exact nomatch hsome.mpr ⟨a, ha, (Option.some.inj hid).symm, hclient⟩
      · obtain ⟨a, ha, rfl, hclient⟩ := hsome.mp rfl
        exact ⟨fun _ => .inr ⟨a, ha, rfl, hclient⟩, fun _ => ⟨_, rfl⟩⟩
  · exact ⟨fun _ => .inl (by simp), fun _ => ⟨_, rfl⟩⟩

/-- A job names a map only when the scan has it. -/
theorem jobAppMapId_of_buildJob {config : MontrConfig} {layer : LayerId} {autoApply : Option Bool}
    (h : buildJob config s layer autoApply = .ok ctx.job) :
    ctx.jobAppMapId = none ∨ ctx.jobAppMapId = s.appMapId := by
  unfold LayerContext.jobAppMapId
  unfold buildJob at h
  cases layer <;> simp only at h
  case layer1 =>
    split at h
    · cases h
    · next hid =>
      split at h
      · rw [← Except.ok.inj h]
        exact .inr hid.symm
      · cases h
  all_goals
    split at h
    · rw [← Except.ok.inj h]
      exact .inl rfl
    · cases h

/-- A job that was built for a scan looks for the map the scan refers to. -/
theorem appMapIdOf_of_builtFor (h : BuiltFor ctx s) : appMapIdOf ctx = s.appMapId.filter (· ≠ "") := by
  obtain ⟨rfl, config, layer, autoApply, hjob⟩ := h
  rw [appMapIdOf]
  obtain hid | hid := jobAppMapId_of_buildJob hjob
  · rw [hid, Option.or_none]
  · rw [hid, Option.or_self]

/-! ## What is left -/

theorem mem_enforced_appMap {a : AppMapRow} : a ∈ (enforced clientId policy now db .appMap).rows ↔
    a ∈ (db .appMap).rows ∧ (expiredAppMaps clientId policy now).holds a = false := by
  constructor
  · intro h
    obtain ⟨_, hbetween, hsecond, rfl⟩ := mem_sweep.mp h
    obtain ⟨a, ha, -, rfl⟩ := mem_sweep.mp hbetween
    exact ⟨ha, Bool.eq_false_iff.mpr fun h => hsecond (doomed_appMap_iff.mpr h)⟩
  · rintro ⟨ha, hfresh⟩
    have hbetween : a ∈ (sweep db (selecting Model.scan (expiredScans clientId policy now)) .appMap).rows :=
      mem_sweep.mpr ⟨a, ha, not_doomed_appMap, rfl⟩
    refine mem_sweep.mpr ⟨a, hbetween, fun h => ?_, rfl⟩
    rw [doomed_appMap_iff.mp h] at hfresh
    cases hfresh

/-- A live scan is left, and with it its reference, when the App Map has not expired. -/
theorem exists_enforced_scan (hs : s ∈ (db .scan).rows) (hlive : Live s)
    (hunused : ∀ a ∈ (db .appMap).rows,
      (expiredAppMaps clientId policy now).holds a = true → s.appMapId ≠ some a.id) :
    ∃ s' ∈ (enforced clientId policy now db .scan).rows, s'.id = s.id ∧ s'.appMapId = s.appMapId := by
  have hfirst : ¬Doomed db (selecting Model.scan (expiredScans clientId policy now)) .scan s := fun h =>
    hlive (of_decide_eq_true (holds_of_mem (doomed_scan_iff.mp h) (List.mem_cons_of_mem _ List.mem_cons_self)))
  have hbetween : release _ Model.scan s ∈
      (sweep db (selecting Model.scan (expiredScans clientId policy now)) .scan).rows :=
    mem_sweep.mpr ⟨s, hs, hfirst, rfl⟩
  refine ⟨_, mem_sweep.mpr ⟨_, hbetween, not_doomed_scan, rfl⟩, rfl, ?_⟩
  show (s.appMapId.filter _).filter _ = s.appMapId
  have hkept : ∀ id, s.appMapId = some id →
      goneKey db (selecting Model.scan (expiredScans clientId policy now)) (Model.appMap, id) = false := by
    refine fun id _ => Bool.eq_false_iff.mpr fun h => ?_
    obtain ⟨a, -, -, hdoomed⟩ := goneKey_iff.mp h
    exact not_doomed_appMap hdoomed
  have hkept' : ∀ id, s.appMapId = some id →
      goneKey (sweep db (selecting Model.scan (expiredScans clientId policy now)))
        (selecting Model.appMap (expiredAppMaps clientId policy now)) (Model.appMap, id) = false := by
    refine fun id hid => Bool.eq_false_iff.mpr fun h => ?_
    obtain ⟨a', ha', hkey, hdoomed⟩ := goneKey_iff.mp h
    obtain ⟨a, ha, -, rfl⟩ := mem_sweep.mp ha'
    exact hunused a ha (doomed_appMap_iff.mp hdoomed) (hid.trans (congrArg some hkey.symm))
  rcases hid : s.appMapId with _ | id
  · rfl
  · simp [hkept id hid, hkept' id hid]

/-! ## When live scans are spared -/

theorem holds_unusedAppMaps {a : AppMapRow} : (unusedAppMaps clientId policy now db).holds a = true ↔
    (expiredAppMaps clientId policy now).holds a = true ∧
      ∀ s ∈ (db .scan).rows, Live s → s.appMapId ≠ some a.id := by
  rw [unusedAppMaps, Where.holds, List.all_append, Bool.and_eq_true]
  refine and_congr_right fun _ => ?_
  rw [List.all_cons, List.all_nil, Bool.and_true, List.all_eq_true]
  refine forall₂_congr fun s _ => ?_
  rw [Bool.or_eq_true, Bool.not_eq_true', decide_eq_false_iff_not, decide_eq_true_iff, imp_iff_not_or]

/-- A run of the enforcer keeps its promise to live scans exactly when none of them refers to an App Map that has
expired, and what it deletes along with a row is the client's. -/
theorem spares_iff (clientId : ClientId) (policy : RetentionPolicy) (now : IsoDateTime) (db : Store) :
    ∃ result db', RetentionEnforcer.enforce clientId policy now db = .ok (result, db') ∧
      (Spares clientId policy now db db' ↔ Sparing clientId policy now db) := by
  obtain ⟨result, hrun⟩ := enforce_eq_ok
  refine ⟨result, _, hrun, ?_⟩
  constructor
  · intro h
    refine ⟨fun s hs hlive a ha hexpired hid => ?_, fun m r hr hdoomed => ?_⟩
    swap
    · exact (h.removed m r hr ((removed_iff hr).mpr hdoomed)).1
    -- The map is removed, so it should be unused.
    have hremoved := (removed_iff ha).mpr (.inr (doomed_appMap_iff.mpr hexpired))
    obtain hscan | hunused := (h.removed .appMap a ha hremoved).2
    · exact not_doomed_appMap hscan
    · exact (holds_unusedAppMaps.mp (doomed_appMap_iff.mp hunused)).2 s hs hlive hid
  · intro h
    refine ⟨fun s hs hlive => ?_, fun m r hr hremoved => ?_⟩
    · obtain ⟨s', hs', hid, hmap⟩ := exists_enforced_scan hs hlive (h.unused s hs hlive)
      refine ⟨s', hs', hid, fun ctx hctx hresolves => resolves_iff.mpr ?_⟩
      obtain hcached | ⟨a, ha, hfound, hclient⟩ := resolves_iff.mp hresolves
      · exact .inl hcached
      · have hsame : appMapIdOf { ctx with scan := s' } = appMapIdOf ctx := by
          rw [appMapIdOf, appMapIdOf, hctx.1, hmap]
          rfl
        have hfresh : (expiredAppMaps clientId policy now).holds a = false := Bool.eq_false_iff.mpr fun hexpired => ?_
        · exact .inr ⟨a, mem_enforced_appMap.mpr ⟨ha, hfresh⟩, hsame.trans hfound, hclient⟩
        rw [appMapIdOf_of_builtFor hctx] at hfound
        exact h.unused s hs hlive a ha hexpired (Option.filter_eq_some_iff.mp hfound).1
    · have hdoomed := (removed_iff hr).mp hremoved
      refine ⟨h.owned m r hr hdoomed, hdoomed.imp_right fun hmap => hmap.mono hr fun m a ha hselected => ?_⟩
      cases m
      case appMap =>
        exact holds_unusedAppMaps.mpr ⟨hselected, fun s hs hlive => h.unused s hs hlive a ha hselected⟩
      all_goals cases hselected

/-! ## A live scan that is not spared -/

section Example

/-- A paused scan that refers to an App Map of day 0. -/
private def pausedScan : Scan where
  id := "s"
  clientId := "c"
  appMapId := some "am"
  repo := "r"
  branch := "main"
  mode := .full
  scope := { mode := .full }
  status := .paused
  operator := "u"
  createdAt := 0

private def oldMap : AppMapRow where
  id := "am"
  clientId := "c"
  repo := "r"
  branch := "main"
  commitSha := ""
  languages := []
  taintFlows := []
  entrypoints := []
  envSecretSurfaces := []
  thirdPartyCalls := []
  dataStores := []
  ormModels := []
  threatModel := none
  stale := false
  createdAt := 0

/-- The client, its operator, the scan and the map. -/
private def oneScan : Store
  | .client => { rows := ["c"], nodup := List.pairwise_singleton _ _ }
  | .user => { rows := [{ id := "u", clientId := "c" }], nodup := List.pairwise_singleton _ _ }
  | .scan => { rows := [pausedScan], nodup := List.pairwise_singleton _ _ }
  | .appMap => { rows := [oldMap], nodup := List.pairwise_singleton _ _ }
  | m => Rows.empty m

/-- The default policy. -/
private def defaultPolicy : RetentionPolicy :=
  { scanDays := 90, appMapDays := 30, auditDays := 3650, auditImmutable := true }

/-- A Layer 2 job of the scan, in a process that has cached nothing. -/
private def resumedContext : LayerContext where
  scan := pausedScan
  job :=
    { scanId := "s"
      clientId := "c"
      idempotencyKey := buildIdempotencyKey "s" .layer2
      attempt := 0
      resumeTokenRef := some "s"
      payload := .layer2 }
  meter := 0
  signal := 0
  attempt := 0
  priorOutputs := fun _ => none

/-- After thirty days a paused scan has lost its App Map. -/
theorem paused_scan_loses_map :
    ∃ (clientId : ClientId) (policy : RetentionPolicy) (now : IsoDateTime) (db db' : Store)
      (result : RetentionResult),
      RetentionEnforcer.enforce clientId policy now db = .ok (result, db') ∧ ¬Spares clientId policy now db db' := by
  refine ⟨"c", defaultPolicy, 31 * 24 * 60 * 60 * 1000, oneScan, _, _, rfl, fun h => ?_⟩
  obtain ⟨s', -, -, hresolves⟩ := h.live pausedScan (List.mem_singleton.mpr rfl) (by decide)
  have hbuilt : BuiltFor resumedContext pausedScan := ⟨rfl, { clientId := "c" }, .layer2, none, by decide⟩
  have hbefore : Resolves resumedContext oneScan :=
    resolves_iff.mpr (.inr ⟨oldMap, List.mem_singleton.mpr rfl, by decide, rfl⟩)
  obtain hcached | ⟨a, ha, -⟩ := resolves_iff.mp (hresolves resumedContext hbuilt hbefore)
  · exact hcached rfl
  · obtain ⟨ha, hfresh⟩ := mem_enforced_appMap.mp ha
    rw [List.mem_singleton.mp ha] at hfresh
    revert hfresh
    decide

end Example

end MontrSecure.Tenancy
