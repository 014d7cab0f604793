import MontrSecure.Orchestrator.FixGate
import MontrSecure.Orchestrator.Runtime

/-!
# What a layer leaves in the store

`persistLayerOutput` run to its end with nothing in between. Layers 1, 2 and 3 insert rows and skip
those whose id is taken, so that a second application does nothing; Layer 0 and Layer 4 create rows,
which is rejected the second time; Layer 5 updates rows to the same values again
(`persistStored_twice_iff`).
-/

namespace MontrSecure

open Async Action

/-! ## Running alone -/

/-- Perform an operation on the database. Only those of the store do anything to it. -/
def storeAlone (now : IsoDateTime) (op : Op) (db : Database) : op.Ans × Database :=
  match op with
  | .store q =>
    match q.exec now db with
    | .ok (v, db') => (.ok v, db')
    | .error e => (.error e, db)
  | .runLayer _ => (.ok .malformed, db)
  | .schedulerStart | .enqueue .. | .publishKill _ | .sleep .. | .tick => (.ok (), db)

/-- `persistLayerOutput` at time `now` on `db`: the database after it, or what it failed with. -/
def persistStored (now : IsoDateTime) (clientId : ClientId) (out : LayerOutput) (scan : Scan)
    (m : Memory) (db : Database) : Except Err Database :=
  match (persistLayerOutput clientId out.layer (.wellFormed out) scan m).runAlone (storeAlone now) db with
  | (.ok (_, none), _, db') => .ok db'
  | (.ok (_, some e), _, _) | (.error e, _, _) => .error e

variable {now : IsoDateTime} {clientId : ClientId} {scan : Scan} {m : Memory} {db db' : Database}

/-- What is left of a run of writes: the database, or the error. -/
def stored {α : Type} : Except Err α × Memory × Database → Except Err Database
  | (.ok _, _, db) => .ok db
  | (.error e, _, _) => .error e

/-- An operation of the store, as a step on the database. -/
def StoreOp.step (now : IsoDateTime) (q : StoreOp) (db : Database) : Except Err Database :=
  (q.exec now db).map (·.2)

theorem runAlone_store (q : StoreOp) :
    (store q m).runAlone (storeAlone now) db =
      match q.exec now db with
      | .ok (v, db') => (.ok v, m, db')
      | .error e => (.error e, m, db) := by
  show (Outcome.bind _ _).runAlone _ _ = _
  rw [Outcome.runAlone_bind]
  simp only [Program.await_apply, Outcome.runAlone, storeAlone]
  cases q.exec now db <;> rfl

theorem stored_store (q : StoreOp) :
    stored ((store q m).runAlone (storeAlone now) db) = q.step now db := by
  rw [runAlone_store, StoreOp.step]
  cases q.exec now db <;> rfl

theorem stored_settle (p : Action Unit) :
    (match (settle scan p m).runAlone (storeAlone now) db with
      | (.ok (_, none), _, db') => .ok db'
      | (.ok (_, some e), _, _) | (.error e, _, _) => .error e) =
      stored ((p m).runAlone (storeAlone now) db) := by
  have hsettle : (settle scan p m).runAlone (storeAlone now) db =
      match (p m).runAlone (storeAlone now) db with
      | (.ok (), m', db') => (.ok (scan, none), m', db')
      | (.error e, m', db') => (.ok (scan, some e), m', db') := by
    show (Outcome.bind (Outcome.tryCatch (Outcome.bind _ _) _) _).runAlone _ _ = _
    rw [Outcome.runAlone_bind, Outcome.runAlone_tryCatch, Outcome.runAlone_bind]
    rcases (p m).runAlone (storeAlone now) db with ⟨⟨⟩ | ⟨⟩, m', db'⟩ <;> rfl
  rw [hsettle]
  rcases (p m).runAlone (storeAlone now) db with ⟨⟨⟩ | ⟨⟩, m', db'⟩ <;> rfl

/-- A sequence of writes, when what the rest does to the database does not depend on the memory. -/
theorem stored_then {α β : Type} (p : Action α) (q : Action β) (f : Database → Except Err Database)
    (hq : ∀ m db, stored ((q m).runAlone (storeAlone now) db) = f db) :
    stored (((p >>= fun _ => q) m).runAlone (storeAlone now) db) =
      (stored ((p m).runAlone (storeAlone now) db)).bind f := by
  rw [Program.bind_apply, Outcome.runAlone_bind]
  rcases (p m).runAlone (storeAlone now) db with ⟨e | a, m', db'⟩
  · rfl
  · exact hq m' db'

theorem stored_cacheOutput (scanId : ScanId) (out : LayerOutput) :
    stored ((cacheOutput scanId out m).runAlone (storeAlone now) db) = .ok db :=
  rfl

theorem stored_whenNonempty {α : Type} {rows : List α} {p : Action Unit}
    {f : Database → Except Err Database} (hnil : rows = [] → f db = .ok db)
    (hp : stored ((p m).runAlone (storeAlone now) db) = f db) :
    stored ((whenNonempty rows p m).runAlone (storeAlone now) db) = f db := by
  unfold whenNonempty
  split
  · rename_i hempty
    exact (hnil (List.isEmpty_iff.mp hempty)).symm
  · exact hp

theorem bind_ok (r : Except Err Database) : r.bind .ok = r := by
  cases r <;> rfl

/-! ## The writes of each layer -/

/-- The creation of the fixes, one after the other. -/
def createdFixes (now : IsoDateTime) (clientId : ClientId) (fixes : List Fix) (db : Database) :
    Except Err Database :=
  fixes.foldlM (fun db fix => (StoreOp.fixesCreate clientId fix).step now db) db

theorem stored_createFixes (fixes : List Fix) :
    stored ((createFixes clientId fixes m).runAlone (storeAlone now) db) =
      createdFixes now clientId fixes db := by
  induction fixes generalizing m db with
  | nil => rfl
  | cons fix fixes ih =>
    show stored (((store (.fixesCreate clientId fix) >>= fun _ => createFixes clientId fixes) m).runAlone
      (storeAlone now) db) = _
    rw [stored_then _ _ _ fun _ _ => ih, stored_store]
    rfl

/-- The link of a fix to a pull request. -/
def linkedFix (now : IsoDateTime) (clientId : ClientId) (link : EntityId × EntityId)
    (db : Database) : Except Err Database :=
  match FixRepository.get clientId link.2 db with
  | none => .ok db
  | some fix =>
    (StoreOp.fixesUpdate clientId { fix with status := .prOpen, pullRequestId := some link.1 }).step
      now db

theorem stored_linkFix (prId fixId : EntityId) :
    stored ((linkFix clientId prId fixId m).runAlone (storeAlone now) db) =
      linkedFix now clientId (prId, fixId) db := by
  have hget : (store (.fixesGet clientId fixId) m).runAlone (storeAlone now) db =
      (.ok (FixRepository.get clientId fixId db), m, db) := runAlone_store _
  rw [linkFix, Program.bind_apply, Outcome.runAlone_bind, hget, linkedFix]
  cases FixRepository.get clientId fixId db with
  | none => rfl
  | some fix =>
    show stored (((store (.fixesUpdate clientId _) >>= fun _ => pure ()) m).runAlone (storeAlone now) db) = _
    rw [stored_then _ _ Except.ok fun _ _ => rfl, stored_store, bind_ok]

theorem stored_linkFixes (links : List (EntityId × EntityId)) :
    stored ((linkFixes clientId links m).runAlone (storeAlone now) db) =
      links.foldlM (fun db link => linkedFix now clientId link db) db := by
  induction links generalizing m db with
  | nil => rfl
  | cons link links ih =>
    show stored (((linkFix clientId link.1 link.2 >>= fun _ => linkFixes clientId links) m).runAlone
      (storeAlone now) db) = _
    rw [stored_then _ _ _ fun _ _ => ih, stored_linkFix]
    rfl

theorem parse_wellFormed (out : LayerOutput) :
    (RawOutput.wellFormed out).parse out.layer = .ok out :=
  if_pos rfl

/-- The writes of an output, as a step on the database. -/
def written (now : IsoDateTime) (clientId : ClientId) (scan : Scan) :
    LayerOutput → Database → Except Err Database
  | .layer0 out, db =>
    ((StoreOp.appMapsCreate clientId out.appMap).step now db).bind
      ((StoreOp.scansUpdate clientId (scanAfterIntake scan out)).step now)
  | .layer1 out, db => (StoreOp.candidatesBulkCreate clientId out.candidates).step now db
  | .layer2 out, db => (StoreOp.probableBulkCreate clientId out.probable).step now db
  | .layer3 out, db =>
    ((StoreOp.confirmedBulkCreate clientId out.confirmed).step now db).bind
      ((StoreOp.unconfirmedBulkCreate clientId out.unconfirmed).step now)
  | .layer4 out, db => createdFixes now clientId out.fixes db
  | .layer5 out, db =>
    (fixLinks out.pullRequests).foldlM (fun db link => linkedFix now clientId link db) db

/-- What `persistLayerOutput` leaves are the writes of the output. -/
theorem persistStored_eq (out : LayerOutput) :
    persistStored now clientId out scan m db = written now clientId scan out db := by
  have hlast : ∀ (p : Action Unit) (f : Database → Except Err Database) (scanId : ScanId)
      (out : LayerOutput), (∀ m db, stored ((p m).runAlone (storeAlone now) db) = f db) →
      ∀ m db, stored (((p >>= fun _ => cacheOutput scanId out) m).runAlone (storeAlone now) db) = f db := by
    intro p f scanId out hp m db
    rw [stored_then p _ Except.ok fun _ _ => stored_cacheOutput scanId out, hp, bind_ok]
  unfold persistStored persistLayerOutput
  rw [parse_wellFormed]
  cases out with
  | layer0 out =>
    have hattempt : (attempt (store (.appMapsCreate clientId out.appMap)) m).runAlone (storeAlone now) db =
        match StoreOp.exec now (.appMapsCreate clientId out.appMap) db with
        | .ok (v, db') => (.ok (.ok v), m, db')
        | .error e => (.ok (.error e), m, db) := by
      show (Outcome.tryCatch (Outcome.bind _ _) _).runAlone _ _ = _
      rw [Outcome.runAlone_tryCatch, Outcome.runAlone_bind, runAlone_store]
      cases StoreOp.exec now (.appMapsCreate clientId out.appMap) db <;> rfl
    simp only [Program.bind_apply, Outcome.runAlone_bind, hattempt, written, StoreOp.step]
    cases StoreOp.exec now (.appMapsCreate clientId out.appMap) db with
    | error e => rfl
    | ok r =>
      refine (stored_settle _).trans ?_
      rw [stored_then _ _ Except.ok fun _ _ => stored_cacheOutput _ _, stored_store, bind_ok]
      rfl
  | layer1 out =>
    exact (stored_settle _).trans (hlast _ ((StoreOp.candidatesBulkCreate clientId out.candidates).step now)
      _ _ (fun _ _ => stored_whenNonempty (fun h => by rw [h]; rfl) (stored_store _)) m db)
  | layer2 out =>
    exact (stored_settle _).trans (hlast _ ((StoreOp.probableBulkCreate clientId out.probable).step now)
      _ _ (fun _ _ => stored_whenNonempty (fun h => by rw [h]; rfl) (stored_store _)) m db)
  | layer3 out =>
    have hconfirmed : stored ((whenNonempty out.confirmed
        (store (.confirmedBulkCreate clientId out.confirmed)) m).runAlone (storeAlone now) db) =
        (StoreOp.confirmedBulkCreate clientId out.confirmed).step now db :=
      stored_whenNonempty (fun h => by rw [h]; rfl) (stored_store _)
    refine (stored_settle _).trans ?_
    rw [stored_then _ _ _ (hlast _ ((StoreOp.unconfirmedBulkCreate clientId out.unconfirmed).step now) _ _
      fun _ _ => stored_whenNonempty (fun h => by rw [h]; rfl) (stored_store _)), hconfirmed]
    rfl
  | layer4 out =>
    exact (stored_settle _).trans (hlast _ _ _ _ (fun _ _ => stored_createFixes out.fixes) m db)
  | layer5 out =>
    exact (stored_settle _).trans (hlast _ _ _ _ (fun _ _ => stored_linkFixes _) m db)

/-! ## Repeating the writes -/

/-- A row of `Fix` without the time it was last written, which the database stamps. -/
def stampless (f : Fix) : Fix := { f with updatedAt := none }

/-- The same rows, up to the time fixes were last written. -/
def SameRows (db db' : Database) : Prop :=
  { db' with fixes := db.fixes } = db ∧
    db'.fixes.rows.map stampless = db.fixes.rows.map stampless

theorem SameRows.rfl : SameRows db db := ⟨Eq.refl db, Eq.refl _⟩

/-- Inserting findings again changes nothing. -/
theorem bulkCreate_bulkCreate {ρ : Type} {key : ρ → EntityId} {scanOf : ρ → ScanId} {rows : List ρ}
    {table table' : Table key} (h : FindingRepo.bulkCreate scanOf rows table db = .ok table') :
    FindingRepo.bulkCreate scanOf rows table' db' = .ok table' := by
  unfold FindingRepo.bulkCreate at h
  split at h
  · cases h
    have htaken : ∀ r ∈ rows, (table.insertMissing rows).contains (key r) = true :=
      fun _ hr => Table.contains_insertMissing_of_mem hr
    unfold FindingRepo.bulkCreate
    rw [Table.insertMissing_insertMissing, if_pos]
    rw [List.all_eq_true]
    intro r hr
    rw [htaken r hr, Bool.true_or]
  · cases h

/-! ### Links -/

/-- The fix of a link is there for the client. -/
def HasFix (clientId : ClientId) (fixId : EntityId) (db : Database) : Prop :=
  ∃ f ∈ db.fixes.rows, f.id = fixId ∧ f.clientId = clientId

/-- A link that is not rejected: the pull request is there if the fix is. -/
def Linkable (clientId : ClientId) (link : EntityId × EntityId) (db : Database) : Prop :=
  HasFix clientId link.2 db → db.pullRequests.contains link.1 = true

/-- What a link does to a row. -/
def linkRow (now : IsoDateTime) (clientId : ClientId) (f : Fix) (link : EntityId × EntityId) : Fix :=
  if f.id = link.2 ∧ f.clientId = clientId then
    { f with status := .prOpen, pullRequestId := some link.1, updatedAt := some now }
  else f

@[simp]
theorem linkRow_id (f : Fix) (link : EntityId × EntityId) :
    (linkRow now clientId f link).id = f.id := by
  unfold linkRow
  split <;> rfl

@[simp]
theorem linkRow_clientId (f : Fix) (link : EntityId × EntityId) :
    (linkRow now clientId f link).clientId = f.clientId := by
  unfold linkRow
  split <;> rfl

theorem hasFix_iff {fixId : EntityId} :
    HasFix clientId fixId db ↔ (FixRepository.get clientId fixId db).isSome = true := by
  rw [FixRepository.get]
  constructor
  · rintro ⟨f, hf, rfl, rfl⟩
    rw [Table.get?_of_mem hf]
    simp
  · intro h
    obtain ⟨f, hf⟩ := Option.isSome_iff_exists.mp h
    rw [Option.filter_eq_some_iff, decide_eq_true_eq] at hf
    exact ⟨f, Table.mem_of_get? hf.1, Table.key_of_get? hf.1, hf.2⟩

/-- Linking a fix that is not there leaves the rows. -/
theorem map_linkRow_of_not_hasFix {link : EntityId × EntityId}
    (h : ¬HasFix clientId link.2 db) :
    db.fixes.rows.map (linkRow now clientId · link) = db.fixes.rows := by
  rw [List.map_congr_left, List.map_id]
  intro f hf
  exact if_neg fun hlink => h ⟨f, hf, hlink⟩

/-- Linking a fix that is there rewrites its row. -/
theorem rows_replace_linked {link : EntityId × EntityId} {row : Fix}
    (hget : FixRepository.get clientId link.2 db = some row) :
    (db.fixes.replace (fixToUpdate row now
      { row with status := .prOpen, pullRequestId := some link.1 })).rows =
      db.fixes.rows.map (linkRow now clientId · link) := by
  rw [FixRepository.get, Option.filter_eq_some_iff, decide_eq_true_eq] at hget
  have hid : row.id = link.2 := Table.key_of_get? hget.1
  have hrow : row ∈ db.fixes.rows := Table.mem_of_get? hget.1
  refine List.map_congr_left fun f hf => ?_
  show (if f.id = row.id then _ else f) = linkRow now clientId f link
  by_cases hfid : f.id = row.id
  · have hfrow : f = row := List.inj_on_of_nodup_map db.fixes.nodup hf hrow hfid
    subst hfrow
    rw [if_pos rfl, linkRow, if_pos ⟨hid, hget.2⟩]
    rfl
  · rw [if_neg hfid, linkRow, if_neg fun h => hfid (h.1.trans hid.symm)]

/-- A link that is linkable rewrites the rows of its fix and changes nothing else; another is
rejected. -/
theorem linkedFix_spec (now : IsoDateTime) (clientId : ClientId) (db : Database)
    (link : EntityId × EntityId) :
    (Linkable clientId link db ∧ ∃ db', linkedFix now clientId link db = .ok db' ∧
        { db' with fixes := db.fixes } = db ∧
        db'.fixes.rows = db.fixes.rows.map (linkRow now clientId · link)) ∨
      ¬Linkable clientId link db ∧ ∃ e, linkedFix now clientId link db = .error e := by
  unfold linkedFix Linkable
  rw [hasFix_iff]
  cases hget : FixRepository.get clientId link.2 db with
  | none =>
    refine .inl ⟨by simp, db, rfl, rfl, ?_⟩
    rw [map_linkRow_of_not_hasFix]
    rw [hasFix_iff, hget]
    simp
  | some row =>
    have hid : row.id = link.2 := by
      rw [FixRepository.get, Option.filter_eq_some_iff] at hget
      exact Table.key_of_get? hget.1
    have hget' : FixRepository.get clientId row.id db = some row := by rw [hid, hget]
    simp only [StoreOp.step, StoreOp.exec, FixRepository.update, hget', Option.all_some]
    by_cases hpr : db.pullRequests.contains link.1 = true
    · rw [if_pos hpr]
      exact .inl ⟨fun _ => hpr, _, rfl, rfl, rows_replace_linked hget⟩
    · rw [if_neg hpr]
      exact .inr ⟨fun h => hpr (h rfl), _, rfl⟩

/-- What a run of links does to a row. -/
def linkRows (now : IsoDateTime) (clientId : ClientId) (links : List (EntityId × EntityId))
    (f : Fix) : Fix :=
  links.foldl (linkRow now clientId) f

/-- Linking keeps which fixes there are. -/
theorem hasFix_map_linkRow {fixId : EntityId} {link : EntityId × EntityId}
    (h : db'.fixes.rows = db.fixes.rows.map (linkRow now clientId · link)) :
    HasFix clientId fixId db' ↔ HasFix clientId fixId db := by
  simp [HasFix, h]

/-- A link does not change what is linkable. -/
theorem linkable_of_linked {link link' : EntityId × EntityId}
    (hframe : { db' with fixes := db.fixes } = db)
    (hrows : db'.fixes.rows = db.fixes.rows.map (linkRow now clientId · link)) :
    Linkable clientId link' db' ↔ Linkable clientId link' db := by
  have hpr : db'.pullRequests = db.pullRequests := by rw [← hframe]
  rw [Linkable, Linkable, hasFix_map_linkRow hrows, hpr]

/-- The links of an output, one after the other: all linkable, or one is rejected. -/
theorem linkedFixes_spec (now : IsoDateTime) (clientId : ClientId)
    (links : List (EntityId × EntityId)) (db : Database) :
    ((∀ link ∈ links, Linkable clientId link db) ∧
      ∃ db', links.foldlM (fun db link => linkedFix now clientId link db) db = .ok db' ∧
        { db' with fixes := db.fixes } = db ∧
        db'.fixes.rows = db.fixes.rows.map (linkRows now clientId links)) ∨
      (¬∀ link ∈ links, Linkable clientId link db) ∧
        ∃ e, links.foldlM (fun db link => linkedFix now clientId link db) db = .error e := by
  induction links generalizing db with
  | nil => exact .inl ⟨by simp, db, rfl, rfl, (List.map_id _).symm⟩
  | cons link links ih =>
    rw [List.foldlM_cons]
    obtain ⟨hlink, db₁, h₁, hframe₁, hrows₁⟩ | ⟨hlink, e, he⟩ :=
      linkedFix_spec now clientId db link
    · rw [h₁]
      have hlater : (∀ l ∈ links, Linkable clientId l db₁) ↔ ∀ l ∈ links, Linkable clientId l db :=
        forall₂_congr fun _ _ => linkable_of_linked hframe₁ hrows₁
      obtain ⟨hlinks, db₂, h₂, hframe₂, hrows₂⟩ | ⟨hlinks, e, he⟩ := ih db₁
      · refine .inl ⟨List.forall_mem_cons.mpr ⟨hlink, hlater.mp hlinks⟩, db₂, h₂, ?_, ?_⟩
        · rw [← hframe₁, ← hframe₂]
        · rw [hrows₂, hrows₁, List.map_map]
          rfl
      · exact .inr ⟨fun h => hlinks (hlater.mpr (List.forall_mem_cons.mp h).2), e, he⟩
    · rw [he]
      exact .inr ⟨fun h => hlink (List.forall_mem_cons.mp h).1, e, rfl⟩

/-- The pull request the last link of a fix is to. -/
def lastLink (clientId : ClientId) (links : List (EntityId × EntityId)) (f : Fix) :
    Option EntityId :=
  ((links.filter fun link => f.id = link.2 ∧ f.clientId = clientId).getLast?).map (·.1)

/-- Of the links of a fix the last one stays. -/
theorem linkRows_eq (links : List (EntityId × EntityId)) (f : Fix) :
    linkRows now clientId links f =
      match lastLink clientId links f with
      | none => f
      | some prId => { f with status := .prOpen, pullRequestId := some prId, updatedAt := some now } := by
  induction links using List.reverseRecOn with
  | nil => rfl
  | append_singleton links link ih =>
    have hsnoc : linkRows now clientId (links ++ [link]) f =
        linkRow now clientId (linkRows now clientId links f) link := List.foldl_append
    have hid : (linkRows now clientId links f).id = f.id := by
      rw [ih]
      split <;> rfl
    have hclient : (linkRows now clientId links f).clientId = f.clientId := by
      rw [ih]
      split <;> rfl
    rw [hsnoc, linkRow, hid, hclient, lastLink, List.filter_append]
    by_cases hlink : f.id = link.2 ∧ f.clientId = clientId
    · rw [if_pos hlink, ih]
      simp only [hlink, and_self, decide_true, List.filter_cons_of_pos, List.filter_nil,
        List.getLast?_append, List.getLast?_singleton, Option.some_or, Option.map_some]
      split <;> rfl
    · rw [if_neg hlink, ih, lastLink]
      simp [hlink]

example : lastLink demoFix.clientId [("first", demoFix.id), ("second", demoFix.id)] demoFix = some "second" := by
  decide +kernel

/-- Linking again leaves what the links say. -/
theorem stampless_linkRows_linkRows {now' : IsoDateTime} (links : List (EntityId × EntityId))
    (f : Fix) :
    stampless (linkRows now' clientId links (linkRows now clientId links f)) =
      stampless (linkRows now clientId links f) := by
  have hlast : lastLink clientId links (linkRows now clientId links f) = lastLink clientId links f := by
    rw [linkRows_eq]
    split <;> rfl
  rw [linkRows_eq links (linkRows now clientId links f), hlast, linkRows_eq links f]
  cases lastLink clientId links f <;> rfl

/-! ### Layers -/

/-- The client has a map of the repository at the commit. -/
def hasAppMap (clientId : ClientId) (appMap : AppMap) (db : Database) : Bool :=
  db.appMaps.rows.any fun m =>
    m.clientId = clientId && m.repo = appMap.repo && m.commitSha = appMap.commitSha

theorem appMapsCreate_of_hasAppMap {appMap : AppMap} (h : hasAppMap clientId appMap db = true) :
    AppMapRepository.create clientId appMap db = .error uniqueConstraintError :=
  if_pos h

theorem hasAppMap_of_create {appMap v : AppMap}
    (h : AppMapRepository.create clientId appMap db = .ok (v, db')) :
    hasAppMap clientId appMap db' = true := by
  simp only [AppMapRepository.create] at h
  split at h
  · cases h
  · split at h
    · rename_i appMaps _ _ _ hmaps _ _ _
      obtain ⟨hfresh, rfl⟩ := Table.insert?_eq_some_iff.mp hmaps
      cases h
      rw [hasAppMap, Table.rows_insertNew hfresh, List.any_append]
      simp [appMapScalarsToCreate]
    · cases h

theorem appMaps_of_scansUpdate (h : (StoreOp.scansUpdate clientId scan).step now db = .ok db') :
    db'.appMaps = db.appMaps := by
  simp only [StoreOp.step, StoreOp.exec, ScanRepository.update] at h
  split at h
  · cases h
  · split at h
    · cases h
      rfl
    · cases h

/-- The map of a commit is created once. -/
theorem written_layer0_twice {out : Layer0Output} {now' : IsoDateTime} {scan' : Scan}
    (h : written now clientId scan (.layer0 out) db = .ok db') :
    written now' clientId scan' (.layer0 out) db' = .error uniqueConstraintError := by
  simp only [written, StoreOp.step] at h ⊢
  cases hcreate : (StoreOp.appMapsCreate clientId out.appMap).exec now db with
  | error e =>
    rw [hcreate] at h
    cases h
  | ok r =>
    rw [hcreate] at h
    have hhas : hasAppMap clientId out.appMap db' = true := by
      rw [hasAppMap, appMaps_of_scansUpdate h]
      exact hasAppMap_of_create hcreate
    show Except.bind (Except.map _ (AppMapRepository.create clientId out.appMap db')) _ = _
    rw [appMapsCreate_of_hasAppMap hhas]
    rfl

theorem fixes_of_fixesCreate {fix : Fix}
    (h : (StoreOp.fixesCreate clientId fix).step now db = .ok db') :
    db'.fixes = db.fixes.insertNew (fixToCreate clientId now fix) := by
  simp only [StoreOp.step, StoreOp.exec, FixRepository.create] at h
  split at h
  · cases h
  · rename_i fixes hinsert
    obtain ⟨-, rfl⟩ := Table.insert?_eq_some_iff.mp hinsert
    split at h
    · cases h
      rfl
    · cases h

theorem fixesCreate_of_contains {fix : Fix} (h : db.fixes.contains fix.id = true) :
    (StoreOp.fixesCreate clientId fix).step now db = .error uniqueConstraintError := by
  have hinsert : db.fixes.insert? (fixToCreate clientId now fix) = none :=
    Table.insert?_eq_none_iff.mpr h
  simp only [StoreOp.step, StoreOp.exec, FixRepository.create, hinsert, Except.map]

/-- Creating fixes keeps those there are. -/
theorem contains_of_createdFixes {fixes : List Fix} {id : EntityId}
    (h : createdFixes now clientId fixes db = .ok db') (hid : db.fixes.contains id = true) :
    db'.fixes.contains id = true := by
  induction fixes generalizing db with
  | nil =>
    cases h
    exact hid
  | cons fix fixes ih =>
    rw [createdFixes, List.foldlM_cons] at h
    cases hfix : (StoreOp.fixesCreate clientId fix).step now db with
    | error e =>
      rw [hfix] at h
      cases h
    | ok db₁ =>
      rw [hfix] at h
      refine ih h ?_
      rw [fixes_of_fixesCreate hfix, Table.contains_insertNew, hid, Bool.true_or]

/-- A fix is created once. -/
theorem createdFixes_twice {fix : Fix} {fixes : List Fix} {now' : IsoDateTime}
    (h : createdFixes now clientId (fix :: fixes) db = .ok db') :
    createdFixes now' clientId (fix :: fixes) db' = .error uniqueConstraintError := by
  have htaken : db'.fixes.contains fix.id = true := by
    rw [createdFixes, List.foldlM_cons] at h
    cases hfix : (StoreOp.fixesCreate clientId fix).step now db with
    | error e =>
      rw [hfix] at h
      cases h
    | ok db₁ =>
      rw [hfix] at h
      refine contains_of_createdFixes h ?_
      rw [fixes_of_fixesCreate hfix, Table.contains_insertNew]
      simp [fixToCreate]
  rw [createdFixes, List.foldlM_cons, fixesCreate_of_contains htaken]
  rfl

/-- The links of pull requests are made again. -/
theorem linkedFixes_twice {links : List (EntityId × EntityId)} {now' : IsoDateTime}
    (h : links.foldlM (fun db link => linkedFix now clientId link db) db = .ok db') :
    ∃ db₂, links.foldlM (fun db link => linkedFix now' clientId link db) db' = .ok db₂ ∧
      SameRows db' db₂ := by
  obtain ⟨hlinkable, db₁, h₁, hframe₁, hrows₁⟩ | ⟨-, e, he⟩ :=
    linkedFixes_spec now clientId links db
  · rw [h] at h₁
    cases h₁
    have hpr : db'.pullRequests = db.pullRequests := by rw [← hframe₁]
    have hfix : ∀ fixId, HasFix clientId fixId db' ↔ HasFix clientId fixId db := by
      intro fixId
      have hids : ∀ f, (linkRows now clientId links f).id = f.id ∧
          (linkRows now clientId links f).clientId = f.clientId := by
        intro f
        rw [linkRows_eq]
        split <;> exact ⟨rfl, rfl⟩
      simp [HasFix, hrows₁, hids]
    obtain ⟨-, db₂, h₂, hframe₂, hrows₂⟩ | ⟨hreject, -⟩ :=
      linkedFixes_spec now' clientId links db'
    · refine ⟨db₂, h₂, hframe₂, ?_⟩
      rw [hrows₂, hrows₁, List.map_map, List.map_map, List.map_map]
      exact List.map_congr_left fun f _ => stampless_linkRows_linkRows links f
    · refine absurd (fun link hlink => ?_) hreject
      rw [Linkable, hfix, hpr]
      exact hlinkable link hlink
  · rw [h] at he
    cases he

theorem map_map_eq_ok {α β : Type} {r : Except Err α} {f : α → β × Database} :
    Except.map (·.2) (Except.map f r) = .ok db' ↔ ∃ a, r = .ok a ∧ (f a).2 = db' := by
  cases r <;> simp [Except.map]

/-- The operations that insert findings, skipping those whose id is taken. -/
def StoreOp.insertsMissing : StoreOp → Bool
  | candidatesBulkCreate .. | probableBulkCreate .. | confirmedBulkCreate ..
  | unconfirmedBulkCreate .. => true
  | _ => false

/-- Inserting findings again changes nothing. -/
theorem step_twice {q : StoreOp} {now' : IsoDateTime} (hq : q.insertsMissing = true)
    (h : q.step now db = .ok db') : q.step now' db' = .ok db' := by
  cases q with
  | candidatesBulkCreate clientId findings | probableBulkCreate clientId findings
  | confirmedBulkCreate clientId findings | unconfirmedBulkCreate clientId findings =>
    obtain ⟨table, htable, rfl⟩ := map_map_eq_ok.mp h
    exact map_map_eq_ok.mpr ⟨table, bulkCreate_bulkCreate htable, rfl⟩
  | _ => cases hq

/-- What the writes of an output leave, when none of them creates a row. -/
theorem written_twice {out : LayerOutput} {now' : IsoDateTime} {scan' : Scan}
    (h : written now clientId scan out db = .ok db') (h₀ : out.layer ≠ .layer0)
    (h₄ : ∀ o, out = .layer4 o → o.fixes = []) :
    ∃ db₂, written now' clientId scan' out db' = .ok db₂ ∧ SameRows db' db₂ := by
  cases out with
  | layer0 out => exact absurd rfl h₀
  | layer1 out => exact ⟨db', step_twice rfl h, .rfl⟩
  | layer2 out => exact ⟨db', step_twice rfl h, .rfl⟩
  | layer3 out =>
    rw [written] at h
    cases hconfirmed : (StoreOp.confirmedBulkCreate clientId out.confirmed).step now db with
    | error e =>
      rw [hconfirmed] at h
      cases h
    | ok db₁ =>
      rw [hconfirmed] at h
      -- unconfirmed findings go to another table than confirmed ones
      have hagain : (StoreOp.confirmedBulkCreate clientId out.confirmed).step now' db' = .ok db' := by
        obtain ⟨confirmed, htable, rfl⟩ := map_map_eq_ok.mp hconfirmed
        obtain ⟨probable, -, rfl⟩ := map_map_eq_ok.mp h
        exact map_map_eq_ok.mpr ⟨confirmed, bulkCreate_bulkCreate htable, rfl⟩
      refine ⟨db', ?_, .rfl⟩
      rw [written, hagain]
      exact step_twice rfl h
  | layer4 out =>
    refine ⟨db', ?_, .rfl⟩
    rw [written, h₄ out rfl]
    rfl
  | layer5 out => exact linkedFixes_twice h

/-- Applying an output again succeeds and leaves the rows, for the layers that insert, skipping what
is there, or update; a map, or a fix, cannot be created again. -/
theorem persistStored_twice_iff {out : LayerOutput} {now' : IsoDateTime} {scan' : Scan} {m' : Memory}
    (h : persistStored now clientId out scan m db = .ok db') :
    (∃ db₂, persistStored now' clientId out scan' m' db' = .ok db₂ ∧ SameRows db' db₂) ↔
      out.layer ≠ .layer0 ∧ ∀ o, out = .layer4 o → o.fixes = [] := by
  rw [persistStored_eq] at h
  simp only [persistStored_eq]
  constructor
  · rintro ⟨db₂, h₂, -⟩
    constructor
    · intro h₀
      cases out with
      | layer0 out =>
        rw [written_layer0_twice h] at h₂
        cases h₂
      | _ => cases h₀
    · rintro out rfl
      cases hfixes : out.fixes with
      | nil => rfl
      | cons fix fixes =>
        rw [written, hfixes] at h h₂
        rw [createdFixes_twice h] at h₂
        cases h₂
  · exact fun ⟨h₀, h₄⟩ => written_twice h h₀ h₄

/-- The scan of the replays, in the store. -/
def demoDatabase : Database :=
  { scans := Table.empty.insertNew (newScan demoInput "scan" 0) }

example : demoDatabase.fixes.contains "fix" = false := by decide +kernel

theorem exists_ok {α : Type} {r : Except Err α} (h : r.isOk = true) : ∃ a, r = .ok a := by
  cases r with
  | ok a => exact ⟨a, rfl⟩
  | error e => cases h

/-- Confirmed findings are inserted twice. -/
theorem persistStored_twice_findings :
    ∃ db', persistStored 0 "acme" (.layer3 { confirmed := [demoFinding] })
        (newScan demoInput "scan" 0) {} demoDatabase = .ok db' ∧
      ((∃ db₂, persistStored 1 "acme" (.layer3 { confirmed := [demoFinding] })
          (newScan demoInput "scan" 0) {} db' = .ok db₂ ∧ SameRows db' db₂) ↔
        LayerId.layer3 ≠ .layer0 ∧
          ∀ o, LayerOutput.layer3 { confirmed := [demoFinding] } = .layer4 o → o.fixes = []) := by
  obtain ⟨db', h⟩ := exists_ok (r := persistStored 0 "acme" (.layer3 { confirmed := [demoFinding] })
    (newScan demoInput "scan" 0) {} demoDatabase) (by decide +kernel)
  exact ⟨db', h, persistStored_twice_iff h⟩

/-- The output of Layer 0 is not stored twice: after a crash before the checkpoint, the scan cannot
be resumed. -/
theorem persistStored_intake_twice :
    ¬∀ (now now' : IsoDateTime) (clientId : ClientId) (out : LayerOutput) (scan scan' : Scan)
      (m m' : Memory) (db db' : Database), persistStored now clientId out scan m db = .ok db' →
      ∃ db₂, persistStored now' clientId out scan' m' db' = .ok db₂ ∧ SameRows db' db₂ := by
  intro hall
  obtain ⟨db', h⟩ := exists_ok (r := persistStored 0 "acme" demoIntake
    (newScan demoInput "scan" 0) {} demoDatabase) (by decide +kernel)
  obtain ⟨db₂, h₂, -⟩ := hall 0 1 "acme" demoIntake (newScan demoInput "scan" 0)
    (newScan demoInput "scan" 0) {} {} demoDatabase db' h
  rw [persistStored_eq] at h h₂
  rw [demoIntake, written_layer0_twice h] at h₂
  cases h₂

end MontrSecure
