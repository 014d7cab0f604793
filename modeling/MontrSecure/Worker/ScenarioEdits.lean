import MontrSecure.Worker.ScenarioProtocol

/-!
# Edits of scenarios

`PUT` and `authorize` read a scenario, and later write the whole row with a version they have computed from
what they have read. Nothing compares the version that is stored with the one that was read, so that two
requests that overlap write the same version. As long as every request that writes still finds the version
it has read, versions grow with every edit, and say which content is stored.
-/

namespace MontrSecure

open Async

/-! ## Content -/

/-- What an edit gives a scenario. -/
structure ScenarioContent where
  name : String
  category : RedTeamCategory
  steps : List RedTeamStep
  targetAllowlistRef : String
  enabled : Bool
  version : ℕ

/-- The content of a scenario. -/
def RedTeamScenario.content (s : RedTeamScenario) : ScenarioContent :=
  { name := s.name, category := s.category, steps := s.steps, targetAllowlistRef := s.targetAllowlistRef
    enabled := s.enabled, version := s.version }

@[simp]
theorem content_scenarioWritten (s row : RedTeamScenario) : (scenarioWritten s row).content = s.content := rfl

@[simp]
theorem content_authorizedScenario (existing : RedTeamScenario) (user : AuthenticatedUser)
    (body : AuthorizeScenarioBody) (now : IsoDateTime) :
    (authorizedScenario existing user body now).content = existing.content := rfl

@[simp]
theorem content_scenarioFromRow (row : RedTeamScenario) : (scenarioFromRow row).content = row.content := rfl

/-- The second content is a later one than the first, or the same. -/
def ScenarioContent.upTo (a b : ScenarioContent) : Prop := a.version < b.version ∨ a = b

theorem ScenarioContent.upTo.refl (a : ScenarioContent) : a.upTo a := .inr rfl

theorem ScenarioContent.upTo.trans {a b c : ScenarioContent} (hab : a.upTo b) (hbc : b.upTo c) :
    a.upTo c := by
  obtain hab | rfl := hab
  · obtain hbc | rfl := hbc
    · exact .inl (hab.trans hbc)
    · exact .inl hab
  · exact hbc

theorem ScenarioContent.upTo.version_le {a b : ScenarioContent} (h : a.upTo b) : a.version ≤ b.version := by
  obtain h | rfl := h
  · exact h.le
  · exact le_refl _

/-- Under one version there is one content. -/
theorem ScenarioContent.upTo.eq_of_version_eq {a b : ScenarioContent} (h : a.upTo b)
    (hversion : a.version = b.version) : a = b := by
  obtain h | h := h
  · omega
  · exact h

/-! ## What a step does to the content -/

/-- The content that is stored under an id. -/
def ScenarioConfig.content (cfg : ScenarioConfig) (id : EntityId) : Option ScenarioContent :=
  (cfg.world.table.get? id).map RedTeamScenario.content

/-- Task `n` has read the scenario. -/
def ScenarioConfig.Read (cfg : ScenarioConfig) (n : ℕ) (existing : RedTeamScenario) : Prop :=
  ∃ task, cfg.tasks[n]? = some task ∧ ∃ m c id, ⟨m, .get c id, .ok (some existing)⟩ ∈ task.trace

/-- Only `PUT` and `authorize` are called. -/
def EditsOnly (e : ScenarioEvent) : Prop :=
  ∀ n call, e = .entered n call →
    (∃ session id body, call = .put session id body) ∨ ∃ session id body, call = .authorize session id body

/-- A request that writes a scenario finds the version stored that it has read. -/
def EditCurrent (cfg : ScenarioConfig) (e : ScenarioEvent) : Prop :=
  ∀ n call c s saved, e = .performed n call (.update c s) (.ok saved) → ∀ existing, cfg.Read n existing →
    ∀ content, cfg.content s.id = some content → content.version = existing.version

/-- No version decreases, and the version of a scenario increases with every `PUT`. -/
structure VersionsGrow (cfg : ScenarioConfig) (e : ScenarioEvent) (cfg' : ScenarioConfig) : Prop where
  le : ∀ id content content', cfg.content id = some content → cfg'.content id = some content' →
    content.version ≤ content'.version
  lt : ∀ n session id body c s saved content content',
    e = .performed n (.put session id body) (.update c s) (.ok saved) →
      cfg.content s.id = some content → cfg'.content s.id = some content' →
        content.version < content'.version

variable {deps : ScenarioDeps} {cfg cfg' : ScenarioConfig} {e : ScenarioEvent}

/-- What an update writes, and what was read for it. -/
theorem content_of_update {n : ℕ} {call : ScenarioCall} {c : ClientId} {s saved : RedTeamScenario}
    (hlawful : cfg.Lawful (scenarioProtocol deps))
    (hstep : Step (scenarioSystem deps) cfg (.performed n call (.update c s) (.ok saved)) cfg') :
    (∃ old, cfg.content s.id = some old) ∧
      (∀ id, cfg'.content id = if s.id = id then some s.content else cfg.content id) ∧
        ∃ existing, cfg.Read n existing ∧ (∀ existing', cfg.Read n existing' → existing' = existing) ∧
          existing.id = s.id ∧ ScenarioWrite call existing s := by
  obtain ⟨_, _, _, ch, _, _, _, hperform⟩ := hstep.performed_inv
  obtain ⟨old, hold, -, -, hget⟩ := update_of_performScenario hperform
  refine ⟨⟨old.content, ?_⟩, fun id => ?_, ?_⟩
  · rw [ScenarioConfig.content, hold]
    rfl
  · rw [ScenarioConfig.content, hget]
    split
    · rfl
    · rfl
  obtain ⟨task, m, k, m₀, htask, -, -, existing, ⟨m', htrace⟩, hwrite⟩ := hstep.awaited hlawful
  refine ⟨existing, ⟨task, htask, m', c, existing.id, ?_⟩, ?_, ?_, hwrite⟩
  · rw [htrace]
    exact List.mem_singleton_self _
  · rintro existing' ⟨task', htask', m'', c', id', hmem⟩
    cases htask.symm.trans htask'
    rw [htrace] at hmem
    cases List.mem_singleton.mp hmem
    rfl
  · cases hwrite <;> rfl

/-- A step that finds a scenario finds what is stored. -/
theorem content_of_get {n : ℕ} {call : ScenarioCall} {c : ClientId} {id : EntityId} {existing : RedTeamScenario}
    (hstep : Step (scenarioSystem deps) cfg (.performed n call (.get c id) (.ok (some existing))) cfg') :
    cfg.content existing.id = some existing.content := by
  obtain ⟨_, _, _, ch, _, _, _, hperform⟩ := hstep.performed_inv
  have hfound : some existing = cfg.world.table.get c id := get_of_performScenario hperform
  obtain ⟨row, hrow, hexisting⟩ := Option.map_eq_some_iff.mp hfound.symm
  obtain ⟨hget, -⟩ := Table.getOf_eq_some_iff.mp hrow
  have hid : row.id = id := Table.key_of_get? hget
  rw [← hexisting, ScenarioConfig.content, show (scenarioFromRow row).id = row.id from rfl, hid, hget]
  rfl

/-- A scenario that a task has read after a step, it had read before, or reads now. -/
theorem read_of_step (hstep : Step (scenarioSystem deps) cfg e cfg') {n : ℕ} {existing : RedTeamScenario}
    (hread : cfg'.Read n existing) :
    cfg.Read n existing ∨ ∃ call c id, e = .performed n call (.get c id) (.ok (some existing)) := by
  obtain ⟨task', htask', m, c, id, hmem⟩ := hread
  obtain ⟨-, htrace⟩ | ⟨task, htask, -, htrace | ⟨m', op, k, r, rfl, -, htrace⟩⟩ := hstep.trace htask'
  · rw [htrace] at hmem
    cases hmem
  · rw [htrace] at hmem
    exact .inl ⟨task, htask, m, c, id, hmem⟩
  · rw [htrace] at hmem
    obtain heq | hmem := List.mem_cons.mp hmem
    · cases heq
      exact .inr ⟨_, c, id, rfl⟩
    · exact .inl ⟨task, htask, m, c, id, hmem⟩

/-! ## Runs of `PUT` and `authorize` -/

/-- Every task is a `PUT` or an `authorize`. -/
def EditTasks (cfg : ScenarioConfig) : Prop :=
  ∀ (n : ℕ) (task : Task ScenarioCall ScenarioOp ScenarioOp.Ans ScenarioMemory ApiErr),
    cfg.tasks[n]? = some task → (∃ session id body, task.call = .put session id body) ∨
      ∃ session id body, task.call = .authorize session id body

/-- What the tasks have read is stored, unless a later version is. -/
def ReadsKnown (cfg : ScenarioConfig) : Prop :=
  ∀ n existing, cfg.Read n existing → ∀ content, cfg.content existing.id = some content →
    existing.content.upTo content

/-- What holds in a run of `PUT` and `authorize`. -/
structure EditsInvariant (deps : ScenarioDeps) (cfg : ScenarioConfig) : Prop where
  lawful : cfg.Lawful (scenarioProtocol deps)
  tasks : EditTasks cfg
  reads : ReadsKnown cfg

/-- In a run of `PUT` and `authorize` only updates change the table. -/
theorem content_of_editStep (hlawful : cfg.Lawful (scenarioProtocol deps)) (htasks : EditTasks cfg)
    (hstep : Step (scenarioSystem deps) cfg e cfg') :
    (∀ id, cfg'.content id = cfg.content id) ∨
      ∃ n call c s saved, e = .performed n call (.update c s) (.ok saved) := by
  have hsame : cfg'.world.table = cfg.world.table → ∀ id, cfg'.content id = cfg.content id := by
    intro htable id
    rw [ScenarioConfig.content, htable]
    rfl
  obtain htable | ⟨n, call, op, r, ch, rfl, hperform⟩ := scenarios_of_step hstep
  · exact .inl (hsame htable)
  · obtain ⟨task, m, k, m₀, htask, hcall, -, hawaits⟩ := hstep.awaited hlawful
    obtain htable | ⟨c, s, saved, hop⟩ | ⟨c, s, saved, hop⟩ | ⟨c, id, hop⟩ := table_of_performScenario hperform
    · exact .inl (hsame htable)
    · -- only `POST` creates
      cases hop
      obtain ⟨⟨session, body, hpost⟩, -⟩ := hawaits
      obtain ⟨_, _, _, h⟩ | ⟨_, _, _, h⟩ := htasks n task htask <;> cases hcall.symm.trans h <;> cases hpost
    · cases hop
      exact .inr ⟨n, call, c, s, saved, rfl⟩
    · -- only `DELETE` deletes
      cases hop
      obtain ⟨session, body, hdelete⟩ := hawaits
      obtain ⟨_, _, _, h⟩ | ⟨_, _, _, h⟩ := htasks n task htask <;> cases hcall.symm.trans h <;> cases hdelete

/-- What is written is a new version of what is stored, or the same content. -/
theorem upTo_of_write {call : ScenarioCall} {existing s : RedTeamScenario} {content : ScenarioContent}
    (hwrite : ScenarioWrite call existing s) (hknown : existing.content.upTo content)
    (hversion : content.version = existing.version) : content.upTo s.content := by
  obtain rfl : existing.content = content := hknown.eq_of_version_eq hversion.symm
  cases hwrite with
  | edit session id body => exact .inl (Nat.lt_succ_self existing.version)
  | grant session id body user huser hrole now => exact .refl _

/-- A step whose update is current takes no content away but for a later version. -/
theorem upTo_of_editStep (hinv : EditsInvariant deps cfg) (hcurrent : EditCurrent cfg e)
    (hstep : Step (scenarioSystem deps) cfg e cfg') {id : EntityId} {content' : ScenarioContent}
    (hcontent' : cfg'.content id = some content') :
    ∃ content, cfg.content id = some content ∧ content.upTo content' := by
  obtain hsame | ⟨n, call, c, s, saved, rfl⟩ := content_of_editStep hinv.lawful hinv.tasks hstep
  · exact ⟨content', (hsame id).symm.trans hcontent', .refl _⟩
  · obtain ⟨⟨old, hold⟩, hcontent, existing, hread, -, hid, hwrite⟩ := content_of_update hinv.lawful hstep
    rw [hcontent id] at hcontent'
    by_cases heq : s.id = id
    · rw [if_pos heq] at hcontent'
      cases hcontent'
      refine ⟨old, heq ▸ hold, upTo_of_write hwrite (hinv.reads n existing hread old (hid ▸ hold)) ?_⟩
      exact hcurrent n call c s saved rfl existing hread old hold
    · rw [if_neg heq] at hcontent'
      exact ⟨content', hcontent', .refl _⟩

/-- A step of a run of `PUT` and `authorize` with current updates keeps the invariant. -/
theorem EditsInvariant.step (hinv : EditsInvariant deps cfg) (honly : EditsOnly e)
    (hcurrent : EditCurrent cfg e) (hstep : Step (scenarioSystem deps) cfg e cfg') :
    EditsInvariant deps cfg' where
  lawful := hstep.lawful (ScenarioCall.obeys deps) (fun _ _ op ch _ w => findsScenario_perform ch w op)
    hinv.lawful
  tasks n task htask := by
    obtain ⟨he, -, -⟩ | htask | ⟨task', htask', hcall, -⟩ := hstep.task htask
    · exact honly n task.call he
    · exact hinv.tasks n task htask
    · exact hcall ▸ hinv.tasks n task' htask'
  reads n existing hread content' hcontent' := by
    obtain ⟨content, hcontent, hup⟩ := upTo_of_editStep hinv hcurrent hstep hcontent'
    obtain hread | ⟨call, c, id, rfl⟩ := read_of_step hstep hread
    · exact (hinv.reads n existing hread content hcontent).trans hup
    · -- what was read just now is what is stored
      cases hcontent.symm.trans (content_of_get hstep)
      exact hup

/-- Versions grow in a step of such a run exactly when the request that writes finds the version it has
read. -/
theorem versionsGrow_iff (hinv : EditsInvariant deps cfg) (hstep : Step (scenarioSystem deps) cfg e cfg') :
    VersionsGrow cfg e cfg' ↔ EditCurrent cfg e := by
  constructor
  · rintro hgrow n call c s saved rfl existing' hread' content hcontent
    obtain ⟨-, hafter, existing, hread, hunique, hid, hwrite⟩ := content_of_update hinv.lawful hstep
    obtain rfl : existing' = existing := hunique existing' hread'
    have hknown := (hinv.reads n _ hread content (hid ▸ hcontent)).version_le
    have hwritten : cfg'.content s.id = some s.content := (hafter s.id).trans (if_pos rfl)
    cases hwrite with
    | edit session id body =>
      have hlt := hgrow.lt n session id (.ok body) c _ saved content _ rfl hcontent hwritten
      exact Nat.le_antisymm (Nat.lt_succ_iff.mp hlt) hknown
    | grant session id body user huser hrole now =>
      exact Nat.le_antisymm (hgrow.le _ content _ hcontent hwritten) hknown
  · intro hcurrent
    refine ⟨fun id content content' hcontent hcontent' => ?_, ?_⟩
    · obtain ⟨known, hknown, hup⟩ := upTo_of_editStep hinv hcurrent hstep hcontent'
      cases hcontent.symm.trans hknown
      exact hup.version_le
    · rintro n session id body c s saved content content' rfl hcontent hcontent'
      obtain ⟨-, hafter, existing, hread, -, -, hwrite⟩ := content_of_update hinv.lawful hstep
      have hversion := hcurrent n _ c s saved rfl existing hread content hcontent
      rw [hafter s.id, if_pos rfl] at hcontent'
      cases hcontent'
      cases hwrite
      rw [hversion]
      exact Nat.lt_succ_self existing.version

/-- Only `PUT` and `authorize` are called, and they find the version they have read. -/
def EditRun (cfg : ScenarioConfig) (e : ScenarioEvent) : Prop := EditsOnly e ∧ EditCurrent cfg e

variable {m : ScenarioMemory} {t : ScenarioTable}

/-- The invariant holds before the first request. -/
theorem editsInvariant_start : EditsInvariant deps (ScenarioConfig.start m t) where
  lawful n task htask := by cases htask
  tasks n task htask := by cases htask
  reads n existing hread := by
    obtain ⟨task, htask, -⟩ := hread
    cases htask

/-- A run keeps the invariant. -/
theorem EditsInvariant.run (hinv : EditsInvariant deps cfg)
    (hreach : Reachable (scenarioSystem deps) EditRun cfg cfg') : EditsInvariant deps cfg' := by
  induction hreach with
  | start => exact hinv
  | step _ hok hstep ih => exact ih.step hok.1 hok.2 hstep

/-- A run takes no content away but for a later version. -/
theorem upTo_of_editRun (hinv : EditsInvariant deps cfg)
    (hreach : Reachable (scenarioSystem deps) EditRun cfg cfg') {id : EntityId} {content' : ScenarioContent}
    (hcontent' : cfg'.content id = some content') :
    ∃ content, cfg.content id = some content ∧ content.upTo content' := by
  induction hreach generalizing content' with
  | start => exact ⟨content', hcontent', .refl _⟩
  | step hbetween hok hstep ih =>
    obtain ⟨content'', hcontent'', hup⟩ := upTo_of_editStep (hinv.run hbetween) hok.2 hstep hcontent'
    obtain ⟨content, hcontent, hup'⟩ := ih hcontent''
    exact ⟨content, hcontent, hup'.trans hup⟩

/-! ### Edits that are replaced -/

/-- Among the events, a `PUT` that had read the scenario has replaced it. -/
def Replaced (id : EntityId) (events : List ScenarioEvent) : Prop :=
  ∃ newer older n session sid body c s saved existing,
    events = newer ++ .performed n (.put session sid body) (.update c s) (.ok saved) :: older ∧ s.id = id ∧
      ∃ c' id', .performed n (.put session sid body) (.get c' id') (.ok (some existing)) ∈ older ∧
        existing.id = id

theorem Replaced.cons {id : EntityId} {events : List ScenarioEvent} (h : Replaced id events)
    (e : ScenarioEvent) : Replaced id (e :: events) := by
  obtain ⟨newer, older, n, session, sid, body, c, s, saved, existing, rfl, h⟩ := h
  exact ⟨e :: newer, older, n, session, sid, body, c, s, saved, existing, rfl, h⟩

/-- What a task has read is in the history. -/
theorem exists_get_of_read {ok : ScenarioConfig → ScenarioEvent → Prop}
    (hreach : Reachable (scenarioSystem deps) ok (ScenarioConfig.start m t) cfg)
    {n : ℕ} {task : Task ScenarioCall ScenarioOp ScenarioOp.Ans ScenarioMemory ApiErr}
    (htask : cfg.tasks[n]? = some task) {existing : RedTeamScenario} (hread : cfg.Read n existing) :
    ∃ c id, .performed n task.call (.get c id) (.ok (some existing)) ∈ cfg.history := by
  obtain ⟨task', htask', m', c, id, hmem⟩ := hread
  cases htask.symm.trans htask'
  exact ⟨c, id, Reachable.performed_of_mem_trace rfl hreach htask hmem⟩

/-- What was read in a run is a version up to the one that is stored. -/
theorem version_le_of_get (hreach : Reachable (scenarioSystem deps) EditRun (ScenarioConfig.start m t) cfg)
    {n : ℕ} {call : ScenarioCall} {c : ClientId} {id id' : EntityId} {existing : RedTeamScenario}
    (hget : .performed n call (.get c id) (.ok (some existing)) ∈ cfg.history) (hid : existing.id = id')
    {content : ScenarioContent} (hcontent : cfg.content id' = some content) :
    existing.version ≤ content.version := by
  obtain ⟨newer, older, hhistory⟩ := List.append_of_mem hget
  obtain ⟨before, after, hbefore, hok, hstep, -, hlater⟩ := hreach.exists_between rfl hhistory
  have hinv : EditsInvariant deps before := editsInvariant_start.run hbefore
  obtain ⟨content', hcontent', hup⟩ := upTo_of_editRun (hinv.step hok.1 hok.2 hstep) hlater hcontent
  obtain ⟨content'', hcontent'', hup'⟩ := upTo_of_editStep hinv hok.2 hstep hcontent'
  have hread := content_of_get hstep
  rw [hid, hcontent''] at hread
  cases hread
  exact (hup'.trans hup).version_le

/-- In a run whose updates are current, an edit stays stored, or is replaced by a `PUT` that has read the
scenario since. -/
theorem kept_or_replaced {before after : ScenarioConfig} {n : ℕ} {session : Session}
    {sid : Except (List JsValue) EntityId} {body : Except (List JsValue) CreateRedTeamScenarioBody}
    {c : ClientId} {s saved : RedTeamScenario}
    (hbefore : Reachable (scenarioSystem deps) EditRun (ScenarioConfig.start m t) before)
    (hok : EditRun before (.performed n (.put session sid body) (.update c s) (.ok saved)))
    (hedit : Step (scenarioSystem deps) before
      (.performed n (.put session sid body) (.update c s) (.ok saved)) after)
    (hreach : Reachable (scenarioSystem deps) EditRun after cfg) :
    ∃ since, cfg.history = since ++ after.history ∧
      (cfg.content s.id = some s.content ∨ Replaced s.id since) := by
  have hinv : EditsInvariant deps before := editsInvariant_start.run hbefore
  have hafter : Reachable (scenarioSystem deps) EditRun (ScenarioConfig.start m t) after :=
    .step hbefore hok hedit
  obtain ⟨⟨old, hold⟩, hwritten, -⟩ := content_of_update hinv.lawful hedit
  induction hreach with
  | start => exact ⟨[], rfl, .inl ((hwritten s.id).trans (if_pos rfl))⟩
  | @step mid cfg e hmid hok' hstep ih =>
    obtain ⟨since, hhistory, hkept⟩ := ih
    refine ⟨e :: since, by rw [hstep.history, hhistory, List.cons_append], ?_⟩
    obtain hkept | hreplaced := hkept
    · have hmidInv : EditsInvariant deps mid := editsInvariant_start.run (hafter.trans hmid)
      obtain hsame | ⟨n', call, c', s', saved', rfl⟩ :=
        content_of_editStep hmidInv.lawful hmidInv.tasks hstep
      · exact .inl ((hsame s.id).trans hkept)
      obtain ⟨-, hcontent, existing, hread, -, hid, hwrite⟩ := content_of_update hmidInv.lawful hstep
      by_cases heq : s'.id = s.id
      · have hversion := hok'.2 n' call c' s' saved' rfl existing hread s.content (heq ▸ hkept)
        cases hwrite with
        | grant session' sid' body' user huser hrole now =>
          -- a grant writes the content it has read
          have hknown := hmidInv.reads n' existing hread s.content (heq ▸ hkept)
          have hsame := hknown.eq_of_version_eq hversion.symm
          left
          rw [hcontent s.id, if_pos heq, content_authorizedScenario, hsame]
        | edit session' sid' body' =>
          obtain ⟨task, _, _, _, htask, hcall, -, -⟩ := hstep.performed_inv
          obtain ⟨c'', id', hget⟩ := exists_get_of_read (hafter.trans hmid) htask hread
          rw [hcall, hhistory, hedit.history] at hget
          obtain hsince | hget := List.mem_append.mp hget
          · exact .inr ⟨[], since, n', session', sid', .ok body', c', _, saved', existing, rfl, heq, c'', id',
              hsince, heq⟩
          obtain hnow | hearlier := List.mem_cons.mp hget
          · cases hnow
          -- what was read before the edit was an older version
          have hle : existing.version ≤ old.version :=
            version_le_of_get hbefore hearlier (hid.trans heq) hold
          have hlt : old.version < s.content.version :=
            ((versionsGrow_iff hinv hedit).mpr hok.2).lt n session sid body c s saved old _ rfl hold
              ((hwritten s.id).trans (if_pos rfl))
          omega
      · left
        rw [hcontent s.id, if_neg heq]
        exact hkept
    · exact .inr (hreplaced.cons e)

/-! ### All runs -/

/-- The versions of a later state are up to those of the earlier one, and the same only for the same steps
and target. -/
def VersionsIdentify (earlier later : ScenarioConfig) : Prop :=
  ∀ id content content', earlier.content id = some content → later.content id = some content' →
    content.version ≤ content'.version ∧ (content.version = content'.version →
      content.steps = content'.steps ∧ content.targetAllowlistRef = content'.targetAllowlistRef)

/-- An edit that a step has stored is stored later, unless a `PUT` that has read the scenario since has
replaced it. -/
def EditKept (e : ScenarioEvent) (after later : ScenarioConfig) : Prop :=
  ∀ n session sid body c s saved, e = .performed n (.put session sid body) (.update c s) (.ok saved) →
    ∃ since, later.history = since ++ after.history ∧
      (later.content s.id = some s.content ∨ Replaced s.id since)

/-- Of the runs of `PUT` and `authorize`, those in which versions grow are those in which every request that
writes a scenario finds the version stored that it has read. In such a run a version identifies what is stored
under it, and no edit is lost. -/
theorem scenario_edits_iff (deps : ScenarioDeps) (m : ScenarioMemory) (t : ScenarioTable) :
    (∀ cfg, Reachable (scenarioSystem deps)
        (fun cfg e => EditsOnly e ∧ ∀ cfg', Step (scenarioSystem deps) cfg e cfg' → VersionsGrow cfg e cfg')
        (ScenarioConfig.start m t) cfg ↔
      Reachable (scenarioSystem deps) EditRun (ScenarioConfig.start m t) cfg) ∧
    (∀ earlier later, Reachable (scenarioSystem deps) EditRun (ScenarioConfig.start m t) earlier →
      Reachable (scenarioSystem deps) EditRun earlier later → VersionsIdentify earlier later) ∧
    ∀ before e after later, Reachable (scenarioSystem deps) EditRun (ScenarioConfig.start m t) before →
      EditRun before e → Step (scenarioSystem deps) before e after →
        Reachable (scenarioSystem deps) EditRun after later → EditKept e after later := by
  refine ⟨fun cfg => ⟨fun hreach => ?_, fun hreach => ?_⟩, ?_, ?_⟩
  · induction hreach with
    | start => exact .start
    | step _ hok hstep ih =>
      exact .step ih ⟨hok.1, (versionsGrow_iff (editsInvariant_start.run ih) hstep).mp (hok.2 _ hstep)⟩ hstep
  · induction hreach with
    | start => exact .start
    | step hbefore hok hstep ih =>
      refine .step ih ⟨hok.1, fun cfg' hstep' => ?_⟩ hstep
      exact (versionsGrow_iff (editsInvariant_start.run hbefore) hstep').mpr hok.2
  · intro earlier later hearlier hlater id content content' hcontent hcontent'
    obtain ⟨known, hknown, hup⟩ := upTo_of_editRun (editsInvariant_start.run hearlier) hlater hcontent'
    cases hcontent.symm.trans hknown
    refine ⟨hup.version_le, fun hversion => ?_⟩
    obtain rfl := hup.eq_of_version_eq hversion
    exact ⟨rfl, rfl⟩
  · rintro before e after later hbefore hok hstep hlater n session sid body c s saved rfl
    exact kept_or_replaced hbefore hok hstep hlater

/-! ### Two edits that overlap -/

section Counterexample

/-- A scenario. -/
private def login : RedTeamScenario :=
  { id := "login", clientId := "client", name := "login", category := .authentication
    targetAllowlistRef := "staging", createdBy := "operator", createdAt := 0 }

private def loginTable : ScenarioTable := { rows := [login], nodup := List.nodup_singleton _ }

private def editDeps : ScenarioDeps :=
  { config := { clientId := "client" }, parseUrl := fun _ => none, verifyCsrfToken := fun _ _ => true }

private def author : Session :=
  { authUser := some { id := "operator", clientId := "client", email := "o@c", role := .operator }
    authMethod := .bearer }

/-- The request that gives the scenario another target. -/
private def retarget (target : String) : ScenarioCall :=
  .put author (.ok "login") (.ok { name := "login", category := .authentication, targetAllowlistRef := target })

private def success : ScenarioChoice := { jobId := "job" }

/-- Both requests read version 1; the second one has written version 2, and the first one is about to. -/
private def overlappingEdits : List (Label ScenarioCall ScenarioChoice ScenarioMemory) :=
  [.call (retarget "first"), .resume 0, .perform 0 success, .call (retarget "second")] ++
    turns 1 2 success ++ [.resume 0]

private def editsOnly : ScenarioEvent → Bool
  | .entered _ (.put ..) | .entered _ (.authorize ..) => true
  | .entered .. => false
  | _ => true

/-- A `PUT` leaves the version of the scenario as it is. -/
private def editKeepsVersion (cfg : ScenarioConfig) (e : ScenarioEvent) (cfg' : ScenarioConfig) : Bool :=
  match e with
  | .performed _ (.put ..) (.update _ s) (.ok _) =>
    s.id = "login" && decide ((cfg.world.table.get? "login").map RedTeamScenario.version = some 2) &&
      decide ((cfg'.world.table.get? "login").map RedTeamScenario.version = some 2)
  | _ => false

private theorem exists_lostEdit : ∃ cfg e cfg',
    Reachable (scenarioSystem editDeps) (fun _ e => editsOnly e = true)
        (ScenarioConfig.start { now := 0, aborted := none, id := "new" } loginTable) cfg ∧
      Step (scenarioSystem editDeps) cfg e cfg' ∧ editKeepsVersion cfg e cfg' = true := by
  have hrun : ((run? (scenarioSystem editDeps) (fun _ e => editsOnly e) overlappingEdits
      (ScenarioConfig.start { now := 0, aborted := none, id := "new" } loginTable)).any
        fun cfg => (step? (scenarioSystem editDeps) cfg (.perform 0 success)).any fun s =>
          editKeepsVersion cfg s.1 s.2) = true := by
    decide +kernel
  exact exists_step_of_run? hrun

/-- Two edits that overlap are stored under one version. -/
theorem scenario_versions_not_grow : ¬∀ (deps : ScenarioDeps) (m : ScenarioMemory) (t : ScenarioTable)
    (cfg : ScenarioConfig) (e : ScenarioEvent) (cfg' : ScenarioConfig),
    Reachable (scenarioSystem deps) (fun _ e => EditsOnly e) (ScenarioConfig.start m t) cfg →
      EditsOnly e → Step (scenarioSystem deps) cfg e cfg' → VersionsGrow cfg e cfg' := by
  intro h
  obtain ⟨cfg, e, cfg', hreach, hstep, hkeeps⟩ := exists_lostEdit
  have honly : ∀ (cfg : ScenarioConfig) (e : ScenarioEvent), editsOnly e = true → EditsOnly e := by
    rintro - e honly n call rfl
    cases call with
    | put session id body => exact .inl ⟨session, id, body, rfl⟩
    | authorize session id body => exact .inr ⟨session, id, body, rfl⟩
    | _ => cases honly
  unfold editKeepsVersion at hkeeps
  split at hkeeps
  · rename_i n session id body c s saved
    simp only [Bool.and_eq_true, decide_eq_true_eq] at hkeeps
    obtain ⟨⟨hid, hbefore⟩, hafter⟩ := hkeeps
    obtain ⟨row, hrow, hversion⟩ := Option.map_eq_some_iff.mp hbefore
    obtain ⟨row', hrow', hversion'⟩ := Option.map_eq_some_iff.mp hafter
    have hgrow := h editDeps _ loginTable cfg _ cfg' (hreach.mono honly) (by rintro _ _ ⟨⟩) hstep
    have hlt := hgrow.lt n session id body c s saved row.content row'.content rfl
      (by rw [hid, ScenarioConfig.content, hrow]; rfl) (by rw [hid, ScenarioConfig.content, hrow']; rfl)
    have : row.version < row'.version := hlt
    omega
  · cases hkeeps

end Counterexample

end MontrSecure
