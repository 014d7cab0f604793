import MontrSecure.Api.Schedules

/-!
# The scan scheduler

`sync` of `apps/worker/src/scheduling/scan-scheduler.ts`: it registers the enabled schedules with BullMQ,
drops the jobs of the others, and writes the next fire times back. It runs interleaved with the requests of
operators, who change the same rows.
-/

namespace MontrSecure

open Async

/-! ## Reconciliation -/

/-- `wanted.get(id)`: of two schedules with one id the later counts. -/
def wanted (enabled : List ScanSchedule) (id : EntityId) : Option ScanSchedule :=
  enabled.reverse.find? fun s => s.id = id

example : wanted [] "nightly" = none := by decide +kernel

/-- The greatest time of a `Date`. -/
def maxDate : ℕ := 8640000000000000

/-- A round of the loop that drops jobs. -/
def dropUnwanted (enabled : List ScanSchedule) (info : ScheduledJobInfo) : ScheduleProgram Unit :=
  if (wanted enabled info.scheduleId).isNone then askSchedules (.unschedule info.scheduleId)
  else return ()

/-- A round of the loop that refreshes `nextRunAt`. -/
def refreshNextRun (clientId : ClientId) (enabled : List ScanSchedule) (info : ScheduledJobInfo) :
    ScheduleProgram Unit :=
  match wanted enabled info.scheduleId, info.nextMs with
  | some s, some nextMs =>
    -- `toISOString` throws on an invalid date
    if maxDate < nextMs then Program.throw (.thrown (.other "Invalid time value"))
    else if s.nextRunAt ≠ some nextMs then do
      let _ ← askSchedules (.update clientId { s with nextRunAt := some nextMs })
      return ()
    else return ()
  | _, _ => return ()

/-- `sync`. -/
def sync (clientId : ClientId) : ScheduleProgram Unit := do
  let enabled ← askSchedules (.listEnabled clientId)
  enabled.forM fun s => askSchedules (.schedule { scheduleId := s.id, clientId } s.cron)
  let registered ← askSchedules .listScheduled
  registered.forM (dropUnwanted enabled)
  let refreshed ← askSchedules .listScheduled
  refreshed.forM (refreshNextRun clientId enabled)

/-! ## Interleaved requests -/

/-- What is called: a route, or `sync` of the scheduler of a client. -/
inductive ScheduleCall where
  | post (session : Session) (body : Except (List JsValue) CreateScanScheduleBody)
  | put (session : Session) (id : Except (List JsValue) EntityId)
    (body : Except (List JsValue) CreateScanScheduleBody)
  | delete (session : Session) (id : Except (List JsValue) EntityId)
  | sync (clientId : ClientId)

/-- How an operation goes: it may be rejected, and BullMQ lists what it likes. -/
structure ScheduleChoice where
  rejects : Option String := none
  listed : List ScheduledJobInfo := []

/-- The effect of an operation on the table, and its answer. -/
def execSchedule (t : ScheduleTable) (listed : List ScheduledJobInfo) :
    (op : ScheduleOp) → ScheduleTable × op.Ans
  | .create clientId schedule =>
    match t.create clientId schedule with
    | some (row, t') => (t', .ok row)
    | none => (t, .error (.thrown uniqueConstraintError))
  | .get clientId id => (t, .ok (t.get clientId id))
  | .listEnabled clientId => (t, .ok (t.listEnabled clientId))
  | .update clientId schedule =>
    match t.update clientId schedule with
    | some (row, t') => (t', .ok row)
    | none =>
      (t, .error (.thrown (repositoryScopeError s!"scanSchedule {schedule.id} not found for client")))
  | .delete clientId id =>
    match t.delete clientId id with
    | some t' => (t', .ok ())
    | none => (t, .error (.thrown (repositoryScopeError s!"scanSchedule {id} not found for client")))
  | .auditAppend _ | .schedule .. | .unschedule _ => (t, .ok ())
  | .listScheduled => (t, .ok listed)

/-- The operation, unless it is rejected. -/
def performSchedule (ch : ScheduleChoice) (t : ScheduleTable) (op : ScheduleOp) :
    ScheduleTable × op.Ans :=
  match ch.rejects with
  | some message => (t, .error (.thrown (.other message)))
  | none => execSchedule t ch.listed op

/-- The program of a call. -/
def ScheduleCall.body (deps : ScheduleDeps) : ScheduleCall → ScheduleProgram Unit
  | .post session body => do
    let _ ← postSchedule deps session body
    return ()
  | .put session id body => do
    let _ ← putSchedule deps session id body
    return ()
  | .delete session id => do
    let _ ← deleteSchedule deps session id
    return ()
  | .sync clientId => MontrSecure.sync clientId

/-- Requests and schedulers, the table they share, and an environment in which time passes. -/
def scheduleSystem (deps : ScheduleDeps) : System ScheduleCall ScheduleOp ScheduleOp.Ans ScheduleChoice
    ScheduleMemory ScheduleMemory ScheduleTable ApiErr where
  body := ScheduleCall.body deps
  enter _ _ t := some t
  perform _ _ op ch _ t := performSchedule ch t op
  leave _ _ _ t := t
  env m _ _ t := some (m, t)
  crash m t := (m, t)

/-- A state of requests and schedulers. -/
abbrev ScheduleConfig :=
  Config ScheduleCall ScheduleOp ScheduleOp.Ans ScheduleMemory ScheduleMemory ScheduleTable ApiErr

/-- An event of requests and schedulers. -/
abbrev ScheduleEvent := Event ScheduleCall ScheduleOp ScheduleOp.Ans ScheduleMemory ApiErr

/-- The states that are reached from a table. -/
def ScheduleReaches (deps : ScheduleDeps) (m : ScheduleMemory) (t : ScheduleTable)
    (cfg : ScheduleConfig) : Prop :=
  Reachable (scheduleSystem deps) (fun _ _ => True) { mem := m, world := t, tasks := [], history := [] } cfg

end MontrSecure

/-!
## What the scheduler writes back

`sync` reads the enabled schedules once, at its start, and writes whole rows back at its end, with another
`nextRunAt`. What it read of a schedule is all it knows of its settings: a write keeps the settings of the
row exactly when they are still those that were read.
-/

namespace MontrSecure

open Async

/-! ## What `sync` asks -/

/-- What the awaits of a task say about a listing: there was one, and it answered `enabled`. -/
def ListedOnce (tr : Trace ScheduleOp ScheduleOp.Ans ScheduleMemory) (enabled : List ScanSchedule) :
    Prop :=
  (∃ m c, ⟨m, .listEnabled c, .ok enabled⟩ ∈ tr) ∧
    ∀ m c enabled', ⟨m, .listEnabled c, .ok enabled'⟩ ∈ tr → enabled' = enabled

/-- What `sync` may ask: it changes nothing but `nextRunAt` of a schedule it has listed. -/
def SyncAwaits (tr : Trace ScheduleOp ScheduleOp.Ans ScheduleMemory) : ScheduleOp → Prop
  | .create .. | .delete .. => False
  | .update _ s => ∃ enabled listed nextRunAt, ListedOnce tr enabled ∧ listed ∈ enabled ∧
      s = { listed with nextRunAt }
  | _ => True

/-- The listed schedules have different ids. -/
def ListsDistinct : (op : ScheduleOp) → op.Ans → Prop
  | .listEnabled _, .ok enabled => (enabled.map ScanSchedule.id).Nodup
  | _, _ => True

/-- Nothing is said about the requests. -/
def scheduleProtocol (call : ScheduleCall) : Protocol ScheduleOp ScheduleOp.Ans ScheduleMemory where
  answers := ListsDistinct
  awaits tr _ _ op :=
    match call with
    | .sync _ => SyncAwaits tr op
    | _ => True
  ends _ _ _ := True

variable {tr : Trace ScheduleOp ScheduleOp.Ans ScheduleMemory} {enabled : List ScanSchedule}

/-- Other operations leave the listing the only one. -/
theorem ListedOnce.cons (h : ListedOnce tr enabled) {x : Await ScheduleOp ScheduleOp.Ans ScheduleMemory}
    (hx : ∀ c, x.op ≠ .listEnabled c) : ListedOnce (x :: tr) enabled := by
  obtain ⟨⟨m, c, hmem⟩, hunique⟩ := h
  refine ⟨⟨m, c, List.mem_cons_of_mem x hmem⟩, fun m' c' enabled' hmem' => ?_⟩
  obtain heq | hmem' := List.mem_cons.mp hmem'
  · exact absurd (congrArg Await.op heq).symm (hx c')
  · exact hunique m' c' enabled' hmem'

theorem mem_of_wanted {id : EntityId} {s : ScanSchedule} (h : wanted enabled id = some s) : s ∈ enabled :=
  List.mem_reverse.mp (List.mem_of_find?_eq_some h)

section Follows

variable {clientId : ClientId} {m₀ m : ScheduleMemory}

/-- A round that drops a job changes no schedule. -/
theorem dropUnwanted_follows (info : ScheduledJobInfo) (h : ListedOnce tr enabled) :
    (dropUnwanted enabled info m).Follows (scheduleProtocol (.sync clientId))
      (fun tr _ _ _ => ListedOnce tr enabled) (fun _ _ _ _ => True) tr m₀ := by
  unfold dropUnwanted
  split
  · refine Outcome.follows_ask (ScheduleOp.unschedule info.scheduleId) trivial (fun _ m₁ _ => ?_)
      fun _ _ _ => trivial
    exact h.cons fun c hc => nomatch hc
  · exact h

/-- A round that refreshes writes a listed schedule. -/
theorem refreshNextRun_follows (info : ScheduledJobInfo) (h : ListedOnce tr enabled) :
    (refreshNextRun clientId enabled info m).Follows (scheduleProtocol (.sync clientId))
      (fun tr _ _ _ => ListedOnce tr enabled) (fun _ _ _ _ => True) tr m₀ := by
  unfold refreshNextRun
  cases hwanted : wanted enabled info.scheduleId with
  | none => exact h
  | some s =>
    cases info.nextMs with
    | none => exact h
    | some nextMs =>
      simp only [Program.ite_apply]
      split
      · trivial
      · split
        · refine Outcome.follows_ask_bind (ScheduleOp.update clientId { s with nextRunAt := some nextMs })
            ⟨enabled, s, some nextMs, h, mem_of_wanted hwanted, rfl⟩ (fun _ m₁ _ => ?_)
            fun _ _ _ => trivial
          exact h.cons fun c hc => nomatch hc
        · exact h

/-- `sync` keeps to what it may ask. -/
theorem sync_obeys : (sync clientId).Obeys (scheduleProtocol (.sync clientId)) := by
  intro m
  refine Outcome.follows_ask_bind (ScheduleOp.listEnabled clientId) trivial (fun enabled m₁ _ => ?_)
    fun _ _ _ => trivial
  -- from here on there was one listing
  have hlisted : ListedOnce [(⟨m, .listEnabled clientId, .ok enabled⟩ :
      Await ScheduleOp ScheduleOp.Ans ScheduleMemory)] enabled := by
    refine ⟨⟨m, clientId, List.mem_cons_self⟩, fun m' c' enabled' hmem => ?_⟩
    cases List.mem_singleton.mp hmem
    rfl
  refine Outcome.follows_forM_bind (I := fun tr => ListedOnce tr enabled) (fun s _ tr m₀ m htr => ?_)
    (fun tr m₀ m htr => ?_) hlisted
  · refine Outcome.follows_ask (ScheduleOp.schedule { scheduleId := s.id, clientId } s.cron) trivial
      (fun _ m₁ _ => ?_) fun _ _ _ => trivial
    exact htr.cons fun c hc => nomatch hc
  refine Outcome.follows_ask_bind ScheduleOp.listScheduled trivial (fun registered m₁ _ => ?_)
    fun _ _ _ => trivial
  refine Outcome.follows_forM_bind (I := fun tr => ListedOnce tr enabled)
    (fun info _ tr m₀ m htr => dropUnwanted_follows info htr) (fun tr m₀ m htr => ?_)
    (htr.cons fun c hc => nomatch hc)
  refine Outcome.follows_ask_bind ScheduleOp.listScheduled trivial (fun refreshed m₁ _ => ?_)
    fun _ _ _ => trivial
  refine (Outcome.follows_forM (I := fun tr => ListedOnce tr enabled)
    (fun info _ tr m₀ m htr => refreshNextRun_follows info htr) ?_).mono
    (fun _ _ _ _ _ => trivial) fun _ _ _ _ _ => trivial
  exact htr.cons fun c hc => nomatch hc

end Follows

/-- Every call keeps to its protocol. -/
theorem ScheduleCall.obeys (deps : ScheduleDeps) (call : ScheduleCall) :
    ((scheduleSystem deps).body call).Obeys (scheduleProtocol call) := by
  cases call with
  | sync clientId => exact sync_obeys
  | post | put | delete =>
    exact fun m => Outcome.follows_of_allowed (fun _ _ _ _ => trivial) (fun _ _ _ _ => trivial)
      (fun _ _ _ _ => trivial) _

/-! ## What the operations do -/

namespace ScheduleTable

variable {t t' : ScheduleTable} {clientId : ClientId} {s row : ScanSchedule} {id : EntityId}

/-- The enabled schedules have different ids. -/
theorem nodup_listEnabled (t : ScheduleTable) (clientId : ClientId) :
    ((t.listEnabled clientId).map ScanSchedule.id).Nodup := by
  have hfilter : ((t.rows.filter fun s => s.clientId = clientId && s.enabled).map ScanSchedule.id).Nodup :=
    t.nodup.sublist (List.filter_sublist.map _)
  exact ((List.perm_insertionSort _ _).map _).nodup_iff.mpr hfilter

/-- The settings of a schedule: what an operator gives it. -/
def settings (t : ScheduleTable) (id : EntityId) : Option (String × ScanMode × String × ℚ × Bool) :=
  (t.get? id).map fun s => (s.repo, s.mode, s.cron, s.budgetCeiling, s.enabled)

/-- The settings after an update are those of what was written. -/
theorem settings_update (h : t.update clientId s = some (row, t')) (id : EntityId) :
    t'.settings id =
      if s.id = id then some (s.repo, s.mode, s.cron, s.budgetCeiling, s.enabled) else t.settings id := by
  have hkey : ∀ r, (Tenancy.ScanScheduleRepositoryImpl.written s r).id = r.id := fun _ => rfl
  have hget : t'.get? id = if s.id = id then some row else t.get? id := Table.get?_updateOf hkey h
  obtain ⟨old, -, -, rfl, -⟩ := Table.updateOf_eq_some_iff.mp h
  rw [settings, hget]
  by_cases hid : s.id = id
  · rw [if_pos hid, if_pos hid]
    rfl
  · rw [if_neg hid, if_neg hid]
    rfl

end ScheduleTable

variable {t t' : ScheduleTable} {ch : ScheduleChoice}

/-- What is listed has different ids. -/
theorem listsDistinct_perform (ch : ScheduleChoice) (t : ScheduleTable) (op : ScheduleOp) :
    ListsDistinct op (performSchedule ch t op).2 := by
  unfold performSchedule
  split
  · cases op <;> trivial
  · cases op with
    | listEnabled clientId => exact t.nodup_listEnabled clientId
    | _ => trivial

/-- An update that was answered took effect. -/
theorem update_of_perform {clientId : ClientId} {s saved : ScanSchedule}
    (h : performSchedule ch t (.update clientId s) = (t', .ok saved)) :
    t.update clientId s = some (saved, t') := by
  unfold performSchedule at h
  split at h
  · cases h
  · simp only [execSchedule] at h
    split at h
    · rename_i hupdate
      cases h
      exact hupdate
    · cases h

/-- Only an update that is answered changes the table, if it is neither a creation nor a removal. -/
theorem schedules_of_perform {op : ScheduleOp} (hop : SyncAwaits tr op) {r : op.Ans}
    (h : performSchedule ch t op = (t', r)) :
    t' = t ∨ ∃ c s saved, (⟨op, r⟩ : Σ op : ScheduleOp, op.Ans) = ⟨.update c s, .ok saved⟩ := by
  unfold performSchedule at h
  split at h
  · exact .inl (congrArg Prod.fst h).symm
  · cases op with
    | create | delete => exact hop.elim
    | update c s =>
      simp only [execSchedule] at h
      split at h
      · cases h
        exact .inr ⟨c, s, _, rfl⟩
      · exact .inl (congrArg Prod.fst h).symm
    | _ => exact .inl (congrArg Prod.fst h).symm

/-! ## Writes of `sync` -/

variable {deps : ScheduleDeps} {m : ScheduleMemory} {cfg cfg' : ScheduleConfig} {e : ScheduleEvent}

/-- Task `n` has listed the schedule. -/
def ScheduleConfig.Listed (cfg : ScheduleConfig) (n : ℕ) (s : ScanSchedule) : Prop :=
  ∃ task, cfg.tasks[n]? = some task ∧
    ∃ m c enabled, ⟨m, .listEnabled c, .ok enabled⟩ ∈ task.trace ∧ s ∈ enabled

/-- A step that an operation of `sync` makes changes the settings of no schedule. -/
def SyncKeepsSettings (cfg : ScheduleConfig) (e : ScheduleEvent) (cfg' : ScheduleConfig) : Prop :=
  ∀ n c op r, e = .performed n (.sync c) op r → ∀ id, cfg'.world.settings id = cfg.world.settings id

/-- The schedule that `sync` is about to write is still stored with the settings it was listed with. -/
def SyncCurrent (cfg : ScheduleConfig) (e : ScheduleEvent) : Prop :=
  ∀ n c c' s saved, e = .performed n (.sync c) (.update c' s) (.ok saved) →
    ∀ listed, cfg.Listed n listed → listed.id = s.id →
      cfg.world.settings s.id =
        some (listed.repo, listed.mode, listed.cron, listed.budgetCeiling, listed.enabled)

theorem ScheduleReaches.lawful (hreach : ScheduleReaches deps m t cfg) :
    cfg.Lawful scheduleProtocol := by
  refine Reachable.lawful (ScheduleCall.obeys deps) (fun _ _ op ch _ t => ?_) ?_ hreach
  · exact listsDistinct_perform ch t op
  · intro n task htask
    cases htask

/-- What a write of `sync` has to do with what it has listed. -/
theorem listed_of_awaits {n : ℕ} {c c' : ClientId} {s saved : ScanSchedule}
    (hlawful : cfg.Lawful scheduleProtocol)
    (hstep : Step (scheduleSystem deps) cfg (.performed n (.sync c) (.update c' s) (.ok saved)) cfg') :
    ∃ listed nextRunAt, cfg.Listed n listed ∧ s = { listed with nextRunAt } ∧
      ∀ listed', cfg.Listed n listed' → listed'.id = s.id → listed' = listed := by
  obtain ⟨task, m, k, m₀, htask, hcall, hphase, hawaits⟩ := hstep.awaited hlawful
  obtain ⟨enabled, listed, nextRunAt, ⟨⟨m, c', hmem⟩, hunique⟩, hlisted, rfl⟩ := hawaits
  refine ⟨listed, nextRunAt, ⟨task, htask, m, c', enabled, hmem, hlisted⟩, rfl, ?_⟩
  rintro listed' ⟨task', htask', m', c'', enabled', hmem', hlisted'⟩ hid
  cases htask.symm.trans htask'
  have henabled : enabled' = enabled := hunique m' c'' enabled' hmem'
  have hnodup : (enabled.map ScanSchedule.id).Nodup := (hlawful.conforms htask).answers hmem
  subst henabled
  exact List.inj_on_of_nodup_map hnodup hlisted' hlisted hid

/-- A step of `sync` leaves the table as it is, or writes a schedule. -/
theorem schedules_of_sync {n : ℕ} {c : ClientId} {op : ScheduleOp} {r : op.Ans}
    (hlawful : cfg.Lawful scheduleProtocol)
    (hstep : Step (scheduleSystem deps) cfg (.performed n (.sync c) op r) cfg') :
    cfg'.world = cfg.world ∨
      ∃ c' s saved, (⟨op, r⟩ : Σ op : ScheduleOp, op.Ans) = ⟨.update c' s, .ok saved⟩ := by
  obtain ⟨_, _, _, _, _, _, _, hawaits⟩ := hstep.awaited hlawful
  obtain ⟨_, _, _, ch, _, _, _, hperform⟩ := hstep.performed_inv
  exact schedules_of_perform hawaits hperform

/-- In every state that is reached, a write of `sync` keeps the settings of all schedules exactly when the
schedule it writes is still stored with the settings it was listed with. -/
theorem syncKeepsSettings_iff (hreach : ScheduleReaches deps m t cfg)
    (hstep : Step (scheduleSystem deps) cfg e cfg') :
    SyncKeepsSettings cfg e cfg' ↔ SyncCurrent cfg e := by
  have hlawful := hreach.lawful
  constructor
  · rintro hkeeps n c c' s saved rfl listed hlisted hid
    obtain ⟨_, _, _, ch, _, _, _, hperform⟩ := hstep.performed_inv
    obtain ⟨known, nextRunAt, -, hwritten, hunique⟩ := listed_of_awaits hlawful hstep
    obtain rfl : listed = known := hunique listed hlisted hid
    rw [← hkeeps n c _ _ rfl s.id, ScheduleTable.settings_update (update_of_perform hperform), if_pos rfl,
      hwritten]
  · rintro hcurrent n c op r rfl id
    obtain hsame | ⟨c', s, saved, hop⟩ := schedules_of_sync hlawful hstep
    · rw [hsame]
    · cases hop
      obtain ⟨_, _, _, ch, _, _, _, hperform⟩ := hstep.performed_inv
      obtain ⟨listed, nextRunAt, hlisted, hwritten, -⟩ := listed_of_awaits hlawful hstep
      have hid : listed.id = s.id := by rw [hwritten]
      rw [ScheduleTable.settings_update (update_of_perform hperform)]
      split
      · rename_i heq
        rw [← heq, hcurrent n c c' s saved rfl listed hlisted hid, hwritten]
      · rfl

/-! ## Runs -/

/-- What an operation does to the settings of a schedule: nothing, or it gives it settings, or removes it. -/
def givenSettings (id : EntityId) :
    (op : ScheduleOp) → op.Ans → Option (Option (String × ScanMode × String × ℚ × Bool))
  | .create _ s, .ok _ | .update _ s, .ok _ =>
    if s.id = id then some (some (s.repo, s.mode, s.cron, s.budgetCeiling, s.enabled)) else none
  | .delete _ removed, .ok _ => if removed = id then some none else none
  | _, _ => none

/-- What a request of an operator does to the settings of a schedule. -/
def requestedSettings (id : EntityId) :
    ScheduleEvent → Option (Option (String × ScanMode × String × ℚ × Bool))
  | .performed _ (.sync _) _ _ => none
  | .performed _ _ op r => givenSettings id op r
  | _ => none

/-- The settings that the operators gave a schedule last, from those in the table at the start. -/
def operatorSettings (t : ScheduleTable) (id : EntityId) :
    List ScheduleEvent → Option (String × ScanMode × String × ℚ × Bool)
  | [] => t.settings id
  | e :: history => (requestedSettings id e).getD (operatorSettings t id history)

/-- Lookup after a creation. -/
theorem ScheduleTable.settings_create {clientId : ClientId} {s row : ScanSchedule}
    (h : t.create clientId s = some (row, t')) (id : EntityId) :
    t'.settings id =
      if s.id = id then some (s.repo, s.mode, s.cron, s.budgetCeiling, s.enabled) else t.settings id := by
  obtain ⟨inserted, hinsert, hpair⟩ := Option.map_eq_some_iff.mp h
  obtain ⟨-, rfl⟩ := Prod.mk.inj hpair
  obtain ⟨hfree, rfl⟩ := Table.insert?_eq_some_iff.mp hinsert
  rw [settings, Table.get?_insertNew hfree]
  by_cases hid : s.id = id
  · rw [if_pos hid, if_pos hid]
    rfl
  · rw [if_neg hid, if_neg hid]
    rfl

/-- Lookup after a removal. -/
theorem ScheduleTable.settings_delete {clientId : ClientId} {removed : EntityId}
    (h : t.delete clientId removed = some t') (id : EntityId) :
    t'.settings id = if removed = id then none else t.settings id := by
  rw [settings, Table.get?_deleteOf h]
  by_cases hid : removed = id
  · rw [if_pos hid, if_pos hid]
    rfl
  · rw [if_neg hid, if_neg hid]
    rfl

/-- An operation does to the settings what its answer says. -/
theorem settings_of_perform {op : ScheduleOp} {r : op.Ans} (h : performSchedule ch t op = (t', r))
    (id : EntityId) : t'.settings id = (givenSettings id op r).getD (t.settings id) := by
  unfold performSchedule at h
  split at h
  · cases h
    cases op <;> rfl
  · cases op with
    | create clientId s =>
      simp only [execSchedule] at h
      split at h
      · rename_i hcreate
        cases h
        rw [ScheduleTable.settings_create hcreate, givenSettings]
        split <;> rfl
      · cases h
        rfl
    | update clientId s =>
      simp only [execSchedule] at h
      split at h
      · rename_i hupdate
        cases h
        rw [ScheduleTable.settings_update hupdate, givenSettings]
        split <;> rfl
      · cases h
        rfl
    | delete clientId removed =>
      simp only [execSchedule] at h
      split at h
      · rename_i hdelete
        cases h
        rw [ScheduleTable.settings_delete hdelete, givenSettings]
        split <;> rfl
      · cases h
        rfl
    | _ =>
      cases h
      rfl

/-- Only the operations change the table. -/
theorem schedules_of_step (hstep : Step (scheduleSystem deps) cfg e cfg') :
    cfg'.world = cfg.world ∧ (∀ id, requestedSettings id e = none) ∨
      ∃ n call op r ch, e = .performed n call op r ∧ performSchedule ch cfg.world op = (cfg'.world, r) := by
  cases hstep with
  | enter hc =>
    cases hc
    exact .inl ⟨rfl, fun _ => rfl⟩
  | env he =>
    cases he
    exact .inl ⟨rfl, fun _ => rfl⟩
  | issue | leave | crash => exact .inl ⟨rfl, fun _ => rfl⟩
  | perform ch htask hphase hperform => exact .inr ⟨_, _, _, _, ch, rfl, hperform⟩

/-- A step whose write by `sync` is current leaves the settings as the operators gave them. -/
theorem settings_of_scheduleStep (hreach : ScheduleReaches deps m t cfg)
    (hstep : Step (scheduleSystem deps) cfg e cfg') (hcurrent : SyncCurrent cfg e) (id : EntityId) :
    cfg'.world.settings id = (requestedSettings id e).getD (cfg.world.settings id) := by
  obtain ⟨hsame, hnone⟩ | ⟨n, call, op, r, ch, rfl, hperform⟩ := schedules_of_step hstep
  · rw [hsame, hnone id]
    rfl
  · by_cases hcall : ∃ c, call = .sync c
    · obtain ⟨c, rfl⟩ := hcall
      exact (syncKeepsSettings_iff hreach hstep).mpr hcurrent n c op r rfl id
    · have hrequest : requestedSettings id (.performed n call op r) = givenSettings id op r := by
        cases call with
        | sync c => exact absurd ⟨c, rfl⟩ hcall
        | _ => rfl
      rw [hrequest]
      exact settings_of_perform hperform id

/-- The runs in which no write of `sync` changes the settings of a schedule are those in which every schedule
it writes is still stored with the settings it was listed with. In such a run the settings are always those
that the operators gave last. -/
theorem sync_keeps_settings_iff (deps : ScheduleDeps) (m : ScheduleMemory) (t : ScheduleTable)
    (cfg : ScheduleConfig) :
    let start : ScheduleConfig := { mem := m, world := t, tasks := [], history := [] }
    (Reachable (scheduleSystem deps)
        (fun cfg e => ∀ cfg', Step (scheduleSystem deps) cfg e cfg' → SyncKeepsSettings cfg e cfg') start cfg ↔
      Reachable (scheduleSystem deps) SyncCurrent start cfg) ∧
    (Reachable (scheduleSystem deps) SyncCurrent start cfg →
      ∀ id, cfg.world.settings id = operatorSettings t id cfg.history) := by
  intro start
  refine ⟨⟨fun hreach => ?_, fun hreach => ?_⟩, fun hreach => ?_⟩
  · induction hreach with
    | start => exact .start
    | step hbefore hkeeps hstep ih =>
      refine .step ih ?_ hstep
      exact (syncKeepsSettings_iff (hbefore.mono fun _ _ _ => trivial) hstep).mp (hkeeps _ hstep)
  · induction hreach with
    | start => exact .start
    | step hbefore hcurrent hstep ih =>
      refine .step ih (fun cfg' hstep' => ?_) hstep
      exact (syncKeepsSettings_iff (hbefore.mono fun _ _ _ => trivial) hstep').mpr hcurrent
  · induction hreach with
    | start => exact fun _ => rfl
    | step hbefore hcurrent hstep ih =>
      intro id
      rw [settings_of_scheduleStep (hbefore.mono fun _ _ _ => trivial) hstep hcurrent, ih id, hstep.history]
      rfl

/-! ### A schedule that is enabled again -/

section Counterexample

/-- An enabled schedule. -/
private def nightly : ScanSchedule :=
  { id := "nightly", clientId := "client", repo := "repo", cron := "0 0 * * *", budgetCeiling := 10
    enabled := true, createdBy := "operator", createdAt := 0 }

/-- The table with that schedule. -/
private def nightlyTable : ScheduleTable := { rows := [nightly], nodup := List.nodup_singleton _ }

private def someDeps : ScheduleDeps :=
  { cronIsValid := fun _ => true, nextCronRun := fun _ _ => none, verifyCsrfToken := fun _ _ => true
    numberText := fun _ => "10" }

private def operatorSession : Session :=
  { authUser := some { id := "operator", clientId := "client", email := "o@c", role := .operator }
    authMethod := .bearer }

/-- The request that disables the schedule and lowers its budget ceiling. -/
private def disable : ScheduleCall :=
  .put operatorSession (.ok "nightly")
    (.ok { repo := "repo", cron := "0 0 * * *", budgetCeiling := 5, enabled := false })

/-- `sync` has read the schedule and is about to write it; in between an operator disables it. -/
private def overlap : List (Label ScheduleCall ScheduleChoice ScheduleMemory) :=
  [.call (.sync "client")] ++
    turns 0 4 { listed := [{ scheduleId := "nightly", nextMs := some 1 }] } ++
      [.resume 0, .call disable] ++ turns 1 2 ({} : ScheduleChoice)

/-- The event is an operation of `sync`. -/
private def isSync : ScheduleEvent → Bool
  | .performed _ (.sync _) _ _ => true
  | _ => false

private theorem exists_overlap : ∃ cfg e cfg',
    Reachable (scheduleSystem someDeps) (fun _ _ => true = true)
        { mem := { now := 0, id := "new" }, world := nightlyTable, tasks := [], history := [] } cfg ∧
      Step (scheduleSystem someDeps) cfg e cfg' ∧
        (isSync e && decide (cfg'.world.settings "nightly" ≠ cfg.world.settings "nightly")) = true := by
  have hrun : ((run? (scheduleSystem someDeps) (fun _ _ => true) overlap
      { mem := { now := 0, id := "new" }, world := nightlyTable, tasks := [], history := [] }).any
        fun cfg => (step? (scheduleSystem someDeps) cfg (.perform 0 {})).any fun s =>
          isSync s.1 && decide (s.2.world.settings "nightly" ≠ cfg.world.settings "nightly")) = true := by
    decide +kernel
  exact exists_step_of_run? hrun

/-- The write of `sync` enables a schedule again that an operator has disabled. -/
theorem sync_not_keepsSettings : ¬∀ (deps : ScheduleDeps) (m : ScheduleMemory) (t : ScheduleTable)
    (cfg : ScheduleConfig) (e : ScheduleEvent) (cfg' : ScheduleConfig), ScheduleReaches deps m t cfg →
      Step (scheduleSystem deps) cfg e cfg' → SyncKeepsSettings cfg e cfg' := by
  intro h
  obtain ⟨cfg, e, cfg', hreach, hstep, hchanged⟩ := exists_overlap
  have hkeeps := h someDeps _ nightlyTable cfg e cfg' (hreach.mono fun _ _ _ => trivial) hstep
  rw [Bool.and_eq_true, decide_eq_true_eq] at hchanged
  obtain ⟨hsync, hne⟩ := hchanged
  cases e with
  | performed n call op r =>
    cases call with
    | sync c => exact hne (hkeeps n c op r rfl "nightly")
    | _ => cases hsync
  | _ => cases hsync

end Counterexample

end MontrSecure
