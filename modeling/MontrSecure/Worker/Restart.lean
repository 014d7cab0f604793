import MontrSecure.Contracts.Schemas
import MontrSecure.Orchestrator.Independence

/-!
# What a layer starts from

The inputs `apps/worker/src/runners.ts` assembles for a layer: what the process has cached of the layers before
it or, after a restart, what is read from the store. `restartTransparent_iff` says when the two are the same.
-/

namespace MontrSecure

open Async Action

/-! ## Inputs of a runner -/

/-- `ctx.priorOutputs.layer0?.appMap`. -/
def PriorOutputs.appMap (prior : PriorOutputs) : Option AppMap :=
  match prior .layer0 with
  | some (.layer0 out) => some out.appMap
  | _ => none

/-- `ctx.priorOutputs.layer2`. -/
def PriorOutputs.layer2 (prior : PriorOutputs) : Option Layer2Output :=
  match prior .layer2 with
  | some (.layer2 out) => some out
  | _ => none

/-- `ctx.priorOutputs.layer3`. -/
def PriorOutputs.layer3 (prior : PriorOutputs) : Option Layer3Output :=
  match prior .layer3 with
  | some (.layer3 out) => some out
  | _ => none

namespace LayerContext

variable (ctx : LayerContext) (db : Database)

/-- `appMapId` of a Layer 1 job. -/
def jobAppMapId : Option EntityId :=
  match ctx.job.payload with
  | .layer1 appMapId => some appMapId
  | _ => none

/-- `resolveAppMap`. -/
def resolveAppMap : Except Err AppMap :=
  match PriorOutputs.appMap ctx.priorOutputs with
  | some cached => .ok cached
  | none =>
    let id := (ctx.scan.appMapId.or ctx.jobAppMapId).filter (· ≠ "")
    match id.bind fun id => AppMapRepository.get ctx.job.clientId id db with
    | some persisted => .ok persisted
    | none => .error (.internal s!"{ctx.job.layer.name}: App Map not found for scan {ctx.job.scanId}")

/-- The probable findings of Layer 3. -/
def probable : List ProbableFinding :=
  ((PriorOutputs.layer2 ctx.priorOutputs).map (·.probable)).getD
    (ProbableRepository.listByScan ctx.job.clientId ctx.job.scanId db)

/-- The confirmed findings of Layers 4 and 5. -/
def confirmed : List ConfirmedFinding :=
  ((PriorOutputs.layer3 ctx.priorOutputs).map (·.confirmed)).getD
    (ConfirmedRepository.listByScan ctx.job.clientId ctx.job.scanId db)

/-- The unconfirmed findings of Layer 5. -/
def unconfirmed : List UnconfirmedFinding :=
  ((PriorOutputs.layer3 ctx.priorOutputs).map (·.unconfirmed)).getD
    (UnconfirmedRepository.listByScan ctx.job.clientId ctx.job.scanId db)

/-- The context of the same job in a process that has been restarted: nothing is cached. -/
def restarted : LayerContext := { ctx with priorOutputs := fun _ => none }

end LayerContext

/-! ## Persisting with the cache -/

/-- `persistLayerOutput` run to its end in a process with memory `m`: the memory and the database after it, or
what it failed with. -/
def persistRun (now : IsoDateTime) (clientId : ClientId) (out : LayerOutput) (scan : Scan) (m : Memory)
    (db : Database) : Except Err (Memory × Database) :=
  match (persistLayerOutput clientId out.layer (.wellFormed out) scan m).runAlone (storeAlone now) db with
  | (.ok (_, none), m', db') => .ok (m', db')
  | (.ok (_, some e), _, _) | (.error e, _, _) => .error e

section Persisting

variable {now : IsoDateTime} {clientId : ClientId} {scan : Scan} {m m' : Memory} {db db' : Database}
  {out : LayerOutput}

theorem persistStored_of_persistRun (h : persistRun now clientId out scan m db = .ok (m', db')) :
    persistStored now clientId out scan m db = .ok db' := by
  unfold persistRun at h
  unfold persistStored
  generalize (persistLayerOutput clientId out.layer (.wellFormed out) scan m).runAlone (storeAlone now) db = run
    at h ⊢
  -- Both read the run in the same way, so what it answers settles both.
  obtain ⟨(e | ⟨_, (_ | e)⟩), m₁, db₁⟩ := run
  · cases h
  · cases h
    rfl
  · cases h

/-- The action leaves the memory of the process as it is. -/
def KeepsMemory {α : Type} (now : IsoDateTime) (p : Action α) : Prop :=
  ∀ m db, ((p m).runAlone (storeAlone now) db).2.1 = m

theorem keepsMemory_store (q : StoreOp) : KeepsMemory now (store q) := by
  intro m db
  rw [runAlone_store]
  split <;> rfl

theorem KeepsMemory.bind {α β : Type} {p : Action α} {q : α → Action β} (hp : KeepsMemory now p)
    (hq : ∀ a, KeepsMemory now (q a)) : KeepsMemory now (p >>= q) := by
  intro m db
  rw [Program.bind_apply, Outcome.runAlone_bind]
  have hm := hp m db
  revert hm
  rcases (p m).runAlone (storeAlone now) db with ⟨⟨⟩ | a, m', db'⟩
  · exact id
  · rintro rfl
    exact hq a m' db'

theorem KeepsMemory.whenNonempty {α : Type} {rows : List α} {p : Action Unit} (hp : KeepsMemory now p) :
    KeepsMemory now (whenNonempty rows p) := by
  unfold MontrSecure.whenNonempty
  split
  · exact fun _ _ => rfl
  · exact hp

theorem keepsMemory_createFixes (fixes : List Fix) : KeepsMemory now (createFixes clientId fixes) := by
  induction fixes with
  | nil => exact fun _ _ => rfl
  | cons fix fixes ih => exact (keepsMemory_store _).bind fun _ => ih

theorem keepsMemory_linkFixes (links : List (EntityId × EntityId)) :
    KeepsMemory now (linkFixes clientId links) := by
  induction links with
  | nil => exact fun _ _ => rfl
  | cons link links ih =>
    refine KeepsMemory.bind ((keepsMemory_store _).bind fun fix => ?_) fun _ => ih
    cases fix with
    | none => exact fun _ _ => rfl
    | some fix => exact (keepsMemory_store _).bind fun _ _ _ => rfl

theorem runAlone_attempt {α : Type} (p : Action α) :
    (attempt p m).runAlone (storeAlone now) db =
      (.ok ((p m).runAlone (storeAlone now) db).1, ((p m).runAlone (storeAlone now) db).2) := by
  show (Outcome.tryCatch (Outcome.bind _ _) _).runAlone _ _ = _
  rw [Outcome.runAlone_tryCatch, Outcome.runAlone_bind]
  rcases (p m).runAlone (storeAlone now) db with ⟨⟨⟩ | ⟨⟩, m', db'⟩ <;> rfl

/-- The memory with the output of a layer in the cache of the scan. -/
def Memory.withOutput (m : Memory) (scanId : ScanId) (out : LayerOutput) : Memory :=
  { m with
    caches := Function.update m.caches scanId
      ((m.caches scanId).map fun cache => Function.update cache out.layer (some out)) }

/-- The action, when it succeeds, leaves the output in the cache. -/
def Caches (now : IsoDateTime) (scanId : ScanId) (out : LayerOutput) (p : Action Unit) : Prop :=
  ∀ m db m' db', (p m).runAlone (storeAlone now) db = (.ok (), m', db') → m' = m.withOutput scanId out

theorem caches_bind {α : Type} {p : Action α} {q : Action Unit} {scanId : ScanId} (hp : KeepsMemory now p)
    (hq : Caches now scanId out q) : Caches now scanId out (p >>= fun _ => q) := by
  intro m db m' db' h
  rw [Program.bind_apply, Outcome.runAlone_bind] at h
  have hm := hp m db
  revert hm h
  rcases (p m).runAlone (storeAlone now) db with ⟨⟨⟩ | a, m₁, db₁⟩
  · intro h
    cases h
  · rintro h rfl
    exact hq _ _ _ _ h

theorem caches_cacheOutput {scanId : ScanId} : Caches now scanId out (cacheOutput scanId out) := by
  intro m db m' db' h
  cases h
  rfl

theorem caches_of_settle {p : Action Unit} {scanId : ScanId} {s s' : Scan} (hp : Caches now scanId out p)
    (h : (settle s p m).runAlone (storeAlone now) db = (.ok (s', none), m', db')) :
    m' = m.withOutput scanId out := by
  have hout := hp m db
  revert hout h
  rw [settle, Program.bind_apply, Outcome.runAlone_bind, runAlone_attempt]
  rcases (p m).runAlone (storeAlone now) db with ⟨⟨⟩ | ⟨⟩, m₁, db₁⟩
  · intro h
    cases h
  · intro h hout
    cases h
    exact hout _ _ rfl

/-- After its output is persisted, the cache holds it. -/
theorem memory_of_persistRun (h : persistRun now clientId out scan m db = .ok (m', db')) :
    m' = m.withOutput scan.id out := by
  unfold persistRun at h
  split at h
  · rename_i s m₁ db₁ heq
    cases h
    rw [persistLayerOutput, parse_wellFormed] at heq
    cases out with
    | layer0 out =>
      have hm : ((store (.appMapsCreate clientId out.appMap) m).runAlone (storeAlone now) db).2.1 = m :=
        keepsMemory_store _ m db
      dsimp only at heq
      rw [Program.bind_apply, Outcome.runAlone_bind, runAlone_attempt] at heq
      revert hm heq
      rcases (store (.appMapsCreate clientId out.appMap) m).runAlone (storeAlone now) db with ⟨⟨⟩ | a, m₁, db₁⟩
      · intro heq
        cases heq
      · rintro heq rfl
        exact caches_of_settle (caches_bind (keepsMemory_store _) caches_cacheOutput) heq
    | layer1 out =>
      exact caches_of_settle (caches_bind (keepsMemory_store _).whenNonempty caches_cacheOutput) heq
    | layer2 out =>
      exact caches_of_settle (caches_bind (keepsMemory_store _).whenNonempty caches_cacheOutput) heq
    | layer3 out =>
      exact caches_of_settle (caches_bind (keepsMemory_store _).whenNonempty
        (caches_bind (keepsMemory_store _).whenNonempty caches_cacheOutput)) heq
    | layer4 out => exact caches_of_settle (caches_bind (keepsMemory_createFixes _) caches_cacheOutput) heq
    | layer5 out => exact caches_of_settle (caches_bind (keepsMemory_linkFixes _) caches_cacheOutput) heq
  · cases h
  · cases h

end Persisting

/-! ## Restarts -/

/-- The context of a job of the scan, in the process with memory `m`; the scan is the one in the store. -/
structure LayerContext.Of (ctx : LayerContext) (clientId : ClientId) (scanId : ScanId) (m : Memory)
    (db : Database) : Prop where
  client : ctx.job.clientId = clientId
  job : ctx.job.scanId = scanId
  scan : ScanRepository.get clientId scanId db = some ctx.scan
  priorOutputs : m.caches scanId = some ctx.priorOutputs

/-- The map that is read after a restart is the cached one. -/
def LayerContext.SameAppMap (ctx : LayerContext) (db : Database) : Prop :=
  ∃ read cached, ctx.restarted.resolveAppMap db = .ok read ∧ ctx.resolveAppMap db = .ok cached ∧ read.Same cached

/-- The layers start from the same facts in the process that persisted the outputs of the layers before them and in
one that is restarted then: after intake, after correlation and after confirmation. -/
structure RestartTransparent (clientId : ClientId) (scanId : ScanId) (intake correlation confirmation :
    Memory × Database) : Prop where
  intake : ∀ ctx : LayerContext, ctx.Of clientId scanId intake.1 intake.2 → ctx.SameAppMap intake.2
  correlation : ∀ ctx : LayerContext, ctx.Of clientId scanId correlation.1 correlation.2 →
    ctx.SameAppMap correlation.2 ∧ (ctx.restarted.probable correlation.2).Perm (ctx.probable correlation.2)
  confirmation : ∀ ctx : LayerContext, ctx.Of clientId scanId confirmation.1 confirmation.2 →
    ctx.SameAppMap confirmation.2 ∧
      (ctx.restarted.confirmed confirmation.2).Perm (ctx.confirmed confirmation.2) ∧
      (ctx.restarted.unconfirmed confirmation.2).Perm (ctx.unconfirmed confirmation.2)

/-- The store has a place for everything the outputs say, and nothing is demoted. -/
structure ScanOutputs.Kept (o : ScanOutputs) : Prop where
  appMap : o.intake.appMap.Storable
  probable : (o.correlation.probable.map (·.id)).Nodup ∧
    ∀ p ∈ o.correlation.probable, locationHasExtras p.location = false
  confirmed : (o.confirmation.confirmed.map (·.id)).Nodup ∧
    ∀ f ∈ o.confirmation.confirmed, locationHasExtras f.location = false
  unconfirmed : o.confirmation.unconfirmed = []

section Restarts

variable {hash : String → String} {clientId : ClientId} {scan : Scan} {o : ScanOutputs} {m : Memory}
  {db db₀ d : Database} {ctx : LayerContext} {cache : PriorOutputs}

/-- There is such a context. -/
theorem exists_context {row : Scan} (hscan : ScanRepository.get clientId scan.id d = some row)
    (hcache : m.caches scan.id = some cache) : ∃ ctx : LayerContext, ctx.Of clientId scan.id m d :=
  ⟨{ scan := row, meter := 0, signal := 0, attempt := 0, priorOutputs := cache
     job :=
       { scanId := scan.id, clientId, idempotencyKey := "", attempt := 0, resumeTokenRef := none
         payload := .layer2 } }, rfl, rfl, hscan, hcache⟩

theorem LayerContext.Of.restarted_probable (h : ctx.Of clientId scan.id m d) :
    ctx.restarted.probable d = ProbableRepository.listByScan clientId scan.id d := by
  rw [← h.client, ← h.job]
  rfl

theorem LayerContext.Of.restarted_confirmed (h : ctx.Of clientId scan.id m d) :
    ctx.restarted.confirmed d = ConfirmedRepository.listByScan clientId scan.id d := by
  rw [← h.client, ← h.job]
  rfl

theorem LayerContext.Of.restarted_unconfirmed (h : ctx.Of clientId scan.id m d) :
    ctx.restarted.unconfirmed d = UnconfirmedRepository.listByScan clientId scan.id d := by
  rw [← h.client, ← h.job]
  rfl

/-- The cached probable findings are those of the cached output. -/
theorem LayerContext.Of.probable_eq {out : Layer2Output} (h : ctx.Of clientId scan.id m d)
    (hcache : m.caches scan.id = some cache) (hout : PriorOutputs.layer2 cache = some out) :
    ctx.probable d = out.probable := by
  rw [LayerContext.probable, ← Option.some.inj (hcache.symm.trans h.priorOutputs), hout]
  rfl

theorem LayerContext.Of.confirmed_eq {out : Layer3Output} (h : ctx.Of clientId scan.id m d)
    (hcache : m.caches scan.id = some cache) (hout : PriorOutputs.layer3 cache = some out) :
    ctx.confirmed d = out.confirmed := by
  rw [LayerContext.confirmed, ← Option.some.inj (hcache.symm.trans h.priorOutputs), hout]
  rfl

theorem LayerContext.Of.unconfirmed_eq {out : Layer3Output} (h : ctx.Of clientId scan.id m d)
    (hcache : m.caches scan.id = some cache) (hout : PriorOutputs.layer3 cache = some out) :
    ctx.unconfirmed d = out.unconfirmed := by
  rw [LayerContext.unconfirmed, ← Option.some.inj (hcache.symm.trans h.priorOutputs), hout]
  rfl

/-- The probable findings of the scan have ids no other scan uses. -/
theorem probable_fresh (hinj : Function.Injective hash) (hdb : Grounded hash db)
    (hid : '|' ∉ scan.id.toList) (hfresh : db.scans.contains scan.id = false)
    (hvalid : o.Valid hash clientId scan.id) {p : ProbableFinding} (hp : p ∈ o.correlation.probable) :
    db.probable.contains p.id = false := by
  obtain ⟨-, hpscan, hproduced⟩ := hvalid.probable p hp
  rw [← Bool.not_eq_true, Table.contains_iff]
  rintro ⟨r, hr, hrid⟩
  obtain ⟨hscan, hby⟩ := hdb.probable r hr
  obtain ⟨s, hs, hsid⟩ := Table.contains_iff.mp hscan
  have hrow : '|' ∉ r.scanId.toList := hsid ▸ hdb.scans s hs
  have hids : probableIdBy hash r.scanId r.rootCauseId = probableIdBy hash p.scanId p.rootCauseId := by
    rw [← hby, hrid, hproduced]
  have hsame : r.scanId = p.scanId := scan_of_probableId hinj hrow (hpscan ▸ hid) hids
  rw [hsame, hpscan, hfresh] at hscan
  cases hscan

/-- What the restarted process reads of the map. -/
theorem sameAppMap_iff {appMap back : AppMap} (hne : appMap.id ≠ "")
    (hctx : ctx.job.clientId = clientId) (hscan : ctx.scan.appMapId = some appMap.id)
    (hcached : PriorOutputs.appMap ctx.priorOutputs = some appMap)
    (hget : AppMapRepository.get clientId appMap.id d = some back) :
    ctx.SameAppMap d ↔ back.Same appMap := by
  have hread : ctx.restarted.resolveAppMap d = .ok back := by
    simp [LayerContext.resolveAppMap, LayerContext.restarted, PriorOutputs.appMap, Option.filter, hscan, hctx, hget,
      hne]
  have hkept : ctx.resolveAppMap d = .ok appMap := by
    simp [LayerContext.resolveAppMap, hcached]
  simp [LayerContext.SameAppMap, hread, hkept]

/-- Which probable findings are read after a restart. -/
theorem probable_perm_iff (hinj : Function.Injective hash) (hdb : Grounded hash db)
    (hid : '|' ∉ scan.id.toList) (hfresh : db.scans.contains scan.id = false)
    (hvalid : o.Valid hash clientId scan.id)
    (hd : d.probable = db.probable.insertMissing (o.correlation.probable.map (probableToCreate clientId))) :
    (ProbableRepository.listByScan clientId scan.id d).Perm o.correlation.probable ↔
      (o.correlation.probable.map (·.id)).Nodup ∧
        ∀ p ∈ o.correlation.probable, locationHasExtras p.location = false := by
  have hfree : db.probable.Free (o.correlation.probable.map (·.id)) ↔
      (o.correlation.probable.map (·.id)).Nodup :=
    and_iff_left (List.forall_mem_map.mpr fun p hp => probable_fresh hinj hdb hid hfresh hvalid hp)
  have hold : ∀ r ∈ db.probable.rows,
      (decide (r.status = .probable) && decide (r.clientId = clientId) && decide (r.scanId = scan.id)) = false := by
    intro r hr
    have hother : r.scanId ≠ scan.id := by
      intro h
      have hscan := (hdb.probable r hr).1
      rw [h, hfresh] at hscan
      cases hscan
    simp [hother]
  have hnew : ∀ p ∈ o.correlation.probable, (decide ((probableToCreate clientId p).status = .probable) &&
      decide ((probableToCreate clientId p).clientId = clientId) &&
        decide ((probableToCreate clientId p).scanId = scan.id)) = true := by
    intro p hp
    simp [probableToCreate, (hvalid.probable p hp).2.1]
  rw [ProbableRepository.listByScan, FindingRepo.listByScan, hd,
    ((List.mergeSort_perm _ _).map probableFromRow).congr_left o.correlation.probable]
  have hkey : ∀ p : ProbableFinding, (probableToCreate clientId p).id = p.id := fun _ => rfl
  refine (Table.perm_insertMissing_iff hkey (fun _ => rfl) hold hnew).trans ?_
  rw [hfree]
  refine and_congr_right fun _ => forall₂_congr fun p hp => ?_
  exact probableFromRow_toCreate_iff.trans (and_iff_right (hvalid.probable p hp).1)

/-- No demotion is read after a restart: the rows of the findings are those Layer 2 inserted. -/
theorem unconfirmed_eq_nil (hdb : Grounded hash db) (hfresh : db.scans.contains scan.id = false)
    (hvalid : o.Valid hash clientId scan.id)
    (hd : d.probable =
      (db.probable.insertMissing (o.correlation.probable.map (probableToCreate clientId))).insertMissing
        (o.confirmation.unconfirmed.map (unconfirmedToCreate clientId))) :
    UnconfirmedRepository.listByScan clientId scan.id d = [] := by
  have htaken : d.probable =
      db.probable.insertMissing (o.correlation.probable.map (probableToCreate clientId)) := by
    rw [hd]
    refine Table.insertMissing_of_contains fun row hrow => ?_
    obtain ⟨u, hu, rfl⟩ := List.mem_map.mp hrow
    obtain ⟨p, hp, reason, rfl⟩ := hvalid.unconfirmed u hu
    exact Table.contains_insertMissing_of_mem (r := probableToCreate clientId p) (List.mem_map_of_mem hp)
  rw [UnconfirmedRepository.listByScan, List.map_eq_nil_iff, List.eq_nil_iff_forall_not_mem]
  intro r hr
  obtain ⟨hmem, hstatus, -, hscan⟩ := mem_listByScan_iff.mp hr
  rw [htaken] at hmem
  obtain hold | ⟨hnew, -⟩ := Table.mem_insertMissing hmem
  · have hcontains := (hdb.probable r hold).1
    rw [hscan, hfresh] at hcontains
    cases hcontains
  · obtain ⟨p, -, rfl⟩ := List.mem_map.mp hnew
    cases hstatus

end Restarts

/-! ## A run -/

/-- The outputs up to confirmation are persisted one after the other; `p₀` to `p₄` are the memory and the store
before and after each. -/
structure PersistedRun (now : LayerId → IsoDateTime) (clientId : ClientId) (scan : Scan) (o : ScanOutputs)
    (p₀ p₁ p₂ p₃ p₄ : Memory × Database) : Prop where
  intake : persistRun (now .layer0) clientId (.layer0 o.intake) scan p₀.1 p₀.2 = .ok p₁
  discovery : persistRun (now .layer1) clientId (.layer1 o.discovery) (scanAfterIntake scan o.intake) p₁.1 p₁.2 =
    .ok p₂
  correlation : persistRun (now .layer2) clientId (.layer2 o.correlation) (scanAfterIntake scan o.intake) p₂.1
    p₂.2 = .ok p₃
  confirmation : persistRun (now .layer3) clientId (.layer3 o.confirmation) (scanAfterIntake scan o.intake) p₃.1
    p₃.2 = .ok p₄

section Runs

variable {hash : String → String} {now₀ : IsoDateTime} {now : LayerId → IsoDateTime} {clientId : ClientId}
  {scan : Scan} {o : ScanOutputs} {db : Database} {p₀ p₁ p₂ p₃ p₄ : Memory × Database} {cache : PriorOutputs}

/-- The store after each of the layers. -/
theorem PersistedRun.databases (h : PersistedRun now clientId scan o p₀ p₁ p₂ p₃ p₄)
    (hnew : JustCreated clientId scan db p₀.2) (hvalid : o.Valid hash clientId scan.id) :
    Creatable clientId o.intake.appMap p₀.2 ∧
      p₁.2 = { withAppMap clientId o.intake.appMap p₀.2 with
        scans := p₀.2.scans.replace (scanToUpdate { scan with clientId } (scanAfterIntake scan o.intake)) } ∧
      p₃.2 = { p₁.2 with
        candidates := p₀.2.candidates.insertMissing (o.discovery.candidates.map (candidateToCreate clientId))
        probable := p₀.2.probable.insertMissing (o.correlation.probable.map (probableToCreate clientId)) } ∧
      p₄.2 = { p₃.2 with
        confirmed := p₀.2.confirmed.insertMissing (o.confirmation.confirmed.map (confirmedToCreate clientId))
        probable := p₃.2.probable.insertMissing (o.confirmation.unconfirmed.map (unconfirmedToCreate clientId)) } := by
  obtain ⟨hfree, h₁⟩ := (persistStored_layer0_iff hnew.get).mp (persistStored_of_persistRun h.intake)
  have hscan : p₁.2.scans.contains scan.id = true := by
    rw [← h₁]
    exact Table.contains_replace.trans hnew.contains
  have h₂ := persistStored_of_persistRun h.discovery
  rw [persistStored_layer1 fun c hc => (hvalid.candidates c hc).2.1 ▸ hscan] at h₂
  have h₃ := persistStored_of_persistRun h.correlation
  rw [← Except.ok.inj h₂, persistStored_layer2 fun p hp => (hvalid.probable p hp).2.1 ▸ hscan] at h₃
  have h₄ := persistStored_of_persistRun h.confirmation
  rw [← Except.ok.inj h₃, persistStored_layer3 (fun f hf => (hvalid.confirmed f hf).2.1 ▸ hscan) fun u hu => ?_] at h₄
  · refine ⟨hfree, h₁.symm, ?_, ?_⟩
    · rw [← Except.ok.inj h₃, ← h₁]
      rfl
    · rw [← Except.ok.inj h₄, ← Except.ok.inj h₃, ← h₁]
      rfl
  · obtain ⟨p, hp, reason, rfl⟩ := hvalid.unconfirmed u hu
    exact (hvalid.probable p hp).2.1 ▸ hscan

/-- The cache after each of the layers. -/
theorem PersistedRun.caches (h : PersistedRun now clientId scan o p₀ p₁ p₂ p₃ p₄)
    (hcache : p₀.1.caches scan.id = some cache) :
    ∃ c₁ c₃ c₄, p₁.1.caches scan.id = some c₁ ∧ p₃.1.caches scan.id = some c₃ ∧
      p₄.1.caches scan.id = some c₄ ∧ PriorOutputs.appMap c₁ = some o.intake.appMap ∧
      PriorOutputs.appMap c₃ = some o.intake.appMap ∧ PriorOutputs.layer2 c₃ = some o.correlation ∧
      PriorOutputs.appMap c₄ = some o.intake.appMap ∧ PriorOutputs.layer3 c₄ = some o.confirmation := by
  have hstep : ∀ {t s out c} {p p' : Memory × Database}, persistRun t clientId out s p.1 p.2 = .ok p' →
      s.id = scan.id → p.1.caches scan.id = some c →
        p'.1.caches scan.id = some (Function.update c out.layer (some out)) := by
    intro t s out c p p' hrun hs hc
    rw [memory_of_persistRun hrun, hs]
    simp [Memory.withOutput, hc]
  have h₁ := hstep h.intake rfl hcache
  have h₂ := hstep h.discovery rfl h₁
  have h₃ := hstep h.correlation rfl h₂
  have h₄ := hstep h.confirmation rfl h₃
  refine ⟨_, _, _, h₁, h₃, h₄, ?_⟩
  simp [PriorOutputs.appMap, PriorOutputs.layer2, PriorOutputs.layer3, LayerOutput.layer, Function.update]

/-- The store after each of the layers holds the same map, and the scan refers to it. -/
theorem PersistedRun.sameAppMap_iff (h : PersistedRun now clientId scan o p₀ p₁ p₂ p₃ p₄)
    (hdb₀ : Grounded hash p₀.2) (hnew : JustCreated clientId scan db p₀.2)
    (hvalid : o.Valid hash clientId scan.id) (hmap : o.intake.appMap.valid = true) {m : Memory} {d : Database}
    (hd : d = p₁.2 ∨ d = p₃.2 ∨ d = p₄.2) {ctx : LayerContext} (hctx : ctx.Of clientId scan.id m d)
    (hcached : PriorOutputs.appMap ctx.priorOutputs = some o.intake.appMap) :
    ctx.SameAppMap d ↔ o.intake.appMap.Storable := by
  obtain ⟨hfree, h₁, h₃, h₄⟩ := h.databases hnew hvalid
  have hne : o.intake.appMap.id ≠ "" := by
    simp only [AppMap.valid, Bool.and_eq_true, decide_eq_true_eq] at hmap
    exact hmap.1.1.1.1.1.1.1.1.1.1.1.1.1.1.1.1
  have htables : AppMapRepository.get clientId o.intake.appMap.id d =
      AppMapRepository.get clientId o.intake.appMap.id (withAppMap clientId o.intake.appMap p₀.2) ∧
      d.scans = p₀.2.scans.replace (scanToUpdate { scan with clientId } (scanAfterIntake scan o.intake)) := by
    obtain rfl | rfl | rfl := hd
    · rw [h₁]
      exact ⟨rfl, rfl⟩
    · rw [h₃, h₁]
      exact ⟨rfl, rfl⟩
    · rw [h₄, h₃, h₁]
      exact ⟨rfl, rfl⟩
  have hscan : ctx.scan.appMapId = some o.intake.appMap.id := by
    have hrow := hctx.scan
    rw [ScanRepository.get, htables.2, Table.get?_replace] at hrow
    have hkey : (scanToUpdate { scan with clientId } (scanAfterIntake scan o.intake)).id = scan.id := rfl
    rw [if_pos hkey, Option.filter_eq_some_iff, Option.map_eq_some_iff] at hrow
    obtain ⟨⟨row, -, hrow⟩, -⟩ := hrow
    rw [← hrow]
    rfl
  rw [MontrSecure.sameAppMap_iff hne hctx.client hscan hcached (htables.1.trans (get_withAppMap hdb₀ hfree))]
  exact same_appMapFromRows_iff.trans (and_iff_right hvalid.appMap)

/-- The scan is in the store after each of the layers. -/
theorem PersistedRun.exists_scanRow {d : Database} (h : PersistedRun now clientId scan o p₀ p₁ p₂ p₃ p₄)
    (hnew : JustCreated clientId scan db p₀.2) (hvalid : o.Valid hash clientId scan.id)
    (hd : d = p₁.2 ∨ d = p₃.2 ∨ d = p₄.2) : ∃ row, ScanRepository.get clientId scan.id d = some row := by
  obtain ⟨-, h₁, h₃, h₄⟩ := h.databases hnew hvalid
  have hscans : d.scans =
      p₀.2.scans.replace (scanToUpdate { scan with clientId } (scanAfterIntake scan o.intake)) := by
    obtain rfl | rfl | rfl := hd
    · rw [h₁]
    · rw [h₃, h₁]
    · rw [h₄, h₃, h₁]
  have hkey : (scanToUpdate { scan with clientId } (scanAfterIntake scan o.intake)).id = scan.id := rfl
  obtain ⟨old, hold⟩ := Option.isSome_iff_exists.mp (Table.get?_isSome_iff.mpr hnew.contains)
  refine ⟨scanToUpdate { scan with clientId } (scanAfterIntake scan o.intake), ?_⟩
  rw [ScanRepository.get, hscans, Table.get?_replace, if_pos hkey, hold]
  simp [scanToUpdate]

/-- A restart is transparent exactly when the store has a place for everything the outputs say and nothing was
demoted. -/
theorem restartTransparent_iff (hinj : Function.Injective hash) (hreached : Reached hash db)
    (hid : '|' ∉ scan.id.toList) (hcreate : (StoreOp.scansCreate clientId scan).step now₀ db = .ok p₀.2)
    (hvalid : o.Valid hash clientId scan.id) (hmap : o.intake.appMap.valid = true)
    (hcache : p₀.1.caches scan.id = some cache) (hrun : PersistedRun now clientId scan o p₀ p₁ p₂ p₃ p₄) :
    RestartTransparent clientId scan.id p₁ p₃ p₄ ↔ o.Kept := by
  have hdb := grounded_of_reached hreached
  have hdb₀ : Grounded hash p₀.2 := grounded_scansCreate hdb hid hcreate
  have hnew := justCreated hcreate
  obtain ⟨hfree, h₁, h₃, h₄⟩ := hrun.databases hnew hvalid
  obtain ⟨c₁, c₃, c₄, hc₁, hc₃, hc₄, hmap₁, hmap₃, hlayer₂, hmap₄, hlayer₃⟩ := hrun.caches hcache
  have happMap : ∀ {m d c ctx}, d = p₁.2 ∨ d = p₃.2 ∨ d = p₄.2 → m.caches scan.id = some c →
      PriorOutputs.appMap c = some o.intake.appMap → LayerContext.Of ctx clientId scan.id m d →
        (ctx.SameAppMap d ↔ o.intake.appMap.Storable) := by
    intro m d c ctx hd hc hcached hctx
    refine hrun.sameAppMap_iff hdb₀ hnew hvalid hmap hd hctx ?_
    rw [← hcached, ← Option.some.inj (hc.symm.trans hctx.priorOutputs)]
  -- what is read of the findings
  have hprobable : (ProbableRepository.listByScan clientId scan.id p₃.2).Perm o.correlation.probable ↔
      (o.correlation.probable.map (·.id)).Nodup ∧
        ∀ p ∈ o.correlation.probable, locationHasExtras p.location = false := by
    refine probable_perm_iff hinj hdb hid hnew.fresh hvalid ?_
    rw [h₃, ← hnew.eq]
  have hconfirmed : (ConfirmedRepository.listByScan clientId scan.id p₄.2).Perm o.confirmation.confirmed ↔
      (o.confirmation.confirmed.map (·.id)).Nodup ∧
        ∀ f ∈ o.confirmation.confirmed, locationHasExtras f.location = false := by
    refine confirmed_perm_iff hinj hdb hid hnew.fresh hvalid ?_
    rw [h₄, ← hnew.eq]
  have hunconfirmed : UnconfirmedRepository.listByScan clientId scan.id p₄.2 = [] := by
    refine unconfirmed_eq_nil hdb hnew.fresh hvalid ?_
    rw [h₄, h₃, ← hnew.eq]
  have hinputs₃ : ∀ {ctx : LayerContext}, ctx.Of clientId scan.id p₃.1 p₃.2 →
      ((ctx.restarted.probable p₃.2).Perm (ctx.probable p₃.2) ↔
        (o.correlation.probable.map (·.id)).Nodup ∧
          ∀ p ∈ o.correlation.probable, locationHasExtras p.location = false) := by
    intro ctx hctx
    rw [hctx.restarted_probable, hctx.probable_eq hc₃ hlayer₂]
    exact hprobable
  have hinputs₄ : ∀ {ctx : LayerContext}, ctx.Of clientId scan.id p₄.1 p₄.2 →
      ((ctx.restarted.confirmed p₄.2).Perm (ctx.confirmed p₄.2) ↔
        (o.confirmation.confirmed.map (·.id)).Nodup ∧
          ∀ f ∈ o.confirmation.confirmed, locationHasExtras f.location = false) ∧
        ((ctx.restarted.unconfirmed p₄.2).Perm (ctx.unconfirmed p₄.2) ↔ o.confirmation.unconfirmed = []) := by
    intro ctx hctx
    rw [hctx.restarted_confirmed, hctx.confirmed_eq hc₄ hlayer₃, hctx.restarted_unconfirmed,
      hctx.unconfirmed_eq hc₄ hlayer₃, hunconfirmed]
    exact ⟨hconfirmed, List.nil_perm⟩
  constructor
  · rintro ⟨-, hcorrelation, hconfirmation⟩
    -- the scan is in the store after each layer, so there is a context to start from
    obtain ⟨row₃, hrow₃⟩ := hrun.exists_scanRow hnew hvalid (.inr (.inl rfl))
    obtain ⟨row₄, hrow₄⟩ := hrun.exists_scanRow hnew hvalid (.inr (.inr rfl))
    obtain ⟨ctx₃, hctx₃⟩ := exists_context hrow₃ hc₃
    obtain ⟨ctx₄, hctx₄⟩ := exists_context hrow₄ hc₄
    obtain ⟨hsame, hp⟩ := hcorrelation ctx₃ hctx₃
    obtain ⟨-, hc, hu⟩ := hconfirmation ctx₄ hctx₄
    obtain ⟨hc_iff, hu_iff⟩ := hinputs₄ hctx₄
    exact
      { appMap := (happMap (.inr (.inl rfl)) hc₃ hmap₃ hctx₃).mp hsame
        probable := (hinputs₃ hctx₃).mp hp
        confirmed := hc_iff.mp hc
        unconfirmed := hu_iff.mp hu }
  · intro hkept
    refine ⟨fun ctx hctx => ?_, fun ctx hctx => ⟨?_, ?_⟩, fun ctx hctx => ⟨?_, ?_, ?_⟩⟩
    · exact (happMap (.inl rfl) hc₁ hmap₁ hctx).mpr hkept.appMap
    · exact (happMap (.inr (.inl rfl)) hc₃ hmap₃ hctx).mpr hkept.appMap
    · exact (hinputs₃ hctx).mpr hkept.probable
    · exact (happMap (.inr (.inr rfl)) hc₄ hmap₄ hctx).mpr hkept.appMap
    · exact (hinputs₄ hctx).1.mpr hkept.confirmed
    · exact (hinputs₄ hctx).2.mpr hkept.unconfirmed

/-- The outputs up to confirmation are persisted one after the other. -/
def persistFirst (now : LayerId → IsoDateTime) (clientId : ClientId) (scan : Scan) (o : ScanOutputs)
    (p : Memory × Database) : Except Err (Memory × Database) := do
  let p ← persistRun (now .layer0) clientId (.layer0 o.intake) scan p.1 p.2
  let p ← persistRun (now .layer1) clientId (.layer1 o.discovery) (scanAfterIntake scan o.intake) p.1 p.2
  let p ← persistRun (now .layer2) clientId (.layer2 o.correlation) (scanAfterIntake scan o.intake) p.1 p.2
  persistRun (now .layer3) clientId (.layer3 o.confirmation) (scanAfterIntake scan o.intake) p.1 p.2

theorem exists_persistedRun (h : persistFirst now clientId scan o p₀ = .ok p₄) :
    ∃ p₁ p₂ p₃, PersistedRun now clientId scan o p₀ p₁ p₂ p₃ p₄ := by
  obtain ⟨p₁, h₁, h⟩ := exists_of_bind_eq_ok h
  obtain ⟨p₂, h₂, h⟩ := exists_of_bind_eq_ok h
  obtain ⟨p₃, h₃, h₄⟩ := exists_of_bind_eq_ok h
  exact ⟨p₁, p₂, p₃, h₁, h₂, h₃, h₄⟩

end Runs

/-! ## A demoted finding -/

section Example

/-- The memory of the process when it has started the scan. -/
def startedMemory : Memory := { caches := fun _ => some fun _ => none }

/-- The outputs for the shop when nothing is confirmed. -/
def demotedOutputs : ScanOutputs :=
  let o := shopOutputs "acme" "first"
  { o with confirmation := { unconfirmed := o.correlation.probable.map (toUnconfirmed · "no path") } }

theorem demotedOutputs_valid : demotedOutputs.Valid id "acme" "first" := by
  obtain ⟨happMap, hcandidates, hprobable, -, -, -⟩ := shopOutputs_valid "acme" "first"
  refine ⟨happMap, hcandidates, hprobable, ?_, ?_, ?_⟩
  · rintro f hf
    cases hf
  · rintro u hu
    obtain ⟨p, hp, rfl⟩ := List.mem_map.mp hu
    exact ⟨p, hp, "no path", rfl⟩
  · rintro f hf
    cases hf

/-- A scan is created in an empty database and its outputs are persisted. -/
theorem exists_firstRun {o : ScanOutputs}
    (h : (((StoreOp.scansCreate "acme" (shopScanOf "acme" "first")).step 0 {}).bind fun db =>
      persistFirst (fun _ => 0) "acme" (shopScanOf "acme" "first") o (startedMemory, db)).isOk = true) :
    ∃ db p₁ p₂ p₃ p₄, (StoreOp.scansCreate "acme" (shopScanOf "acme" "first")).step 0 {} = .ok db ∧
      PersistedRun (fun _ => 0) "acme" (shopScanOf "acme" "first") o (startedMemory, db) p₁ p₂ p₃ p₄ := by
  obtain ⟨p₄, h⟩ := exists_ok h
  obtain ⟨db, hcreate, h⟩ := exists_of_bind_eq_ok h
  obtain ⟨p₁, p₂, p₃, hrun⟩ := exists_persistedRun h
  exact ⟨db, p₁, p₂, p₃, p₄, hcreate, hrun⟩

/-- The law for a scan of the shop that confirms its finding. -/
theorem restartTransparent_iff_shop : ∃ p₁ p₃ p₄,
    RestartTransparent "acme" "first" p₁ p₃ p₄ ↔ (shopOutputs "acme" "first").Kept := by
  obtain ⟨db, p₁, p₂, p₃, p₄, hcreate, hrun⟩ :=
    exists_firstRun (o := shopOutputs "acme" "first") (by decide +kernel)
  have hcache : startedMemory.caches (shopScanOf "acme" "first").id = some fun _ => none := rfl
  exact ⟨p₁, p₃, p₄, restartTransparent_iff Function.injective_id .empty (by decide) hcreate
    (shopOutputs_valid "acme" "first") (by decide +kernel) hcache hrun⟩

/-- A demoted finding is not read after a restart: its row still says it is probable. -/
theorem demotion_forgotten :
    ¬∀ (hash : String → String) (now₀ : IsoDateTime) (now : LayerId → IsoDateTime) (clientId : ClientId)
      (scan : Scan) (o : ScanOutputs) (db : Database) (p₀ p₁ p₂ p₃ p₄ : Memory × Database) (cache : PriorOutputs),
      Function.Injective hash → Reached hash db → '|' ∉ scan.id.toList →
      (StoreOp.scansCreate clientId scan).step now₀ db = .ok p₀.2 → o.Valid hash clientId scan.id →
      o.intake.appMap.valid = true → p₀.1.caches scan.id = some cache →
      PersistedRun now clientId scan o p₀ p₁ p₂ p₃ p₄ → RestartTransparent clientId scan.id p₁ p₃ p₄ := by
  intro hall
  obtain ⟨db, p₁, p₂, p₃, p₄, hcreate, hrun⟩ := exists_firstRun (o := demotedOutputs) (by decide +kernel)
  have hsame := hall id 0 (fun _ => 0) "acme" (shopScanOf "acme" "first") demotedOutputs {} (startedMemory, db)
    p₁ p₂ p₃ p₄ (fun _ => none) Function.injective_id .empty (by decide) hcreate demotedOutputs_valid
    (by decide +kernel) rfl hrun
  -- the context of a later layer
  have hnew := justCreated hcreate
  obtain ⟨-, h₁, h₃, h₄⟩ := hrun.databases hnew demotedOutputs_valid
  obtain ⟨c₁, c₃, c₄, -, -, hc₄, -, -, -, -, hlayer₃⟩ := hrun.caches rfl
  obtain ⟨row, hrow⟩ := hrun.exists_scanRow hnew demotedOutputs_valid (.inr (.inr rfl))
  obtain ⟨ctx, hctx⟩ := exists_context hrow hc₄
  obtain ⟨-, -, hperm⟩ := hsame.confirmation ctx hctx
  -- it reads nothing where the cache holds the demotion
  have hnone : UnconfirmedRepository.listByScan "acme" (shopScanOf "acme" "first").id p₄.2 = [] := by
    have hdb : Grounded id {} := grounded_of_reached .empty
    refine unconfirmed_eq_nil hdb hnew.fresh demotedOutputs_valid ?_
    rw [h₄, h₃, ← hnew.eq]
  rw [hctx.restarted_unconfirmed, hctx.unconfirmed_eq hc₄ hlayer₃, hnone] at hperm
  cases hperm.nil_eq

end Example

end MontrSecure
