import MontrSecure.Orchestrator.Stored
import MontrSecure.SemanticIndex.Index
import MontrSecure.StateStore.Reading

/-!
# The semantic index of a scan

Layer 0 builds the index of the checkout while it builds the App Map (`packages/appmap/src/build.ts`), and swallows
its failure. The row of the App Map is written when the layer is over. `mirrors_iff` says for which repositories the
stored chunks are those of the files.
-/

namespace MontrSecure

/-! ## App Maps in the store -/

/-- `latestForCommit`. -/
def AppMapRepository.latestForCommit (clientId : ClientId) (repo commitSha : String) (db : Database) :
    Option AppMap :=
  let rows := db.appMaps.rows.filter fun m => m.clientId = clientId && m.repo = repo && m.commitSha = commitSha
  (rows.mergeSort fun m m' => decide (m'.createdAt ≤ m.createdAt)).head?.bind fun row =>
    AppMapRepository.get clientId row.id db

/-- A map of another commit, gone stale. -/
def AppMap.staleUnless (clientId : ClientId) (repo currentCommitSha : String) (m : AppMap) : AppMap :=
  if m.clientId = clientId ∧ m.repo = repo ∧ m.commitSha ≠ currentCommitSha ∧ m.stale = false then
    { m with stale := true }
  else m

theorem AppMap.id_staleUnless (clientId : ClientId) (repo currentCommitSha : String) (m : AppMap) :
    (m.staleUnless clientId repo currentCommitSha).id = m.id := by
  unfold AppMap.staleUnless
  split <;> rfl

/-- `invalidateStaleForCommit`, without the number of the maps. -/
def AppMapRepository.invalidateStaleForCommit (clientId : ClientId) (repo currentCommitSha : String) (db : Database) :
    Database :=
  { db with
    appMaps := db.appMaps.updateRows (AppMap.staleUnless clientId repo currentCommitSha)
      (AppMap.id_staleUnless clientId repo currentCommitSha) }

theorem AppMapRepository.contains_invalidateStaleForCommit (clientId : ClientId) (repo currentCommitSha : String)
    (db : Database) (id : EntityId) :
    (AppMapRepository.invalidateStaleForCommit clientId repo currentCommitSha db).appMaps.contains id =
      db.appMaps.contains id :=
  Table.contains_updateRows (AppMap.id_staleUnless clientId repo currentCommitSha)

/-- Creating an App Map takes its id, and no App Map away. -/
theorem AppMapRepository.appMaps_of_create {clientId : ClientId} {appMap created : AppMap} {db db' : Database}
    (h : AppMapRepository.create clientId appMap db = .ok (created, db')) :
    db.appMaps.contains appMap.id = false ∧
      ∀ id, db.appMaps.contains id = true → db'.appMaps.contains id = true := by
  unfold AppMapRepository.create at h
  split at h
  · cases h
  · dsimp only at h
    split at h
    · rename_i appMaps _ _ _ hinsert _ _ _
      cases h
      obtain ⟨hfresh, rfl⟩ := Table.insert?_eq_some_iff.mp hinsert
      refine ⟨hfresh, fun id hid => ?_⟩
      change (db.appMaps.insertNew _).contains id = true
      rw [Table.contains_insertNew, hid, Bool.true_or]
    · cases h

/-- Writing a scan leaves the App Maps as they are. -/
theorem ScanRepository.appMaps_of_update {clientId : ClientId} {scan row : Scan} {db db' : Database}
    (h : ScanRepository.update clientId scan db = .ok (row, db')) : db'.appMaps = db.appMaps := by
  unfold ScanRepository.update at h
  split at h
  · cases h
  · split at h
    · cases h
      rfl
    · cases h

/-- The output of Layer 0 is persisted only under a new id. -/
theorem appMaps_of_persistStored {now : IsoDateTime} {clientId : ClientId} {out : Layer0Output} {scan : Scan}
    {m : Memory} {db db' : Database} (h : persistStored now clientId (.layer0 out) scan m db = .ok db') :
    db.appMaps.contains out.appMap.id = false ∧
      ∀ id, db.appMaps.contains id = true → db'.appMaps.contains id = true := by
  rw [persistStored_eq, written, StoreOp.step] at h
  cases hcreate : AppMapRepository.create clientId out.appMap db with
  | error e =>
    rw [show StoreOp.exec now (.appMapsCreate clientId out.appMap) db = .error e from hcreate] at h
    cases h
  | ok created =>
    rw [show StoreOp.exec now (.appMapsCreate clientId out.appMap) db = .ok created from hcreate] at h
    change ((ScanRepository.update clientId (scanAfterIntake scan out) created.2).map Prod.snd) = .ok db' at h
    cases hupdate : ScanRepository.update clientId (scanAfterIntake scan out) created.2 with
    | error e =>
      rw [hupdate] at h
      cases h
    | ok updated =>
      rw [hupdate] at h
      cases h
      obtain ⟨hfresh, hkept⟩ := AppMapRepository.appMaps_of_create hcreate
      refine ⟨hfresh, fun id hid => ?_⟩
      rw [ScanRepository.appMaps_of_update hupdate]
      exact hkept id hid

namespace SemanticIndex

/-! ## Layer 0 -/

/-- What Layer 0 has before the index is built: the checkout, and what it has made of it. -/
structure BuildAppMapInput where
  dir : String
  files : List File
  appMap : AppMap
  scope : AppMap → ScanScope
  costEstimate : AppMap → CostEstimate

/-- The options of the worker for the index. -/
structure SemanticIndexOptions where
  embeddingAdapter : EmbeddingProviderAdapter
  embeddingModel : String
  batchSize : Option ℕ+ := none

/-- `BuildAppMapDeps`, as far as it concerns the database: the index, and whether the layer persists its map. -/
structure BuildAppMapDeps where
  semanticIndex : Option SemanticIndexOptions
  appMaps : Bool := false

variable (runtime : Runtime) (input : BuildAppMapInput) (deps : BuildAppMapDeps)

/-- The index of the checkout, under the id that its App Map will have. -/
def semanticIndexInput (options : SemanticIndexOptions) : BuildSemanticIndexInput where
  dir := input.dir
  files := input.files
  clientId := input.appMap.clientId
  appMapId := input.appMap.id
  repo := input.appMap.repo
  commitSha := input.appMap.commitSha
  embeddingAdapter := options.embeddingAdapter
  embeddingModel := options.embeddingModel
  batchSize := options.batchSize

/-- `finalize`. -/
def finalize (appMap : AppMap) : Layer0Output where
  appMap := appMap
  scope := input.scope appMap
  costEstimate := input.costEstimate appMap

/-- `findReusableAppMap`. -/
def findReusableAppMap : Session (Option AppMap) := fun db =>
  if input.appMap.commitSha = "" then .ok none db
  else
    .ok ((AppMapRepository.latestForCommit input.appMap.clientId input.appMap.repo input.appMap.commitSha
      db.main).filter fun m => !m.stale) db

/-- The maps of other commits go stale. -/
def invalidateStaleForCommit (appMap : AppMap) : Session Unit := fun db =>
  .ok ()
    (db.withMain (AppMapRepository.invalidateStaleForCommit appMap.clientId appMap.repo appMap.commitSha db.main)
      fun _ hid => (AppMapRepository.contains_invalidateStaleForCommit ..).trans hid)

/-- `persistAppMap`, without its audit entries. -/
def persistAppMap (appMap : AppMap) : Session AppMap := do
  invalidateStaleForCommit appMap
  fun db =>
    match h : AppMapRepository.create appMap.clientId appMap db.main with
    | .ok (created, main) => .ok created (db.withMain main (AppMapRepository.appMaps_of_create h).2)
    | .error e => .error e db

/-- `buildAppMap`, from the index on. -/
def buildAppMap : Session Layer0Output := do
  match ← if deps.appMaps then findReusableAppMap input else pure none with
  | some reusable => return finalize input reusable
  | none =>
    match deps.semanticIndex with
    | none => pure ()
    | some options =>
      -- Whatever fails here is logged.
      try
        let _ ← buildSemanticIndex runtime (semanticIndexInput input options)
      catch _ => pure ()
    let appMap ← if deps.appMaps then persistAppMap input.appMap else pure input.appMap
    return finalize input appMap

/-- `createLayer0Runner`. -/
def createLayer0Runner : Session Layer0Output := do
  let output ← buildAppMap runtime input deps
  if !deps.appMaps then invalidateStaleForCommit output.appMap
  return output

/-- `persistLayerOutput` for the output of Layer 0; a database that it fails on has no use. -/
def persistLayerOutput (now : IsoDateTime) (clientId : ClientId) (scan : Scan) (m : Memory) (out : Layer0Output)
    (db : IndexDb) : Except Err IndexDb :=
  match h : persistStored now clientId (.layer0 out) scan m db.main with
  | .ok main => .ok (db.withMain main (appMaps_of_persistStored h).2)
  | .error e => .error e

/-- The layer, and the persistence of its output. -/
def runLayer0 (now : IsoDateTime) (clientId : ClientId) (scan : Scan) (m : Memory) (db : IndexDb) :
    Except Err (Layer0Output × IndexDb) :=
  match createLayer0Runner runtime input deps db with
  | .error e _ => .error e
  | .ok out db' => (persistLayerOutput now clientId scan m out db').map fun db'' => (out, db'')

/-! ## What is stored -/

/-- The stored chunks are those of the files: each unit of at least two lines, with its file, lines and text. -/
def Mirrors (files : List File) (appMapId : EntityId) (db : IndexDb) : Prop :=
  ((db.chunksOf appMapId).map fun c => (c.file, c.startLine, c.endLine, c.content)).Perm
    (files.flatMap fun f => f.indexedUnits.map fun u => (f.path, u.startLine, u.endLine, u.text))

variable {runtime input deps} {now : IsoDateTime} {clientId : ClientId} {scan : Scan} {m : Memory} {db db' : IndexDb}
  {out : Layer0Output}

/-- When the App Map is written, it has no chunks yet, and nothing is stored afterwards. -/
theorem chunksOf_of_runLayer0 (h : runLayer0 runtime input deps now clientId scan m db = .ok (out, db')) :
    db'.chunksOf out.appMap.id = [] := by
  unfold runLayer0 at h
  split at h
  · cases h
  · rename_i out₁ db₁ _
    unfold persistLayerOutput at h
    split at h
    · rename_i main hpersist
      cases h
      change db₁.chunksOf out.appMap.id = []
      exact IndexDb.chunksOf_eq_nil (appMaps_of_persistStored hpersist).1
    · cases h

/-- Layer 0 goes on when the index fails. -/
theorem buildAppMap_of_missing (hmaps : deps.appMaps = false)
    (hmissing : db.main.appMaps.contains input.appMap.id = false) :
    buildAppMap runtime input deps db = .ok (finalize input input.appMap) db := by
  unfold buildAppMap
  rw [hmaps]
  cases hindex : deps.semanticIndex with
  | none => rfl
  | some options =>
    have hnothing : (∃ result, buildSemanticIndex runtime (semanticIndexInput input options) db = .ok result db) ∨
        ∃ e, buildSemanticIndex runtime (semanticIndexInput input options) db = .error e db :=
      buildSemanticIndex_of_missing hmissing
    obtain ⟨result, hok⟩ | ⟨e, herror⟩ := hnothing
    · change EStateM.bind (EStateM.tryCatch (EStateM.bind (buildSemanticIndex runtime _) _) _) _ db = _
      simp only [EStateM.bind, EStateM.tryCatch, hok]
      rfl
    · change EStateM.bind (EStateM.tryCatch (EStateM.bind (buildSemanticIndex runtime _) _) _) _ db = _
      simp only [EStateM.bind, EStateM.tryCatch, herror]
      rfl

/-- The layer ends, and its output is persisted, if the rows can be written. -/
theorem runLayer0_of_missing (hmaps : deps.appMaps = false)
    (hmissing : db.main.appMaps.contains input.appMap.id = false) {main : Database}
    (hwritten : written now clientId scan (.layer0 (finalize input input.appMap))
      (AppMapRepository.invalidateStaleForCommit input.appMap.clientId input.appMap.repo input.appMap.commitSha
        db.main) = .ok main) :
    ∃ db', runLayer0 runtime input deps now clientId scan m db = .ok (finalize input input.appMap, db') := by
  obtain ⟨db₁, hrunner, hmain⟩ : ∃ db₁, createLayer0Runner runtime input deps db =
      .ok (finalize input input.appMap) db₁ ∧ db₁.main = AppMapRepository.invalidateStaleForCommit
        input.appMap.clientId input.appMap.repo input.appMap.commitSha db.main := by
    change ∃ db₁, EStateM.bind (buildAppMap runtime input deps) _ db = _ ∧ _
    rw [EStateM.bind, buildAppMap_of_missing hmaps hmissing, hmaps]
    exact ⟨_, rfl, rfl⟩
  have hpersist : persistStored now clientId (.layer0 (finalize input input.appMap)) scan m db₁.main = .ok main := by
    rw [persistStored_eq, hmain]
    exact hwritten
  obtain ⟨db', hok⟩ : ∃ db', persistLayerOutput now clientId scan m (finalize input input.appMap) db₁ = .ok db' := by
    unfold persistLayerOutput
    split
    · exact ⟨_, rfl⟩
    · rename_i e herror
      rw [hpersist] at herror
      cases herror
  refine ⟨db', ?_⟩
  simp only [runLayer0, hrunner, hok]
  rfl

/-! ## A repository with one function -/

section Example

/-- A function of two lines. -/
private def handler : Node where
  name := some "handler"
  startLine := 1
  endLine := 2
  text := Text.units "handler = () =>\n  send()"

/-- Its file. -/
private def oneFile : File where
  path := "app.ts"
  source := some { variableStatements := [[{ toNode := handler, isFunction := true }]] }

private def appMapOfOneFile : AppMap where
  id := "appmap_s"
  clientId := "c"
  repo := "r"
  branch := "main"
  commitSha := ""
  createdAt := 0

private def checkoutOfOneFile : BuildAppMapInput where
  dir := "/repo"
  files := [oneFile]
  appMap := appMapOfOneFile
  scope _ := { mode := .full }
  costEstimate _ :=
    { scanId := none
      mode := .full
      projectedInputTokens := 0
      projectedOutputTokens := 0
      projectedTotalTokens := 0
      projectedUsd := 0
      projectedWallClockSeconds := 0
      basis := ""
      byLayer := []
      createdAt := 0 }

/-- The scan of the repository. -/
private def scanOfOneFile : Scan where
  id := "s"
  clientId := "c"
  repo := "r"
  branch := "main"
  mode := .full
  scope := { mode := .full }
  status := .running
  operator := "u"
  createdAt := 0

private def plainRuntime : Runtime where
  sha256 _ := ""
  order := { ordered := id, perm := fun _ => List.Perm.rfl }
  randomUUID := toString

private theorem mapM_zeros (n : ℕ) : (List.replicate n (some (0 : ℚ))).mapM id = some (List.replicate n 0) := by
  induction n with
  | zero => rfl
  | succ n ih =>
    rw [List.replicate_succ, List.mapM_cons, ih]
    rfl

private theorem toVectorLiteral_zeros : toVectorLiteral (List.replicate codeChunkEmbeddingDim (some 0)) =
    .ok (List.replicate codeChunkEmbeddingDim 0) := by
  rw [toVectorLiteral, if_neg (not_not.mpr List.length_replicate), mapM_zeros]

/-- The index is built with a provider that embeds every text as zero. -/
private def zeroIndex : BuildAppMapDeps where
  semanticIndex := some
    { embeddingModel := "zero"
      embeddingAdapter := fun model texts =>
        .ok { embeddings := texts.map fun _ => List.replicate codeChunkEmbeddingDim (some 0), model } }

private def dbOfOneScan : IndexDb where
  main := { scans := { rows := [scanOfOneFile], nodup := List.nodup_singleton _ } }
  chunks := .empty
  refers := fun _ hc => absurd hc List.not_mem_nil

private theorem run_oneFile : ∃ db', runLayer0 plainRuntime checkoutOfOneFile zeroIndex 0 "c" scanOfOneFile {}
    dbOfOneScan = .ok (finalize checkoutOfOneFile appMapOfOneFile, db') := by
  obtain ⟨main, hwritten⟩ : ∃ main, written 0 "c" scanOfOneFile
      (.layer0 (finalize checkoutOfOneFile appMapOfOneFile))
      (AppMapRepository.invalidateStaleForCommit "c" "r" "" dbOfOneScan.main) = .ok main := ⟨_, rfl⟩
  exact runLayer0_of_missing rfl rfl hwritten

/-- The stored chunks are those of the files exactly when there is nothing to store. -/
theorem mirrors_iff (h : runLayer0 runtime input deps now clientId scan m db = .ok (out, db')) :
    Mirrors input.files out.appMap.id db' ↔ ∀ f ∈ input.files, f.indexedUnits = [] := by
  rw [Mirrors, chunksOf_of_runLayer0 h, List.map_nil, List.nil_perm, List.flatMap_eq_nil_iff]
  exact forall₂_congr fun f _ => List.map_eq_nil_iff

/-- The function is not stored. -/
theorem mirrors_iff_oneFile : ∃ (out : Layer0Output) (db' : IndexDb),
    runLayer0 plainRuntime checkoutOfOneFile zeroIndex 0 "c" scanOfOneFile {} dbOfOneScan = .ok (out, db') ∧
      ¬Mirrors [oneFile] out.appMap.id db' := by
  obtain ⟨db', hrun⟩ := run_oneFile
  refine ⟨_, db', hrun, fun hmirrors => ?_⟩
  exact absurd ((mirrors_iff hrun).mp hmirrors oneFile List.mem_cons_self) (by decide)

/-- A repository with one function of two lines has an empty index. -/
theorem function_not_indexed :
    ¬∀ (runtime : Runtime) (input : BuildAppMapInput) (deps : BuildAppMapDeps) (options : SemanticIndexOptions)
      (now : IsoDateTime) (clientId : ClientId) (scan : Scan) (m : Memory) (db db' : IndexDb) (out : Layer0Output),
      deps.semanticIndex = some options → Healthy options.embeddingAdapter →
      runLayer0 runtime input deps now clientId scan m db = .ok (out, db') →
      Mirrors input.files out.appMap.id db' := by
  intro h
  obtain ⟨db', hrun⟩ := run_oneFile
  have hmirrors := h _ _ zeroIndex _ _ _ _ _ _ _ _ rfl ?_ hrun
  · rw [Mirrors, chunksOf_of_runLayer0 hrun] at hmirrors
    exact absurd hmirrors.length_eq (by decide)
  · intro model texts
    refine ⟨_, rfl, List.length_map _, fun e he => ?_⟩
    obtain ⟨-, -, rfl⟩ := List.mem_map.mp he
    exact ⟨_, toVectorLiteral_zeros⟩

end Example

end SemanticIndex

end MontrSecure
