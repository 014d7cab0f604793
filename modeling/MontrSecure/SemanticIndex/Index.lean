import Mathlib.Algebra.Order.Field.Rat
import Mathlib.Data.PNat.Basic
import MontrSecure.SemanticIndex.Chunk
import MontrSecure.StateStore.Repositories

/-!
# Building the semantic index

`embedChunks`, `buildSemanticIndex` of `packages/semantic-index/src/` and the `insertMany` of
`packages/state-store/src/code-chunk.ts`. The database holds a chunk only while its App Map is there.
`buildSemanticIndex_eq_ok` says what the build stores when it is.
-/

namespace MontrSecure.SemanticIndex

/-! ## The database -/

/-- A vector of numbers; a number that is not finite has no value. -/
abbrev Embedding : Type := List (Option ℚ)

/-- A row of `CodeChunk`, with an embedding of some kind. -/
structure CodeChunkOf (ν : Type) extends CodeChunkDraft where
  id : EntityId
  clientId : ClientId
  appMapId : EntityId
  repo : String
  commitSha : String
  embeddingModel : String
  embedding : ν

/-- `CodeChunkInput`. -/
abbrev CodeChunkInput : Type := CodeChunkOf Embedding

/-- A row of `CodeChunk`. -/
abbrev CodeChunk : Type := CodeChunkOf (List ℚ)

/-- The database of the pipeline, and the table `CodeChunk` with its foreign key. -/
structure IndexDb where
  main : Database
  chunks : Table (CodeChunkOf.id (ν := List ℚ))
  refers : ∀ c ∈ chunks.rows, main.appMaps.contains c.appMapId = true

namespace IndexDb

/-- `INSERT INTO "CodeChunk"`. -/
def insert (db : IndexDb) (c : CodeChunk) : Except Err IndexDb :=
  if hmap : db.main.appMaps.contains c.appMapId = true then
    if hid : db.chunks.contains c.id = false then
      .ok
        { db with
          chunks := db.chunks.insertNew c
          refers := by
            intro r hr
            rw [Table.rows_insertNew hid] at hr
            obtain hr | hr := List.mem_append.mp hr
            · exact db.refers r hr
            · rw [List.mem_singleton.mp hr]
              exact hmap }
    else .error uniqueConstraintError
  else .error foreignKeyError

/-- The chunks of an App Map. -/
def chunksOf (db : IndexDb) (appMapId : EntityId) : List CodeChunk :=
  db.chunks.rows.filter fun c => c.appMapId = appMapId

/-- A change to the rest of the database that deletes no App Map. -/
def withMain (db : IndexDb) (main : Database)
    (h : ∀ id, db.main.appMaps.contains id = true → main.appMaps.contains id = true) : IndexDb :=
  { db with main, refers := fun c hc => h _ (db.refers c hc) }

/-- An App Map that is not there has no chunks. -/
theorem chunksOf_eq_nil {db : IndexDb} {id : EntityId} (h : db.main.appMaps.contains id = false) :
    db.chunksOf id = [] := by
  refine List.filter_eq_nil_iff.mpr fun c hc hid => ?_
  have hrefers := db.refers c hc
  rw [of_decide_eq_true hid, h] at hrefers
  cases hrefers

theorem insert_eq_ok {db : IndexDb} {c : CodeChunk} (hmap : db.main.appMaps.contains c.appMapId = true)
    (hid : db.chunks.contains c.id = false) :
    ∃ db', db.insert c = .ok db' ∧ db'.main = db.main ∧ db'.chunks = db.chunks.insertNew c := by
  unfold insert
  rw [dif_pos hmap, dif_pos hid]
  exact ⟨_, rfl, rfl, rfl⟩

end IndexDb

/-- What runs on the database; an error does not undo what was done before it. -/
abbrev Session (α : Type) : Type := EStateM Err IndexDb α

/-! ## Inserting -/

/-- `CODE_CHUNK_EMBEDDING_DIM`. -/
def codeChunkEmbeddingDim : ℕ := 1536

/-- `toVectorLiteral`; the literal stands for its vector. -/
def toVectorLiteral (embedding : Embedding) : Except Err (List ℚ) :=
  if embedding.length ≠ codeChunkEmbeddingDim then
    .error (.other (s!"CodeChunk embedding must have exactly {codeChunkEmbeddingDim} dimensions " ++
      s!"(got {embedding.length}) — the schema's vector({codeChunkEmbeddingDim}) column " ++
      "is fixed-width; see schema.prisma's CodeChunk doc comment."))
  else
    match embedding.mapM id with
    | none => .error (.other "CodeChunk embedding contains a non-finite value (NaN/Infinity)")
    | some vector => .ok vector

/-- An insertion of one row. -/
def executeRaw (c : CodeChunk) : Session Unit := fun db =>
  match db.insert c with
  | .ok db' => .ok () db'
  | .error e => .error e db

/-- `insertMany`: one insertion after the other. -/
def insertMany : List CodeChunkInput → Session ℕ
  | [] => pure 0
  | c :: cs => do
    let embedding ← liftExcept (toVectorLiteral c.embedding)
    executeRaw { c with embedding }
    let inserted ← insertMany cs
    return inserted + 1

/-! ## Embedding -/

/-- What an embedding provider responds. -/
structure EmbedResponse where
  embeddings : List Embedding
  model : String

/-- `EmbeddingProviderAdapter.embed`, for a model and texts. -/
abbrev EmbeddingProviderAdapter : Type := String → List (List ℕ) → Except Err EmbedResponse

/-- `EmbeddedCodeChunk`. -/
structure EmbeddedCodeChunk extends CodeChunkDraft where
  embedding : Embedding
  embeddingModel : String

/-- `DEFAULT_EMBED_BATCH_SIZE`. -/
def defaultEmbedBatchSize : ℕ+ := 64

/-- `batches`: what is from each multiple of the size on. -/
def batches {α : Type} (items : List α) (size : ℕ+) : List (List α) :=
  (List.range ((items.length + size - 1) / size)).map fun i => (items.drop (i * size)).take size

/-- The chunks of a batch with the embeddings that the provider has for them; none if it fails. -/
def embedBatch (adapter : EmbeddingProviderAdapter) (model : String) (batch : List CodeChunkDraft) :
    List EmbeddedCodeChunk :=
  match adapter model (batch.map CodeChunkDraft.content) with
  | .error _ => []
  | .ok response => batch.zipIdx.filterMap fun p =>
    response.embeddings[p.2]?.map fun embedding => { p.1 with embedding, embeddingModel := response.model }

/-- `embedChunks`. -/
def embedChunks (adapter : EmbeddingProviderAdapter) (model : String) (chunks : List CodeChunkDraft)
    (batchSize : Option ℕ+) : List EmbeddedCodeChunk :=
  if chunks.length = 0 then []
  else (batches chunks (batchSize.getD defaultEmbedBatchSize)).flatMap (embedBatch adapter model)

/-! ## The build -/

/-- What the runtime brings: the hash, the order in which a project is searched, and the ids it draws. -/
structure Runtime where
  sha256 : List ℕ → String
  order : SearchOrder
  randomUUID : ℕ → EntityId

/-- `BuildSemanticIndexInput`. -/
structure BuildSemanticIndexInput where
  dir : String
  files : List File
  clientId : ClientId
  appMapId : EntityId
  repo : String
  commitSha : String
  embeddingAdapter : EmbeddingProviderAdapter
  embeddingModel : String
  batchSize : Option ℕ+ := none

/-- `BuildSemanticIndexResult`. -/
structure BuildSemanticIndexResult where
  filesScanned : ℕ
  chunksDrafted : ℕ
  chunksEmbedded : ℕ
  chunksIndexed : ℕ

/-- The `n`-th row of a build. -/
def toInput (runtime : Runtime) (input : BuildSemanticIndexInput) (n : ℕ) (c : EmbeddedCodeChunk) : CodeChunkInput :=
  { c.toCodeChunkDraft with
    id := runtime.randomUUID n
    clientId := input.clientId
    appMapId := input.appMapId
    repo := input.repo
    commitSha := input.commitSha
    embeddingModel := c.embeddingModel
    embedding := c.embedding }

/-- `buildSemanticIndex`. -/
def buildSemanticIndex (runtime : Runtime) (input : BuildSemanticIndexInput) : Session BuildSemanticIndexResult := do
  let chunks := chunkRepo runtime.sha256 runtime.order input.dir input.files
  let embedded := embedChunks input.embeddingAdapter input.embeddingModel chunks input.batchSize
  let chunksIndexed ← insertMany (embedded.mapIdx (toInput runtime input))
  return {
    filesScanned := input.files.length
    chunksDrafted := chunks.length
    chunksEmbedded := embedded.length
    chunksIndexed }

/-! ## When everything is there -/

/-- A provider that embeds every text. -/
def Healthy (adapter : EmbeddingProviderAdapter) : Prop :=
  ∀ model texts, ∃ response, adapter model texts = .ok response ∧
    response.embeddings.length = texts.length ∧
    ∀ e ∈ response.embeddings, ∃ vector, toVectorLiteral e = .ok vector

theorem flatten_batches {α : Type} (items : List α) (size : ℕ+) : (batches items size).flatten = items := by
  have htake : ∀ n : ℕ, ((List.range n).map fun i => (items.drop (i * size)).take size).flatten =
      items.take (n * size) := by
    intro n
    induction n with
    | zero => simp
    | succ n ih =>
      rw [List.range_succ, List.map_append, List.flatten_append, ih, List.map_singleton, List.flatten_singleton,
        Nat.succ_mul, List.take_add]
  have hpos : 0 < (size : ℕ) := size.pos
  have hall : items.length ≤ (items.length + size - 1) / size * size := by
    have hdiv := Nat.div_add_mod (items.length + size - 1) size
    have hmod := Nat.mod_lt (items.length + size - 1) hpos
    rw [Nat.mul_comm]
    omega
  rw [batches, htake, List.take_of_length_le hall]

/-- A healthy provider embeds every chunk. -/
theorem embedChunks_drafts {adapter : EmbeddingProviderAdapter} (hadapter : Healthy adapter) (model : String)
    (chunks : List CodeChunkDraft) (batchSize : Option ℕ+) :
    (embedChunks adapter model chunks batchSize).map EmbeddedCodeChunk.toCodeChunkDraft = chunks ∧
      ∀ c ∈ embedChunks adapter model chunks batchSize, ∃ vector, toVectorLiteral c.embedding = .ok vector := by
  have hbatch : ∀ batch : List CodeChunkDraft,
      (embedBatch adapter model batch).map EmbeddedCodeChunk.toCodeChunkDraft = batch ∧
        ∀ c ∈ embedBatch adapter model batch, ∃ vector, toVectorLiteral c.embedding = .ok vector := by
    intro batch
    obtain ⟨response, hresponse, hlength, hvectors⟩ := hadapter model (batch.map CodeChunkDraft.content)
    rw [embedBatch, hresponse]
    constructor
    · have hfound : ∀ p ∈ batch.zipIdx, (response.embeddings[p.2]?.map fun embedding =>
            ({ p.1 with embedding, embeddingModel := response.model } : EmbeddedCodeChunk)).map
          EmbeddedCodeChunk.toCodeChunkDraft = some p.1 := by
        intro p hp
        have hlt : p.2 < response.embeddings.length := by
          rw [hlength, List.length_map]
          exact (List.mem_zipIdx' hp).1
        rw [List.getElem?_eq_getElem hlt]
        rfl
      rw [List.map_filterMap, List.filterMap_congr hfound, List.filterMap_eq_map', List.zipIdx_map_fst]
    · intro c hc
      obtain ⟨p, -, hp⟩ := List.mem_filterMap.mp hc
      obtain ⟨e, he, rfl⟩ := Option.map_eq_some_iff.mp hp
      exact hvectors e (List.mem_of_getElem? he)
  rw [embedChunks]
  split
  · rename_i hempty
    rw [List.eq_nil_of_length_eq_zero hempty]
    exact ⟨rfl, fun c hc => absurd hc List.not_mem_nil⟩
  · constructor
    · rw [List.map_flatMap]
      refine (List.flatMap_congr fun batch _ => (hbatch batch).1).trans ?_
      rw [List.flatMap_id', flatten_batches]
    · intro c hc
      obtain ⟨batch, -, hc⟩ := List.mem_flatMap.mp hc
      exact (hbatch batch).2 c hc

/-- For an App Map that is not there, nothing is inserted. -/
theorem insertMany_of_missing {cs : List CodeChunkInput} {db : IndexDb}
    (hmap : ∀ c ∈ cs, db.main.appMaps.contains c.appMapId = false) :
    insertMany cs db = .ok 0 db ∨ ∃ e, insertMany cs db = .error e db := by
  cases cs with
  | nil => exact .inl rfl
  | cons c cs =>
    refine .inr ?_
    change ∃ e, EStateM.bind (liftExcept (toVectorLiteral c.embedding))
      (fun embedding => EStateM.bind (executeRaw { c with embedding }) fun _ =>
        EStateM.bind (insertMany cs) fun inserted => EStateM.pure (inserted + 1)) db = .error e db
    cases toVectorLiteral c.embedding with
    | error e => exact ⟨e, rfl⟩
    | ok embedding =>
      have hrow : executeRaw { c with embedding } db = .error foreignKeyError db := by
        rw [executeRaw, IndexDb.insert, dif_neg]
        rw [hmap c List.mem_cons_self]
        exact Bool.false_ne_true
      refine ⟨foreignKeyError, ?_⟩
      change EStateM.bind (executeRaw { c with embedding }) _ db = _
      rw [EStateM.bind, hrow]

/-- Rows under new ids, with vectors that fit, are inserted for an App Map there is. -/
theorem insertMany_eq_ok {cs : List CodeChunkInput} {db : IndexDb}
    (hmap : ∀ c ∈ cs, db.main.appMaps.contains c.appMapId = true)
    (hvector : ∀ c ∈ cs, ∃ vector, toVectorLiteral c.embedding = .ok vector)
    (hfresh : ∀ c ∈ cs, db.chunks.contains c.id = false) (hnodup : (cs.map CodeChunkOf.id).Nodup) :
    ∃ (db' : IndexDb) (rows : List CodeChunk), insertMany cs db = .ok cs.length db' ∧ db'.main = db.main ∧
      db'.chunks.rows = db.chunks.rows ++ rows ∧
      rows.map CodeChunkOf.toCodeChunkDraft = cs.map CodeChunkOf.toCodeChunkDraft ∧
      rows.map CodeChunkOf.appMapId = cs.map CodeChunkOf.appMapId := by
  induction cs generalizing db with
  | nil => exact ⟨db, [], rfl, rfl, (List.append_nil _).symm, rfl, rfl⟩
  | cons c cs ih =>
    obtain ⟨embedding, hembedding⟩ := hvector c List.mem_cons_self
    have hid := hfresh c List.mem_cons_self
    obtain ⟨db₁, hinsert, hmain, hchunks⟩ :=
      IndexDb.insert_eq_ok (c := { c with embedding }) (hmap c List.mem_cons_self) hid
    rw [List.map_cons, List.nodup_cons] at hnodup
    have hfresh₁ : ∀ c' ∈ cs, db₁.chunks.contains c'.id = false := by
      intro c' hc'
      rw [hchunks, Table.contains_insertNew, hfresh c' (List.mem_cons_of_mem c hc'), Bool.false_or]
      refine decide_eq_false fun hsame => hnodup.1 ?_
      exact List.mem_map.mpr ⟨c', hc', hsame.symm⟩
    obtain ⟨db', rows, hrest, hmain', hrows, hdrafts, hmaps⟩ := ih
      (fun c' hc' => by rw [hmain]; exact hmap c' (List.mem_cons_of_mem c hc'))
      (fun c' hc' => hvector c' (List.mem_cons_of_mem c hc')) hfresh₁ hnodup.2
    refine ⟨db', { c with embedding } :: rows, ?_, hmain'.trans hmain, ?_, ?_, ?_⟩
    · have hfirst : executeRaw { c with embedding } db = .ok () db₁ := by
        rw [executeRaw, hinsert]
      change EStateM.bind (liftExcept (toVectorLiteral c.embedding))
        (fun embedding => EStateM.bind (executeRaw { c with embedding }) fun _ =>
          EStateM.bind (insertMany cs) fun inserted => EStateM.pure (inserted + 1)) db = _
      rw [hembedding]
      change EStateM.bind (executeRaw { c with embedding }) (fun _ =>
        EStateM.bind (insertMany cs) fun inserted => EStateM.pure (inserted + 1)) db = _
      simp only [EStateM.bind, hfirst, hrest, EStateM.pure, List.length_cons]
    · rw [hrows, hchunks, Table.rows_insertNew hid, List.append_assoc, List.singleton_append]
    · rw [List.map_cons, List.map_cons, hdrafts]
    · rw [List.map_cons, List.map_cons, hmaps]

theorem mem_mapIdx_toInput {runtime : Runtime} {input : BuildSemanticIndexInput} {embedded : List EmbeddedCodeChunk}
    {c : CodeChunkInput} (hc : c ∈ embedded.mapIdx (toInput runtime input)) :
    c.appMapId = input.appMapId ∧ (∃ e ∈ embedded, c.embedding = e.embedding) ∧ ∃ n, c.id = runtime.randomUUID n := by
  obtain ⟨n, hn, rfl⟩ := List.mem_mapIdx.mp hc
  exact ⟨rfl, ⟨_, List.getElem_mem hn, rfl⟩, n, rfl⟩

/-- Before the App Map is there, a build stores nothing. -/
theorem buildSemanticIndex_of_missing {runtime : Runtime} {input : BuildSemanticIndexInput} {db : IndexDb}
    (hmap : db.main.appMaps.contains input.appMapId = false) :
    (∃ result, buildSemanticIndex runtime input db = .ok result db) ∨
      ∃ e, buildSemanticIndex runtime input db = .error e db := by
  let drafts := chunkRepo runtime.sha256 runtime.order input.dir input.files
  let embedded := embedChunks input.embeddingAdapter input.embeddingModel drafts input.batchSize
  have hmissing : ∀ c ∈ embedded.mapIdx (toInput runtime input), db.main.appMaps.contains c.appMapId = false := by
    intro c hc
    rw [(mem_mapIdx_toInput hc).1]
    exact hmap
  have hinsert := insertMany_of_missing hmissing
  change (∃ result, EStateM.bind (insertMany (embedded.mapIdx (toInput runtime input))) _ db = .ok result db) ∨
    ∃ e, EStateM.bind (insertMany (embedded.mapIdx (toInput runtime input))) _ db = .error e db
  obtain hnone | ⟨e, herror⟩ := hinsert
  · rw [EStateM.bind, hnone]
    exact .inl ⟨_, rfl⟩
  · rw [EStateM.bind, herror]
    exact .inr ⟨e, rfl⟩

/-- Where the App Map is there, the provider is healthy and the ids are new, every chunk is stored. -/
theorem buildSemanticIndex_eq_ok {runtime : Runtime} {input : BuildSemanticIndexInput} {db : IndexDb}
    (hmap : db.main.appMaps.contains input.appMapId = true) (hadapter : Healthy input.embeddingAdapter)
    (hinjective : Function.Injective runtime.randomUUID)
    (hfresh : ∀ n, db.chunks.contains (runtime.randomUUID n) = false) :
    ∃ (result : BuildSemanticIndexResult) (db' : IndexDb), buildSemanticIndex runtime input db = .ok result db' ∧
      (db'.chunksOf input.appMapId).map CodeChunkOf.toCodeChunkDraft =
        (db.chunksOf input.appMapId).map CodeChunkOf.toCodeChunkDraft ++
          chunkRepo runtime.sha256 runtime.order input.dir input.files := by
  let drafts := chunkRepo runtime.sha256 runtime.order input.dir input.files
  let embedded := embedChunks input.embeddingAdapter input.embeddingModel drafts input.batchSize
  obtain ⟨hdrafts, hvectors⟩ := embedChunks_drafts hadapter input.embeddingModel drafts input.batchSize
  have hinputs : ∀ c ∈ embedded.mapIdx (toInput runtime input), c.appMapId = input.appMapId ∧
      (∃ vector, toVectorLiteral c.embedding = .ok vector) ∧ ∃ n, c.id = runtime.randomUUID n := by
    intro c hc
    obtain ⟨hid, ⟨e, he, hembedding⟩, hn⟩ := mem_mapIdx_toInput hc
    rw [hembedding]
    exact ⟨hid, hvectors e he, hn⟩
  have hnodup : ((embedded.mapIdx (toInput runtime input)).map CodeChunkOf.id).Nodup := by
    have hids : (embedded.mapIdx (toInput runtime input)).map CodeChunkOf.id =
        (List.range embedded.length).map runtime.randomUUID := by
      refine List.ext_getElem (by simp) fun n hn hn' => ?_
      rw [List.getElem_map, List.getElem_mapIdx, List.getElem_map, List.getElem_range]
      rfl
    rw [hids]
    exact List.nodup_range.map hinjective
  obtain ⟨db', rows, hinsert, -, hrows, hsame, hmaps⟩ := insertMany_eq_ok
    (fun c hc => by rw [(hinputs c hc).1]; exact hmap) (fun c hc => (hinputs c hc).2.1)
    (fun c hc => by obtain ⟨n, hn⟩ := (hinputs c hc).2.2; rw [hn]; exact hfresh n) hnodup
  have hinputsOf : rows.map CodeChunkOf.toCodeChunkDraft = drafts := by
    refine hsame.trans (Eq.trans ?_ hdrafts)
    refine List.ext_getElem (by simp [embedded]) fun n hn hn' => ?_
    rw [List.getElem_map, List.getElem_mapIdx, List.getElem_map]
    rfl
  have hof : ∀ r ∈ rows, decide (r.appMapId = input.appMapId) = true := by
    intro r hr
    have hmem : r.appMapId ∈ (embedded.mapIdx (toInput runtime input)).map CodeChunkOf.appMapId := by
      rw [← hmaps]
      exact List.mem_map_of_mem hr
    obtain ⟨c, hc, hid⟩ := List.mem_map.mp hmem
    exact decide_eq_true (hid.symm.trans (hinputs c hc).1)
  let result : BuildSemanticIndexResult :=
    { filesScanned := input.files.length
      chunksDrafted := drafts.length
      chunksEmbedded := embedded.length
      chunksIndexed := (embedded.mapIdx (toInput runtime input)).length }
  refine ⟨result, db', ?_, ?_⟩
  · change EStateM.bind (insertMany (embedded.mapIdx (toInput runtime input))) _ db = _
    rw [EStateM.bind, hinsert]
    rfl
  · rw [IndexDb.chunksOf, hrows, List.filter_append, List.filter_eq_self.mpr hof, List.map_append, hinputsOf]
    rfl

end MontrSecure.SemanticIndex
