import MontrSecure.Contracts.Schemas
import MontrSecure.Correlation.Scoring
import MontrSecure.StateStore.Repositories

/-!
# Reading back what was stored

The reads of `packages/state-store/src/repositories.ts` that give the layers after a restart what the
layers before it produced, and the row mappers under them. Each mapper drops something; the lemmas
here say which values come back as they were.
-/

namespace MontrSecure

/-! ## Candidates -/

/-- A number of a stored object. -/
def storedNumber (key : String) (j : Json) : Option ℕ :=
  match j.property key with
  | some (.num q) => some q.num.toNat
  | _ => none

example : storedNumber "line" .null = none := by decide +kernel

/-- A text of a stored object. -/
def storedText (key : String) (j : Json) : Option String :=
  match j.property key with
  | some (.str s) => some s
  | _ => none

/-- A location from its JSON. -/
def locationFromJson (j : Json) : SourceLocation :=
  { file := (storedText "file" j).getD ""
    line := (storedNumber "line" j).getD 0
    endLine := storedNumber "endLine" j
    column := storedNumber "column" j
    endColumn := storedNumber "endColumn" j
    symbol := storedText "symbol" j }

/-- `candidateFromRow`: the title and the location are read from under the reserved key, and that key is
kept out of the metadata. -/
def candidateFromRow (row : CandidateRow) : CandidateFinding :=
  let raw := row.metadata.getD []
  let ext := (Json.obj raw).property reservedMetaKey
  let userMeta := raw.filter fun p => p.1 ≠ reservedMetaKey
  { id := row.id
    scanId := row.scanId
    clientId := row.clientId
    source := row.source
    ruleId := row.ruleId
    category := row.category
    cwe := row.cwe
    location :=
      match ext.bind (Json.property "location") with
      | none | some .null => { file := row.file, line := row.line }
      | some location => locationFromJson location
    rawSeverity := row.rawSeverity
    evidenceSnippet := row.evidenceSnippet
    title := ext.bind (storedText "title")
    createdAt := row.createdAt
    metadata := if userMeta.isEmpty then none else some userMeta }

/-- `listByScan` of `makeCandidateRepo`. -/
def CandidateRepository.listByScan (clientId : ClientId) (scanId : ScanId) (db : Database) :
    List CandidateFinding :=
  ((db.candidates.rows.filter fun r => r.clientId = clientId && r.scanId = scanId).mergeSort
    fun r s => decide (r.createdAt ≤ s.createdAt)).map candidateFromRow

/-- The metadata of a candidate is kept as it is: it is not the empty object, and does not use the
reserved key. -/
def CandidateFinding.PlainMetadata (f : CandidateFinding) : Prop :=
  f.metadata ≠ some [] ∧ ∀ p ∈ f.metadata.getD [], p.1 ≠ reservedMetaKey

theorem locationFromJson_toJson (loc : SourceLocation) :
    locationFromJson (locationToJson loc) = loc := by
  obtain ⟨file, line, endLine, column, endColumn, symbol⟩ := loc
  cases endLine <;> cases column <;> cases endColumn <;> cases symbol <;>
    simp [locationFromJson, locationToJson, storedNumber, storedText, Json.property]

/-- A location without extras is its file and line. -/
theorem SourceLocation.eq_of_plain {loc : SourceLocation} (h : locationHasExtras loc = false) :
    ({ file := loc.file, line := loc.line } : SourceLocation) = loc := by
  obtain ⟨file, line, endLine, column, endColumn, symbol⟩ := loc
  simp only [locationHasExtras, Bool.or_eq_false_iff, Option.isSome_eq_false_iff,
    Option.isNone_iff_eq_none] at h
  obtain ⟨⟨⟨rfl, rfl⟩, rfl⟩, rfl⟩ := h
  rfl

theorem setField_of_fresh {key : String} {value : Json} {fields : List (String × Json)}
    (h : ∀ p ∈ fields, p.1 ≠ key) : setField key value fields = fields ++ [(key, value)] := by
  induction fields with
  | nil => rfl
  | cons p fields ih =>
    rw [List.forall_mem_cons] at h
    rw [setField, if_neg h.1, ih h.2]
    rfl

theorem property_of_fresh {key : String} {fields : List (String × Json)}
    (h : ∀ p ∈ fields, p.1 ≠ key) : (Json.obj fields).property key = none := by
  have hnone : fields.find? (fun p => decide (p.1 = key)) = none := by
    rw [List.find?_eq_none]
    simpa using h
  rw [Json.property, hnone, Option.map_none]

theorem property_append {key : String} {value : Json} {fields : List (String × Json)}
    (h : ∀ p ∈ fields, p.1 ≠ key) :
    (Json.obj (fields ++ [(key, value)])).property key = some value := by
  have hnone : fields.find? (fun p => decide (p.1 = key)) = none := by
    rw [List.find?_eq_none]
    simpa using h
  rw [Json.property, List.find?_append, hnone]
  simp

theorem filter_of_fresh {key : String} {fields : List (String × Json)}
    (h : ∀ p ∈ fields, p.1 ≠ key) : (fields.filter fun p => decide (p.1 ≠ key)) = fields := by
  rw [List.filter_eq_self]
  simpa using h

section Candidate

variable {clientId : ClientId} {f : CandidateFinding}

/-- What is stored under the reserved key. -/
def candidateExt (f : CandidateFinding) : List (String × Json) :=
  (f.title.toList.map fun t => ("title", .str t)) ++
    if locationHasExtras f.location then [("location", locationToJson f.location)] else []

/-- The metadata that is stored. -/
theorem candidateToCreate_metadata (h : f.PlainMetadata) :
    ((candidateToCreate clientId f).metadata.getD []) =
      if (candidateExt f).isEmpty then f.metadata.getD []
      else f.metadata.getD [] ++ [(reservedMetaKey, .obj (candidateExt f))] := by
  have hmetadata : (candidateToCreate clientId f).metadata.getD [] =
      if (candidateExt f).isEmpty then f.metadata.getD []
      else setField reservedMetaKey (.obj (candidateExt f)) (f.metadata.getD []) := by
    have hgetD : ∀ fields : List (String × Json),
        (if fields.isEmpty then none else some fields).getD [] = fields := by
      intro fields
      cases fields <;> rfl
    exact hgetD _
  rw [hmetadata, setField_of_fresh h.2]

theorem candidateExt_location :
    (match (Json.obj (candidateExt f)).property "location" with
      | none | some .null => { file := f.location.file, line := f.location.line }
      | some location => locationFromJson location) = f.location := by
  cases hextras : locationHasExtras f.location with
  | true =>
    have hlocation : (Json.obj (candidateExt f)).property "location" = some (locationToJson f.location) := by
      cases htitle : f.title <;> simp [candidateExt, Json.property, hextras, htitle]
    rw [hlocation]
    exact locationFromJson_toJson f.location
  | false =>
    have hlocation : (Json.obj (candidateExt f)).property "location" = none := by
      cases htitle : f.title <;> simp [candidateExt, Json.property, hextras, htitle]
    rw [hlocation]
    exact SourceLocation.eq_of_plain hextras

theorem candidateExt_title : storedText "title" (.obj (candidateExt f)) = f.title := by
  cases htitle : f.title <;> cases hextras : locationHasExtras f.location <;>
    simp [candidateExt, storedText, Json.property, hextras, htitle]

/-- A candidate comes back as it was, up to its client, when its metadata is plain. -/
theorem candidateFromRow_of_plain (h : f.PlainMetadata) :
    candidateFromRow (candidateToCreate clientId f) = { f with clientId } := by
  have hback : (if (f.metadata.getD []).isEmpty then none else some (f.metadata.getD [])) = f.metadata := by
    obtain ⟨hempty, -⟩ := h
    cases hmetadata : f.metadata with
    | none => rfl
    | some fields =>
      cases fields with
      | nil => exact absurd hmetadata hempty
      | cons p fields => rfl
  unfold candidateFromRow
  simp only [candidateToCreate_metadata h]
  by_cases hext : (candidateExt f).isEmpty = true
  · -- nothing is stored under the reserved key
    have htitle : f.title = none := by
      rw [← candidateExt_title (f := f), List.isEmpty_iff.mp hext]
      rfl
    have hlocation : ({ file := f.location.file, line := f.location.line } : SourceLocation) = f.location := by
      rw [← candidateExt_location (f := f), List.isEmpty_iff.mp hext]
      rfl
    simp only [hext, if_true, property_of_fresh h.2, filter_of_fresh h.2, hback, Option.bind_none]
    simp [candidateToCreate, htitle, hlocation]
  · have hfilter : ((f.metadata.getD [] ++ [(reservedMetaKey, Json.obj (candidateExt f))]).filter
        fun p => decide (p.1 ≠ reservedMetaKey)) = f.metadata.getD [] := by
      rw [List.filter_append, filter_of_fresh h.2]
      simp
    simp only [hext, Bool.false_eq_true, if_false, property_append h.2, hfilter, hback, Option.bind_some,
      candidateExt_title]
    have hlocation := candidateExt_location (f := f)
    simp only [candidateToCreate]
    rw [hlocation]

/-- Which candidates come back as they were. -/
theorem candidateFromRow_toCreate_iff :
    candidateFromRow (candidateToCreate clientId f) = f ↔ f.clientId = clientId ∧ f.PlainMetadata := by
  constructor
  · intro h
    refine ⟨(congrArg CandidateFinding.clientId h).symm, ?_⟩
    -- what is read has no empty metadata and no reserved key
    rw [← h]
    unfold CandidateFinding.PlainMetadata candidateFromRow
    dsimp only
    split
    · simp
    · rename_i hempty
      refine ⟨fun hnil => hempty ?_, fun p hp => ?_⟩
      · rw [Option.some.inj hnil]
        rfl
      · exact of_decide_eq_true (List.mem_filter.mp hp).2
  · rintro ⟨rfl, hplain⟩
    exact candidateFromRow_of_plain hplain

end Candidate

/-- `confirmedFromRow`. -/
def confirmedFromRow (row : ConfirmedRow) : ConfirmedFinding :=
  { id := row.id
    scanId := row.scanId
    clientId := row.clientId
    probableId := row.probableId
    title := row.title
    category := row.category
    cwe := row.cwe
    owasp := row.owasp
    severity := row.severity
    exposure := row.exposure
    location := { file := row.file, line := row.line }
    impact := row.impact
    proofType := row.proofType
    proofArtifact := row.proofArtifact
    createdAt := row.createdAt }

/-- `listByScan` of `makeConfirmedRepo`. -/
def ConfirmedRepository.listByScan (clientId : ClientId) (scanId : ScanId) (db : Database) :
    List ConfirmedFinding :=
  ((db.confirmed.rows.filter fun r => r.clientId = clientId && r.scanId = scanId).mergeSort
    fun r s => decide (r.createdAt ≤ s.createdAt)).map confirmedFromRow

section Findings

variable {clientId : ClientId}

/-- A location comes back as it was when it has no extras. -/
theorem plain_iff {loc : SourceLocation} :
    ({ file := loc.file, line := loc.line } : SourceLocation) = loc ↔ locationHasExtras loc = false := by
  refine ⟨fun h => ?_, SourceLocation.eq_of_plain⟩
  rw [← h]
  rfl

/-- Which probable findings come back as they were. -/
theorem probableFromRow_toCreate_iff {f : ProbableFinding} :
    probableFromRow (probableToCreate clientId f) = f ↔
      f.clientId = clientId ∧ locationHasExtras f.location = false := by
  constructor
  · intro h
    exact ⟨(congrArg ProbableFinding.clientId h).symm,
      plain_iff.mp (congrArg ProbableFinding.location h)⟩
  · rintro ⟨rfl, hplain⟩
    show { f with location := { file := f.location.file, line := f.location.line } } = f
    rw [plain_iff.mpr hplain]

/-- Which confirmed findings come back as they were. -/
theorem confirmedFromRow_toCreate_iff {f : ConfirmedFinding} :
    confirmedFromRow (confirmedToCreate clientId f) = f ↔
      f.clientId = clientId ∧ locationHasExtras f.location = false := by
  constructor
  · intro h
    exact ⟨(congrArg ConfirmedFinding.clientId h).symm,
      plain_iff.mp (congrArg ConfirmedFinding.location h)⟩
  · rintro ⟨rfl, hplain⟩
    show { f with location := { file := f.location.file, line := f.location.line } } = f
    rw [plain_iff.mpr hplain]

end Findings

/-! ## App Maps -/

/-- `get`: the map of the client with that id, assembled from the tables of its parts. -/
def AppMapRepository.get (clientId : ClientId) (id : EntityId) (db : Database) : Option AppMap :=
  ((db.appMaps.get? id).filter (·.clientId = clientId)).map fun row =>
    appMapFromRows row (db.routes.rows.filter (·.appMapId = id))
      (db.taintSources.rows.filter (·.appMapId = id)) (db.taintSinks.rows.filter (·.appMapId = id))

/-- The same map, up to the order of its routes, sources and sinks. -/
structure AppMap.Same (m m' : AppMap) : Prop where
  scalars : { m with routes := [], taintSources := [], taintSinks := [] } =
    { m' with routes := [], taintSources := [], taintSinks := [] }
  routes : m.routes.Perm m'.routes
  taintSources : m.taintSources.Perm m'.taintSources
  taintSinks : m.taintSinks.Perm m'.taintSinks

/-- The tables have a place for everything the map says: it does not name its scan or telemetry surfaces, its
parts have ids, and its routes do not name the models they refer to. -/
structure AppMap.Storable (m : AppMap) : Prop where
  scanId : m.scanId = none
  telemetrySurfaces : m.telemetrySurfaces = none
  routes : ∀ r ∈ m.routes, r.id.isSome = true ∧ r.referencedModels = none
  taintSources : ∀ t ∈ m.taintSources, t.id.isSome = true
  taintSinks : ∀ t ∈ m.taintSinks, t.id.isSome = true

section AppMaps

variable {clientId : ClientId} {m : AppMap} {generated₁ generated₂ generated₃ : ℕ}

open AppMapRepository

/-- What is read of the parts of a map. -/
theorem map_partRows {α β γ : Type} (appMapId : EntityId) (idOf : β → Option EntityId)
    (toRow : α → β) (parts : List α) (generated : ℕ) (f : EntityId → β → γ) :
    (partRows appMapId idOf (parts.map toRow) generated).map (fun r => f r.id r.value) =
      parts.mapIdx fun i part =>
        f ((idOf (toRow part)).getD (generatedId (generated + i))) (toRow part) := by
  refine List.ext_getElem? fun i => ?_
  cases hpart : parts[i]? <;> simp [partRows, hpart]

theorem ids_partRows {α : Type} (appMapId : EntityId) (idOf : α → Option EntityId) (parts : List α)
    (generated : ℕ) (h : ∀ p ∈ parts, (idOf p).isSome = true) :
    (partRows appMapId idOf parts generated).map AppMapPartRow.id = parts.filterMap idOf := by
  rw [partRows]
  induction parts generalizing generated with
  | nil => rfl
  | cons p parts ih =>
    rw [List.forall_mem_cons] at h
    obtain ⟨id, hid⟩ := Option.isSome_iff_exists.mp h.1
    rw [List.mapIdx_cons, List.map_cons, List.filterMap_cons_some hid, ← ih (generated + 1) h.2, hid]
    refine congrArg (id :: ·) (congrArg (fun f => (List.mapIdx f parts).map AppMapPartRow.id) ?_)
    funext i part
    rw [Nat.add_assoc, Nat.add_comm 1 i]

/-- Parts come back as they were when they have ids and what has no column is not there. -/
theorem mapIdx_perm_iff {α : Type} (idOf : α → Option EntityId) (back : EntityId → α → α) (kept : α → Prop)
    (hid : ∀ id a, idOf (back id a) = some id) (hkept : ∀ id a, kept (back id a))
    (hback : ∀ id a, idOf a = some id → kept a → back id a = a) {parts : List α} {generated : ℕ} :
    (parts.mapIdx fun i part => back ((idOf part).getD (generatedId (generated + i))) part).Perm parts ↔
      ∀ a ∈ parts, (idOf a).isSome = true ∧ kept a := by
  constructor
  · intro hperm a ha
    obtain ⟨i, hi, ha'⟩ := List.mem_mapIdx.mp (hperm.mem_iff.mpr ha)
    rw [← ha', hid]
    exact ⟨rfl, hkept _ _⟩
  · intro h
    refine .of_eq (List.mapIdx_eq_iff.mpr fun i => ?_)
    cases hpart : parts[i]? with
    | none => rfl
    | some a =>
      obtain ⟨hsome, hkept⟩ := h a (List.mem_of_getElem? hpart)
      obtain ⟨id, hid⟩ := Option.isSome_iff_exists.mp hsome
      rw [Option.map_some, hid, Option.getD_some, hback id a hid hkept]

/-- `routeFromRow`. -/
def routeFromRow (id : EntityId) (r : Route) : Route := { r with id := some id }

/-- `taintSourceFromRow`. -/
def taintSourceFromRow (id : EntityId) (t : TaintSource) : TaintSource := { t with id := some id }

/-- `taintSinkFromRow`. -/
def taintSinkFromRow (id : EntityId) (t : TaintSink) : TaintSink := { t with id := some id }

theorem routes_perm_iff :
    ((partRows m.id Route.id (m.routes.map routeToCreate) generated₁).map fun r =>
      routeFromRow r.id r.value).Perm m.routes ↔
      ∀ r ∈ m.routes, r.id.isSome = true ∧ r.referencedModels = none := by
  rw [map_partRows m.id Route.id routeToCreate m.routes generated₁ routeFromRow]
  refine mapIdx_perm_iff Route.id (fun id r => routeFromRow id (routeToCreate r)) _
    (fun _ _ => rfl) (fun _ _ => rfl) fun id r hid hkept => ?_
  obtain ⟨_, _, _, _, _, _, _, _⟩ := r
  cases hid
  cases hkept
  rfl

theorem taintSources_perm_iff :
    ((partRows m.id TaintSource.id m.taintSources generated₁).map fun t =>
      taintSourceFromRow t.id t.value).Perm m.taintSources ↔ ∀ t ∈ m.taintSources, t.id.isSome = true := by
  have hback := map_partRows m.id TaintSource.id id m.taintSources generated₁ taintSourceFromRow
  rw [List.map_id] at hback
  rw [hback]
  refine (mapIdx_perm_iff TaintSource.id taintSourceFromRow (fun _ => True) (fun _ _ => rfl)
    (fun _ _ => trivial) fun id t hid _ => ?_).trans (by simp)
  obtain ⟨_, _, _, _, _⟩ := t
  cases hid
  rfl

theorem taintSinks_perm_iff :
    ((partRows m.id TaintSink.id m.taintSinks generated₁).map fun t =>
      taintSinkFromRow t.id t.value).Perm m.taintSinks ↔ ∀ t ∈ m.taintSinks, t.id.isSome = true := by
  have hback := map_partRows m.id TaintSink.id id m.taintSinks generated₁ taintSinkFromRow
  rw [List.map_id] at hback
  rw [hback]
  refine (mapIdx_perm_iff TaintSink.id taintSinkFromRow (fun _ => True) (fun _ _ => rfl)
    (fun _ _ => trivial) fun id t hid _ => ?_).trans (by simp)
  obtain ⟨_, _, _, _⟩ := t
  cases hid
  rfl

/-- Which maps come back as they were. -/
theorem same_appMapFromRows_iff :
    (appMapFromRows (appMapScalarsToCreate clientId m)
      (partRows m.id Route.id (m.routes.map routeToCreate) generated₁)
      (partRows m.id TaintSource.id m.taintSources generated₂)
      (partRows m.id TaintSink.id m.taintSinks generated₃)).Same m ↔
      m.clientId = clientId ∧ m.Storable := by
  constructor
  · rintro ⟨hscalars, hr, hs, ht⟩
    exact ⟨(congrArg AppMap.clientId hscalars).symm, (congrArg AppMap.scanId hscalars).symm,
      (congrArg AppMap.telemetrySurfaces hscalars).symm, routes_perm_iff.mp hr, taintSources_perm_iff.mp hs,
      taintSinks_perm_iff.mp ht⟩
  · rintro ⟨hclient, hscan, htelemetry, hr, hs, ht⟩
    refine ⟨?_, routes_perm_iff.mpr hr, taintSources_perm_iff.mpr hs, taintSinks_perm_iff.mpr ht⟩
    show { m with
        clientId, scanId := none, telemetrySurfaces := none, routes := [], taintSources := []
        taintSinks := [] } = { m with routes := [], taintSources := [], taintSinks := [] }
    rw [← hclient, hscan, htelemetry]

end AppMaps

end MontrSecure
