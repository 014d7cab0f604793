import Mathlib.Data.List.Sort
import MontrSecure.Contracts.Schemas
import MontrSecure.Correlation.Grounding
import MontrSecure.Correlation.Taxonomy
import MontrSecure.Correlation.Scoring
import MontrSecure.Data.Grouping

/-!
# Deduplication

`packages/correlation/src/dedup.ts`: the same root cause reported by several tools becomes one group.
Injection findings are keyed on the sink of the App Map, the others on their file, package or place.
-/

namespace MontrSecure

/-- `dedupKey`. -/
def dedupKey (cand : CandidateFinding) (g : Grounding) : String :=
  let cat := cand.category.name
  let atPlace := cat ++ "@loc:" ++ cand.location.file ++ ":" ++ toString cand.location.line
  match g.klass with
  | .injection =>
    match g.matchedSink with
    | some sink => cat ++ "@sink:" ++ sink.location.file ++ ":" ++ toString sink.location.line
    | none => atPlace
  | .config | .secret => cat ++ "@file:" ++ cand.location.file
  | .dependency =>
    cat ++ "@pkg:" ++ (extractPackageName cand).getD cand.location.file
  | .access | .other => atPlace

/-- The key of a candidate that is grounded against `appMap`. -/
def keyOf (appMap : AppMap) (cand : CandidateFinding) : String :=
  dedupKey cand (groundCandidate cand appMap)

/-- The better representative: of higher severity, else on an earlier line, else the first. -/
def betterOf (best c : CandidateFinding) : CandidateFinding :=
  let cw := severityWeight c.rawSeverity
  let bw := severityWeight best.rawSeverity
  if bw < cw ∨ cw = bw ∧ c.location.line < best.location.line then c else best

/-- `pickRepresentative`: a group is not empty. -/
def pickRepresentative (head : CandidateFinding) (tail : List CandidateFinding) :
    CandidateFinding :=
  tail.foldl betterOf head

/-- `RootCauseGroup`. -/
structure RootCauseGroup where
  key : String
  category : Category
  candidates : List CandidateFinding
  representative : CandidateFinding
  grounding : Grounding

/-- The grounding kept under the id of a candidate: of several candidates with an id, the last. -/
def cachedGrounding (candidates : List CandidateFinding) (appMap : AppMap)
    (cand : CandidateFinding) : Grounding :=
  match candidates.reverse.find? (·.id = cand.id) with
  | some c => groundCandidate c appMap
  | none => groundCandidate cand appMap

/-- The group of a bucket, grounded on its representative. -/
def groupOf (candidates : List CandidateFinding) (appMap : AppMap)
    (bucket : KeyGroup String CandidateFinding) : RootCauseGroup :=
  let representative := pickRepresentative bucket.head bucket.tail
  { key := bucket.key
    category := representative.category
    candidates := bucket.items
    representative
    grounding := cachedGrounding candidates appMap representative }

/-- `groupCandidates`. -/
def groupCandidates (candidates : List CandidateFinding) (appMap : AppMap) : List RootCauseGroup :=
  (KeyGroup.group (keyOf appMap) candidates).map (groupOf candidates appMap)

/-! ## The representative -/

theorem betterOf_eq_or (best c : CandidateFinding) : betterOf best c = best ∨ betterOf best c = c := by
  simp only [betterOf]
  split
  · exact .inr rfl
  · exact .inl rfl

/-- The representative is one of the group. -/
theorem pickRepresentative_mem (head : CandidateFinding) (tail : List CandidateFinding) :
    pickRepresentative head tail ∈ head :: tail := by
  unfold pickRepresentative
  induction tail generalizing head with
  | nil => exact List.mem_cons_self
  | cons c tail ih =>
    rw [List.foldl_cons]
    obtain hrest | hrest := List.mem_cons.mp (ih (betterOf head c))
    · rw [hrest]
      obtain h | h := betterOf_eq_or head c <;> rw [h]
      · exact List.mem_cons_self
      · exact List.mem_cons_of_mem _ List.mem_cons_self
    · exact List.mem_cons_of_mem _ (List.mem_cons_of_mem _ hrest)

/-! ## The groups -/

variable {candidates : List CandidateFinding} {appMap : AppMap}

/-- Every candidate is in exactly one group, as often as it comes. -/
theorem candidates_groupCandidates :
    ((groupCandidates candidates appMap).flatMap (·.candidates)).Perm candidates := by
  unfold groupCandidates
  rw [List.flatMap_map]
  exact KeyGroup.flatMap_items_group

theorem nodup_keys_groupCandidates :
    ((groupCandidates candidates appMap).map (·.key)).Nodup := by
  unfold groupCandidates
  rw [List.map_map]
  exact KeyGroup.nodup_keys_group

/-- What is in a group: the candidates with its key, and the representative is one of them. -/
theorem of_mem_groupCandidates {group : RootCauseGroup}
    (h : group ∈ groupCandidates candidates appMap) :
    group.candidates = candidates.filter (keyOf appMap · = group.key) ∧
      group.representative ∈ group.candidates ∧
      group.category = group.representative.category ∧
      group.grounding = cachedGrounding candidates appMap group.representative := by
  obtain ⟨bucket, hbucket, rfl⟩ := List.mem_map.mp h
  exact ⟨KeyGroup.items_of_mem_group hbucket, pickRepresentative_mem _ _, rfl, rfl⟩

/-- The group a candidate is in. -/
theorem exists_mem_groupCandidates (appMap : AppMap) {cand : CandidateFinding}
    (h : cand ∈ candidates) :
    ∃ group ∈ groupCandidates candidates appMap, cand ∈ group.candidates ∧
      group.key = keyOf appMap cand := by
  obtain ⟨bucket, hbucket, hmem, hkey⟩ := KeyGroup.exists_mem_group (f := keyOf appMap) h
  exact ⟨groupOf candidates appMap bucket, List.mem_map_of_mem hbucket, hmem, hkey⟩

end MontrSecure

/-!
## Correlation

`correlate` of `packages/correlation/src/correlate.ts`: candidates are grouped, each group is demoted
or promoted, and the promoted ones are ranked. The free text of the hypotheses, semantic search,
audit and metrics have no part in this; the texts are a parameter.

What the callbacks answer may depend on how often they were asked. Each is asked at most once for a
group, so the position of the group stands for that.
-/

namespace MontrSecure

open Text

/-- `FalsePositiveSignal`. -/
structure FalsePositiveSignal where
  category : Category
  file : String
  line : ℕ
  ruleId : Option String

/-- `FalsePositiveTuning`. -/
abbrev FalsePositiveTuning := ℕ → FalsePositiveSignal → Bool

/-- `ConfirmedShapeSignal`. -/
structure ConfirmedShapeSignal where
  category : Category
  file : String

/-- `PriorConfirmedShapes`. -/
abbrev PriorConfirmedShapes := ℕ → ConfirmedShapeSignal → Bool

/-- The texts of `hypotheses.ts`, and the note of the semantic search. -/
structure Texts where
  reachabilityHypothesis : CandidateFinding → Grounding → String
  exploitHypothesis : CandidateFinding → Grounding → AppMap → String
  semanticGroundingNote : ℕ → CandidateFinding → Option String

/-- `CorrelateInput`. -/
structure CorrelateInput where
  clientId : ClientId
  scanId : ScanId
  appMap : AppMap
  candidates : List CandidateFinding
  gateway : Option Gateway := none
  now : IsoDateTime
  useLlm : Option Bool := none
  llmScoreTrust : Option Number := none
  llmScoreMaxDelta : Option Number := none
  fpTuning : Option FalsePositiveTuning := none
  priorConfirmedShapes : Option PriorConfirmedShapes := none
  /-- `JSON.parse`. -/
  parseJson : String → Option Json
  texts : Texts

/-- `PendingProbable`, with the group it is of. -/
structure PendingProbable where
  group : RootCauseGroup
  combined : ℚ
  impact : ℚ
  reach : ℚ
  exposureScore : ℚ
  severity : ℚ
  category : Category
  rootCauseId : EntityId
  priorShapeMatched : Bool
  reachHypo : String
  exploitHypo : String

/-- `build`: the finding with its rank, before the schema sees it. -/
def PendingProbable.build (input : CorrelateInput) (rank : ℕ) (p : PendingProbable) :
    ProbableFinding :=
  { id := makeProbableId input.scanId p.rootCauseId
    scanId := input.scanId
    clientId := input.clientId
    rootCauseId := p.rootCauseId
    category := p.group.representative.category
    mergedCandidateIds := p.group.candidates.map (·.id)
    reachabilityHypothesis := p.reachHypo
    exploitHypothesis := p.exploitHypo
    exposure := p.group.grounding.exposure
    authGate := p.group.grounding.authGate.filter (· ≠ "")
    routeId := p.group.grounding.routeId.filter (· ≠ "")
    location := p.group.representative.location
    reachabilityScore := round3 p.reach
    exposureScore := round3 p.exposureScore
    impactScore := round3 p.impact
    rank
    createdAt := input.now }

/-- `comparePending`; strings compare by their code units. -/
def comparePending (a b : PendingProbable) : Ordering :=
  if b.combined ≠ a.combined then compare b.combined a.combined
  else if b.impact ≠ a.impact then compare b.impact a.impact
  else if b.reach ≠ a.reach then compare b.reach a.reach
  else if b.severity ≠ a.severity then compare b.severity a.severity
  else if a.priorShapeMatched ≠ b.priorShapeMatched then
    if a.priorShapeMatched then .lt else .gt
  else if a.category ≠ b.category then
    if units a.category.name < units b.category.name then .lt else .gt
  else if units a.rootCauseId < units b.rootCauseId then .lt
  else if units b.rootCauseId < units a.rootCauseId then .gt
  else .eq

/-- `a` may stand before `b`. -/
def Precedes (a b : PendingProbable) : Prop := comparePending a b ≠ .gt

instance : DecidableRel Precedes := fun a b => inferInstanceAs (Decidable (comparePending a b ≠ .gt))

namespace CorrelateInput

variable (input : CorrelateInput)

/-- The trust in the model's scores. -/
def trust : ℚ := clampUnit (input.llmScoreTrust.getD (.finite (1 / 2)))

/-- The most the model may move a score. -/
def maxDelta : ℚ := clampUnit (input.llmScoreMaxDelta.getD (.finite (1 / 5)))

/-- The gateway, when it is used. -/
def usedGateway : Option Gateway := if input.useLlm.getD true then input.gateway else none

/-- The `n`-th group matches a known false positive. -/
def knownFalsePositive (n : ℕ) (rep : CandidateFinding) : Bool :=
  input.fpTuning.any fun tuning =>
    tuning n
      { category := rep.category
        file := rep.location.file
        line := rep.location.line
        ruleId := if rep.ruleId = "" then none else some rep.ruleId }

/-- The `n`-th group is demoted. -/
def demotes (n : ℕ) (group : RootCauseGroup) : Bool :=
  group.grounding.demote || input.knownFalsePositive n group.representative

/-- The enrichment of the `n`-th group. -/
def enriched (n : ℕ) (group : RootCauseGroup) : LlmEnrichmentResult :=
  let rep := group.representative
  let base := scoreGrounding rep group.grounding
  let reachHypothesis := input.texts.reachabilityHypothesis rep group.grounding
  let exploitHypothesis := input.texts.exploitHypothesis rep group.grounding input.appMap
  match input.usedGateway with
  | some gateway =>
    runLlmEnrichment input.parseJson (gateway n) base reachHypothesis exploitHypothesis input.trust
      input.maxDelta
  | none =>
    { reach := base.reachabilityScore, impact := base.impactScore, reachHypothesis,
      exploitHypothesis }

/-- What the loop pushes for the `n`-th group, when it is promoted. -/
def pendingOf (n : ℕ) (group : RootCauseGroup) : PendingProbable :=
  let rep := group.representative
  let exposureScore := (scoreGrounding rep group.grounding).exposureScore
  let enriched := input.enriched n group
  let reachHypo :=
    enriched.reachHypothesis ++ (input.texts.semanticGroundingNote n rep).getD ""
  let priorShapeMatched :=
    input.priorConfirmedShapes.any fun shapes =>
      shapes n { category := rep.category, file := rep.location.file }
  { group
    combined := enriched.reach * exposureScore * enriched.impact
    impact := enriched.impact
    reach := enriched.reach
    exposureScore
    severity := severityWeight rep.rawSeverity
    category := rep.category
    rootCauseId := makeRootCauseId input.scanId rep.category group.key
    priorShapeMatched
    reachHypo :=
      if priorShapeMatched then
        reachHypo ++ " A structurally similar " ++ rep.category.name ++
          " finding elsewhere in this repository was confirmed exploitable in an earlier scan — " ++
          "treat this as a stronger-than-usual candidate worth prioritizing (informational prior; " ++
          "verify independently)."
      else reachHypo
    exploitHypo := enriched.exploitHypothesis }

/-- The groups with their positions. -/
def groups : List (RootCauseGroup × ℕ) := (groupCandidates input.candidates input.appMap).zipIdx

/-- `pending` after the loop. -/
def pending : List PendingProbable :=
  (input.groups.filter fun g => !input.demotes g.2 g.1).map fun g => input.pendingOf g.2 g.1

/-- `demotedCandidates` after the loop. -/
def demoted : List CandidateFinding :=
  (input.groups.filter fun g => input.demotes g.2 g.1).flatMap (·.1.candidates)

/-- `probable`: the promoted groups in order of rank. -/
def probable : List ProbableFinding :=
  (input.pending.insertionSort Precedes).mapIdx fun i p => p.build input (i + 1)

end CorrelateInput

/-- `correlate`. -/
def correlate (input : CorrelateInput) : Except Err Layer2Output :=
  if input.appMap.id = "" then
    .error (.other "correlate: an App Map is required before correlation can run")
  else if input.probable.all ProbableFinding.valid && input.demoted.all CandidateFinding.valid then
    .ok { probable := input.probable, demoted := input.demoted }
  else .error (.other "ZodError")

end MontrSecure
