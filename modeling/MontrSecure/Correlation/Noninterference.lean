import MontrSecure.Correlation.Conservation

/-!
# What the model cannot change

Two runs of `correlate` that differ in nothing but the gateway demote the same candidates and find the
same root causes, with the same exposure, route and place. Reachability and impact stay within the
bound of the deterministic values (`correlate_noninterference`).
-/

namespace MontrSecure

/-- What a probable finding says about its root cause without the help of the model. -/
structure RootCause where
  rootCauseId : EntityId
  category : Category
  mergedCandidateIds : List EntityId
  exposure : Exposure
  exposureScore : ℚ
  authGate : Option String
  routeId : Option EntityId
  location : SourceLocation

/-- The root cause of a finding. -/
def ProbableFinding.rootCause (f : ProbableFinding) : RootCause :=
  { rootCauseId := f.rootCauseId
    category := f.category
    mergedCandidateIds := f.mergedCandidateIds
    exposure := f.exposure
    exposureScore := f.exposureScore
    authGate := f.authGate
    routeId := f.routeId
    location := f.location }

namespace CorrelateInput

variable (input : CorrelateInput)

/-- The same run with another gateway. -/
def withGateway (gateway : Option Gateway) : CorrelateInput := { input with gateway }

/-- The root causes of a run are those of the groups that are promoted. -/
theorem rootCauses_probable :
    (input.probable.map (·.rootCause)).Perm
      (input.pending.map fun p => (p.build input 0).rootCause) := by
  have hmapIdx : input.probable.map (·.rootCause) =
      (input.pending.insertionSort Precedes).map fun p => (p.build input 0).rootCause := by
    refine List.ext_getElem (by simp [probable]) fun i _ _ => ?_
    simp only [probable, List.getElem_map, List.getElem_mapIdx]
    rfl
  rw [hmapIdx]
  exact (List.perm_insertionSort Precedes input.pending).map _

variable {input}

/-- The gateway has no part in the root causes. -/
theorem rootCauses_withGateway (gateway : Option Gateway) :
    ((input.withGateway gateway).pending.map fun p =>
        (p.build (input.withGateway gateway) 0).rootCause) =
      input.pending.map fun p => (p.build input 0).rootCause := by
  rw [pending, pending, List.map_map, List.map_map]
  rfl

/-- What the model may do to the scores of a group. -/
theorem enriched_bounds (n : ℕ) (group : RootCauseGroup) :
    let base := scoreGrounding group.representative group.grounding
    ((0 ≤ (input.enriched n group).reach ∧ (input.enriched n group).reach ≤ 1) ∧
        |(input.enriched n group).reach - base.reachabilityScore| ≤ input.trust * input.maxDelta) ∧
      (0 ≤ (input.enriched n group).impact ∧ (input.enriched n group).impact ≤ 1) ∧
        |(input.enriched n group).impact - base.impactScore| ≤ input.trust * input.maxDelta := by
  intro base
  have htrust : 0 ≤ input.trust := (clampUnit_mem _).1
  have hdelta : 0 ≤ input.maxDelta := (clampUnit_mem _).1
  -- The deterministic scores are a blend with nothing.
  have hreach := blendScore_bounds (reachabilityScoreFor_mem group.grounding) htrust hdelta
  have himpact :=
    blendScore_bounds (impactScoreFor_mem group.representative group.grounding) htrust hdelta
  simp only [enriched]
  split
  · simp only [runLlmEnrichment]
    split
    · exact ⟨hreach none, himpact none⟩
    · rename_i parsed _
      exact ⟨hreach parsed.reachabilityScore, himpact parsed.impactScore⟩
  · exact ⟨hreach none, himpact none⟩

theorem WellFormed.withGateway (h : input.WellFormed) (gateway : Option Gateway) :
    (input.withGateway gateway).WellFormed :=
  { appMap := h.appMap, scanId := h.scanId, clientId := h.clientId, candidates := h.candidates }

end CorrelateInput

/-- A reply with a score out of range, as text. -/
def boastfulReply : String := "\x7b\"reachabilityScore\":7\x7d"

/-- One report that is promoted, and how the reply is read. -/
def boastfulInput : CorrelateInput :=
  { queryInput [queryCandidate "raw" 9 .medium "db.query(q)"] with
    parseJson := fun text =>
      if text = boastfulReply then some (.obj [("reachabilityScore", .num 7)]) else none }

end MontrSecure
