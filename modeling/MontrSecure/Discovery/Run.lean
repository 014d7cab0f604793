import MontrSecure.Discovery.Detectors

/-!
# A run of discovery

`runDiscoveryDetailed`: the candidates of all detectors, merged, deduplicated by id and restricted to the
scope of the scan, then annotated by the triage of a model and by the hints of the threat model. The reply of
the model is what `parseTriage` has read in it.
-/

namespace MontrSecure

/-! ## Annotations -/

/-- `{ ...(metadata ?? {}), [key]: value }`. -/
def withMetadata (c : CandidateFinding) (key : String) (value : Json) : CandidateFinding :=
  let fields := c.metadata.getD []
  { c with
    metadata := some (
      if fields.any (·.1 = key) then fields.map fun f => if f.1 = key then (key, value) else f
      else fields ++ [(key, value)]) }

/-- `TriageVerdict`. -/
structure TriageVerdict where
  keep : Option Bool := none
  reason : Option String := none

/-- What `parseTriage` reads in a reply. -/
structure TriageReply where
  byIndex : ℕ → Option TriageVerdict
  shared : Option TriageVerdict := none

/-- `triageCandidates`: without a reply the candidates stay as they are. -/
def triageCandidates (reply : Option TriageReply) (candidates : List CandidateFinding) :
    List CandidateFinding :=
  match reply with
  | none => candidates
  | some reply => candidates.mapIdx fun i c =>
      match (reply.byIndex i).or reply.shared with
      | none => c
      | some verdict => withMetadata c "triage" (.obj (
          ("keep", .bool (verdict.keep.getD true)) ::
            ((verdict.reason.filter (· ≠ "")).toList.map fun reason => ("reason", .str reason))))

/-- `priorityFiles`. -/
def priorityFiles (appMap : AppMap) (priorityRoutePaths : List String) : List String :=
  (appMap.routes.filter (·.path ∈ priorityRoutePaths)).filterMap fun route =>
    (route.handler.map (·.file)).filter (· ≠ "")

/-- `hasThreatModelPriority`: the annotation is an object. -/
def hasThreatModelPriority (c : CandidateFinding) : Bool :=
  match (c.metadata.getD []).lookup "threatModelPriority" with
  | none | some .null | some (.bool false) => false
  | some (.num q) => q ≠ 0
  | some (.str s) => s ≠ ""
  | some _ => true

/-- `applyThreatModelScopeHints`: the sort is stable, so that it puts the candidates with priority before the
others. -/
def applyThreatModelScopeHints (appMap : AppMap) (candidates : List CandidateFinding) :
    List CandidateFinding :=
  match appMap.threatModel with
  | none => candidates
  | some threatModel =>
    let priorityCategories := threatModel.scopeHints.priorityCategories.map (·.category)
    let files := priorityFiles appMap threatModel.scopeHints.priorityRoutePaths
    if priorityCategories = [] ∧ files = [] then candidates
    else
      let annotated := candidates.map fun c =>
        let categoryMatch : Bool := c.category ∈ priorityCategories
        let routeMatch : Bool := c.location.file ∈ files
        if categoryMatch ∨ routeMatch then
          withMetadata c "threatModelPriority" (.obj (
            (if categoryMatch then [("categoryMatch", .bool true)] else []) ++
              if routeMatch then [("routeMatch", .bool true)] else []))
        else c
      annotated.filter hasThreatModelPriority ++ annotated.filter fun c => !hasThreatModelPriority c

/-! ## The run -/

/-- `RunDiscoveryInput`, with what the detectors go by and what triage replies. -/
structure DiscoveryInput where
  ctx : CandidateCtx
  scope : Option ScanScope := none
  appMap : AppMap
  detected : Detected
  triage : Option TriageReply := none

section Run

variable (hash : String → String) (input : DiscoveryInput)

/-- The candidates of findings; when the schema rejects one there are none. -/
def candidatesOf (ctx : CandidateCtx) (findings : List RawFinding) : Option (List CandidateFinding) :=
  findings.mapM fun f => buildCandidate hash ctx f.spec

/-- The candidates of the SAST agent, which are deduplicated where the packs run one by one. -/
def sastCandidates : Option (List CandidateFinding) :=
  (candidatesOf hash input.ctx input.detected.sastFindings).map fun cs =>
    if input.detected.registryPacks then dedupeById cs else cs

/-- The candidates after deduplication and scope filter. -/
def mergedCandidates : Option (List CandidateFinding) := do
  let sast ← sastCandidates hash input
  let others ← candidatesOf hash input.ctx input.detected.otherFindings
  return (dedupeById (sast ++ others)).filter fun c => inScope c.location.file input.scope

/-- `runDiscoveryDetailed`. -/
def runDiscoveryDetailed : Option (List CandidateFinding) :=
  (mergedCandidates hash input).map fun cs =>
    applyThreatModelScopeHints input.appMap (triageCandidates input.triage cs)

end Run

/-! ## Annotations only -/

/-- A candidate without its metadata. -/
def CandidateFinding.unannotated (c : CandidateFinding) : CandidateFinding := { c with metadata := none }

variable {cs : List CandidateFinding}

@[simp]
theorem unannotated_withMetadata (c : CandidateFinding) (key : String) (value : Json) :
    (withMetadata c key value).unannotated = c.unannotated := rfl

theorem map_unannotated_triageCandidates (reply : Option TriageReply) :
    (triageCandidates reply cs).map (·.unannotated) = cs.map (·.unannotated) := by
  cases reply with
  | none => rfl
  | some reply =>
    refine List.ext_getElem? fun i => ?_
    simp only [triageCandidates, List.getElem?_map, List.getElem?_mapIdx, Option.map_map]
    congr 1
    funext c
    dsimp only [Function.comp_apply]
    split <;> rfl

theorem map_unannotated_applyThreatModelScopeHints (appMap : AppMap) :
    ((applyThreatModelScopeHints appMap cs).map (·.unannotated)).Perm (cs.map (·.unannotated)) := by
  unfold applyThreatModelScopeHints
  split
  · exact .refl _
  · dsimp only
    split
    · exact .refl _
    · refine ((List.filter_append_perm _ _).map _).trans (.of_eq ?_)
      rw [List.map_map]
      refine List.map_congr_left fun c _ => ?_
      dsimp only [Function.comp_apply]
      split <;> rfl

/-- Triage and hints annotate and reorder. -/
theorem perm_runDiscoveryDetailed {hash : String → String} {input : DiscoveryInput}
    {out merged : List CandidateFinding} (hmerged : mergedCandidates hash input = some merged)
    (hout : runDiscoveryDetailed hash input = some out) :
    (out.map (·.unannotated)).Perm (merged.map (·.unannotated)) := by
  unfold runDiscoveryDetailed at hout
  rw [hmerged, Option.map_some, Option.some.injEq] at hout
  rw [← hout]
  refine (map_unannotated_applyThreatModelScopeHints input.appMap).trans ?_
  rw [map_unannotated_triageCandidates]

end MontrSecure
