import MontrSecure.Correlation.Correlate

/-!
# No candidate is lost

Whatever the App Map, the tuning, the gateway and the candidates are, `correlate` gives a result in
which every candidate is either merged into one probable finding or demoted
(`correlate_conserves`). Which of the two is decided for a whole group, by its representative
(`promoted_or_demoted_by_representative`).
-/

namespace MontrSecure

namespace CorrelateInput

/-- What the schemas of the input promise. -/
structure WellFormed (input : CorrelateInput) : Prop where
  appMap : input.appMap.id ≠ ""
  scanId : input.scanId ≠ ""
  clientId : input.clientId ≠ ""
  candidates : ∀ c ∈ input.candidates, c.valid = true

variable (input : CorrelateInput)

/-- The groups that are promoted and those that are demoted, with their positions. -/
theorem filter_demotes_perm :
    ((input.groups.filter fun g => !input.demotes g.2 g.1) ++
      input.groups.filter fun g => input.demotes g.2 g.1).Perm input.groups := by
  refine (List.perm_append_comm).trans ?_
  exact List.filter_append_perm (fun g => input.demotes g.2 g.1) input.groups

/-- The candidates of the promoted groups. -/
def promoted : List CandidateFinding := input.pending.flatMap (·.group.candidates)

/-- Every candidate is promoted or demoted, as often as it comes. -/
theorem promoted_append_demoted : (input.promoted ++ input.demoted).Perm input.candidates := by
  have hgroups : input.groups.flatMap (·.1.candidates) =
      (groupCandidates input.candidates input.appMap).flatMap (·.candidates) := by
    rw [groups, ← List.flatMap_map, List.zipIdx_map_fst]
  have hpromoted : input.promoted =
      (input.groups.filter fun g => !input.demotes g.2 g.1).flatMap (·.1.candidates) := by
    rw [promoted, pending, List.flatMap_map]
    rfl
  rw [hpromoted, demoted, ← List.flatMap_append]
  refine ((input.filter_demotes_perm).flatMap_right _).trans ?_
  rw [hgroups]
  exact candidates_groupCandidates

theorem probable_length : input.probable.length = input.pending.length := by
  rw [probable, List.length_mapIdx, List.length_insertionSort]

/-- The ranks are 1, 2, … in order. -/
theorem ranks_probable : input.probable.map (·.rank) = List.range' 1 input.probable.length := by
  refine List.ext_getElem (by simp) fun i _ _ => ?_
  simp [probable, PendingProbable.build, Nat.add_comm]

/-- What the findings merge are the candidates of the promoted groups. -/
theorem merged_probable :
    (input.probable.flatMap (·.mergedCandidateIds)).Perm (input.promoted.map (·.id)) := by
  have hmapIdx : ∀ ps : List PendingProbable, ∀ k,
      (ps.mapIdx fun i p => p.build input (i + k)).flatMap (·.mergedCandidateIds) =
        ps.flatMap fun p => p.group.candidates.map (·.id) := by
    intro ps
    induction ps with
    | nil => exact fun _ => rfl
    | cons p ps ih =>
      intro k
      have hshift : (fun i (p : PendingProbable) => p.build input (i + 1 + k)) =
          fun i p => p.build input (i + (k + 1)) := by
        funext i p
        rw [Nat.add_right_comm, Nat.add_assoc]
      rw [List.mapIdx_cons, List.flatMap_cons, List.flatMap_cons, hshift, ih]
      rfl
  rw [probable, hmapIdx, promoted, List.map_flatMap]
  exact (List.perm_insertionSort Precedes input.pending).flatMap_right _

variable {input}

/-- The group a promoted or demoted position is of. -/
theorem mem_groups_iff {g : RootCauseGroup × ℕ} :
    g ∈ input.groups ↔ (groupCandidates input.candidates input.appMap)[g.2]? = some g.1 := by
  rw [groups, List.mem_zipIdx_iff_getElem?]

theorem group_of_mem_groups {g : RootCauseGroup × ℕ} (h : g ∈ input.groups) :
    g.1 ∈ groupCandidates input.candidates input.appMap :=
  List.mem_of_getElem? (mem_groups_iff.mp h)

theorem mem_pending {p : PendingProbable} (h : p ∈ input.pending) :
    ∃ n, (p.group, n) ∈ input.groups ∧ input.demotes n p.group = false ∧
      p = input.pendingOf n p.group := by
  obtain ⟨⟨group, n⟩, hg, rfl⟩ := List.mem_map.mp h
  obtain ⟨hmem, hdemotes⟩ := List.mem_filter.mp hg
  refine ⟨n, hmem, ?_, rfl⟩
  rwa [Bool.not_eq_true'] at hdemotes

theorem mem_probable {f : ProbableFinding} (h : f ∈ input.probable) :
    ∃ p ∈ input.pending, ∃ i, f = p.build input (i + 1) := by
  obtain ⟨i, hi, rfl⟩ := List.mem_mapIdx.mp h
  exact ⟨_, (List.perm_insertionSort Precedes input.pending).mem_iff.mp (List.getElem_mem _), i, rfl⟩

/-- A promoted group is in the result. -/
theorem exists_mem_probable {p : PendingProbable} (h : p ∈ input.pending) :
    ∃ f ∈ input.probable, ∃ i, f = p.build input (i + 1) := by
  have hsorted : p ∈ input.pending.insertionSort Precedes :=
    (List.perm_insertionSort Precedes input.pending).mem_iff.mpr h
  obtain ⟨i, hi, hp⟩ := List.mem_iff_getElem.mp hsorted
  exact ⟨_, List.mem_mapIdx.mpr ⟨i, hi, rfl⟩, i, by rw [hp]⟩

/-- A group that is not demoted is in the result. -/
theorem exists_probable_of_group {group : RootCauseGroup}
    (h : group ∈ groupCandidates input.candidates input.appMap)
    (hpromoted : ∀ n, input.demotes n group = false) :
    ∃ f ∈ input.probable, ∃ n i, f = (input.pendingOf n group).build input (i + 1) := by
  obtain ⟨n, hn⟩ := List.mem_iff_getElem?.mp h
  have hposition : (group, n) ∈ input.groups := mem_groups_iff.mpr hn
  have hpending : input.pendingOf n group ∈ input.pending :=
    List.mem_map.mpr ⟨(group, n), List.mem_filter.mpr ⟨hposition, by simp [hpromoted n]⟩, rfl⟩
  obtain ⟨f, hf, i, hbuild⟩ := exists_mem_probable hpending
  exact ⟨f, hf, n, i, hbuild⟩

/-! ## The result is well formed -/

/-- What the loop builds, the schema accepts. -/
theorem build_valid (h : input.WellFormed) {p : PendingProbable} (hp : p ∈ input.pending) (i : ℕ) :
    (p.build input (i + 1)).valid = true := by
  obtain ⟨n, hgroup, -, hpending⟩ := mem_pending hp
  obtain ⟨hcandidates, hrep, -, -⟩ := of_mem_groupCandidates (group_of_mem_groups hgroup)
  have hmem : ∀ c ∈ p.group.candidates, c.valid = true := by
    intro c hc
    rw [hcandidates] at hc
    exact h.candidates c (List.mem_filter.mp hc).1
  have hid : ∀ c ∈ p.group.candidates, c.id ≠ "" := by
    intro c hc
    have hvalid := hmem c hc
    simp only [CandidateFinding.valid, Bool.and_eq_true, decide_eq_true_eq] at hvalid
    exact hvalid.1.1.1.1.1
  have hlocation : p.group.representative.location.valid = true := by
    have hvalid := hmem _ hrep
    simp only [CandidateFinding.valid, Bool.and_eq_true] at hvalid
    exact hvalid.2
  have hrootCause : p.rootCauseId ≠ "" := by
    rw [hpending]
    exact makeRootCauseId_ne_empty _ _ _
  have hscore : ∀ q, score01 (round3 q) = true := by
    intro q
    simpa [score01] using round3_mem q
  simpa [ProbableFinding.valid, PendingProbable.build, makeProbableId_ne_empty, h.scanId, h.clientId,
    hrootCause, hlocation, hscore] using hid

/-- The run comes to its end. -/
theorem correlate_eq_ok (h : input.WellFormed) :
    correlate input = .ok { probable := input.probable, demoted := input.demoted } := by
  have hprobable : input.probable.all ProbableFinding.valid = true := by
    rw [List.all_eq_true]
    intro f hf
    obtain ⟨p, hp, i, rfl⟩ := mem_probable hf
    exact build_valid h hp i
  have hdemoted : input.demoted.all CandidateFinding.valid = true := by
    rw [List.all_eq_true]
    intro c hc
    exact h.candidates c (input.promoted_append_demoted.mem_iff.mp (List.mem_append_right _ hc))
  rw [correlate, if_neg h.appMap, hprobable, hdemoted]
  rfl

end CorrelateInput

/-! ## An App Map with one sink -/

/-- `src/db.ts` with a source and a sink, and a route to it. -/
def queryAppMap : AppMap :=
  { id := "map", clientId := "client", repo := "repo", branch := "main", commitSha := "0123456"
    routes :=
      [{ id := some "route", path := "/users", method := .get, authState := .public_
         handler := some { file := "src/db.ts", line := 1 } }]
    taintSources :=
      [{ kind := .queryParam, location := { file := "src/db.ts", line := 2 }
         routeId := some "route" }]
    taintSinks := [{ kind := .sqlQuery, location := { file := "src/db.ts", line := 9 } }]
    createdAt := 0 }

/-- An injection candidate in `src/db.ts`. -/
def queryCandidate (id : EntityId) (line : ℕ) (severity : Severity) (snippet : String) :
    CandidateFinding :=
  { id, scanId := "scan", clientId := "client", source := .semgrep, ruleId := "sql"
    category := .sqlInjection, location := { file := "src/db.ts", line }, rawSeverity := severity
    evidenceSnippet := snippet, createdAt := 0 }

/-- A run over candidates of `queryAppMap`, without any callback. -/
def queryInput (candidates : List CandidateFinding) : CorrelateInput :=
  { clientId := "client", scanId := "scan", appMap := queryAppMap, candidates, now := 0
    parseJson := fun _ => none
    texts :=
      { reachabilityHypothesis := fun _ _ => "reachable"
        exploitHypothesis := fun _ _ _ => "exploitable"
        semanticGroundingNote := fun _ _ => none } }

theorem queryInput_wellFormed {candidates : List CandidateFinding}
    (h : candidates.all CandidateFinding.valid = true) : (queryInput candidates).WellFormed :=
  { appMap := by simp [queryInput, queryAppMap]
    scanId := by simp [queryInput]
    clientId := by simp [queryInput]
    candidates := List.all_eq_true.mp h }

/-- Two reports of one sink; the one of higher severity shows a call of a sanitizer. -/
def sanitizedDuplicate : List CandidateFinding :=
  [queryCandidate "raw" 9 .medium "db.query(q)", queryCandidate "safe" 9 .high "parseInt(q)"]

/-! ## Every candidate is somewhere -/

/-- Every candidate is merged into one probable finding or demoted, as often as it comes, nothing
else is, and the ranks are 1, 2, … in order. -/
theorem correlate_conserves (input : CorrelateInput) (h : input.WellFormed) :
    ∃ out, correlate input = .ok out ∧
      (∃ promoted : List CandidateFinding, (promoted ++ out.demoted).Perm input.candidates ∧
        (out.probable.flatMap (·.mergedCandidateIds)).Perm (promoted.map (·.id))) ∧
      out.probable.map (·.rank) = List.range' 1 out.probable.length :=
  ⟨_, CorrelateInput.correlate_eq_ok h,
    ⟨input.promoted, input.promoted_append_demoted, input.merged_probable⟩, input.ranks_probable⟩

theorem correlate_conserves_sanitizedDuplicate :
    ∃ out, correlate (queryInput sanitizedDuplicate) = .ok out ∧
      (∃ promoted : List CandidateFinding, (promoted ++ out.demoted).Perm sanitizedDuplicate ∧
        (out.probable.flatMap (·.mergedCandidateIds)).Perm (promoted.map (·.id))) ∧
      out.probable.map (·.rank) = List.range' 1 out.probable.length :=
  correlate_conserves (queryInput sanitizedDuplicate) (queryInput_wellFormed (by decide +kernel))

/-! ## The verdict of a group -/

/-- The representative of the candidates that share the key of `cand`. -/
def representativeOf (candidates : List CandidateFinding) (appMap : AppMap)
    (cand : CandidateFinding) : CandidateFinding :=
  match candidates.filter (keyOf appMap · = keyOf appMap cand) with
  | [] => cand
  | head :: tail => pickRepresentative head tail

/-- The group of a candidate has the representative of its key. -/
theorem representative_of_mem {candidates : List CandidateFinding} {appMap : AppMap}
    {group : RootCauseGroup} (h : group ∈ groupCandidates candidates appMap)
    {cand : CandidateFinding} (hkey : group.key = keyOf appMap cand) :
    group.representative = representativeOf candidates appMap cand := by
  obtain ⟨bucket, hbucket, rfl⟩ := List.mem_map.mp h
  have hitems : bucket.head :: bucket.tail = candidates.filter (keyOf appMap · = bucket.key) :=
    KeyGroup.items_of_mem_group hbucket
  have hkey' : bucket.key = keyOf appMap cand := hkey
  rw [representativeOf, ← hkey', ← hitems]
  rfl

/-- A candidate that is corroborated, and is no known false positive, is in some probable finding. -/
def HidesNoCandidate (input : CorrelateInput) : Prop :=
  ∀ out, correlate input = .ok out → ∀ c ∈ input.candidates,
    (groundCandidate c input.appMap).demote = false → (∀ n, input.knownFalsePositive n c = false) →
      ∃ f ∈ out.probable, c.id ∈ f.mergedCandidateIds

/-- What becomes of a candidate is decided by the representative of its group: it is in some probable
finding when the representative is corroborated and no known false positive, and it is demoted when
the representative is not corroborated or is a known false positive. -/
theorem promoted_or_demoted_by_representative (input : CorrelateInput) (h : input.WellFormed) :
    ∃ out, correlate input = .ok out ∧ ∀ c ∈ input.candidates,
      let rep := representativeOf input.candidates input.appMap c
      let demoted := (cachedGrounding input.candidates input.appMap rep).demote
      (demoted = false → (∀ n, input.knownFalsePositive n rep = false) →
        ∃ f ∈ out.probable, c.id ∈ f.mergedCandidateIds) ∧
      (demoted = true ∨ (∀ n, input.knownFalsePositive n rep = true) → c ∈ out.demoted) := by
  refine ⟨_, CorrelateInput.correlate_eq_ok h, fun c hc => ?_⟩
  obtain ⟨group, hgroup, hmem, hkey⟩ := exists_mem_groupCandidates input.appMap hc
  have hrep := representative_of_mem hgroup hkey
  obtain ⟨-, -, -, hgrounding⟩ := of_mem_groupCandidates hgroup
  rw [hrep] at hgrounding
  refine ⟨fun hcorroborated hunknown => ?_, fun hdemoted => ?_⟩
  · have hpromoted : ∀ n, input.demotes n group = false := by
      intro n
      rw [CorrelateInput.demotes, hgrounding, hcorroborated, hrep, hunknown]
      rfl
    obtain ⟨f, hf, n, i, rfl⟩ := CorrelateInput.exists_probable_of_group hgroup hpromoted
    exact ⟨_, hf, List.mem_map_of_mem hmem⟩
  · obtain ⟨n, hn⟩ := List.mem_iff_getElem?.mp hgroup
    have hposition : (group, n) ∈ input.groups := CorrelateInput.mem_groups_iff.mpr hn
    have hdemotes : input.demotes n group = true := by
      rw [CorrelateInput.demotes, hgrounding, hrep]
      rcases hdemoted with hdemoted | hknown
      · rw [hdemoted, Bool.true_or]
      · rw [hknown, Bool.or_true]
    exact List.mem_flatMap.mpr ⟨(group, n), List.mem_filter.mpr ⟨hposition, hdemotes⟩, hmem⟩

theorem promoted_or_demoted_of_sanitizedDuplicate :
    ∃ out, correlate (queryInput sanitizedDuplicate) = .ok out ∧ ∀ c ∈ sanitizedDuplicate,
      let rep := representativeOf sanitizedDuplicate queryAppMap c
      let demoted := (cachedGrounding sanitizedDuplicate queryAppMap rep).demote
      (demoted = false → (∀ n, (queryInput sanitizedDuplicate).knownFalsePositive n rep = false) →
        ∃ f ∈ out.probable, c.id ∈ f.mergedCandidateIds) ∧
      (demoted = true ∨ (∀ n, (queryInput sanitizedDuplicate).knownFalsePositive n rep = true) →
        c ∈ out.demoted) :=
  promoted_or_demoted_by_representative (queryInput sanitizedDuplicate)
    (queryInput_wellFormed (by decide +kernel))

/-- The report without a sanitizer is demoted together with the one that shows a sanitizer. -/
theorem not_hidesNoCandidate_of_sanitizedDuplicate :
    (queryInput sanitizedDuplicate).WellFormed ∧ (queryInput sanitizedDuplicate).gateway = none ∧
      ¬HidesNoCandidate (queryInput sanitizedDuplicate) := by
  have hwellFormed : (queryInput sanitizedDuplicate).WellFormed :=
    queryInput_wellFormed (by decide +kernel)
  refine ⟨hwellFormed, rfl, fun hclaim => ?_⟩
  have hverdict : (groundCandidate (queryCandidate "raw" 9 .medium "db.query(q)") queryAppMap).demote =
      false := by decide +kernel
  have hempty : (queryInput sanitizedDuplicate).pending.isEmpty = true := by decide +kernel
  obtain ⟨f, hf, -⟩ := hclaim _ (CorrelateInput.correlate_eq_ok hwellFormed) _ List.mem_cons_self
    hverdict fun _ => rfl
  obtain ⟨p, hp, -⟩ := CorrelateInput.mem_probable hf
  rw [List.isEmpty_iff.mp hempty] at hp
  exact absurd hp List.not_mem_nil

end MontrSecure
