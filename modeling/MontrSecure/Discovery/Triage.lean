import MontrSecure.Correlation.Scoring
import MontrSecure.Discovery.Run

/-!
# Triage

`packages/discovery/src/triage.ts`: a model is asked for its opinion of the candidates. Its reply is text that
nobody vouches for. It is read as far as it makes sense, and what is read in it only annotates candidates.
-/

namespace MontrSecure

section Triage

/-! ## Replies -/

/-- `coerceVerdict`. -/
def coerceVerdict (v : Json) : Option TriageVerdict :=
  let keep :=
    match v.property "keep" with
    | some (.bool keep) => some keep
    | _ => none
  let reason :=
    match v.property "reason" with
    | some (.str reason) => some reason
    | _ => none
  if keep = none ∧ reason = none then none else some { keep, reason }

example : coerceVerdict .null = none := by decide +kernel

/-- What `parseTriage` returns; of two verdicts with one index the later one counts. -/
structure ParsedTriage where
  byIndex : List (ℚ × TriageVerdict) := []
  shared : Option TriageVerdict := none

/-- The array of a reply, which is the reply itself or its `items`. -/
def triageItems (parsed : Json) : Option (List Json) :=
  match parsed, parsed.property "items" with
  | .arr items, _ => some items
  | _, some (.arr items) => some items
  | _, _ => none

/-- An item of the array, where it has a verdict and an index. -/
def triageItem (raw : Json) : Option (ℚ × TriageVerdict) :=
  match coerceVerdict raw, raw.property "i" with
  | some verdict, some (.num i) => some (i, verdict)
  | _, _ => none

variable (parseJson : String → Option Json) (stringify : Json → String)

/-- `parseTriage`. -/
def parseTriage (content : String) : ParsedTriage :=
  match parseJson content with
  | none => {}
  | some parsed =>
    match triageItems parsed with
    | some items => { byIndex := items.filterMap triageItem }
    | none => { shared := coerceVerdict parsed }

/-- The verdicts, by candidate. -/
def ParsedTriage.reply (parsed : ParsedTriage) : TriageReply where
  byIndex i := (parsed.byIndex.reverse.find? fun item => item.1 = (i : ℚ)).map (·.2)
  shared := parsed.shared

/-! ## Asking -/

/-- `TRIAGE_SYSTEM`. -/
def triageSystem : String :=
  "You are a security triage assistant. You DO NOT find new issues; deterministic scanners already produced the " ++
    "candidates. For each candidate, judge whether it looks like a true positive and give a one-line reason. " ++
    "Reply ONLY as JSON: \x7b\"items\":[\x7b\"i\":<index>,\"keep\":<boolean>,\"reason\":\"<short>\"\x7d]\x7d."

/-- `LLMRequest` of the triage. -/
structure TriageRequest where
  system : String
  content : String
  maxTokens : ℕ
  scanId : ScanId
  clientId : ClientId

/-- An `LLMGateway`, by what it answers: `resolvePrompt` may be missing and may resolve to nothing. -/
structure TriageGateway where
  resolvePrompt : Option (String → String → ClientId → Except Err (Option String))
  complete : TriageRequest → Except Err String

/-- `TriageOptions`. -/
structure TriageOptions where
  gateway : TriageGateway
  scanId : ScanId
  clientId : ClientId
  maxTokens : Option ℕ := none

/-- What the model is told of a candidate. -/
def candidateItem (i : ℕ) (c : CandidateFinding) : Json :=
  .obj
    [("i", .num i), ("ruleId", .str c.ruleId), ("category", .str c.category.name),
      ("severity", .str c.rawSeverity.token), ("file", .str c.location.file), ("line", .num c.location.line),
      ("snippet", .str c.evidenceSnippet)]

namespace TriageOptions

variable (opts : TriageOptions)

/-- The prompt of the triage. A prompt that cannot be resolved is thrown. -/
def resolveSystem : Except Err String :=
  match opts.gateway.resolvePrompt with
  | none => .ok triageSystem
  | some resolvePrompt =>
    (resolvePrompt "triage.system" triageSystem opts.clientId).map fun system => system.getD triageSystem

/-- The request with the candidates. -/
def request (system : String) (candidates : List CandidateFinding) : TriageRequest :=
  { system, content := stringify (.obj [("candidates", .arr (candidates.mapIdx candidateItem))])
    maxTokens := opts.maxTokens.getD 1024, scanId := opts.scanId, clientId := opts.clientId }

/-- `triageCandidates`, with the gateway asked: when the model has no answer, the candidates stay as they are. -/
def triageCandidates (candidates : List CandidateFinding) : Except Err (List CandidateFinding) := do
  if candidates.isEmpty then return candidates
  let system ← opts.resolveSystem
  match opts.gateway.complete (opts.request stringify system candidates) with
  | .error _ => return candidates
  | .ok content =>
    let parsed := parseTriage parseJson content
    if parsed.byIndex.isEmpty ∧ parsed.shared.isNone then return candidates
    return MontrSecure.triageCandidates (some parsed.reply) candidates

/-- The end of `runDiscoveryDetailed`: triage, and then the hints of the threat model. -/
def advise (appMap : AppMap) (candidates : List CandidateFinding) : Except Err (List CandidateFinding) :=
  (opts.triageCandidates parseJson stringify candidates).map (applyThreatModelScopeHints appMap)

end TriageOptions

end Triage

/-! ## Annotations -/

/-- A key that Layer 1 annotates candidates with. -/
def AnnotationKey (key : String) : Prop := key = "triage" ∨ key = "threatModelPriority"

instance (key : String) : Decidable (AnnotationKey key) := inferInstanceAs (Decidable (_ ∨ _))

/-- The candidate without its annotations; metadata that is absent counts as empty. -/
def CandidateFinding.erased (c : CandidateFinding) : CandidateFinding :=
  { c with metadata := some ((c.metadata.getD []).filter fun f => ¬AnnotationKey f.1) }

/-- The candidate has no annotations. -/
def CandidateFinding.Raw (c : CandidateFinding) : Prop := ∀ f ∈ c.metadata.getD [], ¬AnnotationKey f.1

/-- The hints of the threat model name the category or the file of the candidate. -/
def prioritized (appMap : AppMap) (c : CandidateFinding) : Bool :=
  match appMap.threatModel with
  | none => false
  | some threatModel =>
    decide (c.category ∈ threatModel.scopeHints.priorityCategories.map (·.category)) ||
      decide (c.location.file ∈ priorityFiles appMap threatModel.scopeHints.priorityRoutePaths)

variable {appMap : AppMap} {c : CandidateFinding} {cs : List CandidateFinding}

theorem erased_withMetadata {key : String} (hkey : AnnotationKey key) (c : CandidateFinding) (value : Json) :
    (withMetadata c key value).erased = c.erased := by
  have hfields : ∀ fields : List (String × Json),
      (fields.map fun f => if f.1 = key then (key, value) else f).filter (fun f => ¬AnnotationKey f.1) =
        fields.filter fun f => ¬AnnotationKey f.1 := by
    intro fields
    induction fields with
    | nil => rfl
    | cons f fields ih =>
      by_cases hf : f.1 = key
      · simp_all
      · simp_all [List.filter_cons]
  rw [withMetadata, CandidateFinding.erased, CandidateFinding.erased]
  split
  · simp only [Option.getD_some, hfields]
  · simp [hkey]

@[simp]
theorem prioritized_erased (appMap : AppMap) (c : CandidateFinding) :
    prioritized appMap c.erased = prioritized appMap c := rfl

/-- Triage annotates candidates, each in its place. -/
theorem map_erased_triageCandidates (reply : TriageReply) (cs : List CandidateFinding) :
    (MontrSecure.triageCandidates (some reply) cs).map (·.erased) = cs.map (·.erased) := by
  refine List.ext_getElem? fun i => ?_
  simp only [triageCandidates, List.getElem?_map, List.getElem?_mapIdx, Option.map_map]
  congr 1
  funext c
  dsimp only [Function.comp_apply]
  split
  · rfl
  · exact erased_withMetadata (.inl rfl) _ _

/-- The candidate has not been given priority. -/
def CandidateFinding.Unprioritized (c : CandidateFinding) : Prop :=
  ∀ f ∈ c.metadata.getD [], f.1 ≠ "threatModelPriority"

theorem CandidateFinding.Raw.unprioritized (h : c.Raw) : c.Unprioritized :=
  fun f hf hkey => h f hf (.inr hkey)

theorem CandidateFinding.Unprioritized.withTriage (h : c.Unprioritized) (value : Json) :
    (withMetadata c "triage" value).Unprioritized := by
  intro f hf
  rw [withMetadata] at hf
  dsimp only [Option.getD_some] at hf
  split at hf
  · obtain ⟨g, hg, rfl⟩ := List.mem_map.mp hf
    split
    · show "triage" ≠ "threatModelPriority"
      decide
    · exact h g hg
  · rcases List.mem_append.mp hf with hold | hnew
    · exact h f hold
    · rw [List.mem_singleton.mp hnew]
      show "triage" ≠ "threatModelPriority"
      decide

theorem unprioritized_triageCandidates {reply : TriageReply} (h : ∀ c ∈ cs, c.Unprioritized) :
    ∀ c ∈ MontrSecure.triageCandidates (some reply) cs, c.Unprioritized := by
  intro c hc
  obtain ⟨i, hi, rfl⟩ := List.mem_iff_getElem.mp hc
  simp only [triageCandidates, List.getElem_mapIdx]
  rw [triageCandidates, List.length_mapIdx] at hi
  split
  · exact h _ (List.getElem_mem hi)
  · exact (h _ (List.getElem_mem hi)).withTriage _

theorem CandidateFinding.Unprioritized.lookup (h : c.Unprioritized) :
    (c.metadata.getD []).lookup "threatModelPriority" = none := by
  rw [List.lookup_eq_none_iff]
  intro f hf
  exact bne_iff_ne.mpr (h f hf).symm

theorem hasThreatModelPriority_of_unprioritized (h : c.Unprioritized) : hasThreatModelPriority c = false := by
  rw [hasThreatModelPriority, h.lookup]

theorem hasThreatModelPriority_withMetadata (h : c.Unprioritized) (fields : List (String × Json)) :
    hasThreatModelPriority (withMetadata c "threatModelPriority" (.obj fields)) = true := by
  have hany : (c.metadata.getD []).any (fun f => decide (f.1 = "threatModelPriority")) = false := by
    rw [List.any_eq_false]
    exact fun f hf => by simpa using h f hf
  simp [hasThreatModelPriority, withMetadata, hany, List.lookup_append, h.lookup]

/-- What the hints do to one candidate. -/
theorem exists_annotate {threatModel : ThreatModel} (hmodel : appMap.threatModel = some threatModel)
    (hhints : ¬(threatModel.scopeHints.priorityCategories.map (·.category) = [] ∧
      priorityFiles appMap threatModel.scopeHints.priorityRoutePaths = [])) (cs : List CandidateFinding) :
    ∃ annotate : CandidateFinding → CandidateFinding,
      applyThreatModelScopeHints appMap cs =
          (cs.map annotate).filter hasThreatModelPriority ++
            (cs.map annotate).filter (fun c => !hasThreatModelPriority c) ∧
        ∀ c, (annotate c).erased = c.erased ∧
          (c.Unprioritized → hasThreatModelPriority (annotate c) = prioritized appMap c) := by
  rw [applyThreatModelScopeHints, hmodel]
  dsimp only
  rw [if_neg hhints]
  refine ⟨_, rfl, fun c => ?_⟩
  rw [prioritized, hmodel]
  dsimp only
  split
  · rename_i hmatch
    refine ⟨erased_withMetadata (.inr rfl) _ _, fun h => ?_⟩
    rw [hasThreatModelPriority_withMetadata h]
    simpa using hmatch
  · rename_i hmatch
    refine ⟨rfl, fun h => ?_⟩
    rw [hasThreatModelPriority_of_unprioritized h]
    simpa using hmatch

/-- The candidates that the hints name come first, and both groups keep their order. -/
theorem map_erased_applyThreatModelScopeHints (h : ∀ c ∈ cs, c.Unprioritized) :
    (applyThreatModelScopeHints appMap cs).map (·.erased) =
      (cs.filter (prioritized appMap) ++ cs.filter fun c => !prioritized appMap c).map (·.erased) := by
  -- Without hints, no candidate is named.
  have hnone (hpriority : ∀ c, prioritized appMap c = false) :
      cs.filter (prioritized appMap) ++ cs.filter (fun c => !prioritized appMap c) = cs := by
    simp [hpriority]
  rcases hmodel : appMap.threatModel with _ | threatModel
  · rw [hnone fun c => by rw [prioritized, hmodel], applyThreatModelScopeHints, hmodel]
  by_cases hhints : threatModel.scopeHints.priorityCategories.map (·.category) = [] ∧
      priorityFiles appMap threatModel.scopeHints.priorityRoutePaths = []
  · rw [hnone fun c => by simp [prioritized, hmodel, hhints.1, hhints.2], applyThreatModelScopeHints, hmodel]
    dsimp only
    rw [if_pos hhints]
  · obtain ⟨annotate, happly, hannotate⟩ := exists_annotate hmodel hhints cs
    have hfilter : cs.filter (hasThreatModelPriority ∘ annotate) = cs.filter (prioritized appMap) :=
      List.filter_congr fun c hc => (hannotate c).2 (h c hc)
    have hfilter' : cs.filter ((fun c => !hasThreatModelPriority c) ∘ annotate) =
        cs.filter fun c => !prioritized appMap c :=
      List.filter_congr fun c hc => by rw [Function.comp_apply, (hannotate c).2 (h c hc)]
    have herased : (fun c : CandidateFinding => c.erased) ∘ annotate = fun c => c.erased :=
      funext fun c => (hannotate c).1
    rw [happly, List.filter_map, List.filter_map, hfilter, hfilter', ← List.map_append, List.map_map, herased]

/-- What does not look at annotations finds the same candidates after annotation. -/
theorem map_erased_filter_eq {as bs : List CandidateFinding} (h : as.map (·.erased) = bs.map (·.erased))
    (p : CandidateFinding → Bool) (hp : ∀ c, p c.erased = p c) :
    (as.filter p).map (·.erased) = (bs.filter p).map (·.erased) := by
  have hfilter (l : List CandidateFinding) :
      (l.filter p).map (·.erased) = (l.map (·.erased)).filter p := by
    rw [List.filter_map]
    congr 1
    exact List.filter_congr fun c _ => (hp c).symm
  rw [hfilter, hfilter, h]

/-! ## The advice -/

section Advice

variable {parseJson : String → Option Json} {stringify : Json → String} {opts opts' : TriageOptions}
  {out : List CandidateFinding}

/-- The prompt of the triage is resolved. -/
def TriageOptions.Resolves (opts : TriageOptions) : Prop := ∃ system, opts.resolveSystem = .ok system

variable (cs) in
/-- With its prompt resolved, triage annotates some candidates or leaves all as they are, whatever the model
replies. -/
theorem TriageOptions.triageCandidates_of_resolves (h : opts.Resolves) :
    opts.triageCandidates parseJson stringify cs = .ok cs ∨
      ∃ reply, opts.triageCandidates parseJson stringify cs =
        .ok (MontrSecure.triageCandidates (some reply) cs) := by
  obtain ⟨system, hsystem⟩ := h
  rw [triageCandidates]
  by_cases hempty : cs.isEmpty = true
  · rw [if_pos hempty]
    exact .inl rfl
  rw [if_neg hempty, hsystem]
  rcases hreply : opts.gateway.complete (opts.request stringify system cs) with e | content
  · left
    simp only [bind, Except.bind, hreply]
    rfl
  · simp only [bind, Except.bind, hreply]
    split
    · exact .inl rfl
    · exact .inr ⟨_, rfl⟩

/-- Triage throws iff it has something to ask and its prompt cannot be resolved. -/
theorem TriageOptions.exists_triageCandidates :
    (∃ out, opts.triageCandidates parseJson stringify cs = .ok out) ↔ cs = [] ∨ opts.Resolves := by
  constructor
  · rintro ⟨out, h⟩
    by_cases hempty : cs = []
    · exact .inl hempty
    · rw [triageCandidates, if_neg (by simpa using hempty)] at h
      rcases hsystem : opts.resolveSystem with e | system
      · rw [hsystem] at h
        cases h
      · exact .inr ⟨system, hsystem⟩
  · rintro (rfl | h)
    · exact ⟨[], rfl⟩
    · rcases TriageOptions.triageCandidates_of_resolves cs h with h | ⟨reply, h⟩
      · exact ⟨_, h⟩
      · exact ⟨_, h⟩

/-- What triage returns has the candidates in their order, and none with priority. -/
theorem TriageOptions.map_erased_of_triageCandidates
    (h : opts.triageCandidates parseJson stringify cs = .ok out) (hraw : ∀ c ∈ cs, c.Raw) :
    out.map (·.erased) = cs.map (·.erased) ∧ ∀ c ∈ out, c.Unprioritized := by
  have hsame : ∀ c ∈ cs, c.Unprioritized := fun c hc => (hraw c hc).unprioritized
  rcases TriageOptions.exists_triageCandidates.mp ⟨out, h⟩ with rfl | hresolves
  · obtain rfl : [] = out := Except.ok.inj h
    exact ⟨rfl, hsame⟩
  rcases TriageOptions.triageCandidates_of_resolves cs hresolves with hout | ⟨reply, hout⟩
  · obtain rfl : cs = out := Except.ok.inj (hout.symm.trans h)
    exact ⟨rfl, hsame⟩
  · obtain rfl : MontrSecure.triageCandidates (some reply) cs = out := Except.ok.inj (hout.symm.trans h)
    exact ⟨map_erased_triageCandidates reply cs, unprioritized_triageCandidates hsame⟩

variable (appMap cs) in
/-- The candidates as the hints of the threat model order them: those that they name, then the others. -/
def byHints : List CandidateFinding :=
  cs.filter (prioritized appMap) ++ cs.filter fun c => !prioritized appMap c

theorem TriageOptions.map_erased_of_advise (h : opts.advise parseJson stringify appMap cs = .ok out)
    (hraw : ∀ c ∈ cs, c.Raw) : out.map (·.erased) = (byHints appMap cs).map (·.erased) := by
  rw [advise] at h
  rcases htriage : opts.triageCandidates parseJson stringify cs with e | triaged
  · rw [htriage] at h
    cases h
  rw [htriage] at h
  obtain rfl : applyThreatModelScopeHints appMap triaged = out := Except.ok.inj h
  obtain ⟨herased, hpriority⟩ := TriageOptions.map_erased_of_triageCandidates htriage hraw
  rw [map_erased_applyThreatModelScopeHints hpriority, byHints, List.map_append, List.map_append,
    map_erased_filter_eq herased _ (prioritized_erased appMap),
    map_erased_filter_eq herased _ fun c => by rw [prioritized_erased]]

/-- **Advice only annotates.** Candidates without annotations come out of triage and the hints of the threat model
as the same candidates, apart from annotations: those that the hints name come first and both groups keep their
order. This is so iff there is nothing to triage or the gateway resolves the prompt; nothing that the model replies
matters. -/
theorem advise_only_annotates (hraw : ∀ c ∈ cs, c.Raw) :
    (∀ opts : TriageOptions,
      (∃ out, opts.advise parseJson stringify appMap cs = .ok out ∧
        (out.map (·.erased)).Perm (cs.map (·.erased)) ∧
          out.map (·.erased) = (byHints appMap cs).map (·.erased)) ↔ cs = [] ∨ opts.Resolves) ∧
      ∀ (opts opts' : TriageOptions) (out out' : List CandidateFinding),
        opts.advise parseJson stringify appMap cs = .ok out →
          opts'.advise parseJson stringify appMap cs = .ok out' → out.map (·.erased) = out'.map (·.erased) := by
  refine ⟨fun opts => ?_, fun opts opts' out out' h h' => ?_⟩
  · constructor
    · rintro ⟨out, h, -⟩
      apply TriageOptions.exists_triageCandidates.mp
      rw [TriageOptions.advise] at h
      rcases htriage : opts.triageCandidates parseJson stringify cs with e | triaged
      · rw [htriage] at h
        cases h
      · exact ⟨triaged, rfl⟩
    · intro hgood
      obtain ⟨triaged, htriage⟩ := TriageOptions.exists_triageCandidates.mpr hgood
      have h : opts.advise parseJson stringify appMap cs = .ok (applyThreatModelScopeHints appMap triaged) := by
        rw [TriageOptions.advise, htriage]
        rfl
      have hout := TriageOptions.map_erased_of_advise h hraw
      refine ⟨_, h, ?_, hout⟩
      rw [hout, byHints]
      exact (List.filter_append_perm _ _).map _
  · rw [TriageOptions.map_erased_of_advise h hraw, TriageOptions.map_erased_of_advise h' hraw]

end Advice

/-! ## Two gateways -/

/-- A candidate of a rule about headers. -/
def corsCandidate : CandidateFinding :=
  { id := "cand_1", scanId := "s", clientId := "c", source := .semgrep, ruleId := "cors"
    category := .permissiveCors, location := { file := "web/headers.ts", line := 1 }, rawSeverity := .low
    createdAt := 0 }

/-- A map whose threat model points at that category. -/
def corsMap : AppMap where
  id := "map_1"
  clientId := "c"
  repo := "r"
  branch := "main"
  commitSha := "0"
  threatModel := some { scopeHints := { priorityCategories := [{ category := .permissiveCors, rationale := "" }] } }
  createdAt := 0

/-- A gateway without a registry of prompts. -/
def bareGateway : TriageOptions where
  gateway := { resolvePrompt := none, complete _ := .ok "" }
  scanId := "s"
  clientId := "c"

/-- A gateway whose registry cannot be reached. -/
def offlineRegistry : TriageOptions where
  gateway := { resolvePrompt := some fun _ _ _ => .error (.other "registry unreachable"), complete _ := .ok "" }
  scanId := "s"
  clientId := "c"

/-- A reply about the candidate, twice, about half a candidate, and about none. -/
def repeatedReply : Json :=
  .arr
    [.obj [("i", .num 0), ("keep", .bool true)], .null, .obj [("i", .num (1 / 2)), ("keep", .bool false)],
      .obj [("i", .num 0), ("keep", .bool false)]]

theorem raw_corsCandidate : ∀ c ∈ [corsCandidate], c.Raw := by
  intro c hc f hf
  obtain rfl := List.mem_singleton.mp hc
  cases hf

theorem advise_only_annotates_cors :
    ∃ out, bareGateway.advise (fun _ => some repeatedReply) (fun _ => "") corsMap [corsCandidate] = .ok out ∧
      (out.map (·.erased)).Perm ([corsCandidate].map (·.erased)) ∧
        out.map (·.erased) = (byHints corsMap [corsCandidate]).map (·.erased) :=
  ((advise_only_annotates raw_corsCandidate).1 bareGateway).mpr (.inr ⟨_, rfl⟩)

/-- Without its registry of prompts, a gateway makes the layer throw. -/
theorem advise_offlineRegistry : (∀ c ∈ [corsCandidate], c.Raw) ∧
    ¬∃ out, offlineRegistry.advise (fun _ => none) (fun _ => "") corsMap [corsCandidate] = .ok out := by
  refine ⟨raw_corsCandidate, ?_⟩
  rintro ⟨out, h⟩
  cases h

end MontrSecure
