import MontrSecure.Correlation.AttackPaths
import Mathlib.Tactic.Linarith
import Mathlib.Tactic.NormNum

/-!
# The top chains

Which chains of findings `buildAttackPathCandidates` returns: the best of the first `maxRawPaths` maximal
chains that its search comes to, whatever the chains after those score.
-/

namespace MontrSecure

/-! ## The ranking -/

instance : Std.Total AttackPathCandidate.ranksBefore where
  total a b := by
    unfold AttackPathCandidate.ranksBefore
    obtain h | h | h := lt_trichotomy a.attackPath.feasibilityScore b.attackPath.feasibilityScore
    · exact .inr (.inl h)
    · obtain hs | hs := le_total (severityWeight a.attackPath.severity) (severityWeight b.attackPath.severity)
      · exact .inr (.inr ⟨h.symm, hs⟩)
      · exact .inl (.inr ⟨h, hs⟩)
    · exact .inl (.inl h)

instance : IsTrans AttackPathCandidate AttackPathCandidate.ranksBefore where
  trans a b c := by
    unfold AttackPathCandidate.ranksBefore
    rintro (hab | ⟨hab, hs⟩) (hbc | ⟨hbc, ht⟩)
    · exact .inl (hbc.trans hab)
    · exact .inl (hbc ▸ hab)
    · exact .inl (hab ▸ hbc)
    · exact .inr ⟨hab.trans hbc, ht.trans hs⟩

/-- What ranks before another scores no less. -/
theorem AttackPathCandidate.ranksBefore.not_lt {a b : AttackPathCandidate} (h : a.ranksBefore b) :
    ¬a.attackPath.feasibilityScore < b.attackPath.feasibilityScore := by
  obtain h | ⟨h, -⟩ := h
  · exact h.le.not_gt
  · exact h.not_lt

/-- In a sorted list, what is taken ranks before what is not. -/
theorem ranksBefore_of_take {l : List AttackPathCandidate} {n : ℕ} {a b : AttackPathCandidate}
    (ha : a ∈ (l.insertionSort AttackPathCandidate.ranksBefore).take n) (hb : b ∈ l)
    (hout : b ∉ (l.insertionSort AttackPathCandidate.ranksBefore).take n) : a.ranksBefore b := by
  have hsorted := List.pairwise_insertionSort AttackPathCandidate.ranksBefore l
  have hmem : b ∈ l.insertionSort AttackPathCandidate.ranksBefore :=
    (List.mem_insertionSort _).mpr hb
  rw [← List.take_append_drop n (l.insertionSort AttackPathCandidate.ranksBefore)] at hsorted hmem
  have hdrop := (List.mem_append.mp hmem).resolve_left hout
  exact (List.pairwise_append.mp hsorted).2.2 a ha b hdrop

namespace BuildAttackPathsInput

variable (input : BuildAttackPathsInput)

/-! ## The search -/

/-- The maximal simple chains of the condition graph. -/
def MaximalChain (chain : ChainGraph.Chain ChainCondition) : Prop :=
  ChainGraph.Maximal input.edges input.findings.length input.chainLimit chain

/-- All maximal chains, in the order in which the search comes to them. -/
def searchOrder : List (ChainGraph.Chain ChainCondition) :=
  ChainGraph.allChains input.edges input.findings.length input.chainLimit

/-- No candidate that is returned is of the findings of a chain. -/
def LeavesOut (chain : ChainGraph.Chain ChainCondition) : Prop :=
  ∀ b ∈ buildAttackPathCandidates input, b.findings ≠ (input.candidate chain).findings

variable {input} {chain : ChainGraph.Chain ChainCondition}

/-- An edge leads to another finding, under a condition that holds between the two. -/
theorem mem_edges {i : ℕ} {e : ChainGraph.Edge ChainCondition} (h : e ∈ input.edges i) :
    ∃ f₁ f₂, input.findings[i]? = some f₁ ∧ input.findings[e.target]? = some f₂ ∧
      evaluateChainCondition input.appMap f₁ f₂ (resolveRoutes input.appMap input.findings f₁.id)
        (resolveRoutes input.appMap input.findings f₂.id) = some e.label := by
  obtain ⟨j, -, hj⟩ := List.mem_filterMap.mp h
  unfold edge at hj
  by_cases hij : i = j
  · rw [if_pos hij] at hj
    cases hj
  · rw [if_neg hij] at hj
    simp only [Option.bind_eq_some_iff, Option.map_eq_some_iff] at hj
    obtain ⟨f₁, hf₁, f₂, hf₂, condition, hcondition, rfl⟩ := hj
    exact ⟨f₁, f₂, hf₁, hf₂, hcondition⟩

theorem target_lt (i : ℕ) : ∀ e ∈ input.edges i, e.target < input.findings.length := by
  intro e he
  obtain ⟨-, f₂, -, hf₂, -⟩ := mem_edges he
  exact (List.getElem?_eq_some_iff.mp hf₂).1

/-- The search comes to the maximal chains and to no other. -/
theorem mem_searchOrder : chain ∈ input.searchOrder ↔ input.MaximalChain chain :=
  ChainGraph.mem_allChains target_lt

/-- What the search lists: the first `maxRawPaths` of them. -/
theorem enumerateMaximalPaths_eq : input.enumerateMaximalPaths = input.searchOrder.take maxRawPaths := by
  have hround : ∀ start ∈ List.range input.findings.length, ∀ out : List (ChainGraph.Chain ChainCondition),
      out.length ≤ maxRawPaths →
        ChainGraph.search input.edges input.chainLimit maxRawPaths input.findings.length
            (ChainGraph.Chain.start start) out =
          (out ++ ChainGraph.chains input.edges input.chainLimit input.findings.length
            (ChainGraph.Chain.start start)).take maxRawPaths := fun start _ out hout => ChainGraph.search_eq hout
  unfold enumerateMaximalPaths
  rw [ChainGraph.foldl_eq_take hround (Nat.zero_le _), List.nil_append]
  rfl

/-- What is returned: the candidates of those, ranked and cut. -/
theorem buildAttackPathCandidates_eq (htwo : 2 ≤ input.findings.length) :
    buildAttackPathCandidates input =
      sliceTo (input.maxPaths.getD defaultMaxPaths)
        (((input.searchOrder.take maxRawPaths).map input.candidate).insertionSort
          AttackPathCandidate.ranksBefore) := by
  rw [buildAttackPathCandidates, if_neg (by omega), enumerateMaximalPaths_eq]

/-- Everything returned is the candidate of one of those chains. -/
theorem exists_of_mem {a : AttackPathCandidate} (h : a ∈ buildAttackPathCandidates input) :
    ∃ chain ∈ input.searchOrder.take maxRawPaths, a = input.candidate chain := by
  by_cases htwo : input.findings.length < 2
  · rw [buildAttackPathCandidates, if_pos htwo] at h
    cases h
  · rw [buildAttackPathCandidates_eq (by omega)] at h
    have hsorted := (List.mem_insertionSort _).mp (List.mem_of_mem_take h)
    obtain ⟨chain, hchain, rfl⟩ := List.mem_map.mp hsorted
    exact ⟨chain, hchain, rfl⟩

/-- A chain that the search listed and that is left out scores no more than anything returned. -/
theorem not_lt_of_leavesOut (hchain : chain ∈ input.searchOrder.take maxRawPaths)
    (hout : input.LeavesOut chain) {a : AttackPathCandidate} (ha : a ∈ buildAttackPathCandidates input) :
    ¬a.attackPath.feasibilityScore < (input.candidate chain).attackPath.feasibilityScore := by
  have htwo : 2 ≤ input.findings.length := by
    by_contra hfew
    rw [buildAttackPathCandidates, if_pos (by omega)] at ha
    cases ha
  have hnot : input.candidate chain ∉ buildAttackPathCandidates input := fun hmem =>
    hout _ hmem rfl
  rw [buildAttackPathCandidates_eq htwo] at ha hnot
  exact (ranksBefore_of_take ha (List.mem_map_of_mem hchain) hnot).not_lt

end BuildAttackPathsInput

/-- Among the first `maxRawPaths` maximal chains that the search comes to, none that is left out scores more
than one that is returned. The search comes to all maximal chains, so that when there are no more than that,
these are all. -/
theorem topChains (input : BuildAttackPathsInput) :
    (∀ chain, chain ∈ input.searchOrder ↔ input.MaximalChain chain) ∧
      ∀ chain ∈ input.searchOrder.take maxRawPaths, input.LeavesOut chain →
        ∀ a ∈ buildAttackPathCandidates input,
          ¬a.attackPath.feasibilityScore < (input.candidate chain).attackPath.feasibilityScore :=
  ⟨fun _ => input.mem_searchOrder, fun _ hchain hout _ ha =>
    BuildAttackPathsInput.not_lt_of_leavesOut hchain hout ha⟩

/-! ## Dense graphs -/

/-- A condition has a strength between zero and one. -/
theorem strength_mem {appMap : AppMap} {f₁ f₂ : ConfirmedFinding} {route₁ route₂ : Option Route}
    {condition : ChainCondition}
    (h : evaluateChainCondition appMap f₁ f₂ route₁ route₂ = some condition) :
    0 ≤ condition.strength ∧ condition.strength ≤ 1 := by
  have hmem := (List.mem_insertionSort _).mp (List.mem_of_head? h)
  unfold chainConditions at hmem
  obtain hmem | hmem := List.mem_append.mp hmem
  · obtain hmem | hmem := List.mem_append.mp hmem
    · split at hmem
      · rw [List.mem_singleton.mp hmem]
        norm_num
      · cases hmem
    · split at hmem
      · rw [List.mem_singleton.mp hmem]
        norm_num
      · cases hmem
  · split at hmem
    · rw [List.mem_singleton.mp hmem]
      dsimp only
      split <;> norm_num
    · cases hmem

theorem findingConfidence_mem (f : ConfirmedFinding) : 0 ≤ findingConfidence f ∧ findingConfidence f ≤ 1 := by
  unfold findingConfidence
  split <;> norm_num

/-- A product of numbers between zero and one is between zero and one. -/
theorem prod_mem_unit {l : List ℚ} (h : ∀ q ∈ l, 0 ≤ q ∧ q ≤ 1) : 0 ≤ l.prod ∧ l.prod ≤ 1 := by
  induction l with
  | nil => exact ⟨zero_le_one, le_rfl⟩
  | cons q l ih =>
    obtain ⟨hq₀, hq₁⟩ := h q List.mem_cons_self
    obtain ⟨hl₀, hl₁⟩ := ih fun r hr => h r (List.mem_cons_of_mem q hr)
    rw [List.prod_cons]
    exact ⟨mul_nonneg hq₀ hl₀, mul_le_one₀ hq₁ hl₀ hl₁⟩

theorem round3_mono {p q : ℚ} (h : p ≤ q) : round3 p ≤ round3 q := by
  have hclamp : clamp01 p ≤ clamp01 q := min_le_min_left 1 (max_le_max_left 0 h)
  have hfloor : ⌊clamp01 p * 1000 + 1 / 2⌋ ≤ ⌊clamp01 q * 1000 + 1 / 2⌋ := Int.floor_le_floor (by linarith)
  unfold round3
  exact div_le_div_of_nonneg_right (by exact_mod_cast hfloor) (by norm_num)

/-- A chain is no more feasible than its entry. -/
theorem computeFeasibility_le {f : ConfirmedFinding} {fs : List ConfirmedFinding}
    {conditions : List ChainCondition}
    (h : ∀ condition ∈ conditions, 0 ≤ condition.strength ∧ condition.strength ≤ 1) :
    computeFeasibility (f :: fs) conditions ≤ round3 (findingConfidence f) := by
  have hentry := findingConfidence_mem f
  have hrest : 0 ≤ (fs.map findingConfidence).prod ∧ (fs.map findingConfidence).prod ≤ 1 := by
    refine prod_mem_unit fun q hq => ?_
    obtain ⟨g, -, rfl⟩ := List.mem_map.mp hq
    exact findingConfidence_mem g
  have hlinks : 0 ≤ (conditions.map (·.strength)).prod ∧ (conditions.map (·.strength)).prod ≤ 1 := by
    refine prod_mem_unit fun q hq => ?_
    obtain ⟨condition, hcondition, rfl⟩ := List.mem_map.mp hq
    exact h condition hcondition
  have hproduct := mul_le_one₀ hrest.2 hlinks.1 hlinks.2
  refine round3_mono ?_
  have hpos : 0 ≤ ((f :: fs).map findingConfidence).prod * (conditions.map (·.strength)).prod := by
    rw [List.map_cons, List.prod_cons]
    exact mul_nonneg (mul_nonneg hentry.1 hrest.1) hlinks.1
  have hle : ((f :: fs).map findingConfidence).prod * (conditions.map (·.strength)).prod ≤
      findingConfidence f := by
    rw [List.map_cons, List.prod_cons, mul_assoc]
    exact mul_le_of_le_one_right hentry.1 hproduct
  rw [clamp01_of_mem ⟨hpos, hle.trans hentry.2⟩]
  exact hle

/-- Eleven ways to run a command, of which only the first has not been shown live. -/
private def rceFinding (i : ℕ) : ConfirmedFinding :=
  { id := s!"cf_{i}", scanId := "s", clientId := "c", title := s!"RCE {i}", category := .commandInjection,
    severity := .critical, exposure := .public_, location := { file := s!"f{i}.ts", line := 1 }, impact := "",
    proofType := if i = 0 then .static else .live, proofArtifact := .null, createdAt := 0 }

private def denseInput : BuildAttackPathsInput :=
  { clientId := "c", scanId := "s", now := 0, findings := (List.range 11).map rceFinding,
    appMap := { id := "am", clientId := "c", repo := "r", branch := "main", commitSha := "", createdAt := 0 } }

theorem evaluateChainCondition_rce {appMap : AppMap} {f₁ f₂ : ConfirmedFinding} {route₁ route₂ : Option Route}
    (h : f₁.category = .commandInjection) :
    ∃ condition, evaluateChainCondition appMap f₁ f₂ route₁ route₂ = some condition ∧
      condition.strength = 19 / 20 := by
  have hrce : f₁.category ∈ rceCategories := by
    rw [h]
    decide
  have haccess : f₁.category ∉ accessCategories := by
    rw [h]
    decide
  have hssrf : f₁.category ≠ .ssrf := by
    rw [h]
    decide
  unfold evaluateChainCondition chainConditions
  rw [if_pos hrce, if_neg fun hall => haccess hall.1, if_neg fun hall => hssrf hall.1]
  exact ⟨_, rfl, rfl⟩

theorem getElem?_dense (i : ℕ) : denseInput.findings[i]? = if i < 11 then some (rceFinding i) else none := by
  change ((List.range 11).map rceFinding)[i]? = _
  rw [List.getElem?_map]
  by_cases hi : i < 11
  · rw [List.getElem?_range hi, if_pos hi]
    rfl
  · rw [List.getElem?_eq_none (by rw [List.length_range]; omega), if_neg hi]
    rfl

/-- Each of the eleven leads to every other. -/
theorem edge_dense {i j : ℕ} (hi : i < 11) (hj : j < 11) (h : i ≠ j) :
    ∃ condition, condition.strength = 19 / 20 ∧
      denseInput.edge i j = some { target := j, label := condition } := by
  have hrce : (rceFinding i).category = .commandInjection := rfl
  obtain ⟨condition, heval, hstrength⟩ := evaluateChainCondition_rce hrce
  refine ⟨condition, hstrength, ?_⟩
  rw [BuildAttackPathsInput.edge, if_neg h, getElem?_dense, getElem?_dense, if_pos hi, if_pos hj,
    Option.bind_some, Option.bind_some, heval]
  rfl

theorem targets_dense : ∀ i < denseInput.findings.length, (denseInput.edges i).map (·.target) =
    (List.range denseInput.findings.length).filter fun j => i ≠ j := by
  intro i hi
  rw [BuildAttackPathsInput.edges, List.map_filterMap, ← List.filterMap_eq_filter]
  refine List.filterMap_congr fun j hj => ?_
  have hi : i < 11 := hi
  have hj : j < 11 := List.mem_range.mp hj
  by_cases h : i = j
  · rw [BuildAttackPathsInput.edge, if_pos h, Option.guard, if_neg (by simpa using h)]
    rfl
  · obtain ⟨condition, -, hedge⟩ := edge_dense hi hj h
    rw [hedge, Option.guard, if_pos (by simpa using h)]
    rfl

/-- The chains from the first of them. -/
private def firstChains : List (ChainGraph.Chain ChainCondition) :=
  ChainGraph.chains denseInput.edges denseInput.chainLimit denseInput.findings.length (ChainGraph.Chain.start 0)

theorem length_firstChains : firstChains.length = 5040 := by
  have hlength : denseInput.findings.length = 11 := rfl
  have hstart : ChainGraph.Visits denseInput.findings.length
      (ChainGraph.Chain.start 0 : ChainGraph.Chain ChainCondition) :=
    ChainGraph.visits_start (by omega)
  have hone : (ChainGraph.Chain.start 0 : ChainGraph.Chain ChainCondition).length = 1 := rfl
  have hlimit : (((ChainGraph.Chain.start 0 : ChainGraph.Chain ChainCondition).length + 4 : ℕ) : ℤ) =
      denseInput.chainLimit := rfl
  unfold firstChains
  rw [ChainGraph.length_chains BuildAttackPathsInput.target_lt targets_dense hstart (List.cons_ne_nil 0 []) hlimit
    (by omega) (by omega) (by omega), hone, hlength]
  rfl

/-- The search is full before it is done with the chains from the first finding. -/
theorem take_searchOrder_dense : denseInput.searchOrder.take maxRawPaths ⊆ firstChains := by
  have hsplit : denseInput.searchOrder = firstChains ++ (List.range' 1 10).flatMap fun i =>
      ChainGraph.chains denseInput.edges denseInput.chainLimit denseInput.findings.length
        (ChainGraph.Chain.start i) := rfl
  have hfull : maxRawPaths ≤ firstChains.length := by
    rw [length_firstChains]
    decide
  intro chain hchain
  rw [hsplit, List.take_append_of_le_length hfull] at hchain
  exact List.mem_of_mem_take hchain

/-- What is returned enters by the finding that has not been shown live. -/
theorem score_le_dense {a : AttackPathCandidate} (h : a ∈ buildAttackPathCandidates denseInput) :
    (∃ fs, a.findings = rceFinding 0 :: fs) ∧ a.attackPath.feasibilityScore ≤ 7 / 10 := by
  obtain ⟨chain, hchain, rfl⟩ := BuildAttackPathsInput.exists_of_mem h
  have hlimit : ((ChainGraph.Chain.start 0 : ChainGraph.Chain ChainCondition).length : ℤ) ≤
      denseInput.chainLimit := by decide
  have hstart : ChainGraph.Visits denseInput.findings.length
      (ChainGraph.Chain.start 0 : ChainGraph.Chain ChainCondition) :=
    ChainGraph.visits_start (by decide)
  have hreach := ((ChainGraph.mem_chains BuildAttackPathsInput.target_lt hstart (by decide) hlimit).mp
    (take_searchOrder_dense hchain)).1
  obtain ⟨rest, hnodes⟩ := ChainGraph.prefix_of_steps hreach
  have hfindings : (denseInput.candidate chain).findings =
      rceFinding 0 :: rest.filterMap fun i => denseInput.findings[i]? := by
    change chain.nodes.filterMap _ = _
    rw [← hnodes]
    rfl
  refine ⟨⟨_, hfindings⟩, ?_⟩
  have hstrength : ∀ condition ∈ chain.labels, 0 ≤ condition.strength ∧ condition.strength ≤ 1 := by
    intro condition hcondition
    obtain hnone | ⟨i, e, he, rfl⟩ := ChainGraph.label_of_steps hreach condition hcondition
    · cases hnone
    · obtain ⟨f₁, f₂, -, -, heval⟩ := BuildAttackPathsInput.mem_edges he
      exact strength_mem heval
  have hscore : (denseInput.candidate chain).attackPath.feasibilityScore =
      computeFeasibility (denseInput.candidate chain).findings chain.labels := rfl
  have hround : round3 (7 / 10) = 7 / 10 := by
    rw [round3, clamp01]
    norm_num
  rw [hscore, hfindings, ← hround]
  exact computeFeasibility_le hstrength

theorem exists_mem_dense : ∃ a, a ∈ buildAttackPathCandidates denseInput := by
  refine List.exists_mem_of_length_pos ?_
  have hsearch : firstChains.length ≤ denseInput.searchOrder.length :=
    (List.sublist_append_left firstChains _).length_le
  have hcut : (denseInput.maxPaths.getD defaultMaxPaths).toNat = 50 := rfl
  rw [length_firstChains] at hsearch
  rw [BuildAttackPathsInput.buildAttackPathCandidates_eq (by decide), sliceTo, List.length_take,
    List.length_insertionSort, List.length_map, List.length_take]
  have hraw : maxRawPaths = 5000 := rfl
  rw [if_pos (by decide), hcut, hraw]
  omega

/-- The chain through the findings that have been shown live, in their order. -/
theorem exists_live_chain {k : ℕ} (hk : k < 10) :
    ∃ chain, Relation.ReflTransGen (ChainGraph.Step denseInput.edges) (ChainGraph.Chain.start 1) chain ∧
      chain.nodes = List.range' 1 (k + 1) ∧ chain.labels.map (·.strength) = List.replicate k (19 / 20) := by
  induction k with
  | zero => exact ⟨ChainGraph.Chain.start 1, .refl, rfl, rfl⟩
  | succ k ih =>
    obtain ⟨chain, hreach, hnodes, hlabels⟩ := ih (by omega)
    have hlast : chain.last = 1 + k := by
      rw [ChainGraph.Chain.last, hnodes, List.range'_1_concat, List.getLastD_concat]
    obtain ⟨condition, hstrength, hedge⟩ := @edge_dense (1 + k) (2 + k) (by omega) (by omega) (by omega)
    have hnew : 2 + k ∉ chain.nodes := by
      rw [hnodes, List.mem_range'_1]
      omega
    have hmem : { target := 2 + k, label := condition } ∈ ChainGraph.next denseInput.edges chain := by
      refine List.mem_filter.mpr ⟨?_, decide_eq_true hnew⟩
      rw [hlast]
      exact List.mem_filterMap.mpr ⟨2 + k, List.mem_range.mpr (show 2 + k < 11 by omega), hedge⟩
    refine ⟨chain.extend { target := 2 + k, label := condition }, hreach.tail ⟨_, hmem, rfl⟩, ?_, ?_⟩
    · have htarget : 2 + k = 1 + (k + 1) := by omega
      rw [ChainGraph.Chain.nodes_extend, hnodes, List.range'_1_concat (n := k + 1), ← htarget]
    · rw [ChainGraph.Chain.extend, List.map_append, hlabels, List.replicate_succ']
      simp [hstrength]

/-- On eleven findings that each lead to every other, the search is full before it comes to the chains that
enter by the second, and these score more than all it returns. -/
theorem topChains_cut : ∃ input : BuildAttackPathsInput, (input.findings.map (·.id)).Nodup ∧
    ∃ chain, input.MaximalChain chain ∧ input.LeavesOut chain ∧
      ∃ a ∈ buildAttackPathCandidates input,
        a.attackPath.feasibilityScore < (input.candidate chain).attackPath.feasibilityScore := by
  obtain ⟨chain, hreach, hnodes, hlabels⟩ := @exists_live_chain 4 (by omega)
  have hlength : chain.length = 5 := by
    rw [ChainGraph.Chain.length, hnodes, List.length_range']
  have hfindings : (denseInput.candidate chain).findings = (List.range' 1 5).map rceFinding := by
    change chain.nodes.filterMap _ = _
    rw [hnodes]
    rfl
  have hscore : (denseInput.candidate chain).attackPath.feasibilityScore = 163 / 200 := by
    change computeFeasibility (denseInput.candidate chain).findings chain.labels = _
    rw [hfindings, computeFeasibility, hlabels]
    norm_num [round3, clamp01, findingConfidence, rceFinding, List.range', List.replicate]
  refine ⟨denseInput, by decide, chain, ⟨⟨1, by decide, hreach⟩, by omega, ?_, .inl ?_⟩, ?_, ?_⟩
  · rw [hlength]
    decide
  · rw [hlength]
    decide
  · intro b hb hsame
    obtain ⟨⟨fs, hfs⟩, -⟩ := score_le_dense hb
    rw [hfs, hfindings] at hsame
    have hid : some (rceFinding 0).id = some (rceFinding 1).id :=
      congrArg (fun l => l.head?.map (·.id)) hsame
    exact absurd hid (by decide)
  · obtain ⟨a, ha⟩ := exists_mem_dense
    refine ⟨a, ha, ?_⟩
    have hle := (score_le_dense ha).2
    rw [hscore]
    linarith

end MontrSecure
