import MontrSecure.Correlation.TopChains

/-!
# The enumeration of attack paths

`enumerateMaximalPaths` of `packages/correlation/src/attack-paths/graph.ts` with the path, the conditions and
the visited nodes that its search shares, pushes to and pops from. `dfs_eq` says that a call leaves these as it
found them and records what `ChainGraph.search` does.
-/

namespace MontrSecure

open ChainGraph

/-! ## The search -/

/-- `Edge[][]`: the edges out of each node. -/
abbrev Adjacency := List (List (Edge ChainCondition))

/-- `adjacency[i]`. -/
def Adjacency.at (adjacency : Adjacency) (i : ℕ) : List (Edge ChainCondition) := adjacency.getD i []

example : Adjacency.at [] 3 = [] := by decide +kernel

theorem Adjacency.at_eq_nil {adjacency : Adjacency} {i : ℕ} (h : adjacency.length ≤ i) : adjacency.at i = [] := by
  rw [Adjacency.at, List.getD_eq_getElem?_getD, List.getElem?_eq_none h, Option.getD_none]

/-- What `dfs` shares: the path, the conditions of its edges, the visited nodes, and the recorded paths. -/
structure Dfs where
  path : List ℕ
  conditions : List ChainCondition
  visited : Finset ℕ
  out : List (Chain ChainCondition)

namespace Dfs

variable (s : Dfs) (e : Edge ChainCondition)

/-- Before the recursive call. -/
def enter : Dfs :=
  { s with
    visited := insert e.target s.visited
    path := s.path ++ [e.target]
    conditions := s.conditions ++ [e.label] }

/-- After the recursive call. -/
def leave : Dfs :=
  { s with
    conditions := s.conditions.dropLast
    path := s.path.dropLast
    visited := s.visited.erase e.target }

/-- `record`. -/
def record : Dfs :=
  if 2 ≤ s.path.length ∧ s.out.length < maxRawPaths then
    { s with out := s.out ++ [⟨s.path, s.conditions⟩] }
  else s

/-- The path with its conditions. -/
def chain : Chain ChainCondition := ⟨s.path, s.conditions⟩

/-- The body of the loop over the edges: `acc` is `extended` and what the search shares. -/
def follow (dfs : Dfs → Dfs) (acc : Bool × Dfs) : Bool × Dfs :=
  if e.target ∈ acc.2.visited then acc else (true, (dfs (acc.2.enter e)).leave e)

end Dfs

section Search

variable (adjacency : Adjacency) (maxChainLength : ℤ)

/-- `dfs`, with a bound on the depth of the recursion. -/
def dfs : ℕ → Dfs → Dfs
  | 0, s => s
  | fuel + 1, s =>
    if maxRawPaths ≤ s.out.length then s
    else if maxChainLength ≤ s.path.length then s.record
    else
      let acc := (adjacency.at (s.path.getLastD 0)).foldl (fun acc e => Dfs.follow e (dfs fuel) acc) (false, s)
      if acc.1 then acc.2 else acc.2.record

/-- `enumerateMaximalPaths`; a path has no more nodes than there are, so that the recursion is never cut. -/
def enumerateMaximalPaths : List (Chain ChainCondition) :=
  (List.range adjacency.length).foldl
    (fun out start => (dfs adjacency maxChainLength (adjacency.length + 1)
      { path := [start], conditions := [], visited := {start}, out }).out)
    []

end Search

/-- `buildAdjacency`. -/
def BuildAttackPathsInput.adjacency (input : BuildAttackPathsInput) : Adjacency :=
  (List.range input.findings.length).map input.edges

/-! ## Paths -/

/-- An adjacency list of a graph without self-loops or parallel edges. -/
structure Adjacency.Simple (adjacency : Adjacency) : Prop where
  target_lt : ∀ i, ∀ e ∈ adjacency.at i, e.target < adjacency.length
  noLoop : ∀ i, ∀ e ∈ adjacency.at i, e.target ≠ i
  noParallel : ∀ i, ((adjacency.at i).map (·.target)).Nodup

/-- A simple path with the conditions of its edges. -/
structure Adjacency.IsPath (adjacency : Adjacency) (p : Chain ChainCondition) : Prop where
  nodup : p.nodes.Nodup
  bounded : ∀ i ∈ p.nodes, i < adjacency.length
  length_eq : p.nodes.length = p.labels.length + 1
  edge : ∀ i (h : i < p.labels.length),
    (⟨p.nodes[i + 1], p.labels[i]⟩ : Edge ChainCondition) ∈ adjacency.at p.nodes[i]

/-- A path of at least two nodes that is as long as it may be, or whose end has no successor that is not on it. -/
structure Adjacency.Qualifies (adjacency : Adjacency) (maxChainLength : ℤ) (p : Chain ChainCondition) :
    Prop where
  isPath : adjacency.IsPath p
  two_le : 2 ≤ p.nodes.length
  le_max : (p.nodes.length : ℤ) ≤ maxChainLength
  maximal : (p.nodes.length : ℤ) = maxChainLength ∨
    ∀ e ∈ adjacency.at (p.nodes.getLastD 0), e.target ∈ p.nodes

section Search

variable {adjacency : Adjacency} {maxChainLength : ℤ} {s : Dfs} {e : Edge ChainCondition} {fuel room : ℕ}

/-- The visited nodes are those of the path, which visits nodes of the graph. -/
structure Dfs.Inv (adjacency : Adjacency) (s : Dfs) : Prop where
  visited : s.visited = s.path.toFinset
  visits : Visits adjacency.length s.chain

theorem Dfs.record_eq :
    s.record = { s with out := ChainGraph.record maxRawPaths s.chain s.out } := by
  unfold Dfs.record ChainGraph.record
  by_cases h : 2 ≤ s.path.length ∧ s.out.length < maxRawPaths
  · rw [if_pos h, if_pos (show 2 ≤ s.chain.length ∧ s.out.length < maxRawPaths from h)]
    rfl
  · rw [if_neg h, if_neg (show ¬(2 ≤ s.chain.length ∧ s.out.length < maxRawPaths) from h)]

/-- Leaving undoes entering. -/
theorem Dfs.leave_enter (hnew : e.target ∉ s.visited) (out : List (Chain ChainCondition)) :
    ({ s.enter e with out } : Dfs).leave e = { s with out } := by
  simp [Dfs.enter, Dfs.leave, Finset.erase_insert hnew]

theorem Dfs.chain_enter : (s.enter e).chain = s.chain.extend e := rfl

theorem Dfs.Inv.enter (hsimple : adjacency.Simple) (h : s.Inv adjacency)
    (he : e ∈ adjacency.at s.chain.last) (hnew : e.target ∉ s.visited) : (s.enter e).Inv adjacency := by
  have hpath : e.target ∉ s.chain.nodes := by
    rw [h.visited, List.mem_toFinset] at hnew
    exact hnew
  refine ⟨?_, h.visits.step hsimple.target_lt ⟨e, ?_, rfl⟩⟩
  · ext i
    simp [Dfs.enter, h.visited]
  · exact List.mem_filter.mpr ⟨he, by simpa using hpath⟩

/-- The edges the loop follows. -/
theorem Dfs.Inv.next_eq (h : s.Inv adjacency) :
    ((adjacency.at s.chain.last).filter fun e => e.target ∉ s.visited) = next adjacency.at s.chain := by
  rw [next, h.visited]
  refine List.filter_congr fun e _ => decide_eq_decide.mpr ?_
  rw [List.mem_toFinset]
  rfl

/-- The calls from a node restore what they share, and record what the search does. -/
def Restores (adjacency : Adjacency) (maxChainLength : ℤ) (fuel room : ℕ) (s : Dfs) : Prop :=
  ∀ (out : List (Chain ChainCondition)), ∀ e ∈ adjacency.at s.chain.last, e.target ∉ s.visited →
    dfs adjacency maxChainLength fuel ({ s with out }.enter e) =
      { s.enter e with out := search adjacency.at maxChainLength maxRawPaths room (s.chain.extend e) out }

/-- What the loop does over the edges out of the last node. -/
theorem dfs_loop (hcall : Restores adjacency maxChainLength fuel room s) {es : List (Edge ChainCondition)}
    (hes : es ⊆ adjacency.at s.chain.last) (extended : Bool) (out : List (Chain ChainCondition)) :
    es.foldl (fun acc e => Dfs.follow e (dfs adjacency maxChainLength fuel) acc) (extended, { s with out }) =
      (extended || !(es.filter fun e => e.target ∉ s.visited).isEmpty,
        { s with
          out := (es.filter fun e => e.target ∉ s.visited).foldl
            (fun out e => search adjacency.at maxChainLength maxRawPaths room (s.chain.extend e) out) out }) := by
  induction es generalizing extended out with
  | nil => simp
  | cons e es ih =>
    obtain ⟨he, hes⟩ := List.cons_subset.mp hes
    rw [List.foldl_cons]
    by_cases hvisited : e.target ∈ s.visited
    · rw [Dfs.follow, if_pos hvisited, ih hes, List.filter_cons_of_neg (by simpa using hvisited)]
    · rw [Dfs.follow, if_neg hvisited, hcall out e he hvisited, Dfs.leave_enter hvisited, ih hes,
        List.filter_cons_of_pos (by simpa using hvisited)]
      simp

/-- A call whose own calls restore what they share restores it too. -/
theorem dfs_of_restores (h : s.Inv adjacency) (hcall : Restores adjacency maxChainLength fuel room s) :
    dfs adjacency maxChainLength (fuel + 1) s =
      { s with out := search adjacency.at maxChainLength maxRawPaths (room + 1) s.chain s.out } := by
  unfold dfs search
  by_cases hfull : maxRawPaths ≤ s.out.length
  · rw [if_pos hfull, if_pos hfull]
  · rw [if_neg hfull, if_neg hfull]
    by_cases hlong : maxChainLength ≤ s.path.length
    · rw [if_pos hlong, if_pos (.inl hlong), s.record_eq]
    · rw [if_neg hlong]
      have hloop := dfs_loop hcall (List.Subset.refl _) false s.out
      rw [h.next_eq] at hloop
      have hlast : s.path.getLastD 0 = s.chain.last := rfl
      rw [hlast, hloop]
      by_cases hstuck : next adjacency.at s.chain = []
      · -- nothing was entered, so that the path is recorded
        rw [if_pos (show maxChainLength ≤ s.chain.length ∨ _ from .inr (List.isEmpty_iff.mpr hstuck)), hstuck]
        exact s.record_eq
      · have hgoes : ¬(maxChainLength ≤ s.chain.length ∨ (next adjacency.at s.chain).isEmpty = true) := by
          rw [List.isEmpty_iff]
          exact not_or.mpr ⟨hlong, hstuck⟩
        rw [if_neg hgoes]
        simp [hstuck]

/-- A call with enough room leaves what it shares as it was, and records what the search does. -/
theorem dfs_eq (hsimple : adjacency.Simple) (h : s.Inv adjacency)
    (hroom : adjacency.length ≤ s.path.length + room) :
    dfs adjacency maxChainLength (room + 1) s =
      { s with out := search adjacency.at maxChainLength maxRawPaths room s.chain s.out } := by
  induction room generalizing s with
  | zero =>
    -- the path goes through every node, so that nothing is entered
    have hstuck : next adjacency.at s.chain = [] := h.visits.next_eq_nil hsimple.target_lt hroom
    have hcall : Restores adjacency maxChainLength 0 0 s := by
      intro out e he hnew
      have hmem : e ∈ next adjacency.at s.chain := by
        rw [← h.next_eq]
        exact List.mem_filter.mpr ⟨he, by simpa using hnew⟩
      rw [hstuck] at hmem
      cases hmem
    rw [dfs_of_restores h hcall, search_of_stuck hstuck, search_of_stuck hstuck]
  | succ room ih =>
    have hcall : Restores adjacency maxChainLength (room + 1) room s := by
      intro out e he hnew
      have hinv : ({ s with out }.enter e).Inv adjacency :=
        Dfs.Inv.enter hsimple ⟨h.visited, h.visits⟩ he hnew
      rw [ih hinv (by simpa [Dfs.enter] using (by omega : adjacency.length ≤ s.path.length + 1 + room))]
      rfl
    exact dfs_of_restores h hcall

/-- What is enumerated: the first of all chains, in the order of the search. -/
theorem enumerateMaximalPaths_eq_take (hsimple : adjacency.Simple) :
    enumerateMaximalPaths adjacency maxChainLength =
      (allChains adjacency.at adjacency.length maxChainLength).take maxRawPaths := by
  unfold enumerateMaximalPaths allChains
  rw [← List.nil_append (List.flatMap _ _)]
  refine foldl_eq_take (fun start hstart out hout => ?_) (Nat.zero_le _)
  have hinv : ({ path := [start], conditions := [], visited := {start}, out } : Dfs).Inv adjacency :=
    ⟨rfl, visits_start (List.mem_range.mp hstart)⟩
  rw [dfs_eq hsimple hinv (Nat.le_add_left _ _)]
  exact search_eq hout

/-! ## What is enumerated -/

variable {c p : Chain ChainCondition}

theorem Adjacency.isPath_start {i : ℕ} (h : i < adjacency.length) : adjacency.IsPath (Chain.start i) where
  nodup := List.nodup_singleton i
  bounded := by simpa using h
  length_eq := rfl
  edge := by
    rintro i ⟨⟩

/-- The last edge of a chain that goes on along `e`, by its index. -/
theorem lastEdge_extend (h : c.nodes.length = c.labels.length + 1) :
    (c.extend e).nodes[c.labels.length]? = some c.last ∧
      (c.extend e).nodes[c.labels.length + 1]? = some e.target ∧
      (c.extend e).labels[c.labels.length]? = some e.label := by
  have hne : c.nodes ≠ [] := List.length_pos_iff.mp (by rw [h]; exact Nat.succ_pos _)
  have hlast : c.nodes[c.labels.length]? = some c.last := by
    rw [Chain.last, List.getLastD_eq_getLast?, List.getLast?_eq_getLast_of_ne_nil hne, Option.getD_some,
      List.getLast_eq_getElem, ← List.getElem?_eq_getElem]
    congr 1
    omega
  refine ⟨?_, ?_, ?_⟩
  · rw [Chain.nodes_extend, List.getElem?_append_left (by omega), hlast]
  · rw [Chain.nodes_extend, ← h, List.getElem?_concat_length]
  · exact List.getElem?_concat_length

/-- A path goes on along the edges out of its end to nodes that are not on it. -/
theorem Adjacency.IsPath.extend (hsimple : adjacency.Simple) (h : adjacency.IsPath c)
    (he : e ∈ next adjacency.at c) : adjacency.IsPath (c.extend e) := by
  obtain ⟨hmem, hnew⟩ := List.mem_filter.mp he
  have hvisits : Visits adjacency.length (c.extend e) :=
    (Visits.step hsimple.target_lt ⟨h.nodup, h.bounded⟩ ⟨e, he, rfl⟩)
  refine ⟨hvisits.nodup, hvisits.bounded, ?_, fun i hi => ?_⟩
  · simp [Chain.extend, h.length_eq]
  · have hlength := h.length_eq
    simp only [Chain.extend, List.length_append, List.length_singleton] at hi ⊢
    by_cases hlt : i < c.labels.length
    · rw [List.getElem_append_left (by omega), List.getElem_append_left (by omega), List.getElem_append_left hlt]
      exact h.edge i hlt
    · obtain rfl : i = c.labels.length := by omega
      obtain ⟨hlast, htarget, hlabel⟩ := lastEdge_extend (e := e) hlength
      obtain ⟨_, hlast⟩ := List.getElem?_eq_some_iff.mp hlast
      obtain ⟨_, htarget⟩ := List.getElem?_eq_some_iff.mp htarget
      obtain ⟨_, hlabel⟩ := List.getElem?_eq_some_iff.mp hlabel
      simp only [Chain.extend] at hlast htarget hlabel
      rw [hlast, htarget, hlabel]
      exact hmem

/-- The last edge of a path. -/
theorem Adjacency.IsPath.of_extend (h : adjacency.IsPath (c.extend e)) :
    adjacency.IsPath c ∧ e ∈ next adjacency.at c := by
  have hlength : c.nodes.length = c.labels.length + 1 := by
    have := h.length_eq
    simpa [Chain.extend] using this
  have hnodup : (c.nodes ++ [e.target]).Nodup := h.nodup
  have hpath : adjacency.IsPath c := by
    refine ⟨hnodup.of_append_left, fun i hi => h.bounded i (List.mem_append_left _ hi), hlength, fun i hi => ?_⟩
    have hedge := h.edge i (Nat.lt_of_lt_of_le hi (by simp [Chain.extend]))
    simp only [Chain.extend] at hedge
    rwa [List.getElem_append_left (by omega), List.getElem_append_left (by omega),
      List.getElem_append_left hi] at hedge
  refine ⟨hpath, List.mem_filter.mpr ⟨?_, ?_⟩⟩
  · have hedge := h.edge c.labels.length (by simp [Chain.extend])
    obtain ⟨hlast, htarget, hlabel⟩ := lastEdge_extend (e := e) hlength
    obtain ⟨_, hlast⟩ := List.getElem?_eq_some_iff.mp hlast
    obtain ⟨_, htarget⟩ := List.getElem?_eq_some_iff.mp htarget
    obtain ⟨_, hlabel⟩ := List.getElem?_eq_some_iff.mp hlabel
    rwa [hlast, htarget, hlabel] at hedge
  · have hnot : e.target ∉ c.nodes := fun hmem => by
      have hdisjoint := List.disjoint_of_nodup_append hnodup
      exact hdisjoint hmem (List.mem_singleton_self _)
    simpa using hnot

/-- The paths are what the steps of the search lead to. -/
theorem Adjacency.isPath_iff (hsimple : adjacency.Simple) :
    adjacency.IsPath p ↔ ChainGraph.Simple adjacency.at adjacency.length p := by
  constructor
  · obtain ⟨nodes, labels⟩ := p
    intro h
    induction labels using List.reverseRecOn generalizing nodes with
    | nil =>
      obtain ⟨i, rfl⟩ := List.length_eq_one_iff.mp h.length_eq
      exact ⟨i, h.bounded i (List.mem_singleton_self i), .refl⟩
    | append_singleton labels l ih =>
      have hne : nodes ≠ [] := List.length_pos_iff.mp (by rw [h.length_eq]; exact Nat.succ_pos _)
      rw [← List.dropLast_append_getLast hne] at h ⊢
      obtain ⟨hpath, hnext⟩ :=
        Adjacency.IsPath.of_extend (c := ⟨nodes.dropLast, labels⟩) (e := ⟨nodes.getLast hne, l⟩) h
      obtain ⟨i, hi, hsteps⟩ := ih nodes.dropLast hpath
      exact ⟨i, hi, hsteps.tail ⟨⟨nodes.getLast hne, l⟩, hnext, rfl⟩⟩
  · rintro ⟨i, hi, hsteps⟩
    induction hsteps with
    | refl => exact isPath_start hi
    | tail _ hstep ih =>
      obtain ⟨e, he, rfl⟩ := hstep
      exact ih.extend hsimple he

/-- The paths that qualify are the maximal chains of the graph. -/
theorem Adjacency.qualifies_iff (hsimple : adjacency.Simple) :
    adjacency.Qualifies maxChainLength p ↔ Maximal adjacency.at adjacency.length maxChainLength p := by
  have hnext : next adjacency.at p = [] ↔ ∀ e ∈ adjacency.at (p.nodes.getLastD 0), e.target ∈ p.nodes := by
    rw [next, List.filter_eq_nil_iff]
    refine forall₂_congr fun e he => ?_
    simp
  constructor
  · rintro ⟨hpath, htwo, hmax, hmaximal⟩
    exact ⟨(isPath_iff hsimple).mp hpath, htwo, hmax, hmaximal.imp (fun h => h.ge) hnext.mpr⟩
  · rintro ⟨hpath, htwo, hmax, hstuck⟩
    exact ⟨(isPath_iff hsimple).mpr hpath, htwo, hmax, hstuck.imp (fun h => le_antisymm hmax h) hnext.mp⟩

end Search

/-- When fewer paths qualify than there is room for, each of them is enumerated, exactly once, and nothing
else is. -/
theorem enumerateMaximalPaths_exact (adjacency : Adjacency) (maxChainLength : ℤ) (hsimple : adjacency.Simple)
    (_hmax : 2 ≤ maxChainLength)
    (hfew : ∀ ps : List (Chain ChainCondition), ps.Nodup → (∀ p ∈ ps, adjacency.Qualifies maxChainLength p) →
      ps.length < maxRawPaths) :
    (enumerateMaximalPaths adjacency maxChainLength).Nodup ∧
      ∀ p, p ∈ enumerateMaximalPaths adjacency maxChainLength ↔ adjacency.Qualifies maxChainLength p := by
  have hmem : ∀ p, p ∈ allChains adjacency.at adjacency.length maxChainLength ↔
      adjacency.Qualifies maxChainLength p := by
    intro p
    rw [mem_allChains hsimple.target_lt, Adjacency.qualifies_iff hsimple]
  have hnodup : (allChains adjacency.at adjacency.length maxChainLength).Nodup :=
    nodup_allChains hsimple.noParallel
  have hroom := hfew _ hnodup fun p hp => (hmem p).mp hp
  rw [enumerateMaximalPaths_eq_take hsimple, List.take_of_length_le hroom.le]
  exact ⟨hnodup, hmem⟩

/-- A chain from one finding through two others. -/
private def chainTriangle : Adjacency :=
  let condition : ChainCondition := { kind := .ssrfInternalPivot, strength := 1 / 2, note := "" }
  [[⟨1, condition⟩], [⟨2, condition⟩], [⟨0, condition⟩]]

private theorem simple_triangle : chainTriangle.Simple := by
  have hnode : ∀ i, i = 0 ∨ i = 1 ∨ i = 2 ∨ chainTriangle.at i = [] := by
    intro i
    by_cases hi : 3 ≤ i
    · have hlength : List.length chainTriangle ≤ i := hi
      exact .inr (.inr (.inr (Adjacency.at_eq_nil hlength)))
    · omega
  refine ⟨fun i => ?_, fun i => ?_, fun i => ?_⟩
  all_goals
    obtain rfl | rfl | rfl | hnone := hnode i
    · decide
    · decide
    · decide
    · rw [hnone]
      simp

/-- Three nodes in a circle: the paths of three nodes, one from each. -/
theorem enumerateMaximalPaths_exact_triangle :
    (enumerateMaximalPaths chainTriangle 5).Nodup ∧
      ∀ p, p ∈ enumerateMaximalPaths chainTriangle 5 ↔ chainTriangle.Qualifies 5 p := by
  refine enumerateMaximalPaths_exact chainTriangle 5 simple_triangle (by decide) fun ps hnodup hps => ?_
  have hsub : ps ⊆ allChains chainTriangle.at 3 5 := by
    intro p hp
    exact (mem_allChains simple_triangle.target_lt).mpr
      ((Adjacency.qualifies_iff simple_triangle).mp (hps p hp))
  have hlength : (allChains chainTriangle.at 3 5).length = 3 := by decide
  have hle := (hnodup.subperm hsub).length_le
  rw [hlength] at hle
  exact hle.trans_lt (by decide)

/-! ## The graph of the findings -/

namespace BuildAttackPathsInput

variable {input : BuildAttackPathsInput}

theorem adjacency_at : input.adjacency.at = input.edges := by
  funext i
  obtain hi | hi := Nat.lt_or_ge i input.findings.length
  · simp [Adjacency.at, adjacency, hi]
  · have hnone : input.edges i = [] := by
      refine List.eq_nil_iff_forall_not_mem.mpr fun e he => ?_
      obtain ⟨f₁, -, hf₁, -⟩ := mem_edges he
      exact absurd (List.getElem?_eq_some_iff.mp hf₁).1 (Nat.not_lt.mpr hi)
    rw [hnone, Adjacency.at_eq_nil (by simpa [adjacency] using hi)]

/-- The conditions make a graph without self-loops or parallel edges. -/
theorem adjacency_simple : input.adjacency.Simple := by
  have htarget : ∀ {i j : ℕ} {e : Edge ChainCondition}, input.edge i j = some e → i ≠ j ∧ e.target = j := by
    intro i j e h
    unfold edge at h
    by_cases hij : i = j
    · rw [if_pos hij] at h
      cases h
    · rw [if_neg hij] at h
      simp only [Option.bind_eq_some_iff, Option.map_eq_some_iff] at h
      obtain ⟨-, -, -, -, -, -, rfl⟩ := h
      exact ⟨hij, rfl⟩
  refine ⟨?_, ?_, ?_⟩
  · rw [adjacency_at]
    simpa [adjacency] using @target_lt input
  · rw [adjacency_at]
    intro i e he
    obtain ⟨j, -, hj⟩ := List.mem_filterMap.mp he
    obtain ⟨hne, rfl⟩ := htarget hj
    exact hne.symm
  · rw [adjacency_at]
    intro i
    rw [edges, List.map_filterMap]
    refine List.nodup_range.filterMap fun j₁ j₂ k h₁ h₂ => ?_
    obtain ⟨e₁, he₁, rfl⟩ := Option.map_eq_some_iff.mp h₁
    obtain ⟨e₂, he₂, heq⟩ := Option.map_eq_some_iff.mp h₂
    rw [← (htarget he₁).2, ← (htarget he₂).2, heq]

/-- The chains whose candidates are ranked are those the shared search enumerates. -/
theorem enumerate_adjacency :
    MontrSecure.enumerateMaximalPaths input.adjacency input.chainLimit = input.enumerateMaximalPaths := by
  have hlength : List.length input.adjacency = input.findings.length := by simp [adjacency]
  rw [enumerateMaximalPaths_eq_take adjacency_simple, adjacency_at, hlength, enumerateMaximalPaths_eq]
  rfl

end BuildAttackPathsInput

end MontrSecure
