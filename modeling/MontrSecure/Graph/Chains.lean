import Mathlib.Algebra.BigOperators.Group.List.Basic
import Mathlib.Data.Nat.Factorial.Basic
import Mathlib.Data.List.Nodup
import Mathlib.Data.List.Perm.Subperm
import Mathlib.Logic.Relation

/-!
# Maximal simple chains of a graph

A depth-first search over adjacency lists that lists the simple chains it cannot extend, of at least two
nodes and at most a given length, and stops when it has found a given number of them. `search_eq` says that it
finds the first of all chains, in the order of the search, and `mem_chains_iff` that these are the maximal
ones.
-/

namespace ChainGraph

/-- An edge out of a node. -/
structure Edge (κ : Type) where
  target : ℕ
  label : κ

/-- A chain: its nodes, and the labels of its edges. -/
structure Chain (κ : Type) where
  nodes : List ℕ
  labels : List κ

variable {κ : Type}

namespace Chain

/-- The chain of one node. -/
def start (i : ℕ) : Chain κ := ⟨[i], []⟩

/-- Go on along an edge. -/
def extend (c : Chain κ) (e : Edge κ) : Chain κ := ⟨c.nodes ++ [e.target], c.labels ++ [e.label]⟩

/-- Where a chain ends. -/
def last (c : Chain κ) : ℕ := c.nodes.getLastD 0

/-- The number of its nodes. -/
def length (c : Chain κ) : ℕ := c.nodes.length

@[simp]
theorem nodes_start (i : ℕ) : (start i : Chain κ).nodes = [i] := rfl

@[simp]
theorem nodes_extend (c : Chain κ) (e : Edge κ) : (c.extend e).nodes = c.nodes ++ [e.target] := rfl

@[simp]
theorem length_extend (c : Chain κ) (e : Edge κ) : (c.extend e).length = c.length + 1 := by
  simp [length]

end Chain

section Search

variable (edges : ℕ → List (Edge κ)) (maxLength : ℤ) (cap : ℕ)

/-- The edges to nodes that are not on the chain. -/
def next (c : Chain κ) : List (Edge κ) := (edges c.last).filter fun e => e.target ∉ c.nodes

/-- Keep a chain of at least two nodes while there is room for it. -/
def record (c : Chain κ) (out : List (Chain κ)) : List (Chain κ) :=
  if 2 ≤ c.length ∧ out.length < cap then out ++ [c] else out

/-- The search from a chain, for at most `room` nodes more, after the chains `out`. -/
def search : ℕ → Chain κ → List (Chain κ) → List (Chain κ)
  | 0, c, out => if cap ≤ out.length then out else record cap c out
  | room + 1, c, out =>
    if cap ≤ out.length then out
    else if maxLength ≤ c.length ∨ (next edges c).isEmpty then record cap c out
    else (next edges c).foldl (fun out e => search room (c.extend e) out) out

/-- The chain itself, when it has at least two nodes. -/
def keep (c : Chain κ) : List (Chain κ) := if 2 ≤ c.length then [c] else []

/-- All the chains that the search from a chain would list. -/
def chains : ℕ → Chain κ → List (Chain κ)
  | 0, c => keep c
  | room + 1, c =>
    if maxLength ≤ c.length ∨ (next edges c).isEmpty then keep c
    else (next edges c).flatMap fun e => chains room (c.extend e)

variable {edges maxLength cap} {c d : Chain κ} {out : List (Chain κ)}

theorem record_eq (h : out.length < cap) : record cap c out = (out ++ keep c).take cap := by
  unfold record keep
  by_cases htwo : 2 ≤ c.length
  · rw [if_pos ⟨htwo, h⟩, if_pos htwo, List.take_of_length_le]
    rw [List.length_append, List.length_singleton]
    omega
  · rw [if_neg fun hboth => htwo hboth.1, if_neg htwo, List.append_nil, List.take_of_length_le h.le]

/-- What does not fit can be left out before. -/
theorem take_take_append {β : Type} (l m : List β) : (l.take cap ++ m).take cap = (l ++ m).take cap := by
  by_cases h : cap ≤ l.length
  · have hfull : (l.take cap).length = cap := by rw [List.length_take, min_eq_left h]
    rw [List.take_append_of_le_length h, List.take_append_of_le_length hfull.ge, List.take_take, min_self]
  · rw [List.take_of_length_le (show l.length ≤ cap by omega)]

/-- A loop whose rounds each append what fits appends what fits. -/
theorem foldl_eq_take {α β : Type} {f : List β → α → List β} {g : α → List β} {xs : List α} {out : List β}
    (hround : ∀ x ∈ xs, ∀ out : List β, out.length ≤ cap → f out x = (out ++ g x).take cap)
    (hout : out.length ≤ cap) : xs.foldl f out = (out ++ xs.flatMap g).take cap := by
  induction xs generalizing out with
  | nil => rw [List.foldl_nil, List.flatMap_nil, List.append_nil, List.take_of_length_le hout]
  | cons x xs ih =>
    have hfirst : f out x = (out ++ g x).take cap := hround x List.mem_cons_self out hout
    have hrest : xs.foldl f (f out x) = (f out x ++ xs.flatMap g).take cap :=
      ih (fun y hy => hround y (List.mem_cons_of_mem x hy)) (hfirst ▸ List.length_take_le cap _)
    rw [List.foldl_cons, hrest, hfirst, take_take_append, List.flatMap_cons, List.append_assoc]

/-- The search lists the first of all chains. -/
theorem search_eq {room : ℕ} (hout : out.length ≤ cap) :
    search edges maxLength cap room c out = (out ++ chains edges maxLength room c).take cap := by
  induction room generalizing c out with
  | zero =>
    unfold search chains
    split
    · rename_i hfull
      rw [List.take_append_of_le_length hfull, List.take_of_length_le hout]
    · exact record_eq (by omega)
  | succ room ih =>
    unfold search chains
    split
    · rename_i hfull
      rw [List.take_append_of_le_length hfull, List.take_of_length_le hout]
    · split
      · exact record_eq (by omega)
      · exact foldl_eq_take (fun e _ out hle => ih hle) hout

/-- The search goes nowhere from a chain that no edge extends. -/
theorem search_of_stuck {room : ℕ} (h : next edges c = []) :
    search edges maxLength cap room c out = if cap ≤ out.length then out else record cap c out := by
  cases room with
  | zero => rfl
  | succ room =>
    have hempty : maxLength ≤ c.length ∨ (next edges c).isEmpty := by
      rw [h]
      exact .inr rfl
    rw [search, if_pos hempty]

/-! ## Maximal chains -/

/-- One step of a simple chain. -/
def Step (edges : ℕ → List (Edge κ)) (c d : Chain κ) : Prop := ∃ e ∈ next edges c, d = c.extend e

/-- A simple chain of the graph on `n` nodes. -/
def Simple (edges : ℕ → List (Edge κ)) (n : ℕ) (c : Chain κ) : Prop :=
  ∃ i < n, Relation.ReflTransGen (Step edges) (Chain.start i) c

/-- A simple chain that is as long as it may be, or that no edge extends. -/
structure Maximal (edges : ℕ → List (Edge κ)) (n : ℕ) (maxLength : ℤ) (c : Chain κ) : Prop where
  simple : Simple edges n c
  two_le : 2 ≤ c.length
  le_max : (c.length : ℤ) ≤ maxLength
  stuck : maxLength ≤ c.length ∨ next edges c = []

/-- A step adds one node that is not on the chain. -/
theorem Step.nodes (h : Step edges c d) : ∃ e ∈ edges c.last, e.target ∉ c.nodes ∧ d.nodes = c.nodes ++ [e.target] := by
  obtain ⟨e, he, rfl⟩ := h
  obtain ⟨hmem, hnew⟩ := List.mem_filter.mp he
  exact ⟨e, hmem, by simpa using hnew, rfl⟩

theorem Step.length (h : Step edges c d) : d.length = c.length + 1 := by
  obtain ⟨e, -, rfl⟩ := h
  exact c.length_extend e

theorem length_le (h : Relation.ReflTransGen (Step edges) c d) : c.length ≤ d.length := by
  induction h with
  | refl => exact le_rfl
  | tail _ hstep ih => exact ih.trans (hstep.length ▸ Nat.le_succ _)

/-- A step leaves what a chain has gone through as it is. -/
theorem prefix_of_steps (h : Relation.ReflTransGen (Step edges) c d) : c.nodes <+: d.nodes := by
  induction h with
  | refl => exact List.prefix_rfl
  | tail _ hstep ih =>
    obtain ⟨e, -, -, hnodes⟩ := hstep.nodes
    exact ih.trans (hnodes ▸ List.prefix_append _ _)

/-- The labels that steps add are labels of edges. -/
theorem label_of_steps (h : Relation.ReflTransGen (Step edges) c d) :
    ∀ l ∈ d.labels, l ∈ c.labels ∨ ∃ i, ∃ e ∈ edges i, e.label = l := by
  induction h with
  | refl => exact fun l hl => .inl hl
  | @tail d d' _ hstep ih =>
    obtain ⟨e, he, rfl⟩ := hstep
    intro l hl
    obtain hl | hl := List.mem_append.mp hl
    · exact ih l hl
    · exact .inr ⟨d.last, e, (List.mem_filter.mp he).1, (List.mem_singleton.mp hl).symm⟩

/-- The chain visits nodes of the graph, each at most once. -/
structure Visits (n : ℕ) (c : Chain κ) : Prop where
  nodup : c.nodes.Nodup
  bounded : ∀ i ∈ c.nodes, i < n

theorem visits_start {n i : ℕ} (h : i < n) : Visits n (Chain.start i : Chain κ) := by
  refine ⟨List.nodup_singleton i, fun j hj => ?_⟩
  rw [List.mem_singleton.mp hj]
  exact h

theorem Visits.step {n : ℕ} (hedges : ∀ i, ∀ e ∈ edges i, e.target < n) (h : Visits n c)
    (hstep : Step edges c d) : Visits n d := by
  obtain ⟨e, he, hnew, hnodes⟩ := hstep.nodes
  refine ⟨?_, fun i hi => ?_⟩
  · rw [hnodes]
    exact h.nodup.concat hnew |> fun hd => by simpa using hd
  · rw [hnodes] at hi
    obtain hi | hi := List.mem_append.mp hi
    · exact h.bounded i hi
    · rw [List.mem_singleton.mp hi]
      exact hedges _ e he

/-- A chain has no more nodes than the graph. -/
theorem Visits.length_le {n : ℕ} (h : Visits n c) : c.length ≤ n := by
  have hsub : c.nodes ⊆ List.range n := fun i hi => List.mem_range.mpr (h.bounded i hi)
  simpa [Chain.length] using (h.nodup.subperm hsub).length_le

/-- A chain through every node cannot be extended. -/
theorem Visits.next_eq_nil {n : ℕ} (hedges : ∀ i, ∀ e ∈ edges i, e.target < n) (h : Visits n c)
    (hfull : n ≤ c.length) : next edges c = [] := by
  refine List.eq_nil_iff_forall_not_mem.mpr fun e he => ?_
  have hlonger := (h.step hedges ⟨e, he, rfl⟩).length_le
  rw [Chain.length_extend] at hlonger
  omega

/-- A chain that is as long as it may be, or that no edge extends, leads to no other. -/
theorem mem_keep (hle : (c.length : ℤ) ≤ maxLength) (hstuck : maxLength ≤ c.length ∨ next edges c = []) :
    d ∈ keep c ↔ Relation.ReflTransGen (Step edges) c d ∧ 2 ≤ d.length ∧
      (d.length : ℤ) ≤ maxLength ∧ (maxLength ≤ d.length ∨ next edges d = []) := by
  constructor
  · intro hd
    unfold keep at hd
    split at hd
    · obtain rfl := List.mem_singleton.mp hd
      exact ⟨.refl, by assumption, hle, hstuck⟩
    · cases hd
  · rintro ⟨hreach, htwo, hmax, -⟩
    obtain rfl | ⟨c', hstep, hreach⟩ := hreach.cases_head
    · rw [keep, if_pos htwo]
      exact List.mem_singleton_self c
    · exfalso
      obtain hlong | hnone := hstuck
      · have hlength := length_le hreach
        rw [hstep.length] at hlength
        omega
      · obtain ⟨e, he, -⟩ := hstep
        rw [hnone] at he
        cases he

/-- What the search lists from a chain: the chains it leads to that are as long as they may be, or that no
edge extends. -/
theorem mem_chains {n room : ℕ} (hedges : ∀ i, ∀ e ∈ edges i, e.target < n) (h : Visits n c)
    (hroom : n ≤ c.length + room) (hle : (c.length : ℤ) ≤ maxLength) :
    d ∈ chains edges maxLength room c ↔ Relation.ReflTransGen (Step edges) c d ∧ 2 ≤ d.length ∧
      (d.length : ℤ) ≤ maxLength ∧ (maxLength ≤ d.length ∨ next edges d = []) := by
  induction room generalizing c with
  | zero => exact mem_keep hle (.inr (h.next_eq_nil hedges (by omega)))
  | succ room ih =>
    unfold chains
    split
    · rename_i hstuck
      exact mem_keep hle (hstuck.imp_right List.isEmpty_iff.mp)
    · rename_i hgoes
      obtain ⟨hshort, hsome⟩ := not_or.mp hgoes
      have hnext : ∀ e ∈ next edges c, (d ∈ chains edges maxLength room (c.extend e) ↔
          Relation.ReflTransGen (Step edges) (c.extend e) d ∧ 2 ≤ d.length ∧
            (d.length : ℤ) ≤ maxLength ∧ (maxLength ≤ d.length ∨ next edges d = [])) := by
        intro e he
        have hlength := c.length_extend e
        have hbound : ((c.extend e).length : ℤ) ≤ maxLength := by
          rw [hlength]
          omega
        exact ih (h.step hedges ⟨e, he, rfl⟩) (by omega) hbound
      rw [List.mem_flatMap]
      constructor
      · rintro ⟨e, he, hd⟩
        obtain ⟨hreach, hd⟩ := (hnext e he).mp hd
        exact ⟨hreach.head ⟨e, he, rfl⟩, hd⟩
      · rintro ⟨hreach, htwo, hmax, hstuck⟩
        obtain rfl | ⟨c', ⟨e, he, rfl⟩, hreach⟩ := hreach.cases_head
        · -- the chain itself is neither long enough nor stuck
          exfalso
          obtain hlong | hnone := hstuck
          · exact hshort hlong
          · exact hsome (List.isEmpty_iff.mpr hnone)
        · exact ⟨e, he, (hnext e he).mpr ⟨hreach, htwo, hmax, hstuck⟩⟩

/-- A chain that is long enough is not extended. -/
theorem chains_of_le {room : ℕ} (h : maxLength ≤ c.length) : chains edges maxLength room c = keep c := by
  cases room with
  | zero => rfl
  | succ room => exact if_pos (.inl h)

/-- The chains from every node, in the order of the search. -/
def allChains (edges : ℕ → List (Edge κ)) (n : ℕ) (maxLength : ℤ) : List (Chain κ) :=
  (List.range n).flatMap fun i => chains edges maxLength n (Chain.start i)

/-- They are the maximal chains. -/
theorem mem_allChains {n : ℕ} (hedges : ∀ i, ∀ e ∈ edges i, e.target < n) :
    d ∈ allChains edges n maxLength ↔ Maximal edges n maxLength d := by
  unfold allChains
  rw [List.mem_flatMap]
  constructor
  · rintro ⟨i, hi, hd⟩
    have hi := List.mem_range.mp hi
    by_cases hone : 1 ≤ maxLength
    · obtain ⟨hreach, htwo, hmax, hstuck⟩ :=
        (mem_chains hedges (visits_start hi) (Nat.le_add_left _ _) (by simpa [Chain.length] using hone)).mp hd
      exact ⟨⟨i, hi, hreach⟩, htwo, hmax, hstuck⟩
    · -- a chain of one node is already too long
      have hshort : maxLength ≤ (Chain.start i : Chain κ).length := by
        have hlength : (Chain.start i : Chain κ).length = 1 := rfl
        omega
      rw [chains_of_le hshort] at hd
      cases hd
  · rintro ⟨⟨i, hi, hreach⟩, htwo, hmax, hstuck⟩
    refine ⟨i, List.mem_range.mpr hi, ?_⟩
    have hone : ((Chain.start i : Chain κ).length : ℤ) ≤ maxLength := by
      have := length_le hreach
      omega
    exact (mem_chains hedges (visits_start hi) (Nat.le_add_left _ _) hone).mpr ⟨hreach, htwo, hmax, hstuck⟩

example : (allChains (fun i => if i = 0 then [⟨1, ()⟩] else []) 2 8).map (·.nodes) = [[0, 1]] := by decide +kernel

/-! ## No chain is listed twice -/

/-- What the search lists from a chain goes on from it. -/
theorem steps_of_mem_chains {room : ℕ} (hd : d ∈ chains edges maxLength room c) :
    Relation.ReflTransGen (Step edges) c d := by
  have hkeep : ∀ c : Chain κ, d ∈ keep c → Relation.ReflTransGen (Step edges) c d := by
    intro c hd
    unfold keep at hd
    split at hd
    · obtain rfl := List.mem_singleton.mp hd
      exact .refl
    · cases hd
  induction room generalizing c with
  | zero => exact hkeep c hd
  | succ room ih =>
    unfold chains at hd
    split at hd
    · exact hkeep c hd
    · obtain ⟨e, he, hd⟩ := List.mem_flatMap.mp hd
      exact (ih hd).head ⟨e, he, rfl⟩

/-- Chains that go on to different nodes are different. -/
theorem target_eq_of_steps {e₁ e₂ : Edge κ} (h₁ : Relation.ReflTransGen (Step edges) (c.extend e₁) d)
    (h₂ : Relation.ReflTransGen (Step edges) (c.extend e₂) d) : e₁.target = e₂.target := by
  have hprefix := List.prefix_of_prefix_length_le (prefix_of_steps h₁) (prefix_of_steps h₂) (by simp)
  have heq := hprefix.eq_of_length (by simp)
  simpa using heq

/-- Without parallel edges the search lists no chain twice. -/
theorem nodup_chains {room : ℕ} (hparallel : ∀ i, ((edges i).map (·.target)).Nodup) :
    (chains edges maxLength room c).Nodup := by
  have hkeep : ∀ c : Chain κ, (keep c).Nodup := by
    intro c
    unfold keep
    split
    · exact List.nodup_singleton c
    · exact List.nodup_nil
  induction room generalizing c with
  | zero => exact hkeep c
  | succ room ih =>
    unfold chains
    split
    · exact hkeep c
    · rw [List.nodup_flatMap]
      refine ⟨fun e _ => ih, ?_⟩
      have hnext : ((next edges c).map (·.target)).Nodup :=
        (hparallel c.last).sublist (List.filter_sublist.map _)
      refine (List.pairwise_map.mp hnext).imp fun hne => ?_
      intro d hd₁ hd₂
      exact hne (target_eq_of_steps (steps_of_mem_chains hd₁) (steps_of_mem_chains hd₂))

/-- Without parallel edges no chain is listed twice. -/
theorem nodup_allChains {n : ℕ} (hparallel : ∀ i, ((edges i).map (·.target)).Nodup) :
    (allChains edges n maxLength).Nodup := by
  unfold allChains
  rw [List.nodup_flatMap]
  refine ⟨fun i _ => nodup_chains hparallel, ?_⟩
  refine (List.pairwise_lt_range (n := n)).imp fun hlt => ?_
  intro d hd₁ hd₂
  have hprefix := List.prefix_of_prefix_length_le (prefix_of_steps (steps_of_mem_chains hd₁))
    (prefix_of_steps (steps_of_mem_chains hd₂)) le_rfl
  have heq := hprefix.eq_of_length rfl
  simp only [Chain.nodes_start, List.cons.injEq, and_true] at heq
  omega

/-! ## Complete graphs -/

/-- How many nodes of the graph are not on a chain. -/
theorem Visits.length_filter {n : ℕ} (h : Visits n c) :
    ((List.range n).filter fun j => j ∉ c.nodes).length = n - c.length := by
  have hon : ((List.range n).filter fun j => j ∈ c.nodes).length = c.length := by
    refine ((List.perm_ext_iff_of_nodup (List.nodup_range.filter _) h.nodup).mpr fun j => ?_).length_eq
    simpa using h.bounded j
  have hsplit := (List.range n).length_eq_length_filter_add fun j => decide (j ∈ c.nodes)
  rw [List.length_range, hon] at hsplit
  have hoff : ((List.range n).filter fun j => !decide (j ∈ c.nodes)) =
      (List.range n).filter fun j => j ∉ c.nodes := List.filter_congr fun j _ => by simp
  rw [hoff] at hsplit
  omega

/-- How many edges go on from a chain, when every node has an edge to every other. -/
theorem length_next {n : ℕ}
    (hcomplete : ∀ i < n, (edges i).map (·.target) = (List.range n).filter fun j => i ≠ j) (h : Visits n c)
    (hne : c.nodes ≠ []) : (next edges c).length = n - c.length := by
  have hlast : c.last ∈ c.nodes := by
    rw [Chain.last, List.getLastD_eq_getLast?, List.getLast?_eq_getLast_of_ne_nil hne]
    exact List.getLast_mem hne
  have htargets : (next edges c).map (·.target) = (List.range n).filter fun j => j ∉ c.nodes := by
    have hmap : (next edges c).map (·.target) =
        ((edges c.last).map (·.target)).filter fun j => j ∉ c.nodes := by
      rw [next, List.filter_map]
      rfl
    rw [hmap, hcomplete _ (h.bounded _ hlast), List.filter_filter]
    refine List.filter_congr fun j _ => ?_
    by_cases hj : j ∈ c.nodes
    · simp [hj]
    · have hnot : c.last ≠ j := fun heq => hj (heq ▸ hlast)
      simp [hj, hnot]
  rw [← h.length_filter, ← htargets, List.length_map]

/-- How many chains lead on from a chain, when every node has an edge to every other. -/
theorem length_chains {n room k : ℕ} (hedges : ∀ i, ∀ e ∈ edges i, e.target < n)
    (hcomplete : ∀ i < n, (edges i).map (·.target) = (List.range n).filter fun j => i ≠ j) (h : Visits n c)
    (hne : c.nodes ≠ []) (hmax : (c.length + k : ℕ) = maxLength) (htwo : 2 ≤ c.length + k)
    (hn : c.length + k ≤ n) (hroom : k ≤ room) :
    (chains edges maxLength room c).length = (n - c.length).descFactorial k := by
  induction k generalizing c room with
  | zero =>
    rw [chains_of_le (by omega), keep, if_pos (by omega)]
    rfl
  | succ k ih =>
    obtain ⟨room, rfl⟩ : ∃ r, room = r + 1 := ⟨room - 1, by omega⟩
    have hlength := length_next hcomplete h hne
    have hgoes : ¬(maxLength ≤ c.length ∨ (next edges c).isEmpty) := by
      rw [List.isEmpty_iff_length_eq_zero]
      omega
    have hrest : ∀ e ∈ next edges c,
        (chains edges maxLength room (c.extend e)).length = (n - c.length - 1).descFactorial k := by
      intro e he
      have hext := c.length_extend e
      have hne' : (c.extend e).nodes ≠ [] := by simp
      rw [ih (h.step hedges ⟨e, he, rfl⟩) hne' (by omega) (by omega) (by omega) (by omega), hext, Nat.sub_sub]
    obtain ⟨left, hleft⟩ : ∃ left, n - c.length = left + 1 := ⟨n - c.length - 1, by omega⟩
    rw [chains, if_neg hgoes, List.length_flatMap, List.map_congr_left hrest, List.map_const',
      List.sum_replicate, hlength, hleft, Nat.add_sub_cancel, Nat.succ_descFactorial_succ]
    rfl

end Search

end ChainGraph
