import Mathlib.Data.List.Basic
import Mathlib.Logic.Function.Iterate
import Mathlib.Logic.Relation
import Mathlib.Order.Nat

/-!
# Breadth-first search

The search that keeps what it has visited and a queue of what it has yet to follow. `mem_bfs` says what it has
visited when the queue is empty: what can be reached from where it started.
-/

namespace BreadthFirst

/-- What has been visited, and what is still to be followed. -/
structure Search (α : Type) where
  visited : List α
  queue : List α

variable {α : Type} [DecidableEq α]

namespace Search

/-- Visit a node, if it has not been. -/
def visit (s : Search α) (a : α) : Search α :=
  if a ∈ s.visited then s else { visited := s.visited ++ [a], queue := s.queue ++ [a] }

/-- Follow the first node of the queue. -/
def round (succ : α → List α) (s : Search α) : Search α :=
  match s.queue with
  | [] => s
  | a :: queue => (succ a).foldl visit { s with queue }

/-- How many rounds there can be: for a graph within `nodes`, each takes a node from the queue, and a node is
queued when it is first visited. -/
def rounds (nodes : List α) (s : Search α) : ℕ :=
  (nodes.filter fun a => a ∉ s.visited).length + s.queue.length

end Search

/-- What a search from `start` has visited at its end, in a graph within `nodes`. -/
def bfs (succ : α → List α) (nodes start : List α) : List α :=
  let first : Search α := { visited := start, queue := start }
  ((Search.round succ)^[first.rounds nodes] first).visited

variable {succ : α → List α} {nodes start : List α} {s : Search α} {a b : α}

/-! ## Visiting -/

theorem mem_visited_visit : b ∈ (s.visit a).visited ↔ b ∈ s.visited ∨ b = a := by
  unfold Search.visit
  by_cases h : a ∈ s.visited
  · rw [if_pos h]
    refine ⟨.inl, ?_⟩
    rintro (hb | rfl)
    · exact hb
    · exact h
  · rw [if_neg h, List.mem_append, List.mem_singleton]

theorem mem_queue_visit : b ∈ (s.visit a).queue ↔ b ∈ s.queue ∨ b = a ∧ a ∉ s.visited := by
  unfold Search.visit
  by_cases h : a ∈ s.visited
  · rw [if_pos h]
    simp [h]
  · rw [if_neg h]
    simp [h]

theorem mem_visited_foldl {as : List α} : b ∈ (as.foldl Search.visit s).visited ↔ b ∈ s.visited ∨ b ∈ as := by
  induction as generalizing s with
  | nil => simp
  | cons a as ih => rw [List.foldl_cons, ih, mem_visited_visit, List.mem_cons, or_assoc]

/-- What is queued afterwards was queued before, or has been visited now. -/
theorem mem_queue_foldl {as : List α} :
    b ∈ (as.foldl Search.visit s).queue ↔ b ∈ s.queue ∨ b ∈ as ∧ b ∉ s.visited := by
  induction as generalizing s with
  | nil => simp
  | cons a as ih =>
    rw [List.foldl_cons, ih, mem_queue_visit, mem_visited_visit, List.mem_cons]
    by_cases hab : b = a
    · subst hab
      by_cases hb : b ∈ s.visited <;> simp [hb]
    · simp [hab]

/-- A visit uses up a node of the graph for each it queues. -/
theorem rounds_visit (h : a ∈ nodes) : (s.visit a).rounds nodes ≤ s.rounds nodes := by
  unfold Search.visit
  by_cases hvisited : a ∈ s.visited
  · exact (if_pos hvisited ▸ le_rfl)
  · have hfewer : (nodes.filter fun b => b ∉ s.visited ++ [a]).length <
        (nodes.filter fun b => b ∉ s.visited).length := by
      have hfilter : (nodes.filter fun b => b ∉ s.visited ++ [a]) =
          (nodes.filter fun b => b ∉ s.visited).filter fun b => b ≠ a := by
        rw [List.filter_filter]
        refine List.filter_congr fun b _ => ?_
        by_cases hba : b = a <;> simp [hba]
      rw [hfilter, List.length_filter_lt_length_iff_exists]
      exact ⟨a, List.mem_filter.mpr ⟨h, decide_eq_true hvisited⟩, by simp⟩
    rw [if_neg hvisited]
    unfold Search.rounds
    dsimp only
    rw [List.length_append, List.length_singleton]
    omega

theorem rounds_foldl {as : List α} (h : ∀ a ∈ as, a ∈ nodes) :
    (as.foldl Search.visit s).rounds nodes ≤ s.rounds nodes := by
  induction as generalizing s with
  | nil => exact le_rfl
  | cons a as ih =>
    exact (ih fun b hb => h b (List.mem_cons_of_mem a hb)).trans (rounds_visit (h a List.mem_cons_self))

/-! ## The search -/

/-- What holds throughout a search. -/
structure Searching (succ : α → List α) (start : List α) (s : Search α) : Prop where
  start_visited : ∀ a ∈ start, a ∈ s.visited
  queue_visited : ∀ a ∈ s.queue, a ∈ s.visited
  reached : ∀ a ∈ s.visited, ∃ b ∈ start, Relation.ReflTransGen (fun x y => y ∈ succ x) b a
  followed : ∀ a ∈ s.visited, a ∉ s.queue → ∀ b ∈ succ a, b ∈ s.visited

theorem Searching.round (h : Searching succ start s) : Searching succ start (s.round succ) := by
  unfold Search.round
  split
  · exact h
  · rename_i a queue hqueue
    have ha : a ∈ s.visited := h.queue_visited a (hqueue ▸ List.mem_cons_self)
    refine ⟨fun b hb => ?_, fun b hb => ?_, fun b hb => ?_, fun b hb hdone c hc => ?_⟩
    · exact mem_visited_foldl.mpr (.inl (h.start_visited b hb))
    · obtain hb | ⟨hb, -⟩ := mem_queue_foldl.mp hb
      · exact mem_visited_foldl.mpr (.inl (h.queue_visited b (hqueue ▸ List.mem_cons_of_mem a hb)))
      · exact mem_visited_foldl.mpr (.inr hb)
    · obtain hb | hb := mem_visited_foldl.mp hb
      · exact h.reached b hb
      · obtain ⟨d, hd, hreach⟩ := h.reached a ha
        exact ⟨d, hd, hreach.tail hb⟩
    · rw [mem_queue_foldl, not_or] at hdone
      obtain ⟨hqueued, hnew⟩ := hdone
      rw [mem_visited_foldl] at hb ⊢
      -- what was not queued was followed before, unless it is the node of this round
      have hbefore : b ∈ s.visited := hb.elim id fun hb => by_contra fun hnot => hnew ⟨hb, hnot⟩
      by_cases hba : b = a
      · exact .inr (hba ▸ hc)
      · refine .inl (h.followed b hbefore ?_ c hc)
        rw [hqueue, List.mem_cons, not_or]
        exact ⟨hba, hqueued⟩

theorem Searching.iterate (h : Searching succ start s) (n : ℕ) :
    Searching succ start ((Search.round succ)^[n] s) := by
  induction n with
  | zero => exact h
  | succ n ih =>
    rw [Function.iterate_succ_apply']
    exact ih.round

/-- A search with nothing to follow stays as it is. -/
theorem iterate_of_queue (h : s.queue = []) (n : ℕ) : (Search.round succ)^[n] s = s := by
  have hround : s.round succ = s := by
    unfold Search.round
    rw [h]
  exact Function.iterate_fixed hround n

/-- There are rounds enough for the queue to be empty at the end. -/
theorem queue_iterate (hnodes : ∀ a, ∀ b ∈ succ a, b ∈ nodes) {n : ℕ} (h : s.rounds nodes ≤ n) :
    ((Search.round succ)^[n] s).queue = [] := by
  induction n generalizing s with
  | zero =>
    unfold Search.rounds at h
    exact List.length_eq_zero_iff.mp (by rw [Function.iterate_zero_apply]; omega)
  | succ n ih =>
    by_cases hempty : s.queue = []
    · rw [iterate_of_queue hempty]
      exact hempty
    · obtain ⟨a, queue, hqueue⟩ := List.exists_cons_of_ne_nil hempty
      have hround : s.round succ = (succ a).foldl Search.visit { s with queue } := by
        unfold Search.round
        rw [hqueue]
      have hle : ((succ a).foldl Search.visit { s with queue }).rounds nodes ≤
          ({ s with queue } : Search α).rounds nodes := rounds_foldl (hnodes a)
      have hless : ({ s with queue } : Search α).rounds nodes + 1 = s.rounds nodes := by
        unfold Search.rounds
        rw [hqueue, List.length_cons, Nat.add_assoc]
      rw [Function.iterate_succ_apply, hround]
      exact ih (by omega)

/-- What a search visits: what can be reached from where it starts. -/
theorem mem_bfs (hnodes : ∀ a, ∀ b ∈ succ a, b ∈ nodes) :
    a ∈ bfs succ nodes start ↔ ∃ b ∈ start, Relation.ReflTransGen (fun x y => y ∈ succ x) b a := by
  have hfirst : Searching succ start { visited := start, queue := start } :=
    ⟨fun _ ha => ha, fun _ ha => ha, fun a ha => ⟨a, ha, .refl⟩, fun a ha hnot => absurd ha hnot⟩
  have hlast := hfirst.iterate (({ visited := start, queue := start } : Search α).rounds nodes)
  have hempty := queue_iterate (s := { visited := start, queue := start }) hnodes le_rfl
  unfold bfs
  constructor
  · exact hlast.reached a
  · rintro ⟨b, hb, hreach⟩
    induction hreach with
    | refl => exact hlast.start_visited b hb
    | tail _ hstep ih => exact hlast.followed _ ih (by rw [hempty]; exact List.not_mem_nil) _ hstep

end BreadthFirst
