import MontrSecure.Data.InsertionMap
import Mathlib.Logic.Relation

/-!
# Values of chains

A chain leads along the edges of a graph from a node that no edge leads to. Its labels, one after the other, make a
value of a first one. `collect` finds the values of the chains to a node by a recursion over the edges that lead to it,
which remembers what it has found and stops where it comes back to a node. When no node leads back to itself it finds
them all (`isValues_collect`).
-/

namespace ChainValues

open InsertionMap

/-- A labelled edge. -/
structure Edge (κ ε : Type) where
  source : κ
  target : κ
  label : ε
  deriving DecidableEq

variable {κ ε β : Type}

/-- An edge leads from one node to another. -/
def Leads (edges : List (Edge κ ε)) (u v : κ) : Prop := ∃ e ∈ edges, e.source = u ∧ e.target = v

/-- No node leads back to itself. -/
def Acyclic (edges : List (Edge κ ε)) : Prop := ∀ v, ¬Relation.TransGen (Leads edges) v v

/-- The labels of a chain to a node, from the first edge on. -/
inductive Chain (edges : List (Edge κ ε)) : κ → List ε → Prop
  | root {v : κ} (h : ∀ e ∈ edges, e.target ≠ v) : Chain edges v []
  | extend {e : Edge κ ε} {labels : List ε} (he : e ∈ edges) (h : Chain edges e.source labels) :
    Chain edges e.target (labels ++ [e.label])

/-- Edges that lead to a higher rank make no cycle. -/
theorem acyclic_of_rank {edges : List (Edge κ ε)} (rank : κ → ℕ) (h : ∀ e ∈ edges, rank e.source < rank e.target) :
    Acyclic edges := by
  have hrank : ∀ {u v}, Relation.TransGen (Leads edges) u v → rank u < rank v := by
    intro u v huv
    induction huv with
    | single hstep =>
      obtain ⟨e, he, rfl, rfl⟩ := hstep
      exact h e he
    | tail _ hstep ih =>
      obtain ⟨e, he, rfl, rfl⟩ := hstep
      exact Nat.lt_trans ih (h e he)
  exact fun v hv => Nat.lt_irrefl _ (hrank hv)

/-- `set.add(b)`. -/
def add [DecidableEq β] (set : List β) (b : β) : List β := if b ∈ set then set else set ++ [b]

section Search

variable [DecidableEq κ] [DecidableEq β] (edges : List (Edge κ ε)) (root : β) (step : β → ε → β)

theorem length_filter_visiting {v : κ} {visiting : List κ} (hincoming : edges.filter (·.target = v) ≠ [])
    (hv : v ∉ visiting) : (edges.filter (·.target ∉ v :: visiting)).length <
      (edges.filter (·.target ∉ visiting)).length := by
  obtain ⟨e, he⟩ := List.exists_mem_of_ne_nil _ hincoming
  obtain ⟨he, htarget⟩ := List.mem_filter.mp he
  have hrest : edges.filter (·.target ∉ v :: visiting) =
      (edges.filter (·.target ∉ visiting)).filter (·.target ≠ v) := by
    rw [List.filter_filter]
    refine List.filter_congr fun e _ => ?_
    simp [not_or]
  rw [hrest, List.length_filter_lt_length_iff_exists]
  refine ⟨e, List.mem_filter.mpr ⟨he, ?_⟩, by simpa using htarget⟩
  rw [of_decide_eq_true htarget]
  exact decide_eq_true hv

/-- Go on along an edge with the values that a search finds for the node it comes from. -/
def along (search : κ → List (κ × List β) → List β × List (κ × List β)) (acc : List β × List (κ × List β))
    (e : Edge κ ε) : List β × List (κ × List β) :=
  let sub := search e.source acc.2
  (sub.1.foldl (fun values b => add values (step b e.label)) acc.1, sub.2)

/-- The values of the chains to a node, and what is known afterwards. -/
def collect (v : κ) (visiting : List κ) (memo : List (κ × List β)) : List β × List (κ × List β) :=
  match get memo v with
  | some cached => (cached, memo)
  | none =>
    if _ : v ∈ visiting then ([root], memo)
    else if _ : edges.filter (·.target = v) = [] then ([root], set v [root] memo)
    else
      let found := (edges.filter (·.target = v)).foldl
        (along step fun u memo => collect u (v :: visiting) memo) ([], memo)
      (found.1, set v found.1 found.2)
termination_by (edges.filter (·.target ∉ visiting)).length
decreasing_by exact length_filter_visiting edges ‹_› ‹_›

end Search

/-! ## What is found -/

section Found

variable {edges : List (Edge κ ε)} {root : β} {step : β → ε → β} {v : κ} {values : List β}

/-- The values of the chains to a node, of which there are some. -/
structure IsValues (edges : List (Edge κ ε)) (root : β) (step : β → ε → β) (v : κ) (values : List β) : Prop where
  nonempty : values ≠ []
  mem_iff : ∀ b, b ∈ values ↔ ∃ labels, Chain edges v labels ∧ labels.foldl step root = b

/-- Nothing leads to a node: its chain has no edges. -/
theorem isValues_root (h : ∀ e ∈ edges, e.target ≠ v) : IsValues edges root step v [root] where
  nonempty := List.cons_ne_nil _ _
  mem_iff b := by
    rw [List.mem_singleton]
    constructor
    · rintro rfl
      exact ⟨[], .root h, rfl⟩
    · rintro ⟨labels, hchain, rfl⟩
      cases hchain with
      | root => rfl
      | extend he => exact absurd rfl (h _ he)

theorem exists_chain (h : IsValues edges root step v values) : ∃ labels, Chain edges v labels := by
  obtain ⟨b, hb⟩ := List.exists_mem_of_ne_nil _ h.nonempty
  obtain ⟨labels, hchain, -⟩ := (h.mem_iff b).mp hb
  exact ⟨labels, hchain⟩

variable [DecidableEq κ] [DecidableEq β]

/-- Every entry has the values of its node. -/
def Known (edges : List (Edge κ ε)) (root : β) (step : β → ε → β) (memo : List (κ × List β)) : Prop :=
  ∀ v values, get memo v = some values → IsValues edges root step v values

omit [DecidableEq β] in
theorem Known.set {memo : List (κ × List β)} (h : Known edges root step memo)
    (hvalues : IsValues edges root step v values) : Known edges root step (set v values memo) := by
  intro u values' hu
  rw [get_set] at hu
  split_ifs at hu with heq
  · cases hu
    exact heq ▸ hvalues
  · exact h u values' hu

theorem mem_foldl_add {bs : List β} {label : ε} {x : β} :
    x ∈ bs.foldl (fun values b => add values (step b label)) values ↔ x ∈ values ∨ ∃ b ∈ bs, step b label = x := by
  have hadd : ∀ {values : List β} {b : β}, x ∈ add values b ↔ x ∈ values ∨ b = x := by
    intro values b
    unfold add
    split_ifs with h
    · exact ⟨.inl, fun hx => hx.elim id fun heq => heq ▸ h⟩
    · rw [List.mem_append, List.mem_singleton, eq_comm (a := b)]
  induction bs generalizing values with
  | nil => simp
  | cons b bs ih =>
    refine ih.trans ?_
    rw [hadd, List.exists_mem_cons_iff, or_assoc]

/-- The step of the search: what it finds along some edges to a node, when it finds the values of the nodes these come
from. -/
theorem mem_foldl_sources (search : κ → List (κ × List β) → List β × List (κ × List β)) {es : List (Edge κ ε)}
    (hsearch : ∀ e ∈ es, ∀ memo, Known edges root step memo →
      IsValues edges root step e.source (search e.source memo).1 ∧ Known edges root step (search e.source memo).2)
    {acc : List β × List (κ × List β)} (hacc : Known edges root step acc.2) :
    Known edges root step (es.foldl (along step search) acc).2 ∧
      ∀ b, b ∈ (es.foldl (along step search) acc).1 ↔ b ∈ acc.1 ∨
        ∃ e ∈ es, ∃ labels, Chain edges e.source labels ∧ (labels ++ [e.label]).foldl step root = b := by
  induction es generalizing acc with
  | nil => exact ⟨hacc, fun b => by simp⟩
  | cons e es ih =>
    obtain ⟨hvalues, hknown⟩ := hsearch e List.mem_cons_self acc.2 hacc
    have hnext : Known edges root step (along step search acc e).2 := hknown
    obtain ⟨hrest, hmem⟩ := ih (fun e he => hsearch e (List.mem_cons_of_mem _ he)) hnext
    refine ⟨hrest, fun b => (hmem b).trans ?_⟩
    rw [along, mem_foldl_add, List.exists_mem_cons_iff, or_assoc]
    have hedge : (∃ b' ∈ (search e.source acc.2).1, step b' e.label = b) ↔
        ∃ labels, Chain edges e.source labels ∧ (labels ++ [e.label]).foldl step root = b := by
      simp only [hvalues.mem_iff, List.foldl_append, List.foldl_cons, List.foldl_nil]
      constructor
      · rintro ⟨_, ⟨labels, hchain, rfl⟩, heq⟩
        exact ⟨labels, hchain, heq⟩
      · rintro ⟨labels, hchain, heq⟩
        exact ⟨_, ⟨labels, hchain, rfl⟩, heq⟩
    rw [hedge]

/-- In a graph without cycles, the search finds the values of the chains to a node, when what it has found before is
right and the nodes it is on the way from are those the node leads to. -/
theorem collect_spec (hacyclic : Acyclic edges) {visiting : List κ} {memo : List (κ × List β)}
    (hmemo : Known edges root step memo) (hvisiting : ∀ u ∈ visiting, Relation.TransGen (Leads edges) v u) :
    IsValues edges root step v (collect edges root step v visiting memo).1 ∧
      Known edges root step (collect edges root step v visiting memo).2 := by
  induction hn : (edges.filter (·.target ∉ visiting)).length using Nat.strongRecOn
    generalizing v visiting memo with
  | _ n ih =>
    rw [collect]
    split
    · rename_i cached hcached
      exact ⟨hmemo v cached hcached, hmemo⟩
    · have hv : v ∉ visiting := fun hmem => hacyclic v (hvisiting v hmem)
      rw [dif_neg hv]
      split_ifs with hincoming
      · have hroot : IsValues edges root step v [root] := isValues_root fun e he htarget =>
          List.filter_eq_nil_iff.mp hincoming e he (decide_eq_true htarget)
        exact ⟨hroot, hmemo.set hroot⟩
      · have hsearch : ∀ e ∈ edges.filter (·.target = v), ∀ memo, Known edges root step memo →
            IsValues edges root step e.source (collect edges root step e.source (v :: visiting) memo).1 ∧
              Known edges root step (collect edges root step e.source (v :: visiting) memo).2 := by
          intro e he memo hmemo
          obtain ⟨he, htarget⟩ := List.mem_filter.mp he
          have hleads : Leads edges e.source v := ⟨e, he, rfl, of_decide_eq_true htarget⟩
          refine ih _ (hn ▸ length_filter_visiting edges hincoming hv) hmemo (fun u hu => ?_) rfl
          obtain rfl | hu := List.mem_cons.mp hu
          · exact .single hleads
          · exact .head hleads (hvisiting u hu)
        have hstart : Known edges root step (([] : List β), memo).2 := hmemo
        obtain ⟨hknown, hmem⟩ := mem_foldl_sources
          (fun u memo => collect edges root step u (v :: visiting) memo) hsearch hstart
        have hvalues : IsValues edges root step v ((edges.filter (·.target = v)).foldl
            (along step fun u memo => collect edges root step u (v :: visiting) memo) ([], memo)).1 := by
          refine ⟨?_, fun b => (hmem b).trans ?_⟩
          · obtain ⟨e, he⟩ := List.exists_mem_of_ne_nil _ hincoming
            obtain ⟨labels, hchain⟩ := exists_chain (hsearch e he memo hmemo).1
            exact List.ne_nil_of_mem ((hmem _).mpr (.inr ⟨e, he, labels, hchain, rfl⟩))
          · constructor
            · rintro (hnil | ⟨e, he, labels, hchain, heq⟩)
              · cases hnil
              · obtain ⟨he, htarget⟩ := List.mem_filter.mp he
                exact ⟨_, of_decide_eq_true htarget ▸ .extend he hchain, heq⟩
            · rintro ⟨labels, hchain, heq⟩
              cases hchain with
              | root hroot =>
                obtain ⟨e, he⟩ := List.exists_mem_of_ne_nil _ hincoming
                obtain ⟨he, htarget⟩ := List.mem_filter.mp he
                exact absurd (of_decide_eq_true htarget) (hroot e he)
              | extend he hchain => exact .inr ⟨_, List.mem_filter.mpr ⟨he, decide_eq_true rfl⟩, _, hchain, heq⟩
        exact ⟨hvalues, hknown.set hvalues⟩

theorem isValues_collect (hacyclic : Acyclic edges) (v : κ) :
    IsValues edges root step v (collect edges root step v [] []).1 := by
  have hempty : Known edges root step [] := fun _ _ h => nomatch h
  exact (collect_spec hacyclic hempty fun u hu => absurd hu List.not_mem_nil).1

end Found

end ChainValues
