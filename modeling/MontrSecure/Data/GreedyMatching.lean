import Mathlib.Data.List.Nodup
import Mathlib.Data.List.Perm.Subperm
import Mathlib.Order.Bounds.Basic

/-!
# Matchings that are made one after the other

Items of one list are paired with compatible items of another, each with the first whose key is not used yet. The
pairings that this gives, over all orders of the two lists, are exactly the maximal ones.
-/

namespace Matching

variable {φ ε κ : Type*}

/-- A pairing that no pair can be added to. The keys of the right items are used once, and `rest` is what stays over on
the left. -/
structure IsMaximal (compat : φ → ε → Bool) (key : ε → κ) (left : List φ) (right : List ε) (pairs : List (φ × ε))
    (rest : List φ) : Prop where
  perm : (pairs.map Prod.fst ++ rest).Perm left
  mem : ∀ p ∈ pairs, p.2 ∈ right
  compatible : ∀ p ∈ pairs, compat p.1 p.2 = true
  nodup : (pairs.map fun p => key p.2).Nodup
  maximal : ∀ f ∈ rest, ∀ e ∈ right, compat f e = true → key e ∈ pairs.map fun p => key p.2

/-- The sizes of the pairings of two lists. -/
def sizes (compat : φ → ε → Bool) (left : List φ) (right : List ε) : Set ℕ :=
  {n | ∃ pairs : List (φ × ε), pairs.length = n ∧ (pairs.map Prod.fst).Subperm left ∧
    (pairs.map Prod.snd).Subperm right ∧ ∀ p ∈ pairs, compat p.1 p.2 = true}

variable {compat : φ → ε → Bool} {key : ε → κ} {left left' : List φ} {right right' : List ε}
  {pairs : List (φ × ε)} {rest : List φ}

theorem IsMaximal.of_perm (h : IsMaximal compat key left right pairs rest) (hleft : left.Perm left')
    (hright : right.Perm right') : IsMaximal compat key left' right' pairs rest where
  perm := h.perm.trans hleft
  mem p hp := hright.mem_iff.mp (h.mem p hp)
  compatible := h.compatible
  nodup := h.nodup
  maximal f hf e he := h.maximal f hf e (hright.mem_iff.mpr he)

/-- The right items of a pairing are among those of the list, with their numbers. -/
theorem IsMaximal.exists_right (h : IsMaximal compat key left right pairs rest) :
    ∃ others, right.Perm (pairs.map Prod.snd ++ others) := by
  have hnodup : (pairs.map Prod.snd).Nodup := by
    have hkeys := h.nodup
    rw [show (fun p : φ × ε => key p.2) = key ∘ Prod.snd from rfl, ← List.map_map] at hkeys
    exact hkeys.of_map
  have hsubset : pairs.map Prod.snd ⊆ right := by
    intro e he
    obtain ⟨p, hp, rfl⟩ := List.mem_map.mp he
    exact h.mem p hp
  obtain ⟨l, hperm, hsub⟩ := List.subperm_of_subset hnodup hsubset
  obtain ⟨others, hothers⟩ := hsub.exists_perm_append
  exact ⟨others, hothers.trans (hperm.append_right others)⟩

variable [DecidableEq κ]

/-- Pair each item with the first compatible one whose key is not used. -/
def assign (compat : φ → ε → Bool) (key : ε → κ) (right : List ε) : List κ → List φ → List (φ × ε) × List φ
  | _, [] => ([], [])
  | used, f :: fs =>
    match right.find? fun e => key e ∉ used && compat f e with
    | some e => ((f, e) :: (assign compat key right (key e :: used) fs).1, (assign compat key right (key e :: used) fs).2)
    | none => ((assign compat key right used fs).1, f :: (assign compat key right used fs).2)

section Assign

variable {used : List κ} {f : φ} {e : ε} {fs : List φ}

theorem assign_of_some (h : (right.find? fun e => key e ∉ used && compat f e) = some e) :
    assign compat key right used (f :: fs) =
      ((f, e) :: (assign compat key right (key e :: used) fs).1, (assign compat key right (key e :: used) fs).2) := by
  rw [assign, h]

theorem assign_of_none (h : (right.find? fun e => key e ∉ used && compat f e) = none) :
    assign compat key right used (f :: fs) =
      ((assign compat key right used fs).1, f :: (assign compat key right used fs).2) := by
  rw [assign, h]

/-- What is made from some used keys on is a pairing with other keys, and nothing can be added. -/
structure Extends (compat : φ → ε → Bool) (key : ε → κ) (right : List ε) (used : List κ) (fs : List φ)
    (pairs : List (φ × ε)) (rest : List φ) : Prop where
  perm : (pairs.map Prod.fst ++ rest).Perm fs
  mem : ∀ p ∈ pairs, p.2 ∈ right
  compatible : ∀ p ∈ pairs, compat p.1 p.2 = true
  nodup : (pairs.map fun p => key p.2).Nodup
  fresh : ∀ p ∈ pairs, key p.2 ∉ used
  maximal : ∀ f ∈ rest, ∀ e ∈ right, compat f e = true → key e ∈ used ∨ key e ∈ pairs.map fun p => key p.2

theorem extends_assign (used : List κ) (fs : List φ) :
    Extends compat key right used fs (assign compat key right used fs).1 (assign compat key right used fs).2 := by
  induction fs generalizing used with
  | nil => exact ⟨.refl _, by simp [assign], by simp [assign], by simp [assign], by simp [assign], by simp [assign]⟩
  | cons f fs ih =>
    rcases hfind : right.find? fun e => key e ∉ used && compat f e with _ | e
    · -- The item stays over.
      rw [assign_of_none hfind]
      have htail := ih used
      refine ⟨?_, htail.mem, htail.compatible, htail.nodup, htail.fresh, ?_⟩
      · exact List.perm_middle.trans (htail.perm.cons f)
      · rintro g (_ | ⟨_, hg⟩) e he hcompat
        · have hnone := List.find?_eq_none.mp hfind e he
          rw [hcompat, Bool.and_true, decide_eq_true_eq, not_not] at hnone
          exact .inl hnone
        · exact htail.maximal g hg e he hcompat
    · rw [assign_of_some hfind]
      have htail := ih (key e :: used)
      have hhit := List.find?_some hfind
      obtain ⟨hkey, hcompat⟩ := Bool.and_eq_true_iff.mp (show (decide (key e ∉ used) && compat f e) = true from hhit)
      have hfresh : key e ∉ used := of_decide_eq_true hkey
      refine ⟨htail.perm.cons f, ?_, ?_, ?_, ?_, ?_⟩
      · exact List.forall_mem_cons.mpr ⟨List.mem_of_find?_eq_some hfind, htail.mem⟩
      · exact List.forall_mem_cons.mpr ⟨hcompat, htail.compatible⟩
      · rw [List.map_cons, List.nodup_cons]
        refine ⟨fun hmem => ?_, htail.nodup⟩
        obtain ⟨p, hp, heq⟩ := List.mem_map.mp hmem
        exact htail.fresh p hp (heq ▸ List.mem_cons_self)
      · exact List.forall_mem_cons.mpr ⟨hfresh, fun p hp hused => htail.fresh p hp (List.mem_cons_of_mem _ hused)⟩
      · intro g hg e' he' hcompat'
        obtain hused | hpair := htail.maximal g hg e' he' hcompat'
        · obtain heq | hused := List.mem_cons.mp hused
          · exact .inr (by rw [List.map_cons, heq]; exact List.mem_cons_self)
          · exact .inl hused
        · exact .inr (List.mem_cons_of_mem _ hpair)

/-- Pairing one after the other gives a maximal pairing. -/
theorem isMaximal_assign (left : List φ) (right : List ε) :
    IsMaximal compat key left right (assign compat key right [] left).1 (assign compat key right [] left).2 := by
  have h : Extends compat key right [] left (assign compat key right [] left).1 (assign compat key right [] left).2 :=
    extends_assign [] left
  refine ⟨h.perm, h.mem, h.compatible, h.nodup, fun f hf e he hcompat => ?_⟩
  exact (h.maximal f hf e he hcompat).resolve_left List.not_mem_nil

/-- Pairs come out as they are given, when the right items stand in the same order. -/
theorem assign_pairs {done others : List ε} (hnodup : ((done ++ pairs.map Prod.snd).map key).Nodup)
    (hcompat : ∀ p ∈ pairs, compat p.1 p.2 = true)
    (hrest : ∀ f ∈ rest, ∀ e ∈ done ++ pairs.map Prod.snd ++ others, compat f e = true →
      key e ∈ (done ++ pairs.map Prod.snd).map key) (used : List κ) (hused : ∀ k, k ∈ used ↔ k ∈ done.map key) :
    assign compat key (done ++ pairs.map Prod.snd ++ others) used (pairs.map Prod.fst ++ rest) = (pairs, rest) := by
  induction pairs generalizing done used with
  | nil =>
    rw [List.map_nil, List.append_nil] at hrest
    rw [List.map_nil, List.append_nil, List.map_nil, List.nil_append]
    induction rest with
    | nil => rfl
    | cons f rest ih =>
      obtain ⟨hf, hrest⟩ := List.forall_mem_cons.mp hrest
      have hnone : ((done ++ others).find? fun e => key e ∉ used && compat f e) = none := by
        refine List.find?_eq_none.mpr fun e he => ?_
        rintro hboth
        obtain ⟨hkey, hfit⟩ := Bool.and_eq_true_iff.mp hboth
        exact of_decide_eq_true hkey ((hused _).mpr (hf e he hfit))
      rw [assign_of_none hnone, ih hrest]
  | cons p pairs ih =>
    obtain ⟨hp, hpairs⟩ := List.forall_mem_cons.mp hcompat
    have hsplit : done ++ (p :: pairs).map Prod.snd = (done ++ [p.2]) ++ pairs.map Prod.snd := by simp
    have hfresh : key p.2 ∉ done.map key := by
      rw [List.map_append, List.nodup_append] at hnodup
      exact fun hmem => hnodup.2.2 _ hmem _ List.mem_cons_self rfl
    have hfind : ((done ++ (p :: pairs).map Prod.snd ++ others).find? fun e => key e ∉ used && compat p.1 e) =
        some p.2 := by
      have hdone : ∀ e ∈ done, ¬((key e ∉ used && compat p.1 e) = true) := by
        intro e he hboth
        exact of_decide_eq_true (Bool.and_eq_true_iff.mp hboth).1 ((hused _).mpr (List.mem_map_of_mem he))
      have hhit : (decide (key p.2 ∉ used) && compat p.1 p.2) = true := by
        rw [hp, Bool.and_true, decide_eq_true_eq, hused]
        exact hfresh
      rw [List.append_assoc, List.find?_append, List.find?_eq_none.mpr hdone, Option.none_or, List.map_cons,
        List.cons_append, List.find?_cons, hhit]
    rw [show (p :: pairs).map Prod.fst ++ rest = p.1 :: (pairs.map Prod.fst ++ rest) from rfl, assign_of_some hfind,
      hsplit]
    rw [hsplit] at hnodup hrest
    rw [ih hnodup hpairs hrest (key p.2 :: used) fun k => ?_]
    rw [List.mem_cons, hused, List.map_append, List.mem_append, or_comm]
    simp

end Assign

/-- Every maximal pairing is made one after the other, in some order of both lists. -/
theorem IsMaximal.exists_order (h : IsMaximal compat key left right pairs rest) :
    ∃ left' right', left'.Perm left ∧ right'.Perm right ∧ assign compat key right' [] left' = (pairs, rest) := by
  obtain ⟨others, hothers⟩ := h.exists_right
  refine ⟨pairs.map Prod.fst ++ rest, [] ++ pairs.map Prod.snd ++ others, h.perm, hothers.symm, ?_⟩
  refine assign_pairs ?_ h.compatible (fun f hf e he hfit => ?_) [] fun k => Iff.rfl
  · rw [List.nil_append, List.map_map]
    exact h.nodup
  · rw [List.nil_append, List.map_map]
    exact h.maximal f hf e (hothers.mem_iff.mpr he) hfit

end Matching
