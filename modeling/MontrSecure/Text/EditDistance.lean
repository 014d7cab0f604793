import Mathlib.Order.Bounds.Basic
import Mathlib.Order.MinMax
import Mathlib.Tactic.SplitIfs

/-!
# The distance of two texts

`Edits n s t` says that `n` single insertions, deletions and replacements, one after the other, lead from `s` to `t`.
An alignment goes through both texts at once and never edits a place twice. The cheapest alignment is computed by
recursion on the texts, and it is the least number of edits (`editDist_isLeast`).
-/

namespace Text

variable {α : Type}

/-- One edit. -/
inductive Edit : List α → List α → Prop
  | insert (l : List α) (c : α) (r : List α) : Edit (l ++ r) (l ++ c :: r)
  | delete (l : List α) (c : α) (r : List α) : Edit (l ++ c :: r) (l ++ r)
  | replace (l : List α) (c d : α) (r : List α) : Edit (l ++ c :: r) (l ++ d :: r)

/-- So many edits, one after the other. -/
inductive Edits : ℕ → List α → List α → Prop
  | refl (s : List α) : Edits 0 s s
  | step {n : ℕ} {s t u : List α} (h : Edits n s t) (hstep : Edit t u) : Edits (n + 1) s u

/-- The texts side by side, with what it costs to turn one into the other. -/
inductive Alignment : List α → List α → ℕ → Prop
  | nil : Alignment [] [] 0
  | same (c : α) {s t : List α} {n : ℕ} (h : Alignment s t n) : Alignment (c :: s) (c :: t) n
  | replace (c d : α) {s t : List α} {n : ℕ} (h : Alignment s t n) : Alignment (c :: s) (d :: t) (n + 1)
  | delete (c : α) {s t : List α} {n : ℕ} (h : Alignment s t n) : Alignment (c :: s) t (n + 1)
  | insert (d : α) {s t : List α} {n : ℕ} (h : Alignment s t n) : Alignment s (d :: t) (n + 1)

section

variable [DecidableEq α]

/-- The distance of `c :: s` from a text, by the distance `f` of `s` from texts. -/
def distRow (c : α) (f : List α → ℕ) : List α → ℕ
  | [] => f [] + 1
  | d :: t => min (f (d :: t) + 1) (min (distRow c f t + 1) (f t + if c = d then 0 else 1))

/-- The cost of the cheapest alignment. -/
def editDist : List α → List α → ℕ
  | [] => List.length
  | c :: s => distRow c (editDist s)

end

/-! ## Edits -/

variable {s t u : List α} {n m : ℕ}

theorem Edit.cons (c : α) (h : Edit s t) : Edit (c :: s) (c :: t) := by
  cases h with
  | insert l d r => exact .insert (c :: l) d r
  | delete l d r => exact .delete (c :: l) d r
  | replace l d e r => exact .replace (c :: l) d e r

theorem Edit.reverse (h : Edit s t) : Edit s.reverse t.reverse := by
  cases h with
  | insert l c r => simpa using Edit.insert r.reverse c l.reverse
  | delete l c r => simpa using Edit.delete r.reverse c l.reverse
  | replace l c d r => simpa using Edit.replace r.reverse c d l.reverse

theorem Edit.length_le (h : Edit s t) : s.length ≤ t.length + 1 ∧ t.length ≤ s.length + 1 := by
  cases h <;> simp only [List.length_append, List.length_cons] <;> omega

namespace Edits

theorem cons (c : α) (h : Edits n s t) : Edits n (c :: s) (c :: t) := by
  induction h with
  | refl s => exact .refl _
  | step _ hstep ih => exact .step ih (hstep.cons c)

theorem reverse (h : Edits n s t) : Edits n s.reverse t.reverse := by
  induction h with
  | refl s => exact .refl _
  | step _ hstep ih => exact .step ih hstep.reverse

/-- An edit changes the length by one at most. -/
theorem length_le (h : Edits n s t) : s.length ≤ t.length + n ∧ t.length ≤ s.length + n := by
  induction h with
  | refl s => exact ⟨Nat.le_refl _, Nat.le_refl _⟩
  | step _ hstep ih =>
    have := hstep.length_le
    omega

theorem zero_iff : Edits 0 s t ↔ s = t := by
  constructor
  · intro h
    cases h
    rfl
  · rintro rfl
    exact .refl s

end Edits

/-! ## Alignments -/

namespace Alignment

/-- What an alignment costs, so many edits do. -/
theorem edits (h : Alignment s t n) : Edits n s t := by
  induction h with
  | nil => exact .refl []
  | same c _ ih => exact ih.cons c
  | replace c d _ ih => exact .step (ih.cons c) (.replace [] c d _)
  | delete c _ ih => exact .step (ih.cons c) (.delete [] c _)
  | insert d _ ih => exact .step ih (.insert [] d _)

theorem refl (s : List α) : Alignment s s 0 := by
  induction s with
  | nil => exact .nil
  | cons c s ih => exact .same c ih

/-- An edit behind a prefix is one of the alignment of what follows the prefix. -/
theorem edit_append {r r' : List α} (hr : ∀ {s n}, Alignment s r n → ∃ m ≤ n + 1, Alignment s r' m) (l : List α)
    (h : Alignment s (l ++ r) n) : ∃ m ≤ n + 1, Alignment s (l ++ r') m := by
  generalize ht : l ++ r = t at h
  induction h generalizing l with
  | nil =>
    obtain ⟨rfl, rfl⟩ := List.append_eq_nil_iff.mp ht
    exact hr .nil
  | same c h ih =>
    rcases l with _ | ⟨d, l⟩
    · subst ht
      exact hr (.same c h)
    · obtain ⟨rfl, htail⟩ := List.cons.inj ht
      obtain ⟨m, hm, hl⟩ := ih l htail
      exact ⟨m, hm, .same d hl⟩
  | replace c e h ih =>
    rcases l with _ | ⟨d, l⟩
    · subst ht
      exact hr (.replace c e h)
    · obtain ⟨rfl, htail⟩ := List.cons.inj ht
      obtain ⟨m, hm, hl⟩ := ih l htail
      exact ⟨m + 1, Nat.succ_le_succ hm, .replace c d hl⟩
  | delete c h ih =>
    obtain ⟨m, hm, hl⟩ := ih l ht
    exact ⟨m + 1, Nat.succ_le_succ hm, .delete c hl⟩
  | insert e h ih =>
    rcases l with _ | ⟨d, l⟩
    · subst ht
      exact hr (.insert e h)
    · obtain ⟨rfl, htail⟩ := List.cons.inj ht
      obtain ⟨m, hm, hl⟩ := ih l htail
      exact ⟨m + 1, Nat.succ_le_succ hm, .insert d hl⟩

/-- What the first character is aligned with is deleted. -/
theorem tail {c : α} {r : List α} (h : Alignment s (c :: r) n) : ∃ m ≤ n + 1, Alignment s r m := by
  generalize ht : c :: r = t at h
  induction h with
  | nil => cases ht
  | same d h =>
    obtain ⟨rfl, rfl⟩ := List.cons.inj ht
    exact ⟨_, Nat.le_refl _, .delete c h⟩
  | replace d e h =>
    obtain ⟨rfl, rfl⟩ := List.cons.inj ht
    exact ⟨_, Nat.le_succ _, .delete d h⟩
  | delete d _ ih =>
    obtain ⟨m, hm, hr⟩ := ih ht
    exact ⟨m + 1, Nat.succ_le_succ hm, .delete d hr⟩
  | insert d h =>
    obtain ⟨rfl, rfl⟩ := List.cons.inj ht
    exact ⟨_, Nat.le_add_right _ 2, h⟩

/-- What the first character is aligned with is replaced. -/
theorem replace_head {c : α} (d : α) {r : List α} (h : Alignment s (c :: r) n) :
    ∃ m ≤ n + 1, Alignment s (d :: r) m := by
  generalize ht : c :: r = t at h
  induction h with
  | nil => cases ht
  | same e h =>
    obtain ⟨rfl, rfl⟩ := List.cons.inj ht
    exact ⟨_, Nat.le_refl _, .replace c d h⟩
  | replace e _ h =>
    obtain ⟨rfl, rfl⟩ := List.cons.inj ht
    exact ⟨_, Nat.le_succ _, .replace e d h⟩
  | delete e _ ih =>
    obtain ⟨m, hm, hr⟩ := ih ht
    exact ⟨m + 1, Nat.succ_le_succ hm, .delete e hr⟩
  | insert e h =>
    obtain ⟨rfl, rfl⟩ := List.cons.inj ht
    exact ⟨_, Nat.le_succ _, .insert d h⟩

/-- An edit costs an alignment one at most. -/
theorem edit (h : Alignment s t n) (hstep : Edit t u) : ∃ m ≤ n + 1, Alignment s u m := by
  cases hstep with
  | insert l c r => exact edit_append (fun h => ⟨_, Nat.le_refl _, .insert c h⟩) l h
  | delete l c r => exact edit_append tail l h
  | replace l c d r => exact edit_append (replace_head d) l h

end Alignment

/-- No edits are fewer than what an alignment costs. -/
theorem Edits.exists_alignment (h : Edits n s t) : ∃ m ≤ n, Alignment s t m := by
  induction h with
  | refl s => exact ⟨0, Nat.le_refl 0, .refl s⟩
  | step _ hstep ih =>
    obtain ⟨m, hm, h⟩ := ih
    obtain ⟨m', hm', h'⟩ := h.edit hstep
    exact ⟨m', by omega, h'⟩

/-! ## The distance -/

variable [DecidableEq α]

theorem editDist_nil_right (s : List α) : editDist s [] = s.length := by
  induction s with
  | nil => rfl
  | cons c s ih => rw [editDist, distRow, ih, List.length_cons]

theorem editDist_cons_cons (c d : α) (s t : List α) : editDist (c :: s) (d :: t) =
    min (editDist s (d :: t) + 1) (min (editDist (c :: s) t + 1) (editDist s t + if c = d then 0 else 1)) := rfl

theorem alignment_editDist (s t : List α) : Alignment s t (editDist s t) := by
  induction s generalizing t with
  | nil =>
    induction t with
    | nil => exact .nil
    | cons d t ih => exact .insert d ih
  | cons c s ihs =>
    induction t with
    | nil => exact .delete c (ihs [])
    | cons d t iht =>
      rw [editDist_cons_cons]
      rcases min_choice (editDist s (d :: t) + 1)
        (min (editDist (c :: s) t + 1) (editDist s t + if c = d then 0 else 1)) with h | h
      · rw [h]
        exact .delete c (ihs (d :: t))
      · rw [h]
        rcases min_choice (editDist (c :: s) t + 1) (editDist s t + if c = d then 0 else 1) with h | h
        · rw [h]
          exact .insert d iht
        · rw [h]
          split_ifs with hcd
          · subst hcd
            exact .same c (ihs t)
          · exact .replace c d (ihs t)

theorem Alignment.editDist_le (h : Alignment s t n) : editDist s t ≤ n := by
  induction h with
  | nil => exact Nat.le_refl 0
  | @same c s t n _ ih =>
    rw [editDist_cons_cons, if_pos rfl]
    omega
  | @replace c d s t n _ ih =>
    rw [editDist_cons_cons]
    split_ifs <;> omega
  | @delete c s t n _ ih =>
    rcases t with _ | ⟨d, t⟩
    · rw [editDist_nil_right] at ih ⊢
      exact Nat.succ_le_succ ih
    · rw [editDist_cons_cons]
      omega
  | @insert d s t n _ ih =>
    rcases s with _ | ⟨c, s⟩
    · exact Nat.succ_le_succ ih
    · rw [editDist_cons_cons]
      omega

/-- The distance is the least number of edits. -/
theorem editDist_isLeast (s t : List α) : IsLeast {n | Edits n s t} (editDist s t) := by
  refine ⟨(alignment_editDist s t).edits, fun n h => ?_⟩
  obtain ⟨m, hm, halign⟩ := h.exists_alignment
  exact halign.editDist_le.trans hm

example : editDist "kitten".toList "sitting".toList = 3 := by decide +kernel

theorem edits_editDist (s t : List α) : Edits (editDist s t) s t := (editDist_isLeast s t).1

theorem Edits.editDist_le (h : Edits n s t) : editDist s t ≤ n := (editDist_isLeast s t).2 h

/-- Texts can be read backwards. -/
theorem editDist_reverse (s t : List α) : editDist s.reverse t.reverse = editDist s t := by
  refine Nat.le_antisymm (edits_editDist s t).reverse.editDist_le ?_
  have h := (edits_editDist s.reverse t.reverse).reverse
  rw [List.reverse_reverse, List.reverse_reverse] at h
  exact h.editDist_le

theorem editDist_eq_zero_iff : editDist s t = 0 ↔ s = t := by
  constructor
  · intro h
    have := edits_editDist s t
    rw [h] at this
    exact Edits.zero_iff.mp this
  · rintro rfl
    exact Nat.le_zero.mp (Edits.refl s).editDist_le

end Text
