import MontrSecure.Data.Table

/-!
# Rows with owners

The rows of a table belong to owners, and are read, changed and removed on behalf of one: under a key
that leads to the row of another owner, nothing is found.
-/

namespace Table

variable {κ ω ρ : Type} {key : ρ → κ} [DecidableEq κ] [DecidableEq ω]

section

variable (owner : ρ → ω) (t : Table key) (c : ω) (k : κ)

/-- The row with key `k`, if it belongs to `c`. -/
def getOf : Option ρ := (t.get? k).filter fun r => owner r = c

/-- The table without the row with key `k`. -/
def remove : Table key where
  rows := t.rows.filter fun r => key r ≠ k
  nodup := t.nodup.sublist (List.filter_sublist.map key)

/-- Change the row with key `k`, if it belongs to `c`, and return it. -/
def updateOf (data : ρ → ρ) : Option (ρ × Table key) :=
  (t.getOf owner c k).map fun r => (data r, t.replace (data r))

/-- Remove the row with key `k`, if it belongs to `c`. -/
def deleteOf : Option (Table key) := (t.getOf owner c k).map fun _ => t.remove k

end

variable {owner : ρ → ω} {t t' : Table key} {c : ω} {k k' : κ} {r : ρ} {data : ρ → ρ}

theorem getOf_eq_some_iff : t.getOf owner c k = some r ↔ t.get? k = some r ∧ owner r = c := by
  rw [getOf, Option.filter_eq_some_iff, decide_eq_true_eq]

/-- Removing a row does not disturb the others. -/
theorem get?_remove : (t.remove k).get? k' = if k = k' then none else t.get? k' := by
  rw [get?, remove, List.find?_filter]
  by_cases hk : k = k'
  · subst hk
    rw [if_pos rfl, List.find?_eq_none]
    intro x _
    simp
  · rw [if_neg hk, get?]
    congr 1
    funext x
    by_cases hx : key x = k'
    · have hne : key x ≠ k := fun h => hk (h.symm.trans hx)
      simp [hx, Ne.symm hk]
    · simp [hx]

theorem updateOf_eq_some_iff : t.updateOf owner c k data = some (r, t') ↔
    ∃ old, t.get? k = some old ∧ owner old = c ∧ data old = r ∧ t.replace r = t' := by
  rw [updateOf, Option.map_eq_some_iff]
  constructor
  · rintro ⟨old, hold, hpair⟩
    obtain ⟨hget, howner⟩ := getOf_eq_some_iff.mp hold
    obtain ⟨rfl, rfl⟩ := Prod.mk.inj hpair
    exact ⟨old, hget, howner, rfl, rfl⟩
  · rintro ⟨old, hget, howner, rfl, rfl⟩
    exact ⟨old, getOf_eq_some_iff.mpr ⟨hget, howner⟩, rfl⟩

/-- Lookup after a change that keeps keys. -/
theorem get?_updateOf (hkey : ∀ r, key (data r) = key r)
    (h : t.updateOf owner c k data = some (r, t')) :
    t'.get? k' = if k = k' then some r else t.get? k' := by
  obtain ⟨old, hget, -, rfl, rfl⟩ := updateOf_eq_some_iff.mp h
  have hrow : key (data old) = k := (hkey old).trans (key_of_get? hget)
  rw [get?_replace, hrow]
  by_cases hk : k = k'
  · rw [if_pos hk, if_pos hk, ← hk, hget]
    rfl
  · rw [if_neg hk, if_neg hk]

/-- Lookup after a removal. -/
theorem get?_deleteOf (h : t.deleteOf owner c k = some t') :
    t'.get? k' = if k = k' then none else t.get? k' := by
  obtain ⟨old, -, rfl⟩ := Option.map_eq_some_iff.mp h
  exact get?_remove

end Table
