import Mathlib.Data.List.Nodup

/-!
# The first item of each key

A list without the items whose key an earlier one has. `mem_firstByKey` says which are kept, by what a search
for their key finds.
-/

namespace List

variable {α κ : Type} [DecidableEq κ] {key : α → κ} {l m : List α} {a : α}

/-- The items whose key no earlier item has. -/
def firstByKey (key : α → κ) : List α → List α
  | [] => []
  | a :: l => a :: (firstByKey key l).filter fun b => key b ≠ key a

/-- A search for a key finds the same item as before. -/
theorem find?_firstByKey (k : κ) :
    (l.firstByKey key).find? (key · = k) = l.find? (key · = k) := by
  induction l with
  | nil => rfl
  | cons a l ih =>
    unfold firstByKey
    by_cases h : key a = k
    · rw [List.find?_cons_of_pos (by simpa using h), List.find?_cons_of_pos (by simpa using h)]
    · rw [List.find?_cons_of_neg (by simpa using h), List.find?_cons_of_neg (by simpa using h), ← ih,
        List.find?_filter]
      congr 1
      funext b
      by_cases hb : key b = k
      · have hne : k ≠ key a := fun hk => h hk.symm
        simp [hb, hne]
      · simp [hb]

/-- What is kept is the first item of its key. -/
theorem mem_firstByKey : a ∈ l.firstByKey key ↔ l.find? (key · = key a) = some a := by
  induction l with
  | nil => simp [firstByKey]
  | cons b l ih =>
    unfold firstByKey
    rw [List.mem_cons, List.mem_filter, ih]
    by_cases h : key b = key a
    · rw [List.find?_cons_of_pos (by simpa using h), Option.some.injEq]
      constructor
      · rintro (rfl | ⟨-, hne⟩)
        · rfl
        · exact absurd h.symm (by simpa using hne)
      · exact fun hba => .inl hba.symm
    · rw [List.find?_cons_of_neg (by simpa using h)]
      constructor
      · rintro (rfl | ⟨hfind, -⟩)
        · exact absurd rfl h
        · exact hfind
      · exact fun hfind => .inr ⟨hfind, by simpa using fun hab => h hab.symm⟩

/-- Items that are kept have different keys. -/
theorem eq_of_mem_firstByKey {b : α} (ha : a ∈ l.firstByKey key) (hb : b ∈ l.firstByKey key)
    (h : key a = key b) : a = b := by
  rw [mem_firstByKey] at ha hb
  rw [h] at ha
  exact Option.some.inj (ha.symm.trans hb)

/-- Every key is kept. -/
theorem exists_mem_firstByKey (h : a ∈ l) : ∃ b ∈ l.firstByKey key, key b = key a ∧
    l.find? (key · = key a) = some b := by
  have hsome : (l.find? (key · = key a)).isSome = true :=
    List.find?_isSome.mpr ⟨a, h, by simp⟩
  obtain ⟨b, hb⟩ := Option.isSome_iff_exists.mp hsome
  have hkey : key b = key a := by simpa using List.find?_some hb
  exact ⟨b, mem_firstByKey.mpr (hkey ▸ hb), hkey, hb⟩

/-- It makes no difference when the items of the first part have been sorted out before. -/
theorem mem_firstByKey_append :
    a ∈ (l.firstByKey key ++ m).firstByKey key ↔ a ∈ (l ++ m).firstByKey key := by
  rw [mem_firstByKey, mem_firstByKey, List.find?_append, List.find?_append, find?_firstByKey]

end List
