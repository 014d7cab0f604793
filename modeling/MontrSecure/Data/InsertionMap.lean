import Mathlib.Data.List.Basic

/-!
# Maps in the order of insertion

A map as the list of its entries. A new value for a key takes the place of the old one.
-/

namespace InsertionMap

variable {κ ν : Type} [DecidableEq κ]

/-- `map.set(key, value)`. -/
def set (k : κ) (v : ν) : List (κ × ν) → List (κ × ν)
  | [] => [(k, v)]
  | e :: m => if e.1 = k then (k, v) :: m else e :: set k v m

/-- `map.get(key)`. -/
def get (m : List (κ × ν)) (k : κ) : Option ν := (m.find? (·.1 = k)).map (·.2)

@[simp]
theorem get_nil (k : κ) : get ([] : List (κ × ν)) k = none := rfl

theorem get_cons (e : κ × ν) (m : List (κ × ν)) (k : κ) :
    get (e :: m) k = if e.1 = k then some e.2 else get m k := by
  unfold get
  by_cases h : e.1 = k <;> simp [h]

theorem get_set (k : κ) (v : ν) (m : List (κ × ν)) (k' : κ) :
    get (set k v m) k' = if k = k' then some v else get m k' := by
  induction m with
  | nil => exact get_cons _ _ _
  | cons e m ih =>
    rw [set]
    split_ifs with he hk hk
    · rw [get_cons, if_pos hk]
    · rw [get_cons, if_neg hk, get_cons, if_neg (he ▸ hk)]
    · rw [get_cons, ih, if_pos hk, if_neg (hk ▸ he)]
    · rw [get_cons, ih, if_neg hk, get_cons]

/-- Entries are added under the keys that are not there yet. -/
theorem get_foldl_add (entries m : List (κ × ν)) (k : κ) :
    get (entries.foldl (fun m e => if (get m e.1).isSome then m else set e.1 e.2 m) m) k =
      (get m k).or (get entries k) := by
  induction entries generalizing m with
  | nil => exact (Option.or_none).symm
  | cons e entries ih =>
    rw [List.foldl_cons, ih, get_cons]
    split_ifs with hsome hk hk
    · obtain ⟨v, hv⟩ := Option.isSome_iff_exists.mp hsome
      rw [← hk, hv, Option.some_or, Option.some_or]
    · rfl
    · have hnone : get m e.1 = none := by simpa using hsome
      rw [get_set, if_pos hk, ← hk, hnone, Option.some_or, Option.none_or]
    · rw [get_set, if_neg hk]

end InsertionMap
