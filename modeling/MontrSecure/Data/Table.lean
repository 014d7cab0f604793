import Mathlib.Data.List.Nodup

/-!
# Tables with a primary key

A table is a list of rows, in insertion order, in which no two rows have the same key. Rows are
inserted under a fresh key or rejected, inserted unless their key is taken, or replaced in place.
-/

variable {κ ρ : Type} {key : ρ → κ}

/-- Rows with pairwise different keys. -/
structure Table (key : ρ → κ) where
  /-- The rows, in insertion order. -/
  rows : List ρ
  /-- No two rows have the same key. -/
  nodup : (rows.map key).Nodup

namespace Table

/-- The table without rows. -/
def empty : Table key := { rows := [], nodup := List.nodup_nil }

@[ext]
theorem ext {t t' : Table key} (h : t.rows = t'.rows) : t = t' := by
  cases t
  cases t'
  cases h
  rfl

variable [DecidableEq κ]

/-- The row with key `k`. -/
def get? (t : Table key) (k : κ) : Option ρ := t.rows.find? fun r => key r = k

/-- Some row has key `k`. -/
def contains (t : Table key) (k : κ) : Bool := t.rows.any fun r => key r = k

/-- Insert unless the key is taken (`ON CONFLICT DO NOTHING`). -/
def insertNew (t : Table key) (r : ρ) : Table key :=
  if h : t.contains (key r) = true then t
  else
    { rows := t.rows ++ [r]
      nodup := by
        have hfresh : ∀ x ∈ t.rows, key x ≠ key r := by
          simpa [contains, List.any_eq_true] using h
        simpa [List.nodup_append, t.nodup] using hfresh }

/-- Insert, or reject when the key is taken. -/
def insert? (t : Table key) (r : ρ) : Option (Table key) :=
  if t.contains (key r) then none else some (t.insertNew r)

/-- Insert the rows whose keys are not taken, one after the other (`skipDuplicates`). -/
def insertMissing (t : Table key) (rs : List ρ) : Table key := rs.foldl insertNew t

/-- Insert all the rows, or reject when one of the keys is taken. -/
def insertAll? (t : Table key) : List ρ → Option (Table key)
  | [] => some t
  | r :: rs =>
    match t.insert? r with
    | none => none
    | some t' => t'.insertAll? rs

example : ((⟨[], by simp⟩ : Table (id : ℕ → ℕ)).insertMissing [1, 2, 1]).rows = [1, 2] := by decide +kernel

/-- Replace the row that has the key of `r`, if there is one. -/
def replace (t : Table key) (r : ρ) : Table key where
  rows := t.rows.map fun x => if key x = key r then r else x
  nodup := by
    have hkeys : (t.rows.map fun x => if key x = key r then r else x).map key = t.rows.map key := by
      rw [List.map_map]
      refine List.map_congr_left fun x _ => ?_
      by_cases h : key x = key r <;> simp [h]
    rw [hkeys]
    exact t.nodup

/-- Change rows in place; their keys stay. -/
def updateRows (t : Table key) (f : ρ → ρ) (h : ∀ r, key (f r) = key r) : Table key where
  rows := t.rows.map f
  nodup := by
    have hkeys : key ∘ f = key := funext h
    rw [List.map_map, hkeys]
    exact t.nodup

/-! ## Lookup -/

variable {t : Table key} {r x : ρ} {k : κ} {rs : List ρ}

theorem key_of_get? (h : t.get? k = some x) : key x = k := by
  simpa using List.find?_some h

theorem mem_of_get? (h : t.get? k = some x) : x ∈ t.rows := List.mem_of_find?_eq_some h

/-- A row is found under its key. -/
theorem get?_of_mem (h : x ∈ t.rows) : t.get? (key x) = some x := by
  obtain ⟨y, hy⟩ : ∃ y, t.get? (key x) = some y := by
    rw [← Option.isSome_iff_exists, get?, List.find?_isSome]
    exact ⟨x, h, by simp⟩
  have hkey : key y = key x := key_of_get? hy
  rw [hy, List.inj_on_of_nodup_map t.nodup (mem_of_get? hy) h hkey]

theorem contains_iff : t.contains k = true ↔ ∃ r ∈ t.rows, key r = k := by
  simp [contains, List.any_eq_true]

theorem contains_updateRows {f : ρ → ρ} (h : ∀ r, key (f r) = key r) :
    (t.updateRows f h).contains k = t.contains k := by
  have hsame : (fun r => decide (key r = k)) ∘ f = fun r => decide (key r = k) := by
    funext r
    rw [Function.comp_apply, h]
  rw [contains, contains, updateRows, List.any_map, hsame]

theorem get?_isSome_iff : (t.get? k).isSome = true ↔ t.contains k = true := by
  simp [get?, List.find?_isSome, contains_iff]

@[simp]
theorem get?_empty : (empty : Table key).get? k = none := rfl

/-! ## Insertion -/

theorem insertNew_of_contains (h : t.contains (key r) = true) : t.insertNew r = t := by
  simp [insertNew, h]

theorem rows_insertNew (h : t.contains (key r) = false) : (t.insertNew r).rows = t.rows ++ [r] := by
  simp [insertNew, h]

@[simp]
theorem contains_insertNew :
    (t.insertNew r).contains k = (t.contains k || decide (key r = k)) := by
  cases h : t.contains (key r) with
  | true =>
    rw [insertNew_of_contains h]
    by_cases hk : key r = k
    · simp [← hk, h]
    · simp [hk]
  | false => simp [contains, rows_insertNew h]

/-- Inserting does not disturb the rows with other keys. -/
theorem get?_insertNew_of_ne (h : key r ≠ k) : (t.insertNew r).get? k = t.get? k := by
  cases hc : t.contains (key r) with
  | true => rw [insertNew_of_contains hc]
  | false => simp [get?, rows_insertNew hc, h]

/-- A row inserted under a fresh key is found there. -/
theorem get?_insertNew_self (h : t.contains (key r) = false) :
    (t.insertNew r).get? (key r) = some r := by
  have hnone : t.get? (key r) = none := by
    rw [← Option.not_isSome_iff_eq_none, get?_isSome_iff]
    simp [h]
  rw [get?] at hnone
  simp [get?, rows_insertNew h, hnone]

/-- Lookup after inserting under a fresh key. -/
theorem get?_insertNew (h : t.contains (key r) = false) :
    (t.insertNew r).get? k = if key r = k then some r else t.get? k := by
  by_cases hk : key r = k
  · rw [if_pos hk, ← hk, get?_insertNew_self h]
  · rw [if_neg hk, get?_insertNew_of_ne hk]

/-- Inserting keeps the rows there are. -/
theorem get?_insertNew_of_some (h : t.get? k = some x) : (t.insertNew r).get? k = some x := by
  cases hc : t.contains (key r) with
  | true => rwa [insertNew_of_contains hc]
  | false =>
    rw [get?] at h
    simp [get?, rows_insertNew hc, h]

theorem contains_of_insert?_eq_none (h : t.insert? r = none) : t.contains (key r) = true := by
  by_contra hc
  simp [insert?, hc] at h

theorem insert?_eq_some_iff {t' : Table key} :
    t.insert? r = some t' ↔ t.contains (key r) = false ∧ t.insertNew r = t' := by
  unfold insert?
  split
  · rename_i h
    simp [h]
  · rename_i h
    simp [h]

theorem insert?_eq_none_iff : t.insert? r = none ↔ t.contains (key r) = true := by
  simp [insert?]

@[simp]
theorem insertMissing_cons :
    t.insertMissing (r :: rs) = (t.insertNew r).insertMissing rs := rfl

theorem contains_insertMissing_of_contains (h : t.contains k = true) :
    (t.insertMissing rs).contains k = true := by
  induction rs generalizing t with
  | nil => exact h
  | cons r rs ih => exact ih (by simp [h])

/-- After inserting, the keys of the rows inserted are taken. -/
theorem contains_insertMissing_of_mem (h : r ∈ rs) :
    (t.insertMissing rs).contains (key r) = true := by
  induction rs generalizing t with
  | nil => cases h
  | cons s rs ih =>
    obtain rfl | h := List.mem_cons.mp h
    · rw [insertMissing_cons]
      exact contains_insertMissing_of_contains (by simp)
    · exact ih h

/-- After inserting, a key leads to the row that was there, else to the first inserted. -/
theorem get?_insertMissing :
    (t.insertMissing rs).get? k = (t.get? k).or (rs.find? fun r => key r = k) := by
  induction rs generalizing t with
  | nil => simp [insertMissing]
  | cons r rs ih =>
    rw [insertMissing_cons, ih, List.find?_cons]
    by_cases hk : key r = k
    · cases hc : t.contains (key r) with
      | true =>
        obtain ⟨x, hx⟩ := Option.isSome_iff_exists.mp (get?_isSome_iff.mpr hc)
        rw [insertNew_of_contains hc, ← hk, hx]
        rfl
      | false =>
        have hnone : t.get? (key r) = none := by
          rw [← Option.not_isSome_iff_eq_none, get?_isSome_iff, hc]
          exact Bool.false_ne_true
        rw [get?_insertNew hc, if_pos hk, ← hk, hnone]
        simp
    · rw [get?_insertNew_of_ne hk]
      simp [hk]

/-- Inserting rows whose keys are all taken does nothing. -/
theorem insertMissing_of_contains (h : ∀ r ∈ rs, t.contains (key r) = true) :
    t.insertMissing rs = t := by
  induction rs generalizing t with
  | nil => rfl
  | cons r rs ih =>
    have hr : t.insertNew r = t := insertNew_of_contains (h r List.mem_cons_self)
    rw [insertMissing_cons, hr]
    exact ih fun s hs => h s (List.mem_cons_of_mem _ hs)

/-- Skipping duplicates makes insertion idempotent. -/
@[simp]
theorem insertMissing_insertMissing :
    (t.insertMissing rs).insertMissing rs = t.insertMissing rs :=
  insertMissing_of_contains fun _ hr => contains_insertMissing_of_mem hr

/-! ## Free keys -/

/-- None of the keys is taken, and no two of them are the same. -/
def Free (t : Table key) (ks : List κ) : Prop := ks.Nodup ∧ ∀ k ∈ ks, t.contains k = false

theorem free_nil : t.Free [] := ⟨List.nodup_nil, by simp⟩

theorem free_cons_iff {ks : List κ} :
    t.Free (key r :: ks) ↔ t.contains (key r) = false ∧ (t.insertNew r).Free ks := by
  simp only [Free, List.nodup_cons, List.forall_mem_cons, contains_insertNew, Bool.or_eq_false_iff,
    decide_eq_false_iff_not]
  constructor
  · rintro ⟨⟨hr, hks⟩, hfree, hrest⟩
    exact ⟨hfree, hks, fun k hk => ⟨hrest k hk, fun h => hr (h ▸ hk)⟩⟩
  · rintro ⟨hfree, hks, hrest⟩
    exact ⟨⟨fun hr => (hrest _ hr).2 rfl, hks⟩, hfree, fun k hk => (hrest k hk).1⟩

/-- Inserting all the rows succeeds when their keys are free, and then nothing is skipped. -/
theorem insertAll?_eq_some_iff {t' : Table key} :
    t.insertAll? rs = some t' ↔ t.Free (rs.map key) ∧ t.insertMissing rs = t' := by
  induction rs generalizing t with
  | nil => simp [insertAll?, free_nil, insertMissing]
  | cons r rs ih =>
    rw [insertAll?, List.map_cons, free_cons_iff, insertMissing_cons]
    cases hc : t.contains (key r) with
    | true => simp [insert?_eq_none_iff.mpr hc]
    | false => simp [insert?_eq_some_iff.mpr ⟨hc, rfl⟩, ih]

/-- What is inserted is a part of the rows; it is all of them when their keys are free. -/
theorem exists_rows_insertMissing (t : Table key) (rs : List ρ) :
    ∃ added, added.Sublist rs ∧ (t.insertMissing rs).rows = t.rows ++ added ∧
      (added = rs ↔ t.Free (rs.map key)) := by
  induction rs generalizing t with
  | nil => exact ⟨[], .slnil, by simp [insertMissing], by simp [free_nil]⟩
  | cons r rs ih =>
    rw [List.map_cons, free_cons_iff, insertMissing_cons]
    obtain ⟨added, hsub, hrows, hall⟩ := ih (t.insertNew r)
    cases hc : t.contains (key r) with
    | true =>
      rw [insertNew_of_contains hc] at hrows ⊢
      refine ⟨added, hsub.cons _, hrows, ?_⟩
      -- the first row is skipped
      simp only [reduceCtorEq, false_and, iff_false]
      rintro rfl
      have hlength : rs.length + 1 ≤ rs.length := by simpa using hsub.length_le
      omega
    | false =>
      refine ⟨r :: added, hsub.cons_cons _, ?_, ?_⟩
      · rw [hrows, rows_insertNew hc, List.append_assoc]
        rfl
      · simp [hall]

theorem rows_insertMissing_of_free (h : t.Free (rs.map key)) :
    (t.insertMissing rs).rows = t.rows ++ rs := by
  obtain ⟨added, -, hrows, hall⟩ := exists_rows_insertMissing t rs
  rw [hrows, hall.mpr h]

/-- A row was there, or is inserted under a key that was free. -/
theorem mem_insertNew (h : x ∈ (t.insertNew r).rows) :
    x ∈ t.rows ∨ x = r ∧ t.contains (key r) = false := by
  cases hc : t.contains (key r) with
  | true => exact .inl (insertNew_of_contains hc ▸ h)
  | false =>
    rw [rows_insertNew hc, List.mem_append, List.mem_singleton] at h
    exact h.imp_right fun hx => ⟨hx, rfl⟩

theorem mem_insertMissing (h : x ∈ (t.insertMissing rs).rows) :
    x ∈ t.rows ∨ x ∈ rs ∧ t.contains (key x) = false := by
  induction rs generalizing t with
  | nil => exact .inl h
  | cons r rs ih =>
    obtain hx | ⟨hx, hfree⟩ := ih h
    · obtain hx | ⟨rfl, hfree⟩ := mem_insertNew hx
      · exact .inl hx
      · exact .inr ⟨List.mem_cons_self, hfree⟩
    · rw [contains_insertNew, Bool.or_eq_false_iff] at hfree
      exact .inr ⟨List.mem_cons_of_mem _ hx, hfree.1⟩

/-- Values are read back, whatever the order, exactly when their keys were free and each of them
survives its row. -/
theorem perm_insertMissing_iff {α : Type*} {toRow : α → ρ} {fromRow : ρ → α} {idOf : α → κ}
    (hkey : ∀ a, key (toRow a) = idOf a) (hid : ∀ r, idOf (fromRow r) = key r) {p : ρ → Bool}
    {as : List α} (hold : ∀ r ∈ t.rows, p r = false) (hnew : ∀ a ∈ as, p (toRow a) = true) :
    (((t.insertMissing (as.map toRow)).rows.filter p).map fromRow).Perm as ↔
      t.Free (as.map idOf) ∧ ∀ a ∈ as, fromRow (toRow a) = a := by
  obtain ⟨added, hsub, hrows, hall⟩ := exists_rows_insertMissing t (as.map toRow)
  have hkeys : (as.map toRow).map key = as.map idOf := by simp [hkey]
  have hlisted : (t.insertMissing (as.map toRow)).rows.filter p = added := by
    rw [hrows, List.filter_append, List.filter_eq_nil_iff.mpr (by simpa using hold), List.nil_append,
      List.filter_eq_self]
    intro r hr
    obtain ⟨a, ha, rfl⟩ := List.mem_map.mp (hsub.subset hr)
    exact hnew a ha
  rw [hkeys] at hall
  rw [hlisted]
  constructor
  · intro hperm
    have hadded : added = as.map toRow := by
      refine hsub.eq_of_length ?_
      simpa using hperm.length_eq
    have hfree := hall.mp hadded
    refine ⟨hfree, fun a ha => ?_⟩
    -- what is read back as `a` is the row of a value with the same key
    have hmem := hperm.mem_iff.mpr ha
    simp only [hadded, List.map_map, List.mem_map, Function.comp_apply] at hmem
    obtain ⟨b, hb, hba⟩ := hmem
    have hsame : idOf b = idOf a := by rw [← hkey, ← hid, hba]
    have hab : b = a := List.inj_on_of_nodup_map hfree.1 hb ha hsame
    rwa [hab] at hba
  · rintro ⟨hfree, hback⟩
    rw [hall.mpr hfree, List.map_map]
    exact .of_eq ((List.map_congr_left hback).trans (List.map_id as))

/-! ## Replacement -/

private theorem find?_map_replace (rows : List ρ) (r : ρ) (k : κ) :
    (rows.map fun x => if key x = key r then r else x).find? (fun x => key x = k) =
      if key r = k then (rows.find? fun x => key x = k).map fun _ => r
      else rows.find? fun x => key x = k := by
  induction rows with
  | nil => simp
  | cons x rows ih =>
    rw [List.map_cons, List.find?_cons, List.find?_cons, ih]
    by_cases hx : key x = key r
    · by_cases hk : key r = k <;> simp [hx, hk]
    · by_cases hk : key r = k
      · have hxk : key x ≠ k := hk ▸ hx
        simp [hk, hxk]
      · by_cases hxk : key x = k
        · have hkr : k ≠ key r := fun h => hk h.symm
          simp [hk, hxk, hkr]
        · simp [hx, hk, hxk]

/-- Replacing changes the row with that key, if there is one, and no other. -/
theorem get?_replace :
    (t.replace r).get? k = if key r = k then (t.get? k).map fun _ => r else t.get? k :=
  find?_map_replace t.rows r k

@[simp]
theorem contains_replace : (t.replace r).contains k = t.contains k := by
  rw [Bool.eq_iff_iff, ← get?_isSome_iff, ← get?_isSome_iff, get?_replace]
  by_cases h : key r = k <;> simp [h]

theorem mem_replace (h : x ∈ (t.replace r).rows) : x = r ∨ x ∈ t.rows := by
  simp only [replace, List.mem_map] at h
  obtain ⟨y, hy, rfl⟩ := h
  by_cases hk : key y = key r
  · simp [hk]
  · simp [hk, hy]

end Table
