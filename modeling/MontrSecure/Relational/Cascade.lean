import MontrSecure.Relational.Tables

/-!
# Deletions that cascade

A row that is deleted takes along the rows that belong to it, and the rows that belong to these, and the
others lose their references to what is gone. `Doomed` is what a deletion takes along. It is decided by following
the keys of a row to its owners, which ends because the tables of owners have a lower rank. What a second deletion
removes is what it would have taken along before the first one (`kept_sweep_sweep`).
-/

namespace Relational

/-- What a deletion does to the rows that refer to the deleted ones. -/
class Cascading (μ : Type) (κ : outParam Type) [Schema μ] where
  key : ∀ m : μ, Row m → κ
  /-- The keys that a row is deleted with (`onDelete: Cascade`). -/
  owners : ∀ m : μ, Row m → List (μ × κ)
  /-- The row without its references to keys that are gone (`onDelete: SetNull`). -/
  release : (μ × κ → Bool) → ∀ m : μ, Row m → Row m
  rank : μ → ℕ
  rank_lt : ∀ {m : μ} {r : Row m} {k : μ × κ}, k ∈ owners m r → rank k.1 < rank m
  conflict_of_key : ∀ {m : μ} {r s : Row m}, key m r = key m s → Schema.conflict m r s = true
  conflict_release : ∀ (gone : μ × κ → Bool) (m : μ) (r s : Row m),
    Schema.conflict m (release gone m r) (release gone m s) = Schema.conflict m r s
  key_release : ∀ (gone : μ × κ → Bool) (m : μ) (r : Row m), key m (release gone m r) = key m r
  owners_release : ∀ (gone : μ × κ → Bool) (m : μ) (r : Row m), owners m (release gone m r) = owners m r

export Cascading (key owners release rank)

variable {μ κ : Type} [Schema μ] [Cascading μ κ]

/-- The rows a deletion takes along: those that are selected, and those that belong to them. -/
inductive Doomed (db : Db μ) (selected : ∀ m : μ, Row m → Bool) : ∀ m : μ, Row m → Prop
  | selected {m : μ} {r : Row m} (h : selected m r = true) : Doomed db selected m r
  | owned {m : μ} {r : Row m} {k : μ × κ} {s : Row k.1} (hk : k ∈ owners m r) (hs : s ∈ (db k.1).rows)
    (hkey : key k.1 s = k.2) (h : Doomed db selected k.1 s) : Doomed db selected m r

section

variable [DecidableEq κ] (db : Db μ) (selected : ∀ m : μ, Row m → Bool)

/-- The rows that belong to a selected one over so many others at most. -/
def doomedWithin : ℕ → ∀ m : μ, Row m → Bool
  | 0, m, r => selected m r
  | n + 1, m, r => selected m r || (owners m r).any fun k =>
      (db k.1).rows.any fun s => decide (key k.1 s = k.2) && doomedWithin n k.1 s

/-- The rows a deletion takes along. -/
def doomed (m : μ) (r : Row m) : Bool := doomedWithin db selected (rank m) m r

/-- The keys that a deletion removes. -/
def goneKey (k : μ × κ) : Bool :=
  (db k.1).rows.any fun s => decide (key k.1 s = k.2) && doomed db selected k.1 s

/-- The database without the rows a deletion takes along. -/
def sweep : Db μ := fun m =>
  { rows := ((db m).rows.filter fun r => !doomed db selected m r).map (release (goneKey db selected) m)
    nodup := by
      refine List.pairwise_map.mpr (((db m).nodup.filter _).imp fun {r s} h => ?_)
      rw [Cascading.conflict_release, h] }

end

/-- The rows of one table that satisfy a condition. -/
def selecting [DecidableEq μ] (m : μ) (w : Where (Row m)) : ∀ m' : μ, Row m' → Bool :=
  Function.update (fun _ _ => false) m w.holds

/-- `deleteMany`. -/
def deleteCascading {ε : Type} [DecidableEq μ] [DecidableEq κ] (m : μ) (w : Where (Row m)) :
    Transaction (Db μ) ε ℕ := do
  let count ← query fun db => ((db m).rows.filter w.holds).length
  write fun db => sweep db (selecting m w)
  return count

/-! ## What is taken along -/

variable [DecidableEq κ] {db : Db μ} {selected other : ∀ m : μ, Row m → Bool} {m : μ} {r : Row m}

omit [DecidableEq κ] in
/-- What a deletion takes along, one that selects more takes along. -/
theorem Doomed.mono (h : Doomed db selected m r) (hr : r ∈ (db m).rows)
    (hother : ∀ m, ∀ r ∈ (db m).rows, selected m r = true → other m r = true) : Doomed db other m r := by
  induction h with
  | selected h => exact .selected (hother _ _ hr h)
  | owned hk hs hkey _ ih => exact .owned hk hs hkey (ih hs)

theorem doomed_of_doomedWithin {n : ℕ} (h : doomedWithin db selected n m r = true) : Doomed db selected m r := by
  induction n generalizing m r with
  | zero => exact .selected h
  | succ n ih =>
    obtain h | h := Bool.or_eq_true_iff.mp h
    · exact .selected h
    · obtain ⟨k, hk, h⟩ := List.any_eq_true.mp h
      obtain ⟨s, hs, h⟩ := List.any_eq_true.mp h
      obtain ⟨hkey, h⟩ := Bool.and_eq_true_iff.mp h
      exact .owned hk hs (of_decide_eq_true hkey) (ih h)

/-- As many owners follow one another as the rank of the table, at most. -/
theorem Doomed.within (h : Doomed db selected m r) {n : ℕ} (hn : rank m ≤ n) :
    doomedWithin db selected n m r = true := by
  induction h generalizing n with
  | selected h =>
    cases n with
    | zero => exact h
    | succ n => exact Bool.or_eq_true_iff.mpr (.inl h)
  | @owned m r k s hk hs hkey _ ih =>
    have hlt := Cascading.rank_lt hk
    obtain ⟨n, rfl⟩ := Nat.exists_eq_succ_of_ne_zero (by omega : n ≠ 0)
    refine Bool.or_eq_true_iff.mpr (.inr (List.any_eq_true.mpr ⟨k, hk, List.any_eq_true.mpr ⟨s, hs, ?_⟩⟩))
    exact Bool.and_eq_true_iff.mpr ⟨decide_eq_true hkey, ih (by omega)⟩

theorem doomed_iff : doomed db selected m r = true ↔ Doomed db selected m r :=
  ⟨doomed_of_doomedWithin, fun h => h.within (Nat.le_refl _)⟩

theorem goneKey_iff {k : μ × κ} :
    goneKey db selected k = true ↔ ∃ s ∈ (db k.1).rows, key k.1 s = k.2 ∧ Doomed db selected k.1 s := by
  simp [goneKey, doomed_iff]

/-! ## What is left -/

theorem mem_sweep : r ∈ (sweep db selected m).rows ↔
    ∃ s ∈ (db m).rows, ¬Doomed db selected m s ∧ release (goneKey db selected) m s = r := by
  simp [sweep, ← doomed_iff, and_assoc]

omit [DecidableEq κ] in
/-- A row is found by its key. -/
theorem eq_of_key {s : Row m} (hr : r ∈ (db m).rows) (hs : s ∈ (db m).rows) (h : key m r = key m s) : r = s :=
  Rows.eq_of_conflict hr hs (Cascading.conflict_of_key h) (Cascading.conflict_of_key h.symm)

/-- A table still has the key of a row. -/
def Kept (db : Db μ) (m : μ) (r : Row m) : Prop := ∃ s ∈ (db m).rows, key m s = key m r

theorem kept_sweep (hr : r ∈ (db m).rows) : Kept (sweep db selected) m r ↔ ¬Doomed db selected m r := by
  constructor
  · rintro ⟨_, hleft, hkey⟩
    obtain ⟨s, hs, hdoomed, rfl⟩ := mem_sweep.mp hleft
    rw [Cascading.key_release] at hkey
    rwa [← eq_of_key hs hr hkey]
  · exact fun h => ⟨_, mem_sweep.mpr ⟨r, hr, h, rfl⟩, Cascading.key_release _ m r⟩

/-- The rows that are left belong to the same rows as before. -/
theorem doomed_of_doomed_sweep (hother : ∀ gone m r, other m (release gone m r) = other m r)
    (h : Doomed (sweep db selected) other m (release (goneKey db selected) m r)) : Doomed db other m r := by
  generalize hr' : release (goneKey db selected) m r = r' at h
  induction h with
  | selected h =>
    subst hr'
    rw [hother] at h
    exact .selected h
  | owned hk hs hkey _ ih =>
    subst hr'
    rw [Cascading.owners_release] at hk
    obtain ⟨s, hmem, _, rfl⟩ := mem_sweep.mp hs
    rw [Cascading.key_release] at hkey
    exact .owned hk hmem hkey (ih rfl)

/-- A row that is left is taken along by what would have taken it along before. -/
theorem Doomed.sweep (hother : ∀ gone m r, other m (release gone m r) = other m r) (h : Doomed db other m r)
    (hr : ¬Doomed db selected m r) :
    Doomed (Relational.sweep db selected) other m (release (goneKey db selected) m r) := by
  induction h with
  | selected h => exact .selected ((hother _ _ _).trans h)
  | owned hk hs hkey _ ih =>
    -- The owner is left as well: it would have taken the row along.
    have hs' := fun hdoomed => hr (.owned hk hs hkey hdoomed)
    refine .owned ?_ (mem_sweep.mpr ⟨_, hs, hs', rfl⟩) ((Cascading.key_release _ _ _).trans hkey) (ih hs')
    rwa [Cascading.owners_release]

/-- What two deletions leave. -/
theorem kept_sweep_sweep (hother : ∀ gone m r, other m (release gone m r) = other m r) (hr : r ∈ (db m).rows) :
    Kept (sweep (sweep db selected) other) m r ↔ ¬Doomed db selected m r ∧ ¬Doomed db other m r := by
  constructor
  · rintro ⟨_, hleft, hkey⟩
    obtain ⟨_, hbetween, hsecond, rfl⟩ := mem_sweep.mp hleft
    obtain ⟨s, hs, hfirst, rfl⟩ := mem_sweep.mp hbetween
    rw [Cascading.key_release, Cascading.key_release] at hkey
    obtain rfl := eq_of_key hs hr hkey
    exact ⟨hfirst, fun h => hsecond (h.sweep hother hfirst)⟩
  · rintro ⟨hfirst, hsecond⟩
    have hmem := mem_sweep.mpr ⟨r, hr, hfirst, rfl⟩
    refine ⟨_, mem_sweep.mpr ⟨_, hmem, fun h => hsecond (doomed_of_doomed_sweep hother h), rfl⟩, ?_⟩
    rw [Cascading.key_release, Cascading.key_release]

end Relational
