import MontrSecure.Relational.Tables

/-!
# Owners of rows

Rows that belong to owners, by a column or by the rows they refer to. A write is isolated for an owner
when it leaves every row of every other owner as it was. The rules of this module derive that for a
call from the rows it selects and the rows it writes.
-/

namespace Relational

variable {μ : Type} [Schema μ]

/-- The owner of a row, if it has one. -/
class Tenancy (μ κ : Type) [Schema μ] where
  owner : Db μ → ∀ m : μ, Row m → Option κ

export Tenancy (owner)

variable {κ : Type} [DecidableEq κ] [Tenancy μ κ]

/-- The row belongs to another owner. -/
def foreign (c : κ) (db : Db μ) (m : μ) (r : Row m) : Bool := (owner db m r).any fun d => d ≠ c

/-- The rows of a table that belong to other owners. -/
def others (c : κ) (db : Db μ) (m : μ) : List (Row m) := (db m).rows.filter (foreign c db m)

/-- The rows of the other owners are left unchanged. -/
def Isolated (c : κ) (db db' : Db μ) : Prop := ∀ m, others c db' m = others c db m

variable {c : κ} {db db' : Db μ}

instance : Std.Refl (Isolated (μ := μ) c) := ⟨fun _ _ => rfl⟩

instance : IsTrans (Db μ) (Isolated c) := ⟨fun _ _ _ h h' m => (h' m).trans (h m)⟩

theorem foreign_eq_false_of_owner {m : μ} {r : Row m} (h : owner db m r = some c) :
    foreign c db m r = false := by
  rw [foreign, h, Option.any_some]
  exact decide_eq_false (not_not_intro rfl)

/-! ## Rows that are written -/

theorem filter_append_of_not {ρ : Type} {p : ρ → Bool} {rows new : List ρ} (h : ∀ r ∈ new, p r = false) :
    (rows ++ new).filter p = rows.filter p := by
  have hnew : new.filter p = [] := List.filter_eq_nil_iff.mpr fun r hr => by
    rw [h r hr]
    exact Bool.false_ne_true
  rw [List.filter_append, hnew, List.append_nil]

/-- Rows that do not pass the filter can be replaced by such rows. -/
theorem filter_map_of_not {ρ : Type} {p w : ρ → Bool} {data : ρ → ρ} {rows : List ρ}
    (h : ∀ r ∈ rows, w r = true → p r = false ∧ p (data r) = false) :
    (rows.map fun r => if w r then data r else r).filter p = rows.filter p := by
  induction rows with
  | nil => rfl
  | cons r rs ih =>
    have htail := ih fun r hr => h r (List.mem_cons_of_mem _ hr)
    rw [List.map_cons, List.filter_cons, List.filter_cons, htail]
    by_cases hw : w r = true
    · obtain ⟨hold, hnew⟩ := h r List.mem_cons_self hw
      rw [if_pos hw, hold, hnew]
      rfl
    · rw [if_neg hw]

/-- Rows that do not pass the filter can be dropped. -/
theorem filter_filter_of_not {ρ : Type} {p w : ρ → Bool} {rows : List ρ}
    (h : ∀ r ∈ rows, w r = true → p r = false) :
    (rows.filter fun r => !w r).filter p = rows.filter p := by
  rw [List.filter_filter]
  refine List.filter_congr fun r hr => ?_
  by_cases hw : w r = true
  · rw [hw, h r hr hw]
    rfl
  · rw [Bool.not_eq_true] at hw
    rw [hw, Bool.not_false, Bool.and_true]

/-! ## Writes to one table -/

variable [DecidableEq μ]

/-- The owners do not depend on the table. -/
def Detached (κ : Type) [Tenancy μ κ] (m : μ) : Prop :=
  ∀ (db : Db μ) (rows : Rows m), (owner (db.set m rows) : ∀ m', Row m' → Option κ) = owner db

/-- A write to one table is isolated when it keeps the rows of the other owners there, and owners do
not change in the other tables. -/
theorem isolated_set {m : μ} {rows : Rows m}
    (hhere : rows.rows.filter (foreign c (db.set m rows) m) = others c db m)
    (hthere : ∀ m' ≠ m, ∀ r ∈ (db m').rows, foreign c (db.set m rows) m' r = foreign c db m' r) :
    Isolated c db (db.set m rows) := by
  intro m'
  by_cases hm : m' = m
  · subst hm
    rw [others, Db.set_self]
    exact hhere
  · rw [others, Db.set_of_ne hm]
    exact List.filter_congr (hthere m' hm)

theorem isolated_set_of_detached {m : μ} (hm : Detached κ m) {rows : Rows m}
    (h : rows.rows.filter (foreign c db m) = others c db m) : Isolated c db (db.set m rows) := by
  have howner : foreign c (db.set m rows) = foreign c db := by
    unfold foreign
    rw [hm db rows]
  refine isolated_set ?_ fun m' _ r _ => ?_
  · rw [howner]
    exact h
  · rw [howner]

/-! ## The rules -/

namespace Runs

variable {ε : Type} [Violations ε] {m : μ} {P : Db μ → Prop} {w : Where (Row m)}

/-- `create` is isolated when the new row does not belong to another. -/
theorem create {r : Row m} (hm : Detached κ m) (hP : ∀ db rows, P db → P (db.set m rows))
    (hr : ∀ db, P db → foreign c db m r = false) :
    Runs (Isolated c) P (Relational.create m r : Transaction (Db μ) ε (Row m)) fun a db => P db ∧ a = r := by
  refine Runs.create_of fun db hdb rows hrows => ⟨isolated_set_of_detached hm ?_, hP db rows hdb⟩
  rw [hrows]
  exact filter_append_of_not fun r' hr' => List.mem_singleton.mp hr' ▸ hr db hdb

/-- `createMany` is isolated when none of the rows belongs to another. -/
theorem createMany {rs : List (Row m)} {skipDuplicates : Bool} (hm : Detached κ m)
    (hP : ∀ db rows, P db → P (db.set m rows)) (hrs : ∀ db, P db → ∀ r ∈ rs, foreign c db m r = false) :
    Runs (Isolated c) P (Relational.createMany m rs skipDuplicates : Transaction (Db μ) ε ℕ)
      fun _ db => P db := by
  refine Runs.createMany_of fun db hdb rows new hrows hnew =>
    ⟨isolated_set_of_detached hm ?_, hP db rows hdb⟩
  rw [hrows]
  exact filter_append_of_not fun r hr => hrs db hdb r (hnew r hr)

/-- `updateMany` is isolated when none of the rows it selects belongs to another, before and after. -/
theorem updateMany {data : Row m → Row m} (hm : Detached κ m) (hP : ∀ db rows, P db → P (db.set m rows))
    (hw : ∀ db, P db → ∀ r, w.holds r = true → foreign c db m r = false ∧ foreign c db m (data r) = false) :
    Runs (Isolated c) P (Relational.updateMany m w data : Transaction (Db μ) ε ℕ) fun _ db => P db := by
  refine Runs.updateMany_of fun db hdb rows hrows =>
    ⟨isolated_set_of_detached hm ?_, hP db rows hdb⟩
  rw [hrows]
  exact filter_map_of_not fun r _ hr => hw db hdb r hr

/-- `deleteMany` is isolated when none of the rows it selects belongs to another. -/
theorem deleteMany (hm : Detached κ m) (hP : ∀ db rows, P db → P (db.set m rows))
    (hw : ∀ db, P db → ∀ r, w.holds r = true → foreign c db m r = false) :
    Runs (Isolated c) P (Relational.deleteMany m w : Transaction (Db μ) ε ℕ) fun _ db => P db := by
  refine Runs.deleteMany_of fun db hdb rows hrows =>
    ⟨isolated_set_of_detached hm ?_, hP db rows hdb⟩
  rw [hrows]
  exact filter_filter_of_not fun r _ hr => hw db hdb r hr

end Runs

end Relational
