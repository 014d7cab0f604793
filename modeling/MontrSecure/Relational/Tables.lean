import Mathlib.Data.Nat.Notation
import Mathlib.Logic.Function.Basic
import MontrSecure.Relational.Transaction

/-!
# Tables

A database is a family of tables. The rows of a table agree pairwise in no key and on no unique
index, and a row that is written refers to rows there are. The calls on a table select rows by a
`where` object, a list of conditions under the fields they are on, and write in one step or reject.
-/

namespace Relational

/-- The tables of a database: what their rows are, which two rows exclude each other, and whether what a
row refers to is there. -/
class Schema (μ : Type) where
  Row : μ → Type
  conflict : ∀ m, Row m → Row m → Bool
  refers : (∀ m, List (Row m)) → ∀ m, Row m → Bool

export Schema (Row)

/-- The rejections of a write. -/
class Violations (ε : Type) where
  unique : ε
  foreignKey : ε

variable {μ : Type} [Schema μ]

/-- The rows of a table. -/
structure Rows (m : μ) where
  rows : List (Row m)
  nodup : rows.Pairwise fun r r' => Schema.conflict m r r' = false

/-- The table without rows. -/
def Rows.empty (m : μ) : Rows m := { rows := [], nodup := List.Pairwise.nil }

/-- Rows of a table that exclude each other are the same row. -/
theorem Rows.eq_of_conflict {m : μ} {table : Rows m} {r s : Row m} (hr : r ∈ table.rows)
    (hs : s ∈ table.rows) (h : Schema.conflict m r s = true) (h' : Schema.conflict m s r = true) :
    r = s := by
  obtain ⟨i, hi, rfl⟩ := List.getElem_of_mem hr
  obtain ⟨j, hj, rfl⟩ := List.getElem_of_mem hs
  have hpairwise := List.pairwise_iff_getElem.mp table.nodup
  obtain hlt | rfl | hlt := Nat.lt_trichotomy i j
  · rw [hpairwise i j hi hj hlt] at h
    cases h
  · rfl
  · rw [hpairwise j i hj hi hlt] at h'
    cases h'

/-- A database. -/
abbrev Db (μ : Type) [Schema μ] : Type := ∀ m : μ, Rows m

variable {ε ρ : Type}

/-- The database with other rows in one table. -/
def Db.set [DecidableEq μ] (db : Db μ) (m : μ) (rows : Rows m) : Db μ := Function.update db m rows

/-! ## Conditions -/

/-- A `where` object: a condition for each of its fields. -/
abbrev Where (ρ : Type) : Type := List (String × (ρ → Bool))

/-- Every condition holds of the row. -/
def Where.holds (w : Where ρ) (r : ρ) : Bool := w.all fun condition => condition.2 r

/-- `{ ...w, ...w' }`: a later condition on a field replaces an earlier one. -/
def spread (w w' : Where ρ) : Where ρ :=
  (w.filter fun condition => !w'.any fun later => later.1 == condition.1) ++ w'

/-! ## Calls -/

section

variable (m : μ)

/-- Reject unless what the rows refer to is there. -/
def checkReferences [Violations ε] (rs : List (Row m)) : Transaction (Db μ) ε Unit := fun db =>
  if rs.all (Schema.refers (fun m => (db m).rows) m) then .ok ((), db)
  else .error Violations.foreignKey

/-- Reject if a row whose references are there no longer has them after the change. -/
def checkChanges [Violations ε] (rs : List (Row m)) (data : Row m → Row m) :
    Transaction (Db μ) ε Unit := fun db =>
  if rs.all fun r => !Schema.refers (fun m => (db m).rows) m r ||
      Schema.refers (fun m => (db m).rows) m (data r) then .ok ((), db)
  else .error Violations.foreignKey

/-- `findMany`; rows that `le` does not order stay in the order of the table. -/
def findMany (w : Where (Row m)) (le : Row m → Row m → Bool) : Transaction (Db μ) ε (List (Row m)) :=
  query fun db => ((db m).rows.filter w.holds).mergeSort le

/-- `findFirst`. -/
def findFirst (w : Where (Row m)) (le : Row m → Row m → Bool) :
    Transaction (Db μ) ε (Option (Row m)) :=
  List.head? <$> findMany m w le

/-- The rows that can be added one after the other. -/
def addable (rows : List (Row m)) : List (Row m) → List (Row m)
  | [] => []
  | r :: rs =>
    if rows.any fun r' => Schema.conflict m r' r then addable rows rs
    else r :: addable (rows ++ [r]) rs

variable [DecidableEq μ] [Violations ε]

/-- Write the rows of a table, or reject when two of them exclude each other. -/
def store (rs : List (Row m)) : Transaction (Db μ) ε Unit := fun db =>
  if h : rs.Pairwise fun r r' => Schema.conflict m r r' = false then
    .ok ((), db.set m { rows := rs, nodup := h })
  else .error Violations.unique

/-- `create`. -/
def create (r : Row m) : Transaction (Db μ) ε (Row m) := do
  checkReferences m [r]
  let rows ← query fun db => (db m).rows
  store m (rows ++ [r])
  return r

/-- `createMany`. -/
def createMany (rs : List (Row m)) (skipDuplicates : Bool) : Transaction (Db μ) ε ℕ := do
  let rows ← query fun db => (db m).rows
  let new := if skipDuplicates then addable m rows rs else rs
  checkReferences m new
  store m (rows ++ new)
  return new.length

/-- `updateMany`. -/
def updateMany (w : Where (Row m)) (data : Row m → Row m) : Transaction (Db μ) ε ℕ := do
  let rows ← query fun db => (db m).rows
  checkChanges m (rows.filter w.holds) data
  store m (rows.map fun r => if w.holds r then data r else r)
  return (rows.filter w.holds).length

/-- `deleteMany`, for a table that no row refers to. -/
def deleteMany (w : Where (Row m)) : Transaction (Db μ) ε ℕ := do
  let rows ← query fun db => (db m).rows
  store m (rows.filter fun r => !w.holds r)
  return (rows.filter w.holds).length

/-- `upsert`, with a condition on a key. -/
def upsert (w : Where (Row m)) (new : Row m) (data : Row m → Row m) : Transaction (Db μ) ε (Row m) := do
  let found ← query fun db => (db m).rows.find? w.holds
  match found with
  | some r => do
    let _ ← updateMany m w data
    return data r
  | none => create m new

end

/-! ## Conditions and writes -/

theorem holds_of_mem {w : Where ρ} {r : ρ} (h : w.holds r = true) {condition : String × (ρ → Bool)}
    (hmem : condition ∈ w) : condition.2 r = true :=
  List.all_eq_true.mp h condition hmem

/-- The conditions that are spread last hold. -/
theorem holds_spread_right {w w' : Where ρ} {r : ρ} (h : (spread w w').holds r = true) :
    w'.holds r = true := by
  rw [spread, Where.holds, List.all_append, Bool.and_eq_true] at h
  exact h.2

@[simp]
theorem Db.set_self [DecidableEq μ] (db : Db μ) (m : μ) (rows : Rows m) : db.set m rows m = rows :=
  Function.update_self m rows db

theorem Db.set_of_ne [DecidableEq μ] {m m' : μ} (h : m' ≠ m) (db : Db μ) (rows : Rows m) : db.set m rows m' = db m' :=
  Function.update_of_ne h rows db

theorem mem_addable {m : μ} {rows rs : List (Row m)} {r : Row m} (h : r ∈ addable m rows rs) :
    r ∈ rs := by
  induction rs generalizing rows with
  | nil => exact h
  | cons r' rs ih =>
    rw [addable] at h
    split at h
    · exact List.mem_cons_of_mem r' (ih h)
    · obtain rfl | htail := List.mem_cons.mp h
      · exact List.mem_cons_self
      · exact List.mem_cons_of_mem r' (ih htail)

/-! ## What the calls do -/

namespace Runs

variable {m : μ} {P : Db μ → Prop} {w : Where (Row m)} {le : Row m → Row m → Bool}

theorem findMany : Runs Eq P (Relational.findMany m w le : Transaction (Db μ) ε (List (Row m)))
    fun rs db => P db ∧ ∀ r ∈ rs, r ∈ (db m).rows ∧ w.holds r = true := by
  refine Runs.query.post fun rs db hrs => ⟨hrs.1, fun r hr => ?_⟩
  rw [hrs.2, List.mem_mergeSort, List.mem_filter] at hr
  exact hr

theorem findFirst : Runs Eq P (Relational.findFirst m w le : Transaction (Db μ) ε (Option (Row m)))
    fun r? db => P db ∧ ∀ r ∈ r?, r ∈ (db m).rows ∧ w.holds r = true := by
  refine Runs.map (Runs.findMany.post fun rs db hrs => ⟨hrs.1, fun r hr => hrs.2 r ?_⟩)
  exact List.mem_of_mem_head? hr

theorem checkReferences [Violations ε] {rs : List (Row m)} :
    Runs Eq P (Relational.checkReferences m rs : Transaction (Db μ) ε Unit) fun _ db => P db := by
  intro db hdb a db' hrun
  rw [Relational.checkReferences] at hrun
  split at hrun
  · cases hrun
    exact ⟨rfl, hdb⟩
  · cases hrun

theorem checkChanges [Violations ε] {rs : List (Row m)} {data : Row m → Row m} :
    Runs Eq P (Relational.checkChanges m rs data : Transaction (Db μ) ε Unit) fun _ db => P db := by
  intro db hdb a db' hrun
  rw [Relational.checkChanges] at hrun
  split at hrun
  · cases hrun
    exact ⟨rfl, hdb⟩
  · cases hrun

/-- What is stored has to keep to the relation. -/
theorem store [DecidableEq μ] [Violations ε] {R : Db μ → Db μ → Prop} {Q : Unit → Db μ → Prop} {rs : List (Row m)}
    (h : ∀ db, P db → ∀ rows : Rows m, rows.rows = rs → R db (db.set m rows) ∧ Q () (db.set m rows)) :
    Runs R P (Relational.store m rs : Transaction (Db μ) ε Unit) Q := by
  intro db hdb a db' hrun
  rw [Relational.store] at hrun
  split at hrun
  · cases hrun
    exact h db hdb _ rfl
  · cases hrun

section

variable [DecidableEq μ] [Violations ε] {R : Db μ → Db μ → Prop} [Std.Refl R] [IsTrans (Db μ) R]
  {Q : Db μ → Prop}

theorem create_of {r : Row m}
    (h : ∀ db, P db → ∀ rows : Rows m, rows.rows = (db m).rows ++ [r] →
      R db (db.set m rows) ∧ Q (db.set m rows)) :
    Runs R P (Relational.create m r : Transaction (Db μ) ε (Row m)) fun a db => Q db ∧ a = r := by
  refine (Runs.of_reads Runs.checkReferences).bind fun _ => ?_
  refine (Runs.of_reads Runs.query).bind fun rows => ?_
  refine Runs.bind (Q := fun _ db => Q db) (Runs.store fun db hdb rows' hrows => ?_) fun _ =>
    Runs.pure fun db hdb => ⟨hdb, rfl⟩
  obtain ⟨hdb, rfl⟩ := hdb
  exact h db hdb rows' hrows

theorem createMany_of {rs : List (Row m)} {skipDuplicates : Bool}
    (h : ∀ db, P db → ∀ (rows : Rows m) (new : List (Row m)), rows.rows = (db m).rows ++ new →
      (∀ r ∈ new, r ∈ rs) → R db (db.set m rows) ∧ Q (db.set m rows)) :
    Runs R P (Relational.createMany m rs skipDuplicates : Transaction (Db μ) ε ℕ) fun _ db => Q db := by
  refine (Runs.of_reads Runs.query).bind fun rows => ?_
  refine (Runs.of_reads Runs.checkReferences).bind fun _ => ?_
  refine Runs.bind (Q := fun _ db => Q db) (Runs.store fun db hdb rows' hrows => ?_) fun _ =>
    Runs.pure fun db hdb => hdb
  obtain ⟨hdb, rfl⟩ := hdb
  refine h db hdb rows' _ hrows fun r hr => ?_
  split at hr
  · exact mem_addable hr
  · exact hr

theorem updateMany_of {data : Row m → Row m}
    (h : ∀ db, P db → ∀ rows : Rows m,
      rows.rows = ((db m).rows.map fun r => if w.holds r then data r else r) →
        R db (db.set m rows) ∧ Q (db.set m rows)) :
    Runs R P (Relational.updateMany m w data : Transaction (Db μ) ε ℕ) fun _ db => Q db := by
  refine (Runs.of_reads Runs.query).bind fun rows => ?_
  refine (Runs.of_reads Runs.checkChanges).bind fun _ => ?_
  refine Runs.bind (Q := fun _ db => Q db) (Runs.store fun db hdb rows' hrows => ?_) fun _ =>
    Runs.pure fun db hdb => hdb
  obtain ⟨hdb, rfl⟩ := hdb
  exact h db hdb rows' hrows

theorem deleteMany_of
    (h : ∀ db, P db → ∀ rows : Rows m, rows.rows = ((db m).rows.filter fun r => !w.holds r) →
      R db (db.set m rows) ∧ Q (db.set m rows)) :
    Runs R P (Relational.deleteMany m w : Transaction (Db μ) ε ℕ) fun _ db => Q db := by
  refine (Runs.of_reads Runs.query).bind fun rows => ?_
  refine Runs.bind (Q := fun _ db => Q db) (Runs.store fun db hdb rows' hrows => ?_) fun _ =>
    Runs.pure fun db hdb => hdb
  obtain ⟨hdb, rfl⟩ := hdb
  exact h db hdb rows' hrows

end

end Runs

/-- A change that keeps keys and references is made. -/
theorem updateMany_eq_ok [DecidableEq μ] [Violations ε] {m : μ} {w : Where (Row m)} {data : Row m → Row m}
    {db : Db μ} (hrefers : ∀ r ∈ (db m).rows,
      Schema.refers (fun m => (db m).rows) m (data r) = Schema.refers (fun m => (db m).rows) m r)
    (hconflict : ∀ r s : Row m, Schema.conflict m (data r) s = Schema.conflict m r s ∧
      Schema.conflict m r (data s) = Schema.conflict m r s) :
    ∃ (n : ℕ) (rows : Rows m),
      (updateMany m w data db : Except ε (ℕ × Db μ)) = .ok (n, db.set m rows) := by
  have hchanges : checkChanges m ((db m).rows.filter w.holds) data db =
      (.ok ((), db) : Except ε (Unit × Db μ)) := by
    refine if_pos (List.all_eq_true.mpr fun r hr => ?_)
    rw [hrefers r (List.mem_filter.mp hr).1]
    cases Schema.refers (fun m => (db m).rows) m r <;> rfl
  have hpairwise : ((db m).rows.map fun r => if w.holds r then data r else r).Pairwise
      fun r r' => Schema.conflict m r r' = false := by
    refine List.pairwise_map.mpr ((db m).nodup.imp fun {r s} h => ?_)
    split <;> split <;> simp only [hconflict, h]
  refine ⟨((db m).rows.filter w.holds).length, ⟨_, hpairwise⟩, ?_⟩
  show (checkChanges m ((db m).rows.filter w.holds) data db >>= fun checked =>
    store m ((db m).rows.map fun r => if w.holds r then data r else r) checked.2 >>= fun stored =>
      .ok (((db m).rows.filter w.holds).length, stored.2)) = _
  rw [hchanges]
  show (store m ((db m).rows.map fun r => if w.holds r then data r else r) db >>= fun stored =>
      .ok (((db m).rows.filter w.holds).length, stored.2)) = _
  rw [store, dif_pos hpairwise]
  rfl

/-- Where there is a row, an upsert changes it. -/
theorem upsert_eq_ok [DecidableEq μ] [Violations ε] {m : μ} {w : Where (Row m)} {new r : Row m}
    {data : Row m → Row m} {db db' : Db μ} {n : ℕ} (hfound : (db m).rows.find? w.holds = some r)
    (hupdate : (updateMany m w data db : Except ε (ℕ × Db μ)) = .ok (n, db')) :
    (upsert m w new data db : Except ε (Row m × Db μ)) = .ok (data r, db') := by
  simp only [upsert, query, bind, StateT.bind, Except.bind, hfound, hupdate]
  rfl

end Relational
