import Mathlib.Data.List.Nodup
import MontrSecure.Contracts.Basic
import MontrSecure.Machine.Runs

/-!
# Prompt versions

`PromptVersionRepositoryImpl` of `packages/state-store/src/prompt-version.ts`: the statements of `createVersion` and
`markActive`, in transactions that overlap. At the isolation level read committed a statement sees what was
committed when it starts; a row that another transaction has written is waited for, and is then looked at again.
-/

namespace MontrSecure

/-! ## Rows -/

/-- A row of `PromptVersion`. -/
structure PromptVersionRow where
  id : EntityId
  clientId : Option ClientId
  name : String
  version : ℕ
  layer : Option LayerId
  template : String
  isActive : Bool
  createdAt : IsoDateTime
  deriving DecidableEq

/-- `PromptVersionInput`. -/
structure PromptVersionInput where
  name : String
  template : String
  layer : Option LayerId := none
  clientId : Option ClientId := none
  deriving DecidableEq

/-- A name, for a client or for all. -/
abbrev PromptScope := String × Option ClientId

namespace PromptVersionRow

/-- The scope of a version. -/
def scope (r : PromptVersionRow) : PromptScope := (r.name, r.clientId)

/-- The columns of `@@unique([name, version])`. -/
def key (r : PromptVersionRow) : String × ℕ := (r.name, r.version)

end PromptVersionRow

/-- A row as it is stored: the transaction that has inserted it and the one that has written it since, as long as
they are open. -/
structure StoredVersion where
  row : PromptVersionRow
  insertedBy : Option ℕ := none
  update : Option (ℕ × Bool) := none

/-- Where a transaction is. -/
inductive PromptStage where
  /-- `markActive` is to call `findUnique`. -/
  | finding (id : EntityId)
  /-- It is to call `updateMany`. -/
  | found (id : EntityId) (scope : PromptScope)
  /-- `updateMany` has selected rows, and is to go through these. -/
  | deactivating (id : EntityId) (scope : PromptScope) (remaining : List EntityId)
  /-- Its rows are written, and it is to commit. -/
  | activated (id : EntityId) (scope : PromptScope)
  /-- `createVersion` is to call `findFirst`. -/
  | numbering (input : PromptVersionInput)
  /-- It is to call `create`. -/
  | numbered (input : PromptVersionInput) (version : ℕ)
  /-- Its row is inserted, and it is to commit. -/
  | inserted
  deriving DecidableEq

/-- The table and the open transactions, by their numbers. -/
structure PromptStore where
  rows : List StoredVersion
  transactions : ℕ → Option PromptStage := fun _ => none

/-- What happens to the table. -/
inductive PromptAction where
  | markActive (n : ℕ) (id : EntityId)
  | createVersion (n : ℕ) (input : PromptVersionInput)
  | findUnique (n : ℕ)
  | updateMany (n : ℕ)
  | updateNext (n : ℕ)
  | update (n : ℕ)
  | findFirst (n : ℕ)
  | create (n : ℕ) (id : EntityId) (createdAt : IsoDateTime)
  | commit (n : ℕ)
  | rollback (n : ℕ)

/-! ## Statements -/

namespace StoredVersion

variable (x : StoredVersion) (n : ℕ)

/-- The row when the transaction commits. -/
def commit : StoredVersion :=
  { row :=
      match x.update with
      | some (m, isActive) => if m = n then { x.row with isActive } else x.row
      | none => x.row
    insertedBy := x.insertedBy.filter (· ≠ n)
    update := x.update.filter (·.1 ≠ n) }

/-- The row when the transaction rolls back. -/
def rollback : StoredVersion := { x with update := x.update.filter (·.1 ≠ n) }

/-- The `where` of `updateMany`. -/
def Deactivates (id : EntityId) (scope : PromptScope) : Prop :=
  x.insertedBy = none ∧ x.row.scope = scope ∧ x.row.isActive = true ∧ x.row.id ≠ id

instance (id : EntityId) (scope : PromptScope) : Decidable (x.Deactivates id scope) :=
  inferInstanceAs (Decidable (_ ∧ _ ∧ _ ∧ _))

end StoredVersion

namespace PromptStore

variable (store : PromptStore) (n : ℕ)

/-- The rows that are committed. -/
def committed : List PromptVersionRow :=
  (store.rows.filter fun x => x.insertedBy = none).map (·.row)

/-- Another transaction has written the row. -/
def locked (id : EntityId) : Bool := store.rows.any fun x => x.row.id = id && x.update.any (·.1 ≠ n)

/-- The transaction goes on. -/
def goTo (stage : PromptStage) : PromptStore :=
  { store with transactions := fun m => if m = n then some stage else store.transactions m }

/-- The transaction is closed. -/
def close : PromptStore :=
  { store with transactions := fun m => if m = n then none else store.transactions m }

/-- The transaction writes a row. -/
def write (id : EntityId) (isActive : Bool) : PromptStore :=
  { store with
    rows := store.rows.map fun x => if x.row.id = id then { x with update := some (n, isActive) } else x }

/-- What is undone when the transaction rolls back. -/
def rolledBack : PromptStore :=
  close { store with rows := (store.rows.filter fun x => x.insertedBy ≠ some n).map (·.rollback n) } n

/-- What is seen when the transaction commits. -/
def commits : PromptStore := close { store with rows := store.rows.map (·.commit n) } n

/-- The rows that `updateMany` selects. -/
def selected (id : EntityId) (scope : PromptScope) : List EntityId :=
  (store.rows.filter fun x => x.Deactivates id scope).map (·.row.id)

/-- `(last?.version ?? 0) + 1`. -/
def nextVersion (name : String) : ℕ :=
  ((store.committed.filter (·.name = name)).map (·.version)).foldr max 0 + 1

example : ({ rows := [] } : PromptStore).nextVersion "triage" = 1 := by decide +kernel

/-- The row that `create` inserts. -/
def newRow (input : PromptVersionInput) (version : ℕ) (id : EntityId) (createdAt : IsoDateTime) :
    PromptVersionRow :=
  { id, clientId := input.clientId, name := input.name, version, layer := input.layer
    template := input.template, isActive := false, createdAt }

/-- The row has the id or the version of another one. -/
def clashes (r : PromptVersionRow) (x : StoredVersion) : Bool := x.row.id = r.id || x.row.key = r.key

/-- What an action does; `none` while it waits, or when the transaction is elsewhere. -/
def step : PromptAction → PromptStore → Option PromptStore
  | .markActive n id, store =>
    if store.transactions n = none then some (store.goTo n (.finding id)) else none
  | .createVersion n input, store =>
    if store.transactions n = none then some (store.goTo n (.numbering input)) else none
  | .findUnique n, store =>
    match store.transactions n with
    | some (.finding id) =>
      match store.committed.find? (·.id = id) with
      | some target => some (store.goTo n (.found id target.scope))
      | none => some (store.rolledBack n)
    | _ => none
  | .updateMany n, store =>
    match store.transactions n with
    | some (.found id scope) => some (store.goTo n (.deactivating id scope (store.selected id scope)))
    | _ => none
  | .updateNext n, store =>
    match store.transactions n with
    | some (.deactivating id scope (next :: remaining)) =>
      if store.locked n next then none
      else if store.rows.any fun x => x.row.id = next && x.Deactivates id scope then
        some ((store.write n next false).goTo n (.deactivating id scope remaining))
      else some (store.goTo n (.deactivating id scope remaining))
    | _ => none
  | .update n, store =>
    match store.transactions n with
    | some (.deactivating id scope []) =>
      if store.locked n id then none else some ((store.write n id true).goTo n (.activated id scope))
    | _ => none
  | .findFirst n, store =>
    match store.transactions n with
    | some (.numbering input) => some (store.goTo n (.numbered input (store.nextVersion input.name)))
    | _ => none
  | .create n id createdAt, store =>
    match store.transactions n with
    | some (.numbered input version) =>
      let r := newRow input version id createdAt
      -- a row that another transaction is inserting is waited for
      if store.rows.any fun x => x.insertedBy.isSome && clashes r x then none
      else if store.rows.any (clashes r) then some (store.rolledBack n)
      else some (goTo { store with rows := store.rows ++ [{ row := r, insertedBy := some n }] } n .inserted)
    | _ => none
  | .commit n, store =>
    match store.transactions n with
    | some (.activated _ _) | some .inserted => some (store.commits n)
    | _ => none
  | .rollback n, store =>
    match store.transactions n with
    | some _ => some (store.rolledBack n)
    | none => none

end PromptStore

/-! ## What the table promises -/

/-- No scope has two active versions. -/
def AtMostOneActive (rows : List PromptVersionRow) : Prop :=
  ∀ r ∈ rows, ∀ s ∈ rows, r.isActive = true → s.isActive = true → r.scope = s.scope → r = s

instance (rows : List PromptVersionRow) : Decidable (AtMostOneActive rows) :=
  inferInstanceAs (Decidable (∀ r ∈ rows, ∀ s ∈ rows, _ → _ → _ → r = s))

/-- The table with these rows, and no open transaction. -/
def PromptStore.quiet (rows : List PromptVersionRow) : PromptStore := { rows := rows.map fun row => { row } }

/-- A `markActive` that has selected the rows to deactivate, and those it has yet to go through. -/
def PromptStage.Past (stage : PromptStage) (id : EntityId) (scope : PromptScope) (remaining : List EntityId) :
    Prop :=
  stage = .deactivating id scope remaining ∨ stage = .activated id scope ∧ remaining = []

/-- A `markActive` that has read its target. -/
def PromptStage.Targets (stage : PromptStage) (id : EntityId) (scope : PromptScope) : Prop :=
  stage = .found id scope ∨ ∃ remaining, stage.Past id scope remaining

theorem PromptStage.Past.targets {stage : PromptStage} {id : EntityId} {scope : PromptScope}
    {remaining : List EntityId} (h : stage.Past id scope remaining) : stage.Targets id scope := .inr ⟨_, h⟩

namespace PromptStore

/-- No other `markActive` of the scope has selected its rows and is still open, unless it activates the same version,
or has written a version that was active before. -/
def Undisputed (store : PromptStore) (n : ℕ) : Prop :=
  ∀ id scope, store.transactions n = some (.found id scope) →
    ∀ m stage id' remaining, m ≠ n → store.transactions m = some stage → stage.Past id' scope remaining →
      id' = id ∨ stage = .activated id' scope ∧
        ∃ x ∈ store.rows, x.row.id = id' ∧ x.insertedBy = none ∧ x.row.isActive = true

/-- The condition on an action: `updateMany` selects rows when nothing is in dispute. -/
def TakesTurns (a : PromptAction) (store : PromptStore) : Prop := ∀ n, a = .updateMany n → store.Undisputed n

/-- What the primary key and the unique index keep, of committed and of other rows. -/
structure Keyed (store : PromptStore) : Prop where
  ids : (store.rows.map (·.row.id)).Nodup
  keys : (store.rows.map (·.row.key)).Nodup

/-- What holds while `markActive`s take turns. -/
structure Orderly (store : PromptStore) : Prop extends store.Keyed where
  oneActive : ∀ x ∈ store.rows, ∀ y ∈ store.rows, x.insertedBy = none → y.insertedBy = none →
    x.row.isActive = true → y.row.isActive = true → x.row.scope = y.row.scope → x.row.id = y.row.id
  inserted : ∀ x ∈ store.rows, x.insertedBy ≠ none → x.row.isActive = false ∧ x.update = none
  updates : ∀ x ∈ store.rows, ∀ n isActive, x.update = some (n, isActive) →
    ∃ stage id remaining, store.transactions n = some stage ∧ stage.Past id x.row.scope remaining ∧
      (isActive = true ↔ x.row.id = id)
  target : ∀ n stage id scope, store.transactions n = some stage → stage.Targets id scope →
    ∃ x ∈ store.rows, x.row.id = id ∧ x.row.scope = scope ∧ x.insertedBy = none
  selected : ∀ n stage id scope remaining, store.transactions n = some stage → stage.Past id scope remaining →
    ∀ x ∈ store.rows, x.Deactivates id scope → x.row.id ∈ remaining ∨ x.update = some (n, false)
  activated : ∀ n id scope, store.transactions n = some (.activated id scope) →
    ∃ x ∈ store.rows, x.row.id = id ∧ x.update = some (n, true)
  contenders : ∀ n m s t id id' scope remaining remaining', n ≠ m →
    store.transactions n = some s → store.transactions m = some t →
      s.Past id scope remaining → t.Past id' scope remaining' → id ≠ id' →
        id' ∈ remaining ∧ t = .activated id' scope ∨ id ∈ remaining' ∧ s = .activated id scope

section Steps

variable {store store' : PromptStore} {n m : ℕ} {id i : EntityId} {scope : PromptScope}
  {remaining : List EntityId} {stage old : PromptStage} {x y : StoredVersion} {r : PromptVersionRow} {b : Bool}

/-! ## Transactions -/

theorem goTo_self : (store.goTo n stage).transactions n = some stage := if_pos rfl

theorem goTo_of_ne (h : m ≠ n) : (store.goTo n stage).transactions m = store.transactions m := if_neg h

/-- After a transaction has gone on, it is there, and the others are where they were. -/
theorem of_goTo {s : PromptStage} (h : (store.goTo n stage).transactions m = some s) :
    m = n ∧ s = stage ∨ m ≠ n ∧ store.transactions m = some s := by
  by_cases hmn : m = n
  · rw [hmn, goTo_self] at h
    exact .inl ⟨hmn, (Option.some.inj h).symm⟩
  · rw [goTo_of_ne hmn] at h
    exact .inr ⟨hmn, h⟩

theorem close_self : (store.close n).transactions n = none := if_pos rfl

theorem close_of_ne (h : m ≠ n) : (store.close n).transactions m = store.transactions m := if_neg h

/-- A transaction that is open after another one is closed was open before. -/
theorem of_close (h : (store.close n).transactions m = some stage) :
    m ≠ n ∧ store.transactions m = some stage := by
  by_cases hm : m = n
  · rw [hm, close_self] at h
    cases h
  · rw [close_of_ne hm] at h
    exact ⟨hm, h⟩

/-- Ids are unique. -/
theorem Orderly.eq_of_id (h : store.Orderly) (hx : x ∈ store.rows) (hy : y ∈ store.rows)
    (hid : x.row.id = y.row.id) : x = y := List.inj_on_of_nodup_map h.ids hx hy hid

theorem keyed_quiet {rows : List PromptVersionRow} (hids : (rows.map (·.id)).Nodup)
    (hkeys : (rows.map (·.key)).Nodup) : (quiet rows).Keyed := by
  refine ⟨?_, ?_⟩
  · simpa [quiet, Function.comp_def] using hids
  · simpa [quiet, Function.comp_def] using hkeys

theorem orderly_quiet {rows : List PromptVersionRow} (hids : (rows.map (·.id)).Nodup)
    (hkeys : (rows.map (·.key)).Nodup) (hone : AtMostOneActive rows) : (quiet rows).Orderly := by
  have hmem : ∀ {x : StoredVersion}, x ∈ (quiet rows).rows → x.row ∈ rows ∧ x.update = none ∧ x.insertedBy = none := by
    intro x hx
    obtain ⟨r, hr, rfl⟩ := List.mem_map.mp hx
    exact ⟨hr, rfl, rfl⟩
  refine ⟨keyed_quiet hids hkeys, ?_, ?_, ?_, ?_, ?_, ?_, ?_⟩
  · intro x hx y hy _ _ hxa hya hscope
    rw [hone _ (hmem hx).1 _ (hmem hy).1 hxa hya hscope]
  · exact fun x hx hinserted => absurd (hmem hx).2.2 hinserted
  · intro x hx n b hupdate
    rw [(hmem hx).2.1] at hupdate
    cases hupdate
  all_goals
    intros
    contradiction

/-- The rows that are left are those of the stage. -/
theorem past_deactivating {id' : EntityId} {scope' : PromptScope} {remaining' : List EntityId}
    (h : (PromptStage.deactivating id scope remaining).Past id' scope' remaining') :
    id = id' ∧ scope = scope' ∧ remaining = remaining' := by
  obtain heq | ⟨heq, -⟩ := h
  · simpa using heq
  · cases heq

theorem past_activated {id' : EntityId} {scope' : PromptScope} {remaining' : List EntityId}
    (h : (PromptStage.activated id scope).Past id' scope' remaining') :
    id = id' ∧ scope = scope' ∧ [] = remaining' := by
  obtain heq | ⟨heq, rfl⟩ := h
  · cases heq
  · simpa using heq

theorem Keyed.goTo (h : store.Keyed) : (store.goTo n stage).Keyed := ⟨h.ids, h.keys⟩

/-- A transaction that has selected no rows goes on to where it has not either. -/
theorem Orderly.goTo (h : store.Orderly)
    (hold : ∀ old, store.transactions n = some old → ∀ id scope remaining, ¬old.Past id scope remaining)
    (hnew : ∀ id scope remaining, ¬stage.Past id scope remaining)
    (htarget : ∀ id scope, stage.Targets id scope →
      ∃ x ∈ store.rows, x.row.id = id ∧ x.row.scope = scope ∧ x.insertedBy = none) :
    (store.goTo n stage).Orderly := by
  -- whoever has selected rows is another transaction
  have hother : ∀ {m s id scope remaining}, (store.goTo n stage).transactions m = some s →
      PromptStage.Past s id scope remaining → m ≠ n ∧ store.transactions m = some s := by
    intro m s id scope remaining hm hpast
    by_cases hmn : m = n
    · rw [hmn, goTo_self] at hm
      obtain rfl := Option.some.inj hm
      exact absurd hpast (hnew _ _ _)
    · rw [goTo_of_ne hmn] at hm
      exact ⟨hmn, hm⟩
  refine ⟨h.toKeyed.goTo, h.oneActive, h.inserted, ?_, ?_, ?_, ?_, ?_⟩
  · intro x hx m b hupdate
    obtain ⟨s, id, remaining, hm, hpast, hb⟩ := h.updates x hx m b hupdate
    have hmn : m ≠ n := by
      rintro rfl
      exact hold s hm _ _ _ hpast
    exact ⟨s, id, remaining, (goTo_of_ne hmn).trans hm, hpast, hb⟩
  · intro m s id scope hm htargets
    by_cases hmn : m = n
    · rw [hmn, goTo_self] at hm
      obtain rfl := Option.some.inj hm
      exact htarget id scope htargets
    · rw [goTo_of_ne hmn] at hm
      exact h.target m s id scope hm htargets
  · intro m s id scope remaining hm hpast
    exact h.selected m s id scope remaining (hother hm hpast).2 hpast
  · intro m id scope hm
    exact h.activated m id scope (hother hm (.inr ⟨rfl, rfl⟩)).2
  · intro m k s t id id' scope remaining remaining' hmk hm hk hs ht hne
    exact h.contenders m k s t id id' scope remaining remaining' hmk (hother hm hs).2 (hother hk ht).2 hs ht hne

/-- `updateMany` selects its rows. -/
theorem Orderly.updateMany (h : store.Orderly) (hstage : store.transactions n = some (.found id scope))
    (hundisputed : store.Undisputed n) :
    (store.goTo n (.deactivating id scope (store.selected id scope))).Orderly := by
  -- what another contender activates is among the selected rows
  have hcontender : ∀ {m t id' remaining'}, m ≠ n → store.transactions m = some t →
      PromptStage.Past t id' scope remaining' → id' ≠ id →
        id' ∈ store.selected id scope ∧ t = .activated id' scope := by
    intro m t id' remaining' hmn hm hpast hne
    obtain heq | ⟨hactivated, x, hx, hxid, hinserted, hactive⟩ :=
      hundisputed id scope hstage m t id' remaining' hmn hm hpast
    · exact absurd heq hne
    · refine ⟨List.mem_map.mpr ⟨x, List.mem_filter.mpr ⟨hx, ?_⟩, hxid⟩, hactivated⟩
      obtain ⟨y, hy, hyid, hyscope, -⟩ := h.target m t id' scope hm hpast.targets
      obtain rfl := h.eq_of_id hx hy (hxid.trans hyid.symm)
      exact decide_eq_true ⟨hinserted, hyscope, hactive, hxid ▸ hne⟩
  refine ⟨h.toKeyed.goTo, h.oneActive, h.inserted, ?_, ?_, ?_, ?_, ?_⟩
  · intro x hx m b hupdate
    obtain ⟨s, id', remaining', hm, hpast, hb⟩ := h.updates x hx m b hupdate
    have hmn : m ≠ n := by
      rintro rfl
      obtain rfl := Option.some.inj (hstage.symm.trans hm)
      obtain heq | ⟨heq, -⟩ := hpast <;> cases heq
    exact ⟨s, id', remaining', (goTo_of_ne hmn).trans hm, hpast, hb⟩
  · intro m s id' scope' hm htargets
    obtain ⟨rfl, rfl⟩ | ⟨-, hm⟩ := of_goTo hm
    · obtain heq | ⟨remaining', hpast⟩ := htargets
      · cases heq
      · obtain ⟨rfl, rfl, -⟩ := past_deactivating hpast
        exact h.target m _ id scope hstage (.inl rfl)
    · exact h.target m s id' scope' hm htargets
  · intro m s id' scope' remaining' hm hpast x hx hdeactivates
    obtain ⟨rfl, rfl⟩ | ⟨-, hm⟩ := of_goTo hm
    · obtain ⟨rfl, rfl, rfl⟩ := past_deactivating hpast
      exact .inl (List.mem_map.mpr ⟨x, List.mem_filter.mpr ⟨hx, decide_eq_true hdeactivates⟩, rfl⟩)
    · exact h.selected m s id' scope' remaining' hm hpast x hx hdeactivates
  · intro m id' scope' hm
    obtain ⟨-, heq⟩ | ⟨-, hm⟩ := of_goTo hm
    · cases heq
    · exact h.activated m id' scope' hm
  · intro m k s t id₁ id₂ scope' remaining₁ remaining₂ hmk hm hk hs ht hne
    obtain ⟨rfl, rfl⟩ | ⟨hmn, hmold⟩ := of_goTo hm
    · obtain ⟨rfl, -⟩ | ⟨hkn, hkold⟩ := of_goTo hk
      · exact absurd rfl hmk
      · obtain ⟨rfl, rfl, rfl⟩ := past_deactivating hs
        exact .inl (hcontender hkn hkold ht hne.symm)
    · obtain ⟨rfl, rfl⟩ | ⟨-, hkold⟩ := of_goTo hk
      · obtain ⟨rfl, rfl, rfl⟩ := past_deactivating ht
        exact .inr (hcontender hmn hmold hs hne)
      · exact h.contenders m k s t id₁ id₂ scope' remaining₁ remaining₂ hmk hmold hkold hs ht hne

/-- Who has written a row that is not locked. -/
theorem eq_of_unlocked (hunlocked : store.locked n i = false) (hx : x ∈ store.rows) (hid : x.row.id = i)
    (hupdate : x.update = some (m, b)) : m = n := by
  by_contra hne
  have hlocked : store.locked n i = true := by
    refine List.any_eq_true.mpr ⟨x, hx, ?_⟩
    simp [hid, hupdate, hne]
  rw [hunlocked] at hlocked
  cases hlocked

/-- The rows after a write are those before, one of them written. -/
theorem exists_of_mem_write (h : x ∈ (store.write n i b).rows) : ∃ y ∈ store.rows, x.row = y.row ∧
    x.insertedBy = y.insertedBy ∧
      (y.row.id = i ∧ x.update = some (n, b) ∨ y.row.id ≠ i ∧ x.update = y.update) := by
  obtain ⟨y, hy, rfl⟩ := List.mem_map.mp h
  refine ⟨y, hy, ?_⟩
  by_cases hid : y.row.id = i
  · rw [if_pos hid]
    exact ⟨rfl, rfl, .inl ⟨hid, rfl⟩⟩
  · rw [if_neg hid]
    exact ⟨rfl, rfl, .inr ⟨hid, rfl⟩⟩

theorem exists_mem_write (h : x ∈ store.rows) : ∃ y ∈ (store.write n i b).rows, y.row = x.row ∧
    y.insertedBy = x.insertedBy ∧
      (x.row.id = i ∧ y.update = some (n, b) ∨ x.row.id ≠ i ∧ y.update = x.update) := by
  refine ⟨_, List.mem_map.mpr ⟨x, h, rfl⟩, ?_⟩
  by_cases hid : x.row.id = i
  · rw [if_pos hid]
    exact ⟨rfl, rfl, .inl ⟨hid, rfl⟩⟩
  · rw [if_neg hid]
    exact ⟨rfl, rfl, .inr ⟨hid, rfl⟩⟩

/-- A row matches whether or not it is being written. -/
theorem deactivates_of_row (h : x.Deactivates id scope) (hrow : x.row = y.row)
    (hinserted : x.insertedBy = y.insertedBy) : y.Deactivates id scope := by
  unfold StoredVersion.Deactivates at h ⊢
  rwa [hrow, hinserted] at h

/-- A write changes no column but one. -/
theorem map_write {β : Type} (f : PromptVersionRow → β) :
    (store.write n i b).rows.map (fun x => f x.row) = store.rows.map fun x => f x.row := by
  rw [write, List.map_map]
  refine List.map_congr_left fun x _ => ?_
  by_cases hid : x.row.id = i
  · simp [hid]
  · simp [hid]

theorem Keyed.write (h : store.Keyed) : (store.write n i b).Keyed :=
  ⟨(map_write (·.id)).symm ▸ h.ids, (map_write (·.key)).symm ▸ h.keys⟩

/-- A `markActive` writes a row that nobody else has written. -/
theorem Orderly.write {left : List EntityId} (h : store.Orderly)
    (hold : store.transactions n = some (.deactivating id scope left)) (hy : y ∈ store.rows)
    (hyid : y.row.id = i) (hyscope : y.row.scope = scope) (hyinserted : y.insertedBy = none)
    (hunlocked : store.locked n i = false) (hb : b = true ↔ i = id)
    (hpast : ∀ id' scope' remaining', stage.Past id' scope' remaining' →
      id = id' ∧ scope = scope' ∧ remaining = remaining') (hstage : stage.Past id scope remaining)
    (hleft : ∀ j ∈ left, j = i ∧ b = false ∨ j ∈ remaining)
    (hactivated : stage = .activated id scope → b = true) :
    ((store.write n i b).goTo n stage).Orderly := by
  have holdpast : (PromptStage.deactivating id scope left).Past id scope left := .inl rfl
  -- a row that another transaction activates is locked
  have hfree : ∀ {m id' scope'}, m ≠ n → store.transactions m = some (.activated id' scope') → id' ≠ i := by
    rintro m id' scope' hmn hm rfl
    obtain ⟨x, hx, hxid, hupdate⟩ := h.activated m _ _ hm
    exact hmn (eq_of_unlocked hunlocked hx hxid hupdate)
  have hcontender : ∀ {m t id' remaining'}, m ≠ n → store.transactions m = some t →
      PromptStage.Past t id' scope remaining' → id ≠ id' → id' ∈ remaining ∧ t = .activated id' scope := by
    intro m t id' remaining' hmn hm ht hne
    obtain ⟨hmem, rfl⟩ | ⟨-, heq⟩ := h.contenders n m _ t id id' scope left remaining' hmn.symm hold hm holdpast ht hne
    · obtain ⟨rfl, -⟩ | hmem := hleft id' hmem
      · exact absurd rfl (hfree hmn hm)
      · exact ⟨hmem, rfl⟩
    · cases heq
  refine ⟨h.toKeyed.write.goTo, ?_, ?_, ?_, ?_, ?_, ?_, ?_⟩
  · intro x hx z hz hxinserted hzinserted hxactive hzactive hscope
    obtain ⟨x₀, hx₀, hxrow, hxby, -⟩ := exists_of_mem_write hx
    obtain ⟨z₀, hz₀, hzrow, hzby, -⟩ := exists_of_mem_write hz
    rw [hxrow] at hxactive hscope ⊢
    rw [hzrow] at hzactive hscope ⊢
    exact h.oneActive x₀ hx₀ z₀ hz₀ (hxby ▸ hxinserted) (hzby ▸ hzinserted) hxactive hzactive hscope
  · intro x hx hxinserted
    obtain ⟨x₀, hx₀, hxrow, hxby, ⟨hid, -⟩ | ⟨-, hupdate⟩⟩ := exists_of_mem_write hx
    · obtain rfl := h.eq_of_id hx₀ hy (hid.trans hyid.symm)
      exact absurd (hxby.trans hyinserted) hxinserted
    · rw [hxrow, hupdate]
      exact h.inserted x₀ hx₀ (hxby ▸ hxinserted)
  · intro x hx m c hc
    obtain ⟨x₀, hx₀, hxrow, -, ⟨hid, hupdate⟩ | ⟨-, hupdate⟩⟩ := exists_of_mem_write hx
    · obtain rfl := h.eq_of_id hx₀ hy (hid.trans hyid.symm)
      rw [hupdate] at hc
      obtain ⟨rfl, rfl⟩ := Prod.mk.inj (Option.some.inj hc)
      refine ⟨stage, id, remaining, goTo_self, ?_, ?_⟩
      · rw [hxrow, hyscope]
        exact hstage
      · rw [hxrow, hid]
        exact hb
    · rw [hupdate] at hc
      obtain ⟨s, id', remaining', hm, hs, hc⟩ := h.updates x₀ hx₀ m c hc
      rw [hxrow]
      by_cases hmn : m = n
      · obtain rfl := hmn
        obtain rfl := Option.some.inj (hold.symm.trans hm)
        obtain ⟨rfl, hscope, -⟩ := past_deactivating hs
        exact ⟨stage, id, remaining, goTo_self, hscope ▸ hstage, hc⟩
      · exact ⟨s, id', remaining', (goTo_of_ne hmn).trans hm, hs, hc⟩
  · intro m s id' scope' hm htargets
    have hbefore : ∃ x ∈ store.rows, x.row.id = id' ∧ x.row.scope = scope' ∧ x.insertedBy = none := by
      obtain ⟨rfl, rfl⟩ | ⟨-, hm⟩ := of_goTo hm
      · obtain heq | ⟨remaining', hs⟩ := htargets
        · rw [heq] at hstage
          obtain heq | ⟨heq, -⟩ := hstage <;> cases heq
        · obtain ⟨rfl, rfl, -⟩ := hpast _ _ _ hs
          exact h.target m _ id scope hold holdpast.targets
      · exact h.target m s id' scope' hm htargets
    obtain ⟨x, hx, hxid, hxscope, hxinserted⟩ := hbefore
    obtain ⟨z, hz, hzrow, hzby, -⟩ := exists_mem_write (n := n) (i := i) (b := b) hx
    exact ⟨z, hz, hzrow ▸ hxid, hzrow ▸ hxscope, hzby.trans hxinserted⟩
  · intro m s id' scope' remaining' hm hs x hx hdeactivates
    obtain ⟨x₀, hx₀, hxrow, hxby, hwritten⟩ := exists_of_mem_write hx
    have hbefore := deactivates_of_row hdeactivates hxrow hxby
    rw [hxrow]
    obtain ⟨rfl, rfl⟩ | ⟨hmn, hm⟩ := of_goTo hm
    · obtain ⟨rfl, rfl, rfl⟩ := hpast _ _ _ hs
      obtain hmem | hupdate := h.selected m _ id scope left hold holdpast x₀ hx₀ hbefore
      · obtain ⟨hid, rfl⟩ | hmem := hleft _ hmem
        · obtain ⟨-, hupdate⟩ | ⟨hne, -⟩ := hwritten
          · exact .inr hupdate
          · exact absurd hid hne
        · exact .inl hmem
      · obtain ⟨hid, hnew⟩ | ⟨-, hsame⟩ := hwritten
        · -- the row it activates is not one it deactivates
          have hbfalse : b = false := by
            rw [Bool.eq_false_iff]
            intro htrue
            exact hbefore.2.2.2 (hid.trans (hb.mp htrue))
          exact .inr (hbfalse ▸ hnew)
        · exact .inr (hsame.trans hupdate)
    · obtain hmem | hupdate := h.selected m s id' scope' remaining' hm hs x₀ hx₀ hbefore
      · exact .inl hmem
      · obtain ⟨hid, -⟩ | ⟨-, hsame⟩ := hwritten
        · exact absurd (eq_of_unlocked hunlocked hx₀ hid hupdate) hmn
        · exact .inr (hsame.trans hupdate)
  · intro m id' scope' hm
    obtain ⟨rfl, heq⟩ | ⟨hmn, hm⟩ := of_goTo hm
    · -- the transaction itself has written its version
      obtain ⟨rfl, rfl, -⟩ := hpast _ _ _ (.inr ⟨heq.symm, rfl⟩)
      have htrue := hactivated heq.symm
      obtain ⟨z, hz, hzrow, -, ⟨-, hupdate⟩ | ⟨hne, -⟩⟩ := exists_mem_write (n := m) (i := i) (b := b) hy
      · exact ⟨z, hz, by rw [hzrow, hyid, hb.mp htrue], htrue ▸ hupdate⟩
      · exact absurd hyid hne
    · obtain ⟨x, hx, hxid, hupdate⟩ := h.activated m id' scope' hm
      obtain ⟨z, hz, hzrow, -, ⟨hid, -⟩ | ⟨-, hsame⟩⟩ := exists_mem_write (n := n) (i := i) (b := b) hx
      · exact absurd (eq_of_unlocked hunlocked hx hid hupdate) hmn
      · exact ⟨z, hz, hzrow ▸ hxid, hsame.trans hupdate⟩
  · intro m k s t id₁ id₂ scope' remaining₁ remaining₂ hmk hm hk hs ht hne
    obtain ⟨rfl, rfl⟩ | ⟨hmn, hmold⟩ := of_goTo hm
    · obtain ⟨rfl, -⟩ | ⟨hkn, hkold⟩ := of_goTo hk
      · exact absurd rfl hmk
      · obtain ⟨rfl, rfl, rfl⟩ := hpast _ _ _ hs
        exact .inl (hcontender hkn hkold ht hne)
    · obtain ⟨rfl, rfl⟩ | ⟨-, hkold⟩ := of_goTo hk
      · obtain ⟨rfl, rfl, rfl⟩ := hpast _ _ _ ht
        exact .inr (hcontender hmn hmold hs hne.symm)
      · exact h.contenders m k s t id₁ id₂ scope' remaining₁ remaining₂ hmk hmold hkold hs ht hne

/-- `updateMany` goes past a row that does not match any more. -/
theorem Orderly.skip (h : store.Orderly)
    (hold : store.transactions n = some (.deactivating id scope (i :: remaining)))
    (hunlocked : store.locked n i = false)
    (hnone : ∀ x ∈ store.rows, x.row.id = i → ¬x.Deactivates id scope) :
    (store.goTo n (.deactivating id scope remaining)).Orderly := by
  have holdpast : (PromptStage.deactivating id scope (i :: remaining)).Past id scope (i :: remaining) := .inl rfl
  have hcontender : ∀ {m t id' remaining'}, m ≠ n → store.transactions m = some t →
      PromptStage.Past t id' scope remaining' → id ≠ id' → id' ∈ remaining ∧ t = .activated id' scope := by
    intro m t id' remaining' hmn hm ht hne
    obtain ⟨hmem, rfl⟩ | ⟨-, heq⟩ :=
      h.contenders n m _ t id id' scope (i :: remaining) remaining' hmn.symm hold hm holdpast ht hne
    · obtain rfl | hmem := List.mem_cons.mp hmem
      · -- a row that another transaction activates is locked
        obtain ⟨x, hx, hxid, hupdate⟩ := h.activated m _ _ hm
        exact absurd (eq_of_unlocked hunlocked hx hxid hupdate) hmn
      · exact ⟨hmem, rfl⟩
    · cases heq
  refine ⟨h.toKeyed.goTo, h.oneActive, h.inserted, ?_, ?_, ?_, ?_, ?_⟩
  · intro x hx m b hupdate
    obtain ⟨s, id', remaining', hm, hs, hb⟩ := h.updates x hx m b hupdate
    by_cases hmn : m = n
    · obtain rfl := hmn
      obtain rfl := Option.some.inj (hold.symm.trans hm)
      obtain ⟨rfl, hscope, -⟩ := past_deactivating hs
      exact ⟨_, id, remaining, goTo_self, .inl (hscope ▸ rfl), hb⟩
    · exact ⟨s, id', remaining', (goTo_of_ne hmn).trans hm, hs, hb⟩
  · intro m s id' scope' hm htargets
    obtain ⟨rfl, rfl⟩ | ⟨-, hm⟩ := of_goTo hm
    · obtain heq | ⟨remaining', hs⟩ := htargets
      · cases heq
      · obtain ⟨rfl, rfl, -⟩ := past_deactivating hs
        exact h.target m _ id scope hold holdpast.targets
    · exact h.target m s id' scope' hm htargets
  · intro m s id' scope' remaining' hm hs x hx hdeactivates
    obtain ⟨rfl, rfl⟩ | ⟨-, hm⟩ := of_goTo hm
    · obtain ⟨rfl, rfl, rfl⟩ := past_deactivating hs
      obtain hmem | hupdate := h.selected m _ id scope (i :: remaining) hold holdpast x hx hdeactivates
      · obtain hid | hmem := List.mem_cons.mp hmem
        · exact absurd hdeactivates (hnone x hx hid)
        · exact .inl hmem
      · exact .inr hupdate
    · exact h.selected m s id' scope' remaining' hm hs x hx hdeactivates
  · intro m id' scope' hm
    obtain ⟨-, heq⟩ | ⟨-, hm⟩ := of_goTo hm
    · cases heq
    · exact h.activated m id' scope' hm
  · intro m k s t id₁ id₂ scope' remaining₁ remaining₂ hmk hm hk hs ht hne
    obtain ⟨rfl, rfl⟩ | ⟨hmn, hmold⟩ := of_goTo hm
    · obtain ⟨rfl, -⟩ | ⟨hkn, hkold⟩ := of_goTo hk
      · exact absurd rfl hmk
      · obtain ⟨rfl, rfl, rfl⟩ := past_deactivating hs
        exact .inl (hcontender hkn hkold ht hne)
    · obtain ⟨rfl, rfl⟩ | ⟨-, hkold⟩ := of_goTo hk
      · obtain ⟨rfl, rfl, rfl⟩ := past_deactivating ht
        exact .inr (hcontender hmn hmold hs hne.symm)
      · exact h.contenders m k s t id₁ id₂ scope' remaining₁ remaining₂ hmk hmold hkold hs ht hne

/-- A new version has an id and a number of its own. -/
theorem Keyed.create (h : store.Keyed) (hclash : ∀ x ∈ store.rows, clashes r x = false) :
    Keyed { store with rows := store.rows ++ [{ row := r, insertedBy := some n }] } := by
  have hnot : ∀ x ∈ store.rows, x.row.id ≠ r.id ∧ x.row.key ≠ r.key := by
    intro x hx
    simpa [clashes] using hclash x hx
  refine ⟨?_, ?_⟩
  · rw [List.map_append, List.nodup_append]
    refine ⟨h.ids, List.nodup_singleton _, ?_⟩
    rintro a ha b hb
    obtain ⟨x, hx, rfl⟩ := List.mem_map.mp ha
    rw [List.mem_singleton.mp hb]
    exact (hnot x hx).1
  · rw [List.map_append, List.nodup_append]
    refine ⟨h.keys, List.nodup_singleton _, ?_⟩
    rintro a ha b hb
    obtain ⟨x, hx, rfl⟩ := List.mem_map.mp ha
    rw [List.mem_singleton.mp hb]
    exact (hnot x hx).2

/-- A new version is not active. -/
theorem Orderly.create (h : store.Orderly)
    (hold : ∀ old, store.transactions n = some old → ∀ id scope remaining, ¬old.Past id scope remaining)
    (hactive : r.isActive = false) (hclash : ∀ x ∈ store.rows, clashes r x = false) :
    (PromptStore.goTo { store with rows := store.rows ++ [{ row := r, insertedBy := some n }] } n
      .inserted).Orderly := by
  have hmem : ∀ {x : StoredVersion}, x ∈ store.rows ++ [{ row := r, insertedBy := some n }] →
      x ∈ store.rows ∨ x = { row := r, insertedBy := some n } := by
    intro x hx
    obtain hx | hx := List.mem_append.mp hx
    · exact .inl hx
    · exact .inr (List.mem_singleton.mp hx)
  have hwide : PromptStore.Orderly { store with rows := store.rows ++ [{ row := r, insertedBy := some n }] } := by
    refine ⟨h.toKeyed.create hclash, ?_, ?_, ?_, ?_, ?_, ?_, h.contenders⟩
    · intro x hx z hz hxinserted hzinserted hxactive hzactive hscope
      obtain hx | rfl := hmem hx
      · obtain hz | rfl := hmem hz
        · exact h.oneActive x hx z hz hxinserted hzinserted hxactive hzactive hscope
        · cases hzinserted
      · cases hxinserted
    · intro x hx hinserted
      obtain hx | rfl := hmem hx
      · exact h.inserted x hx hinserted
      · exact ⟨hactive, rfl⟩
    · intro x hx m b hupdate
      obtain hx | rfl := hmem hx
      · exact h.updates x hx m b hupdate
      · cases hupdate
    · intro m s id scope hm htargets
      obtain ⟨x, hx, hrest⟩ := h.target m s id scope hm htargets
      exact ⟨x, List.mem_append_left _ hx, hrest⟩
    · intro m s id scope remaining hm hs x hx hdeactivates
      obtain hx | rfl := hmem hx
      · exact h.selected m s id scope remaining hm hs x hx hdeactivates
      · cases hdeactivates.1
    · intro m id scope hm
      obtain ⟨x, hx, hrest⟩ := h.activated m id scope hm
      exact ⟨x, List.mem_append_left _ hx, hrest⟩
  refine hwide.goTo hold ?_ ?_
  · rintro id scope remaining (heq | ⟨heq, -⟩) <;> cases heq
  · rintro id scope (heq | ⟨remaining, heq | ⟨heq, -⟩⟩) <;> cases heq

theorem Keyed.rolledBack (h : store.Keyed) : (store.rolledBack n).Keyed := by
  have hsub : ((store.rolledBack n).rows.map (·.row)).Sublist (store.rows.map (·.row)) := by
    rw [PromptStore.rolledBack, PromptStore.close, List.map_map]
    exact List.filter_sublist.map _
  refine ⟨h.ids.sublist ?_, h.keys.sublist ?_⟩
  · simpa [Function.comp_def] using hsub.map PromptVersionRow.id
  · simpa [Function.comp_def] using hsub.map PromptVersionRow.key

/-- What a transaction wrote is gone. -/
theorem Orderly.rolledBack (h : store.Orderly) : (store.rolledBack n).Orderly := by
  have hmem : ∀ {x : StoredVersion}, x ∈ (store.rolledBack n).rows →
      ∃ y ∈ store.rows, x.row = y.row ∧ x.insertedBy = y.insertedBy ∧ x.update = y.update.filter (·.1 ≠ n) := by
    intro x hx
    obtain ⟨y, hy, rfl⟩ := List.mem_map.mp hx
    exact ⟨y, List.mem_of_mem_filter hy, rfl, rfl, rfl⟩
  have hkept : ∀ {y : StoredVersion}, y ∈ store.rows → y.insertedBy = none →
      y.rollback n ∈ (store.rolledBack n).rows := by
    intro y hy hinserted
    refine List.mem_map.mpr ⟨y, List.mem_filter.mpr ⟨hy, ?_⟩, rfl⟩
    simp [hinserted]
  have hfilter : ∀ {u : Option (ℕ × Bool)} {m : ℕ} {b : Bool}, m ≠ n → u = some (m, b) →
      u.filter (·.1 ≠ n) = some (m, b) := by
    rintro u m b hmn rfl
    simp [Option.filter, hmn]
  refine ⟨h.toKeyed.rolledBack, ?_, ?_, ?_, ?_, ?_, ?_, ?_⟩
  · intro x hx z hz hxinserted hzinserted hxactive hzactive hscope
    obtain ⟨x₀, hx₀, hxrow, hxby, -⟩ := hmem hx
    obtain ⟨z₀, hz₀, hzrow, hzby, -⟩ := hmem hz
    rw [hxrow] at hxactive hscope ⊢
    rw [hzrow] at hzactive hscope ⊢
    exact h.oneActive x₀ hx₀ z₀ hz₀ (hxby ▸ hxinserted) (hzby ▸ hzinserted) hxactive hzactive hscope
  · intro x hx hinserted
    obtain ⟨x₀, hx₀, hrow, hby, hupdate⟩ := hmem hx
    obtain ⟨hactive, hnone⟩ := h.inserted x₀ hx₀ (hby ▸ hinserted)
    rw [hrow, hupdate, hnone]
    exact ⟨hactive, rfl⟩
  · intro x hx m b hupdate
    obtain ⟨x₀, hx₀, hrow, -, hfiltered⟩ := hmem hx
    rw [hfiltered, Option.filter_eq_some_iff] at hupdate
    obtain ⟨hupdate, hmn⟩ := hupdate
    obtain ⟨s, id, remaining, hm, hs, hb⟩ := h.updates x₀ hx₀ m b hupdate
    exact ⟨s, id, remaining, (close_of_ne (of_decide_eq_true hmn)).trans hm, hrow ▸ hs, hrow ▸ hb⟩
  · intro m s id scope hm htargets
    obtain ⟨y, hy, hid, hscope, hinserted⟩ := h.target m s id scope (of_close hm).2 htargets
    exact ⟨_, hkept hy hinserted, hid, hscope, hinserted⟩
  · intro m s id scope remaining hm hs x hx hdeactivates
    obtain ⟨hmn, hm⟩ := of_close hm
    obtain ⟨x₀, hx₀, hrow, hby, hupdate⟩ := hmem hx
    obtain hleft | hwritten :=
      h.selected m s id scope remaining hm hs x₀ hx₀ (deactivates_of_row hdeactivates hrow hby)
    · exact .inl (hrow ▸ hleft)
    · exact .inr (hupdate.trans (hfilter hmn hwritten))
  · intro m id scope hm
    obtain ⟨hmn, hm⟩ := of_close hm
    obtain ⟨y, hy, hid, hupdate⟩ := h.activated m id scope hm
    have hinserted : y.insertedBy = none := by
      by_contra hne
      rw [(h.inserted y hy hne).2] at hupdate
      cases hupdate
    exact ⟨_, hkept hy hinserted, hid, hfilter hmn hupdate⟩
  · intro m k s t id₁ id₂ scope remaining₁ remaining₂ hmk hm hk hs ht hne
    exact h.contenders m k s t id₁ id₂ scope remaining₁ remaining₂ hmk (of_close hm).2 (of_close hk).2 hs ht hne

/-- What the transaction has written, when it commits: its version, which it activates, and others of the scope. -/
theorem Orderly.written (h : store.Orderly) (hend : store.transactions n = some .inserted ∨
    ∃ id scope, store.transactions n = some (.activated id scope)) (hx : x ∈ store.rows)
    (hupdate : x.update = some (n, b)) :
    ∃ id, store.transactions n = some (.activated id x.row.scope) ∧ (b = true ↔ x.row.id = id) := by
  obtain ⟨s, id, remaining, hn, hs, hb⟩ := h.updates x hx n b hupdate
  refine ⟨id, ?_, hb⟩
  obtain hinserted | ⟨id', scope', hactivated⟩ := hend
  · obtain rfl := Option.some.inj (hn.symm.trans hinserted)
    obtain heq | ⟨heq, -⟩ := hs <;> cases heq
  · obtain rfl := Option.some.inj (hn.symm.trans hactivated)
    obtain ⟨rfl, hscope, -⟩ := past_activated hs
    rw [hactivated, hscope]

/-- A row that is active after a commit was active before and not written, or is the version activated. -/
theorem Orderly.active_commit (h : store.Orderly) (hend : store.transactions n = some .inserted ∨
    ∃ id scope, store.transactions n = some (.activated id scope)) (hx : x ∈ store.rows)
    (hactive : (x.commit n).row.isActive = true) :
    x.insertedBy = none ∧
      (x.row.isActive = true ∧ x.update ≠ some (n, false) ∨
        store.transactions n = some (.activated x.row.id x.row.scope)) := by
  have hinserted : x.insertedBy = none := by
    by_contra hne
    obtain ⟨hinactive, hnone⟩ := h.inserted x hx hne
    simp [StoredVersion.commit, hnone, hinactive] at hactive
  refine ⟨hinserted, ?_⟩
  cases hupdate : x.update with
  | none =>
    rw [StoredVersion.commit, hupdate] at hactive
    exact .inl ⟨hactive, nofun⟩
  | some write =>
    obtain ⟨m, b⟩ := write
    simp only [StoredVersion.commit, hupdate] at hactive
    by_cases hmn : m = n
    · obtain rfl := hmn
      rw [if_pos rfl] at hactive
      obtain rfl : b = true := hactive
      obtain ⟨id, hactivated, hb⟩ := h.written hend hx hupdate
      exact .inr (hb.mp rfl ▸ hactivated)
    · rw [if_neg hmn] at hactive
      exact .inl ⟨hactive, by simp [hmn]⟩

/-- The scope of a committed activation: no other row of it is active. -/
theorem Orderly.eq_of_active_commit (h : store.Orderly)
    (hactivated : store.transactions n = some (.activated id scope)) (hx : x ∈ store.rows)
    (hscope : x.row.scope = scope) (hactive : (x.commit n).row.isActive = true) : x.row.id = id := by
  obtain ⟨hinserted, ⟨hbefore, hunwritten⟩ | hown⟩ := h.active_commit (.inr ⟨_, _, hactivated⟩) hx hactive
  · by_contra hne
    obtain hmem | hwritten := h.selected n _ id scope [] hactivated (.inr ⟨rfl, rfl⟩) x hx
      ⟨hinserted, hscope, hbefore, hne⟩
    · cases hmem
    · exact hunwritten hwritten
  · rw [hactivated] at hown
    cases hown
    rfl

theorem commit_id (x : StoredVersion) (n : ℕ) :
    (x.commit n).row.id = x.row.id ∧ (x.commit n).row.scope = x.row.scope ∧ (x.commit n).row.key = x.row.key := by
  unfold StoredVersion.commit
  cases x.update with
  | none => exact ⟨rfl, rfl, rfl⟩
  | some write =>
    obtain ⟨m, b⟩ := write
    by_cases hmn : m = n
    · simp [hmn, PromptVersionRow.scope, PromptVersionRow.key]
    · simp [hmn]

theorem Keyed.commits (h : store.Keyed) : (store.commits n).Keyed := by
  have hmap : ∀ {β : Type} (f : StoredVersion → β), (∀ y : StoredVersion, f (y.commit n) = f y) →
      (store.commits n).rows.map f = store.rows.map f := by
    intro β f hf
    rw [PromptStore.commits, PromptStore.close, List.map_map]
    exact List.map_congr_left fun y _ => hf y
  refine ⟨?_, ?_⟩
  · rw [hmap _ fun y => (commit_id y n).1]
    exact h.ids
  · rw [hmap _ fun y => (commit_id y n).2.2]
    exact h.keys

/-- A commit shows what the transaction wrote. -/
theorem Orderly.commits (h : store.Orderly) (hend : store.transactions n = some .inserted ∨
    ∃ id scope, store.transactions n = some (.activated id scope)) : (store.commits n).Orderly := by
  have hmem : ∀ {x : StoredVersion}, x ∈ (store.commits n).rows → ∃ y ∈ store.rows, x = y.commit n := by
    intro x hx
    obtain ⟨y, hy, rfl⟩ := List.mem_map.mp hx
    exact ⟨y, hy, rfl⟩
  have hkept : ∀ {y : StoredVersion}, y ∈ store.rows → y.commit n ∈ (store.commits n).rows :=
    fun hy => List.mem_map_of_mem hy
  have hupdate_iff : ∀ {y : StoredVersion} {m : ℕ} {b : Bool},
      (y.commit n).update = some (m, b) ↔ y.update = some (m, b) ∧ m ≠ n := by
    intro y m b
    rw [StoredVersion.commit, Option.filter_eq_some_iff, decide_eq_true_iff]
  refine ⟨h.toKeyed.commits, ?_, ?_, ?_, ?_, ?_, ?_, ?_⟩
  · intro x hx z hz _ _ hxactive hzactive hscope
    obtain ⟨x₀, hx₀, rfl⟩ := hmem hx
    obtain ⟨z₀, hz₀, rfl⟩ := hmem hz
    obtain ⟨hxid, hxscope, -⟩ := commit_id x₀ n
    obtain ⟨hzid, hzscope, -⟩ := commit_id z₀ n
    rw [hxscope, hzscope] at hscope
    rw [hxid, hzid]
    obtain ⟨hxinserted, ⟨hxbefore, -⟩ | hown⟩ := h.active_commit hend hx₀ hxactive
    · obtain ⟨hzinserted, ⟨hzbefore, -⟩ | hown⟩ := h.active_commit hend hz₀ hzactive
      · exact h.oneActive x₀ hx₀ z₀ hz₀ hxinserted hzinserted hxbefore hzbefore hscope
      · exact h.eq_of_active_commit hown hx₀ hscope hxactive
    · exact (h.eq_of_active_commit hown hz₀ hscope.symm hzactive).symm
  · intro x hx hinserted
    obtain ⟨x₀, hx₀, rfl⟩ := hmem hx
    have hne : x₀.insertedBy ≠ none := by
      intro hnone
      exact hinserted (by simp [StoredVersion.commit, hnone])
    obtain ⟨hinactive, hnone⟩ := h.inserted x₀ hx₀ hne
    simp [StoredVersion.commit, hnone, hinactive]
  · intro x hx m b hupdate
    obtain ⟨x₀, hx₀, rfl⟩ := hmem hx
    obtain ⟨hupdate, hmn⟩ := hupdate_iff.mp hupdate
    obtain ⟨s, id, remaining, hm, hs, hb⟩ := h.updates x₀ hx₀ m b hupdate
    obtain ⟨hid, hscope, -⟩ := commit_id x₀ n
    rw [hid, hscope]
    exact ⟨s, id, remaining, (close_of_ne hmn).trans hm, hs, hb⟩
  · intro m s id scope hm htargets
    obtain ⟨y, hy, hid, hscope, hinserted⟩ := h.target m s id scope (of_close hm).2 htargets
    obtain ⟨hyid, hyscope, -⟩ := commit_id y n
    exact ⟨_, hkept hy, hyid.trans hid, hyscope.trans hscope, by simp [StoredVersion.commit, hinserted]⟩
  · intro m s id scope remaining hm hs x hx hdeactivates
    obtain ⟨hmn, hm⟩ := of_close hm
    obtain ⟨x₀, hx₀, rfl⟩ := hmem hx
    obtain ⟨hid, hscope, -⟩ := commit_id x₀ n
    obtain ⟨-, hin, hactive, hne⟩ := hdeactivates
    rw [hscope] at hin
    rw [hid] at hne ⊢
    obtain ⟨hinserted, ⟨hbefore, -⟩ | hown⟩ := h.active_commit hend hx₀ hactive
    · obtain hleft | hwritten :=
        h.selected m s id scope remaining hm hs x₀ hx₀ ⟨hinserted, hin, hbefore, hne⟩
      · exact .inl hleft
      · exact .inr (hupdate_iff.mpr ⟨hwritten, hmn⟩)
    · -- a version that has just been activated is one the other transaction is still to deactivate
      rw [hin] at hown
      obtain ⟨hleft, -⟩ | ⟨hleft, -⟩ :=
        h.contenders n m _ s x₀.row.id id scope [] remaining hmn.symm hown hm (.inr ⟨rfl, rfl⟩) hs hne
      · cases hleft
      · exact .inl hleft
  · intro m id scope hm
    obtain ⟨hmn, hm⟩ := of_close hm
    obtain ⟨y, hy, hid, hupdate⟩ := h.activated m id scope hm
    exact ⟨_, hkept hy, (commit_id y n).1.trans hid, hupdate_iff.mpr ⟨hupdate, hmn⟩⟩
  · intro m k s t id₁ id₂ scope remaining₁ remaining₂ hmk hm hk hs ht hne
    exact h.contenders m k s t id₁ id₂ scope remaining₁ remaining₂ hmk (of_close hm).2 (of_close hk).2 hs ht hne

/-! ## Actions -/

/-- What a search through the rows did not find. -/
theorem not_clashes (h : ¬(store.rows.any (clashes r)) = true) : ∀ x ∈ store.rows, clashes r x = false := by
  intro x hx
  rw [Bool.eq_false_iff]
  exact fun hclash => h (List.any_eq_true.mpr ⟨x, hx, hclash⟩)

/-- What an action can do to the table. -/
inductive Move (a : PromptAction) (store : PromptStore) : PromptStore → Prop where
  | proceed {n : ℕ} {stage : PromptStage}
      (old : ∀ old, store.transactions n = some old → ∀ id scope remaining, ¬old.Past id scope remaining)
      (new : ∀ id scope remaining, ¬stage.Past id scope remaining)
      (target : ∀ id scope, stage.Targets id scope →
        ∃ x ∈ store.rows, x.row.id = id ∧ x.row.scope = scope ∧ x.insertedBy = none) :
      Move a store (store.goTo n stage)
  | select {n : ℕ} {id : EntityId} {scope : PromptScope} (action : a = .updateMany n)
      (stage : store.transactions n = some (.found id scope)) :
      Move a store (store.goTo n (.deactivating id scope (store.selected id scope)))
  | skip {n : ℕ} {id i : EntityId} {scope : PromptScope} {remaining : List EntityId}
      (stage : store.transactions n = some (.deactivating id scope (i :: remaining)))
      (unlocked : store.locked n i = false)
      (none : ∀ x ∈ store.rows, x.row.id = i → ¬x.Deactivates id scope) :
      Move a store (store.goTo n (.deactivating id scope remaining))
  | deactivate {n : ℕ} {id i : EntityId} {scope : PromptScope} {remaining : List EntityId} {x : StoredVersion}
      (stage : store.transactions n = some (.deactivating id scope (i :: remaining)))
      (unlocked : store.locked n i = false) (mem : x ∈ store.rows) (eq : x.row.id = i)
      (deactivates : x.Deactivates id scope) :
      Move a store ((store.write n i false).goTo n (.deactivating id scope remaining))
  | activate {n : ℕ} {id : EntityId} {scope : PromptScope}
      (stage : store.transactions n = some (.deactivating id scope []))
      (unlocked : store.locked n id = false) :
      Move a store ((store.write n id true).goTo n (.activated id scope))
  | create {n : ℕ} {input : PromptVersionInput} {version : ℕ} {r : PromptVersionRow}
      (stage : store.transactions n = some (.numbered input version)) (inactive : r.isActive = false)
      (unique : ∀ x ∈ store.rows, clashes r x = false) :
      Move a store
        (goTo { store with rows := store.rows ++ [{ row := r, insertedBy := some n }] } n .inserted)
  | commit {n : ℕ} (stage : store.transactions n = some .inserted ∨
      ∃ id scope, store.transactions n = some (.activated id scope)) : Move a store (store.commits n)
  | rollback {n : ℕ} : Move a store (store.rolledBack n)

/-- The stages that have read nothing. -/
theorem not_targets (h : (∃ id, stage = .finding id) ∨ (∃ input, stage = .numbering input) ∨
    ∃ input version, stage = .numbered input version) : ∀ i scope, ¬stage.Targets i scope := by
  obtain ⟨id, rfl⟩ | ⟨input, rfl⟩ | ⟨input, version, rfl⟩ := h
  all_goals
    rintro i scope (heq | ⟨remaining, heq | ⟨heq, -⟩⟩) <;> cases heq

theorem not_past (h : ∀ i scope, ¬stage.Targets i scope) (i : EntityId) (scope : PromptScope)
    (remaining : List EntityId) : ¬stage.Past i scope remaining := fun hpast => h i scope hpast.targets

/-- From stages that have read nothing to such stages. -/
theorem move_proceed {a : PromptAction} (hold : ∀ old, store.transactions n = some old → ∀ i scope, ¬old.Targets i scope)
    (hnew : ∀ i scope, ¬stage.Targets i scope) : Move a store (store.goTo n stage) :=
  .proceed (fun old hn => not_past (hold old hn)) (not_past hnew) fun i scope htargets =>
    absurd htargets (hnew i scope)

theorem move_of_step {a : PromptAction} (h : step a store = some store') : Move a store store' := by
  cases a with
  | markActive n id =>
    dsimp only [step] at h
    split at h
    · rename_i hnone
      obtain rfl := Option.some.inj h
      refine move_proceed (fun old hn => ?_) (not_targets (.inl ⟨_, rfl⟩))
      rw [hnone] at hn
      cases hn
    · cases h
  | createVersion n input =>
    dsimp only [step] at h
    split at h
    · rename_i hnone
      obtain rfl := Option.some.inj h
      refine move_proceed (fun old hn => ?_) (not_targets (.inr (.inl ⟨input, rfl⟩)))
      rw [hnone] at hn
      cases hn
    · cases h
  | findUnique n =>
    dsimp only [step] at h
    split at h
    · rename_i id hn
      split at h
      · rename_i target hfind
        obtain rfl := Option.some.inj h
        refine .proceed (fun old hold => ?_) ?_ ?_
        · obtain rfl := Option.some.inj (hn.symm.trans hold)
          exact not_past (not_targets (.inl ⟨_, rfl⟩))
        · rintro i scope remaining (heq | ⟨heq, -⟩) <;> cases heq
        · rintro i scope (heq | ⟨remaining, heq | ⟨heq, -⟩⟩)
          · cases heq
            obtain ⟨x, hx, hrow⟩ := List.mem_map.mp (List.mem_of_find?_eq_some hfind)
            obtain ⟨hx, hinserted⟩ := List.mem_filter.mp hx
            have hid := List.find?_some hfind
            refine ⟨x, hx, ?_, ?_, of_decide_eq_true hinserted⟩
            · rw [hrow]
              exact of_decide_eq_true hid
            · rw [hrow]
          · cases heq
          · cases heq
      · obtain rfl := Option.some.inj h
        exact .rollback
    · cases h
  | updateMany n =>
    dsimp only [step] at h
    split at h
    · rename_i id scope hn
      obtain rfl := Option.some.inj h
      exact .select rfl hn
    · cases h
  | updateNext n =>
    dsimp only [step] at h
    split at h
    · rename_i id scope next remaining hn
      split at h
      · cases h
      · rename_i hunlocked
        have hunlocked := Bool.eq_false_iff.mpr hunlocked
        split at h
        · rename_i hany
          obtain rfl := Option.some.inj h
          obtain ⟨x, hx, hmatch⟩ := List.any_eq_true.mp hany
          rw [Bool.and_eq_true, decide_eq_true_iff, decide_eq_true_iff] at hmatch
          exact .deactivate hn hunlocked hx hmatch.1 hmatch.2
        · rename_i hnone
          obtain rfl := Option.some.inj h
          refine .skip hn hunlocked fun x hx hid hdeactivates => hnone ?_
          refine List.any_eq_true.mpr ⟨x, hx, ?_⟩
          rw [Bool.and_eq_true, decide_eq_true_iff, decide_eq_true_iff]
          exact ⟨hid, hdeactivates⟩
    · cases h
  | update n =>
    dsimp only [step] at h
    split at h
    · rename_i id scope hn
      split at h
      · cases h
      · rename_i hunlocked
        obtain rfl := Option.some.inj h
        exact .activate hn (Bool.eq_false_iff.mpr hunlocked)
    · cases h
  | findFirst n =>
    dsimp only [step] at h
    split at h
    · rename_i input hn
      obtain rfl := Option.some.inj h
      refine move_proceed (fun old hold => ?_) (not_targets (.inr (.inr ⟨input, _, rfl⟩)))
      obtain rfl := Option.some.inj (hn.symm.trans hold)
      exact not_targets (.inr (.inl ⟨input, rfl⟩))
    · cases h
  | create n id createdAt =>
    dsimp only [step] at h
    split at h
    · rename_i input version hn
      split at h
      · cases h
      · split at h
        · obtain rfl := Option.some.inj h
          exact .rollback
        · rename_i hclash
          obtain rfl := Option.some.inj h
          exact .create hn rfl (not_clashes hclash)
    · cases h
  | commit n =>
    dsimp only [step] at h
    split at h
    · rename_i id scope hn
      obtain rfl := Option.some.inj h
      exact .commit (.inr ⟨id, scope, hn⟩)
    · rename_i hn
      obtain rfl := Option.some.inj h
      exact .commit (.inl hn)
    · cases h
  | rollback n =>
    dsimp only [step] at h
    split at h
    · obtain rfl := Option.some.inj h
      exact .rollback
    · cases h

/-- The indexes hold whatever happens. -/
theorem Keyed.step {a : PromptAction} (h : store.Keyed) (hstep : PromptStore.step a store = some store') :
    store'.Keyed := by
  cases move_of_step hstep with
  | proceed old new target => exact h.goTo
  | select action stage => exact h.goTo
  | skip stage unlocked none => exact h.goTo
  | deactivate stage unlocked mem eq deactivates => exact h.write.goTo
  | activate stage unlocked => exact h.write.goTo
  | create stage inactive unique => exact (h.create unique).goTo
  | commit stage => exact h.commits
  | rollback => exact h.rolledBack

/-- Whatever happens while `markActive`s take turns. -/
theorem Orderly.step {a : PromptAction} (h : store.Orderly) (hturns : TakesTurns a store)
    (hstep : PromptStore.step a store = some store') : store'.Orderly := by
  cases move_of_step hstep with
  | proceed old new target => exact h.goTo old new target
  | select action stage => exact h.updateMany stage (hturns _ action)
  | skip stage unlocked none => exact h.skip stage unlocked none
  | deactivate stage unlocked mem eq deactivates =>
    obtain ⟨hinserted, hscope, -, hne⟩ := deactivates
    refine h.write stage mem eq hscope hinserted unlocked ?_ (fun _ _ _ => past_deactivating) (.inl rfl) ?_ nofun
    · rw [← eq]
      simp [hne]
    · intro j hj
      obtain rfl | hj := List.mem_cons.mp hj
      · exact .inl ⟨rfl, rfl⟩
      · exact .inr hj
  | activate stage unlocked =>
    obtain ⟨x, hx, hid, hscope, hinserted⟩ := h.target _ _ _ _ stage (.inr ⟨_, .inl rfl⟩)
    refine h.write stage hx hid hscope hinserted unlocked ?_ (fun _ _ _ => past_activated) (.inr ⟨rfl, rfl⟩)
      ?_ fun _ => rfl
    · simp
    · exact fun j hj => absurd hj List.not_mem_nil
  | create stage inactive unique =>
    refine h.create (fun old hold => ?_) inactive unique
    obtain rfl := Option.some.inj (stage.symm.trans hold)
    exact not_past (not_targets (.inr (.inr ⟨_, _, rfl⟩)))
  | commit stage => exact h.commits stage
  | rollback => exact h.rolledBack

/-! ## Runs -/

theorem mem_committed {r : PromptVersionRow} :
    r ∈ store.committed ↔ ∃ x ∈ store.rows, x.insertedBy = none ∧ x.row = r := by
  simp [committed, and_assoc]

/-- Two versions of a prompt, neither of them active. -/
private def triageVersions : List PromptVersionRow :=
  let first : PromptVersionRow :=
    { id := "first", clientId := none, name := "triage", version := 1, layer := none, template := ""
      isActive := false, createdAt := 0 }
  [first, { first with id := "second", version := 2 }]

private def activation : List PromptAction :=
  [.markActive 0 "first", .findUnique 0, .updateMany 0, .update 0, .commit 0]

end Steps

end PromptStore

end MontrSecure
