import Mathlib.Order.Defs.Unbundled

/-!
# Transactions

A transaction reads and writes a state and answers, or rejects and leaves the state as it was. `Runs`
is the judgement about those runs of a transaction that answer: they keep to a relation between the
state before and the state after, and end in a condition on the answer and the state. Its rules follow
the ways a transaction is put together.
-/

namespace Relational

variable {σ ε α β : Type}

/-- A transaction on states `σ` that rejects with `ε`. -/
abbrev Transaction (σ ε α : Type) : Type := StateT σ (Except ε) α

/-- A read of the state. -/
def query (f : σ → α) : Transaction σ ε α := fun s => .ok (f s, s)

/-- A replacement of the state. -/
def write (f : σ → σ) : Transaction σ ε Unit := fun s => .ok ((), f s)

/-- From a state with `P`, a run of `x` that answers keeps to `R` and ends with `Q`. -/
def Runs (R : σ → σ → Prop) (P : σ → Prop) (x : Transaction σ ε α) (Q : α → σ → Prop) : Prop :=
  ∀ s, P s → ∀ a s', x s = .ok (a, s') → R s s' ∧ Q a s'

variable {R : σ → σ → Prop} {P P' : σ → Prop} {Q Q' : α → σ → Prop} {S : β → σ → Prop}
  {x : Transaction σ ε α} {f : α → Transaction σ ε β}

namespace Runs

/-! ## Reading -/

theorem pure [Std.Refl R] {a : α} (h : ∀ s, P s → Q a s) :
    Runs R P (Pure.pure a : Transaction σ ε α) Q := by
  intro s hs b s' hrun
  cases hrun
  exact ⟨refl_of R s, h s hs⟩

theorem throw {e : ε} : Runs R P (MonadExcept.throw e : Transaction σ ε α) Q := by
  intro s _ a s' hrun
  cases hrun

theorem query {g : σ → α} :
    Runs Eq P (Relational.query g : Transaction σ ε α) fun a s => P s ∧ a = g s := by
  intro s hs a s' hrun
  cases hrun
  exact ⟨rfl, hs, rfl⟩

theorem write {g : σ → σ} {T : Unit → σ → Prop} (h : ∀ s, P s → R s (g s) ∧ T () (g s)) :
    Runs R P (Relational.write g : Transaction σ ε Unit) T := by
  intro s hs a s' hrun
  cases hrun
  exact h s hs

/-! ## Putting together -/

/-- One after the other; what the first ends with is what the second starts from. -/
theorem bind [IsTrans σ R] (hx : Runs R P x Q) (hf : ∀ a, Runs R (Q a) (f a) S) :
    Runs R P (x >>= f) S := by
  intro s hs b s'' hrun
  have hbind : (x s >>= fun (a, s') => f a s') = .ok (b, s'') := hrun
  cases hxs : x s with
  | error e =>
    rw [hxs] at hbind
    cases hbind
  | ok v =>
    obtain ⟨a, s'⟩ := v
    rw [hxs] at hbind
    obtain ⟨hfirst, hmid⟩ := hx s hs a s' hxs
    obtain ⟨hsecond, hend⟩ := hf a s' hmid b s'' hbind
    exact ⟨trans_of R hfirst hsecond, hend⟩

theorem map {g : α → β} (hx : Runs R P x fun a s => S (g a) s) : Runs R P (g <$> x) S := by
  intro s hs b s' hrun
  have hmap : (x s >>= fun (a, s') => .ok (g a, s')) = .ok (b, s') := hrun
  cases hxs : x s with
  | error e =>
    rw [hxs] at hmap
    cases hmap
  | ok v =>
    rw [hxs] at hmap
    cases hmap
    exact hx s hs _ _ hxs

/-- The rule of consequence. -/
theorem conseq (hx : Runs R P x Q) (hP : ∀ s, P' s → P s) (hQ : ∀ a s, Q a s → Q' a s) :
    Runs R P' x Q' := by
  intro s hs a s' hrun
  obtain ⟨hR, hq⟩ := hx s (hP s hs) a s' hrun
  exact ⟨hR, hQ a s' hq⟩

theorem post (hx : Runs R P x Q) (hQ : ∀ a s, Q a s → Q' a s) : Runs R P x Q' :=
  hx.conseq (fun _ h => h) hQ

/-- A transaction that only reads keeps to any reflexive relation. -/
theorem of_reads [Std.Refl R] (hx : Runs Eq P x Q) : Runs R P x Q := by
  intro s hs a s' hrun
  obtain ⟨rfl, hq⟩ := hx s hs a s' hrun
  exact ⟨refl_of R s, hq⟩

/-- What holds before a transaction that only reads holds after it. -/
theorem keep (hx : Runs Eq P x Q) : Runs Eq P x fun a s => P s ∧ Q a s := by
  intro s hs a s' hrun
  obtain ⟨rfl, hq⟩ := hx s hs a s' hrun
  exact ⟨rfl, hs, hq⟩

theorem ite {c : Prop} [Decidable c] {y : Transaction σ ε α} (hx : c → Runs R P x Q)
    (hy : ¬c → Runs R P y Q) : Runs R P (if c then x else y) Q := by
  split
  · exact hx ‹_›
  · exact hy ‹_›

/-- A transaction for each item of a list, when none of them writes. -/
theorem mapM (hf : ∀ a, Runs Eq P (f a) S) (as : List α) :
    Runs Eq P (as.mapM f) fun bs s => ∀ b ∈ bs, S b s := by
  induction as with
  | nil =>
    rw [List.mapM_nil]
    exact Runs.pure fun s _ b hb => (nomatch hb)
  | cons a as ih =>
    rw [List.mapM_cons]
    refine (hf a).keep.bind fun b => ?_
    have hrest : Runs Eq (fun s => P s ∧ S b s) (as.mapM f) fun bs s =>
        (P s ∧ S b s) ∧ ∀ b ∈ bs, S b s :=
      (ih.conseq (fun _ h => h.1) fun _ _ h => h).keep
    refine hrest.bind fun bs => Runs.pure fun s hs => ?_
    exact List.forall_mem_cons.mpr ⟨hs.1.2, hs.2⟩

end Runs

end Relational
