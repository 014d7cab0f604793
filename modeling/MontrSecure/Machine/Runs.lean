import Mathlib.Data.List.Induction

/-!
# Runs of a machine

A machine takes one action at a time, in whatever order; an action may not be possible in a state. What each
action keeps holds after every run.
-/

namespace Machine

variable {σ α : Type} {step : α → σ → Option σ} {s s' : σ} {a : α} {actions : List α}

/-- The state after the actions; `none` when one of them is not possible. -/
def run (step : α → σ → Option σ) : List α → σ → Option σ
  | [], s => some s
  | a :: actions, s => (step a s).bind (run step actions)

/-- Each action is taken in a state in which it meets a condition. -/
def Meets (step : α → σ → Option σ) (P : α → σ → Prop) : List α → σ → Prop
  | [], _ => True
  | a :: actions, s => P a s ∧ ∀ s', step a s = some s' → Meets step P actions s'

@[simp]
theorem run_nil : run step [] s = some s := rfl

@[simp]
theorem run_cons : run step (a :: actions) s = (step a s).bind (run step actions) := rfl

theorem run_append {more : List α} :
    run step (actions ++ more) s = (run step actions s).bind (run step more) := by
  induction actions generalizing s with
  | nil => rfl
  | cons a actions ih =>
    rw [List.cons_append, run_cons, run_cons, Option.bind_assoc]
    exact congrArg _ (funext fun s => ih)

/-- The last action of a run. -/
theorem run_concat_eq_some :
    run step (actions ++ [a]) s = some s' ↔ ∃ t, run step actions s = some t ∧ step a t = some s' := by
  have hone : ∀ t, run step [a] t = step a t := by
    intro t
    rw [run_cons]
    cases step a t <;> rfl
  rw [run_append, Option.bind_eq_some_iff]
  simp only [hone]

/-- The condition on the last action. -/
theorem Meets.of_concat {P : α → σ → Prop} (h : Meets step P (actions ++ [a]) s) :
    Meets step P actions s ∧ ∀ t, run step actions s = some t → P a t := by
  induction actions generalizing s with
  | nil =>
    refine ⟨trivial, fun t ht => ?_⟩
    obtain rfl := Option.some.inj ht
    exact h.1
  | cons b actions ih =>
    obtain ⟨hb, hrest⟩ := h
    refine ⟨⟨hb, fun s' hs' => (ih (hrest s' hs')).1⟩, fun t ht => ?_⟩
    obtain ⟨s', hs', ht⟩ := Option.bind_eq_some_iff.mp ht
    exact (ih (hrest s' hs')).2 t ht

/-- A condition that does not depend on the state. -/
theorem meets_of_forall {P : α → Prop} (h : ∀ a ∈ actions, P a) : Meets step (fun a _ => P a) actions s := by
  induction actions generalizing s with
  | nil => trivial
  | cons a actions ih =>
    obtain ⟨ha, hrest⟩ := List.forall_mem_cons.mp h
    exact ⟨ha, fun s' _ => ih hrest⟩

/-- A condition that follows from what the actions keep. -/
theorem meets_of_keeps {I : σ → Prop} {P : α → σ → Prop} (hfirst : I s) (hmeets : ∀ a ∈ actions, ∀ t, I t → P a t)
    (hkeeps : ∀ a ∈ actions, ∀ t t', I t → step a t = some t' → I t') : Meets step P actions s := by
  induction actions generalizing s with
  | nil => trivial
  | cons a actions ih =>
    obtain ⟨hP, hmeets⟩ := List.forall_mem_cons.mp hmeets
    obtain ⟨hI, hkeeps⟩ := List.forall_mem_cons.mp hkeeps
    exact ⟨hP s hfirst, fun s' hs' => ih (hI s s' hfirst hs') hmeets hkeeps⟩

/-- What holds at first, of no actions, and is kept by each action that meets the condition, holds after the run, of
its actions. -/
theorem holds_of_meets {Inv : List α → σ → Prop} {P : α → σ → Prop} (hfirst : Inv [] s)
    (hstep : ∀ actions a t t', P a t → Inv actions t → step a t = some t' → Inv (actions ++ [a]) t')
    (hP : Meets step P actions s) (hrun : run step actions s = some s') : Inv actions s' := by
  induction actions using List.reverseRecOn generalizing s' with
  | nil =>
    obtain rfl := Option.some.inj hrun
    exact hfirst
  | append_singleton actions a ih =>
    obtain ⟨t, hrun, hlast⟩ := run_concat_eq_some.mp hrun
    obtain ⟨hP, ha⟩ := hP.of_concat
    exact hstep actions a t s' (ha t hrun) (ih hP hrun) hlast

/-- The same with a condition on the actions alone. -/
theorem holds_of_run {Inv : List α → σ → Prop} {P : α → Prop} (hfirst : Inv [] s)
    (hstep : ∀ actions a t t', P a → Inv actions t → step a t = some t' → Inv (actions ++ [a]) t')
    (hP : ∀ a ∈ actions, P a) (hrun : run step actions s = some s') : Inv actions s' :=
  holds_of_meets hfirst hstep (meets_of_forall hP) hrun

/-- What each action keeps that meets the condition, whatever came before it. -/
theorem keeps_of_meets {I : σ → Prop} {P : α → σ → Prop} (hfirst : I s)
    (hstep : ∀ a t t', P a t → I t → step a t = some t' → I t')
    (hP : Meets step P actions s) (hrun : run step actions s = some s') : I s' :=
  @holds_of_meets σ α step s s' actions (fun _ => I) P hfirst (fun _ => hstep) hP hrun

/-- What every action keeps. -/
theorem keeps_of_run {I : σ → Prop} (hfirst : I s) (hstep : ∀ a t t', I t → step a t = some t' → I t')
    (hrun : run step actions s = some s') : I s' :=
  keeps_of_meets hfirst (fun a t t' _ => hstep a t t') (meets_of_forall fun _ _ => trivial) hrun

end Machine
