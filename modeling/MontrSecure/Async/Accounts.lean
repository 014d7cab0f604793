import MontrSecure.Async.Lawful
import Mathlib.Algebra.BigOperators.Group.List.Basic

/-!
# Accounts

A program that records what it is answered does so once it is resumed, so that an answer is owed for as long as its
task has not run on. `bill` says what an answer is recorded as, and `paid` what the memory has recorded. When every
segment records what the answer before it is billed, and nothing else, then along every interleaving what is recorded
and what is still owed add up to what was answered: `Reachable.paid_add_owed`. No answer is lost, and none is counted
twice.
-/

namespace Async

variable {Call Op Choice Env μ σ ε : Type} {Ans : Op → Type} {M : Type} [AddCommMonoid M]

/-! ## Bills -/

section Bills

variable (bill : Call → (op : Op) → Ans op → M)

/-- What a segment that begins after the awaits of a trace has to record: the last answer. -/
def due (c : Call) : Trace Op Ans μ → M
  | [] => 0
  | x :: _ => bill c x.op x.answer

/-- What a task owes: its last answer, until it has been resumed. -/
def Task.owed (t : Task Call Op Ans μ ε) : M :=
  match t.phase with
  | .ready _ => due bill t.call t.trace
  | _ => 0

/-- What all tasks owe. -/
def Config.owed (cfg : Config Call Op Ans Env μ σ ε) : M := (cfg.tasks.map (Task.owed bill)).sum

/-- What an event is billed. -/
def Event.billed : Event Call Op Ans Env ε → M
  | .performed _ c op r => bill c op r
  | _ => 0

/-- What a history is billed. -/
def billed (history : List (Event Call Op Ans Env ε)) : M := (history.map (Event.billed bill)).sum

end Bills

/-- Under the invariant, each segment records what is due, and nothing else. -/
structure Protocol.Records (P : Protocol Op Ans μ) (inv : μ → Prop) (paid : μ → M) (due : Trace Op Ans μ → M) :
    Prop where
  awaits : ∀ tr m₀ m op, inv m₀ → P.awaits tr m₀ m op → paid m = paid m₀ + due tr
  ends : ∀ tr m₀ m, inv m₀ → P.ends tr m₀ m → paid m = paid m₀ + due tr

/-! ## Runs -/

/-- A sum after one of its terms was replaced. -/
theorem sum_map_set {α : Type} (f : α → M) {l : List α} {n : ℕ} {a : α} (b : α) (h : l[n]? = some a) :
    ((l.set n b).map f).sum + f a = (l.map f).sum + f b := by
  induction l generalizing n with
  | nil => cases h
  | cons x l ih =>
    cases n with
    | zero =>
      obtain rfl : x = a := Option.some.inj h
      simp only [List.set_cons_zero, List.map_cons, List.sum_cons]
      rw [add_right_comm, add_comm (f b), add_right_comm]
    | succ n =>
      rw [List.set_cons_succ, List.map_cons, List.map_cons, List.sum_cons, List.sum_cons, add_assoc, ih h, add_assoc]

section Run

variable {sys : System Call Op Ans Choice Env μ σ ε} {P : Call → Protocol Op Ans μ}
  {ok : Config Call Op Ans Env μ σ ε → Event Call Op Ans Env ε → Prop}
  {cfg cfg' init : Config Call Op Ans Env μ σ ε} {bill : Call → (op : Op) → Ans op → M} {paid : μ → M}
  {inv : μ → Prop}

/-- A step moves what is owed to what is paid, and adds what it is billed. -/
theorem Step.paid_add_owed {e : Event Call Op Ans Env ε} (hstep : Step sys cfg e cfg') (hlawful : cfg.Lawful P)
    (hrecords : ∀ c, (P c).Records inv paid (due bill c)) (hinv : inv cfg.mem)
    (henv : ∀ e tasks m w m' w', sys.env e tasks m w = some (m', w') → paid m' = paid m) (hcrash : e ≠ .crashed) :
    paid cfg'.mem + cfg'.owed bill = paid cfg.mem + cfg.owed bill + e.billed bill := by
  cases hstep with
  | enter hc =>
    simp only [Config.owed, List.map_append, List.map_cons, List.map_nil, List.sum_append, List.sum_cons, List.sum_nil,
      Event.billed, Task.owed, due, add_zero]
  | @issue n t p m op k ht hphase hrun =>
    -- the segment has recorded what its task owed
    have hpaid := (hrecords t.call).awaits _ _ _ _ hinv (hlawful.awaits ht hphase hrun)
    have howed := sum_map_set (Task.owed bill) { t with phase := .waiting m op k } ht
    have ht : Task.owed bill t = due bill t.call t.trace := by rw [Task.owed, hphase]
    rw [show Task.owed bill { t with phase := .waiting m op k } = 0 from rfl, add_zero, ht] at howed
    change _ = _ + (0 : M)
    rw [add_zero, hpaid, add_assoc, add_comm (due _ _ _)]
    exact congrArg _ howed
  | @perform n t m op k ch ht hphase w r hperform =>
    -- the answer is owed from now on
    have howed := sum_map_set (Task.owed bill)
      { t with trace := ⟨m, op, r⟩ :: t.trace, phase := .ready (k r) } ht
    have ht : Task.owed bill t = 0 := by rw [Task.owed, hphase]
    rw [ht, add_zero] at howed
    rw [add_assoc]
    exact congrArg _ howed
  | @leave n t p m res ht hphase hrun =>
    have hpaid := (hrecords t.call).ends _ _ _ hinv (hlawful.ends ht hphase hrun)
    have howed := sum_map_set (Task.owed bill) { t with phase := .finished } ht
    have ht : Task.owed bill t = due bill t.call t.trace := by rw [Task.owed, hphase]
    rw [show Task.owed bill { t with phase := .finished } = 0 from rfl, add_zero, ht] at howed
    change _ = _ + (0 : M)
    rw [add_zero, hpaid, add_assoc, add_comm (due _ _ _)]
    exact congrArg _ howed
  | env he =>
    change _ = _ + (0 : M)
    rw [add_zero, henv _ _ _ _ _ _ he]
    rfl
  | crash => exact absurd rfl hcrash

/-- What the segments of a lawful run keep, and the steps outside them, holds of every memory it gets to. -/
theorem Reachable.keeps (hobeys : ∀ c, (sys.body c).Obeys (P c))
    (hanswers : ∀ n c op ch m w, (P c).answers op (sys.perform n c op ch m w).2) (htasks : init.tasks = [])
    (hawaits : ∀ c tr m₀ m op, inv m₀ → (P c).awaits tr m₀ m op → inv m)
    (hends : ∀ c tr m₀ m, inv m₀ → (P c).ends tr m₀ m → inv m)
    (henv : ∀ cfg e m w, ok cfg (.env e) → inv cfg.mem → sys.env e cfg.tasks cfg.mem cfg.world = some (m, w) → inv m)
    (hok : ∀ cfg e, ok cfg e → e ≠ .crashed) (hinit : inv init.mem) (hreach : Reachable sys ok init cfg) :
    inv cfg.mem := by
  have hlawful : init.Lawful P := fun n t ht => by simp [htasks] at ht
  induction hreach with
  | start => exact hinit
  | step hbefore he hstep ih =>
    have hcfg := hbefore.lawful hobeys hanswers hlawful
    cases hstep with
    | enter hc => exact ih
    | issue ht hphase hrun => exact hawaits _ _ _ _ _ ih (hcfg.awaits ht hphase hrun)
    | perform ch ht hphase hperform => exact ih
    | leave ht hphase hrun => exact hends _ _ _ _ ih (hcfg.ends ht hphase hrun)
    | env h => exact henv _ _ _ _ he ih h
    | crash => exact absurd rfl (hok _ _ he)

/-- In every configuration that is reached without a stop of the process, what is recorded and what is owed are what
was recorded at first and what was answered since: nothing is lost, and nothing is recorded twice. -/
theorem Reachable.paid_add_owed (hobeys : ∀ c, (sys.body c).Obeys (P c))
    (hanswers : ∀ n c op ch m w, (P c).answers op (sys.perform n c op ch m w).2)
    (hrecords : ∀ c, (P c).Records inv paid (due bill c))
    (henv : ∀ e tasks m w m' w', sys.env e tasks m w = some (m', w') → paid m' = paid m)
    (hok : ∀ cfg e, ok cfg e → e ≠ .crashed) (htasks : init.tasks = []) (hhistory : init.history = [])
    (hinv : ∀ cfg, Reachable sys ok init cfg → inv cfg.mem) (hreach : Reachable sys ok init cfg) :
    paid cfg.mem + cfg.owed bill = paid init.mem + billed bill cfg.history := by
  have hinit : init.Lawful P := fun n t ht => by simp [htasks] at ht
  induction hreach with
  | start => simp [Config.owed, billed, htasks, hhistory]
  | step hbefore he hstep ih =>
    have hlawful := hbefore.lawful hobeys hanswers hinit
    rw [hstep.paid_add_owed hlawful hrecords (hinv _ hbefore) henv (hok _ _ he), ih, hstep.history, billed, billed,
      List.map_cons, List.sum_cons, add_assoc, add_comm (Event.billed bill _)]

end Run

end Async
