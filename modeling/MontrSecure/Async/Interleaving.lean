import MontrSecure.Async.Program
import Mathlib.Data.List.Basic

/-!
# Interleaving asynchronous programs

Many calls of asynchronous programs run on one thread and share the memory of their process; the
operations they await take effect in a world outside it. A `Config` holds both, the tasks, and the
history of what happened. Three steps make up an await: the task is resumed and issues the
operation, the operation is performed in the world, and the task is resumed again. Anything may
happen in between: other tasks, events of the environment, a crash that ends every task.

`Step` is the relation, `step?` computes it for a label, and `run?` replays a list of labels. The
configurations a run reaches, each step of it meeting a condition, are `Reachable`.
-/

namespace Async

variable {Call Op Choice Env μ σ ε : Type} {Ans : Op → Type}

/-! ## Configurations -/

/-- What is recorded about a run. -/
inductive Event (Call Op : Type) (Ans : Op → Type) (Env ε : Type) where
  /-- Task `n` was created for `c`. -/
  | entered (n : ℕ) (c : Call)
  /-- Task `n` ran a segment that ended by issuing `op`. -/
  | issued (n : ℕ) (c : Call) (op : Op)
  /-- The operation task `n` waits for took effect and was answered by `r`. -/
  | performed (n : ℕ) (c : Call) (op : Op) (r : Ans op)
  /-- Task `n` ran its last segment, with the result `res`. -/
  | left (n : ℕ) (c : Call) (res : Except ε Unit)
  /-- Something happened outside every task. -/
  | env (e : Env)
  /-- The process stopped. -/
  | crashed

/-- Where a task stands. -/
inductive Phase (Op : Type) (Ans : Op → Type) (μ ε : Type) where
  /-- It issued `op`, leaving memory `m`, and `op` has not been performed. -/
  | waiting (m : μ) (op : Op) (k : Ans op → μ → Outcome Op Ans μ ε Unit)
  /-- It can run its next segment. -/
  | ready (k : Program Op Ans μ ε Unit)
  /-- It is over. -/
  | finished

/-- One call of a program, with the awaits it has completed. -/
structure Task (Call Op : Type) (Ans : Op → Type) (μ ε : Type) where
  /-- What was called. -/
  call : Call
  /-- The awaits completed so far, latest first. -/
  trace : Trace Op Ans μ
  /-- Where the task stands. -/
  phase : Phase Op Ans μ ε

namespace Task

/-- The operation the task waits for. -/
def awaiting (t : Task Call Op Ans μ ε) : Option Op :=
  match t.phase with
  | .waiting _ op _ => some op
  | _ => none

/-- The task has not ended. -/
def running (t : Task Call Op Ans μ ε) : Bool :=
  match t.phase with
  | .finished => false
  | _ => true

end Task

/-- The memory of the process, the world outside, the tasks and the history, latest event first. -/
structure Config (Call Op : Type) (Ans : Op → Type) (Env μ σ ε : Type) where
  mem : μ
  world : σ
  tasks : List (Task Call Op Ans μ ε)
  history : List (Event Call Op Ans Env ε)

/-- What the calls do and how the world answers them. -/
structure System (Call Op : Type) (Ans : Op → Type) (Choice Env μ σ ε : Type) where
  /-- The program of a call. -/
  body : Call → Program Op Ans μ ε Unit
  /-- Whether task `n` may be created for a call, and what that does to the world. -/
  enter : ℕ → Call → σ → Option σ
  /-- The effect of an operation and its answer, where the world has a choice. -/
  perform : ℕ → Call → (op : Op) → Choice → μ → σ → σ × Ans op
  /-- What the end of a task does to the world. -/
  leave : ℕ → Call → Except ε Unit → σ → σ
  /-- What the environment may do. -/
  env : Env → List (Task Call Op Ans μ ε) → μ → σ → Option (μ × σ)
  /-- What survives a stop of the process. -/
  crash : μ → σ → μ × σ

/-! ## Steps -/

/-- One step, with the event it records. -/
inductive Step (sys : System Call Op Ans Choice Env μ σ ε) (cfg : Config Call Op Ans Env μ σ ε) :
    Event Call Op Ans Env ε → Config Call Op Ans Env μ σ ε → Prop where
  | enter {c : Call} {w : σ} (h : sys.enter cfg.tasks.length c cfg.world = some w) :
      Step sys cfg (.entered cfg.tasks.length c)
        { mem := cfg.mem, world := w
          tasks := cfg.tasks ++ [{ call := c, trace := [], phase := .ready (sys.body c) }]
          history := .entered cfg.tasks.length c :: cfg.history }
  | issue {n : ℕ} {t : Task Call Op Ans μ ε} {p : Program Op Ans μ ε Unit} {m : μ} {op : Op}
      {k : Ans op → μ → Outcome Op Ans μ ε Unit} (ht : cfg.tasks[n]? = some t)
      (hphase : t.phase = .ready p) (hrun : p cfg.mem = .await m op k) :
      Step sys cfg (.issued n t.call op)
        { mem := m, world := cfg.world
          tasks := cfg.tasks.set n { t with phase := .waiting m op k }
          history := .issued n t.call op :: cfg.history }
  | perform {n : ℕ} {t : Task Call Op Ans μ ε} {m : μ} {op : Op}
      {k : Ans op → μ → Outcome Op Ans μ ε Unit} (ch : Choice) (ht : cfg.tasks[n]? = some t)
      (hphase : t.phase = .waiting m op k) {w : σ} {r : Ans op}
      (hperform : sys.perform n t.call op ch cfg.mem cfg.world = (w, r)) :
      Step sys cfg (.performed n t.call op r)
        { mem := cfg.mem, world := w
          tasks := cfg.tasks.set n { t with trace := ⟨m, op, r⟩ :: t.trace, phase := .ready (k r) }
          history := .performed n t.call op r :: cfg.history }
  | leave {n : ℕ} {t : Task Call Op Ans μ ε} {p : Program Op Ans μ ε Unit} {m : μ}
      {res : Except ε Unit} (ht : cfg.tasks[n]? = some t) (hphase : t.phase = .ready p)
      (hrun : (p cfg.mem).ended? = some (m, res)) :
      Step sys cfg (.left n t.call res)
        { mem := m, world := sys.leave n t.call res cfg.world
          tasks := cfg.tasks.set n { t with phase := .finished }
          history := .left n t.call res :: cfg.history }
  | env {e : Env} {m : μ} {w : σ} (h : sys.env e cfg.tasks cfg.mem cfg.world = some (m, w)) :
      Step sys cfg (.env e)
        { mem := m, world := w, tasks := cfg.tasks, history := .env e :: cfg.history }
  | crash :
      Step sys cfg .crashed
        { mem := (sys.crash cfg.mem cfg.world).1, world := (sys.crash cfg.mem cfg.world).2
          tasks := cfg.tasks.map fun t => { t with phase := .finished }
          history := .crashed :: cfg.history }

/-- What to do next, for running a system by hand. -/
inductive Label (Call Choice Env : Type) where
  | call (c : Call)
  | resume (n : ℕ)
  | perform (n : ℕ) (ch : Choice)
  | env (e : Env)
  | crash

/-- The step a label asks for, if it can be taken. -/
def step? (sys : System Call Op Ans Choice Env μ σ ε) (cfg : Config Call Op Ans Env μ σ ε) :
    Label Call Choice Env → Option (Event Call Op Ans Env ε × Config Call Op Ans Env μ σ ε)
  | .call c =>
    match sys.enter cfg.tasks.length c cfg.world with
    | none => none
    | some w => some (.entered cfg.tasks.length c,
        { mem := cfg.mem, world := w
          tasks := cfg.tasks ++ [{ call := c, trace := [], phase := .ready (sys.body c) }]
          history := .entered cfg.tasks.length c :: cfg.history })
  | .resume n =>
    match cfg.tasks[n]? with
    | some t@{ phase := .ready p, .. } =>
      match p cfg.mem with
      | .await m op k => some (.issued n t.call op,
          { mem := m, world := cfg.world
            tasks := cfg.tasks.set n { t with phase := .waiting m op k }
            history := .issued n t.call op :: cfg.history })
      | .ret m a => some (.left n t.call (.ok a),
          { mem := m, world := sys.leave n t.call (.ok a) cfg.world
            tasks := cfg.tasks.set n { t with phase := .finished }
            history := .left n t.call (.ok a) :: cfg.history })
      | .throw m e => some (.left n t.call (.error e),
          { mem := m, world := sys.leave n t.call (.error e) cfg.world
            tasks := cfg.tasks.set n { t with phase := .finished }
            history := .left n t.call (.error e) :: cfg.history })
    | _ => none
  | .perform n ch =>
    match cfg.tasks[n]? with
    | some t@{ phase := .waiting m op k, .. } =>
      let (w, r) := sys.perform n t.call op ch cfg.mem cfg.world
      some (.performed n t.call op r,
        { mem := cfg.mem, world := w
          tasks := cfg.tasks.set n { t with trace := ⟨m, op, r⟩ :: t.trace, phase := .ready (k r) }
          history := .performed n t.call op r :: cfg.history })
    | _ => none
  | .env e =>
    match sys.env e cfg.tasks cfg.mem cfg.world with
    | none => none
    | some (m, w) => some (.env e,
        { mem := m, world := w, tasks := cfg.tasks, history := .env e :: cfg.history })
  | .crash => some (.crashed,
      { mem := (sys.crash cfg.mem cfg.world).1, world := (sys.crash cfg.mem cfg.world).2
        tasks := cfg.tasks.map fun t => { t with phase := .finished }
        history := .crashed :: cfg.history })

/-- `step?` only takes steps. -/
theorem step?_sound {sys : System Call Op Ans Choice Env μ σ ε}
    {cfg cfg' : Config Call Op Ans Env μ σ ε} {l : Label Call Choice Env}
    {e : Event Call Op Ans Env ε} (h : step? sys cfg l = some (e, cfg')) : Step sys cfg e cfg' := by
  cases l with
  | call c =>
    simp only [step?] at h
    split at h
    · cases h
    · cases h
      exact .enter (by assumption)
  | resume n =>
    simp only [step?] at h
    split at h
    · split at h
      · cases h
        exact .issue (by assumption) rfl (by assumption)
      · rename_i hrun
        cases h
        exact .leave (by assumption) rfl (by rw [hrun]; rfl)
      · rename_i hrun
        cases h
        exact .leave (by assumption) rfl (by rw [hrun]; rfl)
    · cases h
  | perform n ch =>
    simp only [step?] at h
    split at h
    · cases h
      exact .perform ch (by assumption) rfl rfl
    · cases h
  | env e =>
    simp only [step?] at h
    split at h
    · cases h
    · cases h
      exact .env (by assumption)
  | crash =>
    cases h
    exact .crash

/-! ## Reachable configurations -/

section Reachable

variable {sys : System Call Op Ans Choice Env μ σ ε}
  {ok : Config Call Op Ans Env μ σ ε → Event Call Op Ans Env ε → Prop}
  {cfg cfg' : Config Call Op Ans Env μ σ ε}

/-- The configurations that runs from `init` reach when every step meets `ok`, a condition on the
configuration before the step and on the event it records. -/
inductive Reachable (sys : System Call Op Ans Choice Env μ σ ε)
    (ok : Config Call Op Ans Env μ σ ε → Event Call Op Ans Env ε → Prop)
    (init : Config Call Op Ans Env μ σ ε) : Config Call Op Ans Env μ σ ε → Prop where
  | start : Reachable sys ok init init
  | step {cfg cfg' : Config Call Op Ans Env μ σ ε} {e : Event Call Op Ans Env ε}
      (hreach : Reachable sys ok init cfg) (hok : ok cfg e) (hstep : Step sys cfg e cfg') :
      Reachable sys ok init cfg'

/-- Fewer steps allowed, fewer configurations reached. -/
theorem Reachable.mono
    {ok' : Config Call Op Ans Env μ σ ε → Event Call Op Ans Env ε → Prop}
    {init : Config Call Op Ans Env μ σ ε} (h : ∀ cfg e, ok cfg e → ok' cfg e)
    (hreach : Reachable sys ok init cfg) : Reachable sys ok' init cfg := by
  induction hreach with
  | start => exact .start
  | step _ hok hstep ih => exact .step ih (h _ _ hok) hstep

/-- Replay labels, checking `ok` before each step. -/
def run? (sys : System Call Op Ans Choice Env μ σ ε)
    (ok : Config Call Op Ans Env μ σ ε → Event Call Op Ans Env ε → Bool) :
    List (Label Call Choice Env) → Config Call Op Ans Env μ σ ε →
      Option (Config Call Op Ans Env μ σ ε)
  | [], cfg => some cfg
  | l :: ls, cfg =>
    match step? sys cfg l with
    | none => none
    | some (e, cfg') => if ok cfg e then run? sys ok ls cfg' else none

/-- What `run?` returns is reachable. -/
theorem run?_reachable {ok : Config Call Op Ans Env μ σ ε → Event Call Op Ans Env ε → Bool}
    {init : Config Call Op Ans Env μ σ ε} {ls : List (Label Call Choice Env)}
    (hreach : Reachable sys (fun cfg e => ok cfg e) init cfg)
    (h : run? sys ok ls cfg = some cfg') :
    Reachable sys (fun cfg e => ok cfg e) init cfg' := by
  induction ls generalizing cfg with
  | nil =>
    cases h
    exact hreach
  | cons l ls ih =>
    simp only [run?] at h
    split at h
    · cases h
    · rename_i hstep
      split at h
      · rename_i hok
        exact ih (.step hreach hok (step?_sound hstep)) h
      · cases h

/-- A property some replay ends with holds somewhere reachable. -/
theorem exists_reachable_of_run? {ok : Config Call Op Ans Env μ σ ε → Event Call Op Ans Env ε → Bool}
    {init : Config Call Op Ans Env μ σ ε} {ls : List (Label Call Choice Env)}
    {p : Config Call Op Ans Env μ σ ε → Bool} (h : (run? sys ok ls init).any p = true) :
    ∃ cfg, Reachable sys (fun cfg e => ok cfg e) init cfg ∧ p cfg = true := by
  cases hrun : run? sys ok ls init with
  | none => simp [hrun] at h
  | some cfg => exact ⟨cfg, run?_reachable .start hrun, by simpa [hrun] using h⟩

/-- A property of a step that some replay goes on with holds of a step from somewhere reachable. -/
theorem exists_step_of_run? {ok : Config Call Op Ans Env μ σ ε → Event Call Op Ans Env ε → Bool}
    {init : Config Call Op Ans Env μ σ ε} {ls : List (Label Call Choice Env)} {l : Label Call Choice Env}
    {p : Config Call Op Ans Env μ σ ε → Event Call Op Ans Env ε → Config Call Op Ans Env μ σ ε → Bool}
    (h : ((run? sys ok ls init).any fun cfg => (step? sys cfg l).any fun s => p cfg s.1 s.2) = true) :
    ∃ cfg e cfg', Reachable sys (fun cfg e => ok cfg e) init cfg ∧ Step sys cfg e cfg' ∧
      p cfg e cfg' = true := by
  obtain ⟨cfg, hreach, hstep⟩ := exists_reachable_of_run? h
  cases hs : step? sys cfg l with
  | none => simp [hs] at hstep
  | some s => exact ⟨cfg, s.1, s.2, hreach, step?_sound hs, by simpa [hs] using hstep⟩

/-- Task `n` goes through `k` awaits, each answered by the choice `ch`. -/
def turns (n k : ℕ) (ch : Choice) : List (Label Call Choice Env) :=
  (List.replicate k [.resume n, .perform n ch]).flatten

/-- `c` is called as task `n` and runs through `k` awaits to its end. -/
def callTurns (n : ℕ) (c : Call) (k : ℕ) (ch : Choice) : List (Label Call Choice Env) :=
  [.call c] ++ turns n k ch ++ [.resume n]

example : (callTurns 0 'c' 2 'x' : List (Label Char Char Unit)).length = 6 := by decide +kernel

/-- Some event of a history, with what came before it, meets `p`. -/
def anyEvent {α : Type} (p : α → List α → Bool) : List α → Bool
  | [] => false
  | e :: history => p e history || anyEvent p history

theorem exists_of_anyEvent {α : Type} {p : α → List α → Bool} {history : List α}
    (h : anyEvent p history = true) :
    ∃ post e pre, history = post ++ e :: pre ∧ p e pre = true := by
  induction history with
  | nil => cases h
  | cons e history ih =>
    obtain h | h := Bool.or_eq_true_iff.mp h
    · exact ⟨[], e, history, rfl, h⟩
    · obtain ⟨post, e', pre, rfl, hp⟩ := ih h
      exact ⟨e :: post, e', pre, rfl, hp⟩

/-- Every step puts its event in front of the history. -/
theorem Step.history {e : Event Call Op Ans Env ε} (h : Step sys cfg e cfg') :
    cfg'.history = e :: cfg.history := by
  cases h <;> rfl

/-- What is reached from a reached configuration is reached. -/
theorem Reachable.trans {init : Config Call Op Ans Env μ σ ε} (h : Reachable sys ok init cfg)
    (h' : Reachable sys ok cfg cfg') : Reachable sys ok init cfg' := by
  induction h' with
  | start => exact h
  | step _ hok hstep ih => exact .step ih hok hstep

/-- An event of the history was recorded by a step of the run, from a configuration whose history is what
came before it, and the run went on from there. -/
theorem Reachable.exists_between {init : Config Call Op Ans Env μ σ ε} (hinit : init.history = [])
    (hreach : Reachable sys ok init cfg) {post pre : List (Event Call Op Ans Env ε)}
    {e : Event Call Op Ans Env ε} (hhistory : cfg.history = post ++ e :: pre) :
    ∃ before after, Reachable sys ok init before ∧ ok before e ∧ Step sys before e after ∧
      before.history = pre ∧ Reachable sys ok after cfg := by
  induction hreach generalizing post with
  | start => simp [hinit] at hhistory
  | @step before after e' hbefore hok hstep ih =>
    rw [hstep.history] at hhistory
    cases post with
    | nil =>
      obtain ⟨rfl, hpre⟩ := List.cons.inj hhistory
      exact ⟨before, after, hbefore, hok, hstep, hpre, .start⟩
    | cons _ post =>
      obtain ⟨before', after', hbefore', hok', hstep', hpre, hbetween⟩ := ih (List.cons.inj hhistory).2
      exact ⟨before', after', hbefore', hok', hstep', hpre, .step hbetween hok hstep⟩

/-- An event of the history was recorded by a step of the run, from a configuration whose history is
what came before it. -/
theorem Reachable.exists_step {init : Config Call Op Ans Env μ σ ε} (hinit : init.history = [])
    (hreach : Reachable sys ok init cfg) {post pre : List (Event Call Op Ans Env ε)}
    {e : Event Call Op Ans Env ε} (hhistory : cfg.history = post ++ e :: pre) :
    ∃ before after, Reachable sys ok init before ∧ ok before e ∧ Step sys before e after ∧
      before.history = pre := by
  obtain ⟨before, after, hbefore, hok, hstep, hpre, -⟩ := hreach.exists_between hinit hhistory
  exact ⟨before, after, hbefore, hok, hstep, hpre⟩

/-- Every event of the history met the condition on steps. -/
theorem Reachable.ok_of_mem {init : Config Call Op Ans Env μ σ ε} (hinit : init.history = [])
    (hreach : Reachable sys ok init cfg) {e : Event Call Op Ans Env ε} (he : e ∈ cfg.history) :
    ∃ before, ok before e := by
  obtain ⟨post, pre, hhistory⟩ := List.append_of_mem he
  obtain ⟨before, -, -, hok, -⟩ := hreach.exists_step hinit hhistory
  exact ⟨before, hok⟩

end Reachable

end Async
