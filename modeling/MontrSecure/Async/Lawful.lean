import MontrSecure.Async.Interleaving

/-!
# Tasks that keep to a protocol

When the program of every call obeys a protocol and the world answers as the protocol assumes,
every task of every reachable configuration is lawful: what it has done so far conforms to the
protocol, and so will whatever it does next. A step of a lawful configuration can then be read off
the protocol, without the program: `Lawful.awaits`, `Lawful.ends` and `Lawful.waiting` say what a
task may issue, how it may end, and what it can be waiting for.
-/

namespace Async

variable {Call Op Choice Env μ σ ε : Type} {Ans : Op → Type}

namespace Protocol

/-- Each await of the trace was allowed after the awaits before it, and answered as assumed. -/
def Conforms (P : Protocol Op Ans μ) : Trace Op Ans μ → Prop
  | [] => True
  | x :: tr => (∃ m₀, P.awaits tr m₀ x.mem x.op) ∧ P.answers x.op x.answer ∧ P.Conforms tr

variable {P : Protocol Op Ans μ}

@[simp]
theorem conforms_nil : P.Conforms [] ↔ True := Iff.rfl

@[simp]
theorem conforms_cons (x : Await Op Ans μ) (tr : Trace Op Ans μ) :
    P.Conforms (x :: tr) ↔
      (∃ m₀, P.awaits tr m₀ x.mem x.op) ∧ P.answers x.op x.answer ∧ P.Conforms tr := Iff.rfl

/-- The later part of a conforming trace can be dropped. -/
theorem Conforms.of_append {tr tr' : Trace Op Ans μ} (h : P.Conforms (tr ++ tr')) :
    P.Conforms tr' := by
  induction tr with
  | nil => exact h
  | cons x tr ih => exact ih h.2.2

/-- Every answer of a conforming trace is as assumed. -/
theorem Conforms.answers {tr : Trace Op Ans μ} (h : P.Conforms tr) {x : Await Op Ans μ}
    (hx : x ∈ tr) : P.answers x.op x.answer := by
  obtain ⟨post, pre, rfl⟩ := List.append_of_mem hx
  exact h.of_append.2.1

/-- Every await of a conforming trace was allowed after those before it. -/
theorem Conforms.awaits {tr : Trace Op Ans μ} (h : P.Conforms tr) {x : Await Op Ans μ}
    (hx : x ∈ tr) :
    ∃ post pre, tr = post ++ x :: pre ∧ P.Conforms pre ∧ ∃ m₀, P.awaits pre m₀ x.mem x.op := by
  obtain ⟨post, pre, rfl⟩ := List.append_of_mem hx
  exact ⟨post, pre, rfl, h.of_append.2.2, h.of_append.1⟩

/-- What is left to do keeps to the protocol. -/
def Continues (P : Protocol Op Ans μ) (tr : Trace Op Ans μ) (m : μ)
    (o : Outcome Op Ans μ ε Unit) : Prop :=
  o.Follows P (fun tr m₀ m _ => P.ends tr m₀ m) (fun tr m₀ m _ => P.ends tr m₀ m) tr m

end Protocol

/-- The task has kept to the protocol and will go on doing so. -/
def Task.Lawful (P : Protocol Op Ans μ) (t : Task Call Op Ans μ ε) : Prop :=
  P.Conforms t.trace ∧
    match t.phase with
    | .waiting m op k => (∃ m₀, P.awaits t.trace m₀ m op) ∧
        ∀ r, P.answers op r → ∀ m', P.Continues (⟨m, op, r⟩ :: t.trace) m' (k r m')
    | .ready p => ∀ m, P.Continues t.trace m (p m)
    | .finished => True

/-- Every task keeps to the protocol of its call. -/
def Config.Lawful (P : Call → Protocol Op Ans μ) (cfg : Config Call Op Ans Env μ σ ε) : Prop :=
  ∀ (n : ℕ) (t : Task Call Op Ans μ ε), cfg.tasks[n]? = some t → t.Lawful (P t.call)

namespace Config.Lawful

variable {P : Call → Protocol Op Ans μ} {cfg : Config Call Op Ans Env μ σ ε} {n : ℕ}
  {t : Task Call Op Ans μ ε}

/-- What a task has done conforms to its protocol. -/
theorem conforms (h : cfg.Lawful P) (ht : cfg.tasks[n]? = some t) :
    (P t.call).Conforms t.trace :=
  (h n t ht).1

/-- A task issues only what its protocol allows. -/
theorem awaits {p : Program Op Ans μ ε Unit} {m : μ} {op : Op}
    {k : Ans op → μ → Outcome Op Ans μ ε Unit} (h : cfg.Lawful P) (ht : cfg.tasks[n]? = some t)
    (hphase : t.phase = .ready p) (hrun : p cfg.mem = .await m op k) :
    (P t.call).awaits t.trace cfg.mem m op := by
  have hlaw := (h n t ht).2
  simp only [hphase] at hlaw
  have hcont := hlaw cfg.mem
  rw [Protocol.Continues, hrun] at hcont
  exact hcont.1

/-- A task ends only where its protocol allows it. -/
theorem ends {p : Program Op Ans μ ε Unit} {m : μ} {res : Except ε Unit} (h : cfg.Lawful P)
    (ht : cfg.tasks[n]? = some t) (hphase : t.phase = .ready p)
    (hrun : (p cfg.mem).ended? = some (m, res)) : (P t.call).ends t.trace cfg.mem m := by
  have hlaw := (h n t ht).2
  simp only [hphase] at hlaw
  have hcont := hlaw cfg.mem
  rw [Protocol.Continues] at hcont
  cases hout : p cfg.mem with
  | ret m' a =>
    rw [hout] at hcont hrun
    cases hrun
    exact hcont
  | throw m' e =>
    rw [hout] at hcont hrun
    cases hrun
    exact hcont
  | await m' op k =>
    rw [hout] at hrun
    cases hrun

/-- A task waits only for what its protocol allowed. -/
theorem waiting {m : μ} {op : Op} {k : Ans op → μ → Outcome Op Ans μ ε Unit} (h : cfg.Lawful P)
    (ht : cfg.tasks[n]? = some t) (hphase : t.phase = .waiting m op k) :
    ∃ m₀, (P t.call).awaits t.trace m₀ m op := by
  have hlaw := (h n t ht).2
  simp only [hphase] at hlaw
  exact hlaw.1

end Config.Lawful

section Run

variable {sys : System Call Op Ans Choice Env μ σ ε}
  {ok : Config Call Op Ans Env μ σ ε → Event Call Op Ans Env ε → Prop}
  {P : Call → Protocol Op Ans μ} {cfg cfg' init : Config Call Op Ans Env μ σ ε}

/-- A task after one task was replaced. -/
theorem task_of_set {tasks : List (Task Call Op Ans μ ε)} {n k : ℕ} {t u : Task Call Op Ans μ ε}
    (h : (tasks.set n t)[k]? = some u) : k = n ∧ u = t ∨ k ≠ n ∧ tasks[k]? = some u := by
  rw [List.getElem?_set] at h
  split at h
  · split at h
    · exact .inl ⟨Eq.symm ‹_›, (Option.some.inj h).symm⟩
    · cases h
  · exact .inr ⟨Ne.symm ‹_›, h⟩

/-- A task after one task was added. -/
theorem task_of_append {tasks : List (Task Call Op Ans μ ε)} {k : ℕ}
    {t u : Task Call Op Ans μ ε} (h : (tasks ++ [t])[k]? = some u) :
    k = tasks.length ∧ u = t ∨ tasks[k]? = some u := by
  rw [List.getElem?_append] at h
  split at h
  · exact .inr h
  · cases hk : k - tasks.length with
    | zero =>
      simp only [hk, List.getElem?_cons_zero, Option.some.injEq] at h
      exact .inl ⟨by omega, h.symm⟩
    | succ j => simp [hk] at h

/-- A task after a crash. -/
theorem task_of_crash {tasks : List (Task Call Op Ans μ ε)} {k : ℕ} {u : Task Call Op Ans μ ε}
    (h : (tasks.map fun t => { t with phase := .finished })[k]? = some u) :
    ∃ t, tasks[k]? = some t ∧ u = { t with phase := .finished } := by
  simp only [List.getElem?_map, Option.map_eq_some_iff] at h
  obtain ⟨t, ht, rfl⟩ := h
  exact ⟨t, ht, rfl⟩

/-- A step keeps the tasks lawful. -/
theorem Step.lawful (hobeys : ∀ c, (sys.body c).Obeys (P c))
    (hanswers : ∀ n c op ch m w, (P c).answers op (sys.perform n c op ch m w).2)
    {e : Event Call Op Ans Env ε} (hstep : Step sys cfg e cfg') (h : cfg.Lawful P) :
    cfg'.Lawful P := by
  intro k u hu
  cases hstep with
  | enter hc =>
    obtain ⟨-, rfl⟩ | hu := task_of_append hu
    · exact ⟨trivial, hobeys _⟩
    · exact h k u hu
  | @issue n t p m op q ht hphase hrun =>
    obtain ⟨-, rfl⟩ | ⟨-, hu⟩ := task_of_set hu
    · have hlaw := (h n t ht).2
      simp only [hphase] at hlaw
      have hcont := hlaw cfg.mem
      rw [Protocol.Continues, hrun] at hcont
      have hconf := h.conforms ht
      exact ⟨hconf, ⟨_, hcont.1⟩, hcont.2⟩
    · exact h k u hu
  | @perform n t m op q ch ht hphase w r hperform =>
    obtain ⟨-, rfl⟩ | ⟨-, hu⟩ := task_of_set hu
    · have hr : (P t.call).answers op r := by
        have := hanswers n t.call op ch cfg.mem cfg.world
        rwa [hperform] at this
      have hlaw := (h n t ht).2
      simp only [hphase] at hlaw
      exact ⟨⟨h.waiting ht hphase, hr, h.conforms ht⟩, hlaw.2 r hr⟩
    · exact h k u hu
  | leave ht hphase hrun =>
    obtain ⟨-, rfl⟩ | ⟨-, hu⟩ := task_of_set hu
    · have hconf := h.conforms ht
      exact ⟨hconf, trivial⟩
    · exact h k u hu
  | env he => exact h k u hu
  | crash =>
    obtain ⟨t, ht, rfl⟩ := task_of_crash hu
    have hconf := h.conforms ht
    exact ⟨hconf, trivial⟩

/-- Every reachable configuration is lawful. -/
theorem Reachable.lawful (hobeys : ∀ c, (sys.body c).Obeys (P c))
    (hanswers : ∀ n c op ch m w, (P c).answers op (sys.perform n c op ch m w).2)
    (hinit : init.Lawful P) (hreach : Reachable sys ok init cfg) : cfg.Lawful P := by
  induction hreach with
  | start => exact hinit
  | step _ _ hstep ih => exact hstep.lawful hobeys hanswers ih

/-- What is issued is what the protocol of the call allows. -/
theorem Step.awaits {n : ℕ} {c : Call} {op : Op} (hstep : Step sys cfg (.issued n c op) cfg')
    (h : cfg.Lawful P) :
    ∃ t, cfg.tasks[n]? = some t ∧ t.call = c ∧ (P c).awaits t.trace cfg.mem cfg'.mem op := by
  cases hstep with
  | issue ht hphase hrun => exact ⟨_, ht, rfl, h.awaits ht hphase hrun⟩

/-- What is performed was allowed when it was issued. -/
theorem Step.awaited {n : ℕ} {c : Call} {op : Op} {r : Ans op}
    (hstep : Step sys cfg (.performed n c op r) cfg') (h : cfg.Lawful P) :
    ∃ t m k m₀, cfg.tasks[n]? = some t ∧ t.call = c ∧ t.phase = .waiting m op k ∧
      (P c).awaits t.trace m₀ m op := by
  cases hstep with
  | perform ch ht hphase hperform =>
    obtain ⟨m₀, hawaits⟩ := h.waiting ht hphase
    exact ⟨_, _, _, m₀, ht, rfl, hphase, hawaits⟩

/-- What is performed, a task waits for, and the world answers. -/
theorem Step.performed_inv {n : ℕ} {c : Call} {op : Op} {r : Ans op}
    (hstep : Step sys cfg (.performed n c op r) cfg') :
    ∃ t m k ch, cfg.tasks[n]? = some t ∧ t.call = c ∧ t.phase = .waiting m op k ∧
      sys.perform n c op ch cfg.mem cfg.world = (cfg'.world, r) := by
  cases hstep with
  | perform ch ht hphase hperform => exact ⟨_, _, _, ch, ht, rfl, hphase, hperform⟩

/-- A task that issues an operation has not ended. -/
theorem Step.running {n : ℕ} {c : Call} {op : Op} {t : Task Call Op Ans μ ε}
    (hstep : Step sys cfg (.issued n c op) cfg') (ht : cfg.tasks[n]? = some t) :
    t.running = true := by
  cases hstep with
  | issue ht' hphase hrun =>
    cases ht.symm.trans ht'
    simp [Task.running, hphase]

/-- What a step does to task `k`: it is created, it is left alone, it issues an operation, its
operation is performed, or it is over. -/
theorem Step.task {e : Event Call Op Ans Env ε} (hstep : Step sys cfg e cfg') {k : ℕ}
    {u : Task Call Op Ans μ ε} (hu : cfg'.tasks[k]? = some u) :
    (e = .entered k u.call ∧ u.trace = [] ∧ u.phase = .ready (sys.body u.call)) ∨
      cfg.tasks[k]? = some u ∨
        ∃ t, cfg.tasks[k]? = some t ∧ t.call = u.call ∧
          ((∃ p op q, e = .issued k t.call op ∧ t.phase = .ready p ∧
              p cfg.mem = .await cfg'.mem op q ∧ u.trace = t.trace ∧
              u.phase = .waiting cfg'.mem op q) ∨
            (∃ m op q r, e = .performed k t.call op r ∧ t.phase = .waiting m op q ∧
              u.trace = ⟨m, op, r⟩ :: t.trace ∧ u.phase = .ready (q r)) ∨
            u.trace = t.trace ∧ u.phase = .finished) := by
  cases hstep with
  | enter hc =>
    obtain ⟨rfl, rfl⟩ | hu := task_of_append hu
    · exact .inl ⟨rfl, rfl, rfl⟩
    · exact .inr (.inl hu)
  | issue ht hphase hrun =>
    obtain ⟨rfl, rfl⟩ | ⟨-, hu⟩ := task_of_set hu
    · exact .inr (.inr ⟨_, ht, rfl, .inl ⟨_, _, _, rfl, hphase, hrun, rfl, rfl⟩⟩)
    · exact .inr (.inl hu)
  | perform ch ht hphase hperform =>
    obtain ⟨rfl, rfl⟩ | ⟨-, hu⟩ := task_of_set hu
    · exact .inr (.inr ⟨_, ht, rfl, .inr (.inl ⟨_, _, _, _, rfl, hphase, rfl, rfl⟩)⟩)
    · exact .inr (.inl hu)
  | leave ht hphase hrun =>
    obtain ⟨rfl, rfl⟩ | ⟨-, hu⟩ := task_of_set hu
    · exact .inr (.inr ⟨_, ht, rfl, .inr (.inr ⟨rfl, rfl⟩)⟩)
    · exact .inr (.inl hu)
  | env he => exact .inr (.inl hu)
  | crash =>
    obtain ⟨t, ht, rfl⟩ := task_of_crash hu
    exact .inr (.inr ⟨t, ht, rfl, .inr (.inr ⟨rfl, rfl⟩)⟩)

/-- How a step changes the trace of a task. -/
theorem Step.trace {e : Event Call Op Ans Env ε} (hstep : Step sys cfg e cfg') {k : ℕ}
    {u : Task Call Op Ans μ ε} (hu : cfg'.tasks[k]? = some u) :
    e = .entered k u.call ∧ u.trace = [] ∨
      ∃ t, cfg.tasks[k]? = some t ∧ t.call = u.call ∧
        (u.trace = t.trace ∨
          ∃ m op q r, e = .performed k t.call op r ∧ t.phase = .waiting m op q ∧
            u.trace = ⟨m, op, r⟩ :: t.trace) := by
  obtain ⟨he, htrace, -⟩ | hu | ⟨t, ht, hcall, h⟩ := hstep.task hu
  · exact .inl ⟨he, htrace⟩
  · exact .inr ⟨u, hu, rfl, .inl rfl⟩
  · refine .inr ⟨t, ht, hcall, ?_⟩
    obtain ⟨-, -, -, -, -, -, htrace, -⟩ | ⟨m, op, q, r, he, hphase, htrace, -⟩ | ⟨htrace, -⟩ := h
    · exact .inl htrace
    · exact .inr ⟨m, op, q, r, he, hphase, htrace⟩
    · exact .inl htrace

/-- Every await a task has completed is in the history. -/
theorem Reachable.performed_of_mem_trace (hinit : init.tasks = [])
    (hreach : Reachable sys ok init cfg) {k : ℕ} {u : Task Call Op Ans μ ε}
    (hu : cfg.tasks[k]? = some u) {x : Await Op Ans μ} (hx : x ∈ u.trace) :
    .performed k u.call x.op x.answer ∈ cfg.history := by
  induction hreach generalizing k u with
  | start => simp [hinit] at hu
  | step _ _ hstep ih =>
    rw [hstep.history]
    obtain ⟨-, htrace⟩ | ⟨t, ht, hcall, htrace | ⟨m, op, -, r, rfl, -, htrace⟩⟩ :=
      hstep.trace hu
    · simp [htrace] at hx
    · rw [htrace] at hx
      exact List.mem_cons_of_mem _ (hcall ▸ ih ht hx)
    · rw [htrace] at hx
      obtain rfl | hx := List.mem_cons.mp hx
      · exact hcall ▸ List.mem_cons_self
      · exact List.mem_cons_of_mem _ (hcall ▸ ih ht hx)

/-- Every task was entered. -/
theorem Reachable.entered_of_task (hinit : init.tasks = []) (hreach : Reachable sys ok init cfg) {k : ℕ}
    {u : Task Call Op Ans μ ε} (hu : cfg.tasks[k]? = some u) : .entered k u.call ∈ cfg.history := by
  induction hreach generalizing k u with
  | start => simp [hinit] at hu
  | step _ _ hstep ih =>
    rw [hstep.history]
    obtain ⟨rfl, -⟩ | hu | ⟨t, ht, hcall, -⟩ := hstep.task hu
    · exact List.mem_cons_self
    · exact List.mem_cons_of_mem _ (ih hu)
    · exact List.mem_cons_of_mem _ (hcall ▸ ih ht)

/-- What a task was answered comes after the task was entered. -/
theorem Reachable.entered_of_performed (hhistory : init.history = []) (htasks : init.tasks = [])
    (hreach : Reachable sys ok init cfg) {n : ℕ} {c : Call} {op : Op} {r : Ans op}
    (h : .performed n c op r ∈ cfg.history) : .entered n c ∈ cfg.history := by
  induction hreach with
  | start => simp [hhistory] at h
  | step hreach _ hstep ih =>
    rw [hstep.history] at h ⊢
    obtain rfl | h := List.mem_cons.mp h
    · obtain ⟨t, m, k, ch, ht, rfl, -⟩ := hstep.performed_inv
      exact List.mem_cons_of_mem _ (hreach.entered_of_task htasks ht)
    · exact List.mem_cons_of_mem _ (ih h)

end Run

end Async
