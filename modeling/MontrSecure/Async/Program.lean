import Mathlib.Logic.Basic

/-!
# Asynchronous programs

A single-threaded `async` function runs in uninterrupted segments: between two `await`s it reads
and writes the memory of its process, and at an `await` it hands an operation to the outside and
suspends. `Program` is that shape as a monad: a segment starts from the current memory and ends by
returning, by throwing, or by awaiting an operation with a continuation for the answer.

Nothing here fixes what the operations do. `Outcome.Follows` folds a `Protocol` over a program: it
says which operations the program may issue, and how it may change the memory up to there, given
the awaits it has already completed, whatever it is answered and whatever memory it finds when it
resumes.
-/

namespace Async

variable {Op : Type} {Ans : Op → Type} {μ ε α β : Type}

/-- How one uninterrupted segment ends. `m` is the memory the segment leaves behind. -/
inductive Outcome (Op : Type) (Ans : Op → Type) (μ ε α : Type) where
  /-- The program returned `a`. -/
  | ret (m : μ) (a : α)
  /-- The program threw `e`. -/
  | throw (m : μ) (e : ε)
  /-- The program issued `op` and waits for its answer. -/
  | await (m : μ) (op : Op) (k : Ans op → μ → Outcome Op Ans μ ε α)

/-- An asynchronous program over memory `μ` with errors `ε`. -/
def Program (Op : Type) (Ans : Op → Type) (μ ε α : Type) : Type := μ → Outcome Op Ans μ ε α

namespace Outcome

/-- Continue with `f` when the program returns. -/
def bind : Outcome Op Ans μ ε α → (α → Program Op Ans μ ε β) → Outcome Op Ans μ ε β
  | ret m a, f => f a m
  | throw m e, _ => throw m e
  | await m op k, f => await m op fun r m' => (k r m').bind f

/-- Continue with `h` when the program throws. -/
def tryCatch : Outcome Op Ans μ ε α → (ε → Program Op Ans μ ε α) → Outcome Op Ans μ ε α
  | ret m a, _ => ret m a
  | throw m e, h => h e m
  | await m op k, h => await m op fun r m' => (k r m').tryCatch h

/-- The memory and the result a segment ended the program with. -/
def ended? : Outcome Op Ans μ ε α → Option (μ × Except ε α)
  | ret m a => some (m, .ok a)
  | throw m e => some (m, .error e)
  | await .. => none

end Outcome

namespace Program

/-- Await one operation and return its answer. -/
def await (op : Op) : Program Op Ans μ ε (Ans op) := fun m => .await m op fun r m' => .ret m' r

/-- Throw `e`. -/
def throw (e : ε) : Program Op Ans μ ε α := fun m => .throw m e

/-- Run `p`, and `h` on what it throws. -/
def tryCatch (p : Program Op Ans μ ε α) (h : ε → Program Op Ans μ ε α) :
    Program Op Ans μ ε α := fun m => (p m).tryCatch h

/-- Read the memory. -/
def get : Program Op Ans μ ε μ := fun m => .ret m m

/-- Update the memory. -/
def modify (f : μ → μ) : Program Op Ans μ ε Unit := fun m => .ret (f m) ()

instance : Monad (Program Op Ans μ ε) where
  pure a := fun m => .ret m a
  bind p f := fun m => (p m).bind f

@[simp]
theorem pure_apply (a : α) (m : μ) : (pure a : Program Op Ans μ ε α) m = .ret m a := rfl

@[simp]
theorem bind_apply (p : Program Op Ans μ ε α) (f : α → Program Op Ans μ ε β) (m : μ) :
    (p >>= f) m = (p m).bind f := rfl

@[simp]
theorem await_apply (op : Op) (m : μ) :
    (await op : Program Op Ans μ ε (Ans op)) m = .await m op fun r m' => .ret m' r := rfl

@[simp]
theorem throw_apply (e : ε) (m : μ) : (throw e : Program Op Ans μ ε α) m = .throw m e := rfl

@[simp]
theorem tryCatch_apply (p : Program Op Ans μ ε α) (h : ε → Program Op Ans μ ε α) (m : μ) :
    tryCatch p h m = (p m).tryCatch h := rfl

@[simp]
theorem get_apply (m : μ) : (get : Program Op Ans μ ε μ) m = .ret m m := rfl

@[simp]
theorem modify_apply (f : μ → μ) (m : μ) :
    (modify f : Program Op Ans μ ε Unit) m = .ret (f m) () := rfl

@[simp]
theorem ite_apply (c : Prop) [Decidable c] (p q : Program Op Ans μ ε α) (m : μ) :
    (if c then p else q) m = if c then p m else q m := by
  split <;> rfl

end Program

/-! ## Protocols -/

/-- A completed await: the memory left when the operation was issued, and its answer. -/
structure Await (Op : Type) (Ans : Op → Type) (μ : Type) where
  mem : μ
  op : Op
  answer : Ans op

/-- The awaits a program has completed, latest first. -/
abbrev Trace (Op : Type) (Ans : Op → Type) (μ : Type) : Type := List (Await Op Ans μ)

/-- What a program is held to. `answers` is assumed of every answer. `awaits tr m₀ m op` says that
a segment which began with memory `m₀`, after the awaits `tr`, may issue `op` and leave memory `m`;
`ends tr m₀ m` says that it may end the program there. -/
structure Protocol (Op : Type) (Ans : Op → Type) (μ : Type) where
  /-- What may be assumed of an answer. -/
  answers : (op : Op) → Ans op → Prop
  /-- What a segment may issue. -/
  awaits : Trace Op Ans μ → μ → μ → Op → Prop
  /-- How a last segment may change the memory. -/
  ends : Trace Op Ans μ → μ → μ → Prop

namespace Outcome

/-- The outcome of a segment that began with memory `m₀` after the awaits `tr` keeps to `P`,
whatever is answered (within `P.answers`) and whatever memory later segments find. `post` and
`exc` describe how the program may return and throw. -/
def Follows (P : Protocol Op Ans μ) (post : Trace Op Ans μ → μ → μ → α → Prop)
    (exc : Trace Op Ans μ → μ → μ → ε → Prop) : Trace Op Ans μ → μ → Outcome Op Ans μ ε α → Prop
  | tr, m₀, ret m a => post tr m₀ m a
  | tr, m₀, throw m e => exc tr m₀ m e
  | tr, m₀, await m op k =>
    P.awaits tr m₀ m op ∧
      ∀ r, P.answers op r → ∀ m₁, (k r m₁).Follows P post exc (⟨m, op, r⟩ :: tr) m₁

variable {P : Protocol Op Ans μ} {post post' : Trace Op Ans μ → μ → μ → α → Prop}
  {exc exc' : Trace Op Ans μ → μ → μ → ε → Prop} {tr : Trace Op Ans μ} {m₀ : μ}

@[simp]
theorem follows_ret (m : μ) (a : α) :
    (ret m a : Outcome Op Ans μ ε α).Follows P post exc tr m₀ ↔ post tr m₀ m a := Iff.rfl

@[simp]
theorem follows_throw (m : μ) (e : ε) :
    (throw m e : Outcome Op Ans μ ε α).Follows P post exc tr m₀ ↔ exc tr m₀ m e := Iff.rfl

@[simp]
theorem follows_await (m : μ) (op : Op) (k : Ans op → μ → Outcome Op Ans μ ε α) :
    (await m op k).Follows P post exc tr m₀ ↔
      P.awaits tr m₀ m op ∧
        ∀ r, P.answers op r → ∀ m₁, (k r m₁).Follows P post exc (⟨m, op, r⟩ :: tr) m₁ := Iff.rfl

/-- A sequence keeps to `P` when its first program does, with the rest as its postcondition. -/
@[simp]
theorem follows_bind {post : Trace Op Ans μ → μ → μ → β → Prop} (o : Outcome Op Ans μ ε α)
    (f : α → Program Op Ans μ ε β) :
    (o.bind f).Follows P post exc tr m₀ ↔
      o.Follows P (fun tr m₀ m a => (f a m).Follows P post exc tr m₀) exc tr m₀ := by
  induction o generalizing tr m₀ with
  | ret m a => rfl
  | throw m e => rfl
  | await m op k ih => simp only [bind, follows_await, ih]

@[simp]
theorem follows_tryCatch (o : Outcome Op Ans μ ε α) (h : ε → Program Op Ans μ ε α) :
    (o.tryCatch h).Follows P post exc tr m₀ ↔
      o.Follows P post (fun tr m₀ m e => (h e m).Follows P post exc tr m₀) tr m₀ := by
  induction o generalizing tr m₀ with
  | ret m a => rfl
  | throw m e => rfl
  | await m op k ih => simp only [tryCatch, follows_await, ih]

/-- Weaker postconditions. -/
theorem Follows.mono {o : Outcome Op Ans μ ε α} (h : o.Follows P post exc tr m₀)
    (hpost : ∀ tr m₀ m a, post tr m₀ m a → post' tr m₀ m a)
    (hexc : ∀ tr m₀ m e, exc tr m₀ m e → exc' tr m₀ m e) :
    o.Follows P post' exc' tr m₀ := by
  induction o generalizing tr m₀ with
  | ret m a => exact hpost _ _ _ _ h
  | throw m e => exact hexc _ _ _ _ h
  | await m op k ih => exact ⟨h.1, fun r hr m => ih r m (h.2 r hr m)⟩

end Outcome

/-- The program keeps to `P` from its first segment on, whatever memory that segment finds. -/
def Program.Obeys (P : Protocol Op Ans μ) (p : Program Op Ans μ ε α) : Prop :=
  ∀ m, (p m).Follows P (fun tr m₀ m _ => P.ends tr m₀ m) (fun tr m₀ m _ => P.ends tr m₀ m) [] m

/-! ## Running alone -/

/-- Run to the end with every operation performed at once by `exec`, no other program in between. -/
def Outcome.runAlone {σ : Type} (exec : (op : Op) → σ → Ans op × σ) :
    Outcome Op Ans μ ε α → σ → Except ε α × μ × σ
  | ret m a, w => (.ok a, m, w)
  | throw m e, w => (.error e, m, w)
  | await m op k, w => (k (exec op w).1 m).runAlone exec (exec op w).2

@[simp]
theorem Outcome.runAlone_bind {σ : Type} (exec : (op : Op) → σ → Ans op × σ)
    (o : Outcome Op Ans μ ε α) (f : α → Program Op Ans μ ε β) (w : σ) :
    (o.bind f).runAlone exec w =
      match o.runAlone exec w with
      | (.ok a, m, w') => (f a m).runAlone exec w'
      | (.error e, m, w') => (.error e, m, w') := by
  induction o generalizing w with
  | ret m a => rfl
  | throw m e => rfl
  | await m op k ih => simp only [bind, runAlone, ih]

@[simp]
theorem Outcome.runAlone_tryCatch {σ : Type} (exec : (op : Op) → σ → Ans op × σ)
    (o : Outcome Op Ans μ ε α) (h : ε → Program Op Ans μ ε α) (w : σ) :
    (o.tryCatch h).runAlone exec w =
      match o.runAlone exec w with
      | (.ok a, m, w') => (.ok a, m, w')
      | (.error e, m, w') => (h e m).runAlone exec w' := by
  induction o generalizing w with
  | ret m a => rfl
  | throw m e => rfl
  | await m op k ih => simp only [tryCatch, runAlone, ih]

end Async
