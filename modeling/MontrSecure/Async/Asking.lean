import MontrSecure.Async.Lawful

/-!
# Operations that may be rejected

An operation resolves to a value or rejects with an error, which the program that awaits it throws.
`follows_ask` and the rules beside it say what a program made of such steps, of checks and of loops has
to show to keep to a protocol.
-/

namespace Async

variable {Op : Type} {Val : Op → Type} {Ans : Op → Type} {μ ε α β : Type}

/-- The outcome of a program whose error is returned. -/
def Outcome.attempt {ε' : Type} : Outcome Op Ans μ ε α → Outcome Op Ans μ ε' (Except ε α)
  | .ret m a => .ret m (.ok a)
  | .throw m e => .ret m (.error e)
  | .await m op k => .await m op fun r m' => (k r m').attempt

namespace Program

/-- Await an operation; its rejection is thrown. -/
def ask (op : Op) : Program Op (fun op => Except ε (Val op)) μ ε (Val op) := do
  match ← (await op : Program Op (fun op => Except ε (Val op)) μ ε (Except ε (Val op))) with
  | .ok a => pure a
  | .error e => throw e

/-- Go on with a value, or throw. -/
def ofExcept : Except ε α → Program Op Ans μ ε α
  | .ok a => pure a
  | .error e => throw e

/-- Run a program to its end, and return what it returned or threw. -/
def attempt {ε' : Type} (p : Program Op Ans μ ε α) : Program Op Ans μ ε' (Except ε α) :=
  fun m => (p m).attempt

end Program

namespace Outcome

section Rules

variable {P : Protocol Op Ans μ} {post : Trace Op Ans μ → μ → μ → α → Prop}
  {exc : Trace Op Ans μ → μ → μ → ε → Prop} {tr : Trace Op Ans μ} {m₀ m : μ}

/-- A check keeps to the protocol when both of its ends do. -/
theorem follows_ofExcept {x : Except ε α} (hok : ∀ a, x = .ok a → post tr m₀ m a)
    (herror : ∀ e, x = .error e → exc tr m₀ m e) :
    (Program.ofExcept x m : Outcome Op Ans μ ε α).Follows P post exc tr m₀ := by
  cases x with
  | ok a => exact hok a rfl
  | error e => exact herror e rfl

/-- A loop keeps to the protocol when every round does, with an invariant on what was done. -/
theorem follows_forM {I : Trace Op Ans μ → Prop} {f : β → Program Op Ans μ ε Unit} {xs : List β}
    (hround : ∀ x ∈ xs, ∀ tr m₀ m, I tr → (f x m).Follows P (fun tr _ _ _ => I tr) exc tr m₀)
    (hI : I tr) : (xs.forM f m).Follows P (fun tr _ _ _ => I tr) exc tr m₀ := by
  induction xs generalizing tr m₀ m with
  | nil => exact hI
  | cons x xs ih =>
    show ((f x m).bind fun _ => xs.forM f).Follows P _ exc tr m₀
    rw [follows_bind]
    refine (hround x List.mem_cons_self tr m₀ m hI).mono (fun tr m₀ m _ htr => ?_) fun _ _ _ _ h => h
    exact ih (fun y hy => hround y (List.mem_cons_of_mem x hy)) htr

/-- A check, and then the rest. -/
theorem follows_ofExcept_bind {x : Except ε β} {f : β → Program Op Ans μ ε α}
    (hok : ∀ b, x = .ok b → (f b m).Follows P post exc tr m₀)
    (herror : ∀ e, x = .error e → exc tr m₀ m e) :
    ((Program.ofExcept x >>= f) m).Follows P post exc tr m₀ := by
  cases x with
  | ok b => exact hok b rfl
  | error e => exact herror e rfl

/-- A loop, and then the rest. -/
theorem follows_forM_bind {I : Trace Op Ans μ → Prop} {f : β → Program Op Ans μ ε Unit} {xs : List β}
    {g : Unit → Program Op Ans μ ε α}
    (hround : ∀ x ∈ xs, ∀ tr m₀ m, I tr → (f x m).Follows P (fun tr _ _ _ => I tr) exc tr m₀)
    (hrest : ∀ tr m₀ m, I tr → (g () m).Follows P post exc tr m₀) (hI : I tr) :
    ((xs.forM f >>= g) m).Follows P post exc tr m₀ := by
  rw [Program.bind_apply, follows_bind]
  exact (follows_forM hround hI).mono (fun tr m₀ m _ htr => hrest tr m₀ m htr) fun _ _ _ _ h => h

/-- An attempt keeps to the protocol when the program does, with both of its ends as results. -/
theorem follows_attempt {ε' : Type} {o : Outcome Op Ans μ ε α}
    {post : Trace Op Ans μ → μ → μ → Except ε α → Prop} {exc : Trace Op Ans μ → μ → μ → ε' → Prop}
    (h : o.Follows P (fun tr m₀ m a => post tr m₀ m (.ok a))
      (fun tr m₀ m e => post tr m₀ m (.error e)) tr m₀) :
    o.attempt.Follows P post exc tr m₀ := by
  induction o generalizing tr m₀ with
  | ret m a => exact h
  | throw m e => exact h
  | await m op k ih => exact ⟨h.1, fun r hr m₁ => ih r m₁ (h.2 r hr m₁)⟩

/-- An attempt, and then the rest. -/
theorem follows_attempt_bind {ε' : Type} {p : Program Op Ans μ ε β}
    {f : Except ε β → Program Op Ans μ ε' α} {post : Trace Op Ans μ → μ → μ → α → Prop}
    {exc : Trace Op Ans μ → μ → μ → ε' → Prop}
    (h : (p m).Follows P (fun tr m₀ m b => (f (.ok b) m).Follows P post exc tr m₀)
      (fun tr m₀ m e => (f (.error e) m).Follows P post exc tr m₀) tr m₀) :
    ((Program.attempt p >>= f) m).Follows P post exc tr m₀ := by
  rw [Program.bind_apply, follows_bind]
  exact follows_attempt h

/-- Where everything is allowed, every program keeps to the protocol. -/
theorem follows_of_allowed (hawaits : ∀ tr m₀ m op, P.awaits tr m₀ m op)
    (hpost : ∀ tr m₀ m a, post tr m₀ m a) (hexc : ∀ tr m₀ m e, exc tr m₀ m e)
    (o : Outcome Op Ans μ ε α) : o.Follows P post exc tr m₀ := by
  induction o generalizing tr m₀ with
  | ret m a => exact hpost tr m₀ m a
  | throw m e => exact hexc tr m₀ m e
  | await m op k ih => exact ⟨hawaits tr m₀ m op, fun r _ m₁ => ih r m₁⟩

/-- What a program has awaited in the end begins with what was awaited before it. -/
theorem Follows.suffix {o : Outcome Op Ans μ ε α} (h : o.Follows P post exc tr m₀) :
    o.Follows P (fun tr' m₀ m a => post tr' m₀ m a ∧ tr <:+ tr') exc tr m₀ := by
  induction o generalizing tr m₀ with
  | ret m a => exact ⟨h, List.suffix_rfl⟩
  | throw m e => exact h
  | await m op k ih =>
    refine ⟨h.1, fun r hr m₁ => (ih r m₁ (h.2 r hr m₁)).mono ?_ fun _ _ _ _ h => h⟩
    exact fun tr' m₀ m a hpost => ⟨hpost.1, (List.suffix_cons _ _).trans hpost.2⟩

/-- A program whose result is dropped obeys the protocol when it follows it to an end that is allowed. -/
theorem obeys_of_follows {p : Program Op Ans μ ε α}
    (h : ∀ m, (p m).Follows P (fun tr m₀ m _ => P.ends tr m₀ m) (fun tr m₀ m _ => P.ends tr m₀ m) [] m) :
    Program.Obeys P (do let _ ← p; return ()) := by
  intro m
  rw [Program.bind_apply, follows_bind]
  exact h m

end Rules

section Ask

variable {P : Protocol Op (fun op => Except ε (Val op)) μ} (op : Op)
  {post : Trace Op (fun op => Except ε (Val op)) μ → μ → μ → Val op → Prop}
  {exc : Trace Op (fun op => Except ε (Val op)) μ → μ → μ → ε → Prop}
  {tr : Trace Op (fun op => Except ε (Val op)) μ} {m₀ m : μ}

/-- An operation keeps to the protocol when it is allowed and so are both ways to go on. -/
theorem follows_ask (hop : P.awaits tr m₀ m op)
    (hok : ∀ a m₁, P.answers op (.ok a) → post (⟨m, op, .ok a⟩ :: tr) m₁ m₁ a)
    (herror : ∀ e m₁, P.answers op (.error e) → exc (⟨m, op, .error e⟩ :: tr) m₁ m₁ e) :
    (Program.ask op m).Follows P post exc tr m₀ := by
  refine ⟨hop, fun r hr m₁ => ?_⟩
  cases r with
  | ok a => exact hok a m₁ hr
  | error e => exact herror e m₁ hr

/-- An operation, and then the rest. -/
theorem follows_ask_bind {f : Val op → Program Op (fun op => Except ε (Val op)) μ ε α}
    {post : Trace Op (fun op => Except ε (Val op)) μ → μ → μ → α → Prop}
    (hop : P.awaits tr m₀ m op)
    (hok : ∀ a m₁, P.answers op (.ok a) → (f a m₁).Follows P post exc (⟨m, op, .ok a⟩ :: tr) m₁)
    (herror : ∀ e m₁, P.answers op (.error e) → exc (⟨m, op, .error e⟩ :: tr) m₁ m₁ e) :
    ((Program.ask op >>= f) m).Follows P post exc tr m₀ := by
  rw [Program.bind_apply, follows_bind]
  exact follows_ask op hop hok herror

end Ask

end Outcome

end Async

/-!
## Attempts

A program that is attempted again when what it threw is transient, with a pause in between, and that gives up
when it is told to. What holds before every attempt is an invariant: it holds at the start, and each failed
attempt leaves it for the one after the pause.
-/

namespace Async

variable {Op : Type} {Val : Op → Type} {μ ε α : Type}

namespace Program

/-- The attempts from attempt `i` on, with `left` of them after it. `gaveUp` is why the program is to stop,
`transient` are the errors after which there is another attempt, and `pause` is awaited before it. -/
def retryFrom (gaveUp : μ → Option ε) (transient : ε → Bool) (pause : ℕ → Op)
    (fn : ℕ → Program Op (fun op => Except ε (Val op)) μ ε α) :
    ℕ → ℕ → Program Op (fun op => Except ε (Val op)) μ ε α
  | left, i => do
    match gaveUp (← get) with
    | some reason => throw reason
    | none =>
      match ← attempt (fn i) with
      | .ok a => return a
      | .error e =>
        if (gaveUp (← get)).isSome || !transient e then throw e
        else
          match left with
          | 0 => throw e
          | left + 1 =>
            let _ ← ask (pause i)
            retryFrom gaveUp transient pause fn left (i + 1)

end Program

namespace Outcome

variable {P : Protocol Op (fun op => Except ε (Val op)) μ}
  {tr : Trace Op (fun op => Except ε (Val op)) μ} {m₀ m : μ}

/-- Attempts keep to a protocol when each of them does, from the invariant that the pause before it leaves. -/
theorem follows_retryFrom {gaveUp : μ → Option ε} {transient : ε → Bool} {pause : ℕ → Op}
    {fn : ℕ → Program Op (fun op => Except ε (Val op)) μ ε α}
    {I E : Trace Op (fun op => Except ε (Val op)) μ → Prop}
    {post : Trace Op (fun op => Except ε (Val op)) μ → μ → μ → α → Prop}
    (hfn : ∀ i tr m₀ m, I tr → (fn i m).Follows P post (fun tr _ _ _ => E tr) tr m₀)
    (hpause : ∀ i tr m₀ m, E tr → P.awaits tr m₀ m (pause i))
    (hagain : ∀ i tr m r, E tr → I (⟨m, pause i, .ok r⟩ :: tr)) (left i : ℕ) (hI : I tr) :
    (Program.retryFrom gaveUp transient pause fn left i m).Follows P post (fun _ _ _ _ => True) tr m₀ := by
  induction left generalizing i tr m₀ m with
  | zero =>
    unfold Program.retryFrom
    rw [Program.bind_apply, Program.get_apply, bind]
    cases gaveUp m with
    | some reason => trivial
    | none =>
      refine follows_attempt_bind ((hfn i tr m₀ m hI).mono (fun _ _ _ _ h => h) ?_)
      intro tr' m₀' m' e _
      dsimp only
      rw [Program.bind_apply, Program.get_apply, bind, Program.ite_apply]
      split <;> trivial
  | succ left ih =>
    unfold Program.retryFrom
    rw [Program.bind_apply, Program.get_apply, bind]
    cases gaveUp m with
    | some reason => trivial
    | none =>
      refine follows_attempt_bind ((hfn i tr m₀ m hI).mono (fun _ _ _ _ h => h) ?_)
      intro tr' m₀' m' e hE
      dsimp only
      rw [Program.bind_apply, Program.get_apply, bind, Program.ite_apply]
      split
      · trivial
      · refine follows_ask_bind _ (hpause i tr' m₀' m' hE) (fun r m₁ _ => ?_) fun _ _ _ => trivial
        exact ih (i + 1) (hagain i tr' m' r hE)

end Outcome

end Async
