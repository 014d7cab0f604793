import MontrSecure.Async.Lawful

/-!
# Programs inside larger ones

A program over some operations and some memory runs as a part of a program over more operations and more
memory. An `Embedding` says where its operations, its memory and its errors are found there. What the part
keeps to alone, it keeps to inside: `Follows.lift` carries a protocol over, with the awaits that the larger
program had completed before.
-/

namespace Async

variable {Op Op' : Type} {Ans : Op → Type} {Ans' : Op' → Type} {μ μ' ε ε' α : Type}

/-- Where the operations, answers, memory and errors of a program are found in a larger one. -/
structure Embedding (Op : Type) (Ans : Op → Type) (μ ε : Type) (Op' : Type) (Ans' : Op' → Type)
    (μ' ε' : Type) where
  op : Op → Op'
  answer : ∀ o, Ans' (op o) → Ans o
  view : μ' → μ
  put : μ → μ' → μ'
  error : ε → ε'

variable (E : Embedding Op Ans μ ε Op' Ans' μ' ε')

/-- The outcome of a part, in a segment that began with the larger memory `m'`. -/
def Outcome.lift : Outcome Op Ans μ ε α → μ' → Outcome Op' Ans' μ' ε' α
  | ret m a, m' => ret (E.put m m') a
  | throw m e, m' => throw (E.put m m') (E.error e)
  | await m op k, m' => await (E.put m m') (E.op op) fun r m'' => (k (E.answer op r) (E.view m'')).lift m''

/-- A program as a part of a larger one. -/
def Program.lift (p : Program Op Ans μ ε α) : Program Op' Ans' μ' ε' α :=
  fun m' => (p (E.view m')).lift E m'

/-- The awaits of the larger program that are those of the part. -/
inductive Embedding.Image : Trace Op Ans μ → Trace Op' Ans' μ' → Prop where
  | nil : Image [] []
  | cons {tr : Trace Op Ans μ} {tr' : Trace Op' Ans' μ'} (h : Image tr tr') (m : μ) (m' : μ') (op : Op)
      (r : Ans' (E.op op)) :
      Image (⟨m, op, E.answer op r⟩ :: tr) (⟨E.put m m', E.op op, r⟩ :: tr')

variable {E} {P : Protocol Op Ans μ} {P' : Protocol Op' Ans' μ'}
  {post : Trace Op Ans μ → μ → μ → α → Prop} {exc : Trace Op Ans μ → μ → μ → ε → Prop}

/-- What an end of the part, described by `Q`, is inside. -/
def Embedding.Inside {β : Type} (E : Embedding Op Ans μ ε Op' Ans' μ' ε')
    (Q : Trace Op Ans μ → μ → μ → β → Prop) (tr₀ : Trace Op' Ans' μ') (tr' : Trace Op' Ans' μ')
    (m₀' m' : μ') (b : β) : Prop :=
  ∃ tr done m, tr' = done ++ tr₀ ∧ E.Image tr done ∧ m' = E.put m m₀' ∧ Q tr (E.view m₀') m b

/-- A part keeps to the protocol of the larger program when the operations it is allowed are allowed there. -/
theorem Outcome.Follows.lift {o : Outcome Op Ans μ ε α} {tr : Trace Op Ans μ}
    {tr₀ done : Trace Op' Ans' μ'} {m₀' : μ'} (h : o.Follows P post exc tr (E.view m₀'))
    (himage : E.Image tr done)
    (hawaits : ∀ tr done m₀' m op, E.Image tr done → P.awaits tr (E.view m₀') m op →
      P'.awaits (done ++ tr₀) m₀' (E.put m m₀') (E.op op))
    (hanswers : ∀ op r, P'.answers (E.op op) r → P.answers op (E.answer op r)) :
    (o.lift E m₀').Follows P' (E.Inside post tr₀)
      (fun tr' m₀' m' e' => ∃ e, e' = E.error e ∧ E.Inside exc tr₀ tr' m₀' m' e) (done ++ tr₀) m₀' := by
  induction o generalizing tr done m₀' with
  | ret m a => exact ⟨tr, done, m, rfl, himage, rfl, h⟩
  | throw m e => exact ⟨e, rfl, tr, done, m, rfl, himage, rfl, h⟩
  | await m op k ih =>
    refine ⟨hawaits tr done m₀' m op himage h.1, fun r hr m'' => ?_⟩
    exact ih _ _ (h.2 (E.answer op r) (hanswers op r hr) (E.view m'')) (himage.cons m m₀' op r)

/-! ## Lifting along `do` -/

section Lawful

/-- What a part leaves of the larger memory: it finds what it has put there, and putting back what it finds
changes nothing. -/
structure Embedding.Lawful (E : Embedding Op Ans μ ε Op' Ans' μ' ε') : Prop where
  view_put : ∀ m m', E.view (E.put m m') = m
  put_view : ∀ m', E.put (E.view m') m' = m'
  put_put : ∀ m₁ m₂ m', E.put m₁ (E.put m₂ m') = E.put m₁ m'

variable {β : Type} (hE : E.Lawful)

include hE

theorem Outcome.lift_put (o : Outcome Op Ans μ ε α) (m : μ) (m' : μ') : o.lift E (E.put m m') = o.lift E m' := by
  cases o with
  | ret m₁ a => rw [Outcome.lift, Outcome.lift, hE.put_put]
  | throw m₁ e => rw [Outcome.lift, Outcome.lift, hE.put_put]
  | await m₁ op k => rw [Outcome.lift, Outcome.lift, hE.put_put]

theorem Outcome.lift_bind (o : Outcome Op Ans μ ε α) (f : α → Program Op Ans μ ε β) (m' : μ') :
    (o.bind f).lift E m' = (o.lift E m').bind fun a => (f a).lift E := by
  induction o generalizing m' with
  | ret m a =>
    show (f a m).lift E m' = (f a (E.view (E.put m m'))).lift E (E.put m m')
    rw [hE.view_put, Outcome.lift_put hE]
  | throw m e => rfl
  | await m op k ih => simp only [Outcome.bind, Outcome.lift, ih]

/-- A sequence is lifted piece by piece. -/
theorem Program.lift_bind (p : Program Op Ans μ ε α) (f : α → Program Op Ans μ ε β) :
    (p >>= f).lift E = p.lift E >>= fun a => (f a).lift E :=
  funext fun m' => Outcome.lift_bind hE (p (E.view m')) f m'

theorem Program.lift_pure (a : α) : (pure a : Program Op Ans μ ε α).lift E = pure a :=
  funext fun m' => by rw [Program.lift, pure_apply, pure_apply, Outcome.lift, hE.put_view]

end Lawful

/-! ## Lifting in the middle of a segment -/

/-- Where a protocol does not look at how a segment began, it is kept to from any beginning. -/
theorem Outcome.Follows.rebase {o : Outcome Op Ans μ ε α} {post : Trace Op Ans μ → μ → α → Prop}
    {exc : Trace Op Ans μ → μ → ε → Prop} {tr : Trace Op Ans μ} {m₀ m₁ : μ}
    (hawaits : ∀ tr m₀ m₁ m op, P.awaits tr m₀ m op → P.awaits tr m₁ m op)
    (h : o.Follows P (fun tr _ m a => post tr m a) (fun tr _ m e => exc tr m e) tr m₀) :
    o.Follows P (fun tr _ m a => post tr m a) (fun tr _ m e => exc tr m e) tr m₁ := by
  cases o with
  | ret m a => exact h
  | throw m e => exact h
  | await m op k => exact ⟨hawaits tr m₀ m₁ m op h.1, h.2⟩

/-- A part, from the middle of a segment on: its ends are told by what it awaited alone. -/
theorem Program.follows_lift {p : Program Op Ans μ ε α} {post : Trace Op Ans μ → μ → α → Prop}
    {exc : Trace Op Ans μ → μ → ε → Prop} {post' : Trace Op' Ans' μ' → μ' → α → Prop}
    {exc' : Trace Op' Ans' μ' → μ' → ε' → Prop} {tr₀ : Trace Op' Ans' μ'} {m₀' m' : μ'}
    (h : (p (E.view m')).Follows P (fun tr _ m a => post tr m a) (fun tr _ m e => exc tr m e) [] (E.view m'))
    (hawaits : ∀ tr done m₀' m op, E.Image tr done → P.awaits tr (E.view m₀') m op →
      P'.awaits (done ++ tr₀) m₀' (E.put m m₀') (E.op op))
    (hanswers : ∀ op r, P'.answers (E.op op) r → P.answers op (E.answer op r))
    (hbase : ∀ tr m₀ m₁ m op, P'.awaits tr m₀ m op → P'.awaits tr m₁ m op)
    (hpost : ∀ tr done m m₁' a, E.Image tr done → post tr m a → post' (done ++ tr₀) (E.put m m₁') a)
    (hexc : ∀ tr done m m₁' e, E.Image tr done → exc tr m e → exc' (done ++ tr₀) (E.put m m₁') (E.error e)) :
    (p.lift E m').Follows P' (fun tr _ m a => post' tr m a) (fun tr _ m e => exc' tr m e) tr₀ m₀' := by
  refine Outcome.Follows.rebase hbase ((h.lift .nil hawaits hanswers).mono ?_ ?_)
  · rintro tr' m₁' m'' a ⟨tr, done, m, rfl, himage, rfl, hend⟩
    exact hpost tr done m m₁' a himage hend
  · rintro tr' m₁' m'' e' ⟨e, rfl, tr, done, m, rfl, himage, rfl, hend⟩
    exact hexc tr done m m₁' e himage hend

end Async
