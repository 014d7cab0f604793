import MontrSecure.Async.Asking
import MontrSecure.Async.Lawful
import Mathlib.Algebra.GroupWithZero.Nat

/-!
# Runs of one program

A program run on its own: after each operation it awaits, it goes on with any answer and from any memory, so
that whatever else happens meanwhile is there. `Ran` are the points such a run gets to. `Ran.follows` brings a
protocol to them: what the program issues is what the protocol allows after the awaits before, and what it
returns meets the postcondition.
-/

namespace Async

variable {Op : Type} {Ans : Op → Type} {μ ε α : Type}

/-- The run of a program has completed the awaits of the trace. Its segment began with memory `m₀`, and the
outcome of that is at hand. -/
inductive Program.Ran (p : Program Op Ans μ ε α) : Trace Op Ans μ → μ → Outcome Op Ans μ ε α → Prop where
  | start (m : μ) : Ran p [] m (p m)
  | step {tr : Trace Op Ans μ} {m₀ m : μ} {op : Op} {k : Ans op → μ → Outcome Op Ans μ ε α}
      (h : Ran p tr m₀ (.await m op k)) (r : Ans op) (m₁ : μ) : Ran p (⟨m, op, r⟩ :: tr) m₁ (k r m₁)

/-- The operations that were issued, latest first; the last one may not have been answered. -/
def Outcome.issued (o : Outcome Op Ans μ ε α) (tr : Trace Op Ans μ) : List Op :=
  match o with
  | .await _ op _ => op :: tr.map (·.op)
  | _ => tr.map (·.op)

/-- Every answer of the trace is as the protocol assumes. -/
def Protocol.Answers (P : Protocol Op Ans μ) (tr : Trace Op Ans μ) : Prop :=
  ∀ x ∈ tr, P.answers x.op x.answer

namespace Program.Ran

variable {p : Program Op Ans μ ε α} {P : Protocol Op Ans μ} {tr : Trace Op Ans μ} {m₀ m : μ}
  {o : Outcome Op Ans μ ε α} {post : Trace Op Ans μ → μ → μ → α → Prop}
  {exc : Trace Op Ans μ → μ → μ → ε → Prop}

/-- What is left of a run keeps to the protocol. -/
theorem follows (hp : ∀ m, (p m).Follows P post exc [] m) (h : p.Ran tr m₀ o) (hanswers : P.Answers tr) :
    o.Follows P post exc tr m₀ := by
  induction h with
  | start m => exact hp m
  | step _ r m₁ ih =>
    obtain ⟨-, hgoes⟩ := ih fun x hx => hanswers x (List.mem_cons_of_mem _ hx)
    exact hgoes r (hanswers _ List.mem_cons_self) m₁

/-- What a run has awaited conforms to the protocol. -/
theorem conforms (hp : ∀ m, (p m).Follows P post exc [] m) (h : p.Ran tr m₀ o) (hanswers : P.Answers tr) :
    P.Conforms tr := by
  induction h with
  | start m => trivial
  | step h r m₁ ih =>
    have hbefore : P.Answers _ := fun x hx => hanswers x (List.mem_cons_of_mem _ hx)
    exact ⟨⟨_, (h.follows hp hbefore).1⟩, hanswers _ List.mem_cons_self, ih hbefore⟩

/-- What a run returns meets the postcondition. -/
theorem returned (hp : ∀ m, (p m).Follows P post exc [] m) {a : α} (h : p.Ran tr m₀ (.ret m a))
    (hanswers : P.Answers tr) : post tr m₀ m a :=
  h.follows hp hanswers

/-- What a run issues is allowed. -/
theorem awaits (hp : ∀ m, (p m).Follows P post exc [] m) {op : Op}
    {k : Ans op → μ → Outcome Op Ans μ ε α} (h : p.Ran tr m₀ (.await m op k)) (hanswers : P.Answers tr) :
    P.awaits tr m₀ m op :=
  (h.follows hp hanswers).1

/-- What a run has awaited, it issued. -/
theorem issued_of_mem {x : Await Op Ans μ} (h : p.Ran tr m₀ o) (hx : x ∈ tr) :
    ∃ tr' m₀' k, tr' <:+ tr ∧ p.Ran tr' m₀' (.await x.mem x.op k) := by
  induction h with
  | start m => cases hx
  | step h r m₁ ih =>
    obtain rfl | hx := List.mem_cons.mp hx
    · exact ⟨_, _, _, List.suffix_cons _ _, h⟩
    · obtain ⟨tr', m₀', k, hsince, hissued⟩ := ih hx
      exact ⟨tr', m₀', k, hsince.trans (List.suffix_cons _ _), hissued⟩

end Program.Ran

/-! ## Replaying -/

/-- Go on for at most `n` awaits, each answered by `answer`, which also gives the memory the next segment
finds. -/
def Outcome.replay (answer : (op : Op) → μ → Ans op × μ) :
    ℕ → Trace Op Ans μ → μ → Outcome Op Ans μ ε α → Trace Op Ans μ × μ × Outcome Op Ans μ ε α
  | 0, tr, m₀, o => (tr, m₀, o)
  | n + 1, tr, m₀, o =>
    match o with
    | .await m op k => replay answer n (⟨m, op, (answer op m).1⟩ :: tr) (answer op m).2
        (k (answer op m).1 (answer op m).2)
    | o => (tr, m₀, o)

/-- What a replay gets to, a run gets to. -/
theorem Program.Ran.replay {p : Program Op Ans μ ε α} {answer : (op : Op) → μ → Ans op × μ} {n : ℕ}
    {tr : Trace Op Ans μ} {m₀ : μ} {o : Outcome Op Ans μ ε α} (h : p.Ran tr m₀ o) :
    p.Ran (o.replay answer n tr m₀).1 (o.replay answer n tr m₀).2.1 (o.replay answer n tr m₀).2.2 := by
  induction n generalizing tr m₀ o with
  | zero => exact h
  | succ n ih =>
    cases o with
    | await m op k => exact ih (h.step _ _)
    | ret m a => exact h
    | throw m e => exact h

/-- What a replay awaits, `answer` answered. -/
theorem Outcome.answer_of_mem_replay {answer : (op : Op) → μ → Ans op × μ} {n : ℕ} {tr : Trace Op Ans μ}
    {m₀ : μ} {o : Outcome Op Ans μ ε α} {x : Await Op Ans μ} (hx : x ∈ (o.replay answer n tr m₀).1) :
    x ∈ tr ∨ x.answer = (answer x.op x.mem).1 := by
  induction n generalizing tr m₀ o with
  | zero => exact .inl hx
  | succ n ih =>
    cases o with
    | await m op k =>
      rcases ih hx with hmem | hanswer
      · rcases List.mem_cons.mp hmem with rfl | hold
        · exact .inr rfl
        · exact .inl hold
      · exact .inr hanswer
    | ret m a => exact .inl hx
    | throw m e => exact .inl hx

end Async

/-!
## What a program returns

A postcondition on the values a program returns, for a program that may issue anything and may throw anything:
the answers are only assumed to meet `answers`, and the memory is found as others left it. The rules take a
program apart along `do`, and `Returns.of_ran` brings the postcondition to its runs.
-/

namespace Async

variable {Op : Type} {Ans : Op → Type} {μ ε α β : Type}

/-- Everything may be issued, and the answers meet `answers`. -/
def Protocol.answering (answers : (op : Op) → Ans op → Prop) : Protocol Op Ans μ where
  answers := answers
  awaits _ _ _ _ := True
  ends _ _ _ := True

namespace Program

/-- Every value that the program returns has the property. -/
def Returns (answers : (op : Op) → Ans op → Prop) (p : Program Op Ans μ ε α) (post : α → Prop) : Prop :=
  ∀ tr m₀ m, (p m).Follows (.answering answers) (fun _ _ _ a => post a) (fun _ _ _ _ => True) tr m₀

namespace Returns

variable {answers : (op : Op) → Ans op → Prop} {p : Program Op Ans μ ε α} {post : α → Prop}

theorem pure {a : α} (h : post a) : Returns answers (pure a : Program Op Ans μ ε α) post :=
  fun _ _ _ => h

theorem throw {e : ε} : Returns answers (throw e : Program Op Ans μ ε α) post :=
  fun _ _ _ => trivial

theorem mono {post' : α → Prop} (hp : Returns answers p post) (h : ∀ a, post a → post' a) :
    Returns answers p post' :=
  fun tr m₀ m => (hp tr m₀ m).mono (fun _ _ _ a => h a) fun _ _ _ _ => id

theorem bind {f : α → Program Op Ans μ ε β} {post' : β → Prop} (hp : Returns answers p post)
    (hf : ∀ a, post a → Returns answers (f a) post') : Returns answers (p >>= f) post' := by
  intro tr m₀ m
  rw [Program.bind_apply, Outcome.follows_bind]
  exact (hp tr m₀ m).mono (fun tr m₀ m a ha => hf a ha tr m₀ m) fun _ _ _ _ => id

/-- Nothing has to be known of a program. -/
theorem any : Returns answers p fun _ => True :=
  fun _ _ m => Outcome.follows_of_allowed (fun _ _ _ _ => trivial) (fun _ _ _ _ => trivial)
    (fun _ _ _ _ => trivial) (p m)

/-- The rest of a program, when what is returned first does not matter. -/
theorem after {f : α → Program Op Ans μ ε β} {post' : β → Prop} (hf : ∀ a, Returns answers (f a) post') :
    Returns answers (p >>= f) post' :=
  any.bind fun a _ => hf a

theorem ofExcept {x : Except ε α} (h : ∀ a, x = .ok a → post a) :
    Returns answers (ofExcept x : Program Op Ans μ ε α) post :=
  fun _ _ _ => Outcome.follows_ofExcept h fun _ _ => trivial

/-- An attempt returns what the program returns, or some error. -/
theorem attempt {ε' : Type} (hp : Returns answers p post) :
    Returns answers (attempt p : Program Op Ans μ ε' (Except ε α)) fun x => ∀ a, x = .ok a → post a := by
  intro tr m₀ m
  refine Outcome.follows_attempt ((hp tr m₀ m).mono (fun _ _ _ a ha b hb => ?_) fun _ _ _ e _ b hb => ?_)
  · rwa [← Except.ok.inj hb]
  · cases hb

/-- What a run returns has the property. -/
theorem of_ran (hp : Returns answers p post) {tr : Trace Op Ans μ} {m₀ m : μ} {a : α}
    (h : p.Ran tr m₀ (.ret m a)) (hanswers : ∀ x ∈ tr, answers x.op x.answer) : post a :=
  h.returned (fun m => hp [] m m) hanswers

end Returns

/-- What is left of a run returns what the run may return. -/
theorem Ran.follows_ran {answers : (op : Op) → Ans op → Prop} {p : Program Op Ans μ ε α}
    {tr : Trace Op Ans μ} {m₀ : μ} {o : Outcome Op Ans μ ε α} (h : p.Ran tr m₀ o) :
    o.Follows (.answering answers) (fun tr m₀ m a => p.Ran tr m₀ (.ret m a)) (fun _ _ _ _ => True) tr m₀ := by
  induction o generalizing tr m₀ with
  | ret m a => exact h
  | throw m e => trivial
  | await m op k ih => exact ⟨trivial, fun r _ m₁ => ih r m₁ (h.step r m₁)⟩

/-- What the rest of a program returns, after a part whose runs return only some values. -/
theorem Ran.returned_bind {answers : (op : Op) → Ans op → Prop} {p : Program Op Ans μ ε α} {mid : α → Prop}
    {f : α → Program Op Ans μ ε β} {post : β → Prop} {tr : Trace Op Ans μ} {m₀ m : μ} {b : β}
    (h : (p >>= f).Ran tr m₀ (.ret m b)) (hp : ∀ tr m₀ m a, p.Ran tr m₀ (.ret m a) → mid a)
    (hf : ∀ a, mid a → Returns answers (f a) post) (hanswers : ∀ x ∈ tr, answers x.op x.answer) : post b := by
  have hfollows (m : μ) : ((p >>= f) m).Follows (.answering answers) (fun _ _ _ b => post b)
      (fun _ _ _ _ => True) [] m := by
    rw [Program.bind_apply, Outcome.follows_bind]
    exact (Ran.start m).follows_ran.mono (fun tr m₀ m a ha => hf a (hp tr m₀ m a ha) tr m₀ m) fun _ _ _ _ => id
  exact h.returned hfollows hanswers

end Program

section Ask

variable {Val : Op → Type} {answers : (op : Op) → Except ε (Val op) → Prop} {op : Op} {post : Val op → Prop}

/-- An operation returns what it may be answered. -/
theorem Program.Returns.ask (h : ∀ a, answers op (.ok a) → post a) :
    Returns answers (ask op : Program Op (fun op => Except ε (Val op)) μ ε (Val op)) post :=
  fun _ _ _ => Outcome.follows_ask op trivial (fun a _ ha => h a ha) fun _ _ _ => trivial

end Ask

end Async

/-!
## What a run costs

A bound on the cost of the operations that a program issues, whatever it is answered and whatever memory it finds.
The rules add the bounds of the parts up along `do`; `Ran.cost_issued_le` brings the bound to the runs. With a cost
of one for every operation, it bounds how long a run is.
-/

namespace Async

variable {Op : Type} {Ans : Op → Type} {μ ε α β : Type}

/-- The operations to come cost at most `n` together. -/
def Outcome.Spends (cost : Op → ℕ) : Outcome Op Ans μ ε α → ℕ → Prop
  | ret .., _ => True
  | throw .., _ => True
  | await _ op k, n => cost op ≤ n ∧ ∀ r m, (k r m).Spends cost (n - cost op)

namespace Outcome.Spends

variable {cost : Op → ℕ} {o : Outcome Op Ans μ ε α} {n n' k : ℕ}

theorem mono (h : o.Spends cost n) (hle : n ≤ n') : o.Spends cost n' := by
  induction o generalizing n n' with
  | ret m a => trivial
  | throw m e => trivial
  | await m op next ih => exact ⟨Nat.le_trans h.1 hle, fun r m => ih r m (h.2 r m) (Nat.sub_le_sub_right hle _)⟩

theorem bind {f : α → Program Op Ans μ ε β} (h : o.Spends cost n) (hf : ∀ a m, (f a m).Spends cost k) :
    (o.bind f).Spends cost (n + k) := by
  induction o generalizing n with
  | ret m a => exact (hf a m).mono (Nat.le_add_left k n)
  | throw m e => trivial
  | await m op next ih =>
    refine ⟨Nat.le_trans h.1 (Nat.le_add_right n k), fun r m => ?_⟩
    rw [Nat.sub_add_comm h.1]
    exact ih r m (h.2 r m)

end Outcome.Spends

/-- Whatever memory the program begins with, its operations cost at most `n` together. -/
def Program.Spends (cost : Op → ℕ) (p : Program Op Ans μ ε α) (n : ℕ) : Prop := ∀ m, (p m).Spends cost n

namespace Program.Spends

variable {cost : Op → ℕ} {p q : Program Op Ans μ ε α} {n n' k : ℕ}

theorem mono (h : p.Spends cost n) (hle : n ≤ n') : p.Spends cost n' := fun m => (h m).mono hle

theorem pure (a : α) : Spends cost (pure a : Program Op Ans μ ε α) n := fun _ => trivial

theorem throw (e : ε) : Spends cost (Program.throw e : Program Op Ans μ ε α) n := fun _ => trivial

theorem get : Spends cost (Program.get : Program Op Ans μ ε μ) n := fun _ => trivial

theorem modify (f : μ → μ) : Spends cost (Program.modify f : Program Op Ans μ ε Unit) n := fun _ => trivial

theorem await {op : Op} (h : cost op ≤ n) : Spends cost (Program.await op : Program Op Ans μ ε (Ans op)) n :=
  fun _ => ⟨h, fun _ _ => trivial⟩

theorem bind {f : α → Program Op Ans μ ε β} (h : p.Spends cost n) (hf : ∀ a, (f a).Spends cost k) :
    (p >>= f).Spends cost (n + k) :=
  fun m => (h m).bind fun a => hf a

/-- After a program whose operations cost nothing. -/
theorem after {f : α → Program Op Ans μ ε β} (h : p.Spends cost 0) (hf : ∀ a, (f a).Spends cost n) :
    (p >>= f).Spends cost n :=
  (h.bind hf).mono (Nat.le_of_eq (Nat.zero_add n))

theorem ite {c : Prop} [Decidable c] (hp : c → p.Spends cost n) (hq : ¬c → q.Spends cost n) :
    (if c then p else q).Spends cost n := by
  split
  · exact hp ‹_›
  · exact hq ‹_›

end Program.Spends

/-- What a run has completed cost no more than the bound, and what is left of it costs no more than what is left of
the bound. -/
theorem Program.Ran.spends {cost : Op → ℕ} {p : Program Op Ans μ ε α} {n : ℕ} {tr : Trace Op Ans μ} {m₀ : μ}
    {o : Outcome Op Ans μ ε α} (hp : p.Spends cost n) (h : p.Ran tr m₀ o) :
    (tr.map fun x => cost x.op).sum ≤ n ∧ o.Spends cost (n - (tr.map fun x => cost x.op).sum) := by
  induction h with
  | start m => exact ⟨Nat.zero_le n, hp m⟩
  | step h r m₁ ih =>
    obtain ⟨hsum, hop, hrest⟩ := ih
    simp only [List.map_cons, List.sum_cons]
    refine ⟨by omega, ?_⟩
    rw [Nat.add_comm, Nat.sub_add_eq]
    exact hrest r m₁

/-- What a run issues costs no more than the bound. -/
theorem Program.Ran.cost_issued_le {cost : Op → ℕ} {p : Program Op Ans μ ε α} {n : ℕ} {tr : Trace Op Ans μ}
    {m₀ : μ} {o : Outcome Op Ans μ ε α} (hp : p.Spends cost n) (h : p.Ran tr m₀ o) :
    ((o.issued tr).map cost).sum ≤ n := by
  obtain ⟨hsum, hrest⟩ := h.spends hp
  have hmap : (tr.map (·.op)).map cost = tr.map fun x => cost x.op := List.map_map
  cases o with
  | await m op k =>
    have hop := hrest.1
    rw [Outcome.issued, List.map_cons, List.sum_cons, hmap]
    omega
  | ret m a =>
    change ((tr.map (·.op)).map cost).sum ≤ n
    rw [hmap]
    exact hsum
  | throw m e =>
    change ((tr.map (·.op)).map cost).sum ≤ n
    rw [hmap]
    exact hsum

end Async

/-!
## Before and after

The rules of pre- and postconditions for the programs that are held to a protocol. What is known at a point of a
segment is an `Assertion`: of the awaits that are completed, of the memory that the segment began with, and of the
memory now. A program that throws ends there, so that the protocol has to let it.
-/

namespace Async

variable {Op : Type} {Ans : Op → Type} {μ ε α β : Type}

/-- What is known at a point of a segment. -/
abbrev Assertion (Op : Type) (Ans : Op → Type) (μ : Type) : Type := Trace Op Ans μ → μ → μ → Prop

/-- Begun where `pre` holds, the program keeps to the protocol, and it returns where `post` holds. -/
def Program.Triple (P : Protocol Op Ans μ) (pre : Assertion Op Ans μ) (p : Program Op Ans μ ε α)
    (post : α → Assertion Op Ans μ) : Prop :=
  ∀ tr m₀ m, pre tr m₀ m →
    (p m).Follows P (fun tr m₀ m a => post a tr m₀ m) (fun tr m₀ m _ => P.ends tr m₀ m) tr m₀

namespace Program.Triple

variable {P : Protocol Op Ans μ} {pre pre' : Assertion Op Ans μ} {p q : Program Op Ans μ ε α}
  {post post' : α → Assertion Op Ans μ}

theorem weaken (h : Triple P pre p post) (hpre : ∀ tr m₀ m, pre' tr m₀ m → pre tr m₀ m)
    (hpost : ∀ a tr m₀ m, post a tr m₀ m → post' a tr m₀ m) : Triple P pre' p post' := by
  intro tr m₀ m hm
  apply (h tr m₀ m (hpre tr m₀ m hm)).mono
  · exact fun tr m₀ m a => hpost a tr m₀ m
  · exact fun _ _ _ _ => id

theorem pure {a : α} (h : ∀ tr m₀ m, pre tr m₀ m → post a tr m₀ m) :
    Triple P pre (pure a : Program Op Ans μ ε α) post :=
  h

theorem throw {e : ε} (h : ∀ tr m₀ m, pre tr m₀ m → P.ends tr m₀ m) :
    Triple P pre (Program.throw e : Program Op Ans μ ε α) post :=
  h

theorem get {post : μ → Assertion Op Ans μ} (h : ∀ tr m₀ m, pre tr m₀ m → post m tr m₀ m) :
    Triple P pre (Program.get : Program Op Ans μ ε μ) post :=
  h

theorem modify {f : μ → μ} {post : Unit → Assertion Op Ans μ} (h : ∀ tr m₀ m, pre tr m₀ m → post () tr m₀ (f m)) :
    Triple P pre (Program.modify f : Program Op Ans μ ε Unit) post :=
  h

/-- After an await the segment is a new one, and its memory is found as others left it. -/
theorem await {op : Op} {post : Ans op → Assertion Op Ans μ} (hop : ∀ tr m₀ m, pre tr m₀ m → P.awaits tr m₀ m op)
    (hpost : ∀ tr m₀ m r m₁, pre tr m₀ m → P.answers op r → post r (⟨m, op, r⟩ :: tr) m₁ m₁) :
    Triple P pre (Program.await op : Program Op Ans μ ε (Ans op)) post := by
  intro tr m₀ m hm
  exact ⟨hop tr m₀ m hm, fun r hr m₁ => hpost tr m₀ m r m₁ hm hr⟩

theorem bind {f : α → Program Op Ans μ ε β} {mid : α → Assertion Op Ans μ} {post : β → Assertion Op Ans μ}
    (hp : Triple P pre p mid) (hf : ∀ a, Triple P (mid a) (f a) post) : Triple P pre (p >>= f) post := by
  intro tr m₀ m hm
  rw [Program.bind_apply, Outcome.follows_bind]
  apply (hp tr m₀ m hm).mono
  · exact fun tr m₀ m a ha => hf a tr m₀ m ha
  · exact fun _ _ _ _ => id

theorem ite {c : Prop} [Decidable c] (hp : c → Triple P pre p post) (hq : ¬c → Triple P pre q post) :
    Triple P pre (if c then p else q) post := by
  split
  · exact hp ‹_›
  · exact hq ‹_›

/-- A program whose result is dropped obeys the protocol. -/
theorem obeys (h : Triple P pre p post) (hpre : ∀ m, pre [] m m)
    (hends : ∀ a tr m₀ m, post a tr m₀ m → P.ends tr m₀ m) : Program.Obeys P (do let _ ← p; return ()) :=
  Outcome.obeys_of_follows fun m => (h [] m m (hpre m)).mono (fun tr m₀ m a => hends a tr m₀ m) fun _ _ _ _ => id

/-- A run that returns gets to the postcondition. -/
theorem returned (h : Triple P pre p post) (hpre : ∀ m, pre [] m m) {tr : Trace Op Ans μ} {m₀ m : μ} {a : α}
    (hran : p.Ran tr m₀ (.ret m a)) (hanswers : P.Answers tr) : post a tr m₀ m :=
  hran.returned (fun m => h [] m m (hpre m)) hanswers

/-- What a run issues is allowed. -/
theorem awaits (h : Triple P pre p post) (hpre : ∀ m, pre [] m m) {tr : Trace Op Ans μ} {m₀ m : μ} {op : Op}
    {k : Ans op → μ → Outcome Op Ans μ ε α} (hran : p.Ran tr m₀ (.await m op k)) (hanswers : P.Answers tr) :
    P.awaits tr m₀ m op :=
  hran.awaits (fun m => h [] m m (hpre m)) hanswers

end Program.Triple

end Async
