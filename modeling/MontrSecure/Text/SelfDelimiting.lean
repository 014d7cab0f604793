import Mathlib.Data.List.Basic

/-!
# Self-delimiting words

A way to write values as words is self-delimiting at a value when the word of the value, followed
by something, is the word of no other value followed by something: a reader knows which value it was
and where its word ends. What may follow can be restricted to the texts that satisfy `stop`, for
words such as numerals that go on until something else comes.
-/

namespace Text

variable {α β σ : Type} {stop : List σ → Prop} {f : α → List σ} {a : α}

/-- The word of `a` tells that it is `a`, and where it ends. -/
def SelfDelimiting (stop : List σ → Prop) (f : α → List σ) (a : α) : Prop :=
  ∀ b s t, stop s → stop t → f a ++ s = f b ++ t → a = b ∧ s = t

/-- No restriction on what follows. -/
abbrev Anything : List σ → Prop := fun _ => True

/-- What follows does not go on with a symbol of a class. -/
def NotBy (p : σ → Bool) (s : List σ) : Prop := ∀ c ∈ s.head?, p c = false

theorem SelfDelimiting.mono {stop' : List σ → Prop} (h : SelfDelimiting stop f a)
    (hstop : ∀ s, stop' s → stop s) : SelfDelimiting stop' f a :=
  fun b s t hs ht => h b s t (hstop s hs) (hstop t ht)

/-- Values with the same word are the same. -/
theorem injective_of_selfDelimiting (hstop : stop []) (h : ∀ a, SelfDelimiting stop f a) :
    Function.Injective f := by
  intro a b hab
  exact (h a b [] [] hstop hstop (by rw [hab])).1

/-- A common prefix does no harm. -/
theorem SelfDelimiting.prepend (w : List σ) (h : SelfDelimiting stop f a) :
    SelfDelimiting stop (fun a => w ++ f a) a := by
  intro b s t hs ht heq
  rw [List.append_assoc, List.append_assoc] at heq
  exact h b s t hs ht (List.append_cancel_left heq)

/-- One word after the other. -/
theorem SelfDelimiting.prod {g : β → List σ} {b : β} (hf : SelfDelimiting Anything f a)
    (hg : SelfDelimiting stop g b) :
    SelfDelimiting stop (fun p : α × β => f p.1 ++ g p.2) (a, b) := by
  rintro ⟨a', b'⟩ s t hs ht heq
  rw [List.append_assoc, List.append_assoc] at heq
  obtain ⟨rfl, hrest⟩ := hf a' _ _ trivial trivial heq
  obtain ⟨rfl, hst⟩ := hg b' s t hs ht hrest
  exact ⟨rfl, hst⟩

/-- Words over a class of symbols, when no such symbol follows. -/
theorem selfDelimiting_of_class {p : σ → Bool} (hinj : Function.Injective f)
    (hp : ∀ a, ∀ c ∈ f a, p c = true) (a : α) : SelfDelimiting (NotBy p) f a := by
  have htake : ∀ a s, NotBy p s → (f a ++ s).takeWhile p = f a := by
    intro a s hs
    rw [List.takeWhile_append_of_pos (hp a)]
    cases s with
    | nil => simp
    | cons c s => rw [List.takeWhile_cons_of_neg (by simp [hs c rfl]), List.append_nil]
  intro b s t hs ht heq
  have hab : f a = f b := by rw [← htake a s hs, heq, htake b t ht]
  rw [hab] at heq
  exact ⟨hinj hab, List.append_cancel_left heq⟩

/-- A list of words and an end that none of them begins with. -/
theorem selfDelimiting_terminated {close : List σ} {as : List α}
    (hclose : ∀ a s t, f a ++ s ≠ close ++ t)
    (hstop : ∀ (as : List α) (s : List σ), stop (as.flatMap f ++ close ++ s))
    (h : ∀ a ∈ as, SelfDelimiting stop f a) :
    SelfDelimiting Anything (fun as => as.flatMap f ++ close) as := by
  induction as with
  | nil =>
    intro bs s t _ _ heq
    cases bs with
    | nil => exact ⟨rfl, List.append_cancel_left heq⟩
    | cons b bs =>
      refine absurd ?_ (hclose b (bs.flatMap f ++ close ++ t) s)
      simpa using heq.symm
  | cons a as ih =>
    intro bs s t _ _ heq
    cases bs with
    | nil =>
      refine absurd ?_ (hclose a (as.flatMap f ++ close ++ s) t)
      simpa using heq
    | cons b bs =>
      have hhead : f a ++ (as.flatMap f ++ close ++ s) = f b ++ (bs.flatMap f ++ close ++ t) := by
        simpa using heq
      obtain ⟨rfl, hrest⟩ :=
        h a List.mem_cons_self b _ _ (hstop as s) (hstop bs t) hhead
      obtain ⟨rfl, hst⟩ :=
        ih (fun a ha => h a (List.mem_cons_of_mem _ ha)) bs s t trivial trivial hrest
      exact ⟨rfl, hst⟩

/-- Words with something between them, and an end that cannot be taken for it. -/
theorem selfDelimiting_separated {sep close : List σ} {as : List α}
    (hsep : ∀ s t, sep ++ s ≠ close ++ t) (hstopSep : ∀ s, stop (sep ++ s))
    (hstopClose : ∀ s, stop (close ++ s)) (h : ∀ x ∈ a :: as, SelfDelimiting stop f x) :
    SelfDelimiting Anything
      (fun p : α × List α => f p.1 ++ (p.2.flatMap (fun x => sep ++ f x) ++ close)) (a, as) := by
  have hstop : ∀ (as : List α) (s : List σ), stop (as.flatMap (fun x => sep ++ f x) ++ close ++ s) := by
    intro as s
    cases as with
    | nil => exact hstopClose s
    | cons x as =>
      rw [List.flatMap_cons, List.append_assoc, List.append_assoc, List.append_assoc]
      exact hstopSep _
  have htail : SelfDelimiting Anything (fun as => as.flatMap (fun x => sep ++ f x) ++ close) as := by
    refine selfDelimiting_terminated (fun x s t => ?_) hstop fun x hx => ?_
    · rw [List.append_assoc]
      exact hsep _ _
    · exact (h x (List.mem_cons_of_mem _ hx)).prepend sep
  rintro ⟨b, bs⟩ s t _ _ heq
  have hhead : f a ++ (as.flatMap (fun x => sep ++ f x) ++ close ++ s) =
      f b ++ (bs.flatMap (fun x => sep ++ f x) ++ close ++ t) := by
    simpa only [List.append_assoc] using heq
  obtain ⟨rfl, hrest⟩ := h a List.mem_cons_self b _ _ (hstop as s) (hstop bs t) hhead
  obtain ⟨rfl, hst⟩ := htail bs s t trivial trivial hrest
  exact ⟨rfl, hst⟩

end Text
