import Mathlib.Data.List.Basic

/-!
# Regular expressions

Regular expressions over any alphabet, with zero-width assertions that look at the symbols on both
sides. `ends` gives the positions a match from a position may stop at, and `test` says whether there
is a match anywhere. Which of several matches is preferred does not matter for `test`, so greedy and
lazy quantifiers are the same here.

`Fails` is the way to show that there is none: an expression fails on a text when some part it
cannot do without does.
-/

namespace Text

/-- A regular expression over the alphabet `α`. -/
inductive Regex (α : Type) where
  /-- The empty word. -/
  | eps
  /-- One symbol of a class. -/
  | sym (p : α → Bool)
  /-- An assertion about the symbol before and the symbol after. -/
  | look (p : Option α → Option α → Bool)
  | seq (r s : Regex α)
  | alt (r s : Regex α)
  /-- At most `n` times. -/
  | upTo (n : ℕ) (r : Regex α)
  | star (r : Regex α)

variable {α : Type}

/-- A position in a text: the symbol before it and the text after it. -/
structure Position (α : Type) where
  before : Option α
  after : List α

namespace Regex

/-- Go on from a position at most `n` times. -/
def repeatUpTo (step : Position α → List (Position α)) : ℕ → Position α → List (Position α)
  | 0, pos => [pos]
  | n + 1, pos => pos :: (step pos).flatMap (repeatUpTo step n)

/-- Where a match from a position may stop. A text of length `n` has room for `n` rounds that are
not empty. -/
def ends : Regex α → Position α → List (Position α)
  | eps, pos => [pos]
  | sym p, pos =>
    match pos.after with
    | [] => []
    | a :: rest => if p a then [⟨some a, rest⟩] else []
  | look p, pos => if p pos.before pos.after.head? then [pos] else []
  | seq r s, pos => (r.ends pos).flatMap s.ends
  | alt r s, pos => r.ends pos ++ s.ends pos
  | upTo n r, pos => repeatUpTo r.ends n pos
  | star r, pos => repeatUpTo r.ends pos.after.length pos

/-- There is a match that begins in the text after the symbol `before`. -/
def testFrom (r : Regex α) : Option α → List α → Bool
  | before, [] => !(r.ends ⟨before, []⟩).isEmpty
  | before, a :: rest => !(r.ends ⟨before, a :: rest⟩).isEmpty || r.testFrom (some a) rest

/-- `re.test(text)`. -/
def test (r : Regex α) (text : List α) : Bool := r.testFrom none text

/-! ## Derived forms -/

/-- One after the other. -/
def concat : List (Regex α) → Regex α
  | [] => eps
  | [r] => r
  | r :: rs => seq r (concat rs)

/-- One of them. -/
def oneOf : List (Regex α) → Regex α
  | [] => sym fun _ => false
  | [r] => r
  | r :: rs => alt r (oneOf rs)

/-- A fixed word. -/
def word [DecidableEq α] (w : List α) : Regex α := concat (w.map fun a => sym fun b => b = a)

example : (word ['a', 'b']).test ['c', 'a', 'b'] = true := by decide +kernel

/-- Exactly `n` times. -/
def times (n : ℕ) (r : Regex α) : Regex α := concat (List.replicate n r)

/-- At least `n` times. -/
def atLeast (n : ℕ) (r : Regex α) : Regex α := seq (times n r) (star r)

/-- At least once. -/
def plus (r : Regex α) : Regex α := seq r (star r)

/-- Optional. -/
def opt (r : Regex α) : Regex α := alt r eps

/-! ## Positions of a text -/

/-- The text after each position a match stops at is a suffix of the text it began at. -/
theorem after_of_mem_repeatUpTo {step : Position α → List (Position α)}
    (hstep : ∀ pos, ∀ pos' ∈ step pos, pos'.after <:+ pos.after) (n : ℕ) :
    ∀ pos, ∀ pos' ∈ repeatUpTo step n pos, pos'.after <:+ pos.after := by
  induction n with
  | zero =>
    intro pos pos' h
    obtain rfl := List.mem_singleton.mp h
    exact List.suffix_rfl
  | succ n ih =>
    intro pos pos' h
    obtain rfl | h := List.mem_cons.mp h
    · exact List.suffix_rfl
    · obtain ⟨mid, hmid, h⟩ := List.mem_flatMap.mp h
      exact (ih mid pos' h).trans (hstep pos mid hmid)

theorem after_of_mem_ends (r : Regex α) :
    ∀ pos, ∀ pos' ∈ r.ends pos, pos'.after <:+ pos.after := by
  induction r with
  | eps =>
    intro pos pos' h
    obtain rfl := List.mem_singleton.mp h
    exact List.suffix_rfl
  | sym p =>
    intro pos pos' h
    unfold ends at h
    split at h
    · cases h
    · rename_i a rest hafter
      split at h
      · rw [List.mem_singleton.mp h, hafter]
        exact List.suffix_cons a rest
      · cases h
  | look p =>
    intro pos pos' h
    unfold ends at h
    split at h
    · obtain rfl := List.mem_singleton.mp h
      exact List.suffix_rfl
    · cases h
  | seq r s ihr ihs =>
    intro pos pos' h
    obtain ⟨mid, hmid, h⟩ := List.mem_flatMap.mp h
    exact (ihs mid pos' h).trans (ihr pos mid hmid)
  | alt r s ihr ihs =>
    intro pos pos' h
    obtain h | h := List.mem_append.mp h
    · exact ihr pos pos' h
    · exact ihs pos pos' h
  | upTo n r ih => exact after_of_mem_repeatUpTo ih n
  | star r ih =>
    intro pos
    exact after_of_mem_repeatUpTo ih _ pos

/-! ## No match -/

/-- No position inside the text begins a match. -/
def Fails (r : Regex α) (text : List α) : Prop :=
  ∀ pos : Position α, pos.after <:+ text → r.ends pos = []

variable {r s : Regex α} {text : List α}

theorem test_eq_false_of_fails (h : r.Fails text) : r.test text = false := by
  have hfrom : ∀ before rest, rest <:+ text → r.testFrom before rest = false := by
    intro before rest
    induction rest generalizing before with
    | nil =>
      intro hsuffix
      simp [testFrom, h ⟨before, []⟩ hsuffix]
    | cons a rest ih =>
      intro hsuffix
      have hrest := (List.suffix_cons a rest).trans hsuffix
      simp [testFrom, h ⟨before, a :: rest⟩ hsuffix, ih _ hrest]
  exact hfrom none text List.suffix_rfl

theorem fails_sym {p : α → Bool} (h : ∀ a ∈ text, p a = false) : (sym p).Fails text := by
  intro pos hsuffix
  unfold ends
  split
  · rfl
  · rename_i a rest hafter
    have hmem : a ∈ text := hsuffix.subset (by rw [hafter]; exact List.mem_cons_self)
    rw [h a hmem]
    rfl

theorem fails_seq_left (h : r.Fails text) : (seq r s).Fails text := by
  intro pos hsuffix
  rw [ends, h pos hsuffix]
  rfl

theorem fails_seq_right (h : s.Fails text) : (seq r s).Fails text := by
  intro pos hsuffix
  rw [ends]
  refine List.flatMap_eq_nil_iff.mpr fun mid hmid => ?_
  exact h mid ((after_of_mem_ends r pos mid hmid).trans hsuffix)

theorem fails_alt (hr : r.Fails text) (hs : s.Fails text) : (alt r s).Fails text := by
  intro pos hsuffix
  rw [ends, hr pos hsuffix, hs pos hsuffix]
  rfl

/-- A sequence fails with any of its members. -/
theorem fails_concat {rs : List (Regex α)} (hr : r ∈ rs) (h : r.Fails text) :
    (concat rs).Fails text := by
  induction rs with
  | nil => cases hr
  | cons r' rs ih =>
    cases rs with
    | nil =>
      rw [List.mem_singleton.mp hr] at h
      exact h
    | cons r'' rs =>
      obtain rfl | hr := List.mem_cons.mp hr
      · exact fails_seq_left h
      · exact fails_seq_right (ih hr)

/-- A word fails on a text that lacks one of its symbols. -/
theorem fails_word [DecidableEq α] {w : List α} {a : α} (ha : a ∈ w) (hmem : a ∉ text) :
    (word w).Fails text := by
  refine fails_concat (List.mem_map.mpr ⟨a, ha, rfl⟩) (fails_sym fun b hb => ?_)
  simp only [decide_eq_false_iff_not]
  rintro rfl
  exact hmem hb

end Regex

end Text
