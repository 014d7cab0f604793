import MontrSecure.Text.Regex

/-!
# Matches in a context

An expression that matches in a part of a text matches in the whole text, as long as its assertions do
not tell the ends of the part from what stands there in the whole.
-/

namespace Text

variable {α : Type}

/-! ## Positions -/

/-- The positions of a text that comes after the symbol `before`. -/
def positionsFrom : Option α → List α → List (Position α)
  | before, [] => [⟨before, []⟩]
  | before, a :: rest => ⟨before, a :: rest⟩ :: positionsFrom (some a) rest

/-- The positions of a text. -/
def positions (text : List α) : List (Position α) := positionsFrom none text

variable {before : Option α} {text : List α} {pos : Position α}

theorem mem_positionsFrom :
    pos ∈ positionsFrom before text ↔
      ∃ pre, text = pre ++ pos.after ∧ pos.before = pre.getLast?.or before := by
  induction text generalizing before with
  | nil =>
    rw [positionsFrom, List.mem_singleton]
    constructor
    · rintro rfl
      exact ⟨[], rfl, rfl⟩
    · rintro ⟨pre, hpre, hbefore⟩
      obtain ⟨rfl, hafter⟩ := List.nil_eq_append_iff.mp hpre
      obtain ⟨b, a⟩ := pos
      cases hafter
      cases hbefore
      rfl
  | cons a rest ih =>
    rw [positionsFrom, List.mem_cons, ih]
    constructor
    · rintro (rfl | ⟨pre, rfl, hbefore⟩)
      · exact ⟨[], rfl, rfl⟩
      · refine ⟨a :: pre, rfl, hbefore.trans ?_⟩
        cases hlast : pre.getLast? with
        | none =>
          rw [List.getLast?_eq_none_iff.mp hlast]
          rfl
        | some b => simp [List.getLast?_cons, hlast]
    · rintro ⟨pre, hpre, hbefore⟩
      cases pre with
      | nil =>
        left
        obtain ⟨b, t⟩ := pos
        cases hpre
        cases hbefore
        rfl
      | cons b pre =>
        obtain ⟨rfl, hrest⟩ := List.cons.inj hpre
        refine .inr ⟨pre, hrest, hbefore.trans ?_⟩
        cases hlast : pre.getLast? with
        | none =>
          rw [List.getLast?_eq_none_iff.mp hlast]
          rfl
        | some b => simp [List.getLast?_cons, hlast]

example : (positions ['a', 'b']).length = 3 := by decide +kernel

/-- Where there is a position, a text is left that no other position has. -/
theorem pairwise_positionsFrom (before : Option α) (text : List α) :
    (positionsFrom before text).Pairwise fun p q => p.after ≠ q.after := by
  induction text generalizing before with
  | nil => exact List.pairwise_singleton _ _
  | cons a rest ih =>
    refine List.pairwise_cons.mpr ⟨fun q hq heq => ?_, ih (some a)⟩
    obtain ⟨pre, hpre, -⟩ := mem_positionsFrom.mp hq
    have hlength := congrArg List.length hpre
    rw [← heq, List.length_append, List.length_cons] at hlength
    omega

namespace Regex

/-- A test looks at every position. -/
theorem testFrom_eq_any (r : Regex α) :
    r.testFrom before text = (positionsFrom before text).any fun pos => !(r.ends pos).isEmpty := by
  induction text generalizing before with
  | nil => simp [testFrom, positionsFrom]
  | cons a rest ih => simp [testFrom, positionsFrom, ih]

/-- There is a match at some position. -/
theorem test_iff (r : Regex α) : r.test text = true ↔ ∃ pos ∈ positions text, r.ends pos ≠ [] := by
  rw [test, testFrom_eq_any, List.any_eq_true]
  simp [positions]

example : (plus (sym Char.isDigit)).test ['a', '1'] = true := by decide +kernel

/-! ## Contexts -/

variable {same : Option α → Option α → Prop} {post : List α}

/-- The assertions do not tell symbols apart that are the `same`. -/
def Blind (same : Option α → Option α → Prop) : Regex α → Prop
  | eps | sym _ => True
  | look p => ∀ b b' a a', same b b' → same a a' → p b a = p b' a'
  | seq r s | alt r s => r.Blind same ∧ s.Blind same
  | upTo _ r | star r => r.Blind same

/-- A position in a part of a text, and in the whole, where `post` comes after the part. -/
structure Embeds (same : Option α → Option α → Prop) (post : List α) (pos pos' : Position α) : Prop where
  before : same pos.before pos'.before
  after : pos'.after = pos.after ++ post

/-- Rounds that can be done in the part can be done in the whole, where there is room for more. -/
theorem repeatUpTo_embeds {step : Position α → List (Position α)}
    (hstep : ∀ pos pos', Embeds same post pos pos' →
      ∀ q ∈ step pos, ∃ q' ∈ step pos', Embeds same post q q')
    {n m : ℕ} (hle : n ≤ m) :
    ∀ pos pos', Embeds same post pos pos' →
      ∀ q ∈ repeatUpTo step n pos, ∃ q' ∈ repeatUpTo step m pos', Embeds same post q q' := by
  induction n generalizing m with
  | zero =>
    intro pos pos' h q hq
    obtain rfl := List.mem_singleton.mp hq
    refine ⟨pos', ?_, h⟩
    cases m with
    | zero => exact List.mem_singleton.mpr rfl
    | succ m => exact List.mem_cons_self
  | succ n ih =>
    intro pos pos' h q hq
    obtain ⟨m, rfl⟩ : ∃ k, m = k + 1 := ⟨m - 1, by omega⟩
    obtain rfl | hq := List.mem_cons.mp hq
    · exact ⟨pos', List.mem_cons_self, h⟩
    · obtain ⟨mid, hmid, hq⟩ := List.mem_flatMap.mp hq
      obtain ⟨mid', hmid', hembeds⟩ := hstep pos pos' h mid hmid
      obtain ⟨q', hq', h'⟩ := ih (Nat.le_of_succ_le_succ hle) mid mid' hembeds q hq
      exact ⟨q', List.mem_cons_of_mem _ (List.mem_flatMap.mpr ⟨mid', hmid', hq'⟩), h'⟩

/-- What an expression matches in a part it matches in the whole, by induction on the expression. -/
theorem ends_embeds (hrefl : ∀ a, same a a) (hpost : same none post.head?) (r : Regex α)
    (hblind : r.Blind same) :
    ∀ pos pos', Embeds same post pos pos' →
      ∀ q ∈ r.ends pos, ∃ q' ∈ r.ends pos', Embeds same post q q' := by
  induction r with
  | eps =>
    intro pos pos' h q hq
    obtain rfl := List.mem_singleton.mp hq
    exact ⟨pos', List.mem_singleton.mpr rfl, h⟩
  | sym p =>
    rintro ⟨b, after⟩ ⟨b', _⟩ ⟨hbefore, rfl⟩ q hq
    cases after with
    | nil => cases hq
    | cons a rest =>
      rw [ends] at hq
      dsimp only at hq
      split_ifs at hq with hp
      · obtain rfl := List.mem_singleton.mp hq
        refine ⟨⟨some a, rest ++ post⟩, ?_, hrefl _, rfl⟩
        rw [List.cons_append, ends]
        dsimp only
        rw [if_pos hp]
        exact List.mem_singleton.mpr rfl
      · cases hq
  | look p =>
    intro pos pos' h q hq
    have hafter : same pos.after.head? pos'.after.head? := by
      rw [h.after]
      cases pos.after with
      | nil => exact hpost
      | cons a rest => exact hrefl _
    rw [ends] at hq
    split_ifs at hq with hp
    · obtain rfl := List.mem_singleton.mp hq
      rw [hblind _ _ _ _ h.before hafter] at hp
      refine ⟨pos', ?_, h⟩
      rw [ends, if_pos hp]
      exact List.mem_singleton.mpr rfl
    · cases hq
  | seq r s ihr ihs =>
    intro pos pos' h q hq
    obtain ⟨mid, hmid, hq⟩ := List.mem_flatMap.mp hq
    obtain ⟨mid', hmid', hembeds⟩ := ihr hblind.1 pos pos' h mid hmid
    obtain ⟨q', hq', h'⟩ := ihs hblind.2 mid mid' hembeds q hq
    exact ⟨q', List.mem_flatMap.mpr ⟨mid', hmid', hq'⟩, h'⟩
  | alt r s ihr ihs =>
    intro pos pos' h q hq
    obtain hq | hq := List.mem_append.mp hq
    · obtain ⟨q', hq', h'⟩ := ihr hblind.1 pos pos' h q hq
      exact ⟨q', List.mem_append_left _ hq', h'⟩
    · obtain ⟨q', hq', h'⟩ := ihs hblind.2 pos pos' h q hq
      exact ⟨q', List.mem_append_right _ hq', h'⟩
  | upTo n r ih => exact repeatUpTo_embeds (ih hblind) (Nat.le_refl n)
  | star r ih =>
    intro pos pos' h
    refine repeatUpTo_embeds (ih hblind) ?_ pos pos' h
    rw [h.after, List.length_append]
    exact Nat.le_add_right _ _

theorem blind_concat {rs : List (Regex α)} (h : ∀ r ∈ rs, r.Blind same) : (concat rs).Blind same := by
  induction rs with
  | nil => trivial
  | cons r rs ih =>
    obtain ⟨hr, hrs⟩ := List.forall_mem_cons.mp h
    cases rs with
    | nil => exact hr
    | cons r' rs => exact ⟨hr, ih hrs⟩

theorem blind_oneOf {rs : List (Regex α)} (h : ∀ r ∈ rs, r.Blind same) : (oneOf rs).Blind same := by
  induction rs with
  | nil => trivial
  | cons r rs ih =>
    obtain ⟨hr, hrs⟩ := List.forall_mem_cons.mp h
    cases rs with
    | nil => exact hr
    | cons r' rs => exact ⟨hr, ih hrs⟩

/-- A match in a part is a match in the whole. -/
theorem test_of_test_part {r : Regex α} {pre part : List α} (hrefl : ∀ a, same a a) (hblind : r.Blind same)
    (hpre : same none pre.getLast?) (hpost : same none post.head?) (h : r.test part = true) :
    r.test (pre ++ part ++ post) = true := by
  obtain ⟨pos, hpos, hends⟩ := r.test_iff.mp h
  obtain ⟨q, hq⟩ := List.exists_mem_of_ne_nil _ hends
  obtain ⟨skipped, rfl, hbefore⟩ := mem_positionsFrom.mp hpos
  rw [Option.or_none] at hbefore
  have hembeds : Embeds same post pos ⟨(pre ++ skipped).getLast?, pos.after ++ post⟩ := by
    refine ⟨?_, rfl⟩
    rw [hbefore]
    show same _ (pre ++ skipped).getLast?
    rw [List.getLast?_append]
    cases skipped.getLast? with
    | none => exact hpre
    | some a => exact hrefl _
  obtain ⟨q', hq', -⟩ := ends_embeds hrefl hpost r hblind _ _ hembeds q hq
  refine r.test_iff.mpr ⟨_, mem_positionsFrom.mpr ⟨pre ++ skipped, ?_, ?_⟩, List.ne_nil_of_mem hq'⟩
  · simp
  · simp

end Regex

end Text
