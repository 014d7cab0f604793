import MontrSecure.Text.Contexts

/-!
# Where matches stop

What it means that a match of an expression from one position stops at another, constructor by constructor: the
text between the two positions is a word of the expression, and the position behind it has its last symbol before
it.
-/

namespace Text

variable {α : Type}

/-- The position `pos'` lies behind the word `w`, which begins at `pos`. -/
structure Position.Behind (pos : Position α) (w : List α) (pos' : Position α) : Prop where
  after : pos.after = w ++ pos'.after
  before : pos'.before = w.getLast?.or pos.before

theorem Position.Behind.nil (pos : Position α) : pos.Behind [] pos := ⟨rfl, rfl⟩

theorem Position.behind_nil {pos pos' : Position α} : pos.Behind [] pos' ↔ pos' = pos := by
  constructor
  · rintro ⟨hafter, hbefore⟩
    obtain ⟨before, after⟩ := pos
    obtain ⟨before', after'⟩ := pos'
    simp_all
  · rintro rfl
    exact .nil _

theorem Position.Behind.trans {pos mid pos' : Position α} {v w : List α} (hv : pos.Behind v mid)
    (hw : mid.Behind w pos') : pos.Behind (v ++ w) pos' := by
  refine ⟨by rw [hv.after, hw.after, List.append_assoc], ?_⟩
  rw [hw.before, hv.before, List.getLast?_append, Option.or_assoc]

/-- Between two positions lies one word. -/
theorem Position.Behind.cons {pos pos' : Position α} {a : α} {w : List α} (h : pos.Behind (a :: w) pos') :
    pos.Behind [a] ⟨some a, w ++ pos'.after⟩ ∧ Position.Behind ⟨some a, w ++ pos'.after⟩ w pos' := by
  refine ⟨⟨h.after, rfl⟩, rfl, ?_⟩
  rw [h.before, List.getLast?_cons]
  rcases w.getLast? <;> rfl

/-- There is a position behind every word that the text begins with. -/
theorem Position.exists_behind {pos : Position α} {w rest : List α} (h : pos.after = w ++ rest) :
    ∃ pos', pos.Behind w pos' ∧ pos'.after = rest :=
  ⟨⟨w.getLast?.or pos.before, rest⟩, ⟨h, rfl⟩, rfl⟩

namespace Regex

variable {pos pos' : Position α}

theorem mem_ends_sym {p : α → Bool} : pos' ∈ (sym p).ends pos ↔ ∃ a, p a = true ∧ pos.Behind [a] pos' := by
  obtain ⟨before, after⟩ := pos
  obtain ⟨before', after'⟩ := pos'
  rcases after with _ | ⟨a, rest⟩
  · simp only [ends, List.not_mem_nil, false_iff]
    rintro ⟨a, -, ⟨hafter, -⟩⟩
    cases hafter
  · by_cases hp : p a = true
    · simp only [ends, hp, if_true, List.mem_singleton]
      constructor
      · rintro ⟨⟩
        exact ⟨a, hp, rfl, rfl⟩
      · rintro ⟨b, -, hafter, hbefore⟩
        cases hafter
        cases hbefore
        rfl
    · simp only [ends, hp, if_false, List.not_mem_nil, false_iff, Bool.false_eq_true]
      rintro ⟨b, hb, hafter, -⟩
      cases hafter
      exact hp hb

example : ((sym Char.isDigit).ends ⟨none, ['1', 'a']⟩).length = 1 := by decide +kernel

theorem mem_ends_look {p : Option α → Option α → Bool} :
    pos' ∈ (look p).ends pos ↔ p pos.before pos.after.head? = true ∧ pos' = pos := by
  by_cases hp : p pos.before pos.after.head? = true
  · simp [ends, hp]
  · simp [ends, hp]

example : ((star (sym Char.isDigit)).ends ⟨none, ['1']⟩).length = 2 := by decide +kernel

theorem mem_ends_seq {r s : Regex α} :
    pos' ∈ (seq r s).ends pos ↔ ∃ mid ∈ r.ends pos, pos' ∈ s.ends mid := by
  rw [ends, List.mem_flatMap]

theorem mem_ends_oneOf {rs : List (Regex α)} : pos' ∈ (oneOf rs).ends pos ↔ ∃ r ∈ rs, pos' ∈ r.ends pos := by
  induction rs with
  | nil => simp [oneOf, mem_ends_sym]
  | cons r rs ih =>
    rcases rs with _ | ⟨s, rs⟩
    · simp [oneOf]
    · have hcons : pos' ∈ (oneOf (r :: s :: rs)).ends pos ↔
          pos' ∈ r.ends pos ∨ pos' ∈ (oneOf (s :: rs)).ends pos := List.mem_append
      rw [hcons, ih]
      simp

/-- Some rounds of one symbol each. -/
theorem mem_repeatUpTo_sym {p : α → Bool} {n : ℕ} :
    pos' ∈ repeatUpTo (sym p).ends n pos ↔
      ∃ w, w.length ≤ n ∧ (∀ a ∈ w, p a = true) ∧ pos.Behind w pos' := by
  induction n generalizing pos with
  | zero =>
    rw [repeatUpTo, List.mem_singleton]
    constructor
    · rintro rfl
      exact ⟨[], Nat.le_refl 0, by simp, .nil _⟩
    · rintro ⟨w, hlen, -, hbehind⟩
      rw [List.length_eq_zero_iff.mp (Nat.le_zero.mp hlen)] at hbehind
      exact Position.behind_nil.mp hbehind
  | succ n ih =>
    rw [repeatUpTo, List.mem_cons, List.mem_flatMap]
    constructor
    · rintro (rfl | ⟨mid, hmid, hrest⟩)
      · exact ⟨[], Nat.zero_le _, by simp, .nil _⟩
      · obtain ⟨a, ha, hfirst⟩ := mem_ends_sym.mp hmid
        obtain ⟨w, hlen, hw, hbehind⟩ := ih.mp hrest
        exact ⟨a :: w, Nat.succ_le_succ hlen, List.forall_mem_cons.mpr ⟨ha, hw⟩, hfirst.trans hbehind⟩
    · rintro ⟨w, hlen, hw, hbehind⟩
      rcases w with _ | ⟨a, w⟩
      · exact .inl (Position.behind_nil.mp hbehind)
      · obtain ⟨ha, hw⟩ := List.forall_mem_cons.mp hw
        obtain ⟨hfirst, hrest⟩ := hbehind.cons
        exact .inr ⟨_, mem_ends_sym.mpr ⟨a, ha, hfirst⟩, ih.mpr ⟨w, Nat.le_of_succ_le_succ hlen, hw, hrest⟩⟩

/-- Any number of symbols of a class. -/
theorem mem_ends_star_sym {p : α → Bool} :
    pos' ∈ (star (sym p)).ends pos ↔ ∃ w, (∀ a ∈ w, p a = true) ∧ pos.Behind w pos' := by
  rw [ends, mem_repeatUpTo_sym]
  constructor
  · rintro ⟨w, -, hw⟩
    exact ⟨w, hw⟩
  · rintro ⟨w, hw, hbehind⟩
    -- There is room for as many rounds as the text is long.
    refine ⟨w, ?_, hw, hbehind⟩
    rw [hbehind.after, List.length_append]
    exact Nat.le_add_right _ _

/-- One symbol of each class, in order. -/
theorem mem_ends_concat_sym {ps : List (α → Bool)} :
    pos' ∈ (concat (ps.map sym)).ends pos ↔
      ∃ w, List.Forall₂ (fun p a => p a = true) ps w ∧ pos.Behind w pos' := by
  induction ps generalizing pos with
  | nil =>
    rw [List.map_nil, concat, ends, List.mem_singleton]
    constructor
    · rintro rfl
      exact ⟨[], .nil, .nil _⟩
    · rintro ⟨w, hw, hbehind⟩
      rcases hw
      exact Position.behind_nil.mp hbehind
  | cons p ps ih =>
    have hcons : pos' ∈ (concat ((p :: ps).map sym)).ends pos ↔
        ∃ mid ∈ (sym p).ends pos, pos' ∈ (concat (ps.map sym)).ends mid := by
      rcases ps with _ | ⟨q, ps⟩
      · simp [concat, ends]
      · exact mem_ends_seq
    rw [hcons]
    constructor
    · rintro ⟨mid, hmid, hrest⟩
      obtain ⟨a, ha, hfirst⟩ := mem_ends_sym.mp hmid
      obtain ⟨w, hw, hbehind⟩ := ih.mp hrest
      exact ⟨a :: w, .cons ha hw, hfirst.trans hbehind⟩
    · rintro ⟨w, hw, hbehind⟩
      rcases hw with _ | ⟨ha, hw⟩
      obtain ⟨hfirst, hrest⟩ := hbehind.cons
      exact ⟨_, mem_ends_sym.mpr ⟨_, ha, hfirst⟩, ih.mpr ⟨_, hw, hrest⟩⟩

end Regex

end Text
