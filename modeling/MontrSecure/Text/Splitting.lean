import Mathlib.Data.List.DropRight

/-!
# Texts between separators

What `List.splitOn` makes of a text: parts without the separator, and as many as there were.
-/

namespace Text

variable {α : Type}

/-- What lies between two separators has none. -/
theorem forall_of_mem_splitOnP {p : α → Bool} {l part : List α} (h : part ∈ l.splitOnP p) :
    ∀ x ∈ part, p x = false := by
  induction l generalizing part with
  | nil => simp_all
  | cons y l ih =>
    rw [List.splitOnP_cons_eq_if_modifyHead] at h
    split at h
    · rcases List.mem_cons.mp h with rfl | h
      · simp
      · exact ih h
    · rename_i hy
      rcases hsplit : l.splitOnP p with _ | ⟨head, parts⟩
      · exact absurd hsplit (List.splitOnP_ne_nil p l)
      rw [hsplit, List.modifyHead_cons] at h
      rcases List.mem_cons.mp h with rfl | h
      · have hhead := ih (hsplit ▸ List.mem_cons_self)
        exact List.forall_mem_cons.mpr ⟨by simpa using hy, hhead⟩
      · exact ih (hsplit ▸ List.mem_cons_of_mem _ h)

/-- What is joined is made of its parts. -/
theorem subset_intercalate {sep part : List α} {parts : List (List α)} (h : part ∈ parts) :
    part ⊆ sep.intercalate parts := by
  induction parts with
  | nil => cases h
  | cons head parts ih =>
    rcases parts with _ | ⟨next, parts⟩
    · rw [List.mem_singleton.mp h, List.intercalate_singleton]
      exact List.Subset.refl head
    · rw [List.intercalate_cons_cons]
      rcases List.mem_cons.mp h with rfl | h
      · intro c hc
        simp [hc]
      · intro c hc
        simp [ih h hc]

/-- The longest parts without separators. -/
def runs (p : α → Bool) (l : List α) : List (List α) := (l.splitOnP p).filter fun part => !part.isEmpty

section Runs

variable {p : α → Bool} {l r gap : List α} {x : α}

@[simp] theorem runs_nil : runs p [] = [] := rfl

theorem runs_append_cons (hx : p x = true) : runs p (l ++ x :: r) = runs p l ++ runs p r := by
  rw [runs, List.splitOnP_append_cons l r hx, List.filter_append, runs, runs]

theorem runs_cons (hx : p x = true) : runs p (x :: r) = runs p r := runs_append_cons (l := []) hx

theorem runs_eq_singleton (hne : l ≠ []) (h : ∀ x ∈ l, p x = false) : runs p l = [l] := by
  simp [runs, List.splitOnP_eq_singleton h, hne]

/-- A part up to the end or to a separator. -/
theorem runs_part_append (hne : l ≠ []) (h : ∀ x ∈ l, p x = false) (hr : ∀ x ∈ r.head?, p x = true) :
    runs p (l ++ r) = l :: runs p r := by
  rcases r with _ | ⟨x, r⟩
  · rw [List.append_nil, runs_eq_singleton hne h, runs_nil]
  · have hx : p x = true := hr x rfl
    rw [runs_append_cons hx, runs_cons hx, runs_eq_singleton hne h, List.singleton_append]

example : runs (· = ' ') [' ', 'a', 'b', ' ', 'c'] = [['a', 'b'], ['c']] := by decide +kernel

/-- Separators in front of a text are skipped. -/
theorem runs_gap_append (h : ∀ x ∈ gap, p x = true) : runs p (gap ++ r) = runs p r := by
  induction gap with
  | nil => rfl
  | cons x gap ih =>
    obtain ⟨hx, h⟩ := List.forall_mem_cons.mp h
    rw [List.cons_append, runs_cons hx, ih h]

/-- Separators between two texts separate them. -/
theorem runs_append_gap_append (hne : gap ≠ []) (h : ∀ x ∈ gap, p x = true) :
    runs p (l ++ gap ++ r) = runs p l ++ runs p r := by
  obtain ⟨x, gap, rfl⟩ := List.exists_cons_of_ne_nil hne
  obtain ⟨hx, h⟩ := List.forall_mem_cons.mp h
  rw [List.append_assoc, List.cons_append, runs_append_cons hx, runs_gap_append h]

theorem runs_append_gap (h : ∀ x ∈ gap, p x = true) : runs p (l ++ gap) = runs p l := by
  rcases gap with _ | ⟨x, gap⟩
  · rw [List.append_nil]
  · have := runs_append_gap_append (l := l) (r := []) (List.cons_ne_nil x gap) h
    simpa using this

theorem runs_dropWhile : runs p (l.dropWhile p) = runs p l := by
  conv_rhs => rw [← List.takeWhile_append_dropWhile (p := p) (l := l)]
  exact (runs_gap_append fun x hx => List.mem_takeWhile_imp hx).symm

theorem runs_rdropWhile : runs p (l.rdropWhile p) = runs p l := by
  have hsplit : l = l.rdropWhile p ++ l.rtakeWhile p := by
    rw [List.rdropWhile, List.rtakeWhile, ← List.reverse_append, List.takeWhile_append_dropWhile, List.reverse_reverse]
  conv_rhs => rw [hsplit]
  refine (runs_append_gap fun x hx => ?_).symm
  exact List.mem_takeWhile_imp (List.mem_reverse.mp hx)

theorem runs_intercalate (hx : p x = true) (parts : List (List α)) :
    runs p ([x].intercalate parts) = parts.flatMap (runs p) := by
  induction parts with
  | nil => rfl
  | cons part parts ih =>
    rcases parts with _ | ⟨next, parts⟩
    · simp [List.intercalate_singleton]
    · rw [List.intercalate_cons_cons, List.append_assoc, List.singleton_append, runs_append_cons hx, ih]
      rfl

example : runs (· = ' ') ([' '].intercalate [['a'], ['b']]) = [['a'], ['b']] := by decide +kernel

end Runs

section Trimming

variable {p : α → Bool} {x : α}

theorem rdropWhile_append_cons (hx : p x = false) (l r : List α) :
    (l ++ x :: r).rdropWhile p = l ++ x :: r.rdropWhile p := by
  simp only [List.rdropWhile, List.reverse_append, List.reverse_cons, List.append_assoc, List.singleton_append,
    List.dropWhile_append, List.dropWhile_cons, hx]
  split <;> simp_all

/-- What is dropped before the parts is dropped before the first. -/
theorem dropWhile_intercalate (hx : p x = false) (sep : List α) (parts : List (List α)) :
    ((x :: sep).intercalate parts).dropWhile p = (x :: sep).intercalate (parts.modifyHead (·.dropWhile p)) := by
  rcases parts with _ | ⟨part, _ | ⟨next, parts⟩⟩
  · rfl
  · simp [List.intercalate_singleton]
  · rw [List.modifyHead_cons, List.intercalate_cons_cons, List.intercalate_cons_cons, List.append_assoc,
      List.append_assoc, List.dropWhile_append]
    rcases h : (part.dropWhile p).isEmpty <;> simp_all

/-- What is dropped behind the parts is dropped behind the last. -/
theorem rdropWhile_intercalate (hx : p x = false) (sep : List α) (parts : List (List α)) (last : List α) :
    ((sep ++ [x]).intercalate (parts ++ [last])).rdropWhile p =
      (sep ++ [x]).intercalate (parts ++ [last.rdropWhile p]) := by
  induction parts with
  | nil => simp [List.intercalate_singleton]
  | cons part parts ih =>
    obtain ⟨next, rest, hrest⟩ := List.exists_cons_of_ne_nil (List.concat_ne_nil last parts)
    obtain ⟨next', rest', hrest'⟩ := List.exists_cons_of_ne_nil (List.concat_ne_nil (last.rdropWhile p) parts)
    rw [hrest, hrest'] at ih
    rw [List.cons_append, List.cons_append, hrest, hrest', List.intercalate_cons_cons, List.intercalate_cons_cons, ← ih,
      ← List.append_assoc, List.append_assoc _ [x], List.singleton_append, rdropWhile_append_cons hx]
    simp

end Trimming

variable [BEq α] [LawfulBEq α]

theorem not_mem_of_mem_splitOn {x : α} {l part : List α} (h : part ∈ l.splitOn x) : x ∉ part := by
  rw [List.splitOn_eq_splitOnP] at h
  intro hmem
  simpa using forall_of_mem_splitOnP h x hmem

/-- A text without the separator is its only part. -/
theorem splitOn_eq_singleton_iff {x : α} {l part : List α} : l.splitOn x = [part] ↔ part = l ∧ x ∉ l := by
  constructor
  · intro h
    have hl : l = part := by
      have hjoin : [x].intercalate (l.splitOn x) = l := List.intercalate_splitOn x
      rw [h, List.intercalate_singleton] at hjoin
      exact hjoin.symm
    subst hl
    exact ⟨rfl, not_mem_of_mem_splitOn (h ▸ List.mem_cons_self)⟩
  · rintro ⟨rfl, h⟩
    exact List.splitOn_eq_singleton h

/-- Two parts, and one separator between them. -/
theorem splitOn_eq_pair_iff {x : α} {l a b : List α} :
    l.splitOn x = [a, b] ↔ l = a ++ x :: b ∧ x ∉ a ∧ x ∉ b := by
  constructor
  · intro h
    refine ⟨?_, not_mem_of_mem_splitOn (l := l) (by simp [h]), not_mem_of_mem_splitOn (l := l) (by simp [h])⟩
    have hjoin : [x].intercalate (l.splitOn x) = l := List.intercalate_splitOn x
    rw [h] at hjoin
    simpa [List.intercalate_cons_cons] using hjoin.symm
  · rintro ⟨rfl, ha, hb⟩
    rw [List.splitOn_append_cons_self_of_not_mem ha, List.splitOn_eq_singleton hb]

/-- The parts are any texts without the separator, one at least. -/
theorem splitOn_eq_iff {x : α} {l : List α} {parts : List (List α)} :
    l.splitOn x = parts ↔ parts ≠ [] ∧ (∀ part ∈ parts, x ∉ part) ∧ [x].intercalate parts = l := by
  constructor
  · rintro rfl
    exact ⟨List.splitOn_ne_nil x l, fun part h => not_mem_of_mem_splitOn h, List.intercalate_splitOn x⟩
  · rintro ⟨hne, hparts, rfl⟩
    exact List.splitOn_intercalate x hparts hne

theorem subset_of_mem_splitOn {x : α} {l part : List α} (h : part ∈ l.splitOn x) : part ⊆ l := by
  have hjoin : [x].intercalate (l.splitOn x) = l := List.intercalate_splitOn x
  intro c hc
  rw [← hjoin]
  exact subset_intercalate h hc

end Text
