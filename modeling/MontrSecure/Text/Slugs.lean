import MontrSecure.Text.Splitting

/-!
# Slugs

A slug has a separator for every run of symbols that are not kept, and none at its ends. It says what the words of the
text are, in their order, and nothing else (`trimSymbol_squeeze`, `intercalate_runs_inj`).
-/

namespace Text

variable {α : Type}

/-- A separator for every run of symbols of a class; `inRun` says that one has been written for the symbols before. -/
def squeezeFrom (p : α → Bool) (sep : α) : Bool → List α → List α
  | _, [] => []
  | inRun, c :: cs =>
    if p c then if inRun then squeezeFrom p sep true cs else sep :: squeezeFrom p sep true cs
    else c :: squeezeFrom p sep false cs

/-- `text.replace(/[…]+/g, sep)`. -/
def squeeze (p : α → Bool) (sep : α) (l : List α) : List α := squeezeFrom p sep false l

/-- `text.replace(/^…+|…+$/g, "")`, of one symbol. -/
def trimSymbol [DecidableEq α] (x : α) (l : List α) : List α := (l.dropWhile (· = x)).rdropWhile (· = x)

example : trimSymbol '-' ['-', 'a', '-'] = ['a'] := by decide +kernel

variable {p : α → Bool} {sep : α} {l : List α}

section Steps

variable {c : α} {cs : List α}

theorem squeezeFrom_true_cons (hc : p c = true) : squeezeFrom p sep true (c :: cs) = squeezeFrom p sep true cs := by
  rw [squeezeFrom, if_pos hc, if_pos rfl]

theorem squeezeFrom_false_cons (hc : p c = true) :
    squeezeFrom p sep false (c :: cs) = sep :: squeezeFrom p sep true cs := by
  rw [squeezeFrom, if_pos hc, if_neg Bool.false_ne_true]

theorem squeezeFrom_cons_of_kept {inRun : Bool} (hc : p c = false) :
    squeezeFrom p sep inRun (c :: cs) = c :: squeezeFrom p sep false cs := by
  rw [squeezeFrom, if_neg (Bool.eq_false_iff.mp hc)]

theorem ne_of_kept (hsep : p sep = true) (hc : p c = false) : c ≠ sep := by
  rintro rfl
  rw [hsep] at hc
  cases hc

end Steps

/-- A run at the front leaves one separator there. -/
theorem dropWhile_squeeze [DecidableEq α] (hsep : p sep = true) :
    (squeeze p sep l).dropWhile (· = sep) = squeezeFrom p sep true l := by
  have hkept : ∀ {c : α} (cs : List α), p c = false →
      (c :: squeezeFrom p sep false cs).dropWhile (· = sep) = c :: squeezeFrom p sep false cs := fun cs hc =>
    List.dropWhile_cons_of_neg (by simpa using ne_of_kept hsep hc)
  have hrun : ∀ l : List α, (squeezeFrom p sep true l).dropWhile (· = sep) = squeezeFrom p sep true l := by
    intro l
    induction l with
    | nil => rfl
    | cons c cs ih =>
      cases hc : p c with
      | true => rw [squeezeFrom_true_cons hc, ih]
      | false => rw [squeezeFrom_cons_of_kept hc, hkept cs hc]
  rcases l with _ | ⟨c, cs⟩
  · rfl
  · cases hc : p c with
    | true =>
      rw [squeeze, squeezeFrom_false_cons hc, squeezeFrom_true_cons hc, List.dropWhile_cons_of_pos (by simp), hrun]
    | false => rw [squeeze, squeezeFrom_cons_of_kept hc, squeezeFrom_cons_of_kept hc, hkept cs hc]

theorem forall_mem_runs {part : List α} (h : part ∈ runs p l) : part ≠ [] ∧ ∀ c ∈ part, p c = false := by
  obtain ⟨hpart, hne⟩ := List.mem_filter.mp h
  exact ⟨by simpa using hne, forall_of_mem_splitOnP hpart⟩

theorem intercalate_runs_eq_nil_iff : [sep].intercalate (runs p l) = [] ↔ runs p l = [] := by
  constructor
  · intro h
    rcases hruns : runs p l with _ | ⟨part, parts⟩
    · rfl
    · have hpart : part ⊆ [sep].intercalate (runs p l) := subset_intercalate (hruns ▸ List.mem_cons_self)
      rw [h] at hpart
      exact absurd (List.subset_nil.mp hpart) (forall_mem_runs (hruns ▸ List.mem_cons_self)).1
  · intro h
    rw [h]
    rfl

/-- What follows the first word of a slug. -/
def slugTail (sep : α) (words : List (List α)) : List α := if words = [] then [] else sep :: [sep].intercalate words

theorem intercalate_cons (word : List α) (words : List (List α)) :
    [sep].intercalate (word :: words) = word ++ slugTail sep words := by
  rcases words with _ | ⟨next, words⟩
  · rw [List.intercalate_singleton, slugTail, if_pos rfl, List.append_nil]
  · rw [List.intercalate_cons_cons, slugTail, if_neg (List.cons_ne_nil _ _), List.append_assoc, List.singleton_append]

theorem rdropWhile_append_of_ne_nil {q : α → Bool} {m : List α} (l : List α) (h : m.rdropWhile q ≠ []) :
    (l ++ m).rdropWhile q = l ++ m.rdropWhile q := by
  have hne : (m.reverse.dropWhile q).isEmpty = false := by
    rw [List.isEmpty_eq_false_iff]
    exact fun hnil => h (List.reverse_eq_nil_iff.mpr hnil)
  rw [List.rdropWhile, List.reverse_append, List.dropWhile_append, hne, if_neg Bool.false_ne_true, List.reverse_append,
    List.reverse_reverse, List.rdropWhile]

/-- What is dropped behind a text that has been trimmed is dropped behind what follows it. -/
theorem rdropWhile_rdropWhile_append {q : α → Bool} (l m : List α) :
    (l.rdropWhile q ++ m).rdropWhile q = l.rdropWhile q ++ m.rdropWhile q := by
  by_cases h : m.rdropWhile q = []
  · have hall := List.rdropWhile_eq_nil_iff.mp h
    rw [h, List.append_nil, List.rdropWhile, List.reverse_append,
      List.dropWhile_append_of_pos fun c hc => hall c (List.mem_reverse.mp hc)]
    exact List.rdropWhile_idempotent q l
  · exact rdropWhile_append_of_ne_nil _ h

/-- Without the separators at the end, a text that comes after a separator gives its words, and one that comes after a
symbol of a word goes on with that word. -/
theorem rdropWhile_squeezeFrom [DecidableEq α] (hsep : p sep = true) (l : List α) :
    (squeezeFrom p sep true l).rdropWhile (· = sep) = [sep].intercalate (runs p l) ∧
      (squeezeFrom p sep false l).rdropWhile (· = sep) =
        l.takeWhile (!p ·) ++ slugTail sep (runs p (l.dropWhile (!p ·))) := by
  induction l with
  | nil => exact ⟨rfl, rfl⟩
  | cons c cs ih =>
    obtain ⟨ihRun, ihWord⟩ := ih
    cases hc : p c with
    | true =>
      constructor
      · rw [squeezeFrom_true_cons hc, ihRun, runs_cons hc]
      · rw [squeezeFrom_false_cons hc, List.takeWhile_cons_of_neg (by simp [hc]),
          List.dropWhile_cons_of_neg (by simp [hc]), runs_cons hc, List.nil_append, slugTail]
        -- The separator stays when there is a word behind it.
        split_ifs with hruns
        · have hnil := ihRun.trans (intercalate_runs_eq_nil_iff.mpr hruns)
          have hall := List.rdropWhile_eq_nil_iff.mp hnil
          exact List.rdropWhile_eq_nil_iff.mpr (List.forall_mem_cons.mpr ⟨decide_eq_true rfl, hall⟩)
        · rw [← ihRun]
          refine rdropWhile_append_of_ne_nil [sep] fun hnil => hruns ?_
          exact intercalate_runs_eq_nil_iff.mp (ihRun.symm.trans hnil)
    | false =>
      have hdrop : ∀ l : List α, (c :: l).rdropWhile (· = sep) = c :: l.rdropWhile (· = sep) :=
        rdropWhile_append_cons (p := (· = sep)) (decide_eq_false (ne_of_kept hsep hc)) []
      constructor
      · have hword : ∀ x ∈ c :: cs.takeWhile (!p ·), p x = false := by
          refine List.forall_mem_cons.mpr ⟨hc, fun x hx => ?_⟩
          simpa using List.mem_takeWhile_imp hx
        have hrest : ∀ x ∈ (cs.dropWhile (!p ·)).head?, p x = true := by
          intro x hx
          have := List.head?_dropWhile_not (!p ·) cs
          rw [Option.mem_def.mp hx] at this
          simpa using this
        have hruns : runs p (c :: cs) = (c :: cs.takeWhile (!p ·)) :: runs p (cs.dropWhile (!p ·)) := by
          conv_lhs => rw [← List.takeWhile_append_dropWhile (p := (!p ·)) (l := cs)]
          exact runs_part_append (List.cons_ne_nil _ _) hword hrest
        rw [squeezeFrom_cons_of_kept hc, hdrop, ihWord, hruns, intercalate_cons, List.cons_append]
      · rw [squeezeFrom_cons_of_kept hc, hdrop, ihWord, List.takeWhile_cons_of_pos (by simp [hc]),
          List.dropWhile_cons_of_pos (by simp [hc]), List.cons_append]

/-- A slug is made of the words of the text. -/
theorem trimSymbol_squeeze [DecidableEq α] (hsep : p sep = true) (l : List α) :
    trimSymbol sep (squeeze p sep l) = [sep].intercalate (runs p l) := by
  rw [trimSymbol, dropWhile_squeeze hsep, (rdropWhile_squeezeFrom hsep l).1]

/-- The words can be read off the slug. -/
theorem intercalate_runs_inj [DecidableEq α] (sep : α) (hsep : p sep = true) {m : List α} :
    [sep].intercalate (runs p l) = [sep].intercalate (runs p m) ↔ runs p l = runs p m := by
  refine ⟨fun h => ?_, congrArg _⟩
  have hsplit : ∀ l : List α, runs p l ≠ [] → ([sep].intercalate (runs p l)).splitOn sep = runs p l := fun l hne =>
    List.splitOn_intercalate sep (fun part hpart hmem => by
      rw [(forall_mem_runs hpart).2 sep hmem] at hsep
      cases hsep) hne
  by_cases hl : runs p l = []
  · rw [hl, eq_comm]
    exact intercalate_runs_eq_nil_iff.mp (h.symm.trans (intercalate_runs_eq_nil_iff.mpr hl))
  · have hm : runs p m ≠ [] := fun hm => hl (intercalate_runs_eq_nil_iff.mp
      (h.trans (intercalate_runs_eq_nil_iff.mpr hm)))
    rw [← hsplit l hl, ← hsplit m hm, h]

end Text
