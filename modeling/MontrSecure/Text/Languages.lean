import Mathlib.Computability.Language
import MontrSecure.Text.Matching

/-!
# The languages of expressions

An expression without assertions stops behind the words of a language, whatever stands before them. Languages are
Mathlib's, and the language of a sequence is a product.
-/

namespace Text

variable {α : Type}

/-- A set of words: Mathlib's languages, next to those of programs. -/
abbrev FormalLanguage (α : Type) : Type := Language α

/-- The words of the symbols of a class. -/
def wordsOf (p : α → Bool) : Language α := {w | ∀ a ∈ w, p a = true}

/-- The same, without the empty word. -/
def properWordsOf (p : α → Bool) : Language α := {w | w ≠ [] ∧ ∀ a ∈ w, p a = true}

/-- The words of one symbol of a class. -/
def symbolsOf (p : α → Bool) : Language α := {w | ∃ a, p a = true ∧ w = [a]}

theorem mem_symbolsOf_mul_wordsOf {p q : α → Bool} {w : List α} :
    w ∈ symbolsOf p * wordsOf q ↔ ∃ a rest, w = a :: rest ∧ p a = true ∧ ∀ b ∈ rest, q b = true := by
  rw [Language.mem_mul]
  constructor
  · rintro ⟨_, ⟨a, ha, rfl⟩, rest, hrest, rfl⟩
    exact ⟨a, rest, rfl, ha, hrest⟩
  · rintro ⟨a, rest, rfl, ha, hrest⟩
    exact ⟨[a], ⟨a, ha, rfl⟩, rest, hrest, rfl⟩

theorem properWordsOf_eq (p : α → Bool) : properWordsOf p = symbolsOf p * wordsOf p := by
  ext w
  rw [mem_symbolsOf_mul_wordsOf]
  constructor
  · rintro ⟨hne, hw⟩
    obtain ⟨a, rest, rfl⟩ := List.exists_cons_of_ne_nil hne
    obtain ⟨ha, hrest⟩ := List.forall_mem_cons.mp hw
    exact ⟨a, rest, rfl, ha, hrest⟩
  · rintro ⟨a, rest, rfl, ha, hrest⟩
    exact ⟨List.cons_ne_nil a rest, List.forall_mem_cons.mpr ⟨ha, hrest⟩⟩

namespace Regex

/-- A match may stop behind the words of `L`, and nowhere else. -/
def Spells (r : Regex α) (L : Language α) : Prop := ∀ pos pos', pos' ∈ r.ends pos ↔ ∃ w ∈ L, pos.Behind w pos'

variable {r s : Regex α} {rs : List (Regex α)} {L M : Language α} {p : α → Bool}

theorem spells_sym : (sym p).Spells (symbolsOf p) := by
  intro pos pos'
  rw [mem_ends_sym]
  constructor
  · rintro ⟨a, ha, hbehind⟩
    exact ⟨[a], ⟨a, ha, rfl⟩, hbehind⟩
  · rintro ⟨_, ⟨a, ha, rfl⟩, hbehind⟩
    exact ⟨a, ha, hbehind⟩

theorem spells_star_sym : (star (sym p)).Spells (wordsOf p) := fun _ _ => mem_ends_star_sym

theorem spells_eps : (eps : Regex α).Spells 1 := by
  intro pos pos'
  rw [ends, List.mem_singleton]
  constructor
  · rintro rfl
    exact ⟨[], Language.nil_mem_one, .nil _⟩
  · rintro ⟨w, hw, hbehind⟩
    rw [(Language.mem_one w).mp hw] at hbehind
    exact Position.behind_nil.mp hbehind

theorem spells_seq (hr : r.Spells L) (hs : s.Spells M) : (seq r s).Spells (L * M) := by
  intro pos pos'
  rw [mem_ends_seq]
  constructor
  · rintro ⟨mid, hmid, hrest⟩
    obtain ⟨v, hv, hfirst⟩ := (hr pos mid).mp hmid
    obtain ⟨w, hw, hsecond⟩ := (hs mid pos').mp hrest
    exact ⟨v ++ w, Language.append_mem_mul hv hw, hfirst.trans hsecond⟩
  · rintro ⟨_, ⟨v, hv, w, hw, rfl⟩, hafter, hbefore⟩
    obtain ⟨mid, hfirst, hmid⟩ := Position.exists_behind (hafter.trans (List.append_assoc v w _))
    refine ⟨mid, (hr pos mid).mpr ⟨v, hv, hfirst⟩, (hs mid pos').mpr ⟨w, hw, hmid, ?_⟩⟩
    rw [hbefore, hfirst.before, List.getLast?_append, Option.or_assoc]

theorem spells_plus_sym : (plus (sym p)).Spells (properWordsOf p) := by
  rw [properWordsOf_eq]
  exact spells_seq spells_sym spells_star_sym

theorem spells_concat_cons (hr : r.Spells L) (hrs : (concat rs).Spells M) : (concat (r :: rs)).Spells (L * M) := by
  rcases rs with _ | ⟨s, rs⟩
  · -- The sequence of one expression is this expression.
    intro pos pos'
    have hboth := spells_seq hr hrs pos pos'
    rw [mem_ends_seq] at hboth
    rw [← hboth]
    simp [concat, ends]
  · exact spells_seq hr hrs

theorem spells_concat {Ls : List (Language α)} (h : List.Forall₂ Spells rs Ls) : (concat rs).Spells Ls.prod := by
  induction h with
  | nil => exact spells_eps
  | cons hr _ ih =>
    rw [List.prod_cons]
    exact spells_concat_cons hr ih

/-- A word spells itself. -/
theorem spells_word [DecidableEq α] (w : List α) : (word w).Spells {w} := by
  have hmap : word w = concat ((w.map fun a b => decide (b = a)).map sym) := by
    rw [word, List.map_map]
    rfl
  have hchars : ∀ v, List.Forall₂ (fun p a => p a = true) (w.map fun a b => decide (b = a)) v ↔ v = w := by
    intro v
    rw [List.forall₂_map_left_iff]
    constructor
    · intro h
      have heq : List.Forall₂ Eq w v := h.imp fun _ _ hab => (of_decide_eq_true hab).symm
      rw [List.forall₂_eq_eq_eq] at heq
      exact heq.symm
    · rintro rfl
      exact List.forall₂_same.mpr fun a _ => decide_eq_true rfl
  intro pos pos'
  rw [hmap, mem_ends_concat_sym]
  exact exists_congr fun v => and_congr_left fun _ => hchars v

example : (word [1, 2]).test [0, 1, 2, 3] = true := by decide +kernel

/-- An expression that is bound to the start of a text matches at the first position or nowhere. -/
theorem test_start_iff (r : Regex α) (text : List α) :
    (seq (look fun before _ => before.isNone) r).test text = true ↔ ∃ pos', pos' ∈ r.ends ⟨none, text⟩ := by
  have hends : ∀ pos pos' : Position α,
      pos' ∈ (seq (look fun before _ => before.isNone) r).ends pos ↔ pos.before = none ∧ pos' ∈ r.ends pos := by
    intro pos pos'
    simp only [mem_ends_seq, mem_ends_look, Option.isNone_iff_eq_none]
    constructor
    · rintro ⟨mid, ⟨hnone, rfl⟩, hmem⟩
      exact ⟨hnone, hmem⟩
    · rintro ⟨hnone, hmem⟩
      exact ⟨pos, ⟨hnone, rfl⟩, hmem⟩
  rw [test_iff]
  constructor
  · rintro ⟨pos, hpos, hne⟩
    obtain ⟨pos', hmem⟩ := List.exists_mem_of_ne_nil _ hne
    obtain ⟨hnone, hmem⟩ := (hends pos pos').mp hmem
    obtain ⟨pre, hpre, hbefore⟩ := mem_positionsFrom.mp hpos
    -- Nothing stands before the position, so it is the first.
    have hempty : pre = [] := by
      rw [hbefore, Option.or_none, List.getLast?_eq_none_iff] at hnone
      exact hnone
    have hfirst : pos = ⟨none, text⟩ := by
      obtain ⟨before, after⟩ := pos
      rw [hempty, List.nil_append] at hpre
      cases hnone
      rw [hpre]
    exact ⟨pos', hfirst ▸ hmem⟩
  · rintro ⟨pos', hmem⟩
    exact ⟨⟨none, text⟩, mem_positionsFrom.mpr ⟨[], rfl, rfl⟩, List.ne_nil_of_mem ((hends _ _).mpr ⟨rfl, hmem⟩)⟩

/-- Bound to the start of a text, an expression matches the texts that a word of its language begins. -/
theorem test_front_iff (hr : r.Spells L) (text : List α) :
    (seq (look fun before _ => before.isNone) r).test text = true ↔ ∃ w ∈ L, w <+: text := by
  rw [test_start_iff]
  constructor
  · rintro ⟨pos', hmem⟩
    obtain ⟨w, hw, hbehind⟩ := (hr _ _).mp hmem
    exact ⟨w, hw, pos'.after, hbehind.after.symm⟩
  · rintro ⟨w, hw, rest, htext⟩
    have hstart : (⟨none, text⟩ : Position α).after = w ++ rest := htext.symm
    obtain ⟨pos', hbehind, -⟩ := Position.exists_behind hstart
    exact ⟨pos', (hr _ _).mpr ⟨w, hw, hbehind⟩⟩

/-- An expression between the ends of a text matches the words of its language. -/
theorem test_whole_iff (hr : r.Spells L) (text : List α) :
    (seq (look fun before _ => before.isNone) (seq r (look fun _ after => after.isNone))).test text = true ↔
      text ∈ L := by
  simp only [test_start_iff, mem_ends_seq, mem_ends_look, Option.isNone_iff_eq_none, List.head?_eq_none_iff, hr _ _]
  constructor
  · rintro ⟨pos', mid, ⟨w, hw, hbehind⟩, hnil, rfl⟩
    have htext : text = w := by
      have hafter : text = w ++ pos'.after := hbehind.after
      rw [hafter, hnil, List.append_nil]
    rwa [htext]
  · intro htext
    have hstart : (⟨none, text⟩ : Position α).after = text ++ [] := (List.append_nil text).symm
    obtain ⟨pos', hbehind, hnil⟩ := Position.exists_behind hstart
    exact ⟨pos', pos', ⟨text, htext, hbehind⟩, hnil, rfl⟩

end Regex

end Text

/-!
## Path patterns

What a pattern of paths denotes that has parameters with modifiers and wildcards, `/users/:id`, `/docs/:page*` or
`/files/*`; and how a text of segments falls apart that matches a sequence of patterns.
-/

namespace Text.PathPattern

variable {α : Type}

/-! ## Patterns -/

/-- How often a parameter stands: once, `?`, `*` or `+`. -/
inductive Modifier where
  | one
  | optional
  | star
  | plus
  deriving DecidableEq

/-- A part of a pattern. What stands before the name of a parameter is repeated with it. -/
inductive Item (α : Type) where
  | lit (a : α)
  | wildcard
  | param (pre name : List α) (modifier : Modifier)

variable (slash : α)

/-- The values of a parameter: they are not empty and have no slash. -/
def values : Language α := {w | w ≠ [] ∧ slash ∉ w}

/-- What a modifier makes of a language. -/
def Modifier.denoted (m : Modifier) (L : Language α) : Language α :=
  match m with
  | one => L
  | optional => L + 1
  | star => KStar.kstar L
  | plus => L * KStar.kstar L

/-- The texts of an item. -/
def Item.denoted : Item α → Language α
  | lit a => {w | w = [a]}
  | wildcard => ⊤
  | param pre _ m => m.denoted {w | ∃ v ∈ values slash, w = pre ++ v}

/-- The texts of a pattern. -/
def denoted (items : List (Item α)) : Language α := (items.map (Item.denoted slash)).prod

/-- The paths that a pattern matches; a slash may follow at the end. -/
def matched (items : List (Item α)) : Language α :=
  {path | path ∈ denoted slash items ∨ ∃ w ∈ denoted slash items, path = w ++ [slash]}

/-! ## Segments -/

/-- The text of some segments. -/
def slashed (segs : List (List α)) : List α := segs.flatMap (slash :: ·)

variable {slash} {segs : List (List α)} {x y : List α}

theorem slashed_append (segs rest : List (List α)) :
    slashed slash (segs ++ rest) = slashed slash segs ++ slashed slash rest := List.flatMap_append

theorem slashed_flatten (runs : List (List (List α))) :
    slashed slash runs.flatten = (runs.map (slashed slash)).flatten := by
  induction runs with
  | nil => rfl
  | cons run runs ih => rw [List.flatten_cons, slashed_append, ih, List.map_cons, List.flatten_cons]

theorem slashed_eq_nil_iff : slashed slash segs = [] ↔ segs = [] := by
  rcases segs with _ | ⟨s, segs⟩
  · exact iff_of_true rfl rfl
  · exact iff_of_false (List.cons_ne_nil _ _) (List.cons_ne_nil _ _)

/-- A text that starts with a slash, or is empty. -/
def AtSlash (slash : α) (text : List α) : Prop := ∀ a ∈ text.head?, a = slash

theorem atSlash_slashed (segs : List (List α)) : AtSlash slash (slashed slash segs) := by
  rcases segs with _ | ⟨s, segs⟩
  · intro a ha
    cases ha
  · intro a ha
    exact (Option.some.inj ha).symm

/-- A part of the text of some segments that ends before a slash is the text of some of them. -/
theorem exists_run (hsegs : ∀ s ∈ segs, slash ∉ s) (hx : x.head? = some slash) (hy : AtSlash slash y)
    (heq : slashed slash segs = x ++ y) :
    ∃ run rest, segs = run ++ rest ∧ run ≠ [] ∧ slashed slash run = x ∧ slashed slash rest = y := by
  induction segs generalizing x with
  | nil =>
    obtain ⟨rfl, -⟩ := List.nil_eq_append_iff.mp heq
    cases hx
  | cons s segs ih =>
    obtain ⟨hs, hsegs⟩ := List.forall_mem_cons.mp hsegs
    rcases x with _ | ⟨a, x⟩
    · cases hx
    cases hx
    have hinner : s ++ slashed slash segs = x ++ y := List.cons.inj heq |>.2
    obtain ⟨z, rfl, hz⟩ | ⟨z, rfl, rfl⟩ := List.append_eq_append_iff.mp hinner
    · rcases z with _ | ⟨b, z⟩
      · exact ⟨[s], segs, rfl, List.cons_ne_nil _ _, by simp [slashed], hz⟩
      · -- The part goes on behind the first segment.
        have hb : b = slash := atSlash_slashed segs b (by rw [hz]; rfl)
        obtain ⟨run, rest, rfl, -, hrun, hrest⟩ := ih hsegs (x := b :: z) (by rw [hb]; rfl) hz
        refine ⟨s :: run, rest, rfl, List.cons_ne_nil _ _, ?_, hrest⟩
        rw [← hrun]
        rfl
    · rcases z with _ | ⟨b, z⟩
      · exact ⟨[x], segs, by simp, List.cons_ne_nil _ _, by simp [slashed], rfl⟩
      · -- It cannot end inside a segment.
        have hb : b = slash := hy b rfl
        exact absurd (hb ▸ List.mem_append_right x List.mem_cons_self) hs

/-- The words of a product of languages that start with a slash do so as well, or there is no factor. -/
theorem atSlash_of_mem_prod {Ls : List (Language α)} (hLs : ∀ L ∈ Ls, ∀ w ∈ L, w.head? = some slash)
    (hx : x ∈ Ls.prod) : AtSlash slash x := by
  rcases Ls with _ | ⟨L, Ls⟩
  · rw [List.prod_nil, Language.mem_one] at hx
    intro a ha
    rw [hx] at ha
    cases ha
  · rw [List.prod_cons] at hx
    obtain ⟨v, hv, w, -, rfl⟩ := Language.mem_mul.mp hx
    have hhead := hLs L List.mem_cons_self v hv
    intro a ha
    rcases v with _ | ⟨b, v⟩
    · cases hhead
    · rw [← Option.some.inj ha]
      exact Option.some.inj hhead

/-- Segments whose text is in a product fall apart into runs, one for each factor. -/
theorem exists_runs {Ls : List (Language α)} (hLs : ∀ L ∈ Ls, ∀ w ∈ L, w.head? = some slash)
    (hsegs : ∀ s ∈ segs, slash ∉ s) (h : slashed slash segs ∈ Ls.prod) :
    ∃ runs : List (List (List α)), runs.flatten = segs ∧
      List.Forall₂ (fun L run => run ≠ [] ∧ slashed slash run ∈ L) Ls runs := by
  induction Ls generalizing segs with
  | nil =>
    rw [List.prod_nil, Language.mem_one, slashed_eq_nil_iff] at h
    exact ⟨[], h.symm, .nil⟩
  | cons L Ls ih =>
    obtain ⟨hL, hrestLs⟩ := List.forall_mem_cons.mp hLs
    rw [List.prod_cons] at h
    obtain ⟨v, hv, w, hw, heq⟩ := Language.mem_mul.mp h
    obtain ⟨run, rest, rfl, hne, rfl, rfl⟩ :=
      exists_run hsegs (hL v hv) (atSlash_of_mem_prod hrestLs hw) heq.symm
    obtain ⟨runs, rfl, hruns⟩ := ih hrestLs (fun s hs => hsegs s (List.mem_append_right run hs)) hw
    exact ⟨run :: runs, rfl, .cons ⟨hne, hv⟩ hruns⟩

end Text.PathPattern
