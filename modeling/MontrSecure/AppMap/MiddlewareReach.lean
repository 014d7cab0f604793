import MontrSecure.AppMap.MiddlewareMatcher
import MontrSecure.Text.Splitting
import Mathlib

/-!
# What the middleware is propagated to

The expression of a matcher is tested on the template of a route, and not on the URLs of the route. Where the
segments of the two line up, a matcher that accepts the template matches the URLs.
-/

namespace MontrSecure.Next

open Text Text.PathPattern

/-! ## Templates -/

/-- What a segment of a template stands for. -/
inductive SegmentKind where
  | fixed
  | dynamic
  | catchAll
  | optionalCatchAll
  deriving DecidableEq

/-- `[id]`, `[...slug]` and `[[...slug]]` are not fixed. -/
def kindOf (s : List ℕ) : SegmentKind :=
  if (units "[[...").isPrefixOf s && (units "]]").isSuffixOf s then .optionalCatchAll
  else if (units "[...").isPrefixOf s && (units "]").isSuffixOf s then .catchAll
  else if (units "[").isPrefixOf s && (units "]").isSuffixOf s then .dynamic
  else .fixed

/-- A slash and a value. -/
def valueTexts : FormalLanguage ℕ := {w | ∃ v ∈ values (unit '/'), w = units "/" ++ v}

/-- What may stand in a URL for a segment. -/
def urlTexts (s : List ℕ) : FormalLanguage ℕ :=
  match kindOf s with
  | .fixed => {w | w = unit '/' :: s}
  | .dynamic => Modifier.one.denoted valueTexts
  | .catchAll => Modifier.plus.denoted valueTexts
  | .optionalCatchAll => Modifier.star.denoted valueTexts

/-- The segments of a path that starts with a slash. -/
def segmentsOf (path : String) : List (List ℕ) := (units path).tail.splitOn (unit '/')

example : segmentsOf "/a/b" = [units "a", units "b"] := by decide +kernel

/-- The paths of the URLs of a template. -/
def urlsOf (t : List (List ℕ)) : FormalLanguage ℕ :=
  {url | ∃ w ∈ (t.map urlTexts).prod, url = if w = [] then units "/" else w}

/-- A segment that takes more than one segment of a URL. -/
def IsCatchAll (s : List ℕ) : Prop := kindOf s = .catchAll ∨ kindOf s = .optionalCatchAll

/-- A path is `/`, or has proper segments, of which only the last takes more than one. -/
structure IsTemplate (path : String) : Prop where
  slash : (units path).head? = some (unit '/')
  proper : segmentsOf path = [[]] ∨ ∀ s ∈ segmentsOf path, s ≠ []
  last : ∀ s ∈ (segmentsOf path).dropLast, ¬IsCatchAll s

/-! ## Patterns that line up -/

/-- A part of a pattern that faces whole segments: `/:name` with its modifier, `/*`, or another one. -/
inductive Block where
  | param (name : List ℕ) (modifier : Modifier)
  | wildcard
  | other (items : List (PathPattern.Item ℕ))

/-- The items of a block. -/
def Block.items : Block → List (PathPattern.Item ℕ)
  | param name m => [.param (units "/") name m]
  | wildcard => [.lit (unit '/'), .wildcard]
  | other items => items

/-- The items start with a slash. -/
def StartsWithSlash (items : List (PathPattern.Item ℕ)) : Prop :=
  ∃ i rest, items = i :: rest ∧ (i = .lit (unit '/') ∨ ∃ name m, i = .param (units "/") name m)

/-- `/:name*` and `/*`, which take any number of segments. -/
def Block.IsOpen : Block → Prop
  | param _ m => m = .star
  | wildcard => True
  | other _ => False

/-- The expression of a pattern accepts a text. -/
def AcceptsText (pattern : String) (text : List ℕ) : Prop :=
  ∃ re, matcherToRegex pattern = some re ∧ re.test text = true

/-- The template without its last segment. -/
def withoutLast (t : List (List ℕ)) : List (List ℕ) := if t.dropLast = [] then [[]] else t.dropLast

/-- The blocks line up with a template: but for `/:name` and `/*` they have no parameter with `*` and accept fixed
segments only, and a catch-all segment faces a block that takes any number of segments. A `*` is not enough where
there may be no segment, unless it takes the segments before as well. -/
structure LinesUp (blocks : List Block) (pattern : String) (t : List (List ℕ)) : Prop where
  reads : Reads (blocks.flatMap Block.items) (units pattern)
  slash : ∀ items, Block.other items ∈ blocks → StartsWithSlash items
  starless : ∀ items, Block.other items ∈ blocks → ∀ pre name, PathPattern.Item.param pre name .star ∉ items
  fixed : ∀ items, Block.other items ∈ blocks → ∀ run, run <:+: t → slashed (unit '/') run ∈ accepted items →
    ∀ s ∈ run, kindOf s = .fixed
  opens : (∃ s ∈ t, IsCatchAll s) → ∃ b ∈ blocks.getLast?, b.IsOpen
  optional : (∃ s ∈ t, kindOf s = .optionalCatchAll) →
    (∃ name, blocks.getLast? = some (.param name .star)) ∨ AcceptsText pattern (slashed (unit '/') (withoutLast t))

/-! ## Languages -/

section Languages

variable {L M : FormalLanguage ℕ} {w : List ℕ}

theorem mem_symbolsOf_eq {c : ℕ} : w ∈ symbolsOf (· = c) ↔ w = [c] := by
  constructor
  · rintro ⟨a, ha, rfl⟩
    rw [of_decide_eq_true ha]
  · rintro rfl
    exact ⟨c, decide_eq_true rfl, rfl⟩

theorem mem_prod_symbolsOf {pre : List ℕ} :
    w ∈ (pre.map fun c => symbolsOf (· = c)).prod ↔ w = pre := by
  induction pre generalizing w with
  | nil => rw [List.map_nil, List.prod_nil, Language.mem_one]
  | cons c pre ih =>
    rw [List.map_cons, List.prod_cons, Language.mem_mul]
    constructor
    · rintro ⟨v, hv, u, hu, rfl⟩
      rw [mem_symbolsOf_eq.mp hv, ih.mp hu]
      rfl
    · rintro rfl
      exact ⟨[c], mem_symbolsOf_eq.mpr rfl, pre, ih.mpr rfl, rfl⟩

theorem mem_properWordsOf_ne {c : ℕ} : w ∈ properWordsOf (· ≠ c) ↔ w ∈ values c := by
  have hclass : (∀ a ∈ w, decide (a ≠ c) = true) ↔ c ∉ w := by
    constructor
    · intro h hmem
      exact of_decide_eq_true (h c hmem) rfl
    · intro h a ha
      exact decide_eq_true fun heq => h (heq ▸ ha)
  exact and_congr_right fun _ => hclass

/-- Once is among the numbers of times that a modifier allows. -/
theorem le_denoted (m : Modifier) (L : FormalLanguage ℕ) : L ≤ m.denoted L := by
  rcases m
  · exact le_rfl
  · exact le_self_add
  · exact le_kstar
  · calc L = L * 1 := (mul_one L).symm
      _ ≤ L * KStar.kstar L := mul_le_mul_right one_le_kstar L

theorem prod_le_kstar {Ls : List (FormalLanguage ℕ)} (h : ∀ M ∈ Ls, M ≤ KStar.kstar L) : Ls.prod ≤ KStar.kstar L := by
  induction Ls with
  | nil => exact one_le_kstar
  | cons M Ls ih =>
    obtain ⟨hM, hLs⟩ := List.forall_mem_cons.mp h
    calc (M :: Ls).prod = M * Ls.prod := List.prod_cons
      _ ≤ KStar.kstar L * KStar.kstar L := mul_le_mul' hM (ih hLs)
      _ = KStar.kstar L := kstar_mul_kstar L

end Languages

/-! ## Items -/

section Items

variable {w : List ℕ} {items : List (PathPattern.Item ℕ)}

theorem accepted_cons (i : PathPattern.Item ℕ) (items : List (PathPattern.Item ℕ)) :
    accepted (i :: items) = (itemAccepted i).prod * accepted items := by
  rw [accepted, accepted, List.map_cons, List.prod_cons]

theorem mem_accepted_singleton (i : PathPattern.Item ℕ) : w ∈ accepted [i] ↔ w ∈ (itemAccepted i).prod := by
  rw [accepted, List.map_singleton, List.prod_singleton]

theorem mem_itemAccepted_param {pre name : List ℕ} {m : Modifier} :
    w ∈ (itemAccepted (.param pre name m)).prod ↔ ∃ v ∈ (modifierAccepted m).prod, w = pre ++ v := by
  rw [itemAccepted, List.prod_append, Language.mem_mul]
  constructor
  · rintro ⟨u, hu, v, hv, rfl⟩
    exact ⟨v, hv, by rw [mem_prod_symbolsOf.mp hu]⟩
  · rintro ⟨v, hv, rfl⟩
    exact ⟨pre, mem_prod_symbolsOf.mpr rfl, v, hv, rfl⟩

/-- Without `*`, the expression of a parameter accepts values. -/
theorem mem_values_of_modifierAccepted {m : Modifier} (hm : m ≠ .star) (h : w ∈ (modifierAccepted m).prod) :
    w ∈ values (unit '/') := by
  rcases m
  · rw [modifierAccepted, List.prod_singleton] at h
    exact mem_properWordsOf_ne.mp h
  · rw [modifierAccepted, List.prod_singleton] at h
    exact mem_properWordsOf_ne.mp h
  · exact absurd rfl hm
  · rw [modifierAccepted, List.prod_cons, List.prod_singleton, Language.mem_mul] at h
    obtain ⟨v, hv, u, hu, rfl⟩ := h
    obtain ⟨hne, hslash⟩ := mem_properWordsOf_ne.mp hv
    rw [mem_symbolsOf_eq.mp hu]
    refine ⟨List.append_ne_nil_of_left_ne_nil hne _, fun hmem => ?_⟩
    obtain hmem | hmem := List.mem_append.mp hmem
    · exact hslash hmem
    · exact absurd (List.mem_singleton.mp hmem) (by decide)

/-- Without `*` at a parameter, what the expression of an item accepts is what the item denotes. -/
theorem itemAccepted_le {i : PathPattern.Item ℕ} (hi : ∀ pre name, i ≠ .param pre name .star) :
    (itemAccepted i).prod ≤ i.denoted (unit '/') := by
  intro w hw
  rcases i with c | _ | ⟨pre, name, m⟩
  · rw [itemAccepted, List.prod_singleton] at hw
    exact mem_symbolsOf_eq.mp hw
  · exact Set.mem_univ w
  · have hm : m ≠ .star := fun h => hi pre name (by rw [h])
    obtain ⟨v, hv, rfl⟩ := mem_itemAccepted_param.mp hw
    exact le_denoted m _ ⟨v, mem_values_of_modifierAccepted hm hv, rfl⟩

theorem accepted_le_denoted (h : ∀ pre name, PathPattern.Item.param pre name .star ∉ items) :
    accepted items ≤ denoted (unit '/') items := by
  induction items with
  | nil => exact le_rfl
  | cons i items ih =>
    rw [accepted_cons, denoted, List.map_cons, List.prod_cons]
    refine mul_le_mul' (itemAccepted_le fun pre name hi => h pre name (hi ▸ List.mem_cons_self)) ?_
    exact ih fun pre name hmem => h pre name (List.mem_cons_of_mem i hmem)

/-- What a block accepts starts with a slash. -/
theorem head_of_mem_accepted (h : StartsWithSlash items) (hw : w ∈ accepted items) : w.head? = some (unit '/') := by
  obtain ⟨i, rest, rfl, hi⟩ := h
  rw [accepted_cons, Language.mem_mul] at hw
  obtain ⟨v, hv, u, -, rfl⟩ := hw
  obtain rfl | ⟨name, m, rfl⟩ := hi
  · rw [itemAccepted, List.prod_singleton] at hv
    rw [mem_symbolsOf_eq.mp hv]
    rfl
  · obtain ⟨x, -, rfl⟩ := mem_itemAccepted_param.mp hv
    rfl

theorem Block.startsWithSlash {b : Block} (h : ∀ items, b = .other items → StartsWithSlash items) :
    StartsWithSlash b.items := by
  rcases b with ⟨name, m⟩ | _ | items
  · exact ⟨_, [], rfl, .inr ⟨name, m, rfl⟩⟩
  · exact ⟨_, [.wildcard], rfl, .inl rfl⟩
  · exact h items rfl

end Items

/-! ## Segments -/

section Segments

variable {s w v : List ℕ} {run : List (List ℕ)}

/-- The text of one segment is that of no others. -/
theorem eq_singleton_of_slashed (h : slashed (unit '/') run = unit '/' :: v) (hv : unit '/' ∉ v) : run = [v] := by
  rcases run with _ | ⟨s, run⟩
  · cases h
  · have htail : s ++ slashed (unit '/') run = v := (List.cons.inj h).2
    rcases run with _ | ⟨s', run⟩
    · rw [slashed, List.flatMap_nil, List.append_nil] at htail
      rw [htail]
    · refine absurd ?_ hv
      rw [← htail]
      exact List.mem_append_right s List.mem_cons_self

theorem urlTexts_le_of_not_catchAll (hs : s ∈ values (unit '/')) (h : ¬IsCatchAll s) : urlTexts s ≤ valueTexts := by
  intro w hw
  rw [urlTexts] at hw
  rcases hkind : kindOf s <;> simp only [hkind] at hw
  · exact ⟨s, hs, hw⟩
  · exact hw
  · exact absurd (.inl hkind) h
  · exact absurd (.inr hkind) h

theorem urlTexts_le_kstar (hs : s ∈ values (unit '/')) : urlTexts s ≤ KStar.kstar valueTexts := by
  have hplus : valueTexts * KStar.kstar valueTexts ≤ KStar.kstar valueTexts := mul_kstar_le_kstar
  by_cases h : IsCatchAll s
  · intro w hw
    rw [urlTexts] at hw
    obtain hkind | hkind := h <;> simp only [hkind] at hw
    · exact hplus hw
    · exact hw
  · exact (urlTexts_le_of_not_catchAll hs h).trans le_kstar

/-- Only an optional segment may be absent. -/
theorem optional_or_slash (h : w ∈ urlTexts s) :
    w = [] ∧ kindOf s = .optionalCatchAll ∨ w.head? = some (unit '/') := by
  have hvalue : ∀ x ∈ valueTexts, x.head? = some (unit '/') := by
    rintro x ⟨v, -, rfl⟩
    rfl
  rw [urlTexts] at h
  rcases hkind : kindOf s <;> simp only [hkind] at h
  · rw [show w = unit '/' :: s from h]
    exact .inr rfl
  · exact .inr (hvalue w h)
  · obtain ⟨x, hx, y, -, rfl⟩ := Language.mem_mul.mp h
    obtain ⟨v, -, rfl⟩ := hx
    exact .inr rfl
  · obtain ⟨pieces, rfl, hpieces⟩ := Language.mem_kstar.mp h
    rcases pieces with _ | ⟨x, pieces⟩
    · exact .inl ⟨rfl, rfl⟩
    · obtain ⟨v, -, rfl⟩ := hpieces x List.mem_cons_self
      exact .inr rfl

/-- Fixed segments stand for themselves. -/
theorem prod_urlTexts_of_fixed {f : List ℕ → FormalLanguage ℕ} (hf : ∀ s, f s ≤ urlTexts s)
    (hrun : ∀ s ∈ run, kindOf s = .fixed) (hw : w ∈ (run.map f).prod) : w = slashed (unit '/') run := by
  induction run generalizing w with
  | nil => exact (Language.mem_one w).mp hw
  | cons s run ih =>
    obtain ⟨hs, hrest⟩ := List.forall_mem_cons.mp hrun
    rw [List.map_cons, List.prod_cons, Language.mem_mul] at hw
    obtain ⟨x, hx, y, hy, rfl⟩ := hw
    have htext : x ∈ urlTexts s := hf s hx
    rw [urlTexts, hs] at htext
    rw [show x = unit '/' :: s from htext, ih hrest hy]
    rfl

end Segments

/-! ## Blocks and runs of segments -/

/-- A block that accepts a run of segments of a template; `f` says what the segments stand for. -/
structure Faces (f : List ℕ → FormalLanguage ℕ) (b : Block) (run : List (List ℕ)) : Prop where
  ne : run ≠ []
  accepts : slashed (unit '/') run ∈ accepted b.items
  proper : run = [[]] ∨ ∀ s ∈ run, s ∈ values (unit '/')
  opens : (∃ s ∈ run, IsCatchAll s) → b.IsOpen
  other : ∀ items, b = .other items → (∀ pre name, PathPattern.Item.param pre name .star ∉ items) ∧ ∀ s ∈ run, kindOf s = .fixed
  present : b = .wildcard → ∀ s ∈ run, [] ∉ f s

section Facing

variable {f : List ℕ → FormalLanguage ℕ} {b : Block} {run : List (List ℕ)}

theorem Faces.param_le {name : List ℕ} {m : Modifier} (hm : m ≠ .star) (hf : ∀ s, f s ≤ urlTexts s)
    (h : Faces f (.param name m) run) : (run.map f).prod ≤ m.denoted valueTexts := by
  obtain ⟨v, hv, htext⟩ := mem_itemAccepted_param.mp ((mem_accepted_singleton _).mp h.accepts)
  have hvalue := mem_values_of_modifierAccepted hm hv
  obtain rfl : run = [v] := eq_singleton_of_slashed htext hvalue.2
  have hclosed : ¬IsCatchAll v := fun hcatch => hm (h.opens ⟨v, List.mem_cons_self, hcatch⟩)
  calc ([v].map f).prod = f v := by rw [List.map_singleton, List.prod_singleton]
    _ ≤ urlTexts v := hf v
    _ ≤ valueTexts := urlTexts_le_of_not_catchAll hvalue hclosed
    _ ≤ m.denoted valueTexts := le_denoted m valueTexts

theorem Faces.star_le {name : List ℕ} (hf : ∀ s, f s ≤ urlTexts s) (h : Faces f (.param name .star) run) :
    (run.map f).prod ≤ Modifier.star.denoted valueTexts := by
  obtain ⟨v, hv, htext⟩ := mem_itemAccepted_param.mp ((mem_accepted_singleton _).mp h.accepts)
  have hne : v ≠ [] := by
    rw [modifierAccepted, List.prod_cons, List.prod_singleton] at hv
    obtain ⟨a, rest, rfl, -, -⟩ := mem_symbolsOf_mul_wordsOf.mp hv
    exact List.cons_ne_nil a rest
  have hproper : ∀ s ∈ run, s ∈ values (unit '/') := by
    refine h.proper.resolve_left fun hroot => hne ?_
    rw [hroot] at htext
    exact (List.cons.inj htext).2.symm
  refine prod_le_kstar fun M hM => ?_
  obtain ⟨s, hs, rfl⟩ := List.mem_map.mp hM
  exact (hf s).trans (urlTexts_le_kstar (hproper s hs))

theorem Faces.wildcard_le (hf : ∀ s, f s ≤ urlTexts s) (h : Faces f .wildcard run) :
    (run.map f).prod ≤ denoted (unit '/') (Block.items .wildcard) := by
  intro w hw
  obtain ⟨s, run, rfl⟩ := List.exists_cons_of_ne_nil h.ne
  rw [List.map_cons, List.prod_cons] at hw
  obtain ⟨x, hx, y, -, rfl⟩ := Language.mem_mul.mp hw
  obtain ⟨rfl, -⟩ | hslash := optional_or_slash (hf s hx)
  · exact absurd hx (h.present rfl s List.mem_cons_self)
  · obtain ⟨rest, rfl⟩ : ∃ rest, x = unit '/' :: rest := by
      rcases x with _ | ⟨c, rest⟩
      · cases hslash
      · exact ⟨rest, by rw [Option.some.inj hslash]⟩
    refine ⟨[unit '/'], rfl, rest ++ y, ?_, rfl⟩
    exact ⟨rest ++ y, Set.mem_univ _, [], rfl, List.append_nil _⟩

/-- What the segments of a run stand for is matched by the block. -/
theorem Faces.prod_le (hf : ∀ s, f s ≤ urlTexts s) (h : Faces f b run) :
    (run.map f).prod ≤ denoted (unit '/') b.items := by
  rcases b with ⟨name, m⟩ | _ | items
  · have hone : denoted (unit '/') (Block.items (.param name m)) = m.denoted valueTexts := by
      rw [Block.items, denoted, List.map_singleton, List.prod_singleton]
      rfl
    rw [hone]
    by_cases hm : m = .star
    · subst hm
      exact h.star_le hf
    · exact h.param_le hm hf
  · exact h.wildcard_le hf
  · obtain ⟨hstarless, hfixed⟩ := h.other items rfl
    intro w hw
    rw [prod_urlTexts_of_fixed hf hfixed hw]
    exact accepted_le_denoted hstarless h.accepts

theorem denoted_blocks (blocks : List Block) :
    denoted (unit '/') (blocks.flatMap Block.items) =
      (blocks.map fun b => denoted (unit '/') b.items).prod := by
  induction blocks with
  | nil => rfl
  | cons b blocks ih =>
    rw [List.flatMap_cons, denoted, List.map_append, List.prod_append, List.map_cons, List.prod_cons, ← ih]
    rfl

theorem accepted_blocks (blocks : List Block) :
    accepted (blocks.flatMap Block.items) = (blocks.map fun b => accepted b.items).prod := by
  induction blocks with
  | nil => rfl
  | cons b blocks ih =>
    rw [List.flatMap_cons, accepted, List.map_append, List.prod_append, List.map_cons, List.prod_cons, ← ih]
    rfl

/-- What a template stands for is matched, run by run. -/
theorem prod_le_of_faces {blocks : List Block} {runs : List (List (List ℕ))} (hf : ∀ s, f s ≤ urlTexts s)
    (h : List.Forall₂ (Faces f) blocks runs) :
    (runs.flatten.map f).prod ≤ denoted (unit '/') (blocks.flatMap Block.items) := by
  rw [denoted_blocks]
  induction h with
  | nil => exact le_rfl
  | cons hb _ ih =>
    rw [List.flatten_cons, List.map_append, List.prod_append, List.map_cons, List.prod_cons]
    exact mul_le_mul' (hb.prod_le hf) ih

/-- Runs that their blocks accept face them, when the catch-all segment is the last of all and faces an open block. -/
theorem forall_faces {blocks : List Block} {runs : List (List (List ℕ))} (hf : ∀ s, f s ≤ urlTexts s)
    (hruns : List.Forall₂ (fun b run => run ≠ [] ∧ slashed (unit '/') run ∈ accepted b.items) blocks runs)
    (hproper : runs.flatten = [[]] ∨ ∀ s ∈ runs.flatten, s ∈ values (unit '/'))
    (hlast : ∀ s ∈ runs.flatten.dropLast, ¬IsCatchAll s)
    (hopens : (∃ s ∈ runs.flatten, IsCatchAll s) → ∃ b ∈ blocks.getLast?, b.IsOpen)
    (hother : ∀ items, Block.other items ∈ blocks → (∀ pre name, PathPattern.Item.param pre name .star ∉ items) ∧
      ∀ run ∈ runs, slashed (unit '/') run ∈ accepted items → ∀ s ∈ run, kindOf s = .fixed)
    (hpresent : (∀ s ∈ runs.flatten, [] ∉ f s) ∨ ∃ name, blocks.getLast? = some (.param name .star)) :
    List.Forall₂ (Faces f) blocks runs := by
  induction hruns with
  | nil => exact .nil
  | @cons b run blocks runs hb hrest ih =>
    obtain ⟨hne, haccepts⟩ := hb
    rw [List.flatten_cons] at hproper hlast hopens hpresent
    have hotherRun : ∀ items, b = .other items →
        (∀ pre name, PathPattern.Item.param pre name .star ∉ items) ∧ ∀ s ∈ run, kindOf s = .fixed := by
      rintro items rfl
      obtain ⟨hstarless, hfixed⟩ := hother items List.mem_cons_self
      exact ⟨hstarless, hfixed run List.mem_cons_self haccepts⟩
    have hproperRun : run = [[]] ∨ ∀ s ∈ run, s ∈ values (unit '/') := by
      refine hproper.imp (fun hroot => ?_) fun h s hs => h s (List.mem_append_left _ hs)
      obtain ⟨s, run, rfl⟩ := List.exists_cons_of_ne_nil hne
      obtain ⟨rfl, htail⟩ := List.cons.inj hroot
      rw [(List.append_eq_nil_iff.mp htail).1]
    rcases hrest with _ | ⟨⟨hne', haccepts'⟩, htail⟩
    · -- The last block.
      refine .cons ⟨hne, haccepts, hproperRun, fun hcatch => ?_, hotherRun, ?_⟩ .nil
      · rw [List.flatten_nil, List.append_nil] at hopens
        obtain ⟨_, hmem, hopen⟩ := hopens hcatch
        rw [← Option.some.inj hmem] at hopen
        exact hopen
      · rintro rfl s hs
        obtain h | ⟨name, h⟩ := hpresent
        · exact h s (List.mem_append_left _ hs)
        · cases h
    · rename_i b' run' blocks runs
      have hnonempty : (run' :: runs).flatten ≠ [] := by
        rw [List.flatten_cons]
        exact List.append_ne_nil_of_left_ne_nil hne' _
      rw [List.dropLast_append_of_ne_nil hnonempty] at hlast
      have hclosed : ∀ s ∈ run, ¬IsCatchAll s := fun s hs => hlast s (List.mem_append_left _ hs)
      refine .cons ⟨hne, haccepts, hproperRun, ?_, hotherRun, ?_⟩ (ih ?_ ?_ ?_ ?_ ?_)
      · rintro ⟨s, hs, hcatch⟩
        exact absurd hcatch (hclosed s hs)
      · rintro - s hs hnil
        obtain ⟨-, hkind⟩ | hslash := optional_or_slash (hf s hnil)
        · exact hclosed s hs (.inr hkind)
        · cases hslash
      · refine hproper.imp (fun hroot => ?_) fun h s hs => h s (List.mem_append_right _ hs)
        obtain ⟨s, run, rfl⟩ := List.exists_cons_of_ne_nil hne
        exact absurd (List.append_eq_nil_iff.mp (List.cons.inj hroot).2).2 hnonempty
      · exact fun s hs => hlast s (List.mem_append_right _ hs)
      · rintro ⟨s, hs, hcatch⟩
        exact hopens ⟨s, List.mem_append_right _ hs, hcatch⟩
      · intro items hitems
        obtain ⟨hstarless, hfixed⟩ := hother items (List.mem_cons_of_mem b hitems)
        exact ⟨hstarless, fun r hr => hfixed r (List.mem_cons_of_mem run hr)⟩
      · exact hpresent.imp (fun h s hs => h s (List.mem_append_right _ hs)) id

end Facing

/-! ## From templates to URLs -/

section Reach

variable {f : List ℕ → FormalLanguage ℕ} {blocks : List Block} {pattern : String} {t : List (List ℕ)}

theorem mem_accepted_of_acceptsText {items : List (PathPattern.Item ℕ)} {text : List ℕ} (h : Reads items (units pattern))
    (hacc : AcceptsText pattern text) : text ∈ accepted items := by
  obtain ⟨re, hre, htest⟩ := hacc
  have hne : pattern ≠ "" := by
    rintro rfl
    cases hre
  rw [matcherToRegex_eq h hne] at hre
  rw [← Option.some.inj hre] at htest
  exact (test_wholeText_iff items text).mp htest

/-- What the segments of an accepted template stand for is denoted by the pattern. -/
theorem prod_le_denoted {pat : List (List ℕ)} (hf : ∀ s, f s ≤ urlTexts s)
    (hslash : ∀ items, Block.other items ∈ blocks → StartsWithSlash items)
    (hstarless : ∀ items, Block.other items ∈ blocks → ∀ pre name, PathPattern.Item.param pre name .star ∉ items)
    (hfixed : ∀ items, Block.other items ∈ blocks → ∀ run, run <:+: pat →
      slashed (unit '/') run ∈ accepted items → ∀ s ∈ run, kindOf s = .fixed)
    (hsegs : ∀ s ∈ pat, unit '/' ∉ s) (hproper : pat = [[]] ∨ ∀ s ∈ pat, s ≠ [])
    (hlast : ∀ s ∈ pat.dropLast, ¬IsCatchAll s)
    (hopens : (∃ s ∈ pat, IsCatchAll s) → ∃ b ∈ blocks.getLast?, b.IsOpen)
    (hpresent : (∀ s ∈ pat, [] ∉ f s) ∨ ∃ name, blocks.getLast? = some (.param name .star))
    (hacc : slashed (unit '/') pat ∈ accepted (blocks.flatMap Block.items)) :
    (pat.map f).prod ≤ denoted (unit '/') (blocks.flatMap Block.items) := by
  rw [accepted_blocks] at hacc
  have hheads : ∀ L ∈ blocks.map (fun b => accepted b.items), ∀ w ∈ L, w.head? = some (unit '/') := by
    intro L hL w hw
    obtain ⟨b, hb, rfl⟩ := List.mem_map.mp hL
    exact head_of_mem_accepted (Block.startsWithSlash fun items h => hslash items (h ▸ hb)) hw
  obtain ⟨runs, rfl, hruns⟩ := exists_runs hheads hsegs hacc
  rw [List.forall₂_map_left_iff] at hruns
  refine prod_le_of_faces hf (forall_faces hf hruns ?_ hlast hopens (fun items hitems => ?_) hpresent)
  · exact hproper.imp id fun h s hs => ⟨h s hs, hsegs s hs⟩
  · refine ⟨hstarless items hitems, fun run hrun => hfixed items hitems run ?_⟩
    obtain ⟨front, back, rfl⟩ := List.append_of_mem hrun
    exact ⟨front.flatten, back.flatten, by simp⟩

/-- What a segment stands for when it is there. -/
def presentTexts (s : List ℕ) : FormalLanguage ℕ := {w | w ∈ urlTexts s ∧ w ≠ []}

theorem urlTexts_le_presentTexts {s : List ℕ} (h : ¬IsCatchAll s) : urlTexts s ≤ presentTexts s := by
  intro w hw
  refine ⟨hw, ?_⟩
  rintro rfl
  obtain ⟨-, hkind⟩ | hslash := optional_or_slash hw
  · exact h (.inr hkind)
  · cases hslash

/-- All segments of a URL are there, or the last one is optional and absent. -/
theorem present_or_absent (hlast : ∀ s ∈ t.dropLast, ¬IsCatchAll s) {w : List ℕ} (hw : w ∈ (t.map urlTexts).prod) :
    w ∈ (t.map presentTexts).prod ∨
      (∃ s ∈ t, kindOf s = .optionalCatchAll) ∧ w ∈ (t.dropLast.map presentTexts).prod := by
  have hpresent : ∀ pat : List (List ℕ), (∀ s ∈ pat, ¬IsCatchAll s) →
      (pat.map urlTexts).prod ≤ (pat.map presentTexts).prod := by
    intro pat hpat
    induction pat with
    | nil => exact le_rfl
    | cons s pat ih =>
      obtain ⟨hs, hrest⟩ := List.forall_mem_cons.mp hpat
      rw [List.map_cons, List.prod_cons, List.map_cons, List.prod_cons]
      exact mul_le_mul' (urlTexts_le_presentTexts hs) (ih hrest)
  obtain rfl | ⟨front, s, rfl⟩ := t.eq_nil_or_concat'
  · exact .inl hw
  · rw [List.dropLast_concat] at hlast ⊢
    rw [List.map_append, List.map_singleton, List.prod_append, List.prod_singleton] at hw ⊢
    obtain ⟨x, hx, y, hy, rfl⟩ := Language.mem_mul.mp hw
    have hfront := hpresent front hlast hx
    rcases y with _ | ⟨c, y⟩
    · obtain ⟨-, hkind⟩ | hslash := optional_or_slash hy
      · exact .inr ⟨⟨s, by simp, hkind⟩, by rwa [List.append_nil]⟩
      · cases hslash
    · exact .inl (Language.append_mem_mul hfront ⟨hy, List.cons_ne_nil c y⟩)

/-- A pattern that lines up with a template and accepts it matches all its URLs. -/
theorem LinesUp.urlsOf_le (h : LinesUp blocks pattern t) (hsegs : ∀ s ∈ t, unit '/' ∉ s)
    (hproper : t = [[]] ∨ ∀ s ∈ t, s ≠ []) (hlast : ∀ s ∈ t.dropLast, ¬IsCatchAll s)
    (hacc : AcceptsText pattern (slashed (unit '/') t)) :
    urlsOf t ≤ matched (unit '/') (blocks.flatMap Block.items) := by
  have hmatched : ∀ w ∈ denoted (unit '/') (blocks.flatMap Block.items),
      (if w = [] then units "/" else w) ∈ matched (unit '/') (blocks.flatMap Block.items) := by
    intro w hw
    split_ifs with hnil
    · exact .inr ⟨w, hw, by rw [hnil]; rfl⟩
    · exact .inl hw
  have hpresentTexts : ∀ s, presentTexts s ≤ urlTexts s := fun s w hw => hw.1
  have hwhole := mem_accepted_of_acceptsText h.reads hacc
  rintro url ⟨w, hw, rfl⟩
  by_cases hstar : ∃ name, blocks.getLast? = some (.param name .star)
  · -- The last parameter takes no segment as well.
    exact hmatched w (prod_le_denoted (fun s => le_rfl) h.slash h.starless h.fixed hsegs hproper hlast h.opens
      (.inr hstar) hwhole hw)
  · obtain hw | ⟨hoptional, hw⟩ := present_or_absent hlast hw
    · exact hmatched w (prod_le_denoted hpresentTexts h.slash h.starless h.fixed hsegs hproper hlast h.opens
        (.inl fun s _ hnil => hnil.2 rfl) hwhole hw)
    · -- The URL is one of the template without the segment.
      have hshorter := mem_accepted_of_acceptsText h.reads ((h.optional hoptional).resolve_left hstar)
      by_cases hfront : t.dropLast = []
      · rw [hfront, List.map_nil, List.prod_nil, Language.mem_one] at hw
        rw [withoutLast, if_pos hfront] at hshorter
        have hroot : ∀ s ∈ ([[]] : List (List ℕ)), kindOf s = .fixed := by
          intro s hs
          rw [List.mem_singleton.mp hs]
          decide
        have hslashText : units "/" ∈ (([[]] : List (List ℕ)).map presentTexts).prod := by
          rw [List.map_singleton, List.prod_singleton]
          refine ⟨?_, by decide⟩
          rw [urlTexts, hroot [] List.mem_cons_self]
          rfl
        rw [if_pos hw]
        refine .inl (prod_le_denoted hpresentTexts h.slash h.starless (fun items _ run hrun _ s hs => ?_) ?_ (.inl rfl)
          (fun s hs => by cases hs) ?_ (.inl fun s _ hnil => hnil.2 rfl) hshorter hslashText)
        · exact hroot s (hrun.subset hs)
        · intro s hs
          rw [List.mem_singleton.mp hs]
          exact List.not_mem_nil
        · rintro ⟨s, hs, hcatch | hcatch⟩
          · rw [hroot s hs] at hcatch
            cases hcatch
          · rw [hroot s hs] at hcatch
            cases hcatch
      · rw [withoutLast, if_neg hfront] at hshorter
        have hsub : ∀ s ∈ t.dropLast, s ∈ t := fun s hs => List.mem_of_mem_dropLast hs
        refine hmatched w (prod_le_denoted hpresentTexts h.slash h.starless (fun items hitems run hrun => ?_)
          (fun s hs => hsegs s (hsub s hs)) (.inr fun s hs => ?_) (fun s hs => hlast s (List.mem_of_mem_dropLast hs)) ?_
          (.inl fun s _ hnil => hnil.2 rfl) hshorter hw)
        · exact h.fixed items hitems run (hrun.trans (List.dropLast_prefix t).isInfix)
        · obtain rfl | hne := hproper
          · exact absurd rfl hfront
          · exact hne s (hsub s hs)
        · rintro ⟨s, hs, hcatch⟩
          exact absurd hcatch (hlast s hs)

end Reach

/-! ## The routes of a middleware -/

/-- What Next.js takes from a file: the entries of its matcher, or none when it declares no matcher. The strings that
are written in the matcher are among them. -/
def ReadsMatcher (declared : ScannedFile → Option (List String)) : Prop :=
  ∀ file value, (matcherValues file).getLast? = some value →
    ∃ entries, declared file = some entries ∧ ∀ s ∈ stringLiteralsOf value, s ∈ entries

/-- An entry matches the path of a URL. -/
def MatchesUrl (entry : String) (url : List ℕ) : Prop :=
  ∃ items, Reads items (units entry) ∧ url ∈ matched (unit '/') items

/-- A route that becomes authenticated has the middleware before all its URLs: they are matched by declared entries, or
no matcher is declared. -/
def NotOverPropagated (declared : ScannedFile → Option (List String)) (project : List ScannedFile) (dir : String)
    (routes : List ScannedRoute) : Prop :=
  ∀ rr ∈ routes.zip (applyNextMiddlewareAuth project dir routes),
    rr.1.authState = .unknown → rr.2.authState = .authenticated →
      ∃ mw guard, authMiddleware project dir = some (mw, guard) ∧
        (declared mw = none ∨ ∃ entries, declared mw = some entries ∧
          ∀ url ∈ urlsOf (segmentsOf rr.1.path), ∃ entry ∈ entries, MatchesUrl entry url)

/-- Where the matcher of the middleware accepts the template of a route, one of its strings does so and lines up with the
template. A matcher of which no string can be read accepts everything, and has none. -/
def ReadsAndLinesUp (declared : ScannedFile → Option (List String)) (mw : ScannedFile) (r : ScannedRoute) : Prop :=
  declared mw = none ∨
    (matchesPath (patternsOf mw) r.path = true → IsTemplate r.path ∧
      ∃ pattern ∈ matchersOf mw, AcceptsText pattern (units r.path) ∧
        ∃ blocks, LinesUp blocks pattern (segmentsOf r.path))

section Propagation

variable {declared : ScannedFile → Option (List String)}

theorem slashed_segmentsOf {path : String} (h : (units path).head? = some (unit '/')) :
    slashed (unit '/') (segmentsOf path) = units path := by
  have hslashed : ∀ segs : List (List ℕ), segs ≠ [] →
      slashed (unit '/') segs = unit '/' :: [unit '/'].intercalate segs := by
    intro segs hne
    induction segs with
    | nil => exact absurd rfl hne
    | cons s segs ih =>
      rcases segs with _ | ⟨s', segs⟩
      · simp [slashed, List.intercalate]
      · have htail := ih (List.cons_ne_nil s' segs)
        rw [List.intercalate_cons_cons, slashed, List.flatMap_cons, List.append_assoc]
        exact congrArg (unit '/' :: s ++ ·) htail
  rw [segmentsOf, hslashed _ (List.splitOn_ne_nil _ _), List.intercalate_splitOn]
  rcases htext : units path with _ | ⟨c, cs⟩
  · rw [htext] at h
    cases h
  · rw [htext] at h
    rw [← Option.some.inj h]
    rfl

/-- One route: it lines up, so its URLs are matched. -/
theorem ReadsAndLinesUp.covered (hdeclared : ReadsMatcher declared) {mw : ScannedFile} {r : ScannedRoute}
    (h : ReadsAndLinesUp declared mw r) (hmatches : matchesPath (patternsOf mw) r.path = true) :
    declared mw = none ∨ ∃ entries, declared mw = some entries ∧
      ∀ url ∈ urlsOf (segmentsOf r.path), ∃ entry ∈ entries, MatchesUrl entry url := by
  obtain hnone | hlines := h
  · exact .inl hnone
  · obtain ⟨htemplate, pattern, hpattern, hacc, blocks, hblocks⟩ := hlines hmatches
    rcases hvalue : (matcherValues mw).getLast? with _ | value
    · rw [matchersOf, hvalue] at hpattern
      cases hpattern
    · obtain ⟨entries, hentries, hliterals⟩ := hdeclared mw value hvalue
      rw [matchersOf, hvalue] at hpattern
      refine .inr ⟨entries, hentries, fun url hurl => ⟨pattern, hliterals pattern hpattern, ?_⟩⟩
      rw [← slashed_segmentsOf htemplate.slash] at hacc
      exact ⟨_, hblocks.reads,
        hblocks.urlsOf_le (fun s hs => not_mem_of_mem_splitOn hs) htemplate.proper htemplate.last hacc hurl⟩

/-- Where the matcher is read and lines up with the unknown routes it accepts, auth is not over-propagated. -/
theorem middlewareAuth_not_overPropagated (hdeclared : ReadsMatcher declared) (project : List ScannedFile)
    (dir : String) (routes : List ScannedRoute)
    (h : ∀ mw guard, authMiddleware project dir = some (mw, guard) →
      ∀ r ∈ routes, r.authState = .unknown → ReadsAndLinesUp declared mw r) :
    NotOverPropagated declared project dir routes := by
  rintro ⟨r, r'⟩ hmem hunknown hauthenticated
  rcases hmw : authMiddleware project dir with _ | ⟨mw, guard⟩
  · -- Without such a middleware no route changes.
    rw [applyNextMiddlewareAuth, hmw] at hmem
    have hsame : r = r' := by
      obtain ⟨i, hi, hget⟩ := List.mem_iff_getElem.mp hmem
      rw [List.getElem_zip] at hget
      exact (Prod.mk.inj hget).1.symm.trans (Prod.mk.inj hget).2
    rw [← hsame] at hauthenticated
    exact absurd (hunknown.symm.trans hauthenticated) (by decide)
  · rw [applyNextMiddlewareAuth, hmw, List.zip_map_right] at hmem
    obtain ⟨⟨r₀, r₁⟩, hzip, heq⟩ := List.mem_map.mp hmem
    have hsame : r₀ = r₁ := by
      obtain ⟨i, hi, hget⟩ := List.mem_iff_getElem.mp hzip
      rw [List.getElem_zip] at hget
      exact (Prod.mk.inj hget).1.symm.trans (Prod.mk.inj hget).2
    subst hsame
    obtain ⟨rfl, rfl⟩ := Prod.mk.inj heq
    refine ⟨mw, guard, rfl, ?_⟩
    refine (h mw guard hmw r₀ (List.of_mem_zip hzip).1 hunknown).covered hdeclared ?_
    by_contra hfalse
    have hkept : upgrade mw guard r₀ = r₀ := if_neg fun hcond => hfalse hcond.2
    change (upgrade mw guard r₀).authState = _ at hauthenticated
    rw [hkept] at hauthenticated
    exact absurd (hunknown.symm.trans hauthenticated) (by decide)

end Propagation

/-- The entry that an element of a matcher is: a string, or the `source` of an object. -/
private def elementSource : Expr → Option String
  | .literal text => some text
  | .object properties =>
    match properties.find? (·.1 = "source") with
    | some (_, .literal text) => some text
    | _ => none
  | _ => none

/-- The entries of the last matcher of a file. -/
private def declaredSources (file : ScannedFile) : Option (List String) :=
  (matcherValues file).getLast?.map fun
    | .array elements => elements.filterMap elementSource
    | value => stringLiteralsOf value

private theorem readsMatcher_declaredSources : ReadsMatcher declaredSources := by
  intro file value hvalue
  refine ⟨_, by rw [declaredSources, hvalue, Option.map_some], fun text htext => ?_⟩
  rcases value
  case array elements =>
    obtain ⟨e, he, hliteral⟩ := List.mem_filterMap.mp htext
    refine List.mem_filterMap.mpr ⟨e, he, ?_⟩
    rcases e <;> simp_all [elementSource]
  all_goals exact htext

/-- A middleware with a session check and a matcher. -/
private def sessionMiddleware (matcher : Expr) : ScannedFile where
  filePath := "/w/middleware.ts"
  fullText := "export default async (req) => getSession(req)"
  variableStatements := [{
    isExported := true
    declarations := [{ name := "config", line := 3, initializer := some (.object [("matcher", matcher)]) }] }]

/-- A page, about whose auth nothing is known. -/
private def openPage (path : String) : ScannedRoute where
  id := "route_get"
  path := path
  method := .http .get
  authState := .unknown
  isApiRoute := false
  handler := { file := "app/page.tsx", line := 1 }
  authGate := none

/-- `/a/:path*` and `/a/[id]`. -/
theorem middlewareAuth_not_overPropagated_users :
    NotOverPropagated declaredSources [sessionMiddleware (.literal "/a/:path*")] "/w" [openPage "/a/[id]"] := by
  refine middlewareAuth_not_overPropagated readsMatcher_declaredSources _ _ _ ?_
  intro mw guard hmw r hr _
  have hfile : mw = sessionMiddleware (.literal "/a/:path*") := by
    obtain ⟨sf, hfind, hguard⟩ := Option.bind_eq_some_iff.mp hmw
    obtain ⟨g, -, heq⟩ := Option.map_eq_some_iff.mp hguard
    rw [← (Prod.mk.inj heq).1]
    exact List.mem_singleton.mp (List.mem_of_find?_eq_some hfind)
  obtain rfl := List.mem_singleton.mp hr
  subst hfile
  have hsegments : segmentsOf "/a/[id]" = [units "a", units "[id]"] := by decide +kernel
  have hkinds : kindOf (units "a") = .fixed ∧ kindOf (units "[id]") = .dynamic := by decide +kernel
  have hreads : Reads [.lit (unit '/'), .lit (unit 'a'), .param (units "/") (units "path") .star]
      (units "/a/:path*") := by
    refine ⟨?_, ?_, by decide +kernel⟩
    · rintro i (_ | ⟨_, _ | ⟨_, _ | ⟨_, _ | _⟩⟩⟩)
      · exact (by decide +kernel : isReserved (unit '/') = false)
      · exact (by decide +kernel : isReserved (unit 'a') = false)
      · refine ⟨?_, ?_, ?_⟩ <;> decide +kernel
    · exact .cons_cons trivial (.cons_cons trivial (.singleton _))
  have hclosed : ∀ s ∈ [units "a", units "[id]"], kindOf s = .fixed ∨ kindOf s = .dynamic := by
    intro s hs
    obtain rfl | rfl := List.mem_pair.mp hs
    · exact .inl hkinds.1
    · exact .inr hkinds.2
  have hnotCatchAll : ∀ s ∈ [units "a", units "[id]"], ¬IsCatchAll s := by
    rintro s hs (hcatch | hcatch)
    all_goals
      obtain h | h := hclosed s hs
      all_goals
        rw [hcatch] at h
        cases h
  refine .inr fun _ => ⟨⟨by decide +kernel, .inr ?_, ?_⟩, "/a/:path*", by decide +kernel, ?_,
    [.other [.lit (unit '/'), .lit (unit 'a')], .param (units "path") .star], ?_⟩
  · change ∀ s ∈ segmentsOf "/a/[id]", s ≠ []
    rw [hsegments]
    decide +kernel
  · intro s hs
    change s ∈ (segmentsOf "/a/[id]").dropLast at hs
    rw [hsegments] at hs
    exact hnotCatchAll s (List.mem_of_mem_dropLast hs)
  · refine ⟨_, matcherToRegex_eq hreads (by decide), ?_⟩
    decide +kernel
  · change LinesUp _ _ (segmentsOf "/a/[id]")
    rw [hsegments]
    constructor
    · exact hreads
    · rintro items (_ | ⟨_, _ | ⟨_, _ | _⟩⟩)
      exact ⟨_, _, rfl, .inl rfl⟩
    · rintro items (_ | ⟨_, _ | ⟨_, _ | _⟩⟩) pre name hmem
      simp at hmem
    · rintro items (_ | ⟨_, _ | ⟨_, _ | _⟩⟩) run hrun hacc s hs
      have htext : slashed (unit '/') run = units "/a" := by
        have hword := accepted_le_denoted (fun pre name hmem => by simp at hmem) hacc
        obtain ⟨x, hx, y, ⟨z, hz, u, hu, rfl⟩, heq⟩ := hword
        rw [← heq, show x = [unit '/'] from hx, show z = [unit 'a'] from hz, show u = [] from hu]
        rfl
      rw [eq_singleton_of_slashed htext (by decide)] at hs
      rw [List.mem_singleton.mp hs]
      exact hkinds.1
    · exact fun _ => ⟨_, rfl, rfl⟩
    · exact fun _ => .inl ⟨_, rfl⟩

/-- A unit that is not a part of a parameter stands for itself. -/
private theorem exists_lit {items : List (PathPattern.Item ℕ)} {c d : ℕ} {text : List ℕ} (hvalid : ∀ i ∈ items, ItemValid i)
    (htext : items.flatMap itemText = c :: d :: text) (hc : c ≠ unit ':' ∧ c ≠ unit '*') (hd : d ≠ unit ':') :
    ∃ rest, items = .lit c :: rest ∧ (∀ i ∈ rest, ItemValid i) ∧ rest.flatMap itemText = d :: text := by
  rcases items with _ | ⟨i, rest⟩
  · cases htext
  · obtain ⟨hi, hrest⟩ := List.forall_mem_cons.mp hvalid
    rw [List.flatMap_cons] at htext
    rcases i with c' | _ | ⟨pre, name, m⟩
    · obtain ⟨rfl, htail⟩ := List.cons.inj htext
      exact ⟨rest, rfl, hrest, htail⟩
    · exact absurd (List.cons.inj htext).1.symm hc.2
    · have hpre := hi.1
      rw [List.mem_cons, List.mem_pair] at hpre
      rcases hpre with rfl | rfl | rfl
      · exact absurd (List.cons.inj htext).1.symm hc.1
      · exact absurd (List.cons.inj (List.cons.inj htext).2).1.symm hd
      · exact absurd (List.cons.inj (List.cons.inj htext).2).1.symm hd

/-- `/users` is authenticated by a middleware for `/admin/:path*`, since the matcher is an object. -/
theorem object_matcher_overPropagated : ¬∀ declared, ReadsMatcher declared →
    ∀ project dir routes, NotOverPropagated declared project dir routes := by
  intro h
  let mw := sessionMiddleware (.array [.object [("source", .literal "/admin/:path*")]])
  have hmatches : matchesPath (patternsOf mw) "/users" = true := by decide +kernel
  have hmw : authMiddleware [mw] "/w" = some (mw, "getSession") := by
    have hfile : isMiddlewareFile (relPath mw.filePath "/w") = true := by decide +kernel
    have hguard : authGuard mw.fullText = some "getSession" := by decide +kernel
    have hfind : [mw].find? (fun sf => isMiddlewareFile (relPath sf.filePath "/w")) = some mw := by
      rw [List.find?_cons, hfile]
    rw [authMiddleware, hfind, Option.bind_some, hguard]
    rfl
  have hupgrade : (upgrade mw "getSession" (openPage "/users")).authState = .authenticated := by
    rw [upgrade, if_pos ⟨rfl, hmatches⟩]
  have hzip : (openPage "/users", upgrade mw "getSession" (openPage "/users")) ∈
      [openPage "/users"].zip (applyNextMiddlewareAuth [mw] "/w" [openPage "/users"]) := by
    rw [applyNextMiddlewareAuth, hmw]
    exact List.mem_cons_self
  obtain ⟨mw', guard, hmw', hcovered⟩ :=
    h declaredSources readsMatcher_declaredSources [mw] "/w" [openPage "/users"] _ hzip rfl hupgrade
  rw [hmw] at hmw'
  obtain ⟨rfl, -⟩ := Prod.mk.inj (Option.some.inj hmw')
  have hdeclared : declaredSources mw = some ["/admin/:path*"] := by decide +kernel
  have hurl : units "/users" ∈ urlsOf (segmentsOf (openPage "/users").path) := by
    have hsegments : segmentsOf "/users" = [units "users"] := by decide +kernel
    have hkind : kindOf (units "users") = .fixed := by decide +kernel
    change units "/users" ∈ urlsOf (segmentsOf "/users")
    rw [hsegments]
    refine ⟨units "/users", ?_, rfl⟩
    rw [List.map_singleton, List.prod_singleton, urlTexts, hkind]
    rfl
  obtain hnone | ⟨entries, hentries, hall⟩ := hcovered
  · rw [hdeclared] at hnone
    cases hnone
  · rw [hdeclared] at hentries
    obtain ⟨entry, hentry, items, hreads, hmatched⟩ := hall _ hurl
    rw [← Option.some.inj hentries, List.mem_singleton] at hentry
    subst hentry
    -- The pattern starts with `/a`, and the path does not.
    obtain ⟨rest, rfl, hvalid, htext⟩ := exists_lit hreads.valid hreads.text (by decide) (by decide)
    obtain ⟨rest, rfl, -, -⟩ := exists_lit hvalid htext (by decide) (by decide)
    have hdenoted : ∀ w ∈ denoted (unit '/') (.lit (unit '/') :: .lit (unit 'a') :: rest),
        ∃ tail, w = unit '/' :: unit 'a' :: tail := by
      rintro w ⟨x, hx, y, ⟨z, hz, u, -, rfl⟩, rfl⟩
      exact ⟨u, by rw [show x = [unit '/'] from hx, show z = [unit 'a'] from hz]; rfl⟩
    obtain hw | ⟨w, hw, heq⟩ := hmatched
    · obtain ⟨tail, htail⟩ := hdenoted _ hw
      exact absurd (List.cons.inj (List.cons.inj htail).2).1 (by decide)
    · obtain ⟨tail, rfl⟩ := hdenoted w hw
      exact absurd (List.cons.inj (List.cons.inj heq).2).1 (by decide)

end MontrSecure.Next
