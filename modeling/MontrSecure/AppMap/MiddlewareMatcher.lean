import MontrSecure.AppMap.NextRoutes
import MontrSecure.Text.Languages
import Mathlib.Data.List.Chain

/-!
# What a matcher of the middleware accepts

A pattern of the middleware is a text. This is how the text of a path pattern reads, and what `matcherToRegex` makes of
it: each replacement acts on the texts of the items one by one, and the expression spells a language for each item.
-/

namespace MontrSecure.Next

open Text Text.Regex Text.PathPattern

/-! ## Readings -/

/-- How a modifier is written. -/
def modifierText : Modifier → List ℕ
  | .one => []
  | .optional => units "?"
  | .star => units "*"
  | .plus => units "+"

/-- How an item is written. -/
def itemText : PathPattern.Item ℕ → List ℕ
  | .lit c => [c]
  | .wildcard => units "*"
  | .param pre name m => pre ++ unit ':' :: name ++ modifierText m

/-- The units that are not written for themselves. -/
def isReserved (c : ℕ) : Bool := c ∈ units ":*?+()\x7b\x7d\\"

example : isReserved (unit '*') = true := by decide +kernel

/-- A unit for itself, or a parameter with a name; a slash or a point before it is a part of it. -/
def ItemValid : PathPattern.Item ℕ → Prop
  | .lit c => isReserved c = false
  | .wildcard => True
  | .param pre name _ => pre ∈ [[], units "/", units "."] ∧ name ≠ [] ∧ ∀ c ∈ name, isWord c = true

/-- What may follow an item, so that the text reads in one way. -/
def Precedes : PathPattern.Item ℕ → PathPattern.Item ℕ → Prop
  | .param _ _ .one, .wildcard => False
  | .param _ _ .one, .lit c => isWord c = false
  | .lit c, .param [] _ _ => c ≠ unit '/' ∧ c ≠ unit '.'
  | _, _ => True

/-- A text reads as the items. -/
structure Reads (items : List (PathPattern.Item ℕ)) (text : List ℕ) : Prop where
  valid : ∀ i ∈ items, ItemValid i
  chain : items.IsChain Precedes
  text : items.flatMap itemText = text

/-! ## Replacements -/

/-- No name goes on with such a unit, and it is no modifier. -/
def Stops (c : ℕ) : Prop := isWord c = false ∧ c ≠ unit '*' ∧ c ≠ unit '+'

/-- What is behind a parameter that has no modifier does not go on with its name. -/
def FollowedBy (i : PathPattern.Item ℕ) (rest : List ℕ) : Prop :=
  ∀ pre name, i = .param pre name .one → ∀ c ∈ rest.head?, Stops c

/-- The text of an item whose units are escaped, when a parameter with `*` is written as `starred` says. -/
def escapedText (starred : List ℕ → List ℕ) : PathPattern.Item ℕ → List ℕ
  | .lit c => escapeSyntax [c]
  | .wildcard => units "*"
  | .param pre name .star => escapeSyntax pre ++ starred name
  | .param pre name m => escapeSyntax pre ++ unit ':' :: name ++ escapeSyntax (modifierText m)

/-- The text of an item after the replacements. -/
def replacedText : PathPattern.Item ℕ → List ℕ
  | .lit c => escapeSyntax [c]
  | .wildcard => units ".*"
  | .param pre _ .star => escapeSyntax pre ++ units "..*"
  | .param pre _ m => escapeSyntax pre ++ units "[^/]+" ++ escapeSyntax (modifierText m)

theorem escapeSyntax_append (v w : List ℕ) : escapeSyntax (v ++ w) = escapeSyntax v ++ escapeSyntax w :=
  List.flatMap_append

theorem isSyntaxUnit_of_isWord {c : ℕ} (h : isWord c = true) : isSyntaxUnit c = false := by
  have hall : ∀ d ∈ units ".+^$\x7b\x7d()|[]\\", isWord d = false := by decide
  refine decide_eq_false fun hmem => ?_
  rw [hall c hmem] at h
  cases h

theorem escapeSyntax_of_plain {w : List ℕ} (h : ∀ c ∈ w, isSyntaxUnit c = false) : escapeSyntax w = w := by
  induction w with
  | nil => rfl
  | cons c w ih =>
    obtain ⟨hc, hw⟩ := List.forall_mem_cons.mp h
    have hstep : escapeSyntax (c :: w) = escapeSyntax [c] ++ escapeSyntax w := escapeSyntax_append [c] w
    rw [hstep, ih hw, escapeSyntax, List.flatMap_singleton, hc]
    rfl

theorem ne_colon_of_mem_escapeSyntax {w : List ℕ} (h : unit ':' ∉ w) : unit ':' ∉ escapeSyntax w := by
  intro hmem
  obtain ⟨c, hc, hin⟩ := List.mem_flatMap.mp hmem
  have hunit : unit ':' ≠ unit '\\' := by decide
  split_ifs at hin
  · obtain heq | heq := List.mem_pair.mp hin
    · exact hunit heq
    · exact h (heq ▸ hc)
  · exact h (List.mem_singleton.mp hin ▸ hc)

section Replacing

variable {suffix new : List ℕ} {cs : List ℕ}

theorem replaceParamFrom_skip (k : ℕ) :
    replaceParamFrom suffix new k cs = replaceParamFrom suffix new 0 (cs.drop k) := by
  induction cs generalizing k with
  | nil =>
    rw [List.drop_nil]
    rcases k with _ | k <;> rfl
  | cons c cs ih =>
    rcases k with _ | k
    · rfl
    · exact ih k

theorem replaceParamFrom_append {w : List ℕ} (hw : unit ':' ∉ w) :
    replaceParamFrom suffix new 0 (w ++ cs) = w ++ replaceParamFrom suffix new 0 cs := by
  induction w with
  | nil => rfl
  | cons c w ih =>
    have hc : c ≠ unit ':' := fun h => hw (h ▸ List.mem_cons_self)
    rw [List.cons_append, replaceParamFrom, if_neg fun h => hc h.1, ih fun h => hw (List.mem_cons_of_mem c h),
      List.cons_append]

theorem takeWhile_isWord {name : List ℕ} (hname : ∀ c ∈ name, isWord c = true)
    (hcs : ∀ c ∈ cs.head?, isWord c = false) : (name ++ cs).takeWhile isWord = name := by
  rw [List.takeWhile_append_of_pos hname]
  rcases cs with _ | ⟨c, cs⟩
  · rw [List.takeWhile_nil, List.append_nil]
  · rw [List.takeWhile_cons_of_neg (by rw [hcs c rfl]; exact Bool.false_ne_true), List.append_nil]

/-- A parameter with the suffix is replaced. -/
theorem replaceParamFrom_param {name : List ℕ} (hne : name ≠ []) (hname : ∀ c ∈ name, isWord c = true)
    (hstop : ∀ c ∈ (suffix ++ cs).head?, isWord c = false) :
    replaceParamFrom suffix new 0 (unit ':' :: name ++ (suffix ++ cs)) = new ++ replaceParamFrom suffix new 0 cs := by
  have htake := takeWhile_isWord hname hstop
  have hsuffix : suffix.isPrefixOf (suffix ++ cs) = true :=
    List.isPrefixOf_iff_prefix.mpr (List.prefix_append suffix cs)
  rw [List.cons_append, replaceParamFrom, htake, List.drop_left, if_pos ⟨rfl, hne, hsuffix⟩,
    replaceParamFrom_skip, ← List.append_assoc, List.drop_left' (by simp)]

/-- One without it stays. -/
theorem replaceParamFrom_keep {name : List ℕ} (hname : ∀ c ∈ name, isWord c = true)
    (hstop : ∀ c ∈ cs.head?, isWord c = false) (hsuffix : suffix.isPrefixOf cs = false) :
    replaceParamFrom suffix new 0 (unit ':' :: name ++ cs) =
      unit ':' :: name ++ replaceParamFrom suffix new 0 cs := by
  have htake := takeWhile_isWord hname hstop
  have hcolon : unit ':' ∉ name := fun h => absurd (hname _ h) (by decide)
  rw [List.cons_append, replaceParamFrom, htake, List.drop_left, if_neg fun h => by simp [hsuffix] at h,
    replaceParamFrom_append hcolon]
  rfl

end Replacing

section Items

variable {items : List (PathPattern.Item ℕ)} {starred : List ℕ → List ℕ}

/-- What is done to a text item by item is done to the whole text. -/
theorem flatMap_eq_of_step {f : List ℕ → List ℕ} {before after : PathPattern.Item ℕ → List ℕ} (hnil : f [] = [])
    (hstep : ∀ i rest, ItemValid i → FollowedBy i rest → f (before i ++ rest) = after i ++ f rest)
    (hhead : ∀ i j rest, ItemValid j → Precedes i j → FollowedBy i (before j ++ rest))
    (hvalid : ∀ i ∈ items, ItemValid i) (hchain : items.IsChain Precedes) :
    f (items.flatMap before) = items.flatMap after := by
  induction items with
  | nil => exact hnil
  | cons i items ih =>
    obtain ⟨hi, hitems⟩ := List.forall_mem_cons.mp hvalid
    have hfollowed : FollowedBy i (items.flatMap before) := by
      rcases items with _ | ⟨j, items⟩
      · intro pre name _ c hc
        cases hc
      · exact hhead i j _ (hitems j List.mem_cons_self) (List.isChain_cons_cons.mp hchain).1
    rw [List.flatMap_cons, List.flatMap_cons, hstep i _ hi hfollowed, ih hitems hchain.tail]

theorem escapeSyntax_of_mem {pre : List ℕ} (h : pre ∈ [[], units "/", units "."]) :
    unit ':' ∉ escapeSyntax pre ∧ unit '*' ∉ escapeSyntax pre ∧ ∀ c ∈ (escapeSyntax pre).head?, Stops c := by
  have hall : ∀ pre ∈ [[], units "/", units "."], unit ':' ∉ escapeSyntax pre ∧ unit '*' ∉ escapeSyntax pre ∧
      ∀ c ∈ (escapeSyntax pre).head?, isWord c = false ∧ c ≠ unit '*' ∧ c ≠ unit '+' := by decide
  exact hall pre h

theorem head_append {v w : List ℕ} {c : ℕ} (hc : c ∈ (v ++ w).head?) : c ∈ v.head? ∨ v = [] ∧ c ∈ w.head? := by
  rcases v with _ | ⟨d, v⟩
  · exact .inr ⟨rfl, hc⟩
  · exact .inl hc

/-- After the escapes, nothing behind a parameter goes on with its name. -/
theorem followedBy_escapedText (hstarred : ∀ name, starred name ≠ [] ∧ ∀ c ∈ (starred name).head?, Stops c)
    (i j : PathPattern.Item ℕ) (rest : List ℕ) (hj : ItemValid j) (hij : Precedes i j) :
    FollowedBy i (escapedText starred j ++ rest) := by
  rintro pre name rfl c hc
  have hcolon : Stops (unit ':') := by
    refine ⟨?_, ?_, ?_⟩ <;> decide
  rcases j with d | _ | ⟨pre', name', m⟩
  · -- A unit, or its escape.
    have hcases : c = d ∨ c = unit '\\' := by
      rw [escapedText, escapeSyntax, List.flatMap_singleton] at hc
      split_ifs at hc
      · exact .inr (Option.some.inj hc).symm
      · exact .inl (Option.some.inj hc).symm
    rcases hcases with rfl | rfl
    · have hreserved : ∀ e ∈ [unit '*', unit '+'], isReserved e = true := by decide
      have hfree : c ∉ [unit '*', unit '+'] := by
        intro hmem
        exact Bool.false_ne_true (Eq.trans (Eq.symm hj) (hreserved c hmem))
      exact ⟨hij, fun h => hfree (h ▸ List.mem_cons_self), fun h => hfree (h ▸ by simp)⟩
    · refine ⟨?_, ?_, ?_⟩ <;> decide
  · exact hij.elim
  · obtain ⟨-, -, hpre⟩ := escapeSyntax_of_mem hj.1
    rcases m
    case star =>
      rw [escapedText, List.append_assoc] at hc
      obtain hc | ⟨-, hc⟩ := head_append hc
      · exact hpre c hc
      · obtain hc | ⟨hnil, -⟩ := head_append hc
        · exact (hstarred name').2 c hc
        · exact absurd hnil (hstarred name').1
    all_goals
      rw [escapedText, List.append_assoc, List.append_assoc] at hc
      obtain hc | ⟨-, hc⟩ := head_append hc
      · exact hpre c hc
      · rw [← Option.some.inj hc]
        exact hcolon
      · exact fun h => nomatch h

/-- The escapes, item by item. -/
theorem escapeSyntax_items (hvalid : ∀ i ∈ items, ItemValid i) :
    escapeSyntax (items.flatMap itemText) =
      items.flatMap (escapedText fun name => unit ':' :: name ++ units "*") := by
  have hcolon : ∀ w, escapeSyntax (unit ':' :: w) = unit ':' :: escapeSyntax w := fun w =>
    escapeSyntax_append [unit ':'] w
  induction items with
  | nil => rfl
  | cons i items ih =>
    obtain ⟨hi, hitems⟩ := List.forall_mem_cons.mp hvalid
    rw [List.flatMap_cons, List.flatMap_cons, escapeSyntax_append, ih hitems]
    congr 1
    rcases i with c | _ | ⟨pre, name, m⟩
    · rfl
    · decide
    · obtain ⟨-, -, hname⟩ := hi
      have hsame : escapeSyntax name = name :=
        escapeSyntax_of_plain fun c hc => isSyntaxUnit_of_isWord (hname c hc)
      have hstar : escapeSyntax (units "*") = units "*" := by decide
      rcases m
      case star =>
        rw [itemText, escapedText, escapeSyntax_append, escapeSyntax_append, hcolon, hsame, modifierText, hstar,
          List.append_assoc]
      all_goals
        rw [itemText, escapedText, escapeSyntax_append, escapeSyntax_append, hcolon, hsame]
        exact fun h => nomatch h

theorem ne_colon_escapeSyntax_singleton {c : ℕ} (h : ItemValid (.lit c)) : unit ':' ∉ escapeSyntax [c] := by
  refine ne_colon_of_mem_escapeSyntax fun hmem => ?_
  have hreserved : isReserved (unit ':') = true := by decide
  exact Bool.false_ne_true (Eq.trans (Eq.symm h) (List.mem_singleton.mp hmem ▸ hreserved))

section Steps

variable {pre name rest suffix new : List ℕ} {m : Modifier}

theorem escapedText_param (hm : m ≠ .star) :
    escapedText starred (.param pre name m) =
      escapeSyntax pre ++ (unit ':' :: name ++ escapeSyntax (modifierText m)) := by
  rcases m
  case star => exact absurd rfl hm
  all_goals exact List.append_assoc _ _ _

theorem replacedText_param (hm : m ≠ .star) :
    replacedText (.param pre name m) =
      escapeSyntax pre ++ (units "[^/]+" ++ escapeSyntax (modifierText m)) := by
  rcases m
  case star => exact absurd rfl hm
  all_goals exact List.append_assoc _ _ _

/-- What is behind the name of a parameter that has no `*`. -/
theorem stops_behind_name (hm : m ≠ .star) (hfollowed : FollowedBy (.param pre name m) rest) :
    ∀ c ∈ (escapeSyntax (modifierText m) ++ rest).head?, Stops c := by
  have hmodifiers : ∀ m ∈ [Modifier.optional, .plus], escapeSyntax (modifierText m) ≠ [] ∧
      ∀ c ∈ (escapeSyntax (modifierText m)).head?, isWord c = false ∧ c ≠ unit '*' ∧ c ≠ unit '+' := by
    decide
  intro c hc
  rcases m with _ | _ | _ | _
  · exact hfollowed pre name rfl c hc
  · obtain hc | ⟨hnil, -⟩ := head_append hc
    · exact (hmodifiers .optional (by simp)).2 c hc
    · exact absurd hnil (hmodifiers .optional (by simp)).1
  · exact absurd rfl hm
  · obtain hc | ⟨hnil, -⟩ := head_append hc
    · exact (hmodifiers .plus (by simp)).2 c hc
    · exact absurd hnil (hmodifiers .plus (by simp)).1

theorem ne_colon_modifier (m : Modifier) : unit ':' ∉ escapeSyntax (modifierText m) := by
  rcases m <;> decide

/-- The replacements of `:name*` and `:name+` leave the other parameters. -/
theorem replaceParamFrom_other (hm : m ≠ .star) (hvalid : ItemValid (.param pre name m))
    (hfollowed : FollowedBy (.param pre name m) rest) {d : ℕ} (hd : d ∈ [unit '*', unit '+'])
    {starred' : List ℕ → List ℕ} :
    replaceParamFrom [d] new 0 (escapedText starred (.param pre name m) ++ rest) =
      escapedText starred' (.param pre name m) ++ replaceParamFrom [d] new 0 rest := by
  obtain ⟨hpre, -, hname⟩ := hvalid
  have hstops := stops_behind_name hm hfollowed
  have hsuffix : [d].isPrefixOf (escapeSyntax (modifierText m) ++ rest) = false := by
    rcases hbehind : escapeSyntax (modifierText m) ++ rest with _ | ⟨c, cs⟩
    · rfl
    · obtain ⟨-, hstar, hplus⟩ := hstops c (by rw [hbehind]; rfl)
      have hne : d ≠ c := by
        rintro rfl
        obtain h | h := List.mem_pair.mp hd
        · exact hstar h
        · exact hplus h
      simp [List.isPrefixOf, hne]
  rw [escapedText_param hm, escapedText_param hm, List.append_assoc, List.append_assoc, List.append_assoc,
    replaceParamFrom_append (escapeSyntax_of_mem hpre).1,
    replaceParamFrom_keep hname (fun c hc => (hstops c hc).1) hsuffix,
    replaceParamFrom_append (ne_colon_modifier m), List.append_assoc]

end Steps

/-! ## The replacements, one after the other -/

theorem starred_kept (name : List ℕ) : unit ':' :: name ++ units "*" ≠ [] ∧
    ∀ c ∈ (unit ':' :: name ++ units "*").head?, Stops c := by
  have hcolon : isWord (unit ':') = false ∧ unit ':' ≠ unit '*' ∧ unit ':' ≠ unit '+' := by decide
  refine ⟨List.cons_ne_nil _ _, fun c hc => ?_⟩
  rw [← Option.some.inj hc]
  exact hcolon

theorem starred_replaced : units ".*" ≠ [] ∧ ∀ c ∈ (units ".*").head?, Stops c := by
  have hall : units ".*" ≠ [] ∧
      ∀ c ∈ (units ".*").head?, isWord c = false ∧ c ≠ unit '*' ∧ c ≠ unit '+' := by decide
  exact hall

/-- `:name*` becomes `.*`. -/
theorem replaceParam_star (hvalid : ∀ i ∈ items, ItemValid i) (hchain : items.IsChain Precedes) :
    replaceParam "*" ".*" (items.flatMap (escapedText fun name => unit ':' :: name ++ units "*")) =
      items.flatMap (escapedText fun _ => units ".*") := by
  refine flatMap_eq_of_step rfl (fun i rest hi hfollowed => ?_)
    (followedBy_escapedText starred_kept) hvalid hchain
  rcases i with c | _ | ⟨pre, name, m⟩
  · exact replaceParamFrom_append (ne_colon_escapeSyntax_singleton hi)
  · exact replaceParamFrom_append (by decide)
  · by_cases hm : m = .star
    · subst hm
      obtain ⟨hpre, hne, hname⟩ := hi
      have hstop : ∀ c ∈ (units "*" ++ rest).head?, isWord c = false := by
        intro c hc
        rw [← Option.some.inj hc]
        decide
      rw [escapedText, escapedText, List.append_assoc, List.append_assoc, List.append_assoc, replaceParam,
        replaceParamFrom_append (escapeSyntax_of_mem hpre).1, replaceParamFrom_param hne hname hstop]
      rfl
    · exact replaceParamFrom_other hm hi hfollowed (by decide)

/-- `:name+` is nowhere, for its `+` is escaped. -/
theorem replaceParam_plus (hvalid : ∀ i ∈ items, ItemValid i) (hchain : items.IsChain Precedes) :
    replaceParam "+" ".+" (items.flatMap (escapedText fun _ => units ".*")) =
      items.flatMap (escapedText fun _ => units ".*") := by
  refine flatMap_eq_of_step rfl (fun i rest hi hfollowed => ?_)
    (followedBy_escapedText fun _ => starred_replaced) hvalid hchain
  rcases i with c | _ | ⟨pre, name, m⟩
  · exact replaceParamFrom_append (ne_colon_escapeSyntax_singleton hi)
  · exact replaceParamFrom_append (by decide)
  · by_cases hm : m = .star
    · subst hm
      rw [escapedText, List.append_assoc, List.append_assoc, replaceParam,
        replaceParamFrom_append (escapeSyntax_of_mem hi.1).1, replaceParamFrom_append (by decide)]
      rfl
    · exact replaceParamFrom_other hm hi hfollowed (by decide)

/-- The text of an item before each `*` becomes `.*`. -/
def unstarredText : PathPattern.Item ℕ → List ℕ
  | .lit c => escapeSyntax [c]
  | .wildcard => units "*"
  | .param pre _ .star => escapeSyntax pre ++ units ".*"
  | .param pre _ m => escapeSyntax pre ++ (units "[^/]+" ++ escapeSyntax (modifierText m))

theorem unstarredText_param {pre name : List ℕ} {m : Modifier} (hm : m ≠ .star) :
    unstarredText (.param pre name m) =
      escapeSyntax pre ++ (units "[^/]+" ++ escapeSyntax (modifierText m)) := by
  rcases m
  case star => exact absurd rfl hm
  all_goals rfl

/-- `:name` becomes `[^/]+`. -/
theorem replaceParam_one (hvalid : ∀ i ∈ items, ItemValid i) (hchain : items.IsChain Precedes) :
    replaceParam "" "[^/]+" (items.flatMap (escapedText fun _ => units ".*")) = items.flatMap unstarredText := by
  refine flatMap_eq_of_step rfl (fun i rest hi hfollowed => ?_)
    (followedBy_escapedText fun _ => starred_replaced) hvalid hchain
  rcases i with c | _ | ⟨pre, name, m⟩
  · exact replaceParamFrom_append (ne_colon_escapeSyntax_singleton hi)
  · exact replaceParamFrom_append (by decide)
  · obtain ⟨hpre, hne, hname⟩ := hi
    by_cases hm : m = .star
    · subst hm
      rw [escapedText, unstarredText, List.append_assoc, List.append_assoc, replaceParam,
        replaceParamFrom_append (escapeSyntax_of_mem hpre).1, replaceParamFrom_append (by decide)]
      rfl
    · have hstop : ∀ c ∈ ([] ++ (escapeSyntax (modifierText m) ++ rest)).head?, isWord c = false :=
        fun c hc => (stops_behind_name hm hfollowed c hc).1
      have hparam : replaceParamFrom [] (units "[^/]+") 0
          (unit ':' :: name ++ (escapeSyntax (modifierText m) ++ rest)) =
          units "[^/]+" ++ replaceParamFrom [] (units "[^/]+") 0 (escapeSyntax (modifierText m) ++ rest) :=
        replaceParamFrom_param hne hname hstop
      rw [escapedText_param hm, unstarredText_param hm, List.append_assoc, List.append_assoc, List.append_assoc,
        List.append_assoc, replaceParam, replaceParamFrom_append (escapeSyntax_of_mem hpre).1,
        show units "" = [] from rfl, hparam, replaceParamFrom_append (ne_colon_modifier m)]
      rfl

/-- Each `*` becomes `.*`, also the one that is already there for a parameter. -/
theorem replaceStar_items (hvalid : ∀ i ∈ items, ItemValid i) :
    replaceStar (items.flatMap unstarredText) = items.flatMap replacedText := by
  have hkeep : ∀ w : List ℕ, unit '*' ∉ w → replaceStar w = w := by
    intro w hw
    induction w with
    | nil => rfl
    | cons c w ih =>
      have hc : c ≠ unit '*' := fun h => hw (h ▸ List.mem_cons_self)
      have htail := ih fun h => hw (List.mem_cons_of_mem c h)
      rw [replaceStar] at htail ⊢
      rw [List.flatMap_cons, if_neg hc, htail]
      rfl
  have happend : ∀ v w : List ℕ, replaceStar (v ++ w) = replaceStar v ++ replaceStar w := fun v w =>
    List.flatMap_append
  rw [replaceStar, List.flatMap_assoc]
  refine List.flatMap_congr fun i hi => ?_
  change replaceStar (unstarredText i) = replacedText i
  rcases i with c | _ | ⟨pre, name, m⟩
  · refine hkeep _ fun hmem => ?_
    have hreserved : isReserved (unit '*') = true := by decide
    obtain ⟨d, hd, hin⟩ := List.mem_flatMap.mp hmem
    rw [List.mem_singleton.mp hd] at hin
    have hc : isReserved c = false := hvalid _ hi
    split_ifs at hin
    · obtain h | h := List.mem_pair.mp hin
      · exact absurd h (by decide)
      · exact Bool.false_ne_true (hc.symm.trans (h ▸ hreserved))
    · exact Bool.false_ne_true (hc.symm.trans (List.mem_singleton.mp hin ▸ hreserved))
  · decide
  · have hpre := hkeep _ (escapeSyntax_of_mem (hvalid _ hi).1).2.1
    by_cases hm : m = .star
    · subst hm
      rw [unstarredText, happend, hpre, replacedText]
      congr 1
    · have hrest : unit '*' ∉ units "[^/]+" ++ escapeSyntax (modifierText m) := by
        rcases m
        case star => exact absurd rfl hm
        all_goals decide
      rw [unstarredText_param hm, happend, hpre, hkeep _ hrest, replacedText_param hm]

/-- The replacements act on the items one by one. -/
theorem escaped_items {pattern : List ℕ} (h : Reads items pattern) :
    escaped pattern = items.flatMap replacedText := by
  rw [escaped, ← h.text, escapeSyntax_items h.valid, replaceParam_star h.valid h.chain,
    replaceParam_plus h.valid h.chain, replaceParam_one h.valid h.chain, replaceStar_items h.valid]

/-! ## The expression -/

/-- The tokens of a parameter, without what stands before its name. -/
def modifierTokens : Modifier → List Token
  | .one => [.atom (· ≠ unit '/'), .plus]
  | .optional => [.atom (· ≠ unit '/'), .plus, .opt]
  | .star => [.atom (!isLineEnd ·), .atom (!isLineEnd ·), .star]
  | .plus => [.atom (· ≠ unit '/'), .plus, .atom (· = unit '+')]

/-- The tokens of an item. -/
def itemTokens : PathPattern.Item ℕ → List Token
  | .lit c => [.atom (· = c)]
  | .wildcard => [.atom (!isLineEnd ·), .star]
  | .param pre _ m => pre.map (fun c => .atom (· = c)) ++ modifierTokens m

theorem tokensFrom_escapeSyntax {c : ℕ} (hc : c ≠ unit '*' ∧ c ≠ unit '?') (rest : List ℕ) :
    tokensFrom 0 (escapeSyntax [c] ++ rest) = .atom (· = c) :: tokensFrom 0 rest := by
  rw [escapeSyntax, List.flatMap_singleton]
  by_cases hsyntax : isSyntaxUnit c = true
  · rw [if_pos hsyntax]
    rfl
  · have hall : ∀ d ∈ [unit '\\', unit '[', unit '+', unit '.'], isSyntaxUnit d = true := by decide
    have hne : ∀ d ∈ [unit '\\', unit '[', unit '+', unit '.'], c ≠ d := fun d hd h => hsyntax (h ▸ hall d hd)
    have hclass : (units "[^/]").isPrefixOf (c :: rest) = false := by
      refine Bool.and_eq_false_iff.mpr (.inl (beq_false_of_ne ?_))
      exact (hne _ (by decide)).symm
    have hplain : plainToken c = .atom (· = c) := by
      rw [plainToken, if_neg hc.1, if_neg (hne _ (by decide)), if_neg hc.2, if_neg (hne _ (by decide))]
    rw [if_neg hsyntax, List.singleton_append, tokensFrom, if_neg (hne _ (by decide)),
      if_neg (by rw [hclass]; exact Bool.false_ne_true), hplain]

theorem tokensFrom_item {i : PathPattern.Item ℕ} (hi : ItemValid i) (rest : List ℕ) :
    tokensFrom 0 (replacedText i ++ rest) = itemTokens i ++ tokensFrom 0 rest := by
  rcases i with c | _ | ⟨pre, name, m⟩
  · have hreserved : ∀ e ∈ [unit '*', unit '?'], isReserved e = true := by decide
    have hne : ∀ e ∈ [unit '*', unit '?'], c ≠ e := by
      rintro e he rfl
      exact Bool.false_ne_true (Eq.trans (Eq.symm hi) (hreserved _ he))
    exact tokensFrom_escapeSyntax ⟨hne _ (by decide), hne _ (by decide)⟩ rest
  · rfl
  · have hpre : ∀ text, tokensFrom 0 (escapeSyntax pre ++ text) =
        pre.map (fun c => .atom (· = c)) ++ tokensFrom 0 text := by
      intro text
      have hmem := hi.1
      rw [List.mem_cons, List.mem_pair] at hmem
      rcases hmem with rfl | rfl | rfl
      · rfl
      · exact tokensFrom_escapeSyntax (by decide) text
      · exact tokensFrom_escapeSyntax (by decide) text
    rcases m
    case star =>
      rw [replacedText, List.append_assoc, hpre, itemTokens, List.append_assoc]
      rfl
    all_goals
      rw [replacedText, List.append_assoc, List.append_assoc, hpre, itemTokens, List.append_assoc]
      · rfl
      · exact fun h => nomatch h

theorem tokensFrom_items (hvalid : ∀ i ∈ items, ItemValid i) :
    tokensFrom 0 (items.flatMap replacedText) = items.flatMap itemTokens := by
  induction items with
  | nil => rfl
  | cons i items ih =>
    obtain ⟨hi, hitems⟩ := List.forall_mem_cons.mp hvalid
    rw [List.flatMap_cons, List.flatMap_cons, tokensFrom_item hi, ih hitems]

/-- The expressions of a parameter, without what stands before its name. -/
def modifierRegexes : Modifier → List (Regex ℕ)
  | .one | .optional => [plus (sym (· ≠ unit '/'))]
  | .star => [sym (!isLineEnd ·), star (sym (!isLineEnd ·))]
  | .plus => [plus (sym (· ≠ unit '/')), sym (· = unit '+')]

/-- The expressions of an item. -/
def itemRegexes : PathPattern.Item ℕ → List (Regex ℕ)
  | .lit c => [sym (· = c)]
  | .wildcard => [star (sym (!isLineEnd ·))]
  | .param pre _ m => pre.map (fun c => sym (· = c)) ++ modifierRegexes m

/-- Tokens that do not start with a quantifier. -/
def NoQuantifier (ts : List Token) : Prop := ∀ t ∈ ts.head?, ∃ p, t = .atom p

theorem noQuantifier_append {pre : List ℕ} {ts : List Token} (h : NoQuantifier ts) :
    NoQuantifier (pre.map (fun c => .atom (· = c)) ++ ts) := by
  rcases pre with _ | ⟨c, pre⟩
  · exact h
  · intro t ht
    exact ⟨_, (Option.some.inj ht).symm⟩

theorem noQuantifier_items (items : List (PathPattern.Item ℕ)) : NoQuantifier (items.flatMap itemTokens) := by
  rcases items with _ | ⟨i, items⟩
  · intro t ht
    cases ht
  · rw [List.flatMap_cons]
    rcases i with c | _ | ⟨pre, name, m⟩
    · exact fun t ht => ⟨_, (Option.some.inj ht).symm⟩
    · exact fun t ht => ⟨_, (Option.some.inj ht).symm⟩
    · rw [itemTokens, List.append_assoc]
      refine noQuantifier_append ?_
      rcases m <;> exact fun t ht => ⟨_, (Option.some.inj ht).symm⟩

section Quantify

variable {p : ℕ → Bool} {ts : List Token}

theorem quantify_atom (h : NoQuantifier ts) : quantify (.atom p :: ts) = (quantify ts).map (sym p :: ·) := by
  rcases ts with _ | ⟨t, ts⟩
  · rfl
  · obtain ⟨q, rfl⟩ := h t rfl
    rfl

theorem quantify_star (h : NoQuantifier ts) :
    quantify (.atom p :: .star :: ts) = (quantify ts).map (star (sym p) :: ·) := by
  rcases ts with _ | ⟨t, ts⟩
  · rfl
  · obtain ⟨q, rfl⟩ := h t rfl
    rfl

theorem quantify_plus (h : NoQuantifier ts) :
    quantify (.atom p :: .plus :: ts) = (quantify ts).map (plus (sym p) :: ·) := by
  rcases ts with _ | ⟨t, ts⟩
  · rfl
  · obtain ⟨q, rfl⟩ := h t rfl
    rfl

theorem quantify_modifier (m : Modifier) (h : NoQuantifier ts) :
    quantify (modifierTokens m ++ ts) = (quantify ts).map (modifierRegexes m ++ ·) := by
  have hatom : ∀ q, NoQuantifier (.atom q :: ts) := fun q t ht => ⟨q, (Option.some.inj ht).symm⟩
  have hstar : NoQuantifier (.atom (!isLineEnd ·) :: .star :: ts) := fun t ht => ⟨_, (Option.some.inj ht).symm⟩
  rcases m
  · exact quantify_plus h
  · rfl
  · refine (quantify_atom hstar).trans ?_
    rw [quantify_star h, Option.map_map]
    rfl
  · refine (quantify_plus (hatom _)).trans ?_
    rw [quantify_atom h, Option.map_map]
    rfl

theorem quantify_prefix (pre : List ℕ) (h : NoQuantifier ts) :
    quantify (pre.map (fun c => .atom (· = c)) ++ ts) =
      (quantify ts).map (pre.map (fun c => sym (· = c)) ++ ·) := by
  induction pre with
  | nil => exact (Option.map_id' ).symm
  | cons c pre ih =>
    rw [List.map_cons, List.cons_append, quantify_atom (noQuantifier_append h), ih, Option.map_map]
    rfl

theorem noQuantifier_modifier (m : Modifier) (ts : List Token) : NoQuantifier (modifierTokens m ++ ts) := by
  rcases m <;> exact fun t ht => ⟨_, (Option.some.inj ht).symm⟩

end Quantify

theorem quantify_items (items : List (PathPattern.Item ℕ)) :
    quantify (items.flatMap itemTokens) = some (items.flatMap itemRegexes) := by
  induction items with
  | nil => rfl
  | cons i items ih =>
    have hrest := noQuantifier_items items
    rw [List.flatMap_cons, List.flatMap_cons]
    rcases i with c | _ | ⟨pre, name, m⟩
    · exact (quantify_atom hrest).trans (by rw [ih]; rfl)
    · exact (quantify_star hrest).trans (by rw [ih]; rfl)
    · rw [itemTokens, List.append_assoc, quantify_prefix pre (noQuantifier_modifier m _),
        quantify_modifier m hrest, ih, itemRegexes, Option.map_some, Option.map_some, List.append_assoc]

/-- The expression of a text that reads as the items. -/
theorem matcherToRegex_eq {pattern : String} (h : Reads items (units pattern)) (hne : pattern ≠ "") :
    matcherToRegex pattern = some (wholeText (items.flatMap itemRegexes)) := by
  rw [matcherToRegex, if_neg hne, escaped_items h, tokensFrom_items h.valid, quantify_items]
  rfl

/-! ## What it accepts -/

/-- What the expressions of a parameter spell, without what stands before its name. -/
def modifierAccepted : Modifier → List (FormalLanguage ℕ)
  | .one | .optional => [properWordsOf (· ≠ unit '/')]
  | .star => [symbolsOf (!isLineEnd ·), wordsOf (!isLineEnd ·)]
  | .plus => [properWordsOf (· ≠ unit '/'), symbolsOf (· = unit '+')]

/-- What the expressions of an item spell, one by one. -/
def itemAccepted : PathPattern.Item ℕ → List (FormalLanguage ℕ)
  | .lit c => [symbolsOf (· = c)]
  | .wildcard => [wordsOf (!isLineEnd ·)]
  | .param pre _ m => pre.map (fun c => symbolsOf (· = c)) ++ modifierAccepted m

/-- The texts that the expression of a pattern accepts. -/
def accepted (items : List (PathPattern.Item ℕ)) : FormalLanguage ℕ := (items.map fun i => (itemAccepted i).prod).prod

theorem spells_item (i : PathPattern.Item ℕ) : List.Forall₂ Spells (itemRegexes i) (itemAccepted i) := by
  have hmodifier : ∀ m, List.Forall₂ Spells (modifierRegexes m) (modifierAccepted m) := by
    intro m
    rcases m
    · exact .cons spells_plus_sym .nil
    · exact .cons spells_plus_sym .nil
    · exact .cons spells_sym (.cons spells_star_sym .nil)
    · exact .cons spells_plus_sym (.cons spells_sym .nil)
  rcases i with c | _ | ⟨pre, name, m⟩
  · exact .cons spells_sym .nil
  · exact .cons spells_star_sym .nil
  · rw [itemRegexes, itemAccepted]
    induction pre with
    | nil => exact hmodifier m
    | cons c pre ih => exact .cons spells_sym ih

theorem prod_itemAccepted (items : List (PathPattern.Item ℕ)) : (items.flatMap itemAccepted).prod = accepted items := by
  induction items with
  | nil => rfl
  | cons i items ih => rw [List.flatMap_cons, List.prod_append, ih, accepted, accepted, List.map_cons, List.prod_cons]

/-- The expression of a text that reads as the items accepts what they say. -/
theorem test_wholeText_iff (items : List (PathPattern.Item ℕ)) (text : List ℕ) :
    (wholeText (items.flatMap itemRegexes)).test text = true ↔ text ∈ accepted items := by
  have hspells : List.Forall₂ Spells (items.flatMap itemRegexes) (items.flatMap itemAccepted) := by
    induction items with
    | nil => exact .nil
    | cons i items ih => exact List.rel_append (spells_item i) ih
  rw [← prod_itemAccepted]
  exact test_whole_iff (spells_concat hspells) text

end Items

end MontrSecure.Next
