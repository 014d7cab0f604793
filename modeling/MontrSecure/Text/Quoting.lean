import Mathlib.Data.List.DropRight
import Mathlib.Data.List.Infix

/-!
# Searching a text from the left

A search goes through the positions of a text and ends at the first one where something is found. A text is put
together from parts, and a search goes on behind a part in which nothing is found.
-/

namespace Text

variable {σ α : Type}

/-- What is found first. -/
def search (find : List σ → Option α) (text : List σ) : Option α := text.tails.findSome? find

variable {find : List σ → Option α} {part rest : List σ}

theorem search_nil : search find [] = find [] := by
  change List.findSome? find [[]] = find []
  rw [List.findSome?_singleton]

theorem search_cons (a : σ) (text : List σ) :
    search find (a :: text) = (find (a :: text)).or (search find text) := by
  rw [search, List.tails_cons, List.findSome?_cons]
  cases find (a :: text) with
  | none => rfl
  | some _ => rfl

/-- The search goes on behind a part that holds nothing. -/
theorem search_append_of_none (h : ∀ s ≠ [], s <:+ part → find (s ++ rest) = none) :
    search find (part ++ rest) = search find rest := by
  induction part with
  | nil => rfl
  | cons a part ih =>
    have hfront : find (a :: (part ++ rest)) = none := h (a :: part) (List.cons_ne_nil a part) List.suffix_rfl
    rw [List.cons_append, search_cons, hfront, Option.none_or]
    exact ih fun s hne hs => h s hne (hs.trans (List.suffix_cons a part))

/-- The search ends in a part that holds something. -/
theorem exists_search_append (h : ∃ s ≠ [], s <:+ part ∧ find (s ++ rest) ≠ none) :
    ∃ s a, s <:+ part ∧ find (s ++ rest) = some a ∧ search find (part ++ rest) = some a := by
  induction part with
  | nil =>
    obtain ⟨s, hne, hs, -⟩ := h
    exact absurd (List.suffix_nil.mp hs) hne
  | cons b part ih =>
    rw [List.cons_append, search_cons, ← List.cons_append]
    cases hfront : find (b :: part ++ rest) with
    | some a => exact ⟨b :: part, a, List.suffix_rfl, hfront, Option.some_or⟩
    | none =>
      have hpart : ∃ s ≠ [], s <:+ part ∧ find (s ++ rest) ≠ none := by
        obtain ⟨s, hne, hs, hfound⟩ := h
        obtain rfl | hs := List.suffix_cons_iff.mp hs
        · exact absurd hfront hfound
        · exact ⟨s, hne, hs, hfound⟩
      obtain ⟨s, a, hs, hfound, hsearch⟩ := ih hpart
      exact ⟨s, a, hs.trans (List.suffix_cons b part), hfound, by rw [Option.none_or, hsearch]⟩

/-- The search ends at once where something is found. -/
theorem search_of_some {text : List σ} {a : α} (h : find text = some a) : search find text = some a := by
  cases text with
  | nil => rw [search_nil, h]
  | cons b text => rw [search_cons, h, Option.some_or]

theorem isSome_search_iff {text : List σ} : (search find text).isSome ↔ ∃ s, s <:+ text ∧ (find s).isSome := by
  rw [search, List.findSome?_isSome_iff]
  exact exists_congr fun s => and_congr_left fun _ => List.mem_tails s text

/-! ## Words -/

variable [DecidableEq σ]

/-- What follows a word. -/
def after (w s : List σ) : Option (List σ) := if w.isPrefixOf s then some (s.drop w.length) else none

theorem after_eq_some_iff {w s : List σ} : after w s = some rest ↔ s = w ++ rest := by
  unfold after
  constructor
  · intro h
    split at h
    · rename_i hprefix
      obtain ⟨t, rfl⟩ := List.isPrefixOf_iff_prefix.mp hprefix
      rw [List.drop_left] at h
      rw [Option.some.inj h]
    · cases h
  · rintro rfl
    rw [if_pos (List.isPrefixOf_iff_prefix.mpr (List.prefix_append w rest)), List.drop_left]

theorem after_append (w rest : List σ) : after w (w ++ rest) = some rest := after_eq_some_iff.mpr rfl

example : search (after [1, 2]) [0, 1, 2, 3] = some [3] := by decide +kernel

omit [DecidableEq σ] in
/-- A word without a symbol ends before the symbol. -/
theorem exists_of_append_eq {w v s t : List σ} {c : σ} (hw : c ∉ w) (h : w ++ v = s ++ c :: t) :
    ∃ u, s = w ++ u ∧ v = u ++ c :: t := by
  obtain ⟨u, rfl, rfl⟩ | ⟨u, rfl, hu⟩ := List.append_eq_append_iff.mp h
  · exact ⟨u, rfl, rfl⟩
  · rcases u with _ | ⟨d, u⟩
    · exact ⟨[], by simp, hu.symm⟩
    · obtain ⟨rfl, -⟩ := List.cons.inj hu
      exact absurd (List.mem_append_right s List.mem_cons_self) hw

end Text

/-!
## Texts between quotes

A document holds texts between quotes, with a backslash before each quote and each backslash of them, and gaps in
between that have neither. A reader looks for a key with a quote behind it and takes what stands before the next bare
quote. It does not know whether it is inside a text: what it finds is given by `firstBehind`.
-/

namespace Text

/-- The symbols that matter to a reader of quoted texts. -/
structure Marks (σ : Type) where
  quote : σ
  back : σ
  newline : σ
  blank : σ → Bool
  /-- What a backslash does not escape. -/
  lineEnd : σ → Bool
  quote_ne_back : quote ≠ back
  blank_quote : blank quote = false
  blank_back : blank back = false
  blank_newline : blank newline = true
  lineEnd_quote : lineEnd quote = false
  lineEnd_back : lineEnd back = false

namespace Marks

variable {σ : Type} [DecidableEq σ] (k : Marks σ)

/-- A symbol with its backslash. -/
def escapeSymbol (c : σ) : List σ := if c = k.quote ∨ c = k.back then [k.back, c] else [c]

def escape (text : List σ) : List σ := text.flatMap k.escapeSymbol

/-- Without quotes and backslashes. -/
def Plain (w : List σ) : Prop := ∀ c ∈ w, c ≠ k.quote ∧ c ≠ k.back

instance (w : List σ) : Decidable (k.Plain w) := inferInstanceAs (Decidable (∀ c ∈ w, _))

/-- What stands before the next bare quote, and what behind it. -/
def readQuoted : List σ → Option (List σ × List σ)
  | [] => none
  | [c] => if c = k.quote then some ([], []) else none
  | c :: d :: s =>
    if c = k.quote then some ([], d :: s)
    else if c = k.back then
      if k.lineEnd d then none else (readQuoted s).map fun (body, rest) => (c :: d :: body, rest)
    else (readQuoted (d :: s)).map fun (body, rest) => (c :: body, rest)

/-- What stands between the quotes behind a key and blanks. -/
def behind (key s : List σ) : Option (List σ) :=
  (after key s).bind fun rest =>
    match rest.dropWhile k.blank with
    | [] => none
    | c :: body => if c = k.quote then (k.readQuoted body).map Prod.fst else none

/-! ## Escaped texts -/

variable {k} {w text text' rest gap : List σ}

theorem escape_append (text text' : List σ) : k.escape (text ++ text') = k.escape text ++ k.escape text' :=
  List.flatMap_append

theorem escape_cons (c : σ) (text : List σ) : k.escape (c :: text) = k.escapeSymbol c ++ k.escape text :=
  List.flatMap_cons

theorem plain_append : k.Plain (w ++ text) ↔ k.Plain w ∧ k.Plain text := List.forall_mem_append

theorem plain_cons {c : σ} : k.Plain (c :: w) ↔ (c ≠ k.quote ∧ c ≠ k.back) ∧ k.Plain w := List.forall_mem_cons

theorem Plain.quote_notMem (h : k.Plain w) : k.quote ∉ w := fun hmem => (h _ hmem).1 rfl

theorem plain_of_blank (h : ∀ c ∈ w, k.blank c = true) : k.Plain w := by
  intro c hc
  constructor
  · rintro rfl
    exact absurd (h _ hc) (by rw [k.blank_quote]; exact Bool.false_ne_true)
  · rintro rfl
    exact absurd (h _ hc) (by rw [k.blank_back]; exact Bool.false_ne_true)

theorem escapeSymbol_of_plain {c : σ} (h : c ≠ k.quote ∧ c ≠ k.back) : k.escapeSymbol c = [c] := by
  rw [escapeSymbol, if_neg (not_or.mpr h)]

theorem escape_of_plain (h : k.Plain w) : k.escape w = w := by
  induction w with
  | nil => rfl
  | cons c w ih =>
    obtain ⟨hc, hw⟩ := plain_cons.mp h
    rw [escape_cons, escapeSymbol_of_plain hc, ih hw, List.singleton_append]

example : escape
    { quote := 0, back := 1, newline := 2, blank := (· = 2), lineEnd := (· = 2), quote_ne_back := by decide
      blank_quote := rfl, blank_back := rfl, blank_newline := rfl, lineEnd_quote := rfl, lineEnd_back := rfl }
    [0, 3] = [1, 0, 3] := by
  decide +kernel

theorem escape_eq_nil_iff : k.escape text = [] ↔ text = [] := by
  cases text with
  | nil => simp [escape]
  | cons c text =>
    rw [escape_cons, escapeSymbol]
    split <;> simp

/-- A plain symbol of an escaped text is one of the text. -/
theorem exists_of_escape_eq {c : σ} {x y : List σ} (hc : c ≠ k.quote ∧ c ≠ k.back)
    (h : k.escape text = x ++ c :: y) : ∃ u v, text = u ++ c :: v ∧ k.escape u = x ∧ k.escape v = y := by
  induction text generalizing x with
  | nil => exact absurd h.symm (by simp [escape])
  | cons d text ih =>
    rw [escape_cons, escapeSymbol] at h
    split at h
    · rename_i hd
      -- The symbol is neither of the two that stand for an escaped one.
      rcases x with _ | ⟨a, _ | ⟨a', x⟩⟩
      · exact absurd (List.cons.inj h).1.symm hc.2
      · obtain ⟨-, h⟩ := List.cons.inj h
        obtain ⟨rfl, -⟩ := List.cons.inj h
        exact absurd hd (not_or.mpr hc)
      · simp only [List.cons_append, List.nil_append, List.cons.injEq] at h
        obtain ⟨rfl, rfl, h⟩ := h
        obtain ⟨u, v, rfl, rfl, rfl⟩ := ih h
        refine ⟨d :: u, v, rfl, ?_, rfl⟩
        rw [escape_cons, escapeSymbol, if_pos hd]
        rfl
    · rename_i hd
      rcases x with _ | ⟨a, x⟩
      · obtain ⟨rfl, rfl⟩ := List.cons.inj h
        exact ⟨[], text, rfl, rfl, rfl⟩
      · simp only [List.cons_append, List.nil_append, List.cons.injEq] at h
        obtain ⟨rfl, h⟩ := h
        obtain ⟨u, v, rfl, rfl, rfl⟩ := ih h
        refine ⟨d :: u, v, rfl, ?_, rfl⟩
        rw [escape_cons, escapeSymbol, if_neg hd]
        rfl

/-- A plain word at the front of an escaped text is at the front of the text. -/
theorem exists_of_escape_eq_append {y : List σ} (hw : k.Plain w) (h : k.escape text = w ++ y) :
    ∃ v, text = w ++ v ∧ k.escape v = y := by
  induction w generalizing text with
  | nil => exact ⟨text, rfl, h⟩
  | cons c w ih =>
    obtain ⟨hc, hw⟩ := plain_cons.mp hw
    obtain ⟨u, v, rfl, hu, hv⟩ := exists_of_escape_eq (x := []) hc h
    obtain rfl := escape_eq_nil_iff.mp hu
    obtain ⟨v, rfl, rfl⟩ := ih hw hv
    exact ⟨v, rfl, rfl⟩

/-- Escaping hides no plain word and makes none. -/
theorem infix_escape_iff (hne : w ≠ []) (hw : k.Plain w) : w <:+: k.escape text ↔ w <:+: text := by
  constructor
  · rintro ⟨x, y, h⟩
    obtain ⟨c, w, rfl⟩ := List.exists_cons_of_ne_nil hne
    obtain ⟨hc, hw'⟩ := plain_cons.mp hw
    rw [List.append_assoc, List.cons_append] at h
    obtain ⟨u, v, rfl, -, hv⟩ := exists_of_escape_eq hc h.symm
    obtain ⟨v, rfl, -⟩ := exists_of_escape_eq_append hw' hv
    exact ⟨u, v, by simp⟩
  · rintro ⟨u, v, rfl⟩
    rw [escape_append, escape_append, escape_of_plain hw]
    exact ⟨_, _, rfl⟩

/-- A quote of an escaped text has its backslash before it. -/
theorem getLast?_of_escape_eq {x y : List σ} (h : k.escape text = x ++ k.quote :: y) : x.getLast? = some k.back := by
  induction text generalizing x with
  | nil => exact absurd h.symm (by simp [escape])
  | cons d text ih =>
    rw [escape_cons, escapeSymbol] at h
    split at h
    · rcases x with _ | ⟨a, _ | ⟨a', x⟩⟩
      · exact absurd (List.cons.inj h).1 k.quote_ne_back.symm
      · simp only [List.cons_append, List.nil_append, List.cons.injEq] at h
        rw [h.1]
        rfl
      · simp only [List.cons_append, List.nil_append, List.cons.injEq] at h
        have hlast := ih h.2.2
        rw [List.getLast?_cons_cons, List.getLast?_cons, hlast]
        rfl
    · rename_i hd
      rcases x with _ | ⟨a, x⟩
      · exact absurd (.inl (List.cons.inj h).1) hd
      · simp only [List.cons_append, List.nil_append, List.cons.injEq] at h
        have hlast := ih h.2
        rw [List.getLast?_cons, hlast]
        rfl

/-! ## Reading quoted texts -/

theorem readQuoted_quote (s : List σ) : k.readQuoted (k.quote :: s) = some ([], s) := by
  cases s with
  | nil => rw [readQuoted, if_pos rfl]
  | cons d s => rw [readQuoted, if_pos rfl]

theorem readQuoted_cons {c : σ} (hc : c ≠ k.quote ∧ c ≠ k.back) (s : List σ) :
    k.readQuoted (c :: s) = (k.readQuoted s).map fun (body, rest) => (c :: body, rest) := by
  cases s with
  | nil => simp [readQuoted, hc.1]
  | cons d s => rw [readQuoted, if_neg hc.1, if_neg hc.2]

theorem readQuoted_escaped {c : σ} (hc : c = k.quote ∨ c = k.back) (s : List σ) :
    k.readQuoted (k.back :: c :: s) = (k.readQuoted s).map fun (body, rest) => (k.back :: c :: body, rest) := by
  have hline : k.lineEnd c = false := by
    rcases hc with rfl | rfl
    · exact k.lineEnd_quote
    · exact k.lineEnd_back
  rw [readQuoted, if_neg k.quote_ne_back.symm, if_pos rfl, hline]
  rfl

/-- A text is read to the quote behind it. -/
theorem readQuoted_escape (text rest : List σ) :
    k.readQuoted (k.escape text ++ k.quote :: rest) = some (k.escape text, rest) := by
  induction text with
  | nil => exact readQuoted_quote rest
  | cons c text ih =>
    rw [escape_cons, escapeSymbol]
    split
    · rename_i hc
      simp only [List.cons_append, List.nil_append]
      rw [readQuoted_escaped hc, ih, Option.map_some]
    · rename_i hc
      simp only [List.cons_append, List.nil_append]
      rw [readQuoted_cons (not_or.mp hc), ih, Option.map_some]

example : readQuoted
    { quote := 0, back := 1, newline := 2, blank := (· = 2), lineEnd := (· = 2), quote_ne_back := by decide
      blank_quote := rfl, blank_back := rfl, blank_newline := rfl, lineEnd_quote := rfl, lineEnd_back := rfl }
    [1, 0, 0, 3] = some ([1, 0], [3]) := by
  decide +kernel

/-- Without a bare quote nothing is read. -/
theorem readQuoted_escape_eq_none (text : List σ) : k.readQuoted (k.escape text) = none := by
  induction text with
  | nil => rfl
  | cons c text ih =>
    rw [escape_cons, escapeSymbol]
    split
    · rename_i hc
      simp only [List.cons_append, List.nil_append]
      rw [readQuoted_escaped hc, ih, Option.map_none]
    · rename_i hc
      simp only [List.cons_append, List.nil_append]
      rw [readQuoted_cons (not_or.mp hc), ih, Option.map_none]

/-! ## Keys -/

/-- What a reader can look for. -/
structure IsKey (k : Marks σ) (key : List σ) : Prop where
  plain : k.Plain key
  last : ∃ c, key.getLast? = some c ∧ k.blank c = false

/-- The text ends in the key and blanks. -/
def EndsIn (k : Marks σ) (key text : List σ) : Prop := key <:+ text.rdropWhile k.blank

instance (key text : List σ) : Decidable (k.EndsIn key text) := inferInstanceAs (Decidable (key <:+ _))

variable {key : List σ}

theorem IsKey.exists_cons (hkey : k.IsKey key) : ∃ c key', key = c :: key' ∧ c ≠ k.quote ∧ c ≠ k.back := by
  obtain ⟨d, hd, -⟩ := hkey.last
  rcases key with _ | ⟨c, key'⟩
  · cases hd
  · exact ⟨c, key', rfl, hkey.plain c List.mem_cons_self⟩

theorem IsKey.ne_nil (hkey : k.IsKey key) : key ≠ [] := by
  obtain ⟨c, key', rfl, -⟩ := hkey.exists_cons
  exact List.cons_ne_nil c key'

theorem rdropWhile_append_blanks {ws : List σ} (text : List σ) (hws : ∀ c ∈ ws, k.blank c = true) :
    (text ++ ws).rdropWhile k.blank = text.rdropWhile k.blank := by
  rw [List.rdropWhile, List.rdropWhile, List.reverse_append,
    List.dropWhile_append_of_pos fun c hc => hws c (List.mem_reverse.mp hc)]

theorem endsIn_iff (hkey : k.IsKey key) {text : List σ} :
    k.EndsIn key text ↔ ∃ u ws, text = u ++ (key ++ ws) ∧ ∀ c ∈ ws, k.blank c = true := by
  constructor
  · rintro ⟨u, hu⟩
    refine ⟨u, text.rtakeWhile k.blank, ?_, fun c hc => List.mem_rtakeWhile_imp hc⟩
    rw [← List.append_assoc, hu, List.rdropWhile_append_rtakeWhile]
  · rintro ⟨u, ws, rfl, hws⟩
    obtain ⟨c, hlast, hc⟩ := hkey.last
    obtain ⟨key', rfl⟩ := List.getLast?_eq_some_iff.mp hlast
    refine ⟨u, ?_⟩
    have hassoc : u ++ (key' ++ [c] ++ ws) = u ++ key' ++ [c] ++ ws := by simp
    rw [hassoc, rdropWhile_append_blanks _ hws,
      List.rdropWhile_concat_neg _ _ _ (by rw [hc]; exact Bool.false_ne_true), List.append_assoc]

/-- Escaping does not change what a text ends in. -/
theorem endsIn_escape (hkey : k.IsKey key) {text : List σ} : k.EndsIn key (k.escape text) ↔ k.EndsIn key text := by
  rw [endsIn_iff hkey, endsIn_iff hkey]
  constructor
  · rintro ⟨u, ws, h, hws⟩
    obtain ⟨c, key', rfl, hc⟩ := hkey.exists_cons
    have hplain : k.Plain (key' ++ ws) := plain_append.mpr ⟨(plain_cons.mp hkey.plain).2, plain_of_blank hws⟩
    rw [List.cons_append] at h
    obtain ⟨u, v, rfl, -, hv⟩ := exists_of_escape_eq hc h
    obtain ⟨v, rfl, hnil⟩ := exists_of_escape_eq_append (y := []) hplain (hv.trans (List.append_nil _).symm)
    obtain rfl := escape_eq_nil_iff.mp hnil
    exact ⟨u, ws, by simp, hws⟩
  · rintro ⟨u, ws, rfl, hws⟩
    refine ⟨k.escape u, ws, ?_, hws⟩
    rw [escape_append, escape_of_plain (plain_append.mpr ⟨hkey.plain, plain_of_blank hws⟩)]

/-! ## Parts of a document -/

/-- Each quote but a first symbol has its backslash before it. -/
def Guarded (k : Marks σ) (part : List σ) : Prop :=
  ∀ x y, part = x ++ k.quote :: y → x ≠ [] → x.getLast? = some k.back

variable {part : List σ}

theorem guarded_escape (text : List σ) : k.Guarded (k.escape text) := fun _ _ h _ => getLast?_of_escape_eq h

theorem Plain.guarded (h : k.Plain gap) : k.Guarded gap := by
  intro x y hxy _
  exact absurd (hxy ▸ List.mem_append_right x List.mem_cons_self) h.quote_notMem

theorem Guarded.suffix {s : List σ} (h : k.Guarded part) (hs : s <:+ part) : k.Guarded s := by
  rintro x y rfl hne
  obtain ⟨front, rfl⟩ := hs
  have hlast := h (front ++ x) y (by simp) (List.append_ne_nil_of_right_ne_nil front hne)
  rwa [List.getLast?_append_of_ne_nil front hne] at hlast

/-- A key is found in front of the quote that ends the part, or is not found. -/
theorem behind_append_quote (hkey : k.IsKey key) {s : List σ} (hs : k.Guarded s) (rest : List σ) :
    k.behind key (s ++ k.quote :: rest) = none ∨
      ∃ ws, s = key ++ ws ∧ (∀ c ∈ ws, k.blank c = true) ∧
        k.behind key (s ++ k.quote :: rest) = (k.readQuoted rest).map Prod.fst := by
  cases hafter : after key (s ++ k.quote :: rest) with
  | none => exact .inl (by rw [behind, hafter, Option.bind_none])
  | some v =>
    obtain ⟨u, rfl, rfl⟩ := exists_of_append_eq hkey.plain.quote_notMem (after_eq_some_iff.mp hafter).symm
    rw [behind, hafter, Option.bind_some]
    rcases hu : u.dropWhile k.blank with _ | ⟨c, u'⟩
    · have hws : ∀ c ∈ u, k.blank c = true := List.dropWhile_eq_nil_iff.mp hu
      refine .inr ⟨u, rfl, hws, ?_⟩
      rw [List.dropWhile_append_of_pos hws,
        List.dropWhile_cons_of_neg (by rw [k.blank_quote]; exact Bool.false_ne_true)]
      exact if_pos rfl
    · -- What follows the blanks is not a bare quote: before it stands the key or a blank.
      have hc : c ≠ k.quote := by
        rintro rfl
        have hsplit : key ++ u = (key ++ u.takeWhile k.blank) ++ k.quote :: u' := by
          rw [List.append_assoc, ← hu, List.takeWhile_append_dropWhile]
        have hlast := hs _ _ hsplit (List.append_ne_nil_of_left_ne_nil hkey.ne_nil _)
        have hplain : k.Plain (key ++ u.takeWhile k.blank) :=
          plain_append.mpr ⟨hkey.plain, plain_of_blank fun c hc => List.mem_takeWhile_imp hc⟩
        exact (hplain _ (List.mem_of_getLast? hlast)).2 rfl
      refine .inl ?_
      rw [List.dropWhile_append, hu]
      exact if_neg hc

/-- Nothing is found where there is no quote. -/
theorem behind_of_plain {s : List σ} (h : k.Plain s) : k.behind key s = none := by
  cases hafter : after key s with
  | none => rw [behind, hafter, Option.bind_none]
  | some v =>
    obtain rfl := after_eq_some_iff.mp hafter
    rw [behind, hafter, Option.bind_some]
    rcases hv : v.dropWhile k.blank with _ | ⟨c, v'⟩
    · rfl
    · have hc : c ∈ v := (List.dropWhile_suffix k.blank).subset (hv ▸ List.mem_cons_self)
      exact if_neg (h c (List.mem_append_right key hc)).1

/-- At a bare quote no key begins. -/
theorem search_quote (hkey : k.IsKey key) :
    search (k.behind key) (k.quote :: rest) = search (k.behind key) rest := by
  obtain ⟨c, key', rfl, hc, -⟩ := hkey.exists_cons
  have hnone : after (c :: key') (k.quote :: rest) = none := by
    cases hafter : after (c :: key') (k.quote :: rest) with
    | none => rfl
    | some v => exact absurd (List.cons.inj (after_eq_some_iff.mp hafter)).1.symm hc
  rw [search_cons, behind, hnone, Option.bind_none, Option.none_or]

theorem search_part_of_not_endsIn (hkey : k.IsKey key) (hpart : k.Guarded part) (h : ¬k.EndsIn key part) :
    search (k.behind key) (part ++ k.quote :: rest) = search (k.behind key) rest := by
  rw [search_append_of_none, search_quote hkey]
  rintro s - ⟨front, rfl⟩
  obtain hnone | ⟨ws, rfl, hws, -⟩ := behind_append_quote hkey (hpart.suffix ⟨front, rfl⟩) rest
  · exact hnone
  · exact absurd ((endsIn_iff hkey).mpr ⟨front, ws, rfl, hws⟩) h

/-- A part that ends in the key decides what is found, when there is a further bare quote. -/
theorem search_part_of_endsIn (hkey : k.IsKey key) (hpart : k.Guarded part) (h : k.EndsIn key part) :
    search (k.behind key) (part ++ k.quote :: rest) =
      ((k.readQuoted rest).map Prod.fst).or (search (k.behind key) rest) := by
  cases hread : (k.readQuoted rest).map Prod.fst with
  | none =>
    rw [search_append_of_none, search_quote hkey, Option.none_or]
    rintro s - hs
    obtain hnone | ⟨-, -, -, hfound⟩ := behind_append_quote hkey (hpart.suffix hs) rest
    · exact hnone
    · exact hfound.trans hread
  | some body =>
    rw [Option.some_or]
    have hsome : ∃ s ≠ [], s <:+ part ∧ k.behind key (s ++ k.quote :: rest) ≠ none := by
      obtain ⟨u, ws, rfl, hws⟩ := (endsIn_iff hkey).mp h
      refine ⟨key ++ ws, List.append_ne_nil_of_left_ne_nil hkey.ne_nil ws, List.suffix_append u _, ?_⟩
      rw [behind, List.append_assoc, after_append, Option.bind_some, List.dropWhile_append_of_pos hws,
        List.dropWhile_cons_of_neg (by rw [k.blank_quote]; exact Bool.false_ne_true)]
      exact ((if_pos rfl).trans hread).trans_ne (Option.some_ne_none body)
    -- Wherever the key is found in the part, the same is read behind it.
    obtain ⟨s, found, hs, hfind, hsearch⟩ := exists_search_append hsome
    obtain hnone | ⟨-, -, -, hfound⟩ := behind_append_quote hkey (hpart.suffix hs) rest
    · rw [hnone] at hfind
      cases hfind
    · rw [hsearch, ← hfind, hfound, hread]

/-! ## Documents -/

/-- Gaps with a text behind each, and what stands behind the last text. -/
def document (k : Marks σ) : List (List σ × List σ) → List σ → List σ
  | [], last => last
  | (gap, text) :: pieces, last => gap ++ k.quote :: (k.escape text ++ k.quote :: k.document pieces last)

/-- What stands behind the first gap or text that ends in a key. -/
def firstBehind (k : Marks σ) (key : List σ) : List (List σ × List σ) → Option (List σ)
  | [] => none
  | (gap, text) :: pieces =>
    if k.EndsIn key gap then some text
    else if k.EndsIn key text then pieces.head?.map Prod.fst
    else firstBehind k key pieces

variable {pieces : List (List σ × List σ)} {last : List σ}

theorem readQuoted_document (hpieces : ∀ piece ∈ pieces, k.Plain piece.1) (hlast : k.Plain last) :
    (k.readQuoted (k.document pieces last)).map Prod.fst = (pieces.head?.map Prod.fst).map k.escape := by
  rcases pieces with _ | ⟨⟨gap, text⟩, pieces⟩
  · have hread := readQuoted_escape_eq_none (k := k) last
    rw [escape_of_plain hlast] at hread
    rw [document, hread]
    rfl
  · have hgap : k.Plain gap := hpieces (gap, text) List.mem_cons_self
    have hread := readQuoted_escape (k := k) gap (k.escape text ++ k.quote :: k.document pieces last)
    rw [escape_of_plain hgap] at hread
    rw [document, hread, List.head?_cons, Option.map_some, Option.map_some, Option.map_some, escape_of_plain hgap]

/-- What a reader finds in a document. -/
theorem search_document (hkey : k.IsKey key) (hpieces : ∀ piece ∈ pieces, k.Plain piece.1) (hlast : k.Plain last) :
    search (k.behind key) (k.document pieces last) = (k.firstBehind key pieces).map k.escape := by
  induction pieces with
  | nil =>
    rw [document, firstBehind, Option.map_none, ← List.append_nil last, search_append_of_none, search_nil]
    · exact behind_of_plain fun c hc => absurd hc List.not_mem_nil
    · rintro s - hs
      rw [List.append_nil]
      exact behind_of_plain fun c hc => hlast c (hs.subset hc)
  | cons piece pieces ih =>
    obtain ⟨gap, text⟩ := piece
    obtain ⟨hgap, hrest⟩ := List.forall_mem_cons.mp hpieces
    rw [document, firstBehind]
    split
    · rename_i hends
      rw [search_part_of_endsIn hkey (Plain.guarded hgap) hends, readQuoted_escape]
      rfl
    · rename_i hgapNot
      rw [search_part_of_not_endsIn hkey (Plain.guarded hgap) hgapNot]
      split
      · rename_i hends
        rw [search_part_of_endsIn hkey (guarded_escape text) ((endsIn_escape hkey).mpr hends),
          readQuoted_document hrest hlast]
        rcases pieces with _ | ⟨piece, pieces⟩
        · rw [ih hrest]
          rfl
        · rfl
      · rename_i htextNot
        rw [search_part_of_not_endsIn hkey (guarded_escape text) (mt (endsIn_escape hkey).mp htextNot)]
        exact ih hrest

/-- The gap behind the first text that ends in a key; `next` is behind the last one. -/
def shadow (k : Marks σ) (key : List σ) : List (List σ × List σ) → List σ → Option (List σ)
  | [], _ => none
  | (_, text) :: pieces, next =>
    if k.EndsIn key text then some ((pieces.head?.map Prod.fst).getD next) else shadow k key pieces next

/-- Behind a key that stands in a gap its text is found, unless a text before it ends in the key. -/
theorem firstBehind_append {front : List (List σ × List σ)} (hfront : ∀ piece ∈ front, ¬k.EndsIn key piece.1)
    (hgap : k.EndsIn key gap) (text : List σ) :
    k.firstBehind key (front ++ (gap, text) :: pieces) = some ((k.shadow key front gap).getD text) := by
  induction front with
  | nil => exact if_pos hgap
  | cons piece front ih =>
    obtain ⟨gap', text'⟩ := piece
    obtain ⟨hpiece, hrest⟩ := List.forall_mem_cons.mp hfront
    rw [List.cons_append, firstBehind, shadow, if_neg hpiece]
    split
    · rcases front with _ | ⟨piece, front⟩
      · rfl
      · rfl
    · exact ih hrest

/-- A key that stands in no gap is found when a text but the last ends in it. -/
theorem firstBehind_eq_none_iff (h : ∀ piece ∈ pieces, ¬k.EndsIn key piece.1) :
    k.firstBehind key pieces = none ↔ ∀ piece ∈ pieces.dropLast, ¬k.EndsIn key piece.2 := by
  induction pieces with
  | nil => simp [firstBehind]
  | cons piece pieces ih =>
    obtain ⟨gap, text⟩ := piece
    obtain ⟨hpiece, hrest⟩ := List.forall_mem_cons.mp h
    rw [firstBehind, if_neg hpiece]
    rcases pieces with _ | ⟨piece', pieces⟩
    · simp [firstBehind]
    · rw [List.dropLast_cons₂, List.forall_mem_cons, ← ih hrest]
      split
      · rename_i hends
        simp [hends]
      · rename_i hends
        simp [hends]

/-- A text whose end does not fit a key does not end in it. -/
theorem not_endsIn_append (x : List σ) {y : List σ} (h : ¬key <:+ y.rdropWhile k.blank)
    (h' : ¬y.rdropWhile k.blank <:+ key) : ¬k.EndsIn key (x ++ y) := by
  have hne : y.rdropWhile k.blank ≠ [] := fun hnil => h' (hnil ▸ List.nil_suffix)
  have hdrop : (x ++ y).rdropWhile k.blank = x ++ y.rdropWhile k.blank := by
    have hempty : ((y.reverse.dropWhile k.blank).isEmpty) = false := by
      rw [List.isEmpty_eq_false_iff]
      exact fun hnil => hne (List.reverse_eq_nil_iff.mpr hnil)
    rw [List.rdropWhile, List.reverse_append, List.dropWhile_append, hempty, if_neg Bool.false_ne_true,
      List.reverse_append, List.reverse_reverse, List.rdropWhile]
  rw [EndsIn, hdrop]
  intro hsuffix
  exact (List.suffix_or_suffix_of_suffix hsuffix (List.suffix_append x _)).elim h h'

omit [DecidableEq σ] in
/-- A word without a symbol stands on one side of it. -/
theorem infix_append_cons_iff {c : σ} {x y : List σ} (hc : c ∉ w) (hne : w ≠ []) :
    w <:+: x ++ c :: y ↔ w <:+: x ∨ w <:+: y := by
  constructor
  · rintro ⟨u, v, h⟩
    rw [List.append_assoc] at h
    obtain ⟨a, rfl, ha⟩ | ⟨a, rfl, ha⟩ := List.append_eq_append_iff.mp h
    · obtain ⟨b, rfl, -⟩ := exists_of_append_eq hc ha
      exact .inl ⟨u, b, by simp⟩
    · rcases a with _ | ⟨d, a⟩
      · obtain ⟨e, w, rfl⟩ := List.exists_cons_of_ne_nil hne
        obtain ⟨rfl, -⟩ := List.cons.inj ha
        exact absurd List.mem_cons_self hc
      · obtain ⟨-, rfl⟩ := List.cons.inj ha
        exact .inr ⟨a, v, by simp⟩
  · rintro (h | h)
    · exact h.trans (List.prefix_append x _).isInfix
    · exact h.trans ((List.suffix_cons c y).trans (List.suffix_append x _)).isInfix

/-- A plain word stands in one of the gaps and texts. -/
theorem infix_document_iff (hne : w ≠ []) (hw : k.Plain w) :
    w <:+: k.document pieces last ↔ (∃ piece ∈ pieces, w <:+: piece.1 ∨ w <:+: piece.2) ∨ w <:+: last := by
  induction pieces with
  | nil => simp [document]
  | cons piece pieces ih =>
    obtain ⟨gap, text⟩ := piece
    rw [document, infix_append_cons_iff hw.quote_notMem hne, infix_append_cons_iff hw.quote_notMem hne,
      infix_escape_iff hne hw, ih]
    simp only [List.mem_cons, exists_eq_or_imp, or_assoc]

end Marks

end Text
