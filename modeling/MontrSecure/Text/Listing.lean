import MontrSecure.Text.Quoting
import MontrSecure.Text.Splitting

/-!
# Lists of quoted texts

A list is a line with a key and under it a line for each text, between quotes and behind a dash. The reader of a list
finds the key anywhere and takes the lines that follow as long as they are items. A text that holds the key and a
newline hides the list, and a text with a newline of its own ends it.
-/

namespace Text.Marks

variable {σ : Type} [DecidableEq σ] (k : Marks σ)

/-- The lines under a key. -/
def under (key s : List σ) : Option (List σ) :=
  (after key s).bind fun rest =>
    let blanks := rest.takeWhile k.blank
    if k.newline ∈ blanks then some (blanks.rtakeWhile (· ≠ k.newline) ++ rest.dropWhile k.blank) else none

/-- What an item has between its quotes. -/
def item (dash : σ) (line : List σ) : Option (List σ) :=
  (after [dash] (line.dropWhile k.blank)).bind fun rest =>
    (after [k.quote] (rest.dropWhile k.blank)).bind fun body =>
      (k.readQuoted body).bind fun (text, rest) => if rest.all k.blank then some text else none

/-- The items up to the first line that is none, or is empty. -/
def items (dash : σ) : List (List σ) → List (List σ)
  | [] => []
  | line :: lines =>
    match k.item dash line with
    | none | some [] => []
    | some (c :: text) => (c :: text) :: items dash lines

/-- The list under a key. -/
def listing (dash : σ) (key text : List σ) : List (List σ) :=
  match search (k.under key) text with
  | none => []
  | some lines => k.items dash (lines.splitOn k.newline)

/-- The part has the key with blanks behind it that reach the next line. -/
def Heads (key part : List σ) : Prop :=
  ∃ blanks, (∀ c ∈ blanks, k.blank c = true) ∧ k.newline ∈ blanks ∧ key ++ blanks <:+: part

/-- The texts that a list can hold. -/
def Listable (text : List σ) : Prop := text ≠ [] ∧ k.newline ∉ text

instance (text : List σ) : Decidable (k.Listable text) := inferInstanceAs (Decidable (_ ∧ _))

/-! ## Items -/

variable {k} {dash : σ} {key part text rest gap line : List σ}

theorem readQuoted_eq_some {s body : List σ} (h : k.readQuoted s = some (body, rest)) :
    s = body ++ k.quote :: rest := by
  induction s using readQuoted.induct k generalizing body with
  | case1 => cases h
  | case2 =>
    rw [readQuoted, if_pos rfl] at h
    cases h
    rfl
  | case3 c hc =>
    rw [readQuoted, if_neg hc] at h
    cases h
  | case4 d s =>
    rw [readQuoted, if_pos rfl] at h
    cases h
    rfl
  | case5 d s hline hne =>
    rw [readQuoted, if_neg hne, if_pos rfl, if_pos hline] at h
    cases h
  | case6 d s hne hline ih =>
    rw [readQuoted, if_neg hne, if_pos rfl, if_neg hline, Option.map_eq_some_iff] at h
    obtain ⟨⟨body', rest'⟩, hread, heq⟩ := h
    cases heq
    rw [ih hread]
    rfl
  | case7 c d s hc hback ih =>
    rw [readQuoted, if_neg hc, if_neg hback, Option.map_eq_some_iff] at h
    obtain ⟨⟨body', rest'⟩, hread, heq⟩ := h
    cases heq
    rw [ih hread]
    rfl

/-- An item has a quote that no backslash stands before, and a further one behind it. -/
theorem item_eq_some (hdash : dash ≠ k.back) (h : k.item dash line = some text) :
    ∃ x rest, line = x ++ k.quote :: (text ++ k.quote :: rest) ∧ x ≠ [] ∧ x.getLast? ≠ some k.back := by
  simp only [item, Option.bind_eq_some_iff, after_eq_some_iff] at h
  obtain ⟨body, hbody, body', hbody', ⟨text', rest⟩, hread, hend⟩ := h
  split at hend
  · have hread : k.readQuoted body' = some (text, rest) := Option.some.inj hend ▸ hread
    have hline : line =
        line.takeWhile k.blank ++ dash :: (body.takeWhile k.blank ++ k.quote :: (text ++ k.quote :: rest)) := by
      rw [← readQuoted_eq_some hread, ← List.singleton_append (x := k.quote), ← hbody',
        List.takeWhile_append_dropWhile, ← List.singleton_append, ← hbody, List.takeWhile_append_dropWhile]
    refine ⟨line.takeWhile k.blank ++ dash :: body.takeWhile k.blank, rest, ?_, by simp, ?_⟩
    · rw [List.append_assoc, List.cons_append]
      exact hline
    · intro hlast
      have hmem := List.mem_of_getLast? (hlast)
      rw [List.getLast?_append_of_ne_nil _ (List.cons_ne_nil dash _), List.getLast?_cons] at hlast
      cases hblanks : (body.takeWhile k.blank).getLast? with
      | none =>
        rw [hblanks] at hlast
        exact hdash (Option.some.inj hlast)
      | some c =>
        rw [hblanks] at hlast
        have hc : k.blank c = true := List.mem_takeWhile_imp (List.mem_of_getLast? hblanks)
        obtain rfl : c = k.back := Option.some.inj hlast
        rw [k.blank_back] at hc
        cases hc
  · cases hend

/-- A line inside a text is no item, and neither is one that the quote of a text ends. -/
theorem item_of_guarded (hdash : dash ≠ k.back) (h : k.Guarded line) :
    k.item dash line = none ∧ k.item dash (line ++ [k.quote]) = none := by
  constructor
  · refine Option.eq_none_iff_forall_ne_some.mpr fun text hitem => ?_
    obtain ⟨x, rest, rfl, hne, hlast⟩ := item_eq_some hdash hitem
    exact hlast (h x _ rfl hne)
  · refine Option.eq_none_iff_forall_ne_some.mpr fun text hitem => ?_
    obtain ⟨x, rest, hline, hne, hlast⟩ := item_eq_some hdash hitem
    -- The last quote of the line is not the first one of the item.
    rcases List.eq_nil_or_concat rest with rfl | ⟨rest, c, rfl⟩
    · have hfront : line = x ++ k.quote :: text := by
        have hconcat : line ++ [k.quote] = (x ++ k.quote :: text) ++ [k.quote] := by simp [hline]
        exact List.append_cancel_right hconcat
      exact hlast (h x text hfront hne)
    · have hconcat : line ++ [k.quote] = (x ++ k.quote :: (text ++ k.quote :: rest)) ++ [c] := by simp [hline]
      exact hlast (h x _ (List.append_inj_left' hconcat rfl) hne)

/-! ## The lines of a list -/

variable {lead blanks : List σ}

theorem newline_plain : k.newline ≠ k.quote ∧ k.newline ≠ k.back := by
  have hplain := plain_of_blank (k := k) (w := [k.newline]) (by simp [k.blank_newline])
  exact hplain k.newline List.mem_cons_self

/-- What the line of an item begins with. -/
structure IsLead (k : Marks σ) (dash : σ) (lead : List σ) : Prop where
  split : ∃ indent gap, lead = indent ++ dash :: gap ∧ (∀ c ∈ indent, k.blank c = true) ∧ ∀ c ∈ gap, k.blank c = true
  newline_notMem : k.newline ∉ lead
  dash_ne_back : dash ≠ k.back
  blank_dash : k.blank dash = false

theorem item_lead (h : k.IsLead dash lead) (rest : List σ) :
    k.item dash (lead ++ k.quote :: rest) =
      (k.readQuoted rest).bind fun (text, rest) => if rest.all k.blank then some text else none := by
  obtain ⟨indent, gap, rfl, hindent, hgap⟩ := h.split
  have hquote : ¬k.blank k.quote = true := by
    rw [k.blank_quote]
    exact Bool.false_ne_true
  have hdash : ¬k.blank dash = true := by
    rw [h.blank_dash]
    exact Bool.false_ne_true
  have hafter : ∀ (c : σ) (s : List σ), after [c] (c :: s) = some s := fun c s => after_append [c] s
  rw [item, List.append_assoc, List.dropWhile_append_of_pos hindent, List.cons_append,
    List.dropWhile_cons_of_neg hdash, hafter, Option.bind_some, List.dropWhile_append_of_pos hgap,
    List.dropWhile_cons_of_neg hquote, hafter, Option.bind_some]

theorem item_lead_escape (h : k.IsLead dash lead) (text : List σ) :
    k.item dash (lead ++ k.quote :: (k.escape text ++ [k.quote])) = some (k.escape text) := by
  rw [item_lead h, readQuoted_escape]
  rfl

theorem item_lead_open (h : k.IsLead dash lead) (text : List σ) :
    k.item dash (lead ++ k.quote :: k.escape text) = none := by
  rw [item_lead h, readQuoted_escape_eq_none]
  rfl

theorem newline_mem_escape_iff : k.newline ∈ k.escape text ↔ k.newline ∈ text := by
  have hplain : k.Plain [k.newline] := by
    intro c hc
    obtain rfl := List.mem_singleton.mp hc
    exact newline_plain
  rw [← List.singleton_infix_iff, ← List.singleton_infix_iff, infix_escape_iff (List.cons_ne_nil _ _) hplain]

/-- A listable text is read, and the reader goes on with the next line. Any other text ends the list. -/
theorem items_lead (h : k.IsLead dash lead) (text rest : List σ) :
    k.items dash ((lead ++ k.quote :: (k.escape text ++ k.quote :: k.newline :: rest)).splitOn k.newline) =
      if k.Listable text then k.escape text :: k.items dash (rest.splitOn k.newline) else [] := by
  have hlead : ∀ s, k.newline ∉ k.escape s → k.newline ∉ lead ++ k.quote :: k.escape s := by
    intro s hs
    simp only [List.mem_append, List.mem_cons, not_or]
    exact ⟨h.newline_notMem, newline_plain.1, hs⟩
  by_cases hnewline : k.newline ∈ text
  · -- The first line has no bare quote behind the text.
    obtain ⟨front, back, rfl, hfront⟩ := List.eq_append_cons_of_mem hnewline
    have hline : lead ++ k.quote :: (k.escape (front ++ k.newline :: back) ++ k.quote :: k.newline :: rest) =
        (lead ++ k.quote :: k.escape front) ++ k.newline :: (k.escape back ++ k.quote :: k.newline :: rest) := by
      rw [escape_append, escape_cons, escapeSymbol_of_plain newline_plain]
      simp
    rw [if_neg fun hlist => hlist.2 hnewline, hline,
      List.splitOn_append_cons_self_of_not_mem (hlead front (mt newline_mem_escape_iff.mp hfront)), items,
      item_lead_open h]
  · have hescape : k.newline ∉ k.escape text := mt newline_mem_escape_iff.mp hnewline
    have hline : lead ++ k.quote :: (k.escape text ++ k.quote :: k.newline :: rest) =
        (lead ++ k.quote :: (k.escape text ++ [k.quote])) ++ k.newline :: rest := by simp
    have hnot : k.newline ∉ lead ++ k.quote :: (k.escape text ++ [k.quote]) := by
      rw [← List.cons_append, ← List.append_assoc, List.mem_append, List.mem_singleton, not_or]
      exact ⟨hlead text hescape, newline_plain.1⟩
    rw [hline, List.splitOn_append_cons_self_of_not_mem hnot, items, item_lead_escape h]
    rcases htext : k.escape text with _ | ⟨c, text'⟩
    · rw [if_neg fun hlist => hlist.1 (escape_eq_nil_iff.mp htext)]
    · rw [if_pos ⟨fun hnil => absurd (escape_eq_nil_iff.mpr hnil) (htext ▸ List.cons_ne_nil c text'), hnewline⟩]

/-- The lines of a list, as they stand in a document: the line of the first text has begun. -/
def itemLines (k : Marks σ) (lead : List σ) (texts : List (List σ)) : List σ :=
  texts.flatMap fun text => lead ++ k.quote :: (k.escape text ++ [k.quote, k.newline])

/-- The texts up to the first that a list cannot hold are read. -/
theorem items_itemLines (h : k.IsLead dash lead) (texts : List (List σ))
    (hrest : k.items dash (rest.splitOn k.newline) = []) :
    k.items dash ((k.itemLines lead texts ++ rest).splitOn k.newline) =
      (texts.takeWhile fun text => k.Listable text).map k.escape := by
  induction texts with
  | nil => exact hrest
  | cons text texts ih =>
    have hlines : k.itemLines lead (text :: texts) ++ rest =
        lead ++ k.quote :: (k.escape text ++ k.quote :: k.newline :: (k.itemLines lead texts ++ rest)) := by
      simp [itemLines]
    rw [hlines, items_lead h, ih, List.takeWhile_cons]
    by_cases htext : k.Listable text
    · rw [if_pos htext, if_pos (decide_eq_true htext), List.map_cons]
    · rw [if_neg htext, if_neg (by simpa using htext), List.map_nil]

/-! ## Where the list is found -/

section

variable {p : σ → Bool} {c : σ}

omit [DecidableEq σ] in
theorem takeWhile_append_cons (hc : p c = false) (l r : List σ) : (l ++ c :: r).takeWhile p = l.takeWhile p := by
  induction l with
  | nil => simp [hc]
  | cons a l ih => simp [List.takeWhile_cons, ih]

omit [DecidableEq σ] in
theorem dropWhile_append_cons (hc : p c = false) (l r : List σ) :
    (l ++ c :: r).dropWhile p = l.dropWhile p ++ c :: r := by
  induction l with
  | nil => simp [hc]
  | cons a l ih =>
    rw [List.cons_append, List.dropWhile_cons, List.dropWhile_cons, ih]
    split <;> rfl

end

/-- What stands under a key that is found in front of a quote. -/
theorem under_append_quote {s lines : List σ} (hkey : k.Plain key)
    (hunder : k.under key (s ++ k.quote :: rest) = some lines) :
    ∃ blanks v, s = key ++ (blanks ++ v) ∧ (∀ c ∈ blanks, k.blank c = true) ∧ k.newline ∈ blanks ∧
      lines = blanks.rtakeWhile (· ≠ k.newline) ++ (v ++ k.quote :: rest) := by
  simp only [under, Option.bind_eq_some_iff, after_eq_some_iff] at hunder
  obtain ⟨u, hu, hlines⟩ := hunder
  obtain ⟨u, rfl, rfl⟩ := exists_of_append_eq hkey.quote_notMem hu.symm
  rw [takeWhile_append_cons k.blank_quote, dropWhile_append_cons k.blank_quote] at hlines
  split at hlines
  · rename_i hnewline
    refine ⟨u.takeWhile k.blank, u.dropWhile k.blank, ?_, fun c hc => List.mem_takeWhile_imp hc, hnewline, ?_⟩
    · rw [List.takeWhile_append_dropWhile]
    · exact (Option.some.inj hlines).symm
  · cases hlines

/-- A part without the key and a line end behind it is passed over. -/
theorem search_under_of_not_heads (hne : key ≠ []) (hkey : k.Plain key) (h : ¬k.Heads key part) (rest : List σ) :
    search (k.under key) (part ++ k.quote :: rest) = search (k.under key) rest := by
  have hquote : search (k.under key) (k.quote :: rest) = search (k.under key) rest := by
    rw [search_cons]
    cases hunder : k.under key (k.quote :: rest) with
    | none => rw [Option.none_or]
    | some lines =>
      obtain ⟨blanks, v, hs, -⟩ := under_append_quote (s := []) hkey hunder
      exact absurd (List.append_eq_nil_iff.mp hs.symm).1 hne
  rw [search_append_of_none, hquote]
  rintro s - ⟨front, rfl⟩
  refine Option.eq_none_iff_forall_ne_some.mpr fun lines hunder => h ?_
  obtain ⟨blanks, v, rfl, hblanks, hnewline, -⟩ := under_append_quote hkey hunder
  exact ⟨blanks, hblanks, hnewline, front, v, by simp⟩

theorem listing_of_not_heads (hne : key ≠ []) (hkey : k.Plain key) (h : ¬k.Heads key part) (rest : List σ) :
    k.listing dash key (part ++ k.quote :: rest) = k.listing dash key rest := by
  rw [listing, listing, search_under_of_not_heads hne hkey h]

omit [DecidableEq σ] in
theorem Guarded.prefix {s : List σ} (h : k.Guarded part) (hs : s <+: part) : k.Guarded s := by
  rintro x y rfl hne
  obtain ⟨back, rfl⟩ := hs
  exact h x (y ++ back) (by simp) hne

theorem heads_escape_iff (hne : key ≠ []) (hkey : k.Plain key) : k.Heads key (k.escape text) ↔ k.Heads key text := by
  refine exists_congr fun blanks => and_congr_right fun hblanks => and_congr_right fun _ => ?_
  exact infix_escape_iff (List.append_ne_nil_of_left_ne_nil hne blanks)
    (plain_append.mpr ⟨hkey, plain_of_blank hblanks⟩)

/-- A text that has the key and a line end hides the list. -/
theorem listing_of_heads (hdash : dash ≠ k.back) (hne : key ≠ []) (hkey : k.Plain key) (h : k.Heads key text)
    (rest : List σ) : k.listing dash key (k.escape text ++ k.quote :: k.newline :: rest) = [] := by
  have hsome : ∃ s ≠ [], s <:+ k.escape text ∧ k.under key (s ++ k.quote :: k.newline :: rest) ≠ none := by
    obtain ⟨blanks, hblanks, hnewline, u, v, rfl⟩ := h
    have hplain : k.Plain (key ++ blanks) := plain_append.mpr ⟨hkey, plain_of_blank hblanks⟩
    refine ⟨key ++ (blanks ++ k.escape v), List.append_ne_nil_of_left_ne_nil hne _, ⟨k.escape u, ?_⟩, ?_⟩
    · rw [escape_append, escape_append, escape_of_plain hplain]
      simp
    · have hmem : k.newline ∈ (blanks ++ k.escape v).takeWhile k.blank := by
        rw [List.takeWhile_append_of_pos hblanks]
        exact List.mem_append_left _ hnewline
      rw [under, List.append_assoc, after_append, Option.bind_some, takeWhile_append_cons k.blank_quote]
      exact (if_pos hmem).trans_ne (Option.some_ne_none _)
  obtain ⟨s, lines, hs, hunder, hsearch⟩ := exists_search_append hsome
  obtain ⟨blanks, v, rfl, -, -, rfl⟩ := under_append_quote hkey hunder
  -- What is left of the text in its line has no bare quote.
  have hguarded : k.Guarded (blanks.rtakeWhile (· ≠ k.newline) ++ v) := by
    refine (guarded_escape text).suffix (List.IsSuffix.trans ?_ hs)
    refine ⟨key ++ blanks.rdropWhile (· ≠ k.newline), ?_⟩
    rw [List.append_assoc, ← List.append_assoc (blanks.rdropWhile _), List.rdropWhile_append_rtakeWhile]
  rw [listing, hsearch]
  change k.items dash ((_ : List σ).splitOn k.newline) = []
  rw [← List.append_assoc]
  generalize blanks.rtakeWhile (· ≠ k.newline) ++ v = line at hguarded
  by_cases hnewline : k.newline ∈ line
  · obtain ⟨front, back, rfl, hfront⟩ := List.eq_append_cons_of_mem hnewline
    have hguardedFront := hguarded.prefix (List.prefix_append front _)
    rw [List.append_assoc, List.cons_append, List.splitOn_append_cons_self_of_not_mem hfront, items,
      (item_of_guarded hdash hguardedFront).1]
  · have hnot : k.newline ∉ line ++ [k.quote] := by
      rw [List.mem_append, List.mem_singleton, not_or]
      exact ⟨hnewline, newline_plain.1⟩
    rw [← List.singleton_append (x := k.quote), ← List.append_assoc,
      List.splitOn_append_cons_self_of_not_mem hnot, items, (item_of_guarded hdash hguarded).2]

/-- The list is found at the first occurrence of its key. -/
theorem listing_at_key (hlead : k.IsLead dash lead) (hfirst : ¬key <:+: part ++ key.dropLast) (rest : List σ) :
    k.listing dash key (part ++ (key ++ k.newline :: (lead ++ rest))) =
      k.items dash ((lead ++ rest).splitOn k.newline) := by
  obtain ⟨indent, gap, rfl, hindent, -⟩ := hlead.split
  have hnewline : k.newline ∉ indent := fun hmem => hlead.newline_notMem (List.mem_append_left _ hmem)
  have hblanks : (k.newline :: (indent ++ dash :: gap ++ rest)).takeWhile k.blank = k.newline :: indent := by
    rw [List.takeWhile_cons_of_pos k.blank_newline, List.append_assoc, List.takeWhile_append_of_pos hindent,
      List.cons_append, List.takeWhile_cons_of_neg (by rw [hlead.blank_dash]; exact Bool.false_ne_true),
      List.append_nil]
  have hbehind : (k.newline :: (indent ++ dash :: gap ++ rest)).dropWhile k.blank = dash :: gap ++ rest := by
    rw [List.dropWhile_cons_of_pos k.blank_newline, List.append_assoc, List.dropWhile_append_of_pos hindent,
      List.cons_append, List.dropWhile_cons_of_neg (by rw [hlead.blank_dash]; exact Bool.false_ne_true)]
  have hindented : (k.newline :: indent).rtakeWhile (· ≠ k.newline) = indent := by
    have hindent' : ∀ c ∈ indent.reverse, decide (c ≠ k.newline) = true := by
      intro c hc
      exact decide_eq_true fun heq => hnewline (heq ▸ List.mem_reverse.mp hc)
    rw [List.rtakeWhile, List.reverse_cons, List.takeWhile_append_of_pos hindent',
      List.takeWhile_cons_of_neg (by simp), List.append_nil, List.reverse_reverse]
  have hunder : k.under key (key ++ k.newline :: (indent ++ dash :: gap ++ rest)) =
      some (indent ++ dash :: gap ++ rest) := by
    rw [under, after_append, Option.bind_some, hblanks, hbehind]
    dsimp only
    rw [hindented, if_pos List.mem_cons_self, List.append_assoc]
  rw [listing, search_append_of_none, search_of_some hunder]
  rintro s hne ⟨front, rfl⟩
  have hnone : after key (s ++ (key ++ k.newline :: (indent ++ dash :: gap ++ rest))) = none := by
    refine Option.eq_none_iff_forall_ne_some.mpr fun v hafter => hfirst ?_
    have hprefix : key <+: s ++ key.dropLast := by
      refine List.prefix_of_prefix_length_le ⟨v, (after_eq_some_iff.mp hafter).symm⟩
        ((List.prefix_append_right_inj s).mpr ((List.dropLast_prefix key).trans (List.prefix_append key _))) ?_
      have hs := List.length_pos_iff.mpr hne
      rw [List.length_append, List.length_dropLast]
      omega
    rw [List.append_assoc]
    exact hprefix.isInfix.trans (List.suffix_append front _).isInfix
  rw [under, hnone, Option.bind_none]

/-! ## Lists in documents -/

variable {pieces front : List (List σ × List σ)} {last : List σ}

theorem document_append (front pieces : List (List σ × List σ)) (last : List σ) :
    k.document (front ++ pieces) last = k.document front (k.document pieces last) := by
  induction front with
  | nil => rfl
  | cons piece front ih =>
    obtain ⟨gap, text⟩ := piece
    rw [List.cons_append, document, document, ih]

/-- Every gap begins with a line end, so every text ends its line. -/
def Lines (k : Marks σ) (pieces : List (List σ × List σ)) (last : List σ) : Prop :=
  (∀ piece ∈ pieces, piece.1.head? = some k.newline) ∧ last.head? = some k.newline

theorem Lines.head? (h : k.Lines pieces last) : (k.document pieces last).head? = some k.newline := by
  cases pieces with
  | nil => exact h.2
  | cons piece pieces =>
    obtain ⟨gap, text⟩ := piece
    rw [document, List.head?_append, h.1 (gap, text) List.mem_cons_self, Option.some_or]

/-- A piece without the key is passed over. -/
theorem listing_piece (hne : key ≠ []) (hkey : k.Plain key) (hgap : ¬k.Heads key gap) (htext : ¬k.Heads key text) :
    k.listing dash key (k.document ((gap, text) :: pieces) last) = k.listing dash key (k.document pieces last) := by
  rw [document, listing_of_not_heads hne hkey hgap,
    listing_of_not_heads hne hkey (mt (heads_escape_iff hne hkey).mp htext)]

/-- Pieces without the key are passed over. -/
theorem listing_front (hne : key ≠ []) (hkey : k.Plain key)
    (h : ∀ piece ∈ front, ¬k.Heads key piece.1 ∧ ¬k.Heads key piece.2) :
    k.listing dash key (k.document (front ++ pieces) last) = k.listing dash key (k.document pieces last) := by
  induction front with
  | nil => rfl
  | cons piece front ih =>
    obtain ⟨⟨hgap, htext⟩, hfront⟩ := List.forall_mem_cons.mp h
    exact (listing_piece hne hkey hgap htext).trans (ih hfront)

theorem heads_of_under {s lines : List σ} (h : k.under key s = some lines) : k.Heads key s := by
  simp only [under, Option.bind_eq_some_iff, after_eq_some_iff] at h
  obtain ⟨u, rfl, hlines⟩ := h
  split at hlines
  · rename_i hnewline
    refine ⟨u.takeWhile k.blank, fun c hc => List.mem_takeWhile_imp hc, hnewline, [], u.dropWhile k.blank, ?_⟩
    rw [List.nil_append, List.append_assoc, List.takeWhile_append_dropWhile]
  · cases hlines

theorem heads_iff (hkey : k.Plain key) {text : List σ} :
    k.Heads key text ↔ (search (k.under key) text).isSome = true := by
  rw [isSome_search_iff]
  constructor
  · rintro ⟨blanks, hblanks, hnewline, u, v, rfl⟩
    refine ⟨key ++ (blanks ++ v), ⟨u, by simp⟩, ?_⟩
    have hmem : k.newline ∈ (blanks ++ v).takeWhile k.blank := by
      rw [List.takeWhile_append_of_pos hblanks]
      exact List.mem_append_left _ hnewline
    rw [under, after_append, Option.bind_some]
    exact (congrArg Option.isSome (if_pos hmem)).trans Option.isSome_some
  · rintro ⟨s, ⟨front, rfl⟩, hunder⟩
    obtain ⟨lines, hlines⟩ := Option.isSome_iff_exists.mp hunder
    obtain ⟨blanks, hblanks, hnewline, hinfix⟩ := heads_of_under hlines
    exact ⟨blanks, hblanks, hnewline, hinfix.trans (List.suffix_append front s).isInfix⟩

/-- Without the key there is no list. -/
theorem listing_eq_nil (h : ¬k.Heads key last) : k.listing dash key last = [] := by
  have hnone : ∀ s, s <:+ last → k.under key s = none := by
    rintro s ⟨front, rfl⟩
    refine Option.eq_none_iff_forall_ne_some.mpr fun lines hunder => h ?_
    obtain ⟨blanks, hblanks, hnewline, hinfix⟩ := heads_of_under hunder
    exact ⟨blanks, hblanks, hnewline, hinfix.trans (List.suffix_append front s).isInfix⟩
  have hsearch : search (k.under key) last = none := by
    rw [← List.append_nil last, search_append_of_none, search_nil, hnone [] (List.nil_suffix)]
    rintro s - hs
    rw [List.append_nil, hnone s hs]
  rw [listing, hsearch]

/-- The first text with the key and a line end hides the list. -/
theorem listing_hidden (hdash : dash ≠ k.back) (hne : key ≠ []) (hkey : k.Plain key)
    (hgaps : ∀ piece ∈ front, ¬k.Heads key piece.1) (htexts : ∃ piece ∈ front, k.Heads key piece.2)
    (hlines : k.Lines (front ++ pieces).tail last) :
    k.listing dash key (k.document (front ++ pieces) last) = [] := by
  induction front with
  | nil =>
    obtain ⟨piece, hpiece, -⟩ := htexts
    cases hpiece
  | cons piece front ih =>
    obtain ⟨gap, text⟩ := piece
    obtain ⟨hgap, hrest⟩ := List.forall_mem_cons.mp hgaps
    rw [List.cons_append, List.tail_cons] at hlines
    rw [List.cons_append]
    by_cases htext : k.Heads key text
    · obtain ⟨rest, hdocument⟩ := List.head?_eq_some_iff.mp hlines.head?
      rw [document, listing_of_not_heads hne hkey hgap, hdocument, listing_of_heads hdash hne hkey htext]
    · rw [listing_piece hne hkey hgap htext]
      refine ih hrest ?_ ⟨fun piece hpiece => hlines.1 piece (List.mem_of_mem_tail hpiece), hlines.2⟩
      obtain ⟨piece, hpiece, hheads⟩ := htexts
      obtain rfl | hpiece := List.mem_cons.mp hpiece
      · exact absurd hheads htext
      · exact ⟨piece, hpiece, hheads⟩

/-- The pieces of a list. -/
def listPieces (k : Marks σ) (lead : List σ) (texts : List (List σ)) : List (List σ × List σ) :=
  texts.map fun text => (k.newline :: lead, text)

theorem document_listPieces (lead text : List σ) (texts : List (List σ)) {rest : List σ}
    (hrest : k.document pieces last = k.newline :: rest) :
    lead ++ k.quote :: (k.escape text ++ k.quote :: k.document (k.listPieces lead texts ++ pieces) last) =
      k.itemLines lead (text :: texts) ++ rest := by
  induction texts generalizing text with
  | nil =>
    rw [listPieces, List.map_nil, List.nil_append, hrest]
    simp [itemLines]
  | cons text' texts ih =>
    have hcons : k.document (k.listPieces lead (text' :: texts) ++ pieces) last = k.newline ::
        (lead ++ k.quote :: (k.escape text' ++ k.quote :: k.document (k.listPieces lead texts ++ pieces) last)) := by
      simp [listPieces, document]
    have hlines : k.itemLines lead (text :: text' :: texts) =
        lead ++ k.quote :: (k.escape text ++ [k.quote, k.newline]) ++ k.itemLines lead (text' :: texts) := by
      rw [itemLines, List.flatMap_cons]
      rfl
    rw [hcons, ih, hlines]
    simp

/-- What is read of a list whose key stands in the gap before its first text. -/
theorem listing_list (hlead : k.IsLead dash lead) (hfirst : ¬key <:+: part ++ key.dropLast) (text : List σ)
    (texts : List (List σ)) {rest : List σ} (hrest : k.document pieces last = k.newline :: rest)
    (hend : k.items dash (rest.splitOn k.newline) = []) :
    k.listing dash key (k.document ((part ++ (key ++ k.newline :: lead), text) ::
        (k.listPieces lead texts ++ pieces)) last) =
      ((text :: texts).takeWhile fun text => k.Listable text).map k.escape := by
  rw [← items_itemLines hlead (text :: texts) hend, ← document_listPieces lead text texts hrest,
    ← listing_at_key hlead hfirst, document]
  simp

end Text.Marks
