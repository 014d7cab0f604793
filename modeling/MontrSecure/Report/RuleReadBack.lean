import MontrSecure.Report.RuleContext
import MontrSecure.Report.SigmaRules

/-!
# Reading a rule back

`parseSigmaRule` on what `buildSigmaRule` writes. The reader looks for its keys in the whole of a rule, so that a text
that ends in a key, or holds the key of a list and a line end, is taken for the line it looks like.
`readsBack_buildRuleContext_iff` says for which texts a rule is read as it was meant.
-/

namespace MontrSecure.Sigma

open Text Text.Marks
open Purple

/-! ## The gaps of a rule -/

/-- The keys with a text behind them. -/
def fieldKeys : List String := ["TargetFilename|contains:", "cs-uri-stem|startswith:", "cs-method:"]

/-- The keys with a list under them. -/
def listKeys : List String := ["cs-uri-query|contains:", "cs-body|contains:"]

theorem isKey_of_mem {key : String} (h : key ∈ fieldKeys) : marks.IsKey (units key) := by
  have hall : ∀ key ∈ fieldKeys, marks.Plain (units key) ∧ (units key).getLast? = some (unit ':') := by decide
  obtain ⟨hplain, hlast⟩ := hall key h
  exact ⟨hplain, unit ':', hlast, by decide⟩

/-- A gap of a rule has no key but its own, and only the one before a file name names the file event. -/
structure Clean (own : Option String) (gap : List ℕ) : Prop where
  plain : marks.Plain gap
  fields : ∀ key ∈ fieldKeys, some key ≠ own → ¬marks.EndsIn (units key) gap
  lists : ∀ key ∈ listKeys, some key ≠ own → ¬units key <:+: gap
  event : own ≠ some "TargetFilename|contains:" → ∃ c ∈ units "category:file_event", c ∉ gap

instance (own : Option String) (gap : List ℕ) : Decidable (Clean own gap) :=
  decidable_of_iff (marks.Plain gap ∧ (∀ key ∈ fieldKeys, some key ≠ own → ¬marks.EndsIn (units key) gap) ∧
    (∀ key ∈ listKeys, some key ≠ own → ¬units key <:+: gap) ∧
    (own ≠ some "TargetFilename|contains:" → ∃ c ∈ units "category:file_event", c ∉ gap))
    ⟨fun h => ⟨h.1, h.2.1, h.2.2.1, h.2.2.2⟩, fun h => ⟨h.plain, h.fields, h.lists, h.event⟩⟩

variable {own : Option String} {gap : List ℕ}

theorem Clean.mono (h : Clean none gap) : Clean own gap where
  plain := h.plain
  fields key hkey _ := h.fields key hkey (Option.some_ne_none key)
  lists key hkey _ := h.lists key hkey (Option.some_ne_none key)
  event _ := h.event (Option.some_ne_none _).symm

theorem Clean.not_namesFileEvent (h : Clean own gap) (hown : own ≠ some "TargetFilename|contains:") :
    ¬NamesFileEvent gap := by
  obtain ⟨c, hc, hgap⟩ := h.event hown
  exact Sigma.not_namesFileEvent hc hgap

theorem Clean.not_heads {key : String} (h : Clean own gap) (hkey : key ∈ listKeys) (hown : some key ≠ own) :
    ¬marks.Heads (units key) gap := by
  rintro ⟨blanks, -, -, hinfix⟩
  exact h.lists key hkey hown ((List.prefix_append _ blanks).isInfix.trans hinfix)

/-- A gap around a tame text. -/
theorem clean_of_tame {before behind text : List ℕ} (htext : Tame text) (hbefore : Tame before)
    (hbehind : Tame behind) (hfields : ∀ key ∈ fieldKeys, ¬units key <:+ behind.rdropWhile isSpace ∧
      ¬behind.rdropWhile isSpace <:+ units key) : Clean none (before ++ text ++ behind) := by
  have htame : Tame (before ++ text ++ behind) := tame_append.mpr ⟨tame_append.mpr ⟨hbefore, htext⟩, hbehind⟩
  refine ⟨fun c hc => ?_, fun key hkey _ => ?_, fun key hkey _ hinf => ?_, fun _ => ?_⟩
  · have hnot := htame c hc
    simp only [IsTame, List.mem_cons, not_or] at hnot
    exact ⟨hnot.1, hnot.2.1⟩
  · exact not_endsIn_append _ (hfields key hkey).1 (hfields key hkey).2
  · have hbar : ∀ key ∈ listKeys, unit '|' ∈ units key := by decide
    exact htame _ (hinf.subset (hbar key hkey)) (by decide)
  · exact ⟨unit 'y', by decide, fun hy => htame _ hy (by decide)⟩

variable (rt : RuleRuntime) (finding : ConfirmedFinding) (ctx : RuleContext) (mitreTechniques : List String)

theorem clean_headPieces : ∀ piece ∈ headPieces rt finding ctx, Clean none piece.1 := by
  simp only [headPieces, List.forall_mem_cons]
  refine ⟨by decide, ?_, by decide, ?_, List.forall_mem_nil _⟩
  · exact clean_of_tame (tame_deterministicUuid rt _) (by decide) (by decide) (by decide)
  · exact clean_of_tame (tame_ruleDate finding) (by decide) (by decide) (by decide)

theorem clean_listAt {header lead : List ℕ} (hheader : Clean own (header ++ newline :: lead))
    (hlead : Clean none (newline :: lead)) (texts : List (List ℕ)) :
    ∀ piece ∈ listAt header lead texts, Clean own piece.1 := by
  cases texts with
  | nil => exact List.forall_mem_nil _
  | cons text texts =>
    rw [listAt, List.forall_mem_cons]
    refine ⟨hheader, fun piece hpiece => ?_⟩
    obtain ⟨text', -, rfl⟩ := List.mem_map.mp hpiece
    exact hlead.mono

/-- The texts of the rule itself, around what it lists. -/
theorem clean_leads :
    (Clean (some "cs-uri-query|contains:") (queryHeader ++ newline :: markerLead) ∧
      Clean (some "cs-body|contains:") (bodyHeader ++ newline :: markerLead) ∧ Clean none (newline :: markerLead)) ∧
    Clean (some "TargetFilename|contains:") fileGap ∧ Clean (some "cs-uri-stem|startswith:") pathGap := by
  decide +kernel

theorem clean_queryPieces (texts : List (List ℕ)) :
    ∀ piece ∈ listAt queryHeader markerLead texts, Clean (some "cs-uri-query|contains:") piece.1 :=
  clean_listAt clean_leads.1.1 clean_leads.1.2.2 texts

theorem clean_bodyPieces (texts : List (List ℕ)) :
    ∀ piece ∈ listAt bodyHeader markerLead texts, Clean (some "cs-body|contains:") piece.1 :=
  clean_listAt clean_leads.1.2.1 clean_leads.1.2.2 texts

theorem clean_fileGap : Clean (some "TargetFilename|contains:") fileGap := clean_leads.2.1

theorem clean_pathGap : Clean (some "cs-uri-stem|startswith:") pathGap := clean_leads.2.2

theorem clean_methodGap : Clean (some "cs-method:") methodGap := by decide

/-- The conditions that a rule can have. -/
def conditions : List String :=
  ["    condition: selection", "    condition: selection_route and 1 of selection_payload_*",
    "    condition: selection_route"]

theorem clean_tailPieces {condition : String} (h : condition ∈ conditions) :
    ∀ piece ∈ tailPieces rt finding mitreTechniques condition, Clean none piece.1 := by
  have hgap : ∀ condition ∈ conditions, Clean none (plainLines [condition, "falsepositives:", "    - "]) := by
    decide
  have hlevel : ∀ severity : Severity, Clean none (plainLines [s!"level: {sigmaLevel severity}", "tags:"] ++
      newline :: (units "    " ++ units "- ")) := by
    intro severity
    cases severity <;> decide
  rw [tailPieces, List.forall_mem_cons]
  exact ⟨hgap condition h, clean_listAt (hlevel finding.severity) (by decide) _⟩

theorem routeCondition_mem : routeCondition ctx ∈ conditions := by
  unfold routeCondition
  split
  · exact List.mem_cons_of_mem _ List.mem_cons_self
  · exact List.mem_cons_of_mem _ (List.mem_cons_of_mem _ List.mem_cons_self)

/-! ## The pieces of a rule for a route -/

/-- The pieces before the lists. -/
def frontPieces : List (List ℕ × List ℕ) :=
  headPieces rt finding ctx ++ (pathGap, units ctx.path) :: methodPieces ctx

/-- The pieces from the list for the query on. -/
def listsPieces : List (List ℕ × List ℕ) :=
  listAt queryHeader markerLead (ctx.markers.map units) ++
    (listAt bodyHeader markerLead (ctx.markers.map units) ++
      tailPieces rt finding mitreTechniques (routeCondition ctx))

theorem routePieces_eq :
    routePieces rt finding ctx mitreTechniques =
      frontPieces rt finding ctx ++ listsPieces rt finding ctx mitreTechniques := by
  rw [routePieces, frontPieces, listsPieces, List.append_assoc, List.cons_append]

variable {rt finding ctx mitreTechniques}

/-- Every gap of a rule for a route is clean but for its own key. -/
theorem exists_clean_routePieces {piece : List ℕ × List ℕ} (h : piece ∈ routePieces rt finding ctx mitreTechniques) :
    ∃ own, own ≠ some "TargetFilename|contains:" ∧ Clean own piece.1 := by
  simp only [routePieces, List.mem_append, List.mem_cons] at h
  obtain h | rfl | h | h | h | h := h
  · exact ⟨none, by decide, clean_headPieces rt finding ctx piece h⟩
  · exact ⟨_, by decide, clean_pathGap⟩
  · unfold methodPieces at h
    split at h
    · obtain rfl := List.mem_singleton.mp h
      exact ⟨_, by decide, clean_methodGap⟩
    · cases h
  · exact ⟨_, by decide, clean_queryPieces _ piece h⟩
  · exact ⟨_, by decide, clean_bodyPieces _ piece h⟩
  · exact ⟨none, by decide, clean_tailPieces rt finding mitreTechniques (routeCondition_mem ctx) piece h⟩

theorem plain_routePieces : ∀ piece ∈ routePieces rt finding ctx mitreTechniques, marks.Plain piece.1 := by
  intro piece hpiece
  obtain ⟨own, -, hclean⟩ := exists_clean_routePieces hpiece
  exact hclean.plain

/-- A rule for a route is read as one when no text names the file event. -/
theorem isFileEvent_route_iff (hkind : ctx.kind ≠ .fileFallback) :
    isFileEvent (buildSigmaRule rt finding ctx mitreTechniques) = true ↔
      ∃ piece ∈ routePieces rt finding ctx mitreTechniques, NamesFileEvent piece.2 := by
  rw [isFileEvent_iff, buildSigmaRule_route hkind, namesFileEvent_document]
  constructor
  · rintro (⟨piece, hpiece, hgap | htext⟩ | hlast)
    · obtain ⟨own, hown, hclean⟩ := exists_clean_routePieces hpiece
      exact absurd hgap (hclean.not_namesFileEvent hown)
    · exact ⟨piece, hpiece, htext⟩
    · exact absurd hlast (not_namesFileEvent (c := unit 'f') (by decide) (by decide))
  · rintro ⟨piece, hpiece, htext⟩
    exact .inl ⟨piece, hpiece, .inr htext⟩

theorem isFileEvent_route_eq_false_iff (hkind : ctx.kind ≠ .fileFallback) :
    isFileEvent (buildSigmaRule rt finding ctx mitreTechniques) = false ↔
      ∀ piece ∈ routePieces rt finding ctx mitreTechniques, ¬NamesFileEvent piece.2 := by
  rw [← Bool.not_eq_true, isFileEvent_route_iff hkind]
  simp only [not_exists, not_and]

/-- The path that is read. -/
theorem extractOne_path (hkind : ctx.kind ≠ .fileFallback) :
    extractOne (buildSigmaRule rt finding ctx mitreTechniques) "cs-uri-stem|startswith:" =
      some ((marks.shadow (units "cs-uri-stem|startswith:") (headPieces rt finding ctx) pathGap).getD
        (units ctx.path)) := by
  have hkey : "cs-uri-stem|startswith:" ∈ fieldKeys := by decide
  rw [buildSigmaRule_route hkind, extractOne_document (isKey_of_mem hkey) plain_routePieces (by decide),
    routePieces]
  refine firstBehind_append (fun piece hpiece => ?_) (by decide) (units ctx.path)
  exact (clean_headPieces rt finding ctx piece hpiece).fields _ hkey (Option.some_ne_none _)

/-- No gap before that of the method has its key. -/
theorem not_endsIn_method {piece : List ℕ × List ℕ}
    (h : piece ∈ headPieces rt finding ctx ++ [(pathGap, units ctx.path)]) :
    ¬marks.EndsIn (units "cs-method:") piece.1 := by
  have hkey : "cs-method:" ∈ fieldKeys := by decide
  obtain h | h := List.mem_append.mp h
  · exact (clean_headPieces rt finding ctx piece h).fields _ hkey (Option.some_ne_none _)
  · obtain rfl := List.mem_singleton.mp h
    exact clean_pathGap.fields _ hkey (by decide)

/-- The method that is read, of a rule that pins one. -/
theorem extractOne_method (hkind : ctx.kind ≠ .fileFallback) (hmethod : ctx.method ≠ "ANY") :
    extractOne (buildSigmaRule rt finding ctx mitreTechniques) "cs-method:" =
      some ((marks.shadow (units "cs-method:") (headPieces rt finding ctx ++ [(pathGap, units ctx.path)])
        methodGap).getD (units ctx.method)) := by
  have hkey : "cs-method:" ∈ fieldKeys := by decide
  have hpieces : ∃ rest, routePieces rt finding ctx mitreTechniques =
      (headPieces rt finding ctx ++ [(pathGap, units ctx.path)]) ++ (methodGap, units ctx.method) :: rest := by
    rw [routePieces, methodPieces, if_pos hmethod]
    exact ⟨_, by rw [List.append_assoc, List.singleton_append, List.singleton_append]⟩
  obtain ⟨rest, hrest⟩ := hpieces
  rw [buildSigmaRule_route hkind, extractOne_document (isKey_of_mem hkey) plain_routePieces (by decide), hrest]
  exact firstBehind_append (fun piece => not_endsIn_method) (by decide) (units ctx.method)

/-- No method is read of a rule without one, unless a text but the last ends in the key. -/
theorem extractOne_anyMethod (hkind : ctx.kind ≠ .fileFallback) (hmethod : ctx.method = "ANY") :
    extractOne (buildSigmaRule rt finding ctx mitreTechniques) "cs-method:" = none ↔
      ∀ piece ∈ (routePieces rt finding ctx mitreTechniques).dropLast,
        ¬marks.EndsIn (units "cs-method:") piece.2 := by
  have hkey : "cs-method:" ∈ fieldKeys := by decide
  rw [buildSigmaRule_route hkind, extractOne_document (isKey_of_mem hkey) plain_routePieces (by decide)]
  refine firstBehind_eq_none_iff fun piece hpiece => ?_
  rw [routePieces_eq, frontPieces, methodPieces, if_neg (not_not.mpr hmethod), List.mem_append] at hpiece
  obtain hpiece | hpiece := hpiece
  · exact not_endsIn_method hpiece
  · simp only [listsPieces, List.mem_append] at hpiece
    obtain h | h | h := hpiece
    · exact (clean_queryPieces _ piece h).fields _ hkey (by decide)
    · exact (clean_bodyPieces _ piece h).fields _ hkey (by decide)
    · exact (clean_tailPieces rt finding mitreTechniques (routeCondition_mem ctx) piece h).fields _ hkey
        (Option.some_ne_none _)

/-! ## The lists of a rule -/

theorem head?_plainLines_append (line : String) (lines : List String) (rest : List ℕ) :
    (plainLines (line :: lines) ++ rest).head? = some marks.newline := rfl

theorem head?_listAt {line : String} {lines : List String} {lead : List ℕ} {texts : List (List ℕ)}
    {piece : List ℕ × List ℕ} (h : piece ∈ listAt (plainLines (line :: lines)) lead texts) :
    piece.1.head? = some marks.newline := by
  cases texts with
  | nil => cases h
  | cons text texts =>
    obtain rfl | h := List.mem_cons.mp h
    · exact head?_plainLines_append line lines _
    · obtain ⟨text', -, rfl⟩ := List.mem_map.mp h
      rfl

theorem head?_listsPieces {piece : List ℕ × List ℕ} (h : piece ∈ listsPieces rt finding ctx mitreTechniques) :
    piece.1.head? = some marks.newline := by
  simp only [listsPieces, tailPieces, List.mem_append, List.mem_cons] at h
  obtain h | h | rfl | h := h
  · exact head?_listAt h
  · exact head?_listAt h
  · rfl
  · exact head?_listAt h

theorem text_of_mem_listAt {header lead : List ℕ} {texts : List (List ℕ)} {piece : List ℕ × List ℕ}
    (h : piece ∈ listAt header lead texts) : piece.2 ∈ texts := by
  cases texts with
  | nil => cases h
  | cons text texts =>
    obtain rfl | h := List.mem_cons.mp h
    · exact List.mem_cons_self
    · obtain ⟨text', htext', rfl⟩ := List.mem_map.mp h
      exact List.mem_cons_of_mem text htext'

/-- Every text of a rule ends its line. -/
theorem lines_routePieces : marks.Lines (routePieces rt finding ctx mitreTechniques).tail [newline] := by
  refine ⟨fun piece hpiece => ?_, rfl⟩
  rw [routePieces_eq, frontPieces, headPieces, List.cons_append, List.cons_append, List.tail_cons] at hpiece
  simp only [List.mem_append, List.mem_cons, List.not_mem_nil, or_false] at hpiece
  obtain ((rfl | rfl | rfl) | rfl | hmethod) | hlists := hpiece
  · rfl
  · rfl
  · rfl
  · rfl
  · unfold methodPieces at hmethod
    split at hmethod
    · obtain rfl := List.mem_singleton.mp hmethod
      rfl
    · cases hmethod
  · exact head?_listsPieces hlists

theorem isLead_markerLead : marks.IsLead (unit '-') markerLead where
  split := ⟨units "            ", units " ", by decide, by decide, by decide⟩
  newline_notMem := by decide
  dash_ne_back := by decide
  blank_dash := by decide

theorem plain_of_mem_listKeys {key : String} (h : key ∈ listKeys) : units key ≠ [] ∧ marks.Plain (units key) := by
  have hall : ∀ key ∈ listKeys, units key ≠ [] ∧ marks.Plain (units key) := by decide
  exact hall key h

section Lists

variable {key : String} {front pieces : List (List ℕ × List ℕ)}

theorem not_heads_last (hkey : key ∈ listKeys) : ¬marks.Heads (units key) [newline] := by
  have hall : ∀ key ∈ listKeys, ¬units key <:+: [newline] := by decide
  rintro ⟨blanks, -, -, hinfix⟩
  exact hall key hkey ((List.prefix_append _ blanks).isInfix.trans hinfix)

/-- A list without a key of its own is empty, whatever the texts are. -/
theorem extractList_eq_nil (hkey : key ∈ listKeys) (hgaps : ∀ piece ∈ front, ¬marks.Heads (units key) piece.1)
    (hlines : marks.Lines front.tail [newline]) : extractList (marks.document front [newline]) key = [] := by
  obtain ⟨hne, hplain⟩ := plain_of_mem_listKeys hkey
  have hlisting : marks.listing (unit '-') (units key) (marks.document front [newline]) = [] := by
    rw [← List.append_nil front]
    by_cases htexts : ∃ piece ∈ front, marks.Heads (units key) piece.2
    · exact listing_hidden (by decide) hne hplain hgaps htexts (by rwa [List.append_nil])
    · have hfront : ∀ piece ∈ front, ¬marks.Heads (units key) piece.1 ∧ ¬marks.Heads (units key) piece.2 :=
        fun piece hpiece => ⟨hgaps piece hpiece, fun hheads => htexts ⟨piece, hpiece, hheads⟩⟩
      exact (listing_front hne hplain hfront).trans (listing_eq_nil (not_heads_last hkey))
  rw [extractList, hlisting, List.map_nil]

/-- A text has the key of a list with a line end behind it. -/
def headsIn (key : String) (text : List ℕ) : Bool := (search (marks.under (units key)) text).isSome

example : headsIn "cs-method:" [] = false := by decide +kernel

theorem headsIn_iff (hkey : key ∈ listKeys) {text : List ℕ} :
    headsIn key text = true ↔ marks.Heads (units key) text :=
  (heads_iff (plain_of_mem_listKeys hkey).2).symm

/-- What a list is read as: nothing when a text before it has its key, or else its texts up to the first that a list
cannot hold. -/
def listRead (key : String) (before : List (List ℕ × List ℕ)) (texts : List (List ℕ)) : List (List ℕ) :=
  if before.any (headsIn key ·.2) then [] else texts.takeWhile fun text => marks.Listable text

theorem listRead_nil (before : List (List ℕ × List ℕ)) : listRead key before [] = [] := by
  rw [listRead, List.takeWhile_nil, ite_self]

/-- A list is read as it is when its texts can be in one and no text before it has its key and a line end. -/
theorem listRead_eq_self_iff (hkey : key ∈ listKeys) {texts : List (List ℕ)} (htexts : texts ≠ []) :
    listRead key front texts = texts ↔
      (∀ text ∈ texts, marks.Listable text) ∧ ∀ piece ∈ front, ¬marks.Heads (units key) piece.2 := by
  unfold listRead
  split
  · rename_i hhidden
    obtain ⟨piece, hpiece, hheads⟩ := List.any_eq_true.mp hhidden
    exact ⟨fun h => absurd h.symm htexts, fun h => absurd ((headsIn_iff hkey).mp hheads) (h.2 piece hpiece)⟩
  · rename_i hhidden
    have hfront : ∀ piece ∈ front, ¬marks.Heads (units key) piece.2 := fun piece hpiece hheads =>
      hhidden (List.any_eq_true.mpr ⟨piece, hpiece, (headsIn_iff hkey).mpr hheads⟩)
    rw [List.takeWhile_eq_self_iff]
    simp only [decide_eq_true_eq]
    exact ⟨fun h => ⟨h, hfront⟩, fun h => h.1⟩

/-- What the list of a document is read as. -/
theorem extractList_document (hkey : key ∈ listKeys) {part : List ℕ}
    (hfirst : ¬units key <:+: part ++ (units key).dropLast)
    (hgaps : ∀ piece ∈ front, ¬marks.Heads (units key) piece.1) {texts : List (List ℕ)} (htexts : texts ≠ [])
    (hlines : marks.Lines (front ++ (listAt (part ++ units key) markerLead texts ++ pieces)).tail [newline])
    {line rest : List ℕ}
    (hrest : marks.document pieces [newline] = marks.newline :: (line ++ marks.newline :: rest))
    (hline : marks.newline ∉ line ∧ marks.item (unit '-') line = none) :
    extractList (marks.document (front ++ (listAt (part ++ units key) markerLead texts ++ pieces)) [newline]) key =
      listRead key front texts := by
  obtain ⟨hne, hplain⟩ := plain_of_mem_listKeys hkey
  obtain ⟨text, texts, rfl⟩ := List.exists_cons_of_ne_nil htexts
  have hend : marks.items (unit '-') ((line ++ marks.newline :: rest).splitOn marks.newline) = [] := by
    rw [List.splitOn_append_cons_self_of_not_mem hline.1, items, hline.2]
  unfold listRead
  split
  · rename_i hhidden
    obtain ⟨piece, hpiece, hheads⟩ := List.any_eq_true.mp hhidden
    have hlisting : marks.listing (unit '-') (units key) _ = [] :=
      listing_hidden (by decide) hne hplain hgaps ⟨piece, hpiece, (headsIn_iff hkey).mp hheads⟩ hlines
    rw [extractList, hlisting, List.map_nil]
  · rename_i hhidden
    have hfront : ∀ piece ∈ front, ¬marks.Heads (units key) piece.1 ∧ ¬marks.Heads (units key) piece.2 :=
      fun piece hpiece => ⟨hgaps piece hpiece, fun hheads =>
        hhidden (List.any_eq_true.mpr ⟨piece, hpiece, (headsIn_iff hkey).mpr hheads⟩)⟩
    have hlist := listing_list (k := marks) isLead_markerLead hfirst text texts hrest hend
    have hpieces : listAt (part ++ units key) markerLead (text :: texts) ++ pieces =
        (part ++ (units key ++ marks.newline :: markerLead), text) ::
          (marks.listPieces markerLead texts ++ pieces) := by
      rw [listAt, List.append_assoc, List.cons_append]
      rfl
    rw [extractList, listing_front hne hplain hfront, hpieces, hlist, List.map_map, yamlUnquote_comp_escape,
      List.map_id]

end Lists

/-- No gap before the lists has the key of one. -/
theorem not_heads_frontPieces {key : String} (hkey : key ∈ listKeys) {piece : List ℕ × List ℕ}
    (h : piece ∈ frontPieces rt finding ctx) : ¬marks.Heads (units key) piece.1 := by
  have hown : ∀ key ∈ listKeys, some key ≠ some "cs-uri-stem|startswith:" ∧ some key ≠ some "cs-method:" := by
    decide
  obtain h | h := List.mem_append.mp h
  · exact (clean_headPieces rt finding ctx piece h).not_heads hkey (Option.some_ne_none key)
  · obtain rfl | h := List.mem_cons.mp h
    · exact clean_pathGap.not_heads hkey (hown key hkey).1
    · unfold methodPieces at h
      split at h
      · obtain rfl := List.mem_singleton.mp h
        exact clean_methodGap.not_heads hkey (hown key hkey).2
      · cases h

/-- A rule without markers has empty lists. -/
theorem extractList_of_no_markers (hkind : ctx.kind ≠ .fileFallback) (hmarkers : ctx.markers = []) {key : String}
    (hkey : key ∈ listKeys) : extractList (buildSigmaRule rt finding ctx mitreTechniques) key = [] := by
  rw [buildSigmaRule_route hkind]
  refine extractList_eq_nil hkey (fun piece hpiece => ?_) lines_routePieces
  rw [routePieces_eq, listsPieces, hmarkers, List.map_nil, List.mem_append] at hpiece
  obtain hpiece | hpiece := hpiece
  · exact not_heads_frontPieces hkey hpiece
  · exact (clean_tailPieces rt finding mitreTechniques (routeCondition_mem ctx) piece hpiece).not_heads hkey
      (Option.some_ne_none key)

/-- What the list for the query is read as. -/
theorem extractList_query (hkind : ctx.kind ≠ .fileFallback) :
    extractList (buildSigmaRule rt finding ctx mitreTechniques) "cs-uri-query|contains:" =
      listRead "cs-uri-query|contains:" (frontPieces rt finding ctx) (ctx.markers.map units) := by
  have hkey : "cs-uri-query|contains:" ∈ listKeys := by decide
  by_cases hmarkers : ctx.markers = []
  · rw [extractList_of_no_markers hkind hmarkers hkey, hmarkers, List.map_nil, listRead_nil]
  have hne : ctx.markers.map units ≠ [] := by simpa using hmarkers
  have hheader : queryHeader = plainLines ["    selection_payload_query:"] ++ newline :: units "        " ++
      units "cs-uri-query|contains:" := by decide
  have hrest : ∃ rest, marks.document (listAt bodyHeader markerLead (ctx.markers.map units) ++
      tailPieces rt finding mitreTechniques (routeCondition ctx)) [newline] =
        marks.newline :: (units "    selection_payload_body:" ++ marks.newline :: rest) := by
    obtain ⟨text, texts, htexts⟩ := List.exists_cons_of_ne_nil hne
    refine ⟨units "        cs-body|contains:" ++ newline :: (markerLead ++ marks.quote :: (marks.escape text ++
      marks.quote :: marks.document (marks.listPieces markerLead texts ++
        tailPieces rt finding mitreTechniques (routeCondition ctx)) [newline])), ?_⟩
    rw [htexts, listAt, List.cons_append, document, bodyHeader]
    simp only [plainLines, List.flatMap_cons, List.flatMap_nil, List.append_assoc, List.cons_append, List.append_nil]
    rfl
  obtain ⟨rest, hrest⟩ := hrest
  have hlines : marks.Lines (routePieces rt finding ctx mitreTechniques).tail [newline] := lines_routePieces
  rw [routePieces_eq, listsPieces, hheader] at hlines
  rw [buildSigmaRule_route hkind, routePieces_eq, listsPieces, hheader]
  exact extractList_document hkey (by decide) (fun piece => not_heads_frontPieces hkey) hne hlines hrest (by decide)

/-- The pieces before the list for the body. -/
def bodyFrontPieces (rt : RuleRuntime) (finding : ConfirmedFinding) (ctx : RuleContext) : List (List ℕ × List ℕ) :=
  frontPieces rt finding ctx ++ listAt queryHeader markerLead (ctx.markers.map units)

/-- What the list for the body is read as; the texts before it are those before the lists, and the markers. -/
theorem extractList_body (hkind : ctx.kind ≠ .fileFallback) :
    extractList (buildSigmaRule rt finding ctx mitreTechniques) "cs-body|contains:" =
      listRead "cs-body|contains:" (bodyFrontPieces rt finding ctx) (ctx.markers.map units) := by
  have hkey : "cs-body|contains:" ∈ listKeys := by decide
  by_cases hmarkers : ctx.markers = []
  · rw [extractList_of_no_markers hkind hmarkers hkey, hmarkers, List.map_nil, listRead_nil]
  have hne : ctx.markers.map units ≠ [] := by simpa using hmarkers
  have hheader : bodyHeader = plainLines ["    selection_payload_body:"] ++ newline :: units "        " ++
      units "cs-body|contains:" := by decide
  have hrest : ∃ rest, marks.document (tailPieces rt finding mitreTechniques (routeCondition ctx)) [newline] =
        marks.newline :: (units "    condition: selection_route and 1 of selection_payload_*" ++
          marks.newline :: rest) := by
    rw [routeCondition, if_pos (List.length_pos_iff.mpr hmarkers), document_tailPieces, List.flatMap_cons,
      List.flatMap_cons, List.append_assoc, List.append_assoc, List.cons_append, List.cons_append]
    exact ⟨_, rfl⟩
  obtain ⟨rest, hrest⟩ := hrest
  have hpieces : routePieces rt finding ctx mitreTechniques =
      bodyFrontPieces rt finding ctx ++ (listAt bodyHeader markerLead (ctx.markers.map units) ++
        tailPieces rt finding mitreTechniques (routeCondition ctx)) := by
    rw [routePieces_eq, listsPieces, bodyFrontPieces, List.append_assoc]
  have hgaps : ∀ piece ∈ bodyFrontPieces rt finding ctx, ¬marks.Heads (units "cs-body|contains:") piece.1 := by
    refine List.forall_mem_append.mpr ⟨fun piece => not_heads_frontPieces hkey, fun piece hpiece => ?_⟩
    exact (clean_queryPieces _ piece hpiece).not_heads hkey (by decide)
  have hlines : marks.Lines (routePieces rt finding ctx mitreTechniques).tail [newline] := lines_routePieces
  rw [hpieces, hheader] at hlines
  rw [buildSigmaRule_route hkind, hpieces, hheader]
  exact extractList_document hkey (by decide) hgaps hne hlines hrest (by decide)

/-- Both lists are read as they are. -/
theorem extractLists_iff (hkind : ctx.kind ≠ .fileFallback) :
    (∀ key ∈ listKeys, extractList (buildSigmaRule rt finding ctx mitreTechniques) key = ctx.markers.map units) ↔
      ctx.markers = [] ∨ (∀ marker ∈ ctx.markers, marks.Listable (units marker)) ∧
        ∀ key ∈ listKeys, ∀ piece ∈ frontPieces rt finding ctx, ¬marks.Heads (units key) piece.2 := by
  by_cases hmarkers : ctx.markers = []
  · refine iff_of_true (fun key hkey => ?_) (.inl hmarkers)
    rw [extractList_of_no_markers hkind hmarkers hkey, hmarkers, List.map_nil]
  · have hne : ctx.markers.map units ≠ [] := by simpa using hmarkers
    rw [or_iff_right hmarkers]
    simp only [listKeys, List.forall_mem_cons, List.not_mem_nil, false_imp_iff, implies_true, and_true]
    rw [extractList_query hkind, extractList_body hkind, listRead_eq_self_iff (by decide) hne,
      listRead_eq_self_iff (by decide) hne, List.forall_mem_map, bodyFrontPieces, List.forall_mem_append]
    refine ⟨fun h => ⟨h.1.1, h.1.2, h.2.2.1⟩, fun h => ⟨⟨h.1, h.2.1⟩, h.1, h.2.2, fun piece hpiece => ?_⟩⟩
    -- A marker that can be in a list has no line feed.
    rintro ⟨blanks, -, hnewline, hinf⟩
    obtain ⟨marker, hmarker, htext⟩ := List.mem_map.mp (text_of_mem_listAt hpiece)
    exact (h.1 marker hmarker).2 (htext ▸ hinf.subset (List.mem_append_right _ hnewline))

/-! ## The pieces of a rule for a file -/

theorem plain_filePieces : ∀ piece ∈ filePieces rt finding ctx mitreTechniques, marks.Plain piece.1 := by
  intro piece hpiece
  obtain h | h := List.mem_append.mp hpiece
  · exact (clean_headPieces rt finding ctx piece h).plain
  · obtain rfl | h := List.mem_cons.mp h
    · exact clean_fileGap.plain
    · exact (clean_tailPieces rt finding mitreTechniques List.mem_cons_self piece h).plain

/-- A rule for a file is read as one. -/
theorem isFileEvent_file (hkind : ctx.kind = .fileFallback) :
    isFileEvent (buildSigmaRule rt finding ctx mitreTechniques) = true := by
  have hgap : units "category:" ++ units " " ++ units "file_event" <:+: fileGap := by decide
  rw [isFileEvent_iff, buildSigmaRule_file hkind, namesFileEvent_document]
  refine .inl ⟨(fileGap, units (ctx.fileTarget.getD "")), ?_, .inl ⟨units " ", by decide, hgap⟩⟩
  exact List.mem_append_right _ List.mem_cons_self

/-- The name of the file that is read. -/
theorem extractOne_target (hkind : ctx.kind = .fileFallback) :
    extractOne (buildSigmaRule rt finding ctx mitreTechniques) "TargetFilename|contains:" =
      some ((marks.shadow (units "TargetFilename|contains:") (headPieces rt finding ctx) fileGap).getD
        (units (ctx.fileTarget.getD ""))) := by
  have hkey : "TargetFilename|contains:" ∈ fieldKeys := by decide
  rw [buildSigmaRule_file hkind, extractOne_document (isKey_of_mem hkey) plain_filePieces (by decide),
    filePieces]
  refine firstBehind_append (fun piece hpiece => ?_) (by decide) _
  exact (clean_headPieces rt finding ctx piece hpiece).fields _ hkey (Option.some_ne_none _)

/-! ## Reading a rule back -/

/-- What `parseSigmaRule` is to return for a rule. -/
structure ReadsBack (rt : RuleRuntime) (finding : ConfirmedFinding) (ctx : RuleContext)
    (mitreTechniques : List String) : Prop where
  file : ctx.kind = .fileFallback →
    (parseSigmaRule (buildSigmaRule rt finding ctx mitreTechniques)).kind = .fileFallback ∧
      (parseSigmaRule (buildSigmaRule rt finding ctx mitreTechniques)).fileTargetContains =
        ctx.fileTarget.map units
  route : ctx.kind ≠ .fileFallback →
    (parseSigmaRule (buildSigmaRule rt finding ctx mitreTechniques)).kind = .route ∧
      (parseSigmaRule (buildSigmaRule rt finding ctx mitreTechniques)).pathStartsWith = some (units ctx.path) ∧
      (parseSigmaRule (buildSigmaRule rt finding ctx mitreTechniques)).method =
        (if ctx.method = "ANY" then none else some (units ctx.method)) ∧
      (parseSigmaRule (buildSigmaRule rt finding ctx mitreTechniques)).queryContains = ctx.markers.map units ∧
      (parseSigmaRule (buildSigmaRule rt finding ctx mitreTechniques)).bodyContains = ctx.markers.map units

/-- No text of a rule looks like a line of another kind. In front of a field no text ends in the key of the field, or
the gap behind the first that does is the value of the field itself. -/
structure Unambiguous (rt : RuleRuntime) (finding : ConfirmedFinding) (ctx : RuleContext)
    (mitreTechniques : List String) : Prop where
  file : ctx.kind = .fileFallback →
    ∀ gap ∈ marks.shadow (units "TargetFilename|contains:") (headPieces rt finding ctx) fileGap,
      some gap = ctx.fileTarget.map units
  event : ctx.kind ≠ .fileFallback → ∀ piece ∈ routePieces rt finding ctx mitreTechniques, ¬NamesFileEvent piece.2
  path : ctx.kind ≠ .fileFallback →
    ∀ gap ∈ marks.shadow (units "cs-uri-stem|startswith:") (headPieces rt finding ctx) pathGap, gap = units ctx.path
  method : ctx.kind ≠ .fileFallback → ctx.method ≠ "ANY" →
    ∀ gap ∈ marks.shadow (units "cs-method:") (headPieces rt finding ctx ++ [(pathGap, units ctx.path)]) methodGap,
      gap = units ctx.method
  anyMethod : ctx.kind ≠ .fileFallback → ctx.method = "ANY" →
    ∀ piece ∈ (routePieces rt finding ctx mitreTechniques).dropLast, ¬marks.EndsIn (units "cs-method:") piece.2
  markers : ctx.kind ≠ .fileFallback → ctx.markers = [] ∨
    (∀ marker ∈ ctx.markers, marks.Listable (units marker)) ∧
      ∀ key ∈ listKeys, ∀ piece ∈ frontPieces rt finding ctx, ¬marks.Heads (units key) piece.2

theorem getD_eq_iff {o : Option (List ℕ)} {value : List ℕ} : o.getD value = value ↔ ∀ gap ∈ o, gap = value := by
  cases o <;> simp

theorem readsBack_file_iff (hkind : ctx.kind = .fileFallback) {target : String}
    (htarget : ctx.fileTarget = some target) :
    ReadsBack rt finding ctx mitreTechniques ↔
      ∀ gap ∈ marks.shadow (units "TargetFilename|contains:") (headPieces rt finding ctx) fileGap,
        some gap = ctx.fileTarget.map units := by
  have hevent : isFileEvent (buildSigmaRule rt finding ctx mitreTechniques) = true := isFileEvent_file hkind
  obtain ⟨hfile, hread⟩ := parseSigmaRule_file hevent
  rw [extractOne_target hkind, htarget] at hread
  simp only [htarget, Option.map_some, Option.some.injEq]
  rw [← getD_eq_iff]
  constructor
  · intro h
    have htext := (h.file hkind).2
    rw [hread, htarget] at htext
    exact Option.some.inj htext
  · intro h
    refine ⟨fun _ => ⟨hfile, ?_⟩, fun hroute => absurd hkind hroute⟩
    rw [hread, htarget]
    exact congrArg some h

theorem readsBack_route_iff (hkind : ctx.kind ≠ .fileFallback) :
    ReadsBack rt finding ctx mitreTechniques ↔
      isFileEvent (buildSigmaRule rt finding ctx mitreTechniques) = false ∧
        extractOne (buildSigmaRule rt finding ctx mitreTechniques) "cs-uri-stem|startswith:" = some (units ctx.path) ∧
        extractOne (buildSigmaRule rt finding ctx mitreTechniques) "cs-method:" =
          (if ctx.method = "ANY" then none else some (units ctx.method)) ∧
        ∀ key ∈ listKeys,
          extractList (buildSigmaRule rt finding ctx mitreTechniques) key = ctx.markers.map units := by
  simp only [listKeys, List.forall_mem_cons, List.not_mem_nil, false_imp_iff, implies_true, and_true]
  cases hevent : isFileEvent (buildSigmaRule rt finding ctx mitreTechniques) with
  | true =>
    refine iff_of_false (fun h => ?_) fun h => absurd h.1 (Ne.symm Bool.false_ne_true)
    have hroute := (h.route hkind).1
    rw [(parseSigmaRule_file hevent).1] at hroute
    cases hroute
  | false =>
    obtain ⟨hroute, hpath, hmethod, hquery, hbody⟩ := parseSigmaRule_route hevent
    constructor
    · intro h
      have hread := (h.route hkind).2
      rw [hpath, hmethod, hquery, hbody] at hread
      exact ⟨rfl, hread⟩
    · intro h
      refine ⟨fun hfile => absurd hfile hkind, fun _ => ⟨hroute, ?_⟩⟩
      rw [hpath, hmethod, hquery, hbody]
      exact h.2

/-- A rule is read back exactly when no text of it is ambiguous. -/
theorem readsBack_iff_unambiguous (hctx : ctx.kind = .fileFallback → ctx.fileTarget.isSome) :
    ReadsBack rt finding ctx mitreTechniques ↔ Unambiguous rt finding ctx mitreTechniques := by
  by_cases hkind : ctx.kind = .fileFallback
  · obtain ⟨target, htarget⟩ := Option.isSome_iff_exists.mp (hctx hkind)
    rw [readsBack_file_iff hkind htarget]
    exact ⟨fun h => ⟨fun _ => h, fun hroute => absurd hkind hroute, fun hroute => absurd hkind hroute,
      fun hroute => absurd hkind hroute, fun hroute => absurd hkind hroute, fun hroute => absurd hkind hroute⟩,
      fun h => h.file hkind⟩
  · rw [readsBack_route_iff hkind, isFileEvent_route_eq_false_iff hkind, extractOne_path hkind, Option.some_inj,
      getD_eq_iff, extractLists_iff hkind]
    by_cases hmethod : ctx.method = "ANY"
    · rw [if_pos hmethod, extractOne_anyMethod hkind hmethod]
      exact ⟨fun h => ⟨fun hfile => absurd hfile hkind, fun _ => h.1, fun _ => h.2.1,
        fun _ hpinned => absurd hmethod hpinned, fun _ _ => h.2.2.1, fun _ => h.2.2.2⟩,
        fun h => ⟨h.event hkind, h.path hkind, h.anyMethod hkind hmethod, h.markers hkind⟩⟩
    · rw [if_neg hmethod, extractOne_method hkind hmethod, Option.some_inj, getD_eq_iff]
      exact ⟨fun h => ⟨fun hfile => absurd hfile hkind, fun _ => h.1, fun _ => h.2.1, fun _ _ => h.2.2.1,
        fun _ hany => absurd hany hmethod, fun _ => h.2.2.2⟩,
        fun h => ⟨h.event hkind, h.path hkind, h.method hkind hmethod, h.markers hkind⟩⟩

open LiveContext (buildRuleContext fileTarget_buildRuleContext)

/-- The rule of a finding is read back exactly when no text of it is ambiguous. -/
theorem readsBack_buildRuleContext_iff (rt : RuleRuntime) (urls : UrlRuntime) (finding : ConfirmedFinding)
    (proof : Confirm.ProofArtifact) (appMap : Option AppMap) (mitreTechniques : List String) :
    ReadsBack rt finding (buildRuleContext urls finding proof appMap) mitreTechniques ↔
      Unambiguous rt finding (buildRuleContext urls finding proof appMap) mitreTechniques :=
  readsBack_iff_unambiguous (fileTarget_buildRuleContext urls finding proof appMap)

/-- A finding that was confirmed by a request with two lines in its body. -/
def noteFinding : ConfirmedFinding where
  id := "cf_7"
  scanId := "scan_1"
  clientId := "acme"
  title := "Stored script in notes"
  category := .xss
  severity := .high
  exposure := .public_
  location := { file := "app/notes/route.ts", line := 7 }
  impact := "Any reader runs the script."
  proofType := .live
  proofArtifact := .null
  createdAt := 1709210096007

/-- The request. -/
def noteRequest : Confirm.HttpExchange where
  method := "POST"
  url := "https://app.example/notes"
  requestSnippet := some "title=a\n<script>alert(1)</script>"
  status := 200

/-- Its URL. -/
def noteUrls : UrlRuntime where
  parseUrl raw :=
    if raw = noteRequest.url then some { pathname := "/notes", search := "", searchParams := [] } else none
  resolveUrl _ _ := none

/-- The digest of the seed of the rule. -/
def noteDigest : List (Fin 16) :=
  [8, 5, 15, 0, 3, 15, 14, 11, 0, 9, 3, 9, 11, 4, 14, 12, 2, 10, 9, 12, 6, 12, 14, 13, 13, 1, 11, 15, 3, 14, 13, 4, 1,
    8, 2, 1, 14, 15, 3, 3]

/-- The body is the marker of the rule, and is not read back. -/
theorem multiline_body_lost :
    ¬ReadsBack (asciiRuntime noteDigest) noteFinding
      (buildRuleContext noteUrls noteFinding (.live "https://app.example" [noteRequest]) none) ["T1059.007"] := by
  have hctx :
      (buildRuleContext noteUrls noteFinding (.live "https://app.example" [noteRequest]) none).kind ≠ .fileFallback ∧
        (buildRuleContext noteUrls noteFinding (.live "https://app.example" [noteRequest]) none).markers =
          ["title=a\n<script>alert(1)</script>"] := by decide +kernel
  intro h
  obtain hnone | ⟨hlistable, -⟩ :=
    ((readsBack_iff_unambiguous fun hfile => absurd hfile hctx.1).mp h).markers hctx.1
  · rw [hctx.2] at hnone
    cases hnone
  · have hmarker := hlistable _ (hctx.2 ▸ List.mem_cons_self)
    exact hmarker.2 (by decide +kernel)

end MontrSecure.Sigma
