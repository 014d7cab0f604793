import MontrSecure.Confirm.PayloadSafety
import MontrSecure.Text.Matching

/-!
# The tags of a payload

The predicate for reflected payloads keeps a short list of tags, but it looks for one of them anywhere in the
payload: next to an allowed tag, any tag goes that the list of dangerous ones forgets. Without such a mixture,
every tag of an accepted payload is on the list.
-/

namespace MontrSecure.Confirm

open Text Text.Regex

/-! ## Names -/

/-- A letter in lower case, anything else as it is. -/
def lowerUnit (c : ℕ) : ℕ := if isUpper c then c + 0x20 else c

/-- The tags of `XSS_ALLOWED_TAG`. -/
def allowedTags : List String := ["script", "img", "svg"]

/-- The name of an allowed tag, in any case. -/
def AllowedName (name : List ℕ) : Prop := name.map lowerUnit ∈ allowedTags.map units

instance (name : List ℕ) : Decidable (AllowedName name) := inferInstanceAs (Decidable (_ ∈ _))

/-- The tag names of the payload: what stands behind each `<`, white space left out. -/
def tagNames (payload : String) : List (List ℕ) := (positions (units payload)).filterMap tagName

/-! ## Letters -/

theorem letterCased_iff {c d : ℕ} (hc : isLower c = true) :
    (decide (d = c) || (isLower c && decide (d + 0x20 = c)) || (isUpper c && decide (d = c + 0x20))) = true ↔
      lowerUnit d = c := by
  have hunits : unit 'a' = 97 ∧ unit 'z' = 122 ∧ unit 'A' = 65 ∧ unit 'Z' = 90 := by decide
  simp only [lowerUnit, isLower, isUpper, Bool.and_eq_true, Bool.or_eq_true, decide_eq_true_eq] at hc ⊢
  split <;> omega

theorem isWord_of_lowerUnit {c d : ℕ} (hc : isLower c = true) (h : lowerUnit d = c) : isWord d = true := by
  have hunits : unit 'a' = 97 ∧ unit 'z' = 122 ∧ unit 'A' = 65 ∧ unit 'Z' = 90 := by decide
  simp only [isWord, isAlnum, lowerUnit, isLower, isUpper, Bool.and_eq_true, Bool.or_eq_true,
    decide_eq_true_eq] at hc h ⊢
  split at h <;> omega

/-- A text in lower case matches under `/i` what it is in lower case. -/
theorem mem_ends_litCased {s : String} (hs : ∀ c ∈ units s, isLower c = true) {pos pos' : Position ℕ} :
    pos' ∈ (litCased s).ends pos ↔ ∃ w, w.map lowerUnit = units s ∧ pos.Behind w pos' := by
  have hsym : litCased s = concat (((units s).map fun c d =>
      decide (d = c) || (isLower c && decide (d + 0x20 = c)) || (isUpper c && decide (d = c + 0x20))).map sym) := by
    rw [litCased, List.map_map]
    rfl
  have hword : ∀ {cs w : List ℕ}, (∀ c ∈ cs, isLower c = true) →
      (List.Forall₂ (fun c d => (decide (d = c) || (isLower c && decide (d + 0x20 = c)) ||
        (isUpper c && decide (d = c + 0x20))) = true) cs w ↔ w.map lowerUnit = cs) := by
    intro cs
    induction cs with
    | nil => simp
    | cons c cs ih =>
      intro w hcs
      obtain ⟨hc, hcs⟩ := List.forall_mem_cons.mp hcs
      rcases w with _ | ⟨d, w⟩
      · simp
      · rw [List.forall₂_cons, letterCased_iff hc, ih hcs, List.map_cons, List.cons.injEq]
  rw [hsym, mem_ends_concat_sym]
  simp only [List.forall₂_map_left_iff, hword hs]

theorem isLower_of_mem_allowedTags {tag : String} (h : tag ∈ allowedTags) : ∀ c ∈ units tag, isLower c = true := by
  have hall : (allowedTags.all fun tag => (units tag).all isLower) = true := by decide
  intro c hc
  exact List.all_eq_true.mp (List.all_eq_true.mp hall tag h) c hc

theorem AllowedName.isWord {name : List ℕ} (h : AllowedName name) : ∀ c ∈ name, isWord c = true := by
  obtain ⟨tag, htag, heq⟩ := List.mem_map.mp h
  intro c hc
  exact isWord_of_lowerUnit (isLower_of_mem_allowedTags htag _ (heq ▸ List.mem_map_of_mem hc)) rfl

theorem AllowedName.ne_nil {name : List ℕ} (h : AllowedName name) : name ≠ [] := by
  rintro rfl
  revert h
  decide

/-! ## Tags -/

/-- A tag with this name is opened: the name stands behind `<` and white space, and does not go on. -/
structure OpensTag (pos : Position ℕ) (name : List ℕ) : Prop where
  ne_nil : name ≠ []
  word : ∀ c ∈ name, isWord c = true
  after : ∃ blank rest, pos.after = unit '<' :: (blank ++ (name ++ rest)) ∧
    (∀ c ∈ blank, isSpace c = true) ∧ rest.head?.any isWord = false

theorem takeWhile_append_of_head {p : ℕ → Bool} {v rest : List ℕ} (hv : ∀ c ∈ v, p c = true)
    (hrest : rest.head?.any p = false) : (v ++ rest).takeWhile p = v ∧ (v ++ rest).dropWhile p = rest := by
  have hstop : rest.takeWhile p = [] ∧ rest.dropWhile p = rest := by
    rcases rest with _ | ⟨c, rest⟩
    · simp
    · have hc : p c = false := by simpa using hrest
      simp [hc]
  rw [List.takeWhile_append_of_pos hv, List.dropWhile_append_of_pos hv, hstop.1, hstop.2, List.append_nil]
  exact ⟨rfl, rfl⟩

theorem head_any_dropWhile (p : ℕ → Bool) (text : List ℕ) : (text.dropWhile p).head?.any p = false := by
  rcases h : text.dropWhile p with _ | ⟨c, rest⟩
  · rfl
  · have := List.head?_dropWhile_not p text
    rw [h] at this
    simpa using this

/-- The symbol before a position behind a word of letters is a letter. -/
theorem before_any_isWord {name : List ℕ} (hne : name ≠ []) (hword : ∀ c ∈ name, isWord c = true)
    {pos pos' : Position ℕ} (h : pos.Behind name pos') : pos'.before.any isWord = true := by
  rw [h.before, List.getLast?_eq_some_getLast hne]
  exact hword _ (List.getLast_mem hne)

/-- The pattern of a tag finds the tag that is opened. -/
theorem tagName_eq_some {pos : Position ℕ} {name : List ℕ} : tagName pos = some name ↔ OpensTag pos name := by
  constructor
  · intro h
    obtain ⟨text, htext, hname⟩ := Option.bind_eq_some_iff.mp h
    dsimp only at hname
    split at hname
    · cases hname
    rename_i hne
    obtain rfl := Option.some.inj hname
    have hafter : pos.after = unit '<' :: text := by
      rcases hpos : pos.after with _ | ⟨c, rest⟩
      · rw [hpos] at htext
        cases htext
      · rw [hpos, afterUnit] at htext
        split at htext
        · rename_i hc
          rw [hc, Option.some.inj htext]
        · cases htext
    refine ⟨hne, fun c hc => List.mem_takeWhile_imp hc, text.takeWhile isSpace,
      (afterSpaces text).dropWhile isWord, ?_, fun c hc => List.mem_takeWhile_imp hc, head_any_dropWhile _ _⟩
    rw [hafter, List.takeWhile_append_dropWhile, afterSpaces, List.takeWhile_append_dropWhile]
  · rintro ⟨hne, hword, blank, rest, hafter, hblank, hrest⟩
    -- A name does not begin with white space, so that the white space ends where it begins.
    have hhead : (name ++ rest).head?.any isSpace = false := by
      rcases name with _ | ⟨c, name⟩
      · exact absurd rfl hne
      · have hc := hword c List.mem_cons_self
        rcases hspace : isSpace c with _ | _
        · simp [hspace]
        · rw [isWord_of_isSpace hspace] at hc
          cases hc
    have hspaces : afterSpaces (blank ++ (name ++ rest)) = name ++ rest := (takeWhile_append_of_head hblank hhead).2
    rw [tagName, hafter, afterUnit, if_pos rfl, Option.bind_some]
    dsimp only
    rw [hspaces, (takeWhile_append_of_head hword hrest).1, if_neg hne]

/-- The pattern of allowed tags matches where an allowed tag is opened. -/
theorem ends_xssAllowedTag {pos : Position ℕ} :
    xssAllowedTag.ends pos ≠ [] ↔ ∃ name, OpensTag pos name ∧ AllowedName name := by
  have hlit {pos pos' : Position ℕ} : pos' ∈ (lit "<").ends pos ↔ pos.Behind [unit '<'] pos' := by
    have hsym : lit "<" = sym fun c => decide (c = unit '<') := rfl
    rw [hsym, mem_ends_sym]
    simp
  have hexpr : xssAllowedTag =
      seq (lit "<") (seq spaces (seq (oneOf (allowedTags.map litCased)) wordBoundary)) := rfl
  constructor
  · intro hne
    obtain ⟨_, hend⟩ := List.exists_mem_of_ne_nil _ hne
    rw [hexpr, mem_ends_seq] at hend
    obtain ⟨p₁, hopen, hend⟩ := hend
    obtain ⟨p₂, hspaces, hend⟩ := mem_ends_seq.mp hend
    obtain ⟨p₃, htag, hend⟩ := mem_ends_seq.mp hend
    obtain ⟨hboundary, -⟩ := mem_ends_look.mp hend
    have hopen := hlit.mp hopen
    obtain ⟨blank, hblank, hspaces⟩ := mem_ends_star_sym.mp hspaces
    obtain ⟨_, htag, hname⟩ := mem_ends_oneOf.mp htag
    obtain ⟨tag, hallowed, rfl⟩ := List.mem_map.mp htag
    obtain ⟨name, hname, hbehind⟩ := (mem_ends_litCased (isLower_of_mem_allowedTags hallowed)).mp hname
    have hallowedName : AllowedName name := List.mem_map.mpr ⟨tag, hallowed, hname.symm⟩
    refine ⟨name, ⟨hallowedName.ne_nil, hallowedName.isWord, blank, p₃.after, ?_, hblank, ?_⟩, hallowedName⟩
    · rw [hopen.after, hspaces.after, hbehind.after]
      rfl
    · -- A letter is before the boundary, so that none comes after it.
      rw [before_any_isWord hallowedName.ne_nil hallowedName.isWord hbehind] at hboundary
      simpa using hboundary
  · rintro ⟨name, ⟨hne, hword, blank, rest, hafter, hblank, hrest⟩, hallowed⟩
    obtain ⟨p₁, hopen, hafter₁⟩ := Position.exists_behind (show pos.after = [unit '<'] ++ _ from hafter)
    obtain ⟨p₂, hspaces, hafter₂⟩ := Position.exists_behind hafter₁
    obtain ⟨p₃, hbehind, hafter₃⟩ := Position.exists_behind hafter₂
    obtain ⟨tag, htag, hname⟩ := List.mem_map.mp hallowed
    have hends : p₃ ∈ (litCased tag).ends p₂ :=
      (mem_ends_litCased (isLower_of_mem_allowedTags htag)).mpr ⟨name, hname.symm, hbehind⟩
    have hboundary : p₃ ∈ wordBoundary.ends p₃ := by
      rw [wordBoundary, mem_ends_look, before_any_isWord hne hword hbehind, hafter₃, hrest]
      exact ⟨rfl, rfl⟩
    refine List.ne_nil_of_mem (a := p₃) ?_
    rw [hexpr]
    exact mem_ends_seq.mpr ⟨p₁, hlit.mpr hopen, mem_ends_seq.mpr ⟨p₂, mem_ends_star_sym.mpr ⟨blank, hblank, hspaces⟩,
      mem_ends_seq.mpr ⟨p₃, mem_ends_oneOf.mpr ⟨_, List.mem_map_of_mem htag, hends⟩, hboundary⟩⟩⟩

/-! ## Accepted payloads -/

variable {payload : String} {marker : Option String}

/-- The payload passes every check but that of its tags. -/
structure PassesOtherChecks (payload : String) (marker : Option String) : Prop where
  bounds : checkGenericBounds payload xssMaxLength = none
  shape : xssEventHandlerOrTag.test (units payload) = true
  harmless : xssDangerous.test (units payload) = false
  local_ : xssExternalUrl.test (units payload) = false
  marked : ∃ text, marker = some text ∧ text ≠ "" ∧ Text.includes payload text = true

/-- The payload opens an allowed tag and one that is not allowed. -/
def MixesTags (payload : String) : Prop :=
  (∃ name ∈ tagNames payload, AllowedName name) ∧ ∃ name ∈ tagNames payload, ¬AllowedName name

theorem mem_tagNames {name : List ℕ} :
    name ∈ tagNames payload ↔ ∃ pos ∈ positions (units payload), OpensTag pos name := by
  simp only [tagNames, List.mem_filterMap, tagName_eq_some]

/-- The check of tags finds an allowed one iff there is one. -/
theorem test_xssAllowedTag :
    xssAllowedTag.test (units payload) = true ↔ ∃ name ∈ tagNames payload, AllowedName name := by
  rw [test_iff]
  simp only [ends_xssAllowedTag, mem_tagNames]
  constructor
  · rintro ⟨pos, hpos, name, hopens, hallowed⟩
    exact ⟨name, ⟨pos, hpos, hopens⟩, hallowed⟩
  · rintro ⟨name, ⟨pos, hpos, hopens⟩, hallowed⟩
    exact ⟨pos, hpos, name, hopens, hallowed⟩

theorem exec_tagName_eq_none : exec tagName (units payload) = none ↔ tagNames payload = [] := by
  simp [exec, tagNames, List.findSome?_eq_none_iff, List.filterMap_eq_nil_iff]

/-- A payload is accepted iff it passes the other checks and opens no tag or an allowed one. -/
theorem safe_evaluateXssPayload :
    (evaluateXssPayload payload marker).safe = true ↔
      PassesOtherChecks payload marker ∧ (tagNames payload = [] ∨ ∃ name ∈ tagNames payload, AllowedName name) := by
  have hrefused {reason : String} : (PayloadSafetyVerdict.reject reason).safe = true ↔ False := by
    simp [PayloadSafetyVerdict.reject]
  rw [evaluateXssPayload]
  rcases hbounds : checkGenericBounds payload xssMaxLength with _ | bounds
  swap
  · simp only [not_safe_of_bounds hbounds, Bool.false_eq_true, false_iff, not_and]
    intro h
    have := h.bounds
    rw [hbounds] at this
    cases this
  dsimp only
  by_cases hshape : xssEventHandlerOrTag.test (units payload) = true
  swap
  · rw [if_pos (by simpa using hshape), hrefused, false_iff]
    exact fun h => hshape h.1.shape
  rw [if_neg (by simpa using hshape)]
  by_cases hharmful : xssDangerous.test (units payload) = true
  · rw [if_pos hharmful, hrefused, false_iff]
    exact fun h => by simp [h.1.harmless] at hharmful
  rw [if_neg hharmful]
  by_cases hexternal : xssExternalUrl.test (units payload) = true
  · rw [if_pos hexternal, hrefused, false_iff]
    exact fun h => by simp [h.1.local_] at hexternal
  rw [if_neg hexternal]
  have hothers : PassesOtherChecks payload marker ↔
      ∃ text, marker = some text ∧ text ≠ "" ∧ Text.includes payload text = true :=
    ⟨fun h => h.marked, fun h => ⟨hbounds, hshape, by simpa using hharmful, by simpa using hexternal, h⟩⟩
  rw [hothers]
  -- What is left are the tags and the marker.
  have hmarker {missing absent reason : String} :
      ((checkMarker payload marker missing absent).getD (.ok reason)).safe = true ↔
        ∃ text, marker = some text ∧ text ≠ "" ∧ Text.includes payload text = true := by
    rw [← checkMarker_eq_none]
    rcases h : checkMarker payload marker missing absent with _ | v
    · simp [PayloadSafetyVerdict.ok]
    · simp [not_safe_of_marker h]
  rcases hallowed : xssAllowedTag.test (units payload) with _ | _
  · have hnone : ¬∃ name ∈ tagNames payload, AllowedName name := by
      rw [← test_xssAllowedTag, hallowed]
      decide
    rcases hexec : exec tagName (units payload) with _ | ⟨pos, name⟩
    · dsimp only
      rw [hmarker, exec_tagName_eq_none.mp hexec]
      simp
    · have hne : tagNames payload ≠ [] := by
        rw [Ne, ← exec_tagName_eq_none, hexec]
        simp
      dsimp only
      simp [hrefused, hne, hnone]
  · have hsome := test_xssAllowedTag.mp hallowed
    rcases exec tagName (units payload) with _ | m
    · dsimp only
      rw [hmarker]
      simp [hsome]
    · dsimp only
      rw [hmarker]
      simp [hsome]

/-- **Allowed tags only.** What is accepted as a reflected payload opens allowed tags only, iff the payload does not
open an allowed tag next to another one, or one of the other checks refuses it. -/
theorem accepted_opens_allowed_iff (parseUrl : String → Option PayloadUrl) (payload : String)
    (marker : Option String) :
    ((evaluateComposedPayloadSafety parseUrl .xss payload marker).safe = true →
        ∀ pos ∈ positions (units payload), ∀ name, tagName pos = some name → AllowedName name) ↔
      ¬(MixesTags payload ∧ PassesOtherChecks payload marker) := by
  have hnames : (∀ pos ∈ positions (units payload), ∀ name, tagName pos = some name → AllowedName name) ↔
      ∀ name ∈ tagNames payload, AllowedName name := by
    simp only [mem_tagNames, tagName_eq_some]
    exact ⟨fun h name ⟨pos, hpos, hopens⟩ => h pos hpos name hopens, fun h pos hpos name hopens =>
      h name ⟨pos, hpos, hopens⟩⟩
  rw [hnames, evaluateComposedPayloadSafety, safe_evaluateXssPayload]
  constructor
  · rintro h ⟨⟨hallowed, name, hname, hother⟩, hpasses⟩
    exact hother (h ⟨hpasses, .inr hallowed⟩ name hname)
  · rintro h ⟨hpasses, hnone | hallowed⟩ name hname
    · rw [hnone] at hname
      cases hname
    · by_contra hother
      exact h ⟨⟨hallowed, name, hname, hother⟩, hpasses⟩

/-- A script with a video beside it. -/
def scriptAndVideo : String := "<script>m</script><video src=x>"

/-- The payload is accepted, and the video is not on the list. -/
theorem accepted_scriptAndVideo :
    (evaluateComposedPayloadSafety (fun _ => none) .xss scriptAndVideo (some "m")).safe = true ∧
      ¬∀ pos ∈ positions (units scriptAndVideo), ∀ name, tagName pos = some name → AllowedName name := by
  refine ⟨by decide +kernel, fun h => ?_⟩
  have hvideo : units "video" ∈ tagNames scriptAndVideo := by decide +kernel
  obtain ⟨pos, hpos, hname⟩ := List.mem_filterMap.mp hvideo
  have := h pos hpos _ hname
  revert this
  decide

end MontrSecure.Confirm
