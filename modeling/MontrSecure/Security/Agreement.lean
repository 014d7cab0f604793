import MontrSecure.Security.Scrubber

/-!
# The redactor and the verifier

`redactSensitive` promises that `findLogViolations` finds nothing in what it leaves. Both are
followed along the paths of a value: the strings of the clone stand where the strings, dates,
errors and cut off objects of the value did, and the verifier sees them under the same keys. They
disagree on two kinds of values only, those that the redactor rewrites without looking at the text
it writes: dates, and the names of errors.
-/

namespace MontrSecure

open Text

/-! ## Places in a value -/

/-- Where in a value another one is. -/
inductive JsValue.At (v : JsValue) : JsPath → JsValue → Prop where
  | root : v.At [] v
  | item {p : JsPath} {items : List JsValue} {i : ℕ} {w : JsValue} :
    v.At p (.arr items) → items[i]? = some w → v.At (.inr i :: p) w
  | field {p : JsPath} {fields : JsRecord} {k : String} {w : JsValue} :
    v.At p (.obj fields) → (k, w) ∈ fields → v.At (.inl k :: p) w

/-- A sensitive key leads there. -/
def ScrubVerifyOptions.sensitiveAt (o : ScrubVerifyOptions) : JsPath → Bool
  | [] => false
  | .inl k :: p => o.sensitiveAt p || o.isSensitive k
  | .inr _ :: p => o.sensitiveAt p

/-- An object there is walked into. -/
def entered (met : JsPath → Bool) (p : JsPath) : Bool := decide (p.length < hardMaxDepth) && !met p

example : entered (fun _ => false) [] = true := by decide +kernel

/-- The redactor comes there, and the clone has what it makes of it. -/
def reached (met : JsPath → Bool) : JsPath → Bool
  | [] => true
  | step :: p => reached met p && entered met p && decide (step ≠ .inl protoKey)

/-- A string that may stay as it is: it begins with the placeholder, or there is nothing against it. -/
def ScrubVerifyOptions.passes (o : ScrubVerifyOptions) (sensitive : Bool) (s : String) : Bool :=
  isRedactionPlaceholder s o.placeholder ||
    (!sensitive && decide (Text.length s ≤ o.maxStringLength) && !(o.detectSecret s).isSome &&
      !o.detectCode s)

variable {o : ScrubVerifyOptions} {met : JsPath → Bool} {v w : JsValue} {p : JsPath} {s : String}
  {sensitive : Bool}

/-! ## Strings -/

theorem startsWith_append (s t : String) : startsWith (s ++ t) s = true := by
  rw [startsWith, units_append]
  exact List.isPrefixOf_iff_prefix.mpr (List.prefix_append _ _)

theorem startsWith_self (s : String) : startsWith s s = true :=
  List.isPrefixOf_iff_prefix.mpr List.prefix_rfl

theorem passes_of_placeholder (h : isRedactionPlaceholder s o.placeholder = true) :
    o.passes sensitive s = true := by
  rw [ScrubVerifyOptions.passes, h, Bool.true_or]

theorem checkString_eq_nil : checkString o sensitive s = [] ↔ o.passes sensitive s = true := by
  unfold checkString ScrubVerifyOptions.passes
  grind

/-- A string is kept exactly when it passes. -/
theorem redactString_of_passes (h : o.passes sensitive s = true) : redactString o sensitive s = s := by
  unfold ScrubVerifyOptions.passes at h
  unfold redactString
  grind

/-- What a string that does not pass is replaced by begins with the placeholder. -/
theorem placeholder_redactString (h : o.passes sensitive s = false) :
    isRedactionPlaceholder (redactString o sensitive s) o.placeholder = true := by
  unfold ScrubVerifyOptions.passes at h
  unfold redactString
  split_ifs with hplaceholder hsensitive hlength hsecret hcode
  · exact hplaceholder
  · exact startsWith_self _
  · rw [isRedactionPlaceholder, String.append_assoc, String.append_assoc]
    exact startsWith_append _ _
  · exact startsWith_append _ _
  · exact startsWith_append _ _
  · simp_all

theorem passes_redactString (s : String) : o.passes sensitive (redactString o sensitive s) = true := by
  cases h : o.passes sensitive s with
  | true => rwa [redactString_of_passes h]
  | false => exact passes_of_placeholder (placeholder_redactString h)

/-! ## What is cut off -/

theorem cutOff_of_entered (h : entered met p = true) : cutOff o met p p.length = none := by
  unfold entered at h
  unfold cutOff
  grind

theorem entered_of_cutOff (h : cutOff o met p p.length = none) : entered met p = true := by
  unfold cutOff at h
  unfold entered
  grind

/-- An object that is not walked into leaves a placeholder. -/
theorem cutOff_of_not_entered (h : entered met p = false) :
    ∃ t, cutOff o met p p.length = some (.str (o.placeholder ++ t)) := by
  unfold entered at h
  unfold cutOff
  split_ifs with hdepth hmet
  · exact ⟨_, rfl⟩
  · exact ⟨_, rfl⟩
  · simp_all

/-- A container in a clone was not cut off. -/
theorem eq_of_getD_cutOff {depth : ℕ} {u w : JsValue} (hw : w.isLeaf = false)
    (h : (cutOff o met p depth).getD u = w) : cutOff o met p depth = none ∧ u = w := by
  unfold cutOff at h ⊢
  split_ifs at h ⊢
  · rw [← h] at hw
    cases hw
  · rw [← h] at hw
    cases hw
  · exact ⟨rfl, h⟩

/-! ## What stands in the clone -/

theorem getElem?_redactItems (items : List JsValue) (depth j i : ℕ) :
    (redactItems o met p sensitive depth j items)[i]? =
      items[i]?.map (redactWalk o met (.inr (j + i) :: p) sensitive depth) := by
  induction items generalizing i j with
  | nil => rfl
  | cons w items ih =>
    cases i with
    | zero => rfl
    | succ i =>
      rw [redactItems, List.getElem?_cons_succ, List.getElem?_cons_succ, ih, Nat.add_right_comm, Nat.add_assoc]

/-- An array in a clone was an array. -/
theorem redactWalk_eq_arr {depth : ℕ} {items' : List JsValue}
    (h : redactWalk o met p sensitive depth w = .arr items') :
    ∃ items, w = .arr items ∧ cutOff o met p depth = none ∧
      items' = redactItems o met p sensitive (depth + 1) 0 items := by
  cases w with
  | arr items =>
    obtain ⟨hnone, heq⟩ := eq_of_getD_cutOff rfl h
    cases heq
    exact ⟨items, rfl, hnone, rfl⟩
  | obj | error => cases (eq_of_getD_cutOff rfl h).2
  | _ => cases h

/-- An object in a clone was an object or an error. -/
theorem redactWalk_eq_obj {depth : ℕ} {fields' : JsRecord}
    (h : redactWalk o met p sensitive depth w = .obj fields') :
    cutOff o met p depth = none ∧
      ((∃ fields, w = .obj fields ∧ fields' = assigned (redactFields o met p sensitive (depth + 1) fields)) ∨
        ∃ name message, w = .error name message ∧
          fields' = [("name", .str name), ("message", .str (redactString o sensitive message))]) := by
  cases w with
  | obj fields =>
    obtain ⟨hnone, heq⟩ := eq_of_getD_cutOff rfl h
    cases heq
    exact ⟨hnone, .inl ⟨fields, rfl, rfl⟩⟩
  | error name message =>
    obtain ⟨hnone, heq⟩ := eq_of_getD_cutOff rfl h
    cases heq
    exact ⟨hnone, .inr ⟨name, message, rfl, rfl⟩⟩
  | arr => cases (eq_of_getD_cutOff rfl h).2
  | _ => cases h

/-- What the redactor makes of the value at a place. -/
def redactedAt (o : ScrubVerifyOptions) (met : JsPath → Bool) (p : JsPath) (w : JsValue) : JsValue :=
  redactWalk o met p (o.sensitiveAt p) p.length w

/-- Where the redactor comes, the clone has what it makes of the value there. -/
theorem at_redactSensitive (h : v.At p w) (hreached : reached met p = true) :
    (redactSensitive o met v).At p (redactedAt o met p w) := by
  induction h with
  | root => exact .root
  | @item p items i w _ hitem ih =>
    simp only [reached, Bool.and_eq_true] at hreached
    have harr := ih hreached.1.1
    rw [redactedAt, redactWalk, cutOff_of_entered hreached.1.2, Option.getD_none] at harr
    refine .item harr ?_
    rw [getElem?_redactItems, hitem, Nat.zero_add]
    rfl
  | @field p fields k w _ hfield ih =>
    simp only [reached, Bool.and_eq_true, decide_eq_true_eq] at hreached
    have hobj := ih hreached.1.1
    rw [redactedAt, redactWalk, cutOff_of_entered hreached.1.2, Option.getD_none] at hobj
    refine .field hobj (mem_assigned.mpr ⟨?_, fun hk => hreached.2 (congrArg Sum.inl hk)⟩)
    rw [redactFields_eq]
    exact List.mem_map.mpr ⟨_, hfield, rfl⟩

/-- The name and the message of an error stand in the clone as fields. -/
theorem at_redactSensitive_error {name message : String} (h : v.At p (.error name message))
    (hreached : reached met p = true) (hentered : entered met p = true) :
    (redactSensitive o met v).At (.inl "name" :: p) (.str name) ∧
      (redactSensitive o met v).At (.inl "message" :: p)
        (.str (redactString o (o.sensitiveAt p) message)) := by
  have hobj := at_redactSensitive h hreached (o := o)
  rw [redactedAt, redactWalk, cutOff_of_entered hentered, Option.getD_none] at hobj
  exact ⟨.field hobj (by simp), .field hobj (by simp)⟩

/-- What stands in the clone is made of what stood there, or is a field made of an error. -/
theorem at_of_at_redactSensitive {u : JsValue} (h : (redactSensitive o met v).At p u) :
    (∃ w, v.At p w ∧ reached met p = true ∧ u = redactedAt o met p w) ∨
      ∃ q name message, v.At q (.error name message) ∧ reached met q = true ∧ entered met q = true ∧
        (p = .inl "name" :: q ∧ u = .str name ∨
          p = .inl "message" :: q ∧ u = .str (redactString o (o.sensitiveAt q) message)) := by
  induction h with
  | root => exact .inl ⟨v, .root, rfl, rfl⟩
  | @item p items' i u _ hitem ih =>
    obtain ⟨w, hw, hreached, heq⟩ | ⟨_, _, _, _, _, _, ⟨_, heq⟩ | ⟨_, heq⟩⟩ := ih
    · obtain ⟨items, rfl, hcut, rfl⟩ := redactWalk_eq_arr heq.symm
      rw [getElem?_redactItems, Nat.zero_add] at hitem
      obtain ⟨w, hw', rfl⟩ := Option.map_eq_some_iff.mp hitem
      refine .inl ⟨w, .item hw hw', ?_, rfl⟩
      simp [reached, hreached, entered_of_cutOff hcut]
    · cases heq
    · cases heq
  | @field p fields' k u _ hfield ih =>
    obtain ⟨w, hw, hreached, heq⟩ | ⟨_, _, _, _, _, _, ⟨_, heq⟩ | ⟨_, heq⟩⟩ := ih
    · obtain ⟨hcut, ⟨fields, rfl, rfl⟩ | ⟨name, message, rfl, rfl⟩⟩ := redactWalk_eq_obj heq.symm
      · obtain ⟨hmem, hproto⟩ := mem_assigned.mp hfield
        rw [redactFields_eq] at hmem
        obtain ⟨⟨k, w⟩, hw', heq⟩ := List.mem_map.mp hmem
        cases heq
        refine .inl ⟨w, .field hw hw', ?_, rfl⟩
        simpa [reached, hreached, entered_of_cutOff hcut] using hproto
      · refine .inr ⟨p, name, message, hw, hreached, entered_of_cutOff hcut, ?_⟩
        simpa using hfield
    · cases heq
    · cases heq

/-! ## A clone under the verifier -/

/-- What a clone is like: it has no dates, errors and functions, its containers are not too deep, and
none of its keys is `__proto__`. -/
structure IsClone (u : JsValue) : Prop where
  plain : u.plain = true
  shallow : ∀ p w, u.At p w → w.isLeaf = false → p.length < hardMaxDepth
  noProto : ∀ p k w, u.At (.inl k :: p) w → k ≠ protoKey

theorem isClone_redactSensitive (v : JsValue) : IsClone (redactSensitive o met v) where
  plain := plain_redactWalk v
  shallow := by
    intro p u hu hleaf
    obtain ⟨w, hw, hreached, rfl⟩ | ⟨_, _, _, _, _, _, ⟨_, rfl⟩ | ⟨_, rfl⟩⟩ :=
      at_of_at_redactSensitive hu
    · suffices hentered : entered met p = true by
        simp only [entered, Bool.and_eq_true, decide_eq_true_eq] at hentered
        exact hentered.1
      -- a container in a clone comes from an object that was walked into
      refine entered_of_cutOff (o := o) ?_
      cases hredacted : redactedAt o met p w with
      | arr items =>
        obtain ⟨_, _, hcut, _⟩ := redactWalk_eq_arr hredacted
        exact hcut
      | obj fields => exact (redactWalk_eq_obj hredacted).1
      | _ => rw [hredacted] at hleaf; cases hleaf
    · cases hleaf
    · cases hleaf
  noProto := by
    intro p k u hu
    obtain ⟨w, hw, hreached, rfl⟩ | ⟨_, _, _, _, _, _, ⟨hp, _⟩ | ⟨hp, _⟩⟩ :=
      at_of_at_redactSensitive hu
    · simp only [reached, Bool.and_eq_true, decide_eq_true_eq] at hreached
      rintro rfl
      exact hreached.2 rfl
    · cases hp
      decide
    · cases hp
      decide

/-- Nothing in a clone was met before. -/
def neverMet : JsPath → Bool := fun _ => false

variable {u : JsValue}

theorem plain_of_at (hu : u.plain = true) (h : u.At p w) : w.plain = true := by
  induction h with
  | root => exact hu
  | item _ hitem ih => exact plain_arr.mp ih _ (List.mem_of_getElem? hitem)
  | field _ hfield ih => exact plain_obj.mp ih _ hfield

theorem walkItems_eq_nil {items : List JsValue} {depth j : ℕ} :
    walkItems o met p sensitive depth j items = [] ↔
      ∀ i w, items[i]? = some w → walk o met (.inr (j + i) :: p) sensitive depth w = [] := by
  induction items generalizing j with
  | nil => simp [walkItems]
  | cons w items ih =>
    rw [walkItems, List.append_eq_nil_iff, ih]
    -- the index of an item of the tail is one more in the whole
    have hindex : ∀ i, j + 1 + i = j + (i + 1) := fun i => by omega
    constructor
    · rintro ⟨hw, hitems⟩ (_ | i) u hu
      · cases hu
        exact hw
      · rw [← hindex]
        exact hitems i u hu
    · intro h
      refine ⟨h 0 w rfl, fun i u hu => ?_⟩
      rw [hindex]
      exact h (i + 1) u hu

theorem walkFields_eq_nil {fields : JsRecord} {depth : ℕ} :
    walkFields o met p sensitive depth fields = [] ↔
      ∀ k w, (k, w) ∈ fields → walk o met (.inl k :: p) (sensitive || o.isSensitive k) depth w = [] := by
  induction fields with
  | nil => simp [walkFields]
  | cons f fields ih =>
    obtain ⟨k, w⟩ := f
    rw [walkFields, List.append_eq_nil_iff, ih]
    simp only [List.mem_cons, Prod.mk.injEq]
    constructor
    · rintro ⟨hw, hfields⟩ k' w' (⟨rfl, rfl⟩ | hmem)
      · exact hw
      · exact hfields k' w' hmem
    · exact fun h => ⟨h k w (.inl ⟨rfl, rfl⟩), fun k' w' hmem => h k' w' (.inr hmem)⟩

/-- What the verifier has against the value at a place. -/
def violationsAt (o : ScrubVerifyOptions) (p : JsPath) (w : JsValue) : List LogViolationKind :=
  walk o neverMet p (o.sensitiveAt p) p.length w

/-- A container of a clone is walked into. -/
theorem IsClone.not_cut (hu : IsClone u) (h : u.At p w) (hleaf : w.isLeaf = false) :
    ¬(hardMaxDepth ≤ p.length ∨ neverMet p = true) := by
  rintro (hdepth | hmet)
  · exact absurd (hu.shallow p w h hleaf) (by omega)
  · cases hmet

/-- The verifier has nothing against a clone when it has nothing against its strings. -/
theorem IsClone.findLogViolations_eq_nil (hu : IsClone u) :
    findLogViolations o neverMet u = [] ↔ ∀ p s, u.At p (.str s) → o.passes (o.sensitiveAt p) s = true := by
  constructor
  · intro hnone
    have hall : ∀ p w, u.At p w → violationsAt o p w = [] := by
      intro p w h
      induction h with
      | root => exact hnone
      | @item p items i w harr hitem ih =>
        rw [violationsAt, walk, if_neg (hu.not_cut harr rfl)] at ih
        have := walkItems_eq_nil.mp ih i w hitem
        rwa [Nat.zero_add] at this
      | @field p fields k w hobj hfield ih =>
        rw [violationsAt, walk, if_neg (hu.not_cut hobj rfl)] at ih
        exact walkFields_eq_nil.mp ih k w hfield
    intro p s h
    exact checkString_eq_nil.mp (hall p _ h)
  · intro hpasses
    -- by induction on the value at a place, for every place
    suffices hall : ∀ w p, u.At p w → violationsAt o p w = [] from hall u [] .root
    intro w
    induction w using JsValue.members_induction with
    | leaf w hleaf =>
      intro p h
      have hplain := plain_of_at hu.plain h
      cases w with
      | str s => exact checkString_eq_nil.mpr (hpasses p s h)
      | arr | obj => cases hleaf
      | function | error => cases hplain
      | _ => rfl
    | arr items ih =>
      intro p h
      rw [violationsAt, walk, if_neg (hu.not_cut h rfl), walkItems_eq_nil]
      intro i w hitem
      have := ih w (List.mem_of_getElem? hitem) _ (.item h hitem)
      rwa [Nat.zero_add]
    | obj fields ih =>
      intro p h
      rw [violationsAt, walk, if_neg (hu.not_cut h rfl), walkFields_eq_nil]
      intro k w hfield
      exact ih (k, w) hfield _ (.field h hfield)

/-- A clone is left as it is when nothing is against its strings. -/
theorem IsClone.redactSensitive_eq (hu : IsClone u)
    (hpasses : ∀ p s, u.At p (.str s) → o.passes (o.sensitiveAt p) s = true) :
    redactSensitive o neverMet u = u := by
  suffices hall : ∀ w p, u.At p w → redactedAt o neverMet p w = w from hall u [] .root
  intro w
  induction w using JsValue.members_induction with
  | leaf w hleaf =>
    intro p h
    have hplain := plain_of_at hu.plain h
    cases w with
    | str s =>
      show JsValue.str _ = _
      rw [redactString_of_passes (hpasses p s h)]
    | arr | obj => cases hleaf
    | date | function | error => cases hplain
    | _ => rfl
  | arr items ih =>
    intro p h
    have hentered : entered neverMet p = true := by
      simpa [entered, neverMet] using hu.shallow p _ h rfl
    rw [redactedAt, redactWalk, cutOff_of_entered hentered, Option.getD_none]
    congr 1
    refine List.ext_getElem? fun i => ?_
    rw [getElem?_redactItems, Nat.zero_add]
    cases hitem : items[i]? with
    | none => rfl
    | some w => exact congrArg some (ih w (List.mem_of_getElem? hitem) _ (.item h hitem))
  | obj fields ih =>
    intro p h
    have hentered : entered neverMet p = true := by
      simpa [entered, neverMet] using hu.shallow p _ h rfl
    have hsame : redactFields o neverMet p (o.sensitiveAt p) (p.length + 1) fields = fields := by
      rw [redactFields_eq]
      refine (List.map_congr_left fun f hf => ?_).trans (List.map_id _)
      exact Prod.ext rfl (ih f hf _ (.field h hf))
    have hkeys : assigned fields = fields :=
      List.filter_eq_self.mpr fun f hf => decide_eq_true (hu.noProto p f.1 f.2 (.field h hf))
    rw [redactedAt, redactWalk, cutOff_of_entered hentered, Option.getD_none, hsame, hkeys]

/-! ## Agreement -/

/-- The verifier finds nothing in the clone, and the redactor has nothing left to do in it. -/
def Agree (o : ScrubVerifyOptions) (met : JsPath → Bool) (v : JsValue) : Prop :=
  findLogViolations o neverMet (redactSensitive o met v) = [] ∧
    redactSensitive o neverMet (redactSensitive o met v) = redactSensitive o met v

/-- The texts that are written without a look at them may stay where they are written: those of the dates
that the redactor comes to, and the names of the errors. Where the key `message` is sensitive, so may the
messages that nothing else is wrong with. -/
structure WritesSafely (o : ScrubVerifyOptions) (met : JsPath → Bool) (v : JsValue) : Prop where
  date : ∀ p ms, v.At p (.date ms) → reached met p = true → o.passes (o.sensitiveAt p) (dateISOString ms) = true
  name : ∀ p name message, v.At p (.error name message) → reached met p = true → entered met p = true →
    o.passes (o.sensitiveAt p || o.isSensitive "name") name = true
  message : ∀ p name message, v.At p (.error name message) → reached met p = true → entered met p = true →
    o.sensitiveAt p = false → o.isSensitive "message" = true → o.passes false message = true →
    isRedactionPlaceholder message o.placeholder = true

/-- The strings of the clone pass exactly when what is written without a look does. -/
theorem strings_pass_iff :
    (∀ p s, (redactSensitive o met v).At p (.str s) → o.passes (o.sensitiveAt p) s = true) ↔
      WritesSafely o met v := by
  constructor
  · intro hpasses
    refine ⟨fun p ms h hreached => ?_, fun p name message h hreached hentered => ?_,
      fun p name message h hreached hentered hsens hkey hclean => ?_⟩
    · exact hpasses p _ (at_redactSensitive h hreached)
    · exact hpasses _ _ (at_redactSensitive_error h hreached hentered).1
    · have hpass := hpasses _ _ (at_redactSensitive_error h hreached hentered).2
      rw [hsens, redactString_of_passes hclean] at hpass
      simpa [ScrubVerifyOptions.passes, ScrubVerifyOptions.sensitiveAt, hkey] using hpass
  · intro hsafe p s h
    obtain ⟨w, hw, hreached, heq⟩ | ⟨q, name, message, hw, hreached, hentered, hfield⟩ :=
      at_of_at_redactSensitive h
    · have hcut : ∀ u : JsValue, (∀ t, u ≠ .str t) →
          JsValue.str s = (cutOff o met p p.length).getD u → o.passes (o.sensitiveAt p) s = true := by
        intro u hu heq
        cases hentered : entered met p with
        | true =>
          rw [cutOff_of_entered hentered] at heq
          exact absurd heq.symm (hu s)
        | false =>
          obtain ⟨t, ht⟩ := cutOff_of_not_entered hentered (o := o)
          rw [ht] at heq
          cases heq
          exact passes_of_placeholder (startsWith_append _ _)
      cases w with
      | str t =>
        cases heq
        exact passes_redactString t
      | date ms =>
        cases heq
        exact hsafe.date p ms hw hreached
      | function =>
        cases heq
        exact passes_of_placeholder (startsWith_append _ _)
      | error | arr | obj => exact hcut _ (fun t ht => by cases ht) heq
      | _ => cases heq
    · obtain ⟨rfl, heq⟩ | ⟨rfl, heq⟩ := hfield
      · cases heq
        exact hsafe.name q _ message hw hreached hentered
      · cases heq
        cases hpass : o.passes (o.sensitiveAt q) message with
        | false => exact passes_of_placeholder (placeholder_redactString hpass)
        | true =>
          rw [redactString_of_passes hpass]
          show o.passes (o.sensitiveAt q || o.isSensitive "message") message = true
          cases hsens : o.sensitiveAt q with
          | true => rwa [hsens] at hpass
          | false =>
            rw [hsens] at hpass
            cases hkey : o.isSensitive "message" with
            | false => exact hpass
            | true =>
              exact passes_of_placeholder (hsafe.message q name message hw hreached hentered hsens hkey hpass)

/-- For any detectors, the redactor and the verifier agree on a value exactly when the texts that the redactor
writes without a look may stay. -/
theorem agree_iff (o : ScrubVerifyOptions) (met : JsPath → Bool) (v : JsValue) :
    Agree o met v ↔ WritesSafely o met v := by
  have hclone : IsClone (redactSensitive o met v) := isClone_redactSensitive v
  rw [Agree, hclone.findLogViolations_eq_nil, strings_pass_iff]
  constructor
  · exact fun h => h.1
  · exact fun h => ⟨h, hclone.redactSensitive_eq (strings_pass_iff.mpr h)⟩

/-- A date under a sensitive key is written out, and the verifier finds it. -/
theorem not_agree_date : ¬Agree {} neverMet (.obj [("sessionId", .date 0)]) := by
  intro h
  have hfound : findLogViolations {} neverMet
      (redactSensitive {} neverMet (.obj [("sessionId", .date 0)])) = [.sensitiveValue] := by decide +kernel
  rw [h.1] at hfound
  cases hfound

end MontrSecure
