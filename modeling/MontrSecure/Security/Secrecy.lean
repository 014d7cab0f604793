import MontrSecure.Security.Agreement

/-!
# What survives redaction

A string of a JSON value is kept when nothing is against it, and also when it begins with the placeholder,
whatever follows. So the strings that begin with it are those that carry secrets through.
-/

namespace MontrSecure

open Text

/-! ## Secrets inside a text -/

/-- Some part of the string is a secret by itself. -/
def HoldsSecret (s : String) : Prop :=
  ∃ part, part <:+: units s ∧ ∃ m ∈ secretValueMatchers, m.re.test part = true

theorem not_holdsSecret_of_lacks {s : String} (h : ∀ w ∈ secretWords, ∃ c ∈ units w, c ∉ units s) :
    ¬HoldsSecret s := by
  rintro ⟨part, hpart, m, hm, hmatch⟩
  have hlacks : ∀ w ∈ secretWords, ∃ c ∈ units w, c ∉ part := by
    intro w hw
    obtain ⟨c, hc, hlacks⟩ := h w hw
    exact ⟨c, hc, fun hmem => hlacks (hpart.subset hmem)⟩
  rw [no_secret_of_lacks hlacks m hm] at hmatch
  cases hmatch

/-- A secret is a part of itself. -/
theorem holdsSecret_of_detect {s : String} (h : (detectSecretValue secretValueMatchers s).isSome = true) :
    HoldsSecret s := by
  rw [detectSecretValue, Option.isSome_map, List.find?_isSome] at h
  exact ⟨units s, List.infix_rfl, h⟩

/-! ## The markers -/

/-- The characters of the markers, but for digits. -/
def markerChars : String := "[REDACTED]:oversizbctdphyl"

theorem mem_markerChars {s : String} {c : Char}
    (hs : (s.toList.all fun c => decide (c ∈ markerChars.toList)) = true) (hc : c ∈ s.toList) :
    c ∈ markerChars.toList :=
  of_decide_eq_true (List.all_eq_true.mp hs c hc)

/-- A string that the redactor can let through. -/
def Harmless (s : String) : Prop := ¬HoldsSecret s ∧ Text.length s ≤ defaultMaxStringLength

theorem harmless_of_markerChars {s : String}
    (hchars : ∀ c ∈ s.toList, c.isDigit = true ∨ c ∈ markerChars.toList)
    (hlength : s.toList.length ≤ defaultMaxStringLength) : Harmless s := by
  have hascii : ∀ c ∈ s.toList, c.toNat < 0x80 := by
    intro c hc
    obtain hdigit | hmarker := hchars c hc
    · exact ascii_of_isDigit hdigit
    · have hall : (markerChars.toList.all fun c => decide (c.toNat < 0x80)) = true := by decide
      exact of_decide_eq_true (List.all_eq_true.mp hall c hmarker)
  refine ⟨not_holdsSecret_of_lacks fun w hw => ?_, ?_⟩
  · obtain ⟨c, hc, hmem⟩ := letter_of_secretWords ['K', '_', 'x', 'k', 'I', 'J', 'B'] (by decide) hw
    have habsent : (['K', '_', 'x', 'k', 'I', 'J', 'B'].all fun c =>
        !c.isDigit && decide (c ∉ markerChars.toList)) = true := by decide
    refine ⟨unit c, hmem, fun hin => ?_⟩
    rw [units_of_ascii hascii, List.mem_map] at hin
    obtain ⟨d, hd, hcode⟩ := hin
    obtain rfl := Char.toNat_inj.mp hcode
    have hd' := List.all_eq_true.mp habsent d hc
    rw [Bool.and_eq_true, Bool.not_eq_true', decide_eq_true_eq] at hd'
    obtain hdigit | hmarker := hchars d hd
    · rw [hd'.1] at hdigit
      cases hdigit
    · exact hd'.2 hmarker
  · rwa [Text.length, units_of_ascii hascii, List.length_map]

theorem harmless_oversize {n : ℕ} (hn : n < 2 ^ 53) :
    Harmless (redacted ++ ":oversize:" ++ toString n ++ "b") := by
  have htext : (redacted ++ ":oversize:" ++ toString n ++ "b").toList =
      "[REDACTED]:oversize:".toList ++ (toString n).toList ++ ['b'] := by
    simp [redacted, String.toList_append]
  apply harmless_of_markerChars
  · intro c hc
    rw [htext, List.mem_append, List.mem_append] at hc
    obtain (hc | hc) | hc := hc
    · exact .inr (mem_markerChars (by decide) hc)
    · exact .inl (isDigit_of_mem_toString hc)
    · exact .inr (mem_markerChars (s := "b") (by decide) hc)
  · have hdigits : (toString n).toList.length ≤ 16 := length_toString (by decide) (by omega)
    have hhead : "[REDACTED]:oversize:".toList.length = 20 := by decide
    rw [htext, List.length_append, List.length_append, hhead, List.length_singleton, defaultMaxStringLength]
    omega

theorem harmless_marker {t : String} (ht : t ∈ ["", ":secret", ":code", ":depth", ":cycle"]) :
    Harmless (redacted ++ t) := by
  have hshort : (["", ":secret", ":code", ":depth", ":cycle"].all fun t =>
      ((redacted ++ t).toList.all fun c => decide (c ∈ markerChars.toList)) &&
        decide ((redacted ++ t).toList.length ≤ defaultMaxStringLength)) = true := by decide
  have hmarker := List.all_eq_true.mp hshort t ht
  rw [Bool.and_eq_true, decide_eq_true_eq] at hmarker
  exact harmless_of_markerChars (fun c hc => .inr (mem_markerChars hmarker.1 hc)) hmarker.2

/-- What a string that is not kept is replaced by is harmless. -/
theorem harmless_redactString {s : String} {sensitive : Bool} (hlength : Text.length s < 2 ^ 53)
    (h : ScrubVerifyOptions.passes {} sensitive s = false) : Harmless (redactString {} sensitive s) := by
  unfold ScrubVerifyOptions.passes at h
  unfold redactString
  split_ifs with hplaceholder hsensitive hover hsecret hcode
  · simp_all
  · exact harmless_marker (t := "") (by decide)
  · exact harmless_oversize hlength
  · exact harmless_marker (t := ":secret") (by decide)
  · exact harmless_marker (t := ":code") (by decide)
  · simp_all

/-! ## Survival -/

/-- A sensitive key leads there, by the default pattern. -/
abbrev underSensitiveKey (p : JsPath) : Bool := ScrubVerifyOptions.sensitiveAt {} p

/-- No string of the clone has a secret in it or is too long, and none that was under a sensitive key is
still there. -/
def NoSecretSurvives (met : JsPath → Bool) (v : JsValue) : Prop :=
  (∀ p s, (redactSensitive {} met v).At p (.str s) → Harmless s) ∧
    ∀ p s, v.At p (.str s) → underSensitiveKey p = true → ¬(redactSensitive {} met v).At p (.str s)

/-- The strings that the redactor keeps may be kept. -/
structure KeepsHarmless (met : JsPath → Bool) (v : JsValue) : Prop where
  /-- A string that begins with the placeholder is kept wherever it is, and whatever follows. -/
  marked : ∀ p s, v.At p (.str s) → reached met p = true → isRedactionPlaceholder s redacted = true →
    underSensitiveKey p = false ∧ Harmless s
  /-- Where the detectors see nothing, no part of the string is a secret when it is cut out. -/
  unmarked : ∀ p s, v.At p (.str s) → reached met p = true → isRedactionPlaceholder s redacted = false →
    underSensitiveKey p = false → Text.length s ≤ defaultMaxStringLength →
    detectSecretValue secretValueMatchers s = none → looksLikeSourceCode s = false → ¬HoldsSecret s

variable {met : JsPath → Bool} {v : JsValue} {p : JsPath} {s : String}

/-- A string that passes is left as it is. -/
theorem at_of_passes (h : v.At p (.str s)) (hreached : reached met p = true)
    (hpasses : ScrubVerifyOptions.passes {} (underSensitiveKey p) s = true) :
    (redactSensitive {} met v).At p (.str s) := by
  have hat := at_redactSensitive h hreached (o := {})
  rwa [redactedAt, redactWalk, redactString_of_passes hpasses] at hat

/-- The strings in the clone of a value without dates, errors and functions come from strings, and from objects
that are not walked into. -/
theorem str_of_at_redactSensitive (hplain : v.plain = true) (h : (redactSensitive {} met v).At p (.str s)) :
    reached met p = true ∧
      ((∃ t, v.At p (.str t) ∧ s = redactString {} (underSensitiveKey p) t) ∨
        ∃ t ∈ [":depth", ":cycle"], s = redacted ++ t) := by
  obtain ⟨w, hw, hreached, heq⟩ | ⟨q, name, message, hw, _⟩ := at_of_at_redactSensitive h
  · refine ⟨hreached, ?_⟩
    have hcut : ∀ u : JsValue, (∀ t, u ≠ .str t) → JsValue.str s = (cutOff {} met p p.length).getD u →
        ∃ t ∈ [":depth", ":cycle"], s = redacted ++ t := by
      intro u hu heq
      unfold cutOff at heq
      split_ifs at heq
      · cases heq
        exact ⟨":depth", by decide, rfl⟩
      · cases heq
        exact ⟨":cycle", by decide, rfl⟩
      · exact absurd heq.symm (hu s)
    have hplain' := plain_of_at hplain hw
    cases w with
    | str t =>
      cases heq
      exact .inl ⟨t, hw, rfl⟩
    | arr | obj => exact .inr (hcut _ (fun t ht => by cases ht) heq)
    | date | error | function => cases hplain'
    | _ => cases heq
  · cases plain_of_at hplain hw

/-- No secret of a JSON value survives exactly when what the redactor keeps is harmless. -/
theorem noSecretSurvives_iff (met : JsPath → Bool) (j : Json)
    (hlength : ∀ p s, (JsValue.ofJson j).At p (.str s) → Text.length s < 2 ^ 53) :
    NoSecretSurvives met (.ofJson j) ↔ KeepsHarmless met (.ofJson j) := by
  have hplain := plain_ofJson j
  constructor
  · rintro ⟨hclean, hgone⟩
    constructor
    · intro p s h hreached hmarked
      have hkept := at_of_passes h hreached (passes_of_placeholder hmarked)
      refine ⟨?_, hclean p s hkept⟩
      cases hsensitive : underSensitiveKey p with
      | false => rfl
      | true => exact absurd hkept (hgone p s h hsensitive)
    · intro p s h hreached hmarked hsensitive hcap hsecret hcode
      have hpasses : ScrubVerifyOptions.passes {} (underSensitiveKey p) s = true := by
        simp [ScrubVerifyOptions.passes, hsensitive, hcap, hsecret, hcode]
      exact (hclean p s (at_of_passes h hreached hpasses)).1
  · intro hkeeps
    constructor
    · intro p s h
      obtain ⟨hreached, ⟨t, ht, rfl⟩ | ⟨t, ht, rfl⟩⟩ := str_of_at_redactSensitive hplain h
      · cases hpasses : ScrubVerifyOptions.passes {} (underSensitiveKey p) t with
        | false => exact harmless_redactString (hlength p t ht) hpasses
        | true =>
          rw [redactString_of_passes hpasses]
          cases hmarked : isRedactionPlaceholder t redacted with
          | true => exact (hkeeps.marked p t ht hreached hmarked).2
          | false =>
            -- without the placeholder a string passes only when nothing is against it
            simp only [ScrubVerifyOptions.passes, hmarked, Bool.false_or, Bool.and_eq_true, Bool.not_eq_true',
              decide_eq_true_eq, Option.isSome_eq_false_iff, Option.isNone_iff_eq_none] at hpasses
            obtain ⟨⟨⟨hsensitive, hcap⟩, hsecret⟩, hcode⟩ := hpasses
            exact ⟨hkeeps.unmarked p t ht hreached hmarked hsensitive hcap hsecret hcode, hcap⟩
      · exact harmless_marker (by simp only [List.mem_cons, List.not_mem_nil, or_false] at ht ⊢; tauto)
    · intro p s h hsensitive hat
      -- under a sensitive key the clone has only strings that begin with the placeholder
      have hmarked : isRedactionPlaceholder s redacted = true := by
        obtain ⟨_, ⟨t, _, rfl⟩ | ⟨t, _, rfl⟩⟩ := str_of_at_redactSensitive hplain hat
        · unfold redactString
          rw [if_pos hsensitive]
          split_ifs with ht
          · exact ht
          · exact startsWith_self _
        · exact startsWith_append _ _
      obtain ⟨hreached, _⟩ := str_of_at_redactSensitive hplain hat
      have hfalse := (hkeeps.marked p s h hreached hmarked).1
      rw [hsensitive] at hfalse
      cases hfalse

/-- A record with a password and nothing else. -/
def passwordRecord : Json := .obj [("password", .str "hunter2")]

theorem at_passwordRecord (h : (JsValue.ofJson passwordRecord).At p (.str s)) :
    p = [.inl "password"] ∧ s = "hunter2" := by
  -- the value is one object, with one field that is a string
  have hplaces : ∀ {p : JsPath} {w : JsValue}, (JsValue.ofJson passwordRecord).At p w →
      (p = [] ∧ w = .obj [("password", .str "hunter2")]) ∨ (p = [.inl "password"] ∧ w = .str "hunter2") := by
    intro p w h
    induction h with
    | root => exact .inl ⟨rfl, rfl⟩
    | item _ _ ih =>
      obtain ⟨_, heq⟩ | ⟨_, heq⟩ := ih
      · cases heq
      · cases heq
    | field _ hfield ih =>
      obtain ⟨rfl, heq⟩ | ⟨_, heq⟩ := ih
      · cases heq
        cases List.mem_singleton.mp hfield
        exact .inr ⟨rfl, rfl⟩
      · cases heq
  obtain ⟨_, heq⟩ | ⟨hp, heq⟩ := hplaces h
  · cases heq
  · cases heq
    exact ⟨hp, rfl⟩

theorem noSecretSurvives_password : NoSecretSurvives neverMet (.ofJson passwordRecord) := by
  refine (noSecretSurvives_iff neverMet passwordRecord fun p s h => ?_).mpr ⟨fun p s h _ hmarked => ?_,
    fun p s h _ _ hsensitive => ?_⟩
  · obtain ⟨_, rfl⟩ := at_passwordRecord h
    decide
  · obtain ⟨_, rfl⟩ := at_passwordRecord h
    exact absurd hmarked (by decide)
  · obtain ⟨rfl, _⟩ := at_passwordRecord h
    exact absurd hsensitive (by decide +kernel)

/-- A password that begins with the placeholder survives. -/
theorem not_noSecretSurvives_marked :
    ¬NoSecretSurvives neverMet (.ofJson (.obj [("password", .str "[REDACTED] hunter2")])) := by
  rintro ⟨-, hgone⟩
  have hat : (JsValue.ofJson (.obj [("password", .str "[REDACTED] hunter2")])).At [.inl "password"]
      (.str "[REDACTED] hunter2") := .field .root List.mem_cons_self
  refine hgone _ _ hat (by decide +kernel) (at_of_passes hat (by decide +kernel) ?_)
  exact passes_of_placeholder (by decide +kernel)

end MontrSecure
