import MontrSecure.Js.Value
import MontrSecure.Security.SecretFormats

/-!
# The audit scrubber

`packages/security/src/scrubber.ts`: the redactor that everything free-form in an audit event goes
through, and the verifier that is run on what it leaves. Objects that occur twice are cut off by the
redactor at their second occurrence; which ones those are is not part of a value and is given by
`met`.
-/

namespace MontrSecure

open Text

/-! ## Options -/

/-- `REDACTED`. -/
def redacted : String := "[REDACTED]"

/-- `DEFAULT_MAX_STRING_LENGTH`. -/
def defaultMaxStringLength : ℕ := 1024

/-- `HARD_MAX_DEPTH`. -/
def hardMaxDepth : ℕ := 64

/-- `ScrubVerifyOptions`, with the defaults of `resolve`. The detectors that the source calls on a
string are fields, so that what does not depend on them holds for any. -/
structure ScrubVerifyOptions where
  sensitiveKeyPattern : Regex ℕ := defaultSensitiveKeyPattern
  maxStringLength : ℕ := defaultMaxStringLength
  placeholder : String := redacted
  matchers : List SecretMatcher := secretValueMatchers
  detectSecret : String → Option String := detectSecretValue matchers
  detectCode : String → Bool := looksLikeSourceCode

/-- Where a value is in another one: the keys and indices that lead there, the last one first. -/
abbrev JsPath := List (String ⊕ ℕ)

/-- `s.startsWith(start)`. -/
def startsWith (s start : String) : Bool := (units start).isPrefixOf (units s)

/-- `isRedactionPlaceholder`. -/
def isRedactionPlaceholder (value placeholder : String) : Bool := startsWith value placeholder

variable (o : ScrubVerifyOptions) (met : JsPath → Bool)

/-- The keys under which everything is redacted. -/
def ScrubVerifyOptions.isSensitive (key : String) : Bool := o.sensitiveKeyPattern.test (units key)

/-! ## The verifier -/

/-- `LogViolationKind`. -/
inductive LogViolationKind where
  | sensitiveValue
  | secretValue
  | codeBody
  | oversize
  | unloggable
  deriving DecidableEq

/-- The string of a kind of violation. -/
def LogViolationKind.name : LogViolationKind → String
  | .sensitiveValue => "sensitive_value"
  | .secretValue => "secret_value"
  | .codeBody => "code_body"
  | .oversize => "oversize"
  | .unloggable => "unloggable"

/-- `checkString`: what is wrong with a string. -/
def checkString (sensitive : Bool) (value : String) : List LogViolationKind :=
  if isRedactionPlaceholder value o.placeholder then []
  else if sensitive then [.sensitiveValue]
  else if o.maxStringLength < Text.length value then [.oversize]
  else if (o.detectSecret value).isSome then [.secretValue]
  else if o.detectCode value then [.codeBody] else []

mutual
/-- `walk`. -/
def walk (path : JsPath) (sensitive : Bool) (depth : ℕ) : JsValue → List LogViolationKind
  | .undefined | .null | .bool _ | .num _ | .date _ => []
  | .str s => checkString o sensitive s
  | .function => [.unloggable]
  | .error _ message =>
    if hardMaxDepth ≤ depth ∨ met path = true then [] else checkString o sensitive message
  | .arr items =>
    if hardMaxDepth ≤ depth ∨ met path = true then [] else walkItems path sensitive (depth + 1) 0 items
  | .obj fields =>
    if hardMaxDepth ≤ depth ∨ met path = true then [] else walkFields path sensitive (depth + 1) fields

/-- `walk` on the items of an array, from index `i` on. -/
def walkItems (path : JsPath) (sensitive : Bool) (depth i : ℕ) : List JsValue → List LogViolationKind
  | [] => []
  | v :: items => walk (.inr i :: path) sensitive depth v ++ walkItems path sensitive depth (i + 1) items

/-- `walk` on the entries of an object. -/
def walkFields (path : JsPath) (sensitive : Bool) (depth : ℕ) : JsRecord → List LogViolationKind
  | [] => []
  | (k, v) :: fields =>
    walk (.inl k :: path) (sensitive || o.isSensitive k) depth v ++ walkFields path sensitive depth fields
end

/-- `findLogViolations`, by the kinds of the violations. -/
def findLogViolations (value : JsValue) : List LogViolationKind := walk o met [] false 0 value

/-! ## The redactor -/

/-- `redactString`. -/
def redactString (sensitive : Bool) (value : String) : String :=
  if isRedactionPlaceholder value o.placeholder then value
  else if sensitive then o.placeholder
  else if o.maxStringLength < Text.length value then
    o.placeholder ++ ":oversize:" ++ toString (Text.length value) ++ "b"
  else if (o.detectSecret value).isSome then o.placeholder ++ ":secret"
  else if o.detectCode value then o.placeholder ++ ":code" else value

/-- What an object that is not walked into is replaced by: it is too deep, or was met before. -/
def cutOff (path : JsPath) (depth : ℕ) : Option JsValue :=
  if hardMaxDepth ≤ depth then some (.str (o.placeholder ++ ":depth"))
  else if met path then some (.str (o.placeholder ++ ":cycle")) else none

mutual
/-- `redactWalk`. -/
def redactWalk (path : JsPath) (sensitive : Bool) (depth : ℕ) : JsValue → JsValue
  | .undefined => .undefined
  | .null => .null
  | .bool b => .bool b
  | .num q => .num q
  | .str s => .str (redactString o sensitive s)
  | .date ms => .str (dateISOString ms)
  | .function => .str (o.placeholder ++ ":unloggable")
  | .error name message =>
    (cutOff o met path depth).getD
      (.obj [("name", .str name), ("message", .str (redactString o sensitive message))])
  | .arr items => (cutOff o met path depth).getD (.arr (redactItems path sensitive (depth + 1) 0 items))
  | .obj fields =>
    (cutOff o met path depth).getD (.obj (assigned (redactFields path sensitive (depth + 1) fields)))

/-- `redactWalk` on the items of an array, from index `i` on. -/
def redactItems (path : JsPath) (sensitive : Bool) (depth i : ℕ) : List JsValue → List JsValue
  | [] => []
  | v :: items =>
    redactWalk (.inr i :: path) sensitive depth v :: redactItems path sensitive depth (i + 1) items

/-- `redactWalk` on the entries of an object. -/
def redactFields (path : JsPath) (sensitive : Bool) (depth : ℕ) : JsRecord → JsRecord
  | [] => []
  | (k, v) :: fields =>
    (k, redactWalk (.inl k :: path) (sensitive || o.isSensitive k) depth v) ::
      redactFields path sensitive depth fields
end

/-- `redactSensitive`. -/
def redactSensitive (value : JsValue) : JsValue := redactWalk o met [] false 0 value

/-! ## What the redactor leaves -/

variable {o met} {path : JsPath} {sensitive : Bool} {depth i : ℕ}

/-- The items of a redacted array. -/
theorem mem_redactItems {items : List JsValue} {w : JsValue}
    (h : w ∈ redactItems o met path sensitive depth i items) :
    ∃ v ∈ items, ∃ j, w = redactWalk o met (.inr j :: path) sensitive depth v := by
  induction items generalizing i with
  | nil => cases h
  | cons v items ih =>
    obtain rfl | h := List.mem_cons.mp h
    · exact ⟨v, List.mem_cons_self, i, rfl⟩
    · obtain ⟨u, hu, hw⟩ := ih h
      exact ⟨u, List.mem_cons_of_mem _ hu, hw⟩

theorem redactFields_eq (fields : JsRecord) :
    redactFields o met path sensitive depth fields = fields.map fun f =>
      (f.1, redactWalk o met (.inl f.1 :: path) (sensitive || o.isSensitive f.1) depth f.2) := by
  induction fields with
  | nil => rfl
  | cons f fields ih => rw [redactFields, ih, List.map_cons]

theorem keysOf_redactFields (fields : JsRecord) :
    keysOf (redactFields o met path sensitive depth fields) = keysOf fields := by
  rw [redactFields_eq, keysOf, List.map_map]
  rfl

/-- What replaces an object is a string. -/
theorem getD_cutOff {P : JsValue → Prop} {v : JsValue} (hstr : ∀ s, P (.str s)) (hv : P v) :
    P ((cutOff o met path depth).getD v) := by
  unfold cutOff
  split_ifs
  · exact hstr _
  · exact hstr _
  · exact hv

/-- The dates, errors and functions of a value become strings and objects. -/
theorem plain_redactWalk (v : JsValue) : (redactWalk o met path sensitive depth v).plain = true := by
  induction v using JsValue.members_induction generalizing path sensitive depth with
  | leaf v hleaf =>
    cases v with
    | error name message =>
      refine getD_cutOff (P := fun w => w.plain = true) (fun s => rfl) ?_
      simp [plain_obj]
    | arr | obj => cases hleaf
    | _ => rfl
  | arr items ih =>
    refine getD_cutOff (P := fun w => w.plain = true) (fun s => rfl) (plain_arr.mpr fun w hw => ?_)
    obtain ⟨v, hv, j, rfl⟩ := mem_redactItems hw
    exact ih v hv
  | obj fields ih =>
    refine getD_cutOff (P := fun w => w.plain = true) (fun s => rfl) (plain_obj.mpr fun f hf => ?_)
    have hmem := (mem_assigned.mp hf).1
    rw [redactFields_eq] at hmem
    obtain ⟨g, hg, rfl⟩ := List.mem_map.mp hmem
    exact ih g hg

/-- The keys of a value stay different. -/
theorem distinct_redactWalk {v : JsValue} (hv : v.distinct = true) :
    (redactWalk o met path sensitive depth v).distinct = true := by
  induction v using JsValue.members_induction generalizing path sensitive depth with
  | leaf v hleaf =>
    cases v with
    | error name message =>
      refine getD_cutOff (P := fun w => w.distinct = true) (fun s => rfl) (js_distinct_obj.mpr ⟨?_, ?_⟩)
      · exact (by decide : ["name", "message"].Nodup)
      · simp
    | arr | obj => cases hleaf
    | _ => rfl
  | arr items ih =>
    refine getD_cutOff (P := fun w => w.distinct = true) (fun s => rfl) (js_distinct_arr.mpr fun w hw => ?_)
    obtain ⟨v, hmem, j, rfl⟩ := mem_redactItems hw
    exact ih v hmem (js_distinct_arr.mp hv v hmem)
  | obj fields ih =>
    obtain ⟨hkeys, hfields⟩ := js_distinct_obj.mp hv
    refine getD_cutOff (P := fun w => w.distinct = true) (fun s => rfl)
      (js_distinct_obj.mpr ⟨?_, fun f hf => ?_⟩)
    · refine (keysOf_assigned _).nodup ?_
      rwa [keysOf_redactFields]
    · have hmem := (mem_assigned.mp hf).1
      rw [redactFields_eq] at hmem
      obtain ⟨g, hg, rfl⟩ := List.mem_map.mp hmem
      exact ih g hg (hfields g hg)

end MontrSecure
