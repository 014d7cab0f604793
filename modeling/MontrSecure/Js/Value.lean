import MontrSecure.Js.Json

/-!
# Values

The values a record of unknown fields can hold, as far as they can be serialised or logged: those of
JSON, and `undefined`, dates, errors and functions. `toJson` is what `JSON.stringify` makes of a
value before it is written, and `ofJson` what `JSON.parse` gives back.
-/

namespace MontrSecure

/-- A JavaScript value. -/
inductive JsValue where
  | undefined
  | null
  | bool (b : Bool)
  | num (q : ℚ)
  | str (s : String)
  | date (ms : ℤ)
  | error (name message : String)
  | function
  | arr (items : List JsValue)
  | obj (fields : List (String × JsValue))

/-- A record of unknown fields. -/
abbrev JsRecord := List (String × JsValue)

/-- A value that is not a container. -/
def JsValue.isLeaf : JsValue → Bool
  | .arr _ | .obj _ => false
  | _ => true

/-- Induction over the members of a value. -/
theorem JsValue.members_induction {P : JsValue → Prop}
    (leaf : ∀ v : JsValue, v.isLeaf = true → P v)
    (arr : ∀ items, (∀ v ∈ items, P v) → P (.arr items))
    (obj : ∀ fields, (∀ f ∈ fields, P f.2) → P (.obj fields)) (v : JsValue) : P v := by
  refine JsValue.rec (motive_1 := P) (motive_2 := fun items => ∀ v ∈ items, P v)
    (motive_3 := fun fields => ∀ f ∈ fields, P f.2) (motive_4 := fun f => P f.2)
    (leaf _ rfl) (leaf _ rfl) (fun _ => leaf _ rfl) (fun _ => leaf _ rfl) (fun _ => leaf _ rfl)
    (fun _ => leaf _ rfl) (fun _ _ => leaf _ rfl) (leaf _ rfl) arr obj ?_ ?_ ?_ ?_
    (fun _ _ h => h) v
  · exact fun _ h => nomatch h
  · exact fun v items hv hitems => List.forall_mem_cons.mpr ⟨hv, hitems⟩
  · exact fun _ h => nomatch h
  · exact fun f fields hf hfields => List.forall_mem_cons.mpr ⟨hf, hfields⟩

/-! ## Assignments -/

/-- The key that an assignment does not make a field of. -/
def protoKey : String := "__proto__"

/-- The keys that assignments make fields of. -/
abbrev notProto : String → Bool := fun k => decide (k ≠ protoKey)

/-- A fresh object after `out[key] = value` for each of some fields with different keys. -/
def assigned (fields : JsRecord) : JsRecord := fields.filter fun f => notProto f.1

theorem mem_assigned {fields : JsRecord} {f : String × JsValue} :
    f ∈ assigned fields ↔ f ∈ fields ∧ f.1 ≠ protoKey := by
  rw [assigned, List.mem_filter, decide_eq_true_eq]

theorem keysOf_assigned (fields : JsRecord) : (keysOf (assigned fields)).Sublist (keysOf fields) :=
  List.filter_sublist.map _

/-! ## Dates -/

/-- A number in at least `width` digits. -/
def padded (width n : ℕ) : String := String.ofList ((toString n).toList.leftpad width '0')

/-- Year, month and day of a day counted from 1970-01-01, in the Gregorian calendar. -/
def civilOfDays (days : ℕ) : ℕ × ℕ × ℕ :=
  -- eras of 400 years, of which the first one begins on 0000-03-01
  let z := days + 719468
  let dayOfEra := z % 146097
  let yearOfEra := (dayOfEra - dayOfEra / 1460 + dayOfEra / 36524 - dayOfEra / 146096) / 365
  let dayOfYear := dayOfEra - (365 * yearOfEra + yearOfEra / 4 - yearOfEra / 100)
  let month := (5 * dayOfYear + 2) / 153
  let day := dayOfYear - (153 * month + 2) / 5 + 1
  let year := yearOfEra + z / 146097 * 400
  if month < 10 then (year, month + 3, day) else (year + 1, month - 9, day)

/-- Year, month and day as text. -/
def dateText (date : ℕ × ℕ × ℕ) : String :=
  (if date.1 ≤ 9999 then padded 4 date.1 else "+" ++ padded 6 date.1) ++ "-" ++ padded 2 date.2.1 ++
    "-" ++ padded 2 date.2.2

/-- The milliseconds since midnight as text. -/
def timeText (time : ℕ) : String :=
  padded 2 (time / 3600000) ++ ":" ++ padded 2 (time / 60000 % 60) ++ ":" ++
    padded 2 (time / 1000 % 60) ++ "." ++ padded 3 (time % 1000)

/-- `Date.prototype.toISOString`. -/
def toISOString (ms : IsoDateTime) : String :=
  dateText (civilOfDays (ms / 86400000)) ++ "T" ++ timeText (ms % 86400000) ++ "Z"

example : toISOString 1709210096007 = "2024-02-29T12:34:56.007Z" := by decide +kernel

/-- The milliseconds of the 400 years after which the calendar repeats. -/
def calendarPeriod : ℕ := 146097 * 86400000

/-- A year before 1970 as text. -/
def earlyYearText : ℤ → String
  | .ofNat year => padded 4 year
  | .negSucc n => "-" ++ padded 6 (n + 1)

/-- `Date.prototype.toISOString`, also for the times before 1970: the date is the one so many whole periods
later, but for the year. -/
def dateISOString : ℤ → String
  | .ofNat ms => toISOString ms
  | .negSucc n =>
    let periods := n / calendarPeriod + 1
    let ms := periods * calendarPeriod - (n + 1)
    let date := civilOfDays (ms / 86400000)
    earlyYearText (date.1 - 400 * periods) ++ "-" ++ padded 2 date.2.1 ++ "-" ++ padded 2 date.2.2 ++ "T" ++
      timeText (ms % 86400000) ++ "Z"

example : dateISOString (-1) = "1969-12-31T23:59:59.999Z" := by decide +kernel

example : dateISOString (-62198755200000) = "-000001-01-01T00:00:00.000Z" := by decide +kernel

/-! ## JSON -/

mutual
/-- What `JSON.stringify` writes for a value; nothing for `undefined` and functions. -/
def JsValue.toJson : JsValue → Option Json
  | .undefined | .function => none
  | .null => some .null
  | .bool b => some (.bool b)
  | .num q => some (.num q)
  | .str s => some (.str s)
  | .date ms => some (.str (dateISOString ms))
  | .error _ _ => some (.obj [])
  | .arr items => some (.arr (toJsonItems items))
  | .obj fields => some (.obj (toJsonFields fields))

/-- Items that cannot be written are `null`. -/
def toJsonItems : List JsValue → List Json
  | [] => []
  | v :: items => v.toJson.getD .null :: toJsonItems items

/-- Fields that cannot be written are left out. -/
def toJsonFields : List (String × JsValue) → List (String × Json)
  | [] => []
  | (k, v) :: fields =>
    match v.toJson with
    | none => toJsonFields fields
    | some j => (k, j) :: toJsonFields fields
end

mutual
/-- A JSON value, parsed. -/
def JsValue.ofJson : Json → JsValue
  | .null => .null
  | .bool b => .bool b
  | .num q => .num q
  | .str s => .str s
  | .arr items => .arr (ofJsonItems items)
  | .obj fields => .obj (ofJsonFields fields)

/-- `ofJson` for the items of an array. -/
def ofJsonItems : List Json → List JsValue
  | [] => []
  | v :: items => .ofJson v :: ofJsonItems items

/-- `ofJson` for the values of an object. -/
def ofJsonFields : List (String × Json) → List (String × JsValue)
  | [] => []
  | (k, v) :: fields => (k, .ofJson v) :: ofJsonFields fields
end

mutual
/-- No object in the value has a key twice. -/
def JsValue.distinct : JsValue → Bool
  | .arr items => distinctJsItems items
  | .obj fields => decide (keysOf fields).Nodup && distinctJsFields fields
  | _ => true

/-- `distinct` for the items of an array. -/
def distinctJsItems : List JsValue → Bool
  | [] => true
  | v :: items => v.distinct && distinctJsItems items

/-- `distinct` for the values of an object. -/
def distinctJsFields : List (String × JsValue) → Bool
  | [] => true
  | (_, v) :: fields => v.distinct && distinctJsFields fields
end

mutual
/-- The value has no dates, errors or functions in it. -/
def JsValue.plain : JsValue → Bool
  | .date _ | .error _ _ | .function => false
  | .arr items => plainItems items
  | .obj fields => plainFields fields
  | _ => true

/-- `plain` for the items of an array. -/
def plainItems : List JsValue → Bool
  | [] => true
  | v :: items => v.plain && plainItems items

/-- `plain` for the values of an object. -/
def plainFields : List (String × JsValue) → Bool
  | [] => true
  | (_, v) :: fields => v.plain && plainFields fields
end

theorem toJsonItems_eq (items : List JsValue) :
    toJsonItems items = items.map fun v => v.toJson.getD .null := by
  induction items with
  | nil => rfl
  | cons v items ih => rw [toJsonItems, ih, List.map_cons]

theorem toJsonFields_eq (fields : JsRecord) :
    toJsonFields fields = fields.filterMap fun f => f.2.toJson.map (Prod.mk f.1) := by
  induction fields with
  | nil => rfl
  | cons f fields ih =>
    obtain ⟨k, v⟩ := f
    rw [toJsonFields, List.filterMap_cons, ih]
    cases v.toJson <;> rfl

theorem js_distinct_arr {items : List JsValue} :
    (JsValue.arr items).distinct = true ↔ ∀ v ∈ items, v.distinct = true := by
  show distinctJsItems items = true ↔ _
  induction items with
  | nil => simp [distinctJsItems]
  | cons v items ih => rw [distinctJsItems, Bool.and_eq_true, ih, List.forall_mem_cons]

theorem js_distinct_obj {fields : JsRecord} :
    (JsValue.obj fields).distinct = true ↔
      (keysOf fields).Nodup ∧ ∀ f ∈ fields, f.2.distinct = true := by
  have hfields : distinctJsFields fields = true ↔ ∀ f ∈ fields, f.2.distinct = true := by
    induction fields with
    | nil => simp [distinctJsFields]
    | cons f fields ih => rw [distinctJsFields, Bool.and_eq_true, ih, List.forall_mem_cons]
  rw [JsValue.distinct, Bool.and_eq_true, decide_eq_true_eq, hfields]

theorem plain_arr {items : List JsValue} :
    (JsValue.arr items).plain = true ↔ ∀ v ∈ items, v.plain = true := by
  show plainItems items = true ↔ _
  induction items with
  | nil => simp [plainItems]
  | cons v items ih => rw [plainItems, Bool.and_eq_true, ih, List.forall_mem_cons]

theorem plain_obj {fields : JsRecord} :
    (JsValue.obj fields).plain = true ↔ ∀ f ∈ fields, f.2.plain = true := by
  show plainFields fields = true ↔ _
  induction fields with
  | nil => simp [plainFields]
  | cons f fields ih => rw [plainFields, Bool.and_eq_true, ih, List.forall_mem_cons]

@[simp]
theorem plain_str (s : String) : (JsValue.str s).plain = true := rfl

@[simp]
theorem plain_bool (b : Bool) : (JsValue.bool b).plain = true := rfl

@[simp]
theorem plain_num (q : ℚ) : (JsValue.num q).plain = true := rfl

@[simp]
theorem distinct_str (s : String) : (JsValue.str s).distinct = true := rfl

@[simp]
theorem distinct_bool (b : Bool) : (JsValue.bool b).distinct = true := rfl

@[simp]
theorem distinct_num (q : ℚ) : (JsValue.num q).distinct = true := rfl

/-- The keys that are written are keys of the value. -/
theorem keysOf_toJsonFields (fields : JsRecord) : (keysOf (toJsonFields fields)).Sublist (keysOf fields) := by
  induction fields with
  | nil => exact List.Sublist.refl _
  | cons f fields ih =>
    obtain ⟨k, v⟩ := f
    rw [toJsonFields]
    cases v.toJson with
    | none => exact ih.cons k
    | some j => exact ih.cons_cons k

theorem mem_toJsonFields {fields : JsRecord} {f : String × Json} :
    f ∈ toJsonFields fields ↔ ∃ v, (f.1, v) ∈ fields ∧ v.toJson = some f.2 := by
  rw [toJsonFields_eq, List.mem_filterMap]
  constructor
  · rintro ⟨⟨k, v⟩, hmem, h⟩
    obtain ⟨j, hj, rfl⟩ := Option.map_eq_some_iff.mp h
    exact ⟨v, hmem, hj⟩
  · rintro ⟨v, hmem, h⟩
    exact ⟨(f.1, v), hmem, by rw [h]; rfl⟩

/-- Writing keeps keys different. -/
theorem distinct_toJson {v : JsValue} (hv : v.distinct = true) :
    ∀ j, v.toJson = some j → j.distinct = true := by
  induction v using JsValue.members_induction with
  | leaf v hleaf =>
    intro j hj
    cases v <;> cases hj <;> first | rfl | cases hleaf
  | arr items ih =>
    rintro j ⟨⟩
    rw [distinct_arr, toJsonItems_eq]
    intro j hj
    obtain ⟨v, hmem, rfl⟩ := List.mem_map.mp hj
    cases hjson : v.toJson with
    | none => rfl
    | some j => exact ih v hmem (js_distinct_arr.mp hv v hmem) j hjson
  | obj fields ih =>
    rintro j ⟨⟩
    obtain ⟨hkeys, hfields⟩ := js_distinct_obj.mp hv
    refine distinct_obj.mpr ⟨(keysOf_toJsonFields fields).nodup hkeys, fun f hf => ?_⟩
    obtain ⟨v, hmem, hjson⟩ := mem_toJsonFields.mp hf
    exact ih _ hmem (hfields _ hmem) f.2 hjson

/-! ## Parsed values -/

theorem ofJsonItems_eq (items : List Json) : ofJsonItems items = items.map JsValue.ofJson := by
  induction items with
  | nil => rfl
  | cons v items ih => rw [ofJsonItems, ih, List.map_cons]

theorem ofJsonFields_eq (fields : List (String × Json)) :
    ofJsonFields fields = fields.map fun f => (f.1, JsValue.ofJson f.2) := by
  induction fields with
  | nil => rfl
  | cons f fields ih => rw [ofJsonFields, ih, List.map_cons]

/-- A parsed value is written as what it was parsed from. -/
theorem toJson_ofJson (j : Json) : (JsValue.ofJson j).toJson = some j := by
  induction j using Json.members_induction with
  | leaf j hleaf => cases j <;> first | rfl | cases hleaf
  | arr items ih =>
    have hitems : toJsonItems (ofJsonItems items) = items := by
      rw [toJsonItems_eq, ofJsonItems_eq, List.map_map]
      refine (List.map_congr_left fun v hmem => ?_).trans (List.map_id _)
      simp [ih v hmem]
    rw [JsValue.ofJson, JsValue.toJson, hitems]
  | obj fields ih =>
    have hfields : toJsonFields (ofJsonFields fields) = fields := by
      rw [toJsonFields_eq, ofJsonFields_eq, List.filterMap_map]
      refine (List.filterMap_congr fun f hmem => ?_).trans (List.filterMap_some)
      simp [ih f hmem]
    rw [JsValue.ofJson, JsValue.toJson, hfields]

theorem plain_ofJson (j : Json) : (JsValue.ofJson j).plain = true := by
  induction j using Json.members_induction with
  | leaf j hleaf => cases j <;> first | rfl | cases hleaf
  | arr items ih =>
    rw [JsValue.ofJson, plain_arr, ofJsonItems_eq]
    simpa using ih
  | obj fields ih =>
    rw [JsValue.ofJson, plain_obj, ofJsonFields_eq]
    intro f hf
    obtain ⟨g, hmem, rfl⟩ := List.mem_map.mp hf
    exact ih g hmem

theorem distinct_ofJson {j : Json} (hj : j.distinct = true) : (JsValue.ofJson j).distinct = true := by
  induction j using Json.members_induction with
  | leaf j hleaf => cases j <;> first | rfl | cases hleaf
  | arr items ih =>
    rw [JsValue.ofJson, js_distinct_arr, ofJsonItems_eq]
    intro v hv
    obtain ⟨j, hmem, rfl⟩ := List.mem_map.mp hv
    exact ih j hmem (distinct_arr.mp hj j hmem)
  | obj fields ih =>
    obtain ⟨hkeys, hfields⟩ := distinct_obj.mp hj
    rw [JsValue.ofJson, js_distinct_obj, ofJsonFields_eq]
    constructor
    · rwa [keysOf, List.map_map]
    · intro f hf
      obtain ⟨g, hmem, rfl⟩ := List.mem_map.mp hf
      exact ih g hmem (hfields g hmem)

end MontrSecure
