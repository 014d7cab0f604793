import MontrSecure.Audit.Appending
import MontrSecure.Audit.Export

/-!
# The log stays verifiable

What is hashed at an append, what is read back from the table, and what the verifier gets out of an
export are three forms of one event. They are hashed alike: `Recovered` is the relation that each
step of the way keeps.
-/

namespace MontrSecure

open Async

variable {sha256 : String → String} {fmt : NumberFormat}

/-! ## Forms of one event -/

/-- Another form of an event, with the same hash. -/
structure AuditEvent.Recovered (e e' : AuditEvent) : Prop where
  clean : e.Clean
  clean' : e'.Clean
  covered : e.Covered e'
  hash : e.hash = e'.hash

theorem AuditEvent.Recovered.columns {e e' : AuditEvent} (h : e.Recovered e') :
    e.clientId = e'.clientId ∧ e.sequence = e'.sequence ∧ e.prevHash = e'.prevHash := by
  have hfields := AuditEvent.mk.inj h.covered.1
  obtain ⟨-, hclient, hsequence, -, -, -, -, -, -, -, hprev, -⟩ := hfields
  exact ⟨hclient, hsequence, hprev⟩

/-- The hash of an event does not depend on its form. -/
theorem AuditEvent.Recovered.hashed {e e' : AuditEvent} (h : e.Recovered e') (prevHash : String) :
    hashAuditEvent sha256 fmt e prevHash = hashAuditEvent sha256 fmt e' prevHash := by
  have hcanonical : canonicalJson fmt (auditHashPayload e) = canonicalJson fmt (auditHashPayload e') :=
    (canonicalJson_payload_eq_iff h.clean h.clean').mpr h.covered
  rw [hashAuditEvent, computeAuditHash, hcanonical]
  rfl

/-- Nor does whether events are a chain. -/
theorem Chained.recovered {prevHash : String} {n : ℕ} {es es' : List AuditEvent}
    (h : Chained sha256 fmt prevHash n es) (hes : List.Forall₂ AuditEvent.Recovered es es') :
    Chained sha256 fmt prevHash n es' := by
  induction hes generalizing prevHash n with
  | nil => trivial
  | @cons e e' es es' he hes ih =>
    obtain ⟨⟨hsequence, hprev, hhash⟩, htail⟩ := h
    obtain ⟨-, hsame, hsamePrev⟩ := he.columns
    refine ⟨⟨hsame ▸ hsequence, hsamePrev ▸ hprev, ?_⟩, ?_⟩
    · rw [← he.hashed, hhash, he.hash]
    · rw [← he.hash]
      exact ih htail

/-- The forms of events of one client are of that client. -/
theorem clientId_of_recovered {clientId : ClientId} {es es' : List AuditEvent}
    (h : List.Forall₂ AuditEvent.Recovered es es') (hes : ∀ e ∈ es, e.clientId = clientId) :
    ∀ e ∈ es', e.clientId = clientId := by
  induction h with
  | nil => exact fun _ he => nomatch he
  | cons he _ ih =>
    obtain ⟨hhead, htail⟩ := List.forall_mem_cons.mp hes
    exact List.forall_mem_cons.mpr ⟨he.columns.1.symm.trans hhead, ih htail⟩

/-! ## Reading the table -/

theorem clean_of_json {e : AuditEvent} {fields : List (String × Json)}
    (hmetadata : e.metadata = ofJsonFields fields) (hdistinct : (Json.obj fields).distinct = true) :
    e.Clean := by
  unfold AuditEvent.Clean
  rw [hmetadata]
  exact ⟨plain_ofJson (.obj fields), distinct_ofJson hdistinct⟩

/-- A JSON object is read back as one. -/
theorem exists_obj_of_same {v : Json} {fields : List (String × Json)} (h : v.Same (.obj fields)) :
    ∃ fields', v = .obj fields' := by
  cases v with
  | obj fields' => exact ⟨fields', rfl⟩
  | _ => cases h

/-- What the columns of a row are read back as. -/
theorem recovered_of_readAs {row row' : AuditEventRow} (hstored : row.Stored) (h : row.ReadAs row') :
    row'.Stored ∧ (rowToEvent row).Recovered (rowToEvent row') := by
  obtain ⟨fields, hfields, hdistinct⟩ := hstored.metadata
  have hsame := h.metadata
  rw [hfields] at hsame
  obtain ⟨fields', hfields'⟩ := exists_obj_of_same hsame
  have hdistinct' := h.distinct
  obtain ⟨id, client, sequence, scan, actorType, actorId, role, action, targetType, target, summary,
    metadata, prev, hash, now⟩ := row
  obtain ⟨id', client', sequence', scan', actorType', actorId', role', action', targetType', target',
    summary', metadata', prev', hash', now'⟩ := row'
  have hcolumns := h.columns
  rw [AuditEventRow.mk.injEq] at hcolumns
  obtain ⟨rfl, rfl, rfl, rfl, rfl, rfl, rfl, rfl, rfl, rfl, rfl, -, rfl, rfl, rfl⟩ := hcolumns
  dsimp only at hfields hfields' hdistinct hdistinct'
  subst hfields hfields'
  refine ⟨⟨hstored.ids, hstored.action, hstored.now, fields', rfl, hdistinct'⟩, ?_⟩
  refine ⟨clean_of_json rfl hdistinct, clean_of_json rfl hdistinct', ⟨rfl, ?_⟩, rfl⟩
  show (Json.obj (toJsonFields (ofJsonFields fields))).ordered notProto =
    (Json.obj (toJsonFields (ofJsonFields fields'))).ordered notProto
  rw [toJsonFields_ofJsonFields, toJsonFields_ofJsonFields]
  exact (hsame.ordered hdistinct' hdistinct).symm

/-! ## Reading an export -/

/-- The fields of an object, as they are enumerated. -/
def ownObject (fields : List (String × Json)) : List (String × Json) :=
  (ownFields fields).insertionSort fun f g => enumLe f g

theorem own_obj (fields : List (String × Json)) : (Json.obj fields).own = .obj (ownObject fields) := by
  rw [Json.own, ownObject]

theorem mem_ownObject {fields : List (String × Json)} {k : String} {x : Json} :
    (k, x) ∈ ownObject fields ↔ ∃ j, (k, j) ∈ fields ∧ j.own = x := by
  rw [ownObject, List.mem_insertionSort, ownFields_eq, List.mem_map]
  constructor
  · rintro ⟨f, hf, h⟩
    cases h
    exact ⟨f.2, hf, rfl⟩
  · rintro ⟨j, hj, rfl⟩
    exact ⟨(k, j), hj, rfl⟩

theorem nodup_ownObject {fields : List (String × Json)} (h : (keysOf fields).Nodup) :
    (keysOf (ownObject fields)).Nodup := by
  have hperm : (keysOf (ownObject fields)).Perm (keysOf (ownFields fields)) :=
    (List.perm_insertionSort _ _).map _
  rw [hperm.nodup_iff, ownFields_eq, keysOf, List.map_map]
  exact h

/-- With different keys a value is found under its key. -/
theorem field?_eq_some_iff {fields : List (String × Json)} (h : (keysOf fields).Nodup) {k : String}
    {x : Json} : field? k fields = some x ↔ (k, x) ∈ fields := by
  rw [field?, Option.map_eq_some_iff]
  constructor
  · rintro ⟨f, hf, rfl⟩
    have hk : f.1 = k := by simpa using List.find?_some hf
    exact hk ▸ List.mem_of_find?_eq_some hf
  · intro hmem
    cases hfind : fields.find? (fun f => f.1 = k) with
    | none => exact absurd (List.find?_eq_none.mp hfind (k, x) hmem) (by simp)
    | some f =>
      have hk : f.1 = k := by simpa using List.find?_some hfind
      refine ⟨f, rfl, eq_of_mem_of_nodup h ?_ hmem⟩
      exact hk ▸ List.mem_of_find?_eq_some hfind

/-- What a field of an object is after it was written and parsed. -/
theorem field?_own {fields : JsRecord} (hkeys : (keysOf fields).Nodup) {k : String} {v : JsValue}
    (hv : (k, v) ∈ fields) :
    field? k (ownObject (toJsonFields fields)) = v.toJson.map Json.own := by
  have hnodup := nodup_ownObject ((keysOf_toJsonFields fields).nodup hkeys)
  ext x
  rw [field?_eq_some_iff hnodup, mem_ownObject, Option.map_eq_some_iff]
  constructor
  · rintro ⟨j, hj, rfl⟩
    obtain ⟨w, hw, hjson⟩ := mem_toJsonFields.mp hj
    exact ⟨j, by rw [eq_of_mem_of_nodup hkeys hv hw, hjson], rfl⟩
  · rintro ⟨j, hj, rfl⟩
    exact ⟨j, mem_toJsonFields.mpr ⟨v, hv, hj⟩, rfl⟩

theorem requiredField_own {α : Type} {parse : Json → Option α} {fields : JsRecord}
    (hkeys : (keysOf fields).Nodup) {k : String} {v : JsValue} (hv : (k, v) ∈ fields) :
    requiredField parse k (ownObject (toJsonFields fields)) = (v.toJson.map Json.own).bind parse := by
  rw [requiredField, field?_own hkeys hv]

theorem optionalField_own {α : Type} {parse : Json → Option α} {fields : JsRecord}
    (hkeys : (keysOf fields).Nodup) {k : String} {s : Option String}
    (hv : (k, .ofString? s) ∈ fields) {a : Option α}
    (h : s.map (fun s => parse (.str s)) = a.map some) :
    optionalField parse k (ownObject (toJsonFields fields)) = some a := by
  rw [optionalField, field?_own hkeys hv]
  cases s <;> cases a <;> simp_all [JsValue.ofString?, JsValue.toJson, Json.own]

/-- The fields of an exported event. -/
def AuditEvent.exported (e : AuditEvent) : JsRecord :=
  match e.object with
  | .obj fields => fields
  | _ => []

theorem AuditEvent.nodup_exported (e : AuditEvent) : (keysOf e.exported).Nodup := by
  have hkeys : keysOf e.exported = ["id", "clientId", "sequence", "scanId", "actor", "action",
      "targetType", "targetId", "summary", "metadata", "prevHash", "hash", "at"] := rfl
  rw [hkeys]
  decide

theorem actorType?_name (t : ActorType) : actorType? (.str t.name) = some t := by
  cases t <;> rfl

theorem role?_name (r : Role) : role? (.str r.name) = some r := by
  cases r <;> rfl

theorem id?_str {s : String} (h : s ≠ "") : id? (.str s) = some s := by
  simp [id?, string?, h]

theorem positive?_succ (n : ℕ) : positive? (.num ((n + 1 : ℕ) : ℚ)) = some (n + 1) := by
  rw [positive?, if_pos ⟨Rat.den_natCast _, by rw [Rat.num_natCast]; omega⟩, Rat.num_natCast]
  rfl

/-- An actor is parsed as what it was. -/
theorem auditActor?_own {actor : AuditActor} (h : actor.id ≠ "") :
    auditActor? (.obj (ownObject (toJsonFields actor.fields))) = some actor := by
  have hkeys := actor.nodup_fields
  have htype : requiredField actorType? "type" (ownObject (toJsonFields actor.fields)) =
      some actor.type := by
    rw [requiredField_own (v := .str actor.type.name) hkeys (by simp [AuditActor.fields])]
    exact actorType?_name _
  have hid : requiredField id? "id" (ownObject (toJsonFields actor.fields)) = some actor.id := by
    rw [requiredField_own (v := .str actor.id) hkeys (by simp [AuditActor.fields])]
    exact id?_str h
  have hrole : optionalField role? "role" (ownObject (toJsonFields actor.fields)) =
      some actor.role := by
    refine optionalField_own (s := actor.role.map Role.name) hkeys (by simp [AuditActor.fields]) ?_
    cases actor.role with
    | none => rfl
    | some r => exact congrArg some (role?_name r)
  rw [auditActor?, htype, hid, hrole]
  rfl

/-- Optional strings that a schema accepts. -/
theorem optionalField_strings {parse : Json → Option String} {fields : JsRecord}
    (hkeys : (keysOf fields).Nodup) {k : String} {s : Option String} (hv : (k, .ofString? s) ∈ fields)
    (h : ∀ x, s = some x → parse (.str x) = some x) :
    optionalField parse k (ownObject (toJsonFields fields)) = some s := by
  refine optionalField_own hkeys hv ?_
  cases s with
  | none => rfl
  | some x => exact congrArg some (h x rfl)

/-- Metadata without `__proto__`, as a schema leaves them. -/
theorem ordered_assigned (fields : List (String × Json)) :
    (Json.obj (toJsonFields (assigned (ofJsonFields fields)))).ordered notProto =
      (Json.obj fields).ordered notProto := by
  have hassigned : toJsonFields (assigned (ofJsonFields fields)) =
      fields.filter fun f => notProto f.1 := by
    rw [assigned, ofJsonFields_eq, List.filter_map, ← ofJsonFields_eq, toJsonFields_ofJsonFields]
    rfl
  rw [hassigned, Json.ordered, Json.ordered, orderedFields_eq, orderedFields_eq, List.filter_filter]
  simp only [Bool.and_self]

variable {isDateTime : String → Bool}

/-- What the schema accepts of an event with JSON metadata. -/
structure AuditEvent.Valid (isDateTime : String → Bool) (e : AuditEvent) : Prop where
  ids : e.id ≠ "" ∧ e.clientId ≠ "" ∧ e.scanId ≠ some "" ∧ e.actor.id ≠ "" ∧ e.targetId ≠ some ""
  sequence : e.sequence ≠ 0
  action : e.action ∈ auditActions
  date : isDateTime e.at_ = true
  metadata : ∃ fields, e.metadata = ofJsonFields fields ∧ (Json.obj fields).distinct = true

/-- The metadata of an event, once they are written and parsed. -/
theorem optionalField_metadata {e : AuditEvent} {fields : List (String × Json)}
    (h : e.metadata = ofJsonFields fields) :
    optionalField record? "metadata" (ownObject (toJsonFields e.exported)) =
      some (some (assigned (ofJsonFields (ownObject fields)))) := by
  rw [optionalField, field?_own (v := .obj e.metadata) e.nodup_exported
    (by simp [AuditEvent.exported, AuditEvent.object]), JsValue.toJson, h, toJsonFields_ofJsonFields,
    Option.map_some, own_obj]
  rfl

/-- An exported event is accepted, and recovered. -/
theorem auditEvent?_own {e : AuditEvent} (h : e.Valid isDateTime) :
    ∃ e', auditEvent? isDateTime (.obj (ownObject (toJsonFields e.exported))) = some e' ∧
      e.Recovered e' := by
  obtain ⟨hid, hclient, hscan, hactor, htarget⟩ := h.ids
  obtain ⟨fields, hfields, hdistinct⟩ := h.metadata
  have hkeys := e.nodup_exported
  have hstring : ∀ {parse : Json → Option String} {k s}, (k, JsValue.str s) ∈ e.exported →
      parse (.str s) = some s →
        requiredField parse k (ownObject (toJsonFields e.exported)) = some s := by
    intro parse k s hmem hparse
    rw [requiredField_own hkeys hmem]
    exact hparse
  have hids : ∀ {s : Option String}, s ≠ some "" → ∀ x, s = some x → id? (.str x) = some x := by
    rintro s hs x rfl
    exact id?_str fun hx => hs (by rw [hx])
  have hactorField : requiredField auditActor? "actor" (ownObject (toJsonFields e.exported)) =
      some e.actor := by
    rw [requiredField_own (v := .obj e.actor.fields) hkeys (by simp [AuditEvent.exported, AuditEvent.object]),
      JsValue.toJson, Option.map_some, own_obj, Option.bind_some, auditActor?_own hactor]
  have hsequence : requiredField positive? "sequence" (ownObject (toJsonFields e.exported)) =
      some e.sequence := by
    obtain ⟨n, hn⟩ := Nat.exists_eq_succ_of_ne_zero h.sequence
    rw [requiredField_own (v := .num e.sequence) hkeys (by simp [AuditEvent.exported, AuditEvent.object]), hn]
    exact positive?_succ n
  refine ⟨{ e with metadata := assigned (ofJsonFields (ownObject fields)) }, ?_, ?_⟩
  · rw [auditEvent?, hstring (s := e.id) (by simp [AuditEvent.exported, AuditEvent.object]) (id?_str hid),
      hstring (s := e.clientId) (by simp [AuditEvent.exported, AuditEvent.object]) (id?_str hclient),
      hsequence,
      optionalField_strings (s := e.scanId) hkeys (by simp [AuditEvent.exported, AuditEvent.object])
        (hids hscan),
      hactorField,
      hstring (s := e.action) (by simp [AuditEvent.exported, AuditEvent.object])
        (by simpa [action?, string?] using h.action),
      optionalField_strings (s := e.targetType) hkeys (by simp [AuditEvent.exported, AuditEvent.object])
        (fun x _ => rfl),
      optionalField_strings (s := e.targetId) hkeys (by simp [AuditEvent.exported, AuditEvent.object])
        (hids htarget),
      hstring (s := e.summary) (by simp [AuditEvent.exported, AuditEvent.object]) rfl,
      optionalField_metadata hfields,
      hstring (s := e.prevHash) (by simp [AuditEvent.exported, AuditEvent.object]) rfl,
      hstring (s := e.hash) (by simp [AuditEvent.exported, AuditEvent.object]) rfl,
      hstring (s := e.at_) (by simp [AuditEvent.exported, AuditEvent.object])
        (by simp [string?, h.date])]
    rfl
  · have hown : (Json.obj (ownObject fields)).distinct = true := by
      rw [← own_obj]
      exact distinct_own hdistinct
    have hclean' : (JsValue.obj (assigned (ofJsonFields (ownObject fields)))).plain = true ∧
        (JsValue.obj (assigned (ofJsonFields (ownObject fields)))).distinct = true := by
      have hplain := plain_ofJson (.obj (ownObject fields))
      have hdistinct' := distinct_ofJson hown
      rw [JsValue.ofJson] at hplain hdistinct'
      rw [plain_obj] at hplain ⊢
      rw [js_distinct_obj] at hdistinct' ⊢
      exact ⟨fun f hf => hplain f (mem_assigned.mp hf).1,
        (keysOf_assigned _).nodup hdistinct'.1, fun f hf => hdistinct'.2 f (mem_assigned.mp hf).1⟩
    refine ⟨clean_of_json hfields hdistinct, hclean', ⟨rfl, ?_⟩, rfl⟩
    show (Json.obj (toJsonFields e.metadata)).ordered notProto =
      (Json.obj (toJsonFields (assigned (ofJsonFields (ownObject fields))))).ordered notProto
    rw [hfields, toJsonFields_ofJsonFields, ordered_assigned, ← own_obj, ordered_own hdistinct]

/-- A list of events is accepted when every event is. -/
theorem mapM_auditEvent? {es : List AuditEvent} (h : ∀ e ∈ es, e.Valid isDateTime) :
    ∃ es', (es.map fun e => Json.obj (ownObject (toJsonFields e.exported))).mapM
      (auditEvent? isDateTime) = some es' ∧ List.Forall₂ AuditEvent.Recovered es es' := by
  induction es with
  | nil => exact ⟨[], rfl, .nil⟩
  | cons e es ih =>
    obtain ⟨he, hes⟩ := List.forall_mem_cons.mp h
    obtain ⟨e', hparse, hrecovered⟩ := auditEvent?_own he
    obtain ⟨es', hparses, hall⟩ := ih hes
    refine ⟨e' :: es', ?_, .cons hrecovered hall⟩
    rw [List.map_cons, List.mapM_cons, hparse, hparses]
    rfl

/-- The fields of an export. -/
def exportFields (sha256 : String → String) (fmt : NumberFormat) (clientId : ClientId)
    (exportedAt : IsoDateTime) (events : List AuditEvent) : JsRecord :=
  let verification := verifyChainRecords sha256 fmt events
  [("clientId", .str clientId), ("exportedAt", .str (toISOString exportedAt)),
    ("count", .num events.length), ("chainVerified", .bool verification.ok)] ++
  (if verification.ok then []
    else [("chainBrokenAt", (verification.brokenAt.map fun n : ℕ => JsValue.num n).getD .undefined)]) ++
  [("events", .arr (events.map AuditEvent.object))]

theorem exportJson_eq (clientId : ClientId) (exportedAt : IsoDateTime) (events : List AuditEvent) :
    exportJson sha256 fmt clientId exportedAt events =
      stringify fmt [' ', ' '] (.obj (toJsonFields (exportFields sha256 fmt clientId exportedAt events))) :=
  rfl

theorem distinct_object {e : AuditEvent} (h : e.Clean) : e.object.distinct = true := by
  have hactor : (JsValue.obj e.actor.fields).distinct = true := by
    rw [js_distinct_obj]
    refine ⟨e.actor.nodup_fields, ?_⟩
    simp [AuditActor.fields]
  rw [AuditEvent.object, js_distinct_obj]
  refine ⟨e.nodup_exported, ?_⟩
  simp [hactor, h.2]

theorem nodup_exportFields (clientId : ClientId) (exportedAt : IsoDateTime) (events : List AuditEvent) :
    (keysOf (exportFields sha256 fmt clientId exportedAt events)).Nodup := by
  unfold exportFields
  dsimp only
  split
  · exact (by decide : ["clientId", "exportedAt", "count", "chainVerified", "events"].Nodup)
  · exact (by decide :
      ["clientId", "exportedAt", "count", "chainVerified", "chainBrokenAt", "events"].Nodup)

variable (sha256 fmt) in
theorem distinct_exportFields {events : List AuditEvent} (h : ∀ e ∈ events, e.Clean)
    (clientId : ClientId) (exportedAt : IsoDateTime) :
    (JsValue.obj (exportFields sha256 fmt clientId exportedAt events)).distinct = true := by
  refine js_distinct_obj.mpr ⟨nodup_exportFields _ _ _, ?_⟩
  have hevents : (JsValue.arr (events.map AuditEvent.object)).distinct = true := by
    rw [js_distinct_arr]
    intro v hv
    obtain ⟨e, he, rfl⟩ := List.mem_map.mp hv
    exact distinct_object (h e he)
  have hbroken : ∀ n : Option ℕ, ((n.map fun n : ℕ => JsValue.num n).getD .undefined).distinct = true := by
    intro n
    cases n <;> rfl
  unfold exportFields
  dsimp only
  split <;> simp [hevents, hbroken]

/-- The verifier gets the events of an export back. -/
theorem parseAuditExport_exportJson (reader : NumberReader fmt) {events : List AuditEvent}
    (h : ∀ e ∈ events, e.Valid isDateTime) (clientId : ClientId) (exportedAt : IsoDateTime) :
    ∃ events', parseAuditExport fmt reader isDateTime
        (exportJson sha256 fmt clientId exportedAt events) = .ok events' ∧
      List.Forall₂ AuditEvent.Recovered events events' := by
  obtain ⟨events', hparse, hrecovered⟩ := mapM_auditEvent? h
  refine ⟨events', ?_, hrecovered⟩
  have hclean : ∀ e ∈ events, e.Clean := by
    intro e he
    obtain ⟨fields, hfields, hdistinct⟩ := (h e he).metadata
    exact clean_of_json hfields hdistinct
  have hblank : Blank [' ', ' '] := by
    intro c hc
    simp only [List.mem_cons, List.not_mem_nil, or_false, or_self] at hc
    rw [hc]
    rfl
  have hdistinct := distinct_exportFields sha256 fmt hclean clientId exportedAt
  have htext : parseJson reader (stringify fmt [' ', ' '] _) = _ :=
    parseJson_stringify hblank (distinct_toJson hdistinct _ rfl)
  have hfield : field? "events" (ownObject (toJsonFields
      (exportFields sha256 fmt clientId exportedAt events))) =
      some (.arr (events.map fun e => Json.obj (ownObject (toJsonFields e.exported)))) := by
    rw [field?_own (v := .arr (events.map AuditEvent.object)) (nodup_exportFields _ _ _)
      (by simp [exportFields]), JsValue.toJson, Option.map_some, Json.own, toJsonItems_eq, ownItems_eq,
      List.map_map, List.map_map]
    refine congrArg (fun items => some (Json.arr items)) (List.map_congr_left fun e _ => ?_)
    exact own_obj (toJsonFields e.exported)
  have hraw : rawEvents (.obj (ownObject (toJsonFields
      (exportFields sha256 fmt clientId exportedAt events)))) =
      .ok (.arr (events.map fun e => Json.obj (ownObject (toJsonFields e.exported)))) := by
    rw [rawEvents, hfield]
  rw [parseAuditExport, exportJson_eq, htext, own_obj]
  dsimp only
  rw [hraw, Except.bind, validEvents, hparse]

/-! ## The verifier -/

/-- Events of a chain stand in the order of their numbers. -/
theorem Chained.sorted {es : List AuditEvent} {prevHash : String} {n : ℕ}
    (h : Chained sha256 fmt prevHash n es) :
    es.insertionSort (fun a b => a.sequence ≤ b.sequence) = es := by
  have hpairwise : es.Pairwise fun a b => a.sequence < b.sequence := by
    rw [← List.pairwise_map (f := AuditEvent.sequence) (R := (· < ·)), h.sequences]
    exact List.pairwise_lt_range'
  exact (hpairwise.imp le_of_lt).insertionSort_eq

/-- The verifier accepts the chain of one client. -/
theorem verifyAuditEvents_ok {localeLe : String → String → Bool} {es : List AuditEvent}
    {clientId : ClientId} (h : Chained sha256 fmt "" 1 es) (hclient : ∀ e ∈ es, e.clientId = clientId) :
    (verifyAuditEvents sha256 fmt localeLe es).ok = true := by
  have hall : es.filter (fun e => (none : Option ClientId).all (e.clientId = ·)) = es :=
    List.filter_eq_self.mpr fun _ _ => rfl
  have hgroups : ∀ group ∈ KeyGroup.group AuditEvent.clientId es, group.items = es := by
    intro group hgroup
    have hitems := KeyGroup.items_of_mem_group hgroup
    have hhead := group.head_mem
    rw [hitems, List.mem_filter] at hhead
    have hkey : group.key = clientId := (of_decide_eq_true hhead.2).symm.trans (hclient _ hhead.1)
    rw [hitems, hkey]
    exact List.filter_eq_self.mpr fun e he => decide_eq_true (hclient e he)
  have hresults : ((KeyGroup.group AuditEvent.clientId es).map (verifyClient sha256 fmt)).all (·.ok) =
      true := by
    rw [List.all_map, List.all_eq_true]
    intro group hgroup
    show (verifyChainRecords sha256 fmt (group.items.insertionSort _)).ok = true
    rw [hgroups group hgroup, h.sorted]
    exact verifyChainRecords_ok_iff.mpr h
  show (((KeyGroup.group AuditEvent.clientId (es.filter _)).map _).all _ && true) = true
  rw [Bool.and_true]
  exact hall.symm ▸ hresults

/-! ## Every state of the log -/

/-- What rows are read back as. -/
theorem recovered_of_rows {rows rows' : List AuditEventRow} (hstored : ∀ row ∈ rows, row.Stored)
    (h : List.Forall₂ AuditEventRow.ReadAs rows rows') :
    (∀ row ∈ rows', row.Stored) ∧
      List.Forall₂ AuditEvent.Recovered (rows.map rowToEvent) (rows'.map rowToEvent) := by
  induction h with
  | nil => exact ⟨fun _ h => (nomatch h), .nil⟩
  | cons hrow _ ih =>
    obtain ⟨hstoredRow, hstoredRows⟩ := List.forall_mem_cons.mp hstored
    obtain ⟨hread, hrecovered⟩ := recovered_of_readAs hstoredRow hrow
    obtain ⟨hreads, hrest⟩ := ih hstoredRows
    exact ⟨List.forall_mem_cons.mpr ⟨hread, hreads⟩, .cons hrecovered hrest⟩

theorem valid_rowToEvent (hdate : ∀ ms < 253402300800000, isDateTime (toISOString ms) = true)
    {row : AuditEventRow} (h : row.Stored) (hsequence : row.sequence ≠ 0) :
    (rowToEvent row).Valid isDateTime := by
  obtain ⟨fields, hfields, hdistinct⟩ := h.metadata
  refine ⟨h.ids, hsequence, h.action, hdate _ h.now, fields, ?_, hfields ▸ hdistinct⟩
  show (JsValue.ofJson row.metadata).record = _
  rw [hfields]
  rfl

/-- Whatever appends are running, the events of a client are numbered from 1 on without gaps, they are
a chain, and what is exported of them is verified. -/
theorem auditLog_verifiable (sha256 : String → String) (fmt : NumberFormat) (reader : NumberReader fmt)
    (isDateTime : String → Bool) (localeLe : String → String → Bool)
    (hdate : ∀ ms < 253402300800000, isDateTime (toISOString ms) = true)
    (m : AuditMemory) (cfg : AuditConfig) (hreach : AuditReaches sha256 fmt m cfg)
    (clientId : ClientId) :
    (cfg.world.findChain clientId).map AuditEventRow.sequence =
        List.range' 1 (cfg.world.findChain clientId).length ∧
      ∀ events, cfg.world.FullChain clientId events →
        verifyChain sha256 fmt events = true ∧
          ∀ exportedAt, ∃ report,
            verifyAuditExport sha256 fmt reader isDateTime localeLe
              (exportJson sha256 fmt clientId exportedAt events) = .ok report ∧
            report.ok = true := by
  have hsound := hreach.sound
  have hchain := hsound.chain clientId
  refine ⟨?_, fun events hread => ?_⟩
  · rw [findChain_eq hchain]
    exact sequences_ofClient hchain
  · obtain ⟨rows, hrows, rfl⟩ := hread
    rw [findChain_eq hchain] at hrows
    obtain ⟨hstored, hrecovered⟩ := recovered_of_rows
      (fun row hrow => hsound.stored row (List.mem_of_mem_filter hrow)) hrows
    have hread : Chained sha256 fmt "" 1 (rows.map rowToEvent) := hchain.recovered hrecovered
    refine ⟨verifyChainRecords_ok_iff.mpr hread, fun exportedAt => ?_⟩
    have hnumbers : ∀ row ∈ rows, row.sequence ≠ 0 := by
      intro row hrow
      have hmem : row.sequence ∈ (rows.map rowToEvent).map AuditEvent.sequence :=
        List.mem_map_of_mem (List.mem_map_of_mem hrow)
      rw [hread.sequences, List.mem_range'_1] at hmem
      omega
    have hvalid : ∀ e ∈ rows.map rowToEvent, e.Valid isDateTime := by
      intro e he
      obtain ⟨row, hrow, rfl⟩ := List.mem_map.mp he
      exact valid_rowToEvent hdate (hstored row hrow) (hnumbers row hrow)
    obtain ⟨events, hparse, hforms⟩ := parseAuditExport_exportJson reader hvalid clientId exportedAt
    have hclient : ∀ e ∈ cfg.world.events clientId, e.clientId = clientId := by
      intro e he
      obtain ⟨row, hrow, rfl⟩ := List.mem_map.mp he
      exact of_decide_eq_true (List.mem_filter.mp hrow).2
    refine ⟨verifyAuditEvents sha256 fmt localeLe events, ?_, verifyAuditEvents_ok
      (hread.recovered hforms) (clientId_of_recovered hforms (clientId_of_recovered hrecovered hclient))⟩
    rw [verifyAuditExport, hparse]
    rfl

/-! ## A run -/

/-- A digest for demonstrations. -/
def lengthDigest (s : String) : String := toString s.toList.length

/-- Date-times in UTC. -/
def endsInZ (s : String) : Bool := decide (s.toList.getLast? = some 'Z')

theorem endsInZ_append (front : String) : endsInZ (front ++ "Z") = true := by
  rw [endsInZ, String.toList_append, decide_eq_true_eq]
  exact List.getLast?_concat

theorem endsInZ_toISOString (ms : IsoDateTime) : endsInZ (toISOString ms) = true := endsInZ_append _

/-- An append for a client. -/
def demoAppend (summary : String) : AuditLogInput where
  clientId := "acme"
  actor := { type := .system, id := "worker" }
  action := "scan.started"
  summary := summary
  metadata := [("note", .str "nightly"), ("token", .str "abc"), ("error", .error "Error" "none")]
  ids := by decide
  action_mem := by decide
  distinct := by decide
  met_nil := rfl

/-- What a process draws first, and later. -/
def demoDraw (uuid : Uuid) : AuditMemory := { uuid, now := ⟨1709210096007, by decide⟩ }

/-- Two appends read the same last event, and the slower one has to begin again. -/
def racingAppends : List (Label AuditLogInput DbChoice AuditMemory) :=
  [.call (demoAppend "Scan started"), .call (demoAppend "Scan started again"),
    .resume 0, .perform 0 .answers, .resume 1, .perform 1 .answers,
    .resume 0, .perform 0 .answers, .resume 0, .resume 1, .perform 1 .answers,
    .env (demoDraw ⟨"second", by decide⟩),
    .resume 1, .perform 1 .answers, .resume 1, .perform 1 .answers, .resume 1]

/-- Both events are in the log, and it is verified. -/
theorem auditLog_verifiable_race :
    ∃ cfg, AuditReaches lengthDigest fractionFormat (demoDraw ⟨"first", by decide⟩) cfg ∧
      (cfg.world.findChain "acme").length = 2 ∧
      (cfg.world.findChain "acme").map AuditEventRow.sequence =
        List.range' 1 (cfg.world.findChain "acme").length ∧
      ∀ events, cfg.world.FullChain "acme" events →
        verifyChain lengthDigest fractionFormat events = true ∧
          ∀ exportedAt, ∃ report,
            verifyAuditExport lengthDigest fractionFormat fractionReader endsInZ (fun _ _ => true)
              (exportJson lengthDigest fractionFormat "acme" exportedAt events) = .ok report ∧
            report.ok = true := by
  have hrun : (run? (auditSystem lengthDigest fractionFormat) (fun _ _ => true) racingAppends
      (initialAudit (demoDraw ⟨"first", by decide⟩))).any
        (fun cfg => decide ((cfg.world.findChain "acme").length = 2)) = true := by
    decide +kernel
  obtain ⟨cfg, hreach, hcfg⟩ := exists_reachable_of_run? hrun
  have hreach : AuditReaches lengthDigest fractionFormat (demoDraw ⟨"first", by decide⟩) cfg :=
    hreach.mono fun _ _ _ => trivial
  exact ⟨cfg, hreach, of_decide_eq_true hcfg,
    auditLog_verifiable lengthDigest fractionFormat fractionReader endsInZ (fun _ _ => true)
      (fun ms _ => endsInZ_toISOString ms) _ cfg hreach "acme"⟩

end MontrSecure
