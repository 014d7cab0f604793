import MontrSecure.Contracts.Scan
import MontrSecure.Js.Stringify
import MontrSecure.Js.Value

/-!
# The hash chain of the audit log

`packages/state-store/src/hash-chain.ts` and its mirror in `packages/security`: the canonical form
of an event, the hash of an event over it and over the hash before, and the check of a chain.

The canonical form is built by assignments, and an assignment to `__proto__` adds no field: fields of
that name are not covered by the hash. `canonicalJson_eq_iff` says what is: the value up to the order
of keys, without those fields.
-/

namespace MontrSecure

open Text

/-! ## Canonical form -/

mutual
/-- `sortDeep`. -/
def sortDeep : JsValue → JsValue
  | .arr items => .arr (sortDeepItems items)
  | .obj fields => .obj (assigned (sortFields (sortDeepFields fields)))
  -- dates and errors are objects without enumerable fields
  | .date _ | .error _ _ => .obj []
  | v => v

/-- `sortDeep` for the items of an array. -/
def sortDeepItems : List JsValue → List JsValue
  | [] => []
  | v :: items => sortDeep v :: sortDeepItems items

/-- `sortDeep` for the values of an object, without those that are `undefined`. -/
def sortDeepFields : JsRecord → JsRecord
  | [] => []
  | (_, .undefined) :: fields => sortDeepFields fields
  | (k, v) :: fields => (k, sortDeep v) :: sortDeepFields fields
end

/-- `canonicalJson`. -/
def canonicalJson (fmt : NumberFormat) (value : JsValue) : String :=
  match (sortDeep value).toJson with
  | some j => stringify fmt [] j
  | none => "undefined"

theorem sortDeepItems_eq (items : List JsValue) : sortDeepItems items = items.map sortDeep := by
  induction items with
  | nil => rfl
  | cons v items ih => rw [sortDeepItems, ih, List.map_cons]

/-- Keys stay in order when fields are left out. -/
theorem pairwise_toJsonFields {fields : JsRecord} (h : fields.Pairwise fieldLe) :
    (toJsonFields fields).Pairwise fieldLe := by
  rw [toJsonFields_eq, List.pairwise_filterMap]
  refine h.imp fun {f g} hfg f' hf' g' hg' => ?_
  obtain ⟨_, -, rfl⟩ := Option.map_eq_some_iff.mp hf'
  obtain ⟨_, -, rfl⟩ := Option.map_eq_some_iff.mp hg'
  exact hfg

/-- It does not matter whether the keys are sorted before or after. -/
theorem toJsonFields_sortFields {fields : JsRecord} (h : (keysOf fields).Nodup) :
    toJsonFields (assigned (sortFields fields)) = sortFields (toJsonFields (assigned fields)) := by
  have hassigned : (keysOf (assigned (sortFields fields))).Nodup :=
    (List.filter_sublist.map _ : (keysOf (assigned _)).Sublist _).nodup (nodup_sortFields h)
  have hsorted : (sortFields fields).Pairwise fieldLe := List.pairwise_insertionSort _ _
  have hperm : (toJsonFields (assigned (sortFields fields))).Perm (toJsonFields (assigned fields)) := by
    rw [toJsonFields_eq, toJsonFields_eq]
    exact ((sortFields_perm fields).filter _).filterMap _
  refine eq_of_sorted (pairwise_toJsonFields (hsorted.filter _)) (List.pairwise_insertionSort _ _) ?_
    (hperm.trans (sortFields_perm _).symm)
  exact (keysOf_toJsonFields _).nodup hassigned

theorem sortDeepFields_cons {k : String} {v : JsValue} (fields : JsRecord) (h : v ≠ .undefined) :
    sortDeepFields ((k, v) :: fields) = (k, sortDeep v) :: sortDeepFields fields := by
  cases v <;> first | rfl | exact absurd rfl h

theorem keysOf_sortDeepFields (fields : JsRecord) :
    (keysOf (sortDeepFields fields)).Sublist (keysOf fields) := by
  induction fields with
  | nil => exact List.Sublist.refl _
  | cons f fields ih =>
    obtain ⟨k, v⟩ := f
    by_cases hv : v = .undefined
    · subst hv
      exact ih.cons k
    · rw [sortDeepFields_cons fields hv]
      exact ih.cons_cons k

/-- Fields are left out by the canonical form when they are `undefined`, cannot be written or are
assigned to `__proto__`. -/
theorem toJsonFields_sortDeepFields {fields : JsRecord}
    (h : ∀ f ∈ fields, (sortDeep f.2).toJson = f.2.toJson.map (Json.ordered notProto)) :
    toJsonFields (assigned (sortDeepFields fields)) = orderedFields notProto (toJsonFields fields) := by
  induction fields with
  | nil => rfl
  | cons f fields ih =>
    obtain ⟨k, v⟩ := f
    have htail := ih fun f hf => h f (List.mem_cons_of_mem _ hf)
    by_cases hundefined : v = .undefined
    · subst hundefined
      exact htail
    · have hv : (sortDeep v).toJson = v.toJson.map (Json.ordered notProto) := h _ List.mem_cons_self
      rw [sortDeepFields_cons fields hundefined, assigned, List.filter_cons, toJsonFields]
      by_cases hk : notProto k = true
      · rw [if_pos hk, toJsonFields, hv]
        cases v.toJson with
        | none => exact htail
        | some j =>
          show (k, j.ordered notProto) :: _ = orderedFields notProto ((k, j) :: _)
          rw [orderedFields, if_pos hk, ← htail]
          rfl
      · rw [if_neg hk]
        cases v.toJson with
        | none => exact htail
        | some j =>
          show _ = orderedFields notProto ((k, j) :: _)
          rw [orderedFields, if_neg hk, ← htail]
          rfl

/-- Sorting changes neither which values can be written nor, plain ones, how, but for the order of
keys and `__proto__`. -/
theorem toJson_sortDeep {v : JsValue} (hplain : v.plain = true) (hdistinct : v.distinct = true) :
    (sortDeep v).toJson = v.toJson.map (Json.ordered notProto) := by
  induction v using JsValue.members_induction with
  | leaf v hleaf => cases v <;> first | rfl | cases hplain | cases hleaf
  | arr items ih =>
    simp only [sortDeep, JsValue.toJson, sortDeepItems_eq, toJsonItems_eq, Option.map_some,
      Json.ordered, orderedItems_eq, List.map_map, Option.some.injEq, Json.arr.injEq]
    refine List.map_congr_left fun v hmem => ?_
    have hv := ih v hmem (plain_arr.mp hplain v hmem) (js_distinct_arr.mp hdistinct v hmem)
    simp only [Function.comp_apply, hv]
    cases v.toJson <;> rfl
  | obj fields ih =>
    obtain ⟨hkeys, hfields⟩ := js_distinct_obj.mp hdistinct
    have hinner := toJsonFields_sortDeepFields fun f hmem =>
      ih f hmem (plain_obj.mp hplain f hmem) (hfields f hmem)
    simp only [sortDeep, JsValue.toJson, Option.map_some, Json.ordered, Option.some.injEq,
      Json.obj.injEq]
    rw [toJsonFields_sortFields ((keysOf_sortDeepFields fields).nodup hkeys), hinner]

/-- What the canonical form covers: the value up to the order of keys, without the fields called
`__proto__`. -/
theorem canonicalJson_eq_iff {fmt : NumberFormat} {v w : JsValue} {j k : Json}
    (hv : v.plain = true ∧ v.distinct = true) (hw : w.plain = true ∧ w.distinct = true)
    (hj : v.toJson = some j) (hk : w.toJson = some k) :
    canonicalJson fmt v = canonicalJson fmt w ↔ j.ordered notProto = k.ordered notProto := by
  have hcanonical : ∀ {u : JsValue} {l : Json}, u.plain = true ∧ u.distinct = true →
      u.toJson = some l → canonicalJson fmt u = stringify fmt [] (l.ordered notProto) := by
    intro u l hu hl
    rw [canonicalJson, toJson_sortDeep hu.1 hu.2, hl]
    rfl
  have hjd := distinct_toJson hv.2 j hj
  have hkd := distinct_toJson hw.2 k hk
  rw [hcanonical hv hj, hcanonical hw hk]
  constructor
  · intro h
    have hsame := stringify_injective h (distinct_ordered hjd) (distinct_ordered hkd)
    rw [Json.Same, ordered_ordered hjd, ordered_ordered hkd] at hsame
    simpa only [Bool.and_true] using hsame
  · intro h
    rw [h]

/-! ## Events -/

/-- `AuditEventSchema`. -/
structure AuditEvent where
  id : EntityId
  clientId : ClientId
  sequence : ℕ
  scanId : Option ScanId := none
  actor : AuditActor
  action : String
  targetType : Option String := none
  targetId : Option EntityId := none
  summary : String
  metadata : JsRecord := []
  prevHash : String
  hash : String
  at_ : String

/-- The string of an actor type. -/
def ActorType.name : ActorType → String
  | .user => "user"
  | .agent => "agent"
  | .system => "system"

/-- The string of a role. -/
def Role.name : Role → String
  | .operator => "operator"
  | .approver => "approver"
  | .viewer => "viewer"

/-- An optional string of an event. -/
def JsValue.ofString? : Option String → JsValue
  | some s => .str s
  | none => .undefined

/-- The fields of an actor. -/
def AuditActor.fields (actor : AuditActor) : JsRecord :=
  [("type", .str actor.type.name), ("id", .str actor.id), ("role", .ofString? (actor.role.map Role.name))]

/-- The fields of an event but its hash. -/
def AuditEvent.fields (event : AuditEvent) : JsRecord :=
  [("id", .str event.id), ("clientId", .str event.clientId), ("sequence", .num event.sequence),
    ("scanId", .ofString? event.scanId), ("actor", .obj event.actor.fields),
    ("action", .str event.action), ("targetType", .ofString? event.targetType),
    ("targetId", .ofString? event.targetId), ("summary", .str event.summary),
    ("metadata", .obj event.metadata), ("prevHash", .str event.prevHash), ("at", .str event.at_)]

/-- `auditHashPayload`: the event without its hash. -/
def auditHashPayload (event : AuditEvent) : JsValue := .obj event.fields

/-- What an event's metadata is written as. -/
def AuditEvent.metadataJson (event : AuditEvent) : Json := .obj (toJsonFields event.metadata)

/-- The metadata hold no dates, errors or functions, and no key twice. -/
def AuditEvent.Clean (event : AuditEvent) : Prop :=
  (JsValue.obj event.metadata).plain = true ∧ (JsValue.obj event.metadata).distinct = true

/-- The same in everything a hash covers. -/
def AuditEvent.Covered (e e' : AuditEvent) : Prop :=
  { e with metadata := [], hash := "" } = { e' with metadata := [], hash := "" } ∧
    e.metadataJson.ordered notProto = e'.metadataJson.ordered notProto

@[simp]
theorem plain_ofString? (s : Option String) : (JsValue.ofString? s).plain = true := by
  cases s <;> rfl

@[simp]
theorem distinct_ofString? (s : Option String) : (JsValue.ofString? s).distinct = true := by
  cases s <;> rfl

theorem toJson_ofString? (s : Option String) : (JsValue.ofString? s).toJson = s.map Json.str := by
  cases s <;> rfl

theorem AuditActor.keysOf_fields (actor : AuditActor) : keysOf actor.fields = ["type", "id", "role"] :=
  rfl

theorem AuditEvent.keysOf_fields (e : AuditEvent) :
    keysOf e.fields = ["id", "clientId", "sequence", "scanId", "actor", "action", "targetType",
      "targetId", "summary", "metadata", "prevHash", "at"] :=
  rfl

theorem AuditActor.nodup_fields (actor : AuditActor) : (keysOf actor.fields).Nodup := by
  rw [actor.keysOf_fields]
  decide

theorem AuditEvent.nodup_fields (e : AuditEvent) : (keysOf e.fields).Nodup := by
  rw [e.keysOf_fields]
  decide

theorem auditHashPayload_clean {e : AuditEvent} (h : e.Clean) :
    (auditHashPayload e).plain = true ∧ (auditHashPayload e).distinct = true := by
  obtain ⟨hplain, hdistinct⟩ := h
  have hactor : (JsValue.obj e.actor.fields).plain = true ∧ (JsValue.obj e.actor.fields).distinct = true := by
    rw [plain_obj, js_distinct_obj]
    refine ⟨?_, e.actor.nodup_fields, ?_⟩ <;> simp [AuditActor.fields]
  rw [auditHashPayload, plain_obj, js_distinct_obj]
  refine ⟨?_, e.nodup_fields, ?_⟩ <;> simp [AuditEvent.fields, hplain, hdistinct, hactor]

/-- The value of a key, from the ordered form of the object. -/
theorem mem_orderedFields_of_key {keep : String → Bool} {fields : JsRecord} {k : String} {v : JsValue}
    {x : Json} (hkeys : (keysOf fields).Nodup) (hk : keep k = true) (hv : (k, v) ∈ fields) :
    (k, x) ∈ orderedFields keep (toJsonFields fields) ↔ v.toJson.map (Json.ordered keep) = some x := by
  rw [mem_orderedFields, Option.map_eq_some_iff]
  constructor
  · rintro ⟨-, j, hj, rfl⟩
    obtain ⟨w, hw, hjson⟩ := mem_toJsonFields.mp hj
    exact ⟨j, by rw [eq_of_mem_of_nodup hkeys hv hw, hjson], rfl⟩
  · rintro ⟨j, hj, rfl⟩
    exact ⟨hk, j, mem_toJsonFields.mpr ⟨v, hv, hj⟩, rfl⟩

theorem toJson_eq_of_ordered_eq {keep : String → Bool} {fields fields' : JsRecord}
    (hkeys : (keysOf fields).Nodup) (hkeys' : (keysOf fields').Nodup)
    (h : (Json.obj (toJsonFields fields)).ordered keep = (Json.obj (toJsonFields fields')).ordered keep)
    (k : String) {v v' : JsValue} (hk : keep k = true) (hv : (k, v) ∈ fields) (hv' : (k, v') ∈ fields') :
    v.toJson.map (Json.ordered keep) = v'.toJson.map (Json.ordered keep) := by
  rw [ordered_obj_eq_iff ((keysOf_toJsonFields _).nodup hkeys)
    ((keysOf_toJsonFields _).nodup hkeys')] at h
  ext x
  rw [← mem_orderedFields_of_key hkeys hk hv, ← mem_orderedFields_of_key hkeys' hk hv']
  exact h k x

/-- Values with the same keys and values that are the same when ordered are the same. -/
theorem ordered_eq_of_toJson_eq {keep : String → Bool} {fields fields' : JsRecord}
    (h : List.Forall₂ (fun f f' : String × JsValue =>
      f.1 = f'.1 ∧ f.2.toJson.map (Json.ordered keep) = f'.2.toJson.map (Json.ordered keep))
      fields fields') :
    (Json.obj (toJsonFields fields)).ordered keep = (Json.obj (toJsonFields fields')).ordered keep := by
  have hfields : orderedFields keep (toJsonFields fields) = orderedFields keep (toJsonFields fields') := by
    induction h with
    | nil => rfl
    | cons hhead htail ih =>
      rename_i f f' l l'
      obtain ⟨k, v⟩ := f
      obtain ⟨k', v'⟩ := f'
      obtain ⟨hk, hv⟩ := hhead
      simp only at hk hv
      subst hk
      rw [toJsonFields, toJsonFields]
      cases hj : v.toJson with
      | none =>
        cases hj' : v'.toJson with
        | none => exact ih
        | some j' =>
          rw [hj, hj'] at hv
          cases hv
      | some j =>
        cases hj' : v'.toJson with
        | none =>
          rw [hj, hj'] at hv
          cases hv
        | some j' =>
          rw [hj, hj'] at hv
          show orderedFields keep ((k, j) :: toJsonFields l) = orderedFields keep ((k, j') :: toJsonFields l')
          rw [orderedFields, orderedFields, ih, Option.some.inj hv]
  rw [Json.ordered, Json.ordered, hfields]

/-- Objects with the same keys, value by value. -/
theorem ordered_eq_iff_forall₂ {keep : String → Bool} {fields fields' : JsRecord}
    (hkeys : (keysOf fields).Nodup) (hsame : keysOf fields = keysOf fields')
    (hkeep : ∀ k ∈ keysOf fields, keep k = true) :
    (Json.obj (toJsonFields fields)).ordered keep = (Json.obj (toJsonFields fields')).ordered keep ↔
      List.Forall₂ (fun f f' : String × JsValue =>
        f.1 = f'.1 ∧ f.2.toJson.map (Json.ordered keep) = f'.2.toJson.map (Json.ordered keep))
        fields fields' := by
  refine ⟨fun h => List.forall₂_iff_get.mpr ⟨?_, fun i hi hi' => ?_⟩, ordered_eq_of_toJson_eq⟩
  · simpa using congrArg List.length hsame
  · have hkey : (fields.get ⟨i, hi⟩).1 = (fields'.get ⟨i, hi'⟩).1 := by
      have hi? : (keysOf fields)[i]? = (keysOf fields')[i]? := by rw [hsame]
      simpa [keysOf, hi, hi'] using hi?
    refine ⟨hkey, toJson_eq_of_ordered_eq hkeys (hsame ▸ hkeys) h (fields.get ⟨i, hi⟩).1 ?_ ?_ ?_⟩
    · exact hkeep _ (List.mem_map_of_mem (List.get_mem _ _))
    · exact List.get_mem fields ⟨i, hi⟩
    · rw [hkey]
      exact List.get_mem fields' ⟨i, hi'⟩

theorem ActorType.name_injective : Function.Injective ActorType.name := by
  intro a b h
  cases a <;> cases b <;> first | rfl | exact absurd h (by decide)

theorem Role.name_injective : Function.Injective Role.name := by
  intro a b h
  cases a <;> cases b <;> first | rfl | exact absurd h (by decide)

theorem ofString?_injective {keep : String → Bool} {s t : Option String}
    (h : (JsValue.ofString? s).toJson.map (Json.ordered keep) =
      (JsValue.ofString? t).toJson.map (Json.ordered keep)) : s = t := by
  cases s <;> cases t <;> first | rfl | cases h
  rfl

theorem actor_eq_of_ordered_eq {actor actor' : AuditActor}
    (h : (Json.obj (toJsonFields actor.fields)).ordered notProto =
      (Json.obj (toJsonFields actor'.fields)).ordered notProto) : actor = actor' := by
  rw [ordered_eq_iff_forall₂ actor.nodup_fields
    (actor.keysOf_fields.trans actor'.keysOf_fields.symm) (by rw [actor.keysOf_fields]; decide)] at h
  simp only [AuditActor.fields, List.forall₂_cons, List.Forall₂.nil, true_and, and_true] at h
  obtain ⟨htype, hid, hrole⟩ := h
  obtain ⟨type, id, role⟩ := actor
  obtain ⟨type', id', role'⟩ := actor'
  rw [AuditActor.mk.injEq]
  refine ⟨ActorType.name_injective (Json.str.inj (Option.some.inj htype)),
    Json.str.inj (Option.some.inj hid), ?_⟩
  exact Option.map_injective Role.name_injective (ofString?_injective hrole)

/-- The canonical form of an event covers its fields. -/
theorem canonicalJson_payload_eq_iff {fmt : NumberFormat} {e e' : AuditEvent} (he : e.Clean)
    (he' : e'.Clean) :
    canonicalJson fmt (auditHashPayload e) = canonicalJson fmt (auditHashPayload e') ↔
      e.Covered e' := by
  rw [canonicalJson_eq_iff (auditHashPayload_clean he) (auditHashPayload_clean he') rfl rfl,
    ordered_eq_iff_forall₂ e.nodup_fields (e.keysOf_fields.trans e'.keysOf_fields.symm)
      (by rw [e.keysOf_fields]; decide)]
  simp only [AuditEvent.fields, List.forall₂_cons, List.Forall₂.nil, true_and, and_true]
  constructor
  · rintro ⟨hid, hclient, hsequence, hscan, hactor, haction, htype, htarget, hsummary, hmetadata,
      hprev, hat⟩
    refine ⟨?_, Option.some.inj hmetadata⟩
    rw [AuditEvent.mk.injEq]
    have hsequence := Json.num.inj (Option.some.inj hsequence)
    exact ⟨Json.str.inj (Option.some.inj hid), Json.str.inj (Option.some.inj hclient),
      Nat.cast_injective hsequence, ofString?_injective hscan,
      actor_eq_of_ordered_eq (Option.some.inj hactor), Json.str.inj (Option.some.inj haction),
      ofString?_injective htype, ofString?_injective htarget,
      Json.str.inj (Option.some.inj hsummary), rfl, Json.str.inj (Option.some.inj hprev), rfl,
      Json.str.inj (Option.some.inj hat)⟩
  · rintro ⟨hfields, hmetadata⟩
    obtain ⟨⟩ := e
    obtain ⟨⟩ := e'
    simp only [AuditEvent.mk.injEq, true_and] at hfields
    obtain ⟨rfl, rfl, rfl, rfl, rfl, rfl, rfl, rfl, rfl, rfl, rfl⟩ := hfields
    exact ⟨rfl, rfl, rfl, rfl, rfl, rfl, rfl, rfl, rfl, congrArg some hmetadata, rfl, rfl⟩

/-- `computeAuditHash`, for a hash function of texts that gives hexadecimal digits. -/
def computeAuditHash (sha256 : String → String) (fmt : NumberFormat) (prevHash : String)
    (eventWithoutHash : JsValue) : String :=
  sha256 (prevHash ++ canonicalJson fmt eventWithoutHash)

/-- `hashAuditEvent`. -/
def hashAuditEvent (sha256 : String → String) (fmt : NumberFormat) (event : AuditEvent)
    (prevHash : String) : String :=
  computeAuditHash sha256 fmt prevHash (auditHashPayload event)

/-- `ChainVerification`. -/
structure ChainVerification where
  ok : Bool
  brokenAt : Option ℕ := none
  reason : Option String := none
  deriving DecidableEq

/-- `verifyChainRecords` from the `i`-th record on, after the hash `prevHash`. -/
def verifyFrom (sha256 : String → String) (fmt : NumberFormat) (prevHash : String)
    (expectedSequence i : ℕ) : List AuditEvent → ChainVerification
  | [] => { ok := true }
  | event :: events =>
    if event.sequence ≠ expectedSequence then
      { ok := false, brokenAt := some (i + 1)
        reason := some s!"sequence gap: expected {expectedSequence}, got {event.sequence}" }
    else if event.prevHash ≠ prevHash then
      { ok := false, brokenAt := some (i + 1), reason := some "prevHash does not match prior hash" }
    else if hashAuditEvent sha256 fmt event prevHash ≠ event.hash then
      { ok := false, brokenAt := some (i + 1), reason := some "hash mismatch (record altered)" }
    else verifyFrom sha256 fmt event.hash (expectedSequence + 1) (i + 1) events

/-- `verifyChainRecords`. -/
def verifyChainRecords (sha256 : String → String) (fmt : NumberFormat) (events : List AuditEvent) :
    ChainVerification :=
  verifyFrom sha256 fmt "" 1 0 events

/-! ## Chains -/

section Chains

variable {sha256 : String → String} {fmt : NumberFormat} {prevHash : String} {n : ℕ}
  {es fs : List AuditEvent}

/-- Records that follow the hash `prevHash`, numbered from `n` on. -/
def Chained (sha256 : String → String) (fmt : NumberFormat) (prevHash : String) (n : ℕ) :
    List AuditEvent → Prop
  | [] => True
  | e :: es =>
    (e.sequence = n ∧ e.prevHash = prevHash ∧ hashAuditEvent sha256 fmt e prevHash = e.hash) ∧
      Chained sha256 fmt e.hash (n + 1) es

/-- The hash that follows records. -/
def lastHash (prevHash : String) (es : List AuditEvent) : String :=
  (es.getLast?.map AuditEvent.hash).getD prevHash

example : lastHash "genesis" [] = "genesis" := by decide +kernel

theorem verifyFrom_ok_iff {i : ℕ} :
    (verifyFrom sha256 fmt prevHash n i es).ok = true ↔ Chained sha256 fmt prevHash n es := by
  induction es generalizing prevHash n i with
  | nil => exact iff_of_true rfl trivial
  | cons e es ih =>
    rw [verifyFrom, Chained]
    by_cases hsequence : e.sequence = n
    · by_cases hprev : e.prevHash = prevHash
      · by_cases hhash : hashAuditEvent sha256 fmt e prevHash = e.hash
        · simp [hsequence, hprev, hhash, ih]
        · simp [hsequence, hprev, hhash]
      · simp [hsequence, hprev]
    · simp [hsequence]

/-- A chain is accepted when every record has its number, the hash before it and its own hash. -/
theorem verifyChainRecords_ok_iff :
    (verifyChainRecords sha256 fmt es).ok = true ↔ Chained sha256 fmt "" 1 es :=
  verifyFrom_ok_iff

theorem chained_append :
    Chained sha256 fmt prevHash n (es ++ fs) ↔
      Chained sha256 fmt prevHash n es ∧
        Chained sha256 fmt (lastHash prevHash es) (n + es.length) fs := by
  induction es generalizing prevHash n with
  | nil => simp [Chained, lastHash]
  | cons e es ih =>
    have hlast : lastHash prevHash (e :: es) = lastHash e.hash es := by
      rw [lastHash, lastHash, List.getLast?_cons]
      cases es.getLast? <;> rfl
    have hnext : n + 1 + es.length = n + (e :: es).length := by
      rw [List.length_cons]
      omega
    rw [List.cons_append, Chained, Chained, ih, hlast, hnext]
    exact and_assoc.symm

/-- A chain goes on with a record that has the next number and the last hash. -/
theorem chained_snoc {e : AuditEvent} :
    Chained sha256 fmt prevHash n (es ++ [e]) ↔
      Chained sha256 fmt prevHash n es ∧ e.sequence = n + es.length ∧
        e.prevHash = lastHash prevHash es ∧
        hashAuditEvent sha256 fmt e (lastHash prevHash es) = e.hash := by
  rw [chained_append, Chained, Chained, and_true]

@[simp]
theorem lastHash_snoc {e : AuditEvent} : lastHash prevHash (es ++ [e]) = e.hash := by
  simp [lastHash]

end Chains

end MontrSecure
