import MontrSecure.Audit.HashChain
import MontrSecure.Correlation.Taxonomy
import Mathlib.Data.List.Induction

/-!
# What a chain of hashes fixes

With an injective hash function, two chains that are accepted and end in the same hash agree event by
event in everything the hashes cover (`covered_of_same_hash`). The hashes do not cover fields called
`__proto__`, so that the events are the same when these fields are (`chain_same_iff`), and need not be
otherwise.
-/

namespace MontrSecure

open Text

/-! ## The fields that are not covered -/

mutual
/-- The fields called `__proto__` of a value that are not inside another one, with the path to the
object they are in. -/
def Json.protoFields : Json → List (List (String ⊕ ℕ) × Json)
  | .arr items => protoItems 0 items
  | .obj fields => protoMembers fields
  | _ => []

/-- `protoFields` for the items of an array, from the `i`-th on. -/
def protoItems (i : ℕ) : List Json → List (List (String ⊕ ℕ) × Json)
  | [] => []
  | v :: items => v.protoFields.map (fun p => (.inr i :: p.1, p.2)) ++ protoItems (i + 1) items

/-- `protoFields` for the fields of an object. -/
def protoMembers : List (String × Json) → List (List (String ⊕ ℕ) × Json)
  | [] => []
  | (k, v) :: fields =>
    (if k = protoKey then [([], v.ordered everyKey)]
      else v.protoFields.map fun p => (.inl k :: p.1, p.2)) ++ protoMembers fields
end

/-- The same fields called `__proto__`, at the same places. -/
def Json.SameProtoFields (v w : Json) : Prop := ∀ p, p ∈ v.protoFields ↔ p ∈ w.protoFields

theorem mem_protoItems {i : ℕ} {items : List Json} {p : List (String ⊕ ℕ) × Json} :
    p ∈ protoItems i items ↔
      ∃ n v q, items[n]? = some v ∧ q ∈ v.protoFields ∧ p = (.inr (i + n) :: q.1, q.2) := by
  induction items generalizing i with
  | nil => simp [protoItems]
  | cons v items ih =>
    rw [protoItems, List.mem_append, ih]
    constructor
    · rintro (h | ⟨n, w, q, hw, hq, rfl⟩)
      · obtain ⟨q, hq, rfl⟩ := List.mem_map.mp h
        exact ⟨0, v, q, rfl, hq, rfl⟩
      · exact ⟨n + 1, w, q, hw, hq, by rw [Nat.add_right_comm, Nat.add_assoc]⟩
    · rintro ⟨n, w, q, hw, hq, rfl⟩
      cases n with
      | zero =>
        cases hw
        exact .inl (List.mem_map.mpr ⟨q, hq, rfl⟩)
      | succ n => exact .inr ⟨n, w, q, hw, hq, by rw [Nat.add_right_comm, Nat.add_assoc]⟩

/-- `protoFields` for one field of an object. -/
def protoOfField (f : String × Json) : List (List (String ⊕ ℕ) × Json) :=
  if f.1 = protoKey then [([], f.2.ordered everyKey)]
  else f.2.protoFields.map fun p => (.inl f.1 :: p.1, p.2)

theorem protoMembers_eq (fields : List (String × Json)) :
    protoMembers fields = fields.flatMap protoOfField := by
  induction fields with
  | nil => rfl
  | cons f fields ih =>
    rw [protoMembers, ih, List.flatMap_cons]
    rfl

theorem mem_protoOfField {f : String × Json} {p : List (String ⊕ ℕ) × Json} :
    p ∈ protoOfField f ↔
      f.1 = protoKey ∧ p = ([], f.2.ordered everyKey) ∨
        f.1 ≠ protoKey ∧ ∃ q ∈ f.2.protoFields, (.inl f.1 :: q.1, q.2) = p := by
  unfold protoOfField
  split
  · rename_i hk
    simp [hk]
  · rename_i hk
    simp [hk]

/-- The order of keys does not matter. -/
theorem mem_protoFields_ordered {v : Json} (hv : v.distinct = true) (p : List (String ⊕ ℕ) × Json) :
    p ∈ (v.ordered everyKey).protoFields ↔ p ∈ v.protoFields := by
  induction v using Json.members_induction generalizing p with
  | leaf v hleaf => rw [ordered_of_isLeaf hleaf]
  | arr items ih =>
    show p ∈ protoItems 0 (orderedItems everyKey items) ↔ p ∈ protoItems 0 items
    rw [mem_protoItems, mem_protoItems, orderedItems_eq]
    constructor
    · rintro ⟨n, w, q, hw, hq, rfl⟩
      obtain ⟨v, hn, rfl⟩ := Option.map_eq_some_iff.mp (List.getElem?_map .. ▸ hw)
      have hmem : v ∈ items := List.mem_of_getElem? hn
      exact ⟨n, v, q, hn, (ih v hmem (distinct_arr.mp hv v hmem) q).mp hq, rfl⟩
    · rintro ⟨n, v, q, hn, hq, rfl⟩
      have hmem : v ∈ items := List.mem_of_getElem? hn
      refine ⟨n, v.ordered everyKey, q, ?_, (ih v hmem (distinct_arr.mp hv v hmem) q).mpr hq, rfl⟩
      rw [List.getElem?_map, hn]
      rfl
  | obj fields ih =>
    obtain ⟨hkeys, hfields⟩ := distinct_obj.mp hv
    have hfield : ∀ f ∈ fields, ∀ p,
        p ∈ protoOfField (f.1, f.2.ordered everyKey) ↔ p ∈ protoOfField f := by
      intro f hf p
      rw [mem_protoOfField, mem_protoOfField]
      simp only [ordered_ordered (hfields f hf), Bool.and_true, ih f hf (hfields f hf)]
    show p ∈ protoMembers (sortFields (orderedFields everyKey fields)) ↔ p ∈ protoMembers fields
    rw [protoMembers_eq, protoMembers_eq, List.mem_flatMap, List.mem_flatMap]
    simp only [mem_sortFields, orderedFields_eq, List.filter_true, List.mem_map]
    constructor
    · rintro ⟨_, ⟨f, hf, rfl⟩, hp⟩
      exact ⟨f, hf, (hfield f hf p).mp hp⟩
    · rintro ⟨f, hf, hp⟩
      exact ⟨_, ⟨f, hf, rfl⟩, (hfield f hf p).mpr hp⟩

theorem Json.Same.sameProtoFields {v w : Json} (h : v.Same w) (hv : v.distinct = true)
    (hw : w.distinct = true) : v.SameProtoFields w := by
  intro p
  rw [← mem_protoFields_ordered hv, h, mem_protoFields_ordered hw]

/-- The fields called `__proto__` that are in an item. -/
theorem mem_protoFields_of_index {items : List Json} {n : ℕ} {v : Json}
    {q : List (String ⊕ ℕ) × Json} (hv : items[n]? = some v) :
    (.inr n :: q.1, q.2) ∈ (Json.arr items).protoFields ↔ q ∈ v.protoFields := by
  show (.inr n :: q.1, q.2) ∈ protoItems 0 items ↔ _
  rw [mem_protoItems]
  constructor
  · rintro ⟨n', v', q', hv', hq', h⟩
    obtain ⟨hpath, hvalue⟩ := Prod.mk.inj h
    obtain ⟨hindex, hpath⟩ := List.cons.inj hpath
    have hn : n = n' := by rw [Sum.inr.inj hindex, Nat.zero_add]
    rw [← hn, hv] at hv'
    rw [Option.some.inj hv', Prod.ext hpath hvalue]
    exact hq'
  · intro hq
    exact ⟨n, v, q, hv, hq, by rw [Nat.zero_add]⟩

/-- The fields called `__proto__` that are in the value of a key. -/
theorem mem_protoFields_of_key {fields : List (String × Json)} {k : String} {v : Json}
    {q : List (String ⊕ ℕ) × Json} (hkeys : (keysOf fields).Nodup) (hv : (k, v) ∈ fields)
    (hk : k ≠ protoKey) : (.inl k :: q.1, q.2) ∈ (Json.obj fields).protoFields ↔ q ∈ v.protoFields := by
  show (.inl k :: q.1, q.2) ∈ protoMembers fields ↔ _
  rw [protoMembers_eq, List.mem_flatMap]
  constructor
  · rintro ⟨f, hf, hq⟩
    obtain ⟨-, h⟩ | ⟨-, q', hq', h⟩ := mem_protoOfField.mp hq
    · cases (Prod.mk.inj h).1
    · obtain ⟨hpath, hvalue⟩ := Prod.mk.inj h
      obtain ⟨hkey, hpath⟩ := List.cons.inj hpath
      have hf' : (k, f.2) ∈ fields := by rwa [← Sum.inl.inj hkey]
      rw [eq_of_mem_of_nodup hkeys hv hf', ← Prod.ext hpath hvalue]
      exact hq'
  · intro hq
    exact ⟨(k, v), hv, mem_protoOfField.mpr (.inr ⟨hk, q, hq, rfl⟩)⟩

theorem mem_protoFields_of_proto {fields : List (String × Json)} {w : Json} :
    ([], w) ∈ (Json.obj fields).protoFields ↔ ∃ v, (protoKey, v) ∈ fields ∧ v.ordered everyKey = w := by
  show ([], w) ∈ protoMembers fields ↔ _
  rw [protoMembers_eq, List.mem_flatMap]
  constructor
  · rintro ⟨⟨k, v⟩, hf, hq⟩
    obtain ⟨rfl, h⟩ | ⟨-, q, -, h⟩ := mem_protoOfField.mp hq
    · exact ⟨v, hf, (Prod.mk.inj h).2.symm⟩
    · cases (Prod.mk.inj h).1
  · rintro ⟨v, hf, rfl⟩
    exact ⟨(protoKey, v), hf, mem_protoOfField.mpr (.inl ⟨rfl, rfl⟩)⟩

/-- Values that are covered alike are the same when their fields called `__proto__` are. -/
theorem same_of_sameProtoFields {v w : Json} (hv : v.distinct = true) (hw : w.distinct = true)
    (hcovered : v.ordered notProto = w.ordered notProto) (hproto : v.SameProtoFields w) : v.Same w := by
  induction v using Json.members_induction generalizing w with
  | leaf v hleaf =>
    have hvw : v = w := by
      rw [ordered_of_isLeaf hleaf] at hcovered
      rw [hcovered]
      cases w <;> first | rfl | (rw [hcovered] at hleaf; cases hleaf)
    rw [hvw, Json.Same]
  | arr items ih =>
    cases w with
    | arr items' =>
      rw [Json.ordered, Json.ordered, Json.arr.injEq, orderedItems_eq, orderedItems_eq] at hcovered
      rw [Json.Same, Json.ordered, Json.ordered, orderedItems_eq, orderedItems_eq, Json.arr.injEq]
      refine List.ext_getElem? fun n => ?_
      have hn : (items.map (Json.ordered notProto))[n]? = (items'.map (Json.ordered notProto))[n]? := by
        rw [hcovered]
      rw [List.getElem?_map, List.getElem?_map] at hn ⊢
      cases hv' : items[n]? with
      | none =>
        cases hw' : items'[n]? with
        | none => rfl
        | some b =>
          rw [hv', hw'] at hn
          cases hn
      | some a =>
        cases hw' : items'[n]? with
        | none =>
          rw [hv', hw'] at hn
          cases hn
        | some b =>
          rw [hv', hw'] at hn
          have ha : a ∈ items := List.mem_of_getElem? hv'
          have hb : b ∈ items' := List.mem_of_getElem? hw'
          have hab : a.SameProtoFields b := by
            intro q
            rw [← mem_protoFields_of_index hv', ← mem_protoFields_of_index hw']
            exact hproto _
          exact congrArg some (ih a ha (distinct_arr.mp hv a ha) (distinct_arr.mp hw b hb)
            (Option.some.inj hn) hab)
    | _ => cases hcovered
  | obj fields ih =>
    cases w with
    | obj fields' =>
      obtain ⟨hkeys, hfields⟩ := distinct_obj.mp hv
      obtain ⟨hkeys', hfields'⟩ := distinct_obj.mp hw
      rw [ordered_obj_eq_iff hkeys hkeys'] at hcovered
      rw [Json.Same, ordered_obj_eq_iff hkeys hkeys']
      -- a key of either object is one of the other, with a value that is the same
      have hmatch : ∀ k v, (k, v) ∈ fields →
          ∃ v', (k, v') ∈ fields' ∧ v.ordered everyKey = v'.ordered everyKey := by
        intro k v hmem
        by_cases hk : k = protoKey
        · subst hk
          obtain ⟨v', hmem', hsame⟩ :=
            mem_protoFields_of_proto.mp ((hproto _).mp (mem_protoFields_of_proto.mpr ⟨v, hmem, rfl⟩))
          exact ⟨v', hmem', hsame.symm⟩
        · have hkept : notProto k = true := decide_eq_true hk
          obtain ⟨-, v', hmem', hsame⟩ := mem_orderedFields.mp
            ((hcovered k _).mp (mem_orderedFields.mpr ⟨hkept, v, hmem, rfl⟩))
          refine ⟨v', hmem', ih (k, v) hmem (hfields _ hmem) (hfields' _ hmem') hsame.symm fun q => ?_⟩
          rw [← mem_protoFields_of_key hkeys hmem hk, ← mem_protoFields_of_key hkeys' hmem' hk]
          exact hproto _
      have hkey : ∀ k v', (k, v') ∈ fields' → ∃ v, (k, v) ∈ fields := by
        intro k v' hmem'
        by_cases hk : k = protoKey
        · subst hk
          obtain ⟨v, hmem, -⟩ :=
            mem_protoFields_of_proto.mp ((hproto _).mpr (mem_protoFields_of_proto.mpr ⟨v', hmem', rfl⟩))
          exact ⟨v, hmem⟩
        · have hkept : notProto k = true := decide_eq_true hk
          obtain ⟨-, v, hmem, -⟩ := mem_orderedFields.mp
            ((hcovered k _).mpr (mem_orderedFields.mpr ⟨hkept, v', hmem', rfl⟩))
          exact ⟨v, hmem⟩
      intro k x
      rw [mem_orderedFields, mem_orderedFields]
      constructor
      · rintro ⟨hk, v, hmem, rfl⟩
        obtain ⟨v', hmem', hsame⟩ := hmatch k v hmem
        exact ⟨hk, v', hmem', hsame.symm⟩
      · rintro ⟨hk, v', hmem', rfl⟩
        obtain ⟨v, hmem⟩ := hkey k v' hmem'
        obtain ⟨v'', hmem'', hsame⟩ := hmatch k v hmem
        rw [eq_of_mem_of_nodup hkeys' hmem' hmem'']
        exact ⟨hk, v, hmem, hsame⟩
    | _ => cases hcovered

/-! ## Hashes -/

/-- The digits of a hexadecimal digest. -/
def isHexDigit (c : Char) : Bool := ('0' ≤ c && c ≤ '9') || ('a' ≤ c && c ≤ 'f')

example : isHexDigit 'g' = false := by decide +kernel

/-- A text of hexadecimal digits. -/
def IsHex (s : String) : Prop := ∀ c ∈ s.toList, isHexDigit c = true

/-- The text of an object begins with a brace. -/
theorem toList_stringify_obj (fmt : NumberFormat) (gap : List Char) (fields : List (String × Json)) :
    ∃ rest, (stringify fmt gap (.obj fields)).toList = '\x7b' :: rest := by
  obtain ⟨c, rest, hwrite, hkind, -⟩ := exists_write fmt gap (Json.obj fields).own []
  have hc : c = '\x7b' := by
    have hfour : kindOf c = 4 := hkind
    unfold kindOf at hfour
    split_ifs at hfour <;> first | assumption | exact absurd hfour (by decide)
  exact ⟨rest, by rw [stringify, String.toList_ofList, hwrite, hc]⟩

theorem toList_canonicalJson_payload {fmt : NumberFormat} {e : AuditEvent} (he : e.Clean) :
    ∃ rest, (canonicalJson fmt (auditHashPayload e)).toList = '\x7b' :: rest := by
  obtain ⟨hplain, hdistinct⟩ := auditHashPayload_clean he
  rw [canonicalJson, toJson_sortDeep hplain hdistinct]
  exact toList_stringify_obj fmt [] _

/-- The hash before and the canonical form can be told apart. -/
theorem append_canonical_inj {p q s t : String} (hp : IsHex p) (hq : IsHex q)
    (hs : ∃ rest, s.toList = '\x7b' :: rest) (ht : ∃ rest, t.toList = '\x7b' :: rest)
    (h : p ++ s = q ++ t) : p = q ∧ s = t := by
  have hword : Function.Injective fun w : { w : String // IsHex w } => w.val.toList :=
    fun v w hvw => Subtype.ext (String.toList_inj.mp hvw)
  have hmark : ∀ s : String, (∃ rest, s.toList = '\x7b' :: rest) → NotBy isHexDigit s.toList := by
    rintro s ⟨rest, hrest⟩ c hc
    rw [hrest] at hc
    cases hc
    rfl
  obtain ⟨hpq, hst⟩ := selfDelimiting_of_class hword (fun w => w.property) ⟨p, hp⟩ ⟨q, hq⟩ _ _
    (hmark s hs) (hmark t ht) (by rw [← String.toList_append, h, String.toList_append])
  exact ⟨congrArg Subtype.val hpq, String.toList_inj.mp hst⟩

section Chains

variable {sha256 : String → String} {fmt : NumberFormat} {es es' : List AuditEvent}

/-- The hash an accepted chain ends in is hexadecimal. -/
theorem isHex_lastHash (hhex : ∀ s, IsHex (sha256 s)) (h : Chained sha256 fmt "" 1 es) :
    IsHex (lastHash "" es) := by
  induction es using List.reverseRecOn with
  | nil => exact fun c hc => nomatch hc
  | append_singleton es e ih =>
    obtain ⟨-, -, -, hhash⟩ := chained_snoc.mp h
    rw [lastHash_snoc, ← hhash]
    exact hhex _

/-- Records with the same hash are covered alike and follow the same hash. -/
theorem covered_of_hash_eq {e e' : AuditEvent} {p p' : String} (hinj : Function.Injective sha256)
    (he : e.Clean) (he' : e'.Clean) (hp : IsHex p) (hp' : IsHex p')
    (h : hashAuditEvent sha256 fmt e p = hashAuditEvent sha256 fmt e' p') :
    e.Covered e' ∧ p = p' := by
  obtain ⟨hpp', hcanonical⟩ := append_canonical_inj hp hp' (toList_canonicalJson_payload he)
    (toList_canonicalJson_payload he') (hinj h)
  exact ⟨(canonicalJson_payload_eq_iff he he').mp hcanonical, hpp'⟩

/-- Two accepted chains that end in the same hash agree, event by event, in what hashes cover. The
induction goes back from the last events: their hash fixes the number of events and the hash before
them, in which the chains without them end. -/
theorem covered_of_same_hash (hinj : Function.Injective sha256) (hhex : ∀ s, IsHex (sha256 s))
    (hes : ∀ e ∈ es, e.Clean) (hes' : ∀ e ∈ es', e.Clean) (h : Chained sha256 fmt "" 1 es)
    (h' : Chained sha256 fmt "" 1 es')
    (hlast : es.getLast?.map AuditEvent.hash = es'.getLast?.map AuditEvent.hash) :
    List.Forall₂ (fun e e' => e.Covered e' ∧ e.hash = e'.hash) es es' := by
  induction es using List.reverseRecOn generalizing es' with
  | nil =>
    have hnil : es' = [] := by
      rw [← List.getLast?_eq_none_iff, ← Option.map_eq_none_iff, ← hlast]
      rfl
    rw [hnil]
    exact .nil
  | append_singleton es e ih =>
    cases es' using List.reverseRecOn with
    | nil => simp at hlast
    | append_singleton es' e' =>
      obtain ⟨hchain, hsequence, -, hhash⟩ := chained_snoc.mp h
      obtain ⟨hchain', hsequence', -, hhash'⟩ := chained_snoc.mp h'
      have hee' : e.hash = e'.hash := by simpa using hlast
      obtain ⟨hcovered, hprev⟩ := covered_of_hash_eq hinj (hes e (by simp)) (hes' e' (by simp))
        (isHex_lastHash hhex hchain) (isHex_lastHash hhex hchain') (by rw [hhash, hhash', hee'])
      have hlength : es.length = es'.length := by
        have hnumber : e.sequence = e'.sequence := (AuditEvent.mk.inj hcovered.1).2.2.1
        omega
      have hinner : es.getLast?.map AuditEvent.hash = es'.getLast?.map AuditEvent.hash := by
        unfold lastHash at hprev
        cases hl : es.getLast? with
        | none =>
          have hnil : es' = [] := by
            rw [List.getLast?_eq_none_iff.mp hl] at hlength
            exact List.length_eq_zero_iff.mp hlength.symm
          rw [hnil]
          rfl
        | some f =>
          cases hl' : es'.getLast? with
          | none =>
            rw [List.getLast?_eq_none_iff.mp hl', List.length_nil, List.length_eq_zero_iff] at hlength
            rw [hlength] at hl
            cases hl
          | some f' =>
            rw [hl, hl'] at hprev
            exact congrArg some hprev
      refine List.rel_append (ih (fun e he => hes e (by simp [he])) (fun e he => hes' e (by simp [he]))
        hchain hchain' hinner) (.cons ⟨hcovered, hee'⟩ .nil)

/-- The metadata are a JSON object. -/
def AuditEvent.IsJson (e : AuditEvent) : Prop :=
  ∃ fields, (Json.obj fields).distinct = true ∧ e.metadata = ofJsonFields fields

/-- The same event, up to the order of the keys of its metadata. -/
def AuditEvent.Same (e e' : AuditEvent) : Prop :=
  { e with metadata := [] } = { e' with metadata := [] } ∧ e.metadataJson.Same e'.metadataJson

theorem AuditEvent.IsJson.clean {e : AuditEvent} (he : e.IsJson) :
    e.Clean ∧ e.metadataJson.distinct = true := by
  obtain ⟨fields, hdistinct, hmetadata⟩ := he
  have hclean : e.Clean := by
    unfold AuditEvent.Clean
    rw [hmetadata]
    exact ⟨plain_ofJson (.obj fields), distinct_ofJson hdistinct⟩
  exact ⟨hclean, distinct_toJson hclean.2 _ rfl⟩

theorem AuditEvent.same_iff {e e' : AuditEvent} (he : e.IsJson) (he' : e'.IsJson)
    (hcovered : e.Covered e') (hhash : e.hash = e'.hash) :
    e.Same e' ↔ e.metadataJson.SameProtoFields e'.metadataJson := by
  constructor
  · exact fun h => h.2.sameProtoFields he.clean.2 he'.clean.2
  · intro h
    refine ⟨?_, same_of_sameProtoFields he.clean.2 he'.clean.2 hcovered.2 h⟩
    have hfields := hcovered.1
    rw [AuditEvent.mk.injEq] at hfields ⊢
    simp only [true_and, hhash] at hfields ⊢
    exact hfields

/-- Two accepted chains that end in the same hash are the same, event by event and up to the order of
keys, when their metadata have the same fields called `__proto__`. -/
theorem chain_same_iff (hinj : Function.Injective sha256) (hhex : ∀ s, IsHex (sha256 s))
    (hes : ∀ e ∈ es, e.IsJson) (hes' : ∀ e ∈ es', e.IsJson)
    (h : (verifyChainRecords sha256 fmt es).ok = true)
    (h' : (verifyChainRecords sha256 fmt es').ok = true)
    (hlast : es.getLast?.map AuditEvent.hash = es'.getLast?.map AuditEvent.hash) :
    List.Forall₂ AuditEvent.Same es es' ↔
      ∀ p ∈ es.zip es', p.1.metadataJson.SameProtoFields p.2.metadataJson := by
  have hcovered := covered_of_same_hash hinj hhex (fun e he => (hes e he).clean.1)
    (fun e he => (hes' e he).clean.1) (verifyChainRecords_ok_iff.mp h)
    (verifyChainRecords_ok_iff.mp h') hlast
  obtain ⟨hlength, hpairs⟩ := List.forall₂_iff_zip.mp hcovered
  have hpair : ∀ p ∈ es.zip es',
      (p.1.Same p.2 ↔ p.1.metadataJson.SameProtoFields p.2.metadataJson) := by
    intro p hp
    obtain ⟨hmem, hmem'⟩ := List.of_mem_zip hp
    obtain ⟨hpcovered, hphash⟩ := hpairs hp
    exact AuditEvent.same_iff (hes _ hmem) (hes' _ hmem') hpcovered hphash
  rw [List.forall₂_iff_zip]
  constructor
  · rintro ⟨-, hsame⟩ p hp
    exact (hpair p hp).mp (hsame hp)
  · exact fun hproto => ⟨hlength, fun {a b} hp => (hpair (a, b) hp).mpr (hproto (a, b) hp)⟩

end Chains

/-! ## A chain of one event -/

/-- A digest that is injective: six digits for each character. -/
def spelledOut (s : String) : String := String.ofList (s.toList.flatMap fun c => hexDigits 6 c.toNat)

theorem length_hexDigits (n h : ℕ) : (hexDigits n h).length = n := by
  induction n generalizing h with
  | zero => rfl
  | succ n ih => rw [hexDigits, List.length_append, ih, List.length_singleton]

theorem isHexDigit_of_mem_hexDigits {n h : ℕ} {c : Char} (hc : c ∈ hexDigits n h) :
    isHexDigit c = true := by
  have hdigit : ∀ d < 16, isHexDigit (Nat.digitChar d) = true := by decide
  induction n generalizing h with
  | zero => cases hc
  | succ n ih =>
    obtain hc | hc := List.mem_append.mp hc
    · exact ih hc
    · rw [List.mem_singleton.mp hc]
      exact hdigit _ (Nat.mod_lt _ (by decide))

theorem hexDigits_injective {n h h' : ℕ} (hlt : h < 16 ^ n) (hlt' : h' < 16 ^ n)
    (heq : hexDigits n h = hexDigits n h') : h = h' := by
  have hdigit : ∀ a < 16, ∀ b < 16, Nat.digitChar a = Nat.digitChar b → a = b := by decide
  induction n generalizing h h' with
  | zero => omega
  | succ n ih =>
    obtain ⟨hhigh, hlow⟩ := List.append_inj heq (by rw [length_hexDigits, length_hexDigits])
    have hdiv : h / 16 = h' / 16 :=
      ih (Nat.div_lt_of_lt_mul (by rw [← Nat.pow_succ']; exact hlt))
        (Nat.div_lt_of_lt_mul (by rw [← Nat.pow_succ']; exact hlt')) hhigh
    have hmod : h % 16 = h' % 16 :=
      hdigit _ (Nat.mod_lt _ (by decide)) _ (Nat.mod_lt _ (by decide)) (List.cons.inj hlow).1
    omega

theorem spelledOut_injective : Function.Injective spelledOut := by
  have hlist : ∀ cs ds : List Char,
      (cs.flatMap fun c => hexDigits 6 c.toNat) = (ds.flatMap fun c => hexDigits 6 c.toNat) → cs = ds := by
    intro cs
    induction cs with
    | nil =>
      intro ds h
      cases ds with
      | nil => rfl
      | cons d ds =>
        have hlength := congrArg List.length h
        simp [length_hexDigits] at hlength
        omega
    | cons c cs ih =>
      intro ds h
      cases ds with
      | nil =>
        have hlength := congrArg List.length h
        simp [length_hexDigits] at hlength
      | cons d ds =>
        rw [List.flatMap_cons, List.flatMap_cons] at h
        obtain ⟨hhead, htail⟩ := List.append_inj h (by rw [length_hexDigits, length_hexDigits])
        have hcd : c.toNat = d.toNat := by
          have hc := not_surrogate c
          have hd := not_surrogate d
          exact hexDigits_injective (by omega) (by omega) hhead
        rw [Char.toNat_inj.mp hcd, ih ds htail]
  intro s t h
  exact String.toList_inj.mp (hlist _ _ (String.ofList_injective h))

theorem isHex_spelledOut (s : String) : IsHex (spelledOut s) := by
  intro c hc
  rw [spelledOut, String.toList_ofList] at hc
  obtain ⟨d, -, hd⟩ := List.mem_flatMap.mp hc
  exact isHexDigit_of_mem_hexDigits hd

/-- The event, with the hash it should have. -/
def AuditEvent.hashed (sha256 : String → String) (fmt : NumberFormat) (e : AuditEvent) : AuditEvent :=
  { e with hash := hashAuditEvent sha256 fmt e e.prevHash }

theorem chained_hashed {sha256 : String → String} {fmt : NumberFormat} {e : AuditEvent}
    (hsequence : e.sequence = 1) (hprev : e.prevHash = "") :
    (verifyChainRecords sha256 fmt [e.hashed sha256 fmt]).ok = true := by
  refine verifyChainRecords_ok_iff.mpr ⟨⟨hsequence, hprev, ?_⟩, trivial⟩
  show hashAuditEvent sha256 fmt e "" = hashAuditEvent sha256 fmt e e.prevHash
  rw [hprev]

/-- The first event of a client. -/
def firstEvent (metadata : List (String × Json)) : AuditEvent :=
  { id := "event", clientId := "acme", sequence := 1, actor := { type := .user, id := "ann" }
    action := "scan.created", summary := "Scan created.", metadata := ofJsonFields metadata
    prevHash := "", hash := "", at_ := "1970-01-01T00:00:00.000Z" }

theorem firstEvent_isJson {metadata : List (String × Json)} (h : (Json.obj metadata).distinct = true) :
    ∀ e ∈ [(firstEvent metadata).hashed spelledOut fractionFormat], e.IsJson := by
  intro e he
  rw [List.mem_singleton.mp he]
  exact ⟨metadata, h, rfl⟩

/-- The hash does not depend on the order of keys, nor on fields called `__proto__`. -/
theorem hash_firstEvent {metadata metadata' : List (String × Json)}
    (h : (Json.obj metadata).distinct = true) (h' : (Json.obj metadata').distinct = true)
    (hsame : (Json.obj metadata).ordered notProto = (Json.obj metadata').ordered notProto) :
    ((firstEvent metadata).hashed spelledOut fractionFormat).hash =
      ((firstEvent metadata').hashed spelledOut fractionFormat).hash := by
  have hclean : ∀ {m : List (String × Json)}, (Json.obj m).distinct = true → (firstEvent m).Clean :=
    fun hm => ⟨plain_ofJson (.obj _), distinct_ofJson hm⟩
  have hjson : ∀ m : List (String × Json), (firstEvent m).metadataJson = .obj m := fun m =>
    Option.some.inj (toJson_ofJson (.obj m))
  have hcanonical : canonicalJson fractionFormat (auditHashPayload (firstEvent metadata)) =
      canonicalJson fractionFormat (auditHashPayload (firstEvent metadata')) :=
    (canonicalJson_payload_eq_iff (hclean h) (hclean h')).mpr ⟨rfl, by rw [hjson, hjson, hsame]⟩
  exact congrArg (fun text => spelledOut ("" ++ text)) hcanonical

/-- Two texts of the same event. -/
theorem chain_same_iff_of_reordered :
    List.Forall₂ AuditEvent.Same
        [(firstEvent [("b", .num 2), ("a", .num 1)]).hashed spelledOut fractionFormat]
        [(firstEvent [("a", .num 1), ("b", .num 2)]).hashed spelledOut fractionFormat] ↔
      ∀ p ∈ List.zip [(firstEvent [("b", .num 2), ("a", .num 1)]).hashed spelledOut fractionFormat]
        [(firstEvent [("a", .num 1), ("b", .num 2)]).hashed spelledOut fractionFormat],
        p.1.metadataJson.SameProtoFields p.2.metadataJson := by
  refine chain_same_iff spelledOut_injective isHex_spelledOut (firstEvent_isJson (by decide))
    (firstEvent_isJson (by decide)) (chained_hashed rfl rfl) (chained_hashed rfl rfl) ?_
  exact congrArg some (hash_firstEvent (by decide) (by decide) rfl)

/-- A field called `__proto__` is not covered: two accepted chains with the same hash differ in it. -/
theorem chain_not_same :
    ¬∀ (sha256 : String → String) (fmt : NumberFormat) (es es' : List AuditEvent),
      Function.Injective sha256 → (∀ s, IsHex (sha256 s)) → (∀ e ∈ es, e.IsJson) →
      (∀ e ∈ es', e.IsJson) → (verifyChainRecords sha256 fmt es).ok = true →
      (verifyChainRecords sha256 fmt es').ok = true →
      es.getLast?.map AuditEvent.hash = es'.getLast?.map AuditEvent.hash →
      List.Forall₂ AuditEvent.Same es es' := by
  intro hall
  have hsame := hall spelledOut fractionFormat
    [(firstEvent []).hashed spelledOut fractionFormat]
    [(firstEvent [("__proto__", .str "admin")]).hashed spelledOut fractionFormat]
    spelledOut_injective isHex_spelledOut (firstEvent_isJson (by decide))
    (firstEvent_isJson (by decide)) (chained_hashed rfl rfl) (chained_hashed rfl rfl)
    (congrArg some (hash_firstEvent (by decide) (by decide) rfl))
  cases hsame with
  | cons hhead _ =>
    have hfields := Json.obj.inj hhead.2
    cases hfields

end MontrSecure
