import MontrSecure.Contracts.Basic
import MontrSecure.Text.Utf16
import Mathlib.Data.List.Lex
import Mathlib.Data.List.Sort

/-!
# Objects of JSON values

The keys of an object are different and come in an order, which is not part of what the object is:
`Json.Same` compares values up to it. `ordered` puts the keys in the order of `Array.prototype.sort`
and leaves keys out; values are the same when their ordered forms are.
-/

namespace MontrSecure

open Text

/-! ## Induction -/

/-- A value that is not a container. -/
def Json.isLeaf : Json → Bool
  | .arr _ | .obj _ => false
  | _ => true

/-- Induction over the members of a value. -/
theorem Json.members_induction {P : Json → Prop} (leaf : ∀ v : Json, v.isLeaf = true → P v)
    (arr : ∀ items, (∀ v ∈ items, P v) → P (.arr items))
    (obj : ∀ fields, (∀ f ∈ fields, P f.2) → P (.obj fields)) (v : Json) : P v := by
  refine Json.rec (motive_1 := P) (motive_2 := fun items => ∀ v ∈ items, P v)
    (motive_3 := fun fields => ∀ f ∈ fields, P f.2) (motive_4 := fun f => P f.2)
    (leaf _ rfl) (fun _ => leaf _ rfl) (fun _ => leaf _ rfl) (fun _ => leaf _ rfl) arr obj ?_ ?_ ?_ ?_
    (fun _ _ h => h) v
  · exact fun _ h => nomatch h
  · exact fun v items hv hitems => List.forall_mem_cons.mpr ⟨hv, hitems⟩
  · exact fun _ h => nomatch h
  · exact fun f fields hf hfields => List.forall_mem_cons.mpr ⟨hf, hfields⟩

/-! ## Keys -/

section Fields

variable {α β : Type}

/-- The order of keys by code units. -/
def fieldLe (f g : String × α) : Prop := units f.1 ≤ units g.1

instance : DecidableRel (fieldLe (α := α)) := fun f g => inferInstanceAs (Decidable (units f.1 ≤ units g.1))

instance : Std.Total (fieldLe (α := α)) := ⟨fun f g => le_total (units f.1) (units g.1)⟩

instance : IsTrans (String × α) fieldLe := ⟨fun _ _ _ hfg hgh => le_trans hfg hgh⟩

/-- `Object.keys(fields).sort()`, with the values. -/
def sortFields (fields : List (String × α)) : List (String × α) := fields.insertionSort fieldLe

/-- The keys of an object. -/
abbrev keysOf (fields : List (String × α)) : List String := fields.map (·.1)

theorem sortFields_perm (fields : List (String × α)) : (sortFields fields).Perm fields :=
  List.perm_insertionSort _ fields

@[simp]
theorem mem_sortFields {fields : List (String × α)} {f : String × α} :
    f ∈ sortFields fields ↔ f ∈ fields :=
  (sortFields_perm fields).mem_iff

/-- There is one way to put different keys in order. -/
theorem eq_of_sorted {fs gs : List (String × α)} (hfs : fs.Pairwise fieldLe) (hgs : gs.Pairwise fieldLe)
    (hnodup : (keysOf fs).Nodup) (hperm : fs.Perm gs) : fs = gs := by
  refine hperm.eq_of_pairwise (fun f g hf hg hfg hgf => ?_) hfs hgs
  have hkey : f.1 = g.1 := units_injective (le_antisymm hfg hgf)
  exact List.inj_on_of_nodup_map hnodup hf (hperm.mem_iff.mpr hg) hkey

/-- Sorting forgets the order there was. -/
theorem sortFields_eq_iff {fs gs : List (String × α)} (hnodup : (keysOf fs).Nodup) :
    sortFields fs = sortFields gs ↔ fs.Perm gs := by
  constructor
  · intro h
    exact (sortFields_perm fs).symm.trans (h ▸ sortFields_perm gs)
  · intro h
    refine eq_of_sorted (List.pairwise_insertionSort _ _) (List.pairwise_insertionSort _ _) ?_
      ((sortFields_perm fs).trans (h.trans (sortFields_perm gs).symm))
    exact ((sortFields_perm fs).map _).nodup_iff.mpr hnodup

end Fields

theorem nodup_sortFields {α : Type} {fields : List (String × α)} (h : (keysOf fields).Nodup) :
    (keysOf (sortFields fields)).Nodup :=
  ((sortFields_perm fields).map _).nodup_iff.mpr h

theorem eq_of_mem_of_nodup {α : Type} {fields : List (String × α)} {k : String} {v w : α}
    (hkeys : (keysOf fields).Nodup) (hv : (k, v) ∈ fields) (hw : (k, w) ∈ fields) : v = w := by
  have hpair : (k, v) = (k, w) := List.inj_on_of_nodup_map hkeys hv hw rfl
  exact (Prod.mk.inj hpair).2

/-! ## Values up to the order of keys -/

mutual
/-- The value without the fields whose keys `keep` rejects, its keys in order. -/
def Json.ordered (keep : String → Bool) : Json → Json
  | .arr items => .arr (orderedItems keep items)
  | .obj fields => .obj (sortFields (orderedFields keep fields))
  | v => v

/-- `ordered` for the items of an array. -/
def orderedItems (keep : String → Bool) : List Json → List Json
  | [] => []
  | v :: items => v.ordered keep :: orderedItems keep items

/-- `ordered` for the fields of an object, which are not put in order yet. -/
def orderedFields (keep : String → Bool) : List (String × Json) → List (String × Json)
  | [] => []
  | (k, v) :: fields =>
    if keep k then (k, v.ordered keep) :: orderedFields keep fields else orderedFields keep fields
end

/-- Keep every key. -/
abbrev everyKey : String → Bool := fun _ => true

/-- The same value up to the order of keys. -/
def Json.Same (v w : Json) : Prop := v.ordered everyKey = w.ordered everyKey

mutual
/-- No object in the value has a key twice. -/
def Json.distinct : Json → Bool
  | .arr items => distinctItems items
  | .obj fields => decide (keysOf fields).Nodup && distinctFields fields
  | _ => true

/-- `distinct` for the items of an array. -/
def distinctItems : List Json → Bool
  | [] => true
  | v :: items => v.distinct && distinctItems items

/-- `distinct` for the values of an object. -/
def distinctFields : List (String × Json) → Bool
  | [] => true
  | (_, v) :: fields => v.distinct && distinctFields fields
end

variable {keep keep' : String → Bool}

theorem orderedItems_eq (items : List Json) : orderedItems keep items = items.map (Json.ordered keep) := by
  induction items with
  | nil => rfl
  | cons v items ih => rw [orderedItems, ih, List.map_cons]

theorem orderedFields_eq (fields : List (String × Json)) :
    orderedFields keep fields =
      (fields.filter fun f => keep f.1).map fun f => (f.1, f.2.ordered keep) := by
  induction fields with
  | nil => rfl
  | cons f fields ih =>
    obtain ⟨k, v⟩ := f
    rw [orderedFields, List.filter_cons, ih]
    split <;> rfl

theorem ordered_of_isLeaf {v : Json} (h : v.isLeaf = true) : v.ordered keep = v := by
  cases v <;> first | rfl | cases h

theorem distinct_arr {items : List Json} :
    (Json.arr items).distinct = true ↔ ∀ v ∈ items, v.distinct = true := by
  show distinctItems items = true ↔ _
  induction items with
  | nil => simp [distinctItems]
  | cons v items ih => rw [distinctItems, Bool.and_eq_true, ih, List.forall_mem_cons]

theorem distinct_obj {fields : List (String × Json)} :
    (Json.obj fields).distinct = true ↔
      (keysOf fields).Nodup ∧ ∀ f ∈ fields, f.2.distinct = true := by
  have hfields : distinctFields fields = true ↔ ∀ f ∈ fields, f.2.distinct = true := by
    induction fields with
    | nil => simp [distinctFields]
    | cons f fields ih => rw [distinctFields, Bool.and_eq_true, ih, List.forall_mem_cons]
  rw [Json.distinct, Bool.and_eq_true, decide_eq_true_eq, hfields]

/-- The keys that are kept are different. -/
theorem nodup_orderedFields {fields : List (String × Json)} (h : (keysOf fields).Nodup) :
    (keysOf (orderedFields keep fields)).Nodup := by
  rw [orderedFields_eq, keysOf, List.map_map]
  have hsub : ((fields.filter fun f => keep f.1).map (·.1)).Sublist (keysOf fields) :=
    List.filter_sublist.map _
  exact hsub.nodup h

theorem orderedFields_perm {fs gs : List (String × Json)} (h : fs.Perm gs) :
    (orderedFields keep fs).Perm (orderedFields keep gs) := by
  rw [orderedFields_eq, orderedFields_eq]
  exact (h.filter _).map _

theorem mem_orderedFields {fields : List (String × Json)} {k : String} {w : Json} :
    (k, w) ∈ orderedFields keep fields ↔
      keep k = true ∧ ∃ v, (k, v) ∈ fields ∧ v.ordered keep = w := by
  rw [orderedFields_eq, List.mem_map]
  constructor
  · rintro ⟨f, hf, h⟩
    obtain ⟨hmem, hk⟩ := List.mem_filter.mp hf
    cases h
    exact ⟨hk, f.2, hmem, rfl⟩
  · rintro ⟨hk, v, hmem, rfl⟩
    exact ⟨(k, v), List.mem_filter.mpr ⟨hmem, hk⟩, rfl⟩

/-- The same objects have the same fields, and conversely. -/
theorem ordered_obj_eq_iff {fields fields' : List (String × Json)}
    (hkeys : (keysOf fields).Nodup) (hkeys' : (keysOf fields').Nodup) :
    (Json.obj fields).ordered keep = (Json.obj fields').ordered keep ↔
      ∀ k w, (k, w) ∈ orderedFields keep fields ↔ (k, w) ∈ orderedFields keep fields' := by
  rw [Json.ordered, Json.ordered, Json.obj.injEq, sortFields_eq_iff (nodup_orderedFields hkeys),
    List.perm_ext_iff_of_nodup (nodup_orderedFields hkeys).of_map (nodup_orderedFields hkeys').of_map]
  exact Prod.forall

/-- Of two orderings the outer one decides about the order, and both about the keys. -/
theorem ordered_ordered {v : Json} (hv : v.distinct = true) :
    (v.ordered keep').ordered keep = v.ordered fun k => keep' k && keep k := by
  induction v using Json.members_induction with
  | leaf v hleaf => rw [ordered_of_isLeaf hleaf, ordered_of_isLeaf hleaf, ordered_of_isLeaf hleaf]
  | arr items ih =>
    simp only [Json.ordered, orderedItems_eq, List.map_map, Json.arr.injEq]
    exact List.map_congr_left fun v hmem => ih v hmem (distinct_arr.mp hv v hmem)
  | obj fields ih =>
    obtain ⟨hkeys, hfields⟩ := distinct_obj.mp hv
    have hinner : orderedFields keep (orderedFields keep' fields) =
        orderedFields (fun k => keep' k && keep k) fields := by
      rw [orderedFields_eq, orderedFields_eq, orderedFields_eq, List.filter_map, List.map_map,
        List.filter_filter]
      have hkeep : (fields.filter fun f => keep f.1 && keep' f.1) =
          fields.filter fun f => keep' f.1 && keep f.1 :=
        List.filter_congr fun f _ => Bool.and_comm _ _
      refine (congrArg _ hkeep).trans (List.map_congr_left fun f hf => ?_)
      have hmem : f ∈ fields := List.mem_of_mem_filter hf
      exact congrArg (Prod.mk f.1) (ih f hmem (hfields f hmem))
    simp only [Json.ordered, Json.obj.injEq]
    rw [← hinner]
    exact (sortFields_eq_iff (nodup_orderedFields (nodup_sortFields (nodup_orderedFields hkeys)))).mpr
      (orderedFields_perm (sortFields_perm _))

/-- Ordering keeps keys different. -/
theorem distinct_ordered {v : Json} (hv : v.distinct = true) : (v.ordered keep).distinct = true := by
  induction v using Json.members_induction with
  | leaf v hleaf => rwa [ordered_of_isLeaf hleaf]
  | arr items ih =>
    rw [Json.ordered, distinct_arr, orderedItems_eq]
    intro w hw
    obtain ⟨v, hmem, rfl⟩ := List.mem_map.mp hw
    exact ih v hmem (distinct_arr.mp hv v hmem)
  | obj fields ih =>
    obtain ⟨hkeys, hfields⟩ := distinct_obj.mp hv
    rw [Json.ordered, distinct_obj]
    refine ⟨nodup_sortFields (nodup_orderedFields hkeys), fun f hf => ?_⟩
    rw [mem_sortFields, orderedFields_eq] at hf
    obtain ⟨g, hg, rfl⟩ := List.mem_map.mp hf
    have hmem : g ∈ fields := List.mem_of_mem_filter hg
    exact ih g hmem (hfields g hmem)

/-- What is the same stays the same without some keys. -/
theorem Json.Same.ordered {v w : Json} (h : v.Same w) (hv : v.distinct = true)
    (hw : w.distinct = true) : v.ordered keep = w.ordered keep := by
  have hthrough : ∀ u : Json, u.distinct = true → u.ordered keep = (u.ordered everyKey).ordered keep := by
    intro u hu
    rw [ordered_ordered hu]
    simp
  rw [hthrough v hv, hthrough w hw, h]

end MontrSecure
