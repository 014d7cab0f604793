import Mathlib.Data.List.Induction
import Mathlib.Data.List.Nodup
import Mathlib.Data.List.Perm.Basic

/-!
# Grouping by a key

Items are put into buckets by a key. The buckets stand in the order in which their keys are first
seen, the items of a bucket in the order in which they come. No bucket is empty.

`mem_buckets_iff` says what the buckets are without their order: for every key there is one bucket,
and it holds the items with that key.
-/

/-- The items of one key: there is a first one. -/
structure KeyGroup (κ α : Type*) where
  key : κ
  head : α
  tail : List α

namespace KeyGroup

variable {κ α : Type*}

/-- The items of a bucket. -/
def items (b : KeyGroup κ α) : List α := b.head :: b.tail

theorem ext_items {b c : KeyGroup κ α} (hkey : b.key = c.key) (hitems : b.items = c.items) : b = c := by
  cases b
  cases c
  obtain ⟨rfl, rfl⟩ := List.cons.inj hitems
  cases hkey
  rfl

theorem head_mem (b : KeyGroup κ α) : b.head ∈ b.items := List.mem_cons_self

variable [DecidableEq κ]

/-- Put an item into the bucket of its key, into a new one at the end when there is none. -/
def insert (k : κ) (a : α) : List (KeyGroup κ α) → List (KeyGroup κ α)
  | [] => [{ key := k, head := a, tail := [] }]
  | b :: rest =>
    if b.key = k then { b with tail := b.tail ++ [a] } :: rest else b :: insert k a rest

/-- Group the items by `key`. -/
def group (key : α → κ) (as : List α) : List (KeyGroup κ α) :=
  as.foldl (fun bs a => insert (key a) a bs) []

variable {f : α → κ} {as : List α}

theorem group_append_singleton (a : α) : group f (as ++ [a]) = insert (f a) a (group f as) := by
  simp [group]

example : (group (· % 2) [1, 2, 3]).map KeyGroup.items = [[1, 3], [2]] := by decide +kernel

/-! ## Nothing is lost -/

theorem flatMap_items_insert (k : κ) (a : α) (bs : List (KeyGroup κ α)) :
    ((insert k a bs).flatMap items).Perm (a :: bs.flatMap items) := by
  induction bs with
  | nil => exact List.Perm.refl _
  | cons b bs ih =>
    unfold insert
    split
    · have hitems : items { b with tail := b.tail ++ [a] } = b.items ++ [a] := rfl
      rw [List.flatMap_cons, List.flatMap_cons, hitems, List.append_assoc]
      exact List.perm_middle
    · rw [List.flatMap_cons, List.flatMap_cons]
      exact (ih.append_left b.items).trans List.perm_middle

/-- Every item is in exactly one bucket, as often as it comes. -/
theorem flatMap_items_group : ((group f as).flatMap items).Perm as := by
  induction as using List.reverseRecOn with
  | nil => exact List.Perm.refl _
  | append_singleton as a ih =>
    rw [group_append_singleton]
    exact ((flatMap_items_insert _ _ _).trans (ih.cons a)).trans
      (List.perm_append_singleton a as).symm

/-! ## The buckets by key -/

theorem keys_insert (k : κ) (a : α) (bs : List (KeyGroup κ α)) :
    (insert k a bs).map KeyGroup.key =
      if k ∈ bs.map KeyGroup.key then bs.map KeyGroup.key else bs.map KeyGroup.key ++ [k] := by
  induction bs with
  | nil => rfl
  | cons b bs ih =>
    unfold insert
    by_cases hb : b.key = k
    · simp [hb]
    · rw [if_neg hb, List.map_cons, ih]
      have hk : ¬k = b.key := fun h => hb h.symm
      by_cases hmem : k ∈ bs.map KeyGroup.key
      · simp [hmem]
      · simp [hmem, hk]

/-- There is one bucket for a key. -/
theorem nodup_keys_group : ((group f as).map KeyGroup.key).Nodup := by
  induction as using List.reverseRecOn with
  | nil => exact List.nodup_nil
  | append_singleton as a ih =>
    rw [group_append_singleton, keys_insert]
    split
    · exact ih
    · rename_i hfresh
      exact List.nodup_append.mpr ⟨ih, List.nodup_singleton _, by
        rintro k hk _ hsingle rfl
        rw [List.mem_singleton] at hsingle
        exact hfresh (hsingle ▸ hk)⟩

/-- The buckets are those of the items that came before, but for the one the item goes into. -/
theorem mem_insert_iff {k : κ} {a : α} {bs : List (KeyGroup κ α)} (hnodup : (bs.map KeyGroup.key).Nodup)
    {b : KeyGroup κ α} :
    b ∈ insert k a bs ↔
      b ∈ bs ∧ b.key ≠ k ∨
        b.key = k ∧ b.items = (bs.filter (·.key = k)).flatMap items ++ [a] := by
  induction bs with
  | nil =>
    simp only [insert, List.mem_singleton, List.not_mem_nil, false_and, false_or, List.filter_nil,
      List.flatMap_nil, List.nil_append]
    constructor
    · rintro rfl
      exact ⟨rfl, rfl⟩
    · rintro ⟨hkey, hitems⟩
      exact ext_items hkey hitems
  | cons c bs ih =>
    obtain ⟨hc, hnodup⟩ := List.nodup_cons.mp hnodup
    have hne : ∀ b ∈ bs, b.key ≠ c.key := fun b hb h => hc (h ▸ List.mem_map_of_mem hb)
    unfold insert
    by_cases hkey : c.key = k
    · have hnone : bs.filter (·.key = k) = [] := by
        rw [List.filter_eq_nil_iff]
        intro b hb
        simpa [← hkey] using hne b hb
      have hadd : items { c with tail := c.tail ++ [a] } = c.items ++ [a] := rfl
      rw [if_pos hkey, List.mem_cons, List.mem_cons, List.filter_cons_of_pos (by simpa using hkey),
        hnone, List.flatMap_cons, List.flatMap_nil, List.append_nil]
      constructor
      · rintro (rfl | hb)
        · exact .inr ⟨hkey, hadd⟩
        · exact .inl ⟨.inr hb, hkey ▸ hne b hb⟩
      · rintro (⟨rfl | hb, hbk⟩ | ⟨hbk, hitems⟩)
        · exact absurd hkey hbk
        · exact .inr hb
        · exact .inl (ext_items (hbk.trans hkey.symm) (hitems.trans hadd.symm))
    · rw [if_neg hkey, List.mem_cons, List.mem_cons, ih hnodup,
        List.filter_cons_of_neg (by simpa using hkey)]
      constructor
      · rintro (rfl | ⟨hb, hbk⟩ | hb)
        · exact .inl ⟨.inl rfl, hkey⟩
        · exact .inl ⟨.inr hb, hbk⟩
        · exact .inr hb
      · rintro (⟨rfl | hb, hbk⟩ | hb)
        · exact .inl rfl
        · exact .inr (.inl ⟨hb, hbk⟩)
        · exact .inr (.inr hb)

/-- There is one bucket with the key of `b`. -/
theorem filter_key_of_mem {bs : List (KeyGroup κ α)} (hnodup : (bs.map KeyGroup.key).Nodup)
    {b : KeyGroup κ α} (hb : b ∈ bs) : bs.filter (·.key = b.key) = [b] := by
  induction bs with
  | nil => cases hb
  | cons c bs ih =>
    obtain ⟨hc, hnodup⟩ := List.nodup_cons.mp hnodup
    obtain rfl | hb := List.mem_cons.mp hb
    · have hnone : bs.filter (·.key = b.key) = [] := by
        rw [List.filter_eq_nil_iff]
        intro d hd
        simpa using fun h : d.key = b.key => hc (h ▸ List.mem_map_of_mem hd)
      rw [List.filter_cons_of_pos (by simp), hnone]
    · have hne : ¬c.key = b.key := fun h => hc (h ▸ List.mem_map_of_mem hb)
      rw [List.filter_cons_of_neg (by simpa using hne), ih hnodup hb]

/-- The buckets of a key together, when each holds the items with its key. -/
theorem flatMap_items_filter {bs : List (KeyGroup κ α)} (hnodup : (bs.map KeyGroup.key).Nodup)
    (hperm : (bs.flatMap items).Perm as) (hitems : ∀ b ∈ bs, b.items = as.filter (f · = b.key))
    (k : κ) : (bs.filter (·.key = k)).flatMap items = as.filter (f · = k) := by
  by_cases hk : ∃ b ∈ bs, b.key = k
  · obtain ⟨b, hb, rfl⟩ := hk
    rw [filter_key_of_mem hnodup hb, List.flatMap_cons, List.flatMap_nil, List.append_nil, hitems b hb]
  · have hnone : bs.filter (·.key = k) = [] := by
      rw [List.filter_eq_nil_iff]
      intro b hb
      simpa using fun h => hk ⟨b, hb, h⟩
    have hempty : as.filter (f · = k) = [] := by
      rw [List.filter_eq_nil_iff]
      intro a ha
      obtain ⟨b, hb, hab⟩ := List.mem_flatMap.mp (hperm.mem_iff.mpr ha)
      rw [hitems b hb, List.mem_filter, decide_eq_true_eq] at hab
      simpa [hab.2] using fun h => hk ⟨b, hb, h⟩
    rw [hnone, hempty, List.flatMap_nil]

/-- A bucket holds the items with its key, in the order in which they come. -/
theorem items_of_mem_group {b : KeyGroup κ α} (h : b ∈ group f as) :
    b.items = as.filter (f · = b.key) := by
  induction as using List.reverseRecOn generalizing b with
  | nil => cases h
  | append_singleton as a ih =>
    rw [group_append_singleton, mem_insert_iff nodup_keys_group,
      flatMap_items_filter nodup_keys_group flatMap_items_group fun b hb => ih hb] at h
    rw [List.filter_append]
    obtain ⟨hb, hkey⟩ | ⟨hkey, hitems⟩ := h
    · have hne : ¬f a = b.key := fun h => hkey h.symm
      simp [hne, ih hb]
    · rw [hitems, hkey]
      simp

/-- The bucket an item is in. -/
theorem exists_mem_group {a : α} (h : a ∈ as) :
    ∃ b ∈ group f as, a ∈ b.items ∧ b.key = f a := by
  have hflat : a ∈ (group f as).flatMap items := flatMap_items_group.mem_iff.mpr h
  obtain ⟨b, hb, hab⟩ := List.mem_flatMap.mp hflat
  have hkey := hab
  rw [items_of_mem_group hb, List.mem_filter, decide_eq_true_eq] at hkey
  exact ⟨b, hb, hab, hkey.2.symm⟩

/-- The buckets, without their order: one for each key, with the items that have it. -/
theorem mem_group_iff {b : KeyGroup κ α} :
    b ∈ group f as ↔ b.items = as.filter (f · = b.key) := by
  refine ⟨items_of_mem_group, fun h => ?_⟩
  have hhead := b.head_mem
  rw [h, List.mem_filter, decide_eq_true_eq] at hhead
  obtain ⟨c, hc, -, hkey⟩ := exists_mem_group (f := f) hhead.1
  have hsame : c.key = b.key := hkey.trans hhead.2
  have hitems : c.items = b.items := by rw [items_of_mem_group hc, h, hsame]
  exact ext_items hsame hitems ▸ hc

/-! ## The order of the items -/

/-- A key has a bucket when an item has it. -/
theorem mem_keys_group {k : κ} : k ∈ (group f as).map KeyGroup.key ↔ ∃ a ∈ as, f a = k := by
  constructor
  · intro h
    obtain ⟨b, hb, rfl⟩ := List.mem_map.mp h
    have hhead := b.head_mem
    rw [items_of_mem_group hb, List.mem_filter, decide_eq_true_eq] at hhead
    exact ⟨b.head, hhead⟩
  · rintro ⟨a, ha, rfl⟩
    obtain ⟨b, hb, -, hkey⟩ := exists_mem_group (f := f) ha
    exact hkey ▸ List.mem_map_of_mem hb

/-- The order of the items has no part in which keys there are. -/
theorem perm_keys_group {as' : List α} (h : as.Perm as') :
    ((group f as).map KeyGroup.key).Perm ((group f as').map KeyGroup.key) := by
  rw [List.perm_ext_iff_of_nodup nodup_keys_group nodup_keys_group]
  intro k
  rw [mem_keys_group, mem_keys_group]
  simp only [h.mem_iff]

/-- Nor, up to their order, in what the buckets of a key hold. -/
theorem perm_items_group {as' : List α} (h : as.Perm as') {b b' : KeyGroup κ α}
    (hb : b ∈ group f as) (hb' : b' ∈ group f as') (hkey : b.key = b'.key) :
    b.items.Perm b'.items := by
  rw [items_of_mem_group hb, items_of_mem_group hb', hkey]
  exact h.filter _

/-- What is read off the buckets key by key does not depend on the order of the items. -/
theorem perm_filterMap_group {β : Type*} {as' : List α} (h : as.Perm as')
    {g g' : KeyGroup κ α → Option β}
    (hg : ∀ b ∈ group f as, ∀ b' ∈ group f as', b.key = b'.key → g b = g' b') :
    ((group f as).filterMap g).Perm ((group f as').filterMap g') := by
  -- Both are read off the keys, by the bucket that the key has in the first grouping.
  have hread : ∀ bs : List (KeyGroup κ α), ∀ r : KeyGroup κ α → Option β,
      (∀ b ∈ bs, ∃ c ∈ group f as, c.key = b.key ∧ g c = r b) →
        bs.filterMap r = (bs.map KeyGroup.key).filterMap fun k =>
          ((group f as).find? (·.key = k)).bind g := by
    intro bs r hbs
    rw [List.filterMap_map]
    refine List.filterMap_congr fun b hb => ?_
    obtain ⟨c, hc, hkey, hr⟩ := hbs b hb
    have hfind : (group f as).find? (·.key = b.key) = some c := by
      rw [← List.head?_filter, ← hkey, filter_key_of_mem nodup_keys_group hc, List.head?_cons]
    simp [hfind, hr]
  rw [hread _ g fun b hb => ⟨b, hb, rfl, rfl⟩, hread (group f as') g' fun b' hb' => ?_]
  · exact (perm_keys_group h).filterMap _
  · have hmem : b'.key ∈ (group f as).map KeyGroup.key :=
      (perm_keys_group h).mem_iff.mpr (List.mem_map_of_mem hb')
    obtain ⟨b, hb, hkey⟩ := List.mem_map.mp hmem
    exact ⟨b, hb, hkey, hg b hb b' hb' hkey⟩

/-- The keys stand in the order in which they are first seen. -/
theorem keys_group_prefix (bs : List α) :
    (group f as).map KeyGroup.key <+: (group f (as ++ bs)).map KeyGroup.key := by
  induction bs using List.reverseRecOn with
  | nil => simp
  | append_singleton bs b ih =>
    rw [← List.append_assoc, group_append_singleton, keys_insert]
    split
    · exact ih
    · exact ih.trans (List.prefix_append _ _)

end KeyGroup
