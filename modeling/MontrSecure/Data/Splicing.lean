import Mathlib.Data.List.Pairwise
import Mathlib.Data.List.Perm.Basic
import Mathlib.Data.List.TakeDrop

/-!
# Splicing

Stretches of a list give way to other elements. Stretches with no element in common can be spliced one by one,
the last one first: the outcome is what one walk over the list writes, whatever the order they come in.
-/

namespace MontrSecure

/-- The elements `first` to `last`, counted from one and both included, give way to `items`. -/
structure Splice (α : Type*) where
  first : ℕ
  last : ℕ
  items : List α

namespace Splice

variable {α β : Type*}

/-- The list after one splice. -/
def apply (splice : Splice α) (l : List α) : List α :=
  l.take (splice.first - 1) ++ splice.items ++ l.drop splice.last

/-- The `n`-th element gives way. -/
def Covers (splice : Splice α) (n : ℕ) : Prop := splice.first ≤ n ∧ n ≤ splice.last

instance (splice : Splice α) (n : ℕ) : Decidable (splice.Covers n) := inferInstanceAs (Decidable (_ ∧ _))

/-- The stretch has an element, and lies within a list of `size` elements. -/
def Fits (splice : Splice α) (size : ℕ) : Prop :=
  1 ≤ splice.first ∧ splice.first ≤ splice.last ∧ splice.last ≤ size

/-- The stretches have no element in common. -/
def Apart (a b : Splice α) : Prop := a.last < b.first ∨ b.last < a.first

instance : Std.Symm (Apart (α := α)) := ⟨fun _ _ => Or.symm⟩

/-- The splice that puts `f x` for each of its items. -/
def flatMap (f : α → List β) (splice : Splice α) : Splice β :=
  { first := splice.first, last := splice.last, items := splice.items.flatMap f }

@[simp] theorem first_flatMap (f : α → List β) (splice : Splice α) : (splice.flatMap f).first = splice.first := rfl

@[simp] theorem covers_flatMap (f : α → List β) (splice : Splice α) (n : ℕ) :
    (splice.flatMap f).Covers n ↔ splice.Covers n := Iff.rfl

/-! ## The walk -/

/-- What the walk writes when it is at `x`, the `n`-th element. -/
def emit (splices : List (Splice α)) (x : α) (n : ℕ) : List α :=
  match splices.find? fun splice => splice.Covers n with
  | none => [x]
  | some splice => if splice.first = n then splice.items else []

/-- The walk over `l`, whose first element is the `n`-th. -/
def walkFrom (splices : List (Splice α)) (n : ℕ) (l : List α) : List α :=
  (l.zipIdx n).flatMap fun x => emit splices x.1 x.2

/-- The walk over a whole list. -/
def walk (splices : List (Splice α)) (l : List α) : List α := walkFrom splices 1 l

theorem emit_of_forall_not_covers {splices : List (Splice α)} {n : ℕ} (x : α)
    (h : ∀ splice ∈ splices, ¬splice.Covers n) : emit splices x n = [x] := by
  have : splices.find? (fun splice => splice.Covers n) = none := by simpa using h
  simp [emit, this]

theorem emit_cons_of_covers {splice : Splice α} {n : ℕ} (splices : List (Splice α)) (x : α)
    (h : splice.Covers n) :
    emit (splice :: splices) x n = if splice.first = n then splice.items else [] := by
  simp [emit, h]

theorem emit_cons_of_not_covers {splice : Splice α} {n : ℕ} (splices : List (Splice α)) (x : α)
    (h : ¬splice.Covers n) : emit (splice :: splices) x n = emit splices x n := by
  simp [emit, h]

theorem walkFrom_append (splices : List (Splice α)) (n : ℕ) (l m : List α) :
    walkFrom splices n (l ++ m) = walkFrom splices n l ++ walkFrom splices (n + l.length) m := by
  simp [walkFrom, List.zipIdx_append]

theorem walkFrom_congr {splices others : List (Splice α)} {n : ℕ} {l : List α}
    (h : ∀ x, ∀ k, n ≤ k → k < n + l.length → emit splices x k = emit others x k) :
    walkFrom splices n l = walkFrom others n l := by
  refine List.flatMap_congr fun x hx => ?_
  exact h x.1 x.2 (List.le_snd_of_mem_zipIdx hx) (List.snd_lt_add_of_mem_zipIdx hx)

/-- Where no splice begins yet, the walk writes what it reads. -/
theorem walkFrom_of_before {splices : List (Splice α)} {n : ℕ} {l : List α}
    (h : ∀ splice ∈ splices, n + l.length ≤ splice.first) : walkFrom splices n l = l := by
  have hkeep : ∀ x ∈ l.zipIdx n, emit splices x.1 x.2 = [x.1] := by
    intro x hx
    apply emit_of_forall_not_covers
    intro splice hs hcovers
    have hlt := List.snd_lt_add_of_mem_zipIdx hx
    have hfirst := hcovers.1
    have := h splice hs
    omega
  rw [walkFrom, List.flatMap_congr hkeep, ← List.map_eq_flatMap, List.zipIdx_map_fst]

/-- Over its own stretch, the walk writes the items of a splice. -/
theorem walkFrom_stretch {splice : Splice α} {l : List α} (splices : List (Splice α))
    (hpos : l ≠ []) (hlast : splice.first + l.length = splice.last + 1) :
    walkFrom (splice :: splices) splice.first l = splice.items := by
  rcases l with _ | ⟨x, l⟩
  · exact absurd rfl hpos
  simp only [List.length_cons] at hlast
  -- The items come with the first element, and nothing with the others.
  have hfirst : emit (splice :: splices) x splice.first = splice.items := by
    rw [emit_cons_of_covers _ _ ⟨Nat.le_refl _, by omega⟩, if_pos rfl]
  have hrest : ∀ y ∈ l.zipIdx (splice.first + 1), emit (splice :: splices) y.1 y.2 = [] := by
    intro y hy
    have hle := List.le_snd_of_mem_zipIdx hy
    have hlt := List.snd_lt_add_of_mem_zipIdx hy
    rw [emit_cons_of_covers _ _ ⟨by omega, by omega⟩, if_neg (by omega)]
  simp only [walkFrom, List.zipIdx_cons, List.flatMap_cons, hfirst]
  rw [List.flatMap_eq_nil_iff.mpr hrest, List.append_nil]

/-! ## One by one -/

/-- Splices in order, spliced from the last to the first, write what one walk writes. -/
theorem foldr_apply_eq_walk {splices : List (Splice α)} {l : List α}
    (hapart : splices.Pairwise fun a b => a.last < b.first) (hfits : ∀ splice ∈ splices, splice.Fits l.length) :
    splices.foldr apply l = walk splices l := by
  induction splices with
  | nil => exact (walkFrom_of_before (by simp)).symm
  | cons splice splices ih =>
    obtain ⟨hbefore, hapart⟩ := List.pairwise_cons.mp hapart
    obtain ⟨hfits, hrest⟩ := List.forall_mem_cons.mp hfits
    obtain ⟨hone, hle, hsize⟩ := hfits
    -- The list falls into what lies before the stretch, the stretch, and what lies behind it.
    obtain ⟨before, stretch, behind, rfl, hlen, hstretch⟩ :
        ∃ before stretch behind, l = before ++ stretch ++ behind ∧ before.length = splice.first - 1 ∧
          splice.first + stretch.length = splice.last + 1 := by
      refine ⟨l.take (splice.first - 1), (l.take splice.last).drop (splice.first - 1), l.drop splice.last,
        ?_, by simp; omega, by simp; omega⟩
      have htake : l.take (splice.first - 1) = (l.take splice.last).take (splice.first - 1) := by
        rw [List.take_take, Nat.min_eq_left (by omega)]
      rw [htake, List.take_append_drop, List.take_append_drop]
    have hnext : 1 + (before ++ stretch).length = splice.last + 1 := by
      simp only [List.length_append]; omega
    -- The later splices leave everything up to the end of the stretch alone.
    have hlater : walk splices (before ++ stretch ++ behind) =
        before ++ stretch ++ walkFrom splices (splice.last + 1) behind := by
      rw [walk, walkFrom_append, walkFrom_of_before, hnext]
      intro other hother
      have := hbefore other hother
      omega
    have hwalk : walk (splice :: splices) (before ++ stretch ++ behind) =
        before ++ splice.items ++ walkFrom splices (splice.last + 1) behind := by
      rw [walk, walkFrom_append, walkFrom_append, hnext, hlen, show 1 + (splice.first - 1) = splice.first by omega,
        walkFrom_stretch splices (by rintro rfl; simp at hstretch; omega) hstretch]
      have hkept : walkFrom (splice :: splices) 1 before = before := by
        apply walkFrom_of_before
        intro other hother
        rcases List.mem_cons.mp hother with rfl | hother
        · omega
        · have := hbefore other hother
          omega
      have hdone : walkFrom (splice :: splices) (splice.last + 1) behind =
          walkFrom splices (splice.last + 1) behind := by
        apply walkFrom_congr
        intro x k hk _
        exact emit_cons_of_not_covers _ _ fun hcovers => by have := hcovers.2; omega
      rw [hkept, hdone]
    rw [List.foldr_cons, ih hapart hrest, hlater, hwalk, apply]
    congr 2
    · rw [List.append_assoc, ← hlen, List.take_left]
    · rw [List.drop_left']
      simp only [List.length_append]; omega

/-- The walk does not depend on the order of splices that are apart. -/
theorem walk_perm {splices others : List (Splice α)} (hperm : splices.Perm others)
    (hapart : splices.Pairwise Apart) (l : List α) : walk splices l = walk others l := by
  apply walkFrom_congr
  intro x n _ _
  rcases h : others.find? fun splice => splice.Covers n with _ | splice
  · have hnone : ∀ splice ∈ splices, ¬splice.Covers n := by
      intro splice hs
      simpa using List.find?_eq_none.mp h splice (hperm.mem_iff.mp hs)
    rw [emit_of_forall_not_covers x hnone, emit, h]
  · have hmem := hperm.mem_iff.mpr (List.mem_of_find?_eq_some h)
    have hcovers : splice.Covers n := by simpa using List.find?_some h
    -- Two splices of the list that cover one element are the same.
    obtain ⟨other, hother⟩ : ∃ other, splices.find? (fun splice => splice.Covers n) = some other := by
      rw [← Option.isSome_iff_exists, List.find?_isSome]
      exact ⟨splice, hmem, by simpa using hcovers⟩
    have hcovers' : other.Covers n := by simpa using List.find?_some hother
    have heq : other = splice := by
      by_contra hne
      rcases hapart.forall (List.mem_of_find?_eq_some hother) hmem hne with hlt | hlt
      · have := hcovers'.2; have := hcovers.1; omega
      · have := hcovers.2; have := hcovers'.1; omega
    rw [emit, emit, h, hother, heq]

/-- To expand what a walk has written is to walk with expanded items. -/
theorem flatMap_walk (f : α → List α) {l : List α} (hkeep : ∀ x ∈ l, f x = [x]) (splices : List (Splice α)) :
    (walk splices l).flatMap f = walk (splices.map (flatMap f)) l := by
  rw [walk, walk, walkFrom, walkFrom, List.flatMap_assoc]
  apply List.flatMap_congr
  intro x hx
  have hmem := List.fst_mem_of_mem_zipIdx hx
  simp only [emit, List.find?_map, Function.comp_def, covers_flatMap]
  rcases h : splices.find? fun splice => splice.Covers x.2 with _ | splice
  · simp [h, hkeep _ hmem]
  · by_cases hfirst : splice.first = x.2
    · simp [h, hfirst, flatMap]
    · simp [h, hfirst]

end Splice

end MontrSecure
