import Mathlib.Data.List.Forall2
import Mathlib.Data.List.Sort
import Mathlib.Tactic.Qify
import MontrSecure.Contracts.Basic
import MontrSecure.Correlation.Scoring
import MontrSecure.Data.Splicing
import MontrSecure.Text.Splitting

/-!
# Edits of lines

`packages/fix/src/edits.ts`: a model answers with the ranges of lines it replaces. Edits count lines from one,
with both ends, and are taken all or not at all.
-/

namespace MontrSecure

/-- `source.split("\n")`. -/
def sourceLines (source : String) : List String := (source.toList.splitOn '\n').map String.ofList

/-- `lines.join("\n")`. -/
def joinLines (lines : List String) : String := "\n".intercalate lines

/-- `numberLines`. -/
def numberLines (source : String) : String :=
  joinLines ((sourceLines source).zipIdx.map fun line => s!"{line.2 + 1}: {line.1}")

/-- `LlmEdit`. -/
structure LlmEdit where
  startLine : ℕ
  endLine : ℕ
  replacement : String

/-- An entry that is well formed and in range. -/
def parseLlmEdit (totalLines : ℕ) (entry : Json) : Option LlmEdit :=
  match entry.property "startLine", entry.property "endLine", entry.property "replacement" with
  | some (.num startLine), some (.num endLine), some (.str replacement) =>
    if startLine.den = 1 ∧ endLine.den = 1 ∧ 1 ≤ startLine ∧ startLine ≤ endLine ∧ endLine ≤ totalLines then
      some { startLine := startLine.num.toNat, endLine := endLine.num.toNat, replacement }
    else none
  | _, _, _ => none

/-- No edit begins before the one in front of it has ended. -/
def disjointEdits (edits : List LlmEdit) : Bool :=
  (edits.zip edits.tail).all fun e => e.1.endLine < e.2.startLine

/-- `parseLlmEdits`. -/
def parseLlmEdits (value : Json) (totalLines : ℕ) : Option (List LlmEdit) :=
  match value with
  | .arr [] => none
  | .arr entries =>
    (entries.mapM (parseLlmEdit totalLines)).bind fun edits =>
      let sorted := edits.insertionSort fun a b => a.startLine ≤ b.startLine
      if disjointEdits sorted then some sorted else none
  | _ => none

/-- The lines after one edit. -/
def applyLineEdit (edit : LlmEdit) (lines : List String) : List String :=
  lines.take (edit.startLine - 1) ++ sourceLines edit.replacement ++ lines.drop edit.endLine

/-- `applyLineEdits`: the last edit goes first, so that the lines of the others keep their numbers. -/
def applyLineEdits (original : String) (edits : List LlmEdit) : String :=
  joinLines (edits.foldr applyLineEdit (sourceLines original))

example : applyLineEdits "a\nb\nc" [{ startLine := 1, endLine := 1, replacement := "x\ny" },
    { startLine := 3, endLine := 3, replacement := "z" }] = "x\ny\nb\nz" := by decide +kernel

end MontrSecure

/-!
## Edits as one replacement

The edits of a reply are spliced into the source from the last to the first. What comes out is what one walk over
the lines writes, which puts each replacement where its range begins, drops the rest of the range and keeps every
other line. The order of the edits in the reply is of no account.
-/

namespace MontrSecure

/-! ## Edits of a reply -/

/-- The entry is an edit: two whole numbers and a text. -/
structure IsEdit (entry : Json) (first last : ℤ) (replacement : String) : Prop where
  startLine : entry.property "startLine" = some (.num first)
  endLine : entry.property "endLine" = some (.num last)
  replacement : entry.property "replacement" = some (.str replacement)

/-- The entry is no edit. -/
def MalformedEdit (entry : Json) : Prop := ¬∃ first last replacement, IsEdit entry first last replacement

/-- The entry is an edit of lines that the source does not have, or of none. -/
def OutOfRange (totalLines : ℕ) (entry : Json) : Prop :=
  ∃ first last replacement, IsEdit entry first last replacement ∧ ¬(1 ≤ first ∧ first ≤ last ∧ last ≤ totalLines)

/-- The entries are edits with a line in common. -/
def OverlappingEdits (a b : Json) : Prop :=
  ∃ first last replacement first' last' replacement',
    IsEdit a first last replacement ∧ IsEdit b first' last' replacement' ∧ first ≤ last' ∧ first' ≤ last

/-- One of the entries is no edit or out of range, or two of them overlap. -/
def HasBadEdit (totalLines : ℕ) (entries : List Json) : Prop :=
  (∃ entry ∈ entries, MalformedEdit entry) ∨ (∃ entry ∈ entries, OutOfRange totalLines entry) ∨
    ¬entries.Pairwise fun a b => ¬OverlappingEdits a b

/-- The lines that an edit is about, with `items` in their place. -/
def LlmEdit.splice (edit : LlmEdit) (items : List String) : Splice String :=
  { first := edit.startLine, last := edit.endLine, items }

/-- The text of a walk over the lines of the source: a line outside every range is kept, a range gives way to its
replacement. -/
def replaceRanges (source : String) (edits : List LlmEdit) : String :=
  joinLines (Splice.walk (edits.map fun edit => edit.splice [edit.replacement]) (sourceLines source))

/-! ## What is accepted -/

variable {totalLines : ℕ} {entry : Json} {entries : List Json} {edit : LlmEdit} {edits : List LlmEdit}

theorem parseLlmEdit_eq_some : parseLlmEdit totalLines entry = some edit ↔
    IsEdit entry edit.startLine edit.endLine edit.replacement ∧
      1 ≤ edit.startLine ∧ edit.startLine ≤ edit.endLine ∧ edit.endLine ≤ totalLines := by
  constructor
  · intro h
    rw [parseLlmEdit] at h
    split at h
    · rename_i first last text hfirst hlast htext
      split at h
      · rename_i hrange
        obtain ⟨hone, htwo, hle, hlt, hsize⟩ := hrange
        obtain rfl := Option.some.inj h
        -- A line number is a whole number above zero, so it is a natural number.
        have hfirst' : ((first.num.toNat : ℤ) : ℚ) = first := by
          have : 0 ≤ first.num := Rat.num_nonneg.mpr (by linarith)
          rw [Int.toNat_of_nonneg this, Rat.coe_int_num_of_den_eq_one hone]
        have hlast' : ((last.num.toNat : ℤ) : ℚ) = last := by
          have : 0 ≤ last.num := Rat.num_nonneg.mpr (by linarith)
          rw [Int.toNat_of_nonneg this, Rat.coe_int_num_of_den_eq_one htwo]
        refine ⟨⟨by rw [hfirst', hfirst], by rw [hlast', hlast], htext⟩, ?_, ?_, ?_⟩
        · rw [← hfirst'] at hle; exact_mod_cast hle
        · rw [← hfirst', ← hlast'] at hlt; exact_mod_cast hlt
        · rw [← hlast'] at hsize; exact_mod_cast hsize
      · simp at h
    · simp at h
  · rintro ⟨⟨hfirst, hlast, htext⟩, hone, hle, hsize⟩
    have hrange : (1 : ℚ) ≤ edit.startLine ∧ (edit.startLine : ℚ) ≤ edit.endLine ∧
        (edit.endLine : ℚ) ≤ totalLines :=
      ⟨by exact_mod_cast hone, by exact_mod_cast hle, by exact_mod_cast hsize⟩
    simp [parseLlmEdit, hfirst, hlast, htext, hrange]

theorem IsEdit.unique {first last first' last' : ℤ} {replacement replacement' : String}
    (h : IsEdit entry first last replacement) (h' : IsEdit entry first' last' replacement') :
    first = first' ∧ last = last' ∧ replacement = replacement' := by
  have hfirst := h.startLine.symm.trans h'.startLine
  have hlast := h.endLine.symm.trans h'.endLine
  have htext := h.replacement.symm.trans h'.replacement
  simp only [Option.some.injEq, Json.num.injEq, Json.str.injEq] at hfirst hlast htext
  exact ⟨by exact_mod_cast hfirst, by exact_mod_cast hlast, htext⟩

/-- An entry is taken iff it is an edit in range. -/
theorem isSome_parseLlmEdit :
    (parseLlmEdit totalLines entry).isSome ↔ ¬MalformedEdit entry ∧ ¬OutOfRange totalLines entry := by
  rw [Option.isSome_iff_exists]
  constructor
  · rintro ⟨edit, h⟩
    obtain ⟨hedit, hone, hle, hsize⟩ := parseLlmEdit_eq_some.mp h
    refine ⟨fun hbad => hbad ⟨_, _, _, hedit⟩, ?_⟩
    rintro ⟨first, last, replacement, hother, hrange⟩
    obtain ⟨rfl, rfl, -⟩ := hedit.unique hother
    exact hrange ⟨by exact_mod_cast hone, by exact_mod_cast hle, by exact_mod_cast hsize⟩
  · rintro ⟨hform, hrange⟩
    obtain ⟨first, last, replacement, hedit⟩ := not_not.mp hform
    have hin : 1 ≤ first ∧ first ≤ last ∧ last ≤ totalLines := by
      by_contra hout
      exact hrange ⟨first, last, replacement, hedit, hout⟩
    obtain ⟨hone, hle, hsize⟩ := hin
    lift first to ℕ using by omega
    lift last to ℕ using by omega
    exact ⟨{ startLine := first, endLine := last, replacement },
      parseLlmEdit_eq_some.mpr ⟨hedit, by exact_mod_cast hone, by exact_mod_cast hle, by exact_mod_cast hsize⟩⟩

/-- The edits have no line in common. -/
def LlmEdit.Apart (a b : LlmEdit) : Prop := a.endLine < b.startLine ∨ b.endLine < a.startLine

instance : Std.Symm LlmEdit.Apart := ⟨fun _ _ => Or.symm⟩

theorem not_overlappingEdits {a b : Json} {edit other : LlmEdit} (ha : parseLlmEdit totalLines a = some edit)
    (hb : parseLlmEdit totalLines b = some other) : ¬OverlappingEdits a b ↔ LlmEdit.Apart edit other := by
  have ha := (parseLlmEdit_eq_some.mp ha).1
  have hb := (parseLlmEdit_eq_some.mp hb).1
  constructor
  · intro h
    by_contra hmeet
    simp only [LlmEdit.Apart, not_or, not_lt] at hmeet
    exact h ⟨_, _, _, _, _, _, ha, hb, by exact_mod_cast hmeet.2, by exact_mod_cast hmeet.1⟩
  · rintro hapart ⟨first, last, replacement, first', last', replacement', ha', hb', hle, hle'⟩
    obtain ⟨rfl, rfl, -⟩ := ha.unique ha'
    obtain ⟨rfl, rfl, -⟩ := hb.unique hb'
    rcases hapart with hlt | hlt <;> omega

/-- In the order of their beginnings, edits are disjoint iff they are apart. -/
theorem disjointEdits_iff (hle : ∀ edit ∈ edits, edit.startLine ≤ edit.endLine) :
    disjointEdits edits = true ↔ edits.Pairwise fun a b => a.endLine < b.startLine := by
  induction edits with
  | nil => simp [disjointEdits]
  | cons edit edits ih =>
    obtain ⟨-, hrest⟩ := List.forall_mem_cons.mp hle
    rcases edits with _ | ⟨next, edits⟩
    · simp [disjointEdits]
    have hunfold : disjointEdits (edit :: next :: edits) =
        (decide (edit.endLine < next.startLine) && disjointEdits (next :: edits)) := by
      simp [disjointEdits]
    rw [hunfold, Bool.and_eq_true, decide_eq_true_eq, ih hrest, List.pairwise_cons (l := next :: edits)]
    -- What lies behind the next edit lies behind this one too.
    refine and_congr_left fun hpair => ⟨fun hlt other hother => ?_, fun h => h next (by simp)⟩
    rcases List.mem_cons.mp hother with rfl | hother
    · exact hlt
    · have hnext := List.rel_of_pairwise_cons hpair hother
      have hends := hrest next (by simp)
      omega

/-- Sorted by their beginnings, edits are disjoint iff they were apart. -/
theorem disjointEdits_insertionSort (hle : ∀ edit ∈ edits, edit.startLine ≤ edit.endLine) :
    disjointEdits (edits.insertionSort fun a b => a.startLine ≤ b.startLine) = true ↔
      edits.Pairwise LlmEdit.Apart := by
  have hperm := List.perm_insertionSort (fun a b : LlmEdit => a.startLine ≤ b.startLine) edits
  have hle' : ∀ edit ∈ edits.insertionSort fun a b => a.startLine ≤ b.startLine,
      edit.startLine ≤ edit.endLine := fun edit h => hle edit (hperm.mem_iff.mp h)
  rw [disjointEdits_iff hle', ← hperm.pairwise_iff fun h => symm_of LlmEdit.Apart h]
  constructor
  · exact fun h => h.imp fun hlt => .inl hlt
  · intro hapart
    have hsorted := List.pairwise_insertionSort (fun a b : LlmEdit => a.startLine ≤ b.startLine) edits
    refine (hapart.and hsorted).imp_of_mem fun {a b} ha hb h => ?_
    have := hle' a ha
    have := hle' b hb
    rcases h.1 with hlt | hlt
    · exact hlt
    · have := h.2
      omega

theorem mapM_parseLlmEdit : entries.mapM (parseLlmEdit totalLines) = some edits ↔
    (∀ entry ∈ entries, (parseLlmEdit totalLines entry).isSome) ∧
      entries.filterMap (parseLlmEdit totalLines) = edits := by
  induction entries generalizing edits with
  | nil => simp
  | cons entry entries ih =>
    rcases h : parseLlmEdit totalLines entry with _ | edit
    · simp [h]
    · have hcons : (entry :: entries).mapM (parseLlmEdit totalLines) =
          (entries.mapM (parseLlmEdit totalLines)).map fun edits => edit :: edits := by
        rw [List.mapM_cons, h]
        rcases entries.mapM (parseLlmEdit totalLines) with _ | edits <;> rfl
      simp only [hcons, Option.map_eq_some_iff, ih, List.forall_mem_cons, h, Option.isSome_some, true_and,
        List.filterMap_cons_some h]
      constructor
      · rintro ⟨rest, ⟨hsome, rfl⟩, rfl⟩
        exact ⟨hsome, rfl⟩
      · rintro ⟨hsome, rfl⟩
        exact ⟨_, ⟨hsome, rfl⟩, rfl⟩

/-- What the reply is parsed to. -/
theorem parseLlmEdits_eq_some : parseLlmEdits (.arr entries) totalLines = some edits ↔
    entries ≠ [] ∧ (∀ entry ∈ entries, (parseLlmEdit totalLines entry).isSome) ∧
      (entries.filterMap (parseLlmEdit totalLines)).Pairwise LlmEdit.Apart ∧
      edits = (entries.filterMap (parseLlmEdit totalLines)).insertionSort
        fun a b => a.startLine ≤ b.startLine := by
  have hparse (hne : entries ≠ []) : parseLlmEdits (.arr entries) totalLines =
      (entries.mapM (parseLlmEdit totalLines)).bind fun edits =>
        if disjointEdits (edits.insertionSort fun a b => a.startLine ≤ b.startLine) then
          some (edits.insertionSort fun a b => a.startLine ≤ b.startLine)
        else none := by
    rcases entries with _ | ⟨entry, entries⟩
    · exact absurd rfl hne
    · rfl
  by_cases hne : entries = []
  · simp [hne, parseLlmEdits]
  have hle : ∀ edit ∈ entries.filterMap (parseLlmEdit totalLines), edit.startLine ≤ edit.endLine := by
    intro edit hedit
    obtain ⟨entry, -, hentry⟩ := List.mem_filterMap.mp hedit
    exact (parseLlmEdit_eq_some.mp hentry).2.2.1
  rw [hparse hne, Option.bind_eq_some_iff]
  simp only [mapM_parseLlmEdit, Option.ite_none_right_eq_some, Option.some.injEq]
  constructor
  · rintro ⟨given, ⟨hsome, rfl⟩, hdisjoint, rfl⟩
    exact ⟨hne, hsome, (disjointEdits_insertionSort hle).mp hdisjoint, rfl⟩
  · rintro ⟨-, hsome, hapart, rfl⟩
    exact ⟨_, ⟨hsome, rfl⟩, (disjointEdits_insertionSort hle).mpr hapart, rfl⟩

example : parseLlmEdits (.arr [.null]) 3 = none := by decide +kernel

/-- The entries are refused iff there is none or one of them is a bad edit. -/
theorem parseLlmEdits_arr_eq_none :
    parseLlmEdits (.arr entries) totalLines = none ↔ entries = [] ∨ HasBadEdit totalLines entries := by
  rw [Option.eq_none_iff_forall_ne_some]
  simp only [ne_eq, parseLlmEdits_eq_some, not_and, HasBadEdit]
  by_cases hsome : ∀ entry ∈ entries, (parseLlmEdit totalLines entry).isSome
  · have hgood : ∀ entry ∈ entries, ¬MalformedEdit entry ∧ ¬OutOfRange totalLines entry :=
      fun entry h => isSome_parseLlmEdit.mp (hsome entry h)
    have hapart : (entries.filterMap (parseLlmEdit totalLines)).Pairwise LlmEdit.Apart ↔
        entries.Pairwise fun a b => ¬OverlappingEdits a b := by
      rw [List.pairwise_filterMap]
      refine List.Pairwise.iff_of_mem fun {a b} ha hb => ?_
      obtain ⟨edit, hedit⟩ := Option.isSome_iff_exists.mp (hsome a ha)
      obtain ⟨other, hother⟩ := Option.isSome_iff_exists.mp (hsome b hb)
      simp [not_overlappingEdits hedit hother, hedit, hother]
    have hnobad : (¬∃ entry ∈ entries, MalformedEdit entry) ∧ ¬∃ entry ∈ entries, OutOfRange totalLines entry :=
      ⟨fun ⟨entry, h, hbad⟩ => (hgood entry h).1 hbad, fun ⟨entry, h, hbad⟩ => (hgood entry h).2 hbad⟩
    simp only [hnobad.1, hnobad.2, false_or, ← hapart]
    constructor
    · intro h
      by_cases hne : entries = []
      · exact .inl hne
      · exact .inr fun hpair => h _ hne hsome hpair rfl
    · rintro (rfl | hmeet) edits hne - hpair
      · exact absurd rfl hne
      · exact absurd hpair hmeet
  · refine iff_of_true (fun edits _ h => absurd h hsome) (.inr ?_)
    obtain ⟨entry, hentry, hbad⟩ : ∃ entry ∈ entries, ¬(parseLlmEdit totalLines entry).isSome := by
      simpa using hsome
    rw [isSome_parseLlmEdit] at hbad
    by_cases hform : MalformedEdit entry
    · exact .inl ⟨entry, hentry, hform⟩
    · exact .inr (.inl ⟨entry, hentry, by simpa [hform] using hbad⟩)

/-- The order of the entries does not matter. -/
theorem parseLlmEdits_perm {others : List Json} (hperm : entries.Perm others)
    (h : parseLlmEdits (.arr entries) totalLines = some edits) :
    parseLlmEdits (.arr others) totalLines = some edits := by
  obtain ⟨hne, hsome, hapart, rfl⟩ := parseLlmEdits_eq_some.mp h
  have hgiven := hperm.filterMap (parseLlmEdit totalLines)
  have hapart' := (hgiven.pairwise_iff fun h => symm_of LlmEdit.Apart h).mp hapart
  refine parseLlmEdits_eq_some.mpr ⟨?_, ?_, hapart', ?_⟩
  · rintro rfl
    exact hne hperm.eq_nil
  · exact fun entry hentry => hsome entry (hperm.mem_iff.mpr hentry)
  · -- Edits that are apart begin at different lines, so that there is one way to sort them.
    have hsorted := List.perm_insertionSort fun a b : LlmEdit => a.startLine ≤ b.startLine
    refine (((hsorted _).trans hgiven).trans (hsorted _).symm).eq_of_pairwise (fun a b ha hb hab hba => ?_)
      (List.pairwise_insertionSort _ _) (List.pairwise_insertionSort _ _)
    have ha := (hsorted _).mem_iff.mp ha
    have hb := hgiven.mem_iff.mpr ((hsorted _).mem_iff.mp hb)
    by_contra hne
    have hle {edit : LlmEdit} (hedit : edit ∈ entries.filterMap (parseLlmEdit totalLines)) :
        edit.startLine ≤ edit.endLine := by
      obtain ⟨entry, -, hentry⟩ := List.mem_filterMap.mp hedit
      exact (parseLlmEdit_eq_some.mp hentry).2.2.1
    have := hle ha
    have := hle hb
    rcases hapart.forall ha hb hne with hlt | hlt <;> omega

/-! ## Applying them -/

theorem LlmEdit.apply_splice (edit : LlmEdit) (lines : List String) :
    (edit.splice (sourceLines edit.replacement)).apply lines = applyLineEdit edit lines := rfl

theorem sourceLines_ne_nil (source : String) : sourceLines source ≠ [] := by
  simp [sourceLines, List.splitOn_ne_nil]

/-- A line of a source has one line. -/
theorem sourceLines_of_mem {source line : String} (h : line ∈ sourceLines source) : sourceLines line = [line] := by
  obtain ⟨chars, hchars, rfl⟩ := List.mem_map.mp h
  rw [sourceLines, String.toList_ofList, List.splitOn_eq_singleton (Text.not_mem_of_mem_splitOn hchars)]
  rfl

theorem joinLines_sourceLines (source : String) : joinLines (sourceLines source) = source := by
  apply String.toList_injective
  rw [joinLines, String.toList_intercalate, sourceLines, List.map_map]
  simp

/-- Texts are joined as their lines are. -/
theorem joinLines_flatMap (texts : List String) : joinLines (texts.flatMap sourceLines) = joinLines texts := by
  induction texts with
  | nil => rfl
  | cons text texts ih =>
    rcases texts with _ | ⟨next, texts⟩
    · rw [List.flatMap_cons, List.flatMap_nil, List.append_nil, joinLines_sourceLines, joinLines,
        String.intercalate_singleton]
    · have hne : (next :: texts).flatMap sourceLines ≠ [] := by simp [sourceLines_ne_nil]
      calc joinLines ((text :: next :: texts).flatMap sourceLines)
          = joinLines (sourceLines text) ++ "\n" ++ joinLines ((next :: texts).flatMap sourceLines) :=
            String.intercalate_append_of_ne_nil (sourceLines_ne_nil text) hne
        _ = text ++ "\n" ++ joinLines (next :: texts) := by rw [joinLines_sourceLines, ih]
        _ = joinLines (text :: next :: texts) := String.intercalate_cons_cons.symm

/-- Applying the edits one by one, from the last, replaces every range at once. -/
theorem applyLineEdits_eq_replaceRanges {source : String} {edits given : List LlmEdit}
    (hperm : edits.Perm given) (hbefore : edits.Pairwise fun a b => a.endLine < b.startLine)
    (hrange : ∀ edit ∈ edits, 1 ≤ edit.startLine ∧ edit.startLine ≤ edit.endLine ∧
      edit.endLine ≤ (sourceLines source).length) :
    applyLineEdits source edits = replaceRanges source given := by
  let text (edit : LlmEdit) : Splice String := edit.splice [edit.replacement]
  have hlines : (edits.map text).map (Splice.flatMap sourceLines) =
      edits.map fun edit => edit.splice (sourceLines edit.replacement) := by
    simp [text, LlmEdit.splice, Splice.flatMap, Function.comp_def]
  have hwalk : edits.foldr applyLineEdit (sourceLines source) =
      Splice.walk (edits.map fun edit => edit.splice (sourceLines edit.replacement)) (sourceLines source) := by
    rw [← Splice.foldr_apply_eq_walk, List.foldr_map]
    · rfl
    · exact List.pairwise_map.mpr hbefore
    · intro splice h
      obtain ⟨edit, hedit, rfl⟩ := List.mem_map.mp h
      exact hrange edit hedit
  have hapart : (edits.map text).Pairwise Splice.Apart :=
    List.pairwise_map.mpr (hbefore.imp fun hlt => .inl hlt)
  calc applyLineEdits source edits
      = joinLines (Splice.walk ((edits.map text).map (Splice.flatMap sourceLines)) (sourceLines source)) := by
        rw [applyLineEdits, hwalk, hlines]
    _ = joinLines ((Splice.walk (edits.map text) (sourceLines source)).flatMap sourceLines) := by
        rw [Splice.flatMap_walk sourceLines fun line h => sourceLines_of_mem h]
    _ = joinLines (Splice.walk (edits.map text) (sourceLines source)) := joinLines_flatMap _
    _ = replaceRanges source given := by
        rw [replaceRanges, Splice.walk_perm (hperm.map text) hapart]

/-- **Edits are one replacement.** The edits of a reply that is parsed make of the source what one walk over its
lines writes with them, in whatever order the reply gives them; and a reply is refused iff it is no array, an
empty one, or has an edit that is malformed, out of range or overlaps another one. -/
theorem lineEdits_replace_at_once (value : Json) :
    (∀ source edits, parseLlmEdits value (sourceLines source).length = some edits →
      ∃ entries, value = .arr entries ∧
        applyLineEdits source edits =
          replaceRanges source (entries.filterMap (parseLlmEdit (sourceLines source).length)) ∧
        ∀ others, entries.Perm others →
          parseLlmEdits (.arr others) (sourceLines source).length = some edits) ∧
      ∀ totalLines, parseLlmEdits value totalLines = none ↔
        ∀ entries, value = .arr entries → entries = [] ∨ HasBadEdit totalLines entries := by
  refine ⟨fun source edits h => ?_, fun totalLines => ?_⟩
  · obtain ⟨entries, rfl⟩ : ∃ entries, value = .arr entries := by
      rcases value <;> simp_all [parseLlmEdits]
    obtain ⟨-, hsome, hapart, hedits⟩ := parseLlmEdits_eq_some.mp h
    have hperm : edits.Perm (entries.filterMap (parseLlmEdit (sourceLines source).length)) :=
      hedits ▸ List.perm_insertionSort _ _
    have hrange : ∀ edit ∈ edits, 1 ≤ edit.startLine ∧ edit.startLine ≤ edit.endLine ∧
        edit.endLine ≤ (sourceLines source).length := by
      intro edit hedit
      obtain ⟨entry, -, hentry⟩ := List.mem_filterMap.mp (hperm.mem_iff.mp hedit)
      exact (parseLlmEdit_eq_some.mp hentry).2
    have hbefore : edits.Pairwise fun a b => a.endLine < b.startLine := by
      rw [← disjointEdits_iff fun edit hedit => (hrange edit hedit).2.1, hedits]
      refine (disjointEdits_insertionSort fun edit hedit => ?_).mpr hapart
      exact (hrange edit (hperm.mem_iff.mpr hedit)).2.1
    exact ⟨entries, rfl, applyLineEdits_eq_replaceRanges hperm hbefore hrange,
      fun others hothers => parseLlmEdits_perm hothers h⟩
  · rcases value with _ | _ | _ | _ | entries | _
    case arr => simpa using parseLlmEdits_arr_eq_none
    all_goals simp [parseLlmEdits]

/-- A reply with two edits, the later one first. -/
def swappedEdits : Json :=
  .arr
    [.obj [("startLine", .num 3), ("endLine", .num 3), ("replacement", .str "z")],
      .obj [("startLine", .num 1), ("endLine", .num 1), ("replacement", .str "x\ny")]]

theorem lineEdits_replace_at_once_swapped :
    ∃ entries, swappedEdits = .arr entries ∧
      applyLineEdits "a\nb\nc"
        [{ startLine := 1, endLine := 1, replacement := "x\ny" },
          { startLine := 3, endLine := 3, replacement := "z" }] =
        replaceRanges "a\nb\nc" (entries.filterMap (parseLlmEdit (sourceLines "a\nb\nc").length)) ∧
      ∀ others, entries.Perm others → parseLlmEdits (.arr others) (sourceLines "a\nb\nc").length =
        some
          [{ startLine := 1, endLine := 1, replacement := "x\ny" },
            { startLine := 3, endLine := 3, replacement := "z" }] := by
  apply (lineEdits_replace_at_once swappedEdits).1
  have hlines : (sourceLines "a\nb\nc").length = 3 := by decide +kernel
  rw [hlines]
  rfl

/-- An empty array has no bad edit, and is refused. -/
theorem lineEdits_empty_refused : parseLlmEdits (.arr []) 1 = none ∧ ¬HasBadEdit 1 [] :=
  ⟨rfl, by simp [HasBadEdit]⟩

end MontrSecure
