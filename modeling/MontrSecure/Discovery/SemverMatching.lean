import MontrSecure.Discovery.SemverReading

/-!
# Versions that lie in a range are matched

No version is missed that lies, without tags, in a group of a range whose comparators are read whole. A prerelease
below an upper bound is missed: tags are dropped. So is a version that is rounded.
-/

namespace MontrSecure.Semver

open Text

/-! ## Groups -/

section Groups

variable (large : LargeText)

/-- The words that the tokens of a group are expanded to, all of them, have to hold. -/
theorem satisfiesGroup_eq (v : SemVer) (group : List ℕ) :
    satisfiesGroup large v group =
      ((words group).flatMap fun tok => words (expandToken large tok)).all (satisfiesComparator v) := by
  have hwords : words (trimUnits group) = words group := by
    rw [words, trimUnits, runs_rdropWhile, runs_dropWhile, ← words]
  rw [satisfiesGroup]
  split_ifs with h
  · rw [← hwords]
    rcases h with h | h
    · rw [h]
      rfl
    · have hstar : expandToken large (units "*") = units "*" :=
        expandToken_eq_self large (by decide) (by decide)
      have hword : words (units "*") = [units "*"] := by decide
      simp only [h, hword, List.flatMap_cons, List.flatMap_nil, List.append_nil, hstar, List.all_cons, List.all_nil]
      rfl
  · have hjoin : words ((units " ").intercalate ((words group).map (expandToken large))) =
        ((words group).map (expandToken large)).flatMap words := runs_intercalate (by decide) _
    rw [hwords, hjoin, List.flatMap_map]

theorem satisfiesGroup_dropWhile (v : SemVer) (group : List ℕ) :
    satisfiesGroup large v (group.dropWhile isSpace) = satisfiesGroup large v group := by
  rw [satisfiesGroup_eq, satisfiesGroup_eq, words, runs_dropWhile, ← words]

theorem satisfiesGroup_rdropWhile (v : SemVer) (group : List ℕ) :
    satisfiesGroup large v (group.rdropWhile isSpace) = satisfiesGroup large v group := by
  rw [satisfiesGroup_eq, satisfiesGroup_eq, words, runs_rdropWhile, ← words]

theorem text_of_isRead {cmp : Comparator} (h : cmp.IsRead) : cmp.text ≠ [] ∧ Plain cmp.text := by
  rcases cmp with p | ⟨o, gap, p⟩ | p | p
  · exact ⟨text_ne_nil p, plain_pattern p⟩
  · rw [Comparator.text, IsRead.gap h, List.append_nil]
    exact ⟨by simp [text_ne_nil], plain_append.mpr ⟨plain_op o, plain_pattern p⟩⟩
  · exact ⟨List.cons_ne_nil _ _, plain_append.mpr ⟨plain_of_all (by decide), plain_pattern p⟩⟩
  · exact ⟨List.cons_ne_nil _ _, plain_append.mpr ⟨plain_of_all (by decide), plain_pattern p⟩⟩

theorem head_isSpace (gap : Gap) : ∀ c ∈ gap.1.head?, isSpace c = true := fun c hc => gap.2 c (List.mem_of_mem_head? hc)

/-- The words of a group are its comparators. -/
theorem words_group {g : Group} (hread : ∀ p ∈ g.comparators, p.2.IsRead) :
    words g.text = g.comparators.map fun p => p.2.text := by
  obtain ⟨comparators, trailing, separated⟩ := g
  simp only [Group.text] at hread ⊢
  induction comparators with
  | nil => simpa [words] using runs_gap_append (r := []) trailing.2
  | cons p rest ih =>
    obtain ⟨hp, hrest⟩ := List.forall_mem_cons.mp hread
    obtain ⟨hne, hplain⟩ := text_of_isRead hp
    have htail : ∀ q ∈ rest.tail, q.1.1 ≠ [] := fun q hq => separated q (List.mem_of_mem_tail hq)
    -- The next comparator has white space before it.
    have hhead : ∀ c ∈ (rest.flatMap (fun p => p.1.1 ++ p.2.text) ++ trailing.1).head?, isSpace c = true := by
      rcases rest with _ | ⟨q, rest⟩
      · exact head_isSpace trailing
      · obtain ⟨c, gap, hgap⟩ := List.exists_cons_of_ne_nil (separated q List.mem_cons_self)
        have hc : isSpace c = true := q.1.2 c (hgap ▸ List.mem_cons_self)
        simp [hgap, hc]
    rw [List.flatMap_cons, List.append_assoc, List.append_assoc, words, runs_gap_append p.1.2,
      runs_part_append hne hplain.noSpace hhead, ← words, ih htail hrest, List.map_cons]

end Groups

/-! ## Ranges as texts -/

theorem splitOr_cons {c : ℕ} (hc : c ≠ unit '|') (text : List ℕ) :
    splitOr (c :: text) = (splitOr text).modifyHead (c :: ·) := by
  rcases text with _ | ⟨d, text⟩
  · rfl
  · rw [splitOr, if_neg fun h => hc h.1]

theorem splitOr_part {part : List ℕ} (h : unit '|' ∉ part) (rest : List ℕ) :
    splitOr (part ++ (units "||" ++ rest)) = part :: splitOr rest ∧ splitOr part = [part] := by
  induction part with
  | nil => exact ⟨by simp [splitOr, show units "||" = [unit '|', unit '|'] from rfl], rfl⟩
  | cons c part ih =>
    obtain ⟨hc, hpart⟩ : unit '|' ≠ c ∧ unit '|' ∉ part := by simpa using h
    obtain ⟨hsplit, hall⟩ := ih hpart
    rw [List.cons_append, splitOr_cons (Ne.symm hc), hsplit, splitOr_cons (Ne.symm hc), hall]
    exact ⟨rfl, rfl⟩

/-- Texts without bars are found again between bars. -/
theorem splitOr_intercalate {parts : List (List ℕ)} (hne : parts ≠ []) (h : ∀ part ∈ parts, unit '|' ∉ part) :
    splitOr ((units "||").intercalate parts) = parts := by
  induction parts with
  | nil => exact absurd rfl hne
  | cons part parts ih =>
    obtain ⟨hpart, hparts⟩ := List.forall_mem_cons.mp h
    rcases parts with _ | ⟨next, parts⟩
    · rw [List.intercalate_singleton]
      exact (splitOr_part hpart []).2
    · rw [List.intercalate_cons_cons, List.append_assoc, (splitOr_part hpart _).1, ih (List.cons_ne_nil _ _) hparts]

/-- White space around texts between bars changes nothing, where it changes nothing around a text. -/
theorem any_splitOr_trimUnits {f : List ℕ → Bool} (hleft : ∀ g, f (g.dropWhile isSpace) = f g)
    (hright : ∀ g, f (g.rdropWhile isSpace) = f g) {parts : List (List ℕ)} (hne : parts ≠ [])
    (h : ∀ part ∈ parts, unit '|' ∉ part) :
    (splitOr (trimUnits ((units "||").intercalate parts))).any f = parts.any f := by
  have hbar : isSpace (unit '|') = false := by decide
  obtain ⟨first, rest, rfl⟩ := List.exists_cons_of_ne_nil hne
  obtain ⟨hfirst, hrest⟩ := List.forall_mem_cons.mp h
  -- White space in front is dropped from the first text, white space behind from the last.
  have htrim : ∃ init last, first.dropWhile isSpace :: rest = init ++ [last] ∧
      trimUnits ((units "||").intercalate (first :: rest)) =
        (units "||").intercalate (init ++ [last.rdropWhile isSpace]) := by
    rcases List.eq_nil_or_concat (first.dropWhile isSpace :: rest) with hnil | ⟨init, last, hsplit⟩
    · cases hnil
    · rw [List.concat_eq_append] at hsplit
      refine ⟨init, last, hsplit, ?_⟩
      rw [trimUnits, show units "||" = unit '|' :: [unit '|'] from rfl, dropWhile_intercalate hbar, List.modifyHead_cons,
        hsplit]
      exact rdropWhile_intercalate hbar [unit '|'] init last
  obtain ⟨init, last, hsplit, htrim⟩ := htrim
  have hparts : ∀ part ∈ init ++ [last], unit '|' ∉ part := by
    rw [← hsplit]
    refine List.forall_mem_cons.mpr ⟨fun hmem => hfirst ?_, hrest⟩
    exact (List.dropWhile_sublist isSpace).subset hmem
  have hlast : unit '|' ∉ last.rdropWhile isSpace := fun hmem =>
    hparts last (by simp) ((List.rdropWhile_prefix isSpace last).subset hmem)
  have hall : ∀ part ∈ init ++ [last.rdropWhile isSpace], unit '|' ∉ part := by
    intro part hmem
    rcases List.mem_append.mp hmem with hmem | hmem
    · exact hparts part (by simp [hmem])
    · exact List.mem_singleton.mp hmem ▸ hlast
  rw [htrim, splitOr_intercalate (by simp) hall, List.any_append, List.any_cons, hright, ← List.any_cons,
    ← List.any_append, ← hsplit, List.any_cons, hleft, List.any_cons]

/-! ## Matching -/

theorem bar_not_mem_of_plain {text : List ℕ} (h : Plain text) : unit '|' ∉ text := by
  intro hmem
  exact absurd (h _ hmem) (by decide)

theorem bar_not_mem_gap (gap : Gap) : unit '|' ∉ gap.1 := by
  intro hmem
  exact absurd (gap.2 _ hmem) (by decide)

theorem bar_not_mem_group (g : Group) : unit '|' ∉ g.text := by
  have hop : ∀ text : String, (units text).all isPlain = true → unit '|' ∉ units text := fun _ h =>
    bar_not_mem_of_plain (plain_of_all h)
  rw [Group.text, List.mem_append, List.mem_flatMap]
  rintro (⟨⟨gap, cmp⟩, -, hmem⟩ | hmem)
  · rcases List.mem_append.mp hmem with hmem | hmem
    · exact bar_not_mem_gap gap hmem
    · rcases cmp with p | ⟨o, space, p⟩ | p | p
      · exact bar_not_mem_of_plain (plain_pattern p) hmem
      · rcases List.mem_append.mp hmem with hmem | hmem
        · rcases List.mem_append.mp hmem with hmem | hmem
          · exact bar_not_mem_of_plain (plain_op o) hmem
          · exact bar_not_mem_gap space hmem
        · exact bar_not_mem_of_plain (plain_pattern p) hmem
      · exact (List.mem_append.mp hmem).elim (hop _ (by decide)) (bar_not_mem_of_plain (plain_pattern p))
      · exact (List.mem_append.mp hmem).elim (hop _ (by decide)) (bar_not_mem_of_plain (plain_pattern p))
  · exact bar_not_mem_gap g.trailing hmem

/-- A group that is read whole is satisfied by the versions that it admits, tags dropped. -/
theorem satisfiesGroup_of_admitsCore (large : LargeText) {v : Version} {g : Group} (hread : g.IsRead)
    (h : g.AdmitsCore v) :
    satisfiesGroup large (semVer v.major.value v.minor.value v.patch.value) g.text = true := by
  rw [satisfiesGroup_eq, words_group fun p hp => (hread p hp).1, List.all_eq_true]
  intro w hw
  obtain ⟨tok, htok, hw⟩ := List.mem_flatMap.mp hw
  obtain ⟨p, hp, rfl⟩ := List.mem_map.mp htok
  exact satisfies_expandToken large (hread p hp).1 (hread p hp).2 (h p hp) w hw

/-- The version satisfies a range with a group that admits it, tags dropped, if that is read whole. -/
theorem satisfies_of_admitsCore (large : LargeText) (v : Version) (r : Range) (g : Group)
    (hv : (Pattern.full v).IsSafe) (hg : g ∈ r.1) (hread : g.IsRead) (h : g.AdmitsCore v) (version range : String)
    (hversion : units version = v.text) (hrange : units range = r.text) : satisfies large version range = true := by
  have hne : (Pattern.full v).numerals ≠ [] := List.cons_ne_nil _ _
  have hcoerce : coerce v.text = some (semVer v.major.value v.minor.value v.patch.value) :=
    coerce_pattern hne hv.isExact
  have hgroup := satisfiesGroup_of_admitsCore large hread h
  rw [satisfies, hversion, hcoerce, hrange]
  dsimp only
  split_ifs with htext
  · rfl
  · have hparts : ∀ part ∈ r.1.map Group.text, unit '|' ∉ part := by
      intro part hpart
      obtain ⟨g', -, rfl⟩ := List.mem_map.mp hpart
      exact bar_not_mem_group g'
    rw [Range.text, any_splitOr_trimUnits (satisfiesGroup_dropWhile large _) (satisfiesGroup_rdropWhile large _)
      (by simp [r.2]) hparts]
    exact List.any_eq_true.mpr ⟨g.text, List.mem_map_of_mem hg, hgroup⟩

/-- No white space. -/
def noGap : Gap := ⟨[], by simp⟩

/-- A prerelease of one identifier. -/
def prerelease (a b c : ℕ) (i : Identifier) : Version := { release a b c with tag := [i] }

/-- `>=1.2.0-rc <2`. -/
def releaseGroup : Group where
  comparators := [(noGap, .op .ge noGap (.full (prerelease 1 2 0 ⟨units "rc", by decide⟩))),
    (⟨units " ", by decide⟩, .op .lt noGap (.major (.ofNat 2) ⟨[], by simp⟩))]
  trailing := noGap
  separated := by decide

/-- `^3.1`. -/
def caretGroup : Group where
  comparators := [(noGap, .caret (.minor (.ofNat 3) (.ofNat 1) ⟨[], by simp⟩))]
  trailing := noGap
  separated := by simp

theorem precedence_dropTag_prerelease (a b c : ℕ) (i : Identifier) :
    (prerelease a b c i).dropTag.precedence = core a b c := by
  simp [Version.precedence, Version.dropTag, prerelease, release, Numeral.value_ofNat, core]

theorem satisfies_of_admitsCore_beta : satisfies (fun _ => []) "1.4.2-beta" ">=1.2.0-rc <2||^3.1" = true := by
  have hread : releaseGroup.IsRead := by
    intro p hp
    rcases List.mem_pair.mp hp with rfl | rfl
    · exact ⟨⟨rfl, List.cons_ne_nil _ _⟩, by unfold Pattern.IsSafe; decide +kernel⟩
    · exact ⟨rfl, by unfold Pattern.IsSafe; decide +kernel⟩
  have hadmits : releaseGroup.AdmitsCore (prerelease 1 4 2 ⟨units "beta", by decide⟩) := by
    intro p hp
    rw [precedence_dropTag_prerelease]
    rcases List.mem_pair.mp hp with rfl | rfl
    · refine ⟨_, rfl, ?_⟩
      rw [precedence_dropTag_prerelease, core_le_iff]
      decide
    · intro w hw
      refine lt_of_lt_of_le ?_ hw.1
      rw [Numeral.value_ofNat, core_lt_iff]
      decide
  exact satisfies_of_admitsCore (fun _ => []) (prerelease 1 4 2 ⟨units "beta", by decide⟩)
    ⟨[releaseGroup, caretGroup], by simp⟩ releaseGroup (by unfold Pattern.IsSafe; decide +kernel) (by simp) hread
    hadmits _ _ rfl rfl

/-- A range that is one comparator, and is not expanded. -/
theorem satisfies_comparator (large : LargeText) {version range : String} {v : SemVer}
    (hversion : coerce (units version) = some v) (hplain : (units range).all isPlain = true) (hne : units range ≠ [])
    (hcaret : (units range).head? ≠ some (unit '^')) (htilde : (units range).head? ≠ some (unit '~')) :
    satisfies large version range = satisfiesComparator v (units range) := by
  have hrange := plain_of_all hplain
  have hgroup : satisfiesGroup large v (units range) = satisfiesComparator v (units range) := by
    simp [satisfiesGroup_eq, words_eq_singleton hne hrange, expandToken_eq_self large hcaret htilde]
  rw [satisfies, hversion, trimUnits_eq_self hrange.noSpace]
  dsimp only
  split_ifs with h
  · rw [h.resolve_left hne]
    rfl
  · rw [(splitOr_part (bar_not_mem_of_plain hrange) []).2, List.any_cons, List.any_nil, Bool.or_false, hgroup]

/-- One comparator, an operator directly before a version. -/
def single (o : Op) (v : Version) : Range :=
  ⟨[⟨[(noGap, .op o noGap (.full v))], noGap, by simp⟩], by simp⟩

/-- A prerelease lies below its release, and a number that is not rounded above one that is. -/
theorem satisfies_misses :
    (∃ (v : Version) (r : Range), units "1.2.3-alpha" = v.text ∧ units "<1.2.3" = r.text ∧ r.Contains v ∧
      ∀ large, satisfies large "1.2.3-alpha" "<1.2.3" = false) ∧
    ∃ (v : Version) (r : Range), units "9007199254740993.0.0" = v.text ∧ units ">9007199254740992.0.0" = r.text ∧
      r.Contains v ∧ ∀ large, satisfies large "9007199254740993.0.0" ">9007199254740992.0.0" = false := by
  have hcore : ∀ a b c : ℕ, (release a b c).precedence = core a b c := by
    simp [Version.precedence, release, Numeral.value_ofNat, core]
  constructor
  · refine ⟨prerelease 1 2 3 ⟨units "alpha", by decide⟩, single .lt (release 1 2 3), rfl, rfl,
      ⟨_, List.mem_cons_self, ?_⟩, fun large => ?_⟩
    · intro p hp
      rw [List.mem_singleton.mp hp]
      rintro w rfl
      rw [hcore, core]
      simp [Version.precedence, prerelease, release, Numeral.value_ofNat, Prod.Lex.toLex_lt_toLex]
    · rw [satisfies_comparator large (v := ⟨some 1, some 2, some 3⟩) (by decide +kernel) (by decide) (by decide) (by decide)
        (by decide)]
      decide +kernel
  · refine ⟨release 9007199254740993 0 0, single .gt (release 9007199254740992 0 0), by decide +kernel, by decide +kernel,
      ⟨_, List.mem_cons_self, ?_⟩, fun large => ?_⟩
    · intro p hp
      rw [List.mem_singleton.mp hp]
      rintro w rfl
      rw [hcore, hcore, core_lt_iff]
      decide
    · -- Both numbers are read as 2^53.
      rw [satisfies_comparator large (v := ⟨some (2 ^ 53), some 0, some 0⟩) (by decide +kernel) (by decide +kernel)
        (by decide) (by decide) (by decide)]
      decide +kernel

end MontrSecure.Semver
