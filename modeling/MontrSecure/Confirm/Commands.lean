import MontrSecure.Confirm.PayloadSafety

/-!
# The commands of a composed payload

A payload for a command injection is accepted when some allowed command is in it, no word of the deny list
and no long `sleep`. So the other segments may run what neither list knows. `runsReadOnly_iff` says for
which payloads acceptance means that every segment runs a command of the allow list.
-/

namespace MontrSecure.Confirm

open Text Text.Regex

/-! ## Segments -/

/-- A connector of one character: `;`, `|` or a backtick. -/
def isConnectorUnit (c : ℕ) : Bool := isOneOf [';', '|', '\x60'] c

/-- A connector of two characters: `&&` or `$(`. -/
def isConnectorPair (c d : ℕ) : Bool := (c = unit '&' && d = unit '&') || (c = unit '$' && d = unit '(')

/-- One more character before a text that has been split: it ends a segment, or belongs to the first one. -/
def addUnit (c : ℕ) (rest : List ℕ × List (List ℕ)) : List ℕ × List (List ℕ) :=
  if isConnectorUnit c then ([], rest.1 :: rest.2)
  else if c = unit ')' then ([], rest.2) else (c :: rest.1, rest.2)

/-- A text up to the first connector or closing delimiter, and the segments after connectors. -/
def splitCommands : List ℕ → List ℕ × List (List ℕ)
  | [] => ([], [])
  | [c] => addUnit c ([], [])
  | c :: d :: text =>
    if isConnectorPair c d then ([], (splitCommands text).1 :: (splitCommands text).2)
    else addUnit c (splitCommands (d :: text))

/-- The segments of a payload after the leading one. -/
def commandSegments (payload : String) : List (List ℕ) := (splitCommands (units payload)).2

/-- What the text after a segment may be. -/
def stopsAt : List ℕ → Bool
  | [] => true
  | c :: rest =>
    isConnectorUnit c || c = unit ')' || (rest.head?.map (isConnectorPair c)).getD false

/-- A segment, and the text after it: no connector and no closing delimiter begins in it. -/
structure Segment (segment post : List ℕ) : Prop where
  clean : ∀ c ∈ segment, isConnectorUnit c = false ∧ c ≠ unit ')'
  noPair : ∀ pre c d rest, segment ++ post = pre ++ c :: d :: rest → isConnectorPair c d = true →
    segment.length ≤ pre.length
  stops : stopsAt post = true

theorem segment_nil {post : List ℕ} (h : stopsAt post = true) : Segment [] post :=
  ⟨by simp, fun _ _ _ _ _ _ => Nat.zero_le _, h⟩

/-- What splitting a text gives: the first part is a segment, and so are the others, each after a character
that is no word character. -/
structure Splits (text : List ℕ) (parts : List ℕ × List (List ℕ)) : Prop where
  first : ∃ post, text = parts.1 ++ post ∧ Segment parts.1 post
  others : ∀ segment ∈ parts.2, ∃ pre c post,
    text = pre ++ c :: (segment ++ post) ∧ isWord c = false ∧ Segment segment post

/-- After a connector, the first part of the rest is a segment. -/
theorem Splits.afterConnector (pre : List ℕ) {text : List ℕ} {c : ℕ} {parts : List ℕ × List (List ℕ)}
    (h : Splits text parts) (hword : isWord c = false) (hstops : stopsAt (pre ++ c :: text) = true) :
    Splits (pre ++ c :: text) ([], parts.1 :: parts.2) := by
  refine ⟨⟨_, rfl, segment_nil hstops⟩, fun segment hmem => ?_⟩
  obtain rfl | hmem := List.mem_cons.mp hmem
  · obtain ⟨post, heq, hsegment⟩ := h.first
    exact ⟨pre, c, post, by rw [heq.symm], hword, hsegment⟩
  · obtain ⟨pre', c', post, rfl, hword', hsegment⟩ := h.others segment hmem
    exact ⟨pre ++ c :: pre', c', post, by simp, hword', hsegment⟩

theorem Splits.addUnit {text : List ℕ} {c : ℕ} {parts : List ℕ × List (List ℕ)} (h : Splits text parts)
    (hpair : ∀ d rest, text = d :: rest → isConnectorPair c d = false) :
    Splits (c :: text) (addUnit c parts) := by
  unfold Confirm.addUnit
  split_ifs with hconnector hclosing
  · have hword : isWord c = false := by
      simp only [isConnectorUnit, isOneOf, List.any_cons, List.any_nil, Bool.or_false, Bool.or_eq_true,
        decide_eq_true_eq] at hconnector
      obtain rfl | rfl | rfl := hconnector <;> decide
    exact h.afterConnector [] hword (by simp [stopsAt, hconnector])
  · refine ⟨⟨_, rfl, segment_nil (by simp [stopsAt, hclosing])⟩, fun segment hmem => ?_⟩
    obtain ⟨pre, c', post, rfl, hword, hsegment⟩ := h.others segment hmem
    exact ⟨c :: pre, c', post, rfl, hword, hsegment⟩
  · constructor
    · obtain ⟨post, heq, hsegment⟩ := h.first
      refine ⟨post, by rw [heq, List.cons_append], ⟨?_, fun pre a b rest hsplit hab => ?_, hsegment.stops⟩⟩
      · exact List.forall_mem_cons.mpr ⟨⟨by simpa using hconnector, hclosing⟩, hsegment.clean⟩
      · cases pre with
        | nil =>
          -- the pair would begin at the character that was added
          obtain ⟨rfl, hrest⟩ := List.cons.inj hsplit
          rw [hpair b rest (heq.trans hrest)] at hab
          cases hab
        | cons x pre =>
          obtain ⟨-, hrest⟩ := List.cons.inj hsplit
          exact Nat.succ_le_succ (hsegment.noPair pre a b rest hrest hab)
    · intro segment hmem
      obtain ⟨pre, c', post, rfl, hword, hsegment⟩ := h.others segment hmem
      exact ⟨c :: pre, c', post, rfl, hword, hsegment⟩

theorem splits_splitCommands (text : List ℕ) : Splits text (splitCommands text) := by
  induction text using splitCommands.induct with
  | case1 => exact ⟨⟨[], rfl, segment_nil rfl⟩, fun _ hmem => nomatch hmem⟩
  | case2 c =>
    have hempty : Splits [] ([], []) := ⟨⟨[], rfl, segment_nil rfl⟩, fun _ hmem => nomatch hmem⟩
    exact hempty.addUnit fun _ _ h => nomatch h
  | case3 c d text hpair ih =>
    rw [splitCommands, if_pos hpair]
    have hword : isWord d = false := by
      simp only [isConnectorPair, Bool.or_eq_true, Bool.and_eq_true, decide_eq_true_eq] at hpair
      obtain ⟨_, rfl⟩ | ⟨_, rfl⟩ := hpair <;> decide
    exact ih.afterConnector [c] hword (by simp [stopsAt, hpair])
  | case4 c d text hpair ih =>
    rw [splitCommands, if_neg hpair]
    refine ih.addUnit fun d' rest h => ?_
    obtain ⟨rfl, -⟩ := List.cons.inj h
    simpa using hpair

/-! ## Commands -/

/-- The word that a text begins with, after white space. -/
def firstWord (text : List ℕ) : List ℕ := (afterSpaces text).takeWhile fun c => !isSpace c

/-- What stands after that word. -/
def afterFirstWord (text : List ℕ) : List ℕ := (afterSpaces text).dropWhile fun c => !isSpace c

/-- The commands that only read, but for `sleep`. -/
def readOnlyCommands : List String := ["id", "whoami", "pwd", "hostname", "uname", "echo"]

/-- The segment is empty, or starts with a command that only reads, or with a sleep of five seconds at most. -/
def runsReadOnly (segment : List ℕ) : Bool :=
  firstWord segment = [] || decide (firstWord segment ∈ readOnlyCommands.map units) ||
    (firstWord segment = units "sleep" && firstWord (afterFirstWord segment) != [] &&
      (numberOf (firstWord (afterFirstWord segment))).any fun seconds => seconds ≤ 5)

/-- The segment is empty, or starts with a command of the allow list, where a sleep has an argument, or has a
word of the deny list. -/
def isListed (segment : List ℕ) : Bool :=
  firstWord segment = [] || decide (firstWord segment ∈ readOnlyCommands.map units) ||
    (firstWord segment = units "sleep" && firstWord (afterFirstWord segment) != []) ||
    commandInjectionDenylist.test segment

/-- What the predicate asks of a payload for a command injection. -/
structure Screened (payload : String) (marker : Option String) : Prop where
  bounds : checkGenericBounds payload commandInjectionMaxLength = none
  connector : commandInjectionConnector.test (units payload) = true
  redirection : commandInjectionRedirection.test (units payload) = false
  denylist : commandInjectionDenylist.test (units payload) = false
  sleeps : ∀ arg ∈ sleepTokens 0 none (units payload), badSleepArg arg = false
  allowed : commandInjectionAllowedCommand.test (units payload) = true
  marker : ∃ m, marker = some m ∧ m ≠ "" ∧ Text.includes payload m = true

/-- A payload is accepted when it passes every check. -/
theorem safe_iff_screened {payload : String} {marker : Option String} :
    (evaluateCommandInjectionPayload payload marker).safe = true ↔ Screened payload marker := by
  unfold evaluateCommandInjectionPayload
  cases hbounds : checkGenericBounds payload commandInjectionMaxLength with
  | some v =>
    refine ⟨fun h => ?_, fun h => ?_⟩
    · rw [not_safe_of_bounds hbounds] at h
      cases h
    · have hnone := h.bounds
      rw [hbounds] at hnone
      cases hnone
  | none =>
    dsimp only
    split_ifs with hconnector hredirection hdenylist hallowed
    · exact ⟨fun h => (by cases h), fun h => absurd h.connector (by simpa using hconnector)⟩
    · exact ⟨fun h => (by cases h), fun h => absurd h.redirection (by simp [hredirection])⟩
    · exact ⟨fun h => (by cases h), fun h => absurd h.denylist (by simp [hdenylist])⟩
    · refine ⟨fun h => ?_, fun h => absurd h.allowed (by simpa using hallowed)⟩
      split at h <;> cases h
    · cases hsleeps : (sleepTokens 0 none (units payload)).find? badSleepArg with
      | some arg =>
        refine ⟨fun h => (by cases h), fun h => ?_⟩
        have hbad := List.find?_some hsleeps
        rw [h.sleeps arg (List.mem_of_find?_eq_some hsleeps)] at hbad
        cases hbad
      | none =>
        dsimp only
        generalize hverdict : checkMarker payload marker _ _ = verdict
        cases verdict with
        | some v =>
          refine ⟨fun h => ?_, fun h => ?_⟩
          · rw [Option.getD_some, not_safe_of_marker hverdict] at h
            cases h
          · rw [checkMarker_eq_none.mpr h.marker] at hverdict
            cases hverdict
        | none =>
          refine ⟨fun _ => ⟨hbounds, ?_, ?_, ?_, ?_, ?_, checkMarker_eq_none.mp hverdict⟩, fun _ => rfl⟩
          · simpa using hconnector
          · simpa using hredirection
          · simpa using hdenylist
          · simpa using hsleeps
          · simpa using hallowed

/-! ## Sleeps -/

/-- A letter that a sleep begins with. -/
abbrev isSleepInitial (c : ℕ) : Bool := isOneOf ['s', 'S'] c

/-- A sleep begins with that letter; the rest of the word and the white space after it have none. -/
theorem of_sleepToken {before : Option ℕ} {c : ℕ} {text arg rest : List ℕ}
    (h : sleepToken ⟨before, c :: text⟩ = some (arg, rest)) :
    isSleepInitial c = true ∧
      ∃ skipped, text = skipped ++ rest ∧ ∀ x ∈ skipped, x ∈ arg ∨ isSleepInitial x = false := by
  unfold sleepToken at h
  split_ifs at h
  obtain ⟨rest', hword, h⟩ := Option.bind_eq_some_iff.mp h
  split_ifs at h
  cases h
  unfold afterCased at hword
  dsimp only at hword
  split_ifs at hword with hmatch
  obtain ⟨hletters, hlength⟩ := hmatch
  -- the text has at least the five letters of the word
  match text, hlength, hletters, hword with
  | l :: e :: e' :: p :: tail, _, hletters, hword =>
    cases hword
    have hunits : units "sleep" = [115, 108, 101, 101, 112] := by decide
    rw [hunits] at hletters ⊢
    simp only [List.zip_cons_cons, List.zip_nil_left, List.all_cons, List.all_nil, Bool.and_true,
      Bool.and_eq_true, Bool.or_eq_true, decide_eq_true_eq] at hletters
    obtain ⟨hc, hl, he, he', hp⟩ := hletters
    have hspaces : ∀ x ∈ tail.takeWhile isSpace, isSleepInitial x = false := by
      intro x hx
      have hspace := List.mem_takeWhile_imp hx
      by_contra hinitial
      simp only [isSleepInitial, isOneOf, List.any_cons, List.any_nil, Bool.or_false, Bool.not_eq_false,
        Bool.or_eq_true, decide_eq_true_eq] at hinitial
      obtain rfl | rfl := hinitial <;> revert hspace <;> decide
    have hletter : ∀ x n : ℕ, (x = n ∨ isLower n = true ∧ x + 32 = n) → n = 108 ∨ n = 101 ∨ n = 112 →
        isSleepInitial x = false := by
      intro x n hx hn
      simp only [isSleepInitial, isOneOf, List.any_cons, List.any_nil, Bool.or_false, Bool.or_eq_false_iff,
        decide_eq_false_iff_not]
      show ¬115 = x ∧ ¬83 = x
      omega
    refine ⟨?_, l :: e :: e' :: p :: (tail.takeWhile isSpace ++ (afterSpaces tail).takeWhile isSleepArgUnit),
      ?_, ?_⟩
    · simp only [isSleepInitial, isOneOf, List.any_cons, List.any_nil, Bool.or_false, Bool.or_eq_true,
        decide_eq_true_eq]
      show 115 = c ∨ 83 = c
      omega
    · show l :: e :: e' :: p :: tail = _
      simp [afterSpaces, List.takeWhile_append_dropWhile]
    · simp only [List.forall_mem_cons, List.forall_mem_append]
      refine ⟨.inr (hletter l _ hl (by decide)), .inr (hletter e _ he (by decide)),
        .inr (hletter e' _ he' (by decide)), .inr (hletter p _ hp (by decide)), fun x hx => .inr (hspaces x hx),
        fun x hx => .inl hx⟩

/-- A sleep with a good argument has no other sleep in it. -/
theorem not_initial_of_good {arg : List ℕ} (h : badSleepArg arg = false) :
    ∀ x ∈ arg, isSleepInitial x = false := by
  intro x hx
  cases hnumber : numberOf arg with
  | none =>
    rw [badSleepArg, hnumber] at h
    cases h
  | some seconds =>
    by_contra hinitial
    simp only [isSleepInitial, isOneOf, List.any_cons, List.any_nil, Bool.or_false, Bool.not_eq_false,
      Bool.or_eq_true, decide_eq_true_eq] at hinitial
    have hnumeral := numeral_of_numberOf hnumber x hx
    obtain rfl | rfl := hinitial <;> revert hnumeral <;> decide

/-- When all the arguments that are looked at are good, every sleep is looked at. -/
theorem mem_sleepTokens {text : List ℕ} {pos : Position ℕ} {arg rest : List ℕ} :
    ∀ {skip : ℕ} {before : Option ℕ}, (∀ x ∈ text.take skip, isSleepInitial x = false) →
      (∀ a ∈ sleepTokens skip before text, badSleepArg a = false) → pos ∈ positionsFrom before text →
      sleepToken pos = some (arg, rest) → arg ∈ sleepTokens skip before text := by
  induction text with
  | nil =>
    intro skip before _ _ hpos htoken
    obtain rfl := List.mem_singleton.mp hpos
    unfold sleepToken at htoken
    split_ifs at htoken
    cases htoken
  | cons c text ih =>
    intro skip before hquiet hgood hpos htoken
    rw [positionsFrom, List.mem_cons] at hpos
    cases skip with
    | succ skip =>
      rw [List.take_succ_cons, List.forall_mem_cons] at hquiet
      obtain rfl | hpos := hpos
      · -- no sleep begins in what belongs to the match before
        rw [(of_sleepToken htoken).1] at hquiet
        cases hquiet.1
      · exact ih hquiet.2 hgood hpos htoken
    | zero =>
      unfold sleepTokens at hgood ⊢
      cases hhere : sleepToken ⟨before, c :: text⟩ with
      | none =>
        rw [hhere] at hgood
        obtain rfl | hpos := hpos
        · rw [hhere] at htoken
          cases htoken
        · exact ih (by simp) hgood hpos htoken
      | some found =>
        obtain ⟨arg', rest'⟩ := found
        rw [hhere] at hgood
        obtain ⟨hgood', hgood⟩ := List.forall_mem_cons.mp hgood
        obtain rfl | hpos := hpos
        · rw [hhere] at htoken
          cases htoken
          exact List.mem_cons_self
        · refine List.mem_cons_of_mem _ (ih ?_ hgood hpos htoken)
          obtain ⟨-, skipped, rfl, hskipped⟩ := of_sleepToken hhere
          rw [List.length_append, Nat.add_sub_cancel, List.take_left]
          intro x hx
          obtain harg | hother := hskipped x hx
          · exact not_initial_of_good hgood' x harg
          · exact hother

/-! ## Ampersands and the deny list -/

/-- An ampersand with no other next to it is a redirection. -/
theorem redirection_of_lone {pre rest : List ℕ} (hpre : pre.getLast? ≠ some (unit '&'))
    (hrest : rest.head? ≠ some (unit '&')) :
    commandInjectionRedirection.test (pre ++ unit '&' :: rest) = true := by
  refine (test_iff _).mpr
    ⟨⟨pre.getLast?, unit '&' :: rest⟩, mem_positionsFrom.mpr ⟨pre, rfl, by simp⟩, ?_⟩
  have hlit : lit "&" = sym fun b => decide (b = 38) := by
    simp [lit, word, concat, show units "&" = [38] from by decide]
  refine List.ne_nil_of_mem (a := ⟨some (unit '&'), rest⟩) (List.mem_append_right _ ?_)
  have hunit : unit '&' = 38 := rfl
  rw [hunit] at hpre hrest ⊢
  simp [concat, ends, hlit, hpre, hrest]

/-- Symbols that are no word characters, or none at all, are the same for a word boundary. -/
abbrev SameToWords (a b : Option ℕ) : Prop := a.any isWord = b.any isWord

theorem blind_litCased (s : String) : (litCased s).Blind SameToWords := by
  refine blind_concat fun r hr => ?_
  obtain ⟨c, _, rfl⟩ := List.mem_map.mp hr
  trivial

theorem blind_denylist : commandInjectionDenylist.Blind SameToWords := by
  have hboundary : wordBoundary.Blind SameToWords := by
    intro b b' a a' hb ha
    show (b.any isWord != a.any isWord) = (b'.any isWord != a'.any isWord)
    rw [show b.any isWord = b'.any isWord from hb, show a.any isWord = a'.any isWord from ha]
  refine blind_concat fun r hr => ?_
  simp only [List.mem_cons, List.not_mem_nil, or_false] at hr
  obtain rfl | rfl | rfl := hr
  · exact hboundary
  · refine blind_oneOf fun r hr => ?_
    obtain hr | hr := List.mem_append.mp hr
    · obtain ⟨s, _, rfl⟩ := List.mem_map.mp hr
      exact blind_litCased s
    · obtain rfl | hr := List.mem_cons.mp hr
      · exact ⟨blind_litCased _, trivial⟩
      · obtain ⟨s, _, rfl⟩ := List.mem_map.mp hr
        exact blind_litCased s
  · exact hboundary

theorem stopsAt_head {post : List ℕ} (h : stopsAt post = true) :
    post = [] ∨
      ∃ c rest, post = c :: rest ∧ isWord c = false ∧ (isSleepArgUnit c = false ∨ c = unit '$') := by
  cases post with
  | nil => exact .inl rfl
  | cons c rest =>
    refine .inr ⟨c, rest, rfl, ?_⟩
    have hunit :
        c = unit ';' ∨ c = unit '|' ∨ c = unit '\x60' ∨ c = unit ')' ∨ c = unit '&' ∨ c = unit '$' := by
      simp only [stopsAt, isConnectorUnit, isOneOf, List.any_cons, List.any_nil, Bool.or_false, Bool.or_eq_true,
        decide_eq_true_eq] at h
      obtain (h | h) | h := h
      · omega
      · omega
      · cases hhead : rest.head? with
        | none =>
          rw [hhead] at h
          cases h
        | some d =>
          rw [hhead] at h
          simp only [Option.map_some, Option.getD_some, isConnectorPair, Bool.or_eq_true, Bool.and_eq_true,
            decide_eq_true_eq] at h
          omega
    obtain rfl | rfl | rfl | rfl | rfl | rfl := hunit <;> decide

/-- A segment with a word of the deny list is in no payload without one. -/
theorem denylist_of_segment (pre : List ℕ) {segment post : List ℕ} {c : ℕ} (hc : isWord c = false)
    (hsegment : Segment segment post) (h : commandInjectionDenylist.test segment = true) :
    commandInjectionDenylist.test (pre ++ c :: (segment ++ post)) = true := by
  have hpost : SameToWords none post.head? := by
    obtain rfl | ⟨d, rest, rfl, hd, -⟩ := stopsAt_head hsegment.stops
    · rfl
    · simp [SameToWords, hd]
  have hpre : SameToWords none (pre ++ [c]).getLast? := by simp [SameToWords, hc]
  have htest := test_of_test_part (fun a => show SameToWords a a from rfl) blind_denylist hpre hpost h
  simpa using htest

/-- A segment has no ampersand after its first character, where lone ones are rejected. -/
theorem no_ampersand {before segment post : List ℕ} (hsegment : Segment segment post)
    (hlone : commandInjectionRedirection.test (before ++ (segment ++ post)) = false) :
    ∀ pre rest, segment = pre ++ unit '&' :: rest → pre = [] := by
  rintro pre rest rfl
  by_contra hpre
  have hlast : pre.getLast? ≠ some (unit '&') := by
    intro hlast
    obtain ⟨pre', rfl⟩ := List.getLast?_eq_some_iff.mp hlast
    have hlength := hsegment.noPair pre' (unit '&') (unit '&') (rest ++ post) (by simp) (by decide)
    simp at hlength
  have hhead : (rest ++ post).head? ≠ some (unit '&') := by
    intro hhead
    obtain ⟨rest', hrest'⟩ := List.head?_eq_some_iff.mp hhead
    have hlength := hsegment.noPair pre (unit '&') (unit '&') rest' (by simp [hrest']) (by decide)
    simp at hlength
  have hlast' : (before ++ pre).getLast? ≠ some (unit '&') := by
    rw [List.getLast?_append_of_ne_nil _ hpre]
    exact hlast
  have htest := redirection_of_lone hlast' hhead
  rw [List.append_assoc, ← List.cons_append, ← List.append_assoc pre, hlone] at htest
  cases htest

/-- A sleep after a character that is no word character is looked at. -/
theorem sleepToken_of_word {before : Option ℕ} {rest : List ℕ} (hbefore : before.any isWord = false)
    (hrest : rest.head?.any isWord = false) :
    sleepToken ⟨before, units "sleep" ++ rest⟩ =
      some ((afterSpaces rest).takeWhile isSleepArgUnit, (afterSpaces rest).dropWhile isSleepArgUnit) := by
  unfold sleepToken
  rw [hbefore, if_neg Bool.false_ne_true, afterCased_append, Option.bind_some, hrest, if_neg Bool.false_ne_true]

/-- What is read as the argument of a sleep goes on after it only with a `$`. -/
theorem takeWhile_sleepArg {arg more post : List ℕ} (harg : ∀ c ∈ arg, isSleepArgUnit c = true)
    (hmore : more = [] ∨ ∃ c rest, more = c :: rest ∧ isSpace c = true) (hstops : stopsAt post = true) :
    (arg ++ (more ++ post)).takeWhile isSleepArgUnit = arg ∨
      unit '$' ∈ (arg ++ (more ++ post)).takeWhile isSleepArgUnit := by
  rw [List.takeWhile_append_of_pos harg]
  obtain rfl | ⟨c, rest, rfl, hspace⟩ := hmore
  · obtain rfl | ⟨c, rest, rfl, -, hstop | rfl⟩ := stopsAt_head hstops
    · simp
    · simp [hstop]
    · right
      have hdollar : isSleepArgUnit (unit '$') = true := by decide
      simp [hdollar]
  · have hstop : isSleepArgUnit c = false := by simp [isSleepArgUnit, hspace]
    simp [hstop]

/-- A number has no `$` in it. -/
theorem bad_of_dollar {arg : List ℕ} (h : unit '$' ∈ arg) : badSleepArg arg = true := by
  cases hnumber : numberOf arg with
  | none => rw [badSleepArg, hnumber, Option.all_none]
  | some seconds => exact absurd (numeral_of_numberOf hnumber _ h) (by decide)

/-- What stands after a word begins with white space, unless it is empty. -/
theorem afterFirstWord_head (text : List ℕ) :
    afterFirstWord text = [] ∨ ∃ c rest, afterFirstWord text = c :: rest ∧ isSpace c = true := by
  cases hcases : afterFirstWord text with
  | nil => exact .inl rfl
  | cons c rest =>
    have hhead := List.head?_dropWhile_not (fun c => !isSpace c) (afterSpaces text)
    rw [show List.dropWhile _ _ = afterFirstWord text from rfl, hcases] at hhead
    exact .inr ⟨c, rest, rfl, by simpa using hhead⟩

/-- The argument of a sleep that a segment begins with is looked at. -/
theorem good_sleep_of_segment {payload : String} {marker : Option String} {pre segment post : List ℕ} {c : ℕ}
    (hscreened : Screened payload marker) (hunits : units payload = pre ++ c :: (segment ++ post))
    (hc : isWord c = false) (hsegment : Segment segment post) (hword : firstWord segment = units "sleep")
    (harg : firstWord (afterFirstWord segment) ≠ []) :
    badSleepArg (firstWord (afterFirstWord segment)) = false := by
  -- the segment: white space, the word, white space, the argument, and more
  obtain ⟨spaces, hspaces⟩ : ∃ w, w = segment.takeWhile isSpace := ⟨_, rfl⟩
  obtain ⟨rest, hrest⟩ : ∃ r, r = afterFirstWord segment := ⟨_, rfl⟩
  have hsplit : segment = spaces ++ (units "sleep" ++ rest) := by
    rw [hspaces, hrest, ← hword, firstWord, afterFirstWord, List.takeWhile_append_dropWhile]
    exact (List.takeWhile_append_dropWhile).symm
  rw [← hrest] at harg ⊢
  obtain ⟨arg, hargeq⟩ : ∃ a, a = firstWord rest := ⟨_, rfl⟩
  obtain ⟨more, hmore⟩ : ∃ m, m = afterFirstWord rest := ⟨_, rfl⟩
  have hafter : afterSpaces rest = arg ++ more := by
    rw [hargeq, hmore, firstWord, afterFirstWord, List.takeWhile_append_dropWhile]
  rw [← hargeq] at harg ⊢
  -- white space comes after the word, since an argument does
  obtain ⟨s, rest', hs, hspace⟩ : ∃ s rest', rest = s :: rest' ∧ isSpace s = true := by
    obtain hnil | hcons := afterFirstWord_head segment
    · rw [hrest, hnil] at hargeq
      exact absurd hargeq harg
    · rwa [← hrest] at hcons
  have hbefore : (pre ++ c :: spaces).getLast?.any isWord = false := by
    rw [List.getLast?_append, List.getLast?_cons]
    cases hlast : spaces.getLast? with
    | none => simpa using hc
    | some d =>
      have hmem := List.mem_of_getLast? hlast
      rw [hspaces] at hmem
      simpa using isWord_of_isSpace (List.mem_takeWhile_imp hmem)
  have hhead : (rest ++ post).head?.any isWord = false := by simp [hs, isWord_of_isSpace hspace]
  have htoken := sleepToken_of_word hbefore hhead
  have hpos : (⟨(pre ++ c :: spaces).getLast?, units "sleep" ++ (rest ++ post)⟩ : Position ℕ) ∈
      positionsFrom none (units payload) := by
    refine mem_positionsFrom.mpr ⟨pre ++ c :: spaces, ?_, by simp⟩
    rw [hunits, hsplit]
    simp
  have hgood := hscreened.sleeps _ (mem_sleepTokens (by simp) hscreened.sleeps hpos htoken)
  have hread : afterSpaces (rest ++ post) = arg ++ (more ++ post) := by
    have hne : (afterSpaces rest).isEmpty = false := by simp [hafter, harg]
    rw [afterSpaces, List.dropWhile_append, show List.dropWhile isSpace rest = afterSpaces rest from rfl, hne]
    simp [hafter]
  -- nothing in the argument ends what is read
  have hunitsarg : ∀ x ∈ arg, isSleepArgUnit x = true := by
    intro x hx
    have hnospace : isSpace x = false := by
      rw [hargeq] at hx
      simpa using List.mem_takeWhile_imp hx
    have hrestsplit : rest = rest.takeWhile isSpace ++ (arg ++ more) := by
      rw [← hafter]
      exact (List.takeWhile_append_dropWhile).symm
    have hclean := hsegment.clean x (by rw [hsplit, hrestsplit]; simp [hx])
    have hampersand : x ≠ unit '&' := by
      rintro rfl
      obtain ⟨a₁, a₂, hsplitarg⟩ := List.append_of_mem hx
      have hlone : commandInjectionRedirection.test ((pre ++ [c]) ++ (segment ++ post)) = false := by
        have hred := hscreened.redirection
        rw [hunits] at hred
        simpa using hred
      have hempty := no_ampersand hsegment hlone
        (spaces ++ (units "sleep" ++ (rest.takeWhile isSpace ++ a₁))) (a₂ ++ more) (by
          conv_lhs => rw [hsplit, hrestsplit, hsplitarg]
          simp)
      have hsleep : units "sleep" ≠ [] := by decide
      simp [hsleep] at hempty
    simp only [isConnectorUnit, isOneOf, List.any_cons, List.any_nil, Bool.or_false, Bool.or_eq_false_iff,
      decide_eq_false_iff_not] at hclean
    simp only [isSleepArgUnit, hnospace, isOneOf, List.any_cons, List.any_nil, Bool.or_false, Bool.not_false,
      Bool.true_and, Bool.not_eq_true', Bool.or_eq_false_iff, decide_eq_false_iff_not]
    exact ⟨hclean.1.1, hclean.1.2.1, fun h => hampersand h.symm, hclean.1.2.2, fun h => hclean.2 h.symm⟩
  rw [hread] at hgood
  obtain heq | hdollar := takeWhile_sleepArg hunitsarg (hmore ▸ afterFirstWord_head rest) hsegment.stops
  · rwa [heq] at hgood
  · rw [bad_of_dollar hdollar] at hgood
    cases hgood

/-! ## What an accepted payload runs -/

/-- If the payload is accepted, each of its segments after a connector runs a command that only reads. -/
def RunsReadOnly (parseUrl : String → Option PayloadUrl) (payload : String) (marker : Option String) : Prop :=
  (evaluateComposedPayloadSafety parseUrl .commandInjection payload marker).safe = true →
    ∀ segment ∈ commandSegments payload, runsReadOnly segment = true

/-- Accepted payloads run only commands of the allow list exactly when the payload fails a check, or no segment
of it starts with a command that neither list knows. -/
theorem runsReadOnly_iff (parseUrl : String → Option PayloadUrl) (payload : String) (marker : Option String) :
    RunsReadOnly parseUrl payload marker ↔
      (Screened payload marker → ∀ segment ∈ commandSegments payload, isListed segment = true) := by
  have hscreen : (evaluateComposedPayloadSafety parseUrl .commandInjection payload marker).safe = true ↔
      Screened payload marker := safe_iff_screened
  rw [RunsReadOnly, hscreen]
  constructor
  · intro hruns hscreened segment hmem
    have hrun := hruns hscreened segment hmem
    simp only [runsReadOnly, isListed, Bool.or_eq_true, Bool.and_eq_true] at hrun ⊢
    obtain (hempty | hknown) | ⟨hsleep, -⟩ := hrun
    · exact .inl (.inl (.inl hempty))
    · exact .inl (.inl (.inr hknown))
    · exact .inl (.inr hsleep)
  · intro hlisted hscreened segment hmem
    obtain ⟨pre, c, post, hunits, hc, hsegment⟩ := (splits_splitCommands (units payload)).others segment hmem
    have hlist := hlisted hscreened segment hmem
    simp only [runsReadOnly, isListed, Bool.or_eq_true, Bool.and_eq_true, decide_eq_true_eq, bne_iff_ne]
      at hlist ⊢
    obtain ((hempty | hknown) | ⟨hsleep, harg⟩) | hdenied := hlist
    · exact .inl (.inl hempty)
    · exact .inl (.inr hknown)
    · have hgood := good_sleep_of_segment hscreened hunits hc hsegment hsleep harg
      refine .inr ⟨⟨hsleep, harg⟩, ?_⟩
      cases hnumber : numberOf (firstWord (afterFirstWord segment)) with
      | none =>
        rw [badSleepArg, hnumber] at hgood
        cases hgood
      | some seconds =>
        rw [badSleepArg, hnumber, Option.all_some] at hgood
        have hlimit := of_decide_eq_false (Bool.or_eq_false_iff.mp hgood).2
        exact decide_eq_true (not_lt.mp hlimit)
    · -- a word of the deny list would have been found in the payload
      have hfound := denylist_of_segment pre hc hsegment hdenied
      rw [← hunits, hscreened.denylist] at hfound
      cases hfound

/-- `cat` is on neither list, and runs beside `id`. -/
theorem not_runsReadOnly_cat :
    ¬RunsReadOnly (fun _ => none) "x; id; cat /etc/hosts; echo M1" (some "M1") := by
  intro h
  have hruns := h (by decide +kernel)
  have hcat : units " cat /etc/hosts" ∈ commandSegments "x; id; cat /etc/hosts; echo M1" := by decide +kernel
  have hfalse := hruns _ hcat
  revert hfalse
  decide +kernel

end MontrSecure.Confirm
