import MontrSecure.Js.Stringify

/-!
# `JSON.parse`

A parser of JSON texts by recursive descent. The numerals of a `NumberFormat` are read by a
`NumberReader`. What `JSON.stringify` has written is read back as it was (`parseJson_stringify`), with
the keys of objects in the order they were enumerated in.
-/

namespace MontrSecure

open Text

/-! ## Strings -/

/-- White space. -/
def isBlank (c : Char) : Bool := c = ' ' || c = '\t' || c = '\n' || c = '\r'

/-- The text after the white space it begins with. -/
def skipBlanks (s : List Char) : List Char := s.dropWhile isBlank

/-- The value of a hexadecimal digit. -/
def hexValue? (c : Char) : Option ℕ :=
  if c.isDigit then some (c.toNat - '0'.toNat)
  else if 'a' ≤ c ∧ c ≤ 'f' then some (c.toNat - 'a'.toNat + 10)
  else if 'A' ≤ c ∧ c ≤ 'F' then some (c.toNat - 'A'.toNat + 10) else none

/-- The code unit of four hexadecimal digits. -/
def hexUnit? (a b c d : Char) : Option ℕ := do
  return 0x1000 * (← hexValue? a) + 0x100 * (← hexValue? b) + 0x10 * (← hexValue? c) + (← hexValue? d)

/-- The letters of short escapes. -/
def isShortEscape (letter : Char) : Bool :=
  ['b', 't', 'n', 'f', 'r', '"', '\\', '/'].contains letter

/-- The code units of a string up to the quotation mark that ends it, and what comes after. -/
def readUnits : List Char → Option (List ℕ × List Char)
  | [] => none
  | '"' :: rest => some ([], rest)
  | '\\' :: 'u' :: a :: b :: c :: d :: rest => do
    let u ← hexUnit? a b c d
    let (us, rest) ← readUnits rest
    return (u :: us, rest)
  | '\\' :: letter :: rest =>
    if isShortEscape letter then do
      let (us, rest) ← readUnits rest
      return (charUnits (unescape letter) ++ us, rest)
    else none
  | c :: rest =>
    if c.toNat < 0x20 ∨ c = '\\' then none
    else do
      let (us, rest) ← readUnits rest
      return (charUnits c ++ us, rest)

/-- The characters of code units; none when a surrogate stands alone. -/
def decodeUnits : List ℕ → Option (List Char)
  | [] => some []
  | u :: us =>
    if u < 0xD800 ∨ 0xDFFF < u then do return Char.ofNat u :: (← decodeUnits us)
    else
      match us with
      | v :: us =>
        if u < 0xDC00 ∧ 0xDC00 ≤ v ∧ v ≤ 0xDFFF then do
          return Char.ofNat (0x10000 + (u - 0xD800) * 0x400 + (v - 0xDC00)) :: (← decodeUnits us)
        else none
      | [] => none

/-- A string after its first quotation mark. -/
def readString (s : List Char) : Option (String × List Char) := do
  let (us, rest) ← readUnits s
  return (String.ofList (← decodeUnits us), rest)

/-- Characters are read back from their code units. -/
theorem decodeUnits_charUnits (c : Char) (us : List ℕ) :
    decodeUnits (charUnits c ++ us) = (decodeUnits us).map (c :: ·) := by
  have hc := not_surrogate c
  unfold charUnits
  split
  · rw [List.singleton_append, decodeUnits.eq_def]
    dsimp only
    rw [if_pos (by omega), Char.ofNat_toNat]
    cases decodeUnits us <;> rfl
  · rename_i hlarge
    have hcode : 0x10000 + (0xD800 + (c.toNat - 0x10000) / 0x400 - 0xD800) * 0x400 +
        (0xDC00 + (c.toNat - 0x10000) % 0x400 - 0xDC00) = c.toNat := by
      omega
    rw [List.cons_append, List.singleton_append, decodeUnits.eq_def]
    dsimp only
    rw [if_neg (by omega), if_pos (by omega), hcode, Char.ofNat_toNat]
    cases decodeUnits us <;> rfl

theorem decodeUnits_units (cs : List Char) : decodeUnits (cs.flatMap charUnits) = some cs := by
  induction cs with
  | nil => rfl
  | cons c cs ih => rw [List.flatMap_cons, decodeUnits_charUnits, ih, Option.map_some]

/-- A control character is written as its two hexadecimal digits. -/
theorem hexUnit?_control {n : ℕ} (h : n < 0x20) :
    hexUnit? '0' '0' (Nat.digitChar (n / 16)) (Nat.digitChar (n % 16)) = some n := by
  have hall : ∀ m < 0x20,
      hexUnit? '0' '0' (Nat.digitChar (m / 16)) (Nat.digitChar (m % 16)) = some m := by decide
  exact hall n h

/-- What a character is written as is read as its code units. -/
theorem readUnits_escape (c : Char) (s : List Char) :
    readUnits (escape c ++ s) = (readUnits s).map fun p => (charUnits c ++ p.1, p.2) := by
  unfold escape
  cases hc : shortEscape? c with
  | some letter =>
    obtain ⟨hletter, hu⟩ := unescape_of_shortEscape? hc
    have hshort : isShortEscape letter = true := by
      unfold shortEscape? at hc
      split_ifs at hc <;> cases hc <;> rfl
    show readUnits ('\\' :: letter :: s) = _
    rw [readUnits, if_pos hshort, hletter]
    · cases readUnits s <;> rfl
    · intro a b d e rest hletter' _
      exact hu hletter'
  | none =>
    dsimp only
    split
    · rename_i hcontrol
      have hunits : charUnits c = [c.toNat] := by
        unfold charUnits
        rw [if_pos (by omega)]
      show readUnits ('\\' :: 'u' :: '0' :: '0' :: _ :: _ :: s) = _
      rw [readUnits, hexUnit?_control hcontrol, hunits]
      cases readUnits s <;> rfl
    · rename_i hcontrol
      have hquote : c ≠ '"' := by
        rintro rfl
        cases hc
      have hbackslash : c ≠ '\\' := by
        rintro rfl
        cases hc
      show readUnits (c :: s) = _
      rw [readUnits, if_neg (by simp [hcontrol, hbackslash])]
      · cases readUnits s <;> rfl
      · exact fun h => hquote h
      · exact fun _ _ _ _ _ h => absurd h hbackslash
      · exact fun _ _ h => absurd h hbackslash

/-- Strings are read back. -/
theorem readString_quote (s : String) (rest : List Char) :
    ∃ body, quote s ++ rest = '"' :: body ∧ readString body = some (s, rest) := by
  have hunits : ∀ cs : List Char,
      readUnits (cs.flatMap escape ++ '"' :: rest) = some (cs.flatMap charUnits, rest) := by
    intro cs
    induction cs with
    | nil => rfl
    | cons c cs ih =>
      rw [List.flatMap_cons, List.append_assoc, readUnits_escape, ih, List.flatMap_cons, Option.map_some]
  refine ⟨s.toList.flatMap escape ++ '"' :: rest, ?_, ?_⟩
  · rw [quote, List.cons_append, List.append_assoc, List.singleton_append]
  · rw [readString, hunits]
    show (do return (String.ofList (← decodeUnits _), rest) : Option _) = _
    rw [decodeUnits_units]
    show some (String.ofList s.toList, rest) = _
    rw [String.ofList_toList]

/-! ## Values -/

/-- The symbols of numerals that are read; unlike `JSON.stringify`, a text may have `E` for `e`. -/
def isNumeralIn (c : Char) : Bool := isNumeral c || c = 'E'

/-- How numerals are read. -/
structure NumberReader (fmt : NumberFormat) where
  read : List Char → Option ℚ
  /-- Numbers are read as what was written. -/
  read_text : ∀ q, read (fmt.text q) = some q

/-- An object after `object[key] = value`, a field that is there already keeping its place. -/
def assignField (fields : List (String × Json)) (f : String × Json) : List (String × Json) :=
  if (keysOf fields).contains f.1 then fields.map fun g => if g.1 = f.1 then f else g
  else fields ++ [f]

/-- The object of the fields of a text: of the fields with one key the last one counts. -/
def objectOf (fields : List (String × Json)) : List (String × Json) := fields.foldl assignField []

/-- A key and the colon after it. -/
def parseKey (s : List Char) : Option (String × List Char) :=
  match skipBlanks s with
  | '"' :: rest => do
    let (k, rest) ← readString rest
    match skipBlanks rest with
    | ':' :: rest => some (k, rest)
    | _ => none
  | _ => none

section Parser

variable {fmt : NumberFormat} {gap : List Char} (reader : NumberReader fmt)

mutual
/-- A value; `fuel` bounds the recursion. -/
def parseValue : ℕ → List Char → Option (Json × List Char)
  | 0, _ => none
  | fuel + 1, s =>
    match skipBlanks s with
    | 'n' :: 'u' :: 'l' :: 'l' :: rest => some (.null, rest)
    | 't' :: 'r' :: 'u' :: 'e' :: rest => some (.bool true, rest)
    | 'f' :: 'a' :: 'l' :: 's' :: 'e' :: rest => some (.bool false, rest)
    | '"' :: rest => (readString rest).map fun p => (.str p.1, p.2)
    | '[' :: rest =>
      if (skipBlanks rest).head? = some ']' then some (.arr [], (skipBlanks rest).tail)
      else (parseItems fuel rest).map fun p => (.arr p.1, p.2)
    | '\x7b' :: rest =>
      if (skipBlanks rest).head? = some '\x7d' then some (.obj [], (skipBlanks rest).tail)
      else (parseFields fuel rest).map fun p => (.obj (objectOf p.1), p.2)
    | s => (reader.read (s.takeWhile isNumeralIn)).map fun q => (.num q, s.dropWhile isNumeralIn)

/-- The items of an array, of which there is one, and its end. -/
def parseItems : ℕ → List Char → Option (List Json × List Char)
  | 0, _ => none
  | fuel + 1, s => do
    let (v, rest) ← parseValue fuel s
    match skipBlanks rest with
    | ',' :: rest => (parseItems fuel rest).map fun p => (v :: p.1, p.2)
    | ']' :: rest => some ([v], rest)
    | _ => none

/-- The fields of an object, of which there is one, and its end. -/
def parseFields : ℕ → List Char → Option (List (String × Json) × List Char)
  | 0, _ => none
  | fuel + 1, s => do
    let (k, rest) ← parseKey s
    let (v, rest) ← parseValue fuel rest
    match skipBlanks rest with
    | ',' :: rest => (parseFields fuel rest).map fun p => ((k, v) :: p.1, p.2)
    | '\x7d' :: rest => some ([(k, v)], rest)
    | _ => none
end

/-- `JSON.parse`; `none` where it throws. -/
def parseJson (text : String) : Option Json :=
  match parseValue reader (text.toList.length + 1) text.toList with
  | some (v, rest) => if skipBlanks rest = [] then some v else none
  | none => none

variable {reader}

/-! ## Reading back what was written -/

/-- A text of white space. -/
def Blank (s : List Char) : Prop := ∀ c ∈ s, isBlank c = true

theorem skipBlanks_append {b : List Char} (hb : Blank b) (s : List Char) :
    skipBlanks (b ++ s) = skipBlanks s := by
  induction b with
  | nil => rfl
  | cons c b ih =>
    obtain ⟨hc, hb⟩ := List.forall_mem_cons.mp hb
    rw [List.cons_append, skipBlanks, List.dropWhile_cons_of_pos hc]
    exact ih hb

theorem blank_lineBreak {inner : List Char} (h : Blank inner) : Blank (lineBreak gap inner) := by
  unfold lineBreak
  split
  · exact fun c hc => nomatch hc
  · exact List.forall_mem_cons.mpr ⟨rfl, h⟩

theorem Blank.append {s t : List Char} (hs : Blank s) (ht : Blank t) : Blank (s ++ t) :=
  List.forall_mem_append.mpr ⟨hs, ht⟩

theorem parseValue_blank {b : List Char} (hb : Blank b) (fuel : ℕ) (s : List Char) :
    parseValue reader fuel (b ++ s) = parseValue reader fuel s := by
  cases fuel with
  | zero => rfl
  | succ fuel => rw [parseValue, parseValue, skipBlanks_append hb]

theorem parseItems_blank {b : List Char} (hb : Blank b) (fuel : ℕ) (s : List Char) :
    parseItems reader fuel (b ++ s) = parseItems reader fuel s := by
  cases fuel with
  | zero => rfl
  | succ fuel => rw [parseItems, parseItems, parseValue_blank hb]

theorem parseFields_blank {b : List Char} (hb : Blank b) (fuel : ℕ) (s : List Char) :
    parseFields reader fuel (b ++ s) = parseFields reader fuel s := by
  cases fuel with
  | zero => rfl
  | succ fuel => rw [parseFields, parseFields, parseKey, parseKey, skipBlanks_append hb]

/-- Where numerals begin, no other value does, nor white space. -/
theorem numeral_start {c : Char} (h : (c.isDigit || c = '-') = true) :
    isBlank c = false ∧ kindOf c = 5 := by
  refine ⟨?_, (kindOf_numeral h).1⟩
  rw [isBlank]
  simp only [Bool.or_eq_false_iff, decide_eq_false_iff_not]
  refine ⟨⟨⟨?_, ?_⟩, ?_⟩, ?_⟩ <;> rintro rfl <;> exact absurd h (by decide)

/-- The numeral a text begins with. -/
theorem span_numeral {q : ℚ} {rest : List Char} (hrest : NotBy isNumeralIn rest) :
    (fmt.text q ++ rest).takeWhile isNumeralIn = fmt.text q ∧
      (fmt.text q ++ rest).dropWhile isNumeralIn = rest := by
  have hall : ∀ c ∈ fmt.text q, isNumeralIn c = true := by
    intro c hc
    rw [isNumeralIn, fmt.numeral q c hc, Bool.true_or]
  rw [List.takeWhile_append_of_pos hall, List.dropWhile_append_of_pos hall]
  cases rest with
  | nil => simp
  | cons c rest =>
    have hc : isNumeralIn c = false := hrest c rfl
    simp [hc]

theorem parseValue_num {q : ℚ} {rest : List Char} (hrest : NotBy isNumeralIn rest) (fuel : ℕ) :
    parseValue reader (fuel + 1) (fmt.text q ++ rest) = some (.num q, rest) := by
  obtain ⟨htake, hdrop⟩ := span_numeral (q := q) hrest
  obtain ⟨c, tail, htext, hc⟩ := fmt.start q
  obtain ⟨hblank, hkind⟩ := numeral_start hc
  have hskip : skipBlanks (fmt.text q ++ rest) = fmt.text q ++ rest := by
    rw [htext, List.cons_append, skipBlanks, List.dropWhile_cons_of_neg (by simp [hblank])]
  rw [parseValue, hskip]
  split
  case h_7 => rw [htake, hdrop, reader.read_text, Option.map_some]
  -- every other case begins with a character of another kind
  all_goals
    rename_i heq
    rw [htext, List.cons_append] at heq
    rw [(List.cons.inj heq).1] at hkind
    exact absurd hkind (by decide)

/-- The end of a container, which is no numeral. -/
theorem notBy_end {indent s : List Char} {close : Char} (hclose : isNumeralIn close = false) :
    NotBy isNumeralIn (lineBreak gap indent ++ close :: s) := by
  unfold lineBreak
  split
  · rintro c ⟨⟩
    exact hclose
  · rintro c ⟨⟩
    rfl

/-- What a value is followed by in a container. -/
theorem notBy_members {α : Type} {f : α → List Char} {as : List α} {inner indent s : List Char}
    {close : Char} (hclose : isNumeralIn close = false) :
    NotBy isNumeralIn (as.flatMap (fun x => separator gap inner ++ f x) ++
      (lineBreak gap indent ++ close :: s)) := by
  cases as with
  | nil => exact notBy_end hclose
  | cons a as =>
    rintro c ⟨⟩
    rfl

variable (fmt gap reader) in
/-- A value is read back, whatever comes after it. -/
def ReadsBack (v : Json) : Prop :=
  ∀ indent, Blank indent → ∀ rest, NotBy isNumeralIn rest → ∀ fuel,
    (v.write fmt gap indent).length < fuel →
      parseValue reader fuel (v.write fmt gap indent ++ rest) = some (v, rest)

/-- The items of an array are read back when each of them is. The induction is on the items after the
first one; an item uses up some of the text, and so the fuel lasts. -/
theorem parseItems_members (hgap : Blank gap) {v : Json} {items : List Json}
    (h : ∀ w ∈ v :: items, ReadsBack fmt gap reader w) {indent : List Char} (hindent : Blank indent)
    (rest : List Char) (fuel : ℕ)
    (hfuel : (membersText gap indent (Json.write fmt gap (indent ++ gap)) ']' (v, items)).length < fuel) :
    parseItems reader fuel
        (membersText gap indent (Json.write fmt gap (indent ++ gap)) ']' (v, items) ++ rest) =
      some (v :: items, rest) := by
  have hinner : Blank (indent ++ gap) := hindent.append hgap
  induction items generalizing v fuel with
  | nil =>
    obtain ⟨fuel, rfl⟩ : ∃ k, fuel = k + 1 := ⟨fuel - 1, by omega⟩
    simp only [membersText, List.flatMap_nil, List.nil_append, List.length_append, List.append_assoc,
      List.singleton_append, List.length_singleton] at hfuel ⊢
    rw [parseItems, h v List.mem_cons_self _ hinner _ (notBy_end (by decide)) fuel (by omega)]
    dsimp only [Option.bind_eq_bind, Option.bind_some]
    rw [skipBlanks_append (blank_lineBreak hindent)]
    rfl
  | cons w items ih =>
    obtain ⟨fuel, rfl⟩ : ∃ k, fuel = k + 1 := ⟨fuel - 1, by omega⟩
    have htail := ih (v := w) (fun u hu => h u (List.mem_cons_of_mem _ hu)) fuel
    simp only [membersText, separator, List.flatMap_cons, List.cons_append, List.length_append, List.append_assoc,
      List.length_cons] at hfuel htail ⊢
    rw [parseItems, h v List.mem_cons_self _ hinner _ (by rintro c ⟨⟩; rfl) fuel (by omega)]
    show (parseItems reader fuel (lineBreak gap (indent ++ gap) ++ _)).map _ = _
    rw [parseItems_blank (blank_lineBreak hinner), htail (by omega)]
    rfl

/-- Keys are read back. -/
theorem parseKey_quote (gap : List Char) (k : String) (tail : List Char) :
    ∃ blank, Blank blank ∧ parseKey (quote k ++ colon gap ++ tail) = some (k, blank ++ tail) := by
  obtain ⟨blank, hblank, hcolon⟩ : ∃ b, Blank b ∧ colon gap = ':' :: b := by
    unfold colon
    split
    · exact ⟨[], List.forall_mem_nil _, rfl⟩
    · exact ⟨[' '], List.forall_mem_singleton.mpr rfl, rfl⟩
  obtain ⟨body, hquote, hread⟩ := readString_quote k (colon gap ++ tail)
  refine ⟨blank, hblank, ?_⟩
  rw [List.append_assoc, hquote]
  show (readString body).bind _ = _
  rw [hread, hcolon]
  rfl

/-- The fields of an object are read back when their values are. -/
theorem parseFields_members (hgap : Blank gap) {f : String × Json} {fields : List (String × Json)}
    (h : ∀ g ∈ f :: fields, ReadsBack fmt gap reader g.2) {indent : List Char} (hindent : Blank indent)
    (rest : List Char) (fuel : ℕ)
    (hfuel : (membersText gap indent (writeField fmt gap (indent ++ gap)) '\x7d' (f, fields)).length < fuel) :
    parseFields reader fuel
        (membersText gap indent (writeField fmt gap (indent ++ gap)) '\x7d' (f, fields) ++ rest) =
      some (f :: fields, rest) := by
  have hinner : Blank (indent ++ gap) := hindent.append hgap
  -- what a field is read as
  have hfield : ∀ (g : String × Json), ReadsBack fmt gap reader g.2 → ∀ tail, NotBy isNumeralIn tail →
      ∀ fuel, (writeField fmt gap (indent ++ gap) g).length < fuel + 1 →
        parseFields reader (fuel + 1) (writeField fmt gap (indent ++ gap) g ++ tail) =
          match skipBlanks tail with
          | ',' :: rest => (parseFields reader fuel rest).map fun p => (g :: p.1, p.2)
          | '\x7d' :: rest => some ([g], rest)
          | _ => none := by
    intro g hg tail htail fuel hfuel
    obtain ⟨blank, hblank, hkey⟩ :=
      parseKey_quote gap g.1 (g.2.write fmt gap (indent ++ gap) ++ tail)
    simp only [writeField, List.length_append] at hfuel
    have hcolon : 0 < (colon gap).length := by
      unfold colon
      split <;> decide
    rw [writeField, List.append_assoc, parseFields, hkey]
    dsimp only [Option.bind_eq_bind, Option.bind_some]
    rw [parseValue_blank hblank, hg _ hinner _ htail fuel (by omega)]
    rfl
  induction fields generalizing f fuel with
  | nil =>
    obtain ⟨fuel, rfl⟩ : ∃ k, fuel = k + 1 := ⟨fuel - 1, by omega⟩
    simp only [membersText, List.flatMap_nil, List.nil_append, List.length_append, List.append_assoc,
      List.singleton_append, List.length_singleton] at hfuel ⊢
    rw [hfield f (h f List.mem_cons_self) _ (notBy_end (by decide)) fuel (by omega),
      skipBlanks_append (blank_lineBreak hindent)]
    rfl
  | cons g fields ih =>
    obtain ⟨fuel, rfl⟩ : ∃ k, fuel = k + 1 := ⟨fuel - 1, by omega⟩
    have htail := ih (f := g) (fun u hu => h u (List.mem_cons_of_mem _ hu)) fuel
    simp only [membersText, separator, List.flatMap_cons, List.cons_append, List.length_append,
      List.append_assoc, List.length_cons] at hfuel htail ⊢
    rw [hfield f (h f List.mem_cons_self) _ (by rintro c ⟨⟩; rfl) fuel (by omega)]
    show (parseFields reader fuel (lineBreak gap (indent ++ gap) ++ _)).map _ = _
    rw [parseFields_blank (blank_lineBreak hinner), htail (by omega)]
    rfl

/-! ## The whole text -/

theorem assignField_fresh {fields : List (String × Json)} {f : String × Json} (h : f.1 ∉ keysOf fields) :
    assignField fields f = fields ++ [f] := by
  rw [assignField, if_neg (by simpa using h)]

/-- Fields with different keys are the fields of their object. -/
theorem objectOf_eq {fields : List (String × Json)} (h : (keysOf fields).Nodup) :
    objectOf fields = fields := by
  have hfold : ∀ rest before : List (String × Json), (keysOf (before ++ rest)).Nodup →
      rest.foldl assignField before = before ++ rest := by
    intro rest
    induction rest with
    | nil => exact fun before _ => (List.append_nil before).symm
    | cons f rest ih =>
      intro before hnodup
      have hfresh : f.1 ∉ keysOf before := by
        rw [keysOf, List.map_append, List.map_cons, List.nodup_append] at hnodup
        exact fun hf => hnodup.2.2 _ hf _ List.mem_cons_self rfl
      rw [List.foldl_cons, assignField_fresh hfresh, ih _ (by simpa using hnodup), List.append_assoc,
        List.singleton_append]
  exact hfold fields [] h

/-- White space is of the kind of numerals. -/
theorem kindOf_blank {c : Char} (h : isBlank c = true) : kindOf c = 5 := by
  simp only [isBlank, Bool.or_eq_true, decide_eq_true_eq] at h
  obtain ((rfl | rfl) | rfl) | rfl := h <;> rfl

/-- The text of a value begins with neither white space nor the end of an array. -/
theorem head_write (fmt : NumberFormat) (gap : List Char) (v : Json) (indent s : List Char) :
    ∃ c, isBlank c = false ∧ c ≠ ']' ∧
      (skipBlanks (v.write fmt gap indent ++ s)).head? = some c := by
  obtain ⟨c, tail, hwrite, hkind, hc⟩ := exists_write fmt gap v indent
  have hblank : isBlank c = false := by
    cases v with
    | num q =>
      obtain ⟨d, rest, htext, hd⟩ := fmt.start q
      rw [Json.write, htext] at hwrite
      rw [← (List.cons.inj hwrite).1]
      exact (numeral_start hd).1
    | _ =>
      by_contra hblank
      rw [kindOf_blank (by simpa using hblank)] at hkind
      cases hkind
  refine ⟨c, hblank, hc, ?_⟩
  rw [hwrite, List.cons_append, skipBlanks, List.dropWhile_cons_of_neg (by simp [hblank])]
  rfl

/-- Values with different keys are read back. -/
theorem readsBack (hgap : Blank gap) {v : Json} (hv : v.distinct = true) :
    ReadsBack fmt gap reader v := by
  induction v using Json.members_induction with
  | leaf v hleaf =>
    intro indent hindent rest hrest fuel hfuel
    obtain ⟨fuel, rfl⟩ : ∃ k, fuel = k + 1 := ⟨fuel - 1, by omega⟩
    cases v with
    | null => rfl
    | bool b => cases b <;> rfl
    | num q => exact parseValue_num hrest fuel
    | str s =>
      obtain ⟨body, hquote, hread⟩ := readString_quote s rest
      rw [Json.write, hquote, parseValue]
      show (readString body).map _ = _
      rw [hread]
      rfl
    | arr | obj => cases hleaf
  | arr items ih =>
    intro indent hindent rest hrest fuel hfuel
    obtain ⟨fuel, rfl⟩ : ∃ k, fuel = k + 1 := ⟨fuel - 1, by omega⟩
    cases items with
    | nil => rfl
    | cons v items =>
      have hdistinct := distinct_arr.mp hv
      have hinner : Blank (indent ++ gap) := hindent.append hgap
      rw [write_arr_cons, List.length_cons, List.length_append] at hfuel
      have hitems := parseItems_members hgap (fun w hw => ih w hw (hdistinct w hw)) hindent rest fuel
        (by omega)
      obtain ⟨c, -, hc, hhead⟩ := head_write fmt gap v (indent ++ gap)
        ((items.flatMap fun x => separator gap (indent ++ gap) ++ x.write fmt gap (indent ++ gap)) ++
          (lineBreak gap indent ++ [']']) ++ rest)
      rw [write_arr_cons, List.cons_append, List.append_assoc, parseValue]
      show (if (skipBlanks (lineBreak gap (indent ++ gap) ++ _)).head? = some ']' then _ else _) = _
      rw [skipBlanks_append (blank_lineBreak hinner), parseItems_blank (blank_lineBreak hinner), hitems,
        membersText, List.append_assoc, hhead, if_neg (by simpa using hc)]
      rfl
  | obj fields ih =>
    intro indent hindent rest hrest fuel hfuel
    obtain ⟨fuel, rfl⟩ : ∃ k, fuel = k + 1 := ⟨fuel - 1, by omega⟩
    cases fields with
    | nil => rfl
    | cons f fields =>
      obtain ⟨hkeys, hdistinct⟩ := distinct_obj.mp hv
      have hinner : Blank (indent ++ gap) := hindent.append hgap
      rw [write_obj_cons, List.length_cons, List.length_append] at hfuel
      have hfields := parseFields_members hgap (fun g hg => ih g hg (hdistinct g hg)) hindent rest fuel
        (by omega)
      rw [write_obj_cons, List.cons_append, List.append_assoc, parseValue]
      show (if (skipBlanks (lineBreak gap (indent ++ gap) ++ _)).head? = some '\x7d' then _ else _) = _
      have hhead : (skipBlanks (membersText gap indent (writeField fmt gap (indent ++ gap)) '\x7d'
          (f, fields) ++ rest)).head? = some '"' := rfl
      rw [skipBlanks_append (blank_lineBreak hinner), parseFields_blank (blank_lineBreak hinner), hfields,
        hhead, if_neg (by decide), Option.map_some, objectOf_eq hkeys]

theorem distinct_own {v : Json} (hv : v.distinct = true) : v.own.distinct = true := by
  induction v using Json.members_induction with
  | leaf v hleaf => rwa [own_of_isLeaf hleaf]
  | arr items ih =>
    rw [Json.own, distinct_arr, ownItems_eq]
    intro w hw
    obtain ⟨v, hmem, rfl⟩ := List.mem_map.mp hw
    exact ih v hmem (distinct_arr.mp hv v hmem)
  | obj fields ih =>
    obtain ⟨hkeys, hfields⟩ := distinct_obj.mp hv
    have hperm : ((ownFields fields).insertionSort fun f g => enumLe f g).Perm
        (fields.map fun f => (f.1, f.2.own)) := by
      rw [← ownFields_eq]
      exact List.perm_insertionSort _ _
    rw [Json.own, distinct_obj]
    constructor
    · rw [(hperm.map _).nodup_iff, List.map_map]
      exact hkeys
    · intro f hf
      obtain ⟨g, hg, rfl⟩ := List.mem_map.mp (hperm.mem_iff.mp hf)
      exact ih g hg (hfields g hg)

/-- What `JSON.stringify` writes, `JSON.parse` reads. -/
theorem parseJson_stringify (hgap : Blank gap) {v : Json} (hv : v.distinct = true) :
    parseJson reader (stringify fmt gap v) = some v.own := by
  have hown : ReadsBack fmt gap reader v.own := readsBack hgap (distinct_own hv)
  have hread := hown [] (List.forall_mem_nil _) [] (fun c hc => nomatch hc) _ (Nat.lt_succ_self _)
  rw [List.append_nil] at hread
  rw [parseJson, stringify, String.toList_ofList, hread]
  rfl

end Parser

/-! ## Reading a format -/

/-- The integer a text is. -/
def readInteger : List Char → ℤ
  | '-' :: digits => -(Nat.ofDigitChars 10 digits 0 : ℤ)
  | digits => (Nat.ofDigitChars 10 digits 0 : ℤ)

theorem readInteger_integerText (i : ℤ) : readInteger (integerText i) = i := by
  unfold integerText
  obtain ⟨c, rest, hc, hdigit⟩ := exists_toDigits i.natAbs
  split
  · rw [readInteger, Nat.ofDigitChars_ten_toDigits]
    omega
  · have hminus : c ≠ '-' := by
      rintro rfl
      exact absurd hdigit (by decide)
    have hread : readInteger (c :: rest) = (Nat.ofDigitChars 10 (c :: rest) 0 : ℤ) := by
      rw [readInteger]
      rintro digits ⟨⟩
      exact hminus rfl
    rw [hc, hread, ← hc, Nat.ofDigitChars_ten_toDigits]
    omega

/-- The denominator a text is. -/
def readDenominator : List Char → ℕ
  | [] => 1
  | _ :: digits => Nat.ofDigitChars 10 digits 0

/-- The numbers `fractionFormat` has written are read back. -/
def fractionReader : NumberReader fractionFormat where
  read s :=
    let q := mkRat (readInteger (s.takeWhile (· ≠ 'e'))) (readDenominator (s.dropWhile (· ≠ 'e')))
    if fractionFormat.text q = s then some q else none
  read_text := by
    intro q
    have hnot : ∀ c ∈ integerText q.num, decide (c ≠ 'e') = true := by
      intro c hc
      rw [decide_eq_true_eq]
      rintro rfl
      exact absurd (integerText_numeral hc) (by decide)
    have hq : mkRat (readInteger ((fractionFormat.text q).takeWhile (· ≠ 'e')))
        (readDenominator ((fractionFormat.text q).dropWhile (· ≠ 'e'))) = q := by
      show mkRat (readInteger ((integerText q.num ++ denominatorText q.den).takeWhile _))
        (readDenominator ((integerText q.num ++ denominatorText q.den).dropWhile _)) = q
      rw [List.takeWhile_append_of_pos hnot, List.dropWhile_append_of_pos hnot]
      unfold denominatorText
      split
      · rename_i hden
        rw [List.takeWhile_nil, List.dropWhile_nil, List.append_nil, readInteger_integerText,
          readDenominator, ← hden, Rat.mkRat_self]
      · rw [List.takeWhile_cons_of_neg (by decide), List.dropWhile_cons_of_neg (by decide),
          List.append_nil, readInteger_integerText, readDenominator, Nat.ofDigitChars_ten_toDigits,
          Rat.mkRat_self]
    simp only [hq, if_true]

end MontrSecure
