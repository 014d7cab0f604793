import MontrSecure.Js.Json
import MontrSecure.Text.SelfDelimiting

/-!
# `JSON.stringify`

The text of a JSON value, with the indentation `gap` per level (none for the compact form). Keys
come in the order objects enumerate them, which is the one of `Json.own`. The text of a value is
self-delimiting, so that it determines the value up to the order of keys (`stringify_injective`).
-/

namespace MontrSecure

open Text

/-! ## Enumeration order -/

/-- The index a key is, if it is an array index. -/
def arrayIndex? (key : String) : Option ℕ :=
  key.toNat?.filter fun n => toString n = key ∧ n < 2 ^ 32 - 1

/-- Objects enumerate array indices first, in their order, and then the other keys as they came. -/
def enumLe {α : Type} (f g : String × α) : Bool :=
  match arrayIndex? f.1, arrayIndex? g.1 with
  | some m, some n => m ≤ n
  | none, some _ => false
  | _, none => true

mutual
/-- The value with the keys of its objects in the order they are enumerated in. -/
def Json.own : Json → Json
  | .arr items => .arr (ownItems items)
  | .obj fields => .obj ((ownFields fields).insertionSort fun f g => enumLe f g)
  | v => v

/-- `own` for the items of an array. -/
def ownItems : List Json → List Json
  | [] => []
  | v :: items => v.own :: ownItems items

/-- `own` for the values of an object. -/
def ownFields : List (String × Json) → List (String × Json)
  | [] => []
  | (k, v) :: fields => (k, v.own) :: ownFields fields
end

theorem ownItems_eq (items : List Json) : ownItems items = items.map Json.own := by
  induction items with
  | nil => rfl
  | cons v items ih => rw [ownItems, ih, List.map_cons]

theorem ownFields_eq (fields : List (String × Json)) :
    ownFields fields = fields.map fun f => (f.1, f.2.own) := by
  induction fields with
  | nil => rfl
  | cons f fields ih => rw [ownFields, ih, List.map_cons]

theorem own_of_isLeaf {v : Json} (h : v.isLeaf = true) : v.own = v := by
  cases v <;> first | rfl | cases h

/-- Enumerating a value does not change what it is. -/
theorem ordered_own {keep : String → Bool} {v : Json} (hv : v.distinct = true) :
    v.own.ordered keep = v.ordered keep := by
  induction v using Json.members_induction with
  | leaf v hleaf => rw [own_of_isLeaf hleaf]
  | arr items ih =>
    simp only [Json.own, Json.ordered, orderedItems_eq, ownItems_eq, List.map_map, Json.arr.injEq]
    exact List.map_congr_left fun v hmem => ih v hmem (distinct_arr.mp hv v hmem)
  | obj fields ih =>
    obtain ⟨hkeys, hfields⟩ := distinct_obj.mp hv
    have hinner : orderedFields keep (ownFields fields) = orderedFields keep fields := by
      rw [orderedFields_eq, orderedFields_eq, ownFields_eq, List.filter_map, List.map_map]
      refine List.map_congr_left fun f hf => ?_
      have hmem : f ∈ fields := List.mem_of_mem_filter hf
      exact congrArg (Prod.mk f.1) (ih f hmem (hfields f hmem))
    have hperm : (orderedFields keep ((ownFields fields).insertionSort fun f g => enumLe f g)).Perm
        (orderedFields keep fields) := by
      rw [← hinner]
      exact orderedFields_perm (List.perm_insertionSort _ _)
    simp only [Json.own, Json.ordered, Json.obj.injEq]
    exact ((sortFields_eq_iff (nodup_orderedFields hkeys)).mpr hperm.symm).symm

/-! ## Text -/

/-- The symbols of numerals: digits, signs, a point and an exponent. -/
def isNumeral (c : Char) : Bool := c.isDigit || c = '-' || c = '+' || c = '.' || c = 'e'

/-- How numbers are written (`Number.prototype.toString`). -/
structure NumberFormat where
  text : ℚ → List Char
  /-- Numbers can be read back. -/
  injective : Function.Injective text
  numeral : ∀ q, ∀ c ∈ text q, isNumeral c = true
  /-- A numeral begins with a digit or a sign. -/
  start : ∀ q, ∃ c rest, text q = c :: rest ∧ (c.isDigit || c = '-') = true

/-- The letter of a short escape. -/
def shortEscape? (c : Char) : Option Char :=
  if c = '\x08' then some 'b' else if c = '\t' then some 't' else if c = '\n' then some 'n'
  else if c = '\x0c' then some 'f' else if c = '\r' then some 'r' else if c = '"' then some '"'
  else if c = '\\' then some '\\' else none

/-- A character inside a JSON string. -/
def escape (c : Char) : List Char :=
  match shortEscape? c with
  | some letter => ['\\', letter]
  | none =>
    if c.toNat < 0x20 then
      ['\\', 'u', '0', '0', Nat.digitChar (c.toNat / 16), Nat.digitChar (c.toNat % 16)]
    else [c]

/-- `QuoteJSONString`. -/
def quote (s : String) : List Char := '"' :: (s.toList.flatMap escape ++ ['"'])

/-- A line break and the indentation, unless the form is compact. -/
def lineBreak (gap indent : List Char) : List Char := if gap = [] then [] else '\n' :: indent

/-- What separates a key from its value. -/
def colon (gap : List Char) : List Char := if gap = [] then [':'] else [':', ' ']

mutual
/-- `SerializeJSONProperty`, at an indentation. -/
def Json.write (fmt : NumberFormat) (gap indent : List Char) : Json → List Char
  | .null => ['n', 'u', 'l', 'l']
  | .bool true => ['t', 'r', 'u', 'e']
  | .bool false => ['f', 'a', 'l', 's', 'e']
  | .num q => fmt.text q
  | .str s => quote s
  | .arr [] => ['[', ']']
  | .arr (v :: items) =>
    let inner := indent ++ gap
    '[' :: (lineBreak gap inner ++ v.write fmt gap inner ++ writeItems fmt gap inner items ++
      lineBreak gap indent ++ [']'])
  | .obj [] => ['\x7b', '\x7d']
  | .obj ((k, v) :: fields) =>
    let inner := indent ++ gap
    '\x7b' :: (lineBreak gap inner ++ (quote k ++ colon gap ++ v.write fmt gap inner) ++
      writeFields fmt gap inner fields ++ lineBreak gap indent ++ ['\x7d'])

/-- The items after the first one. -/
def writeItems (fmt : NumberFormat) (gap inner : List Char) : List Json → List Char
  | [] => []
  | v :: items =>
    ',' :: (lineBreak gap inner ++ v.write fmt gap inner) ++ writeItems fmt gap inner items

/-- The fields after the first one. -/
def writeFields (fmt : NumberFormat) (gap inner : List Char) : List (String × Json) → List Char
  | [] => []
  | (k, v) :: fields =>
    ',' :: (lineBreak gap inner ++ (quote k ++ colon gap ++ v.write fmt gap inner)) ++
      writeFields fmt gap inner fields
end

/-- `JSON.stringify` of a JSON value. -/
def stringify (fmt : NumberFormat) (gap : List Char) (v : Json) : String :=
  String.ofList (v.own.write fmt gap [])

/-! ## Reading the text back -/

/-- What a short escape stands for. -/
def unescape (letter : Char) : Char :=
  if letter = 'b' then '\x08' else if letter = 't' then '\t' else if letter = 'n' then '\n'
  else if letter = 'f' then '\x0c' else if letter = 'r' then '\r' else letter

theorem unescape_of_shortEscape? {c letter : Char} (h : shortEscape? c = some letter) :
    unescape letter = c ∧ letter ≠ 'u' := by
  unfold shortEscape? at h
  repeat' split at h
  all_goals
    cases h
    try subst c
    try exact ⟨by decide, by decide⟩

theorem shortEscape?_backslash : shortEscape? '\\' = some '\\' := rfl

/-- The two hexadecimal digits of a control character. -/
theorem toNat_of_hex {m n : ℕ} (hm : m < 0x20) (hn : n < 0x20)
    (hhigh : Nat.digitChar (m / 16) = Nat.digitChar (n / 16))
    (hlow : Nat.digitChar (m % 16) = Nat.digitChar (n % 16)) : m = n := by
  have hdigit : ∀ a < 16, ∀ b < 16, Nat.digitChar a = Nat.digitChar b → a = b := by decide
  have hdiv := hdigit (m / 16) (by omega) (n / 16) (by omega) hhigh
  have hmod := hdigit (m % 16) (by omega) (n % 16) (by omega) hlow
  omega

theorem escape_selfDelimiting (c : Char) : SelfDelimiting Anything escape c := by
  intro d s t _ _ heq
  unfold escape at heq
  cases hc : shortEscape? c with
  | some letter =>
    obtain ⟨hcl, hcu⟩ := unescape_of_shortEscape? hc
    cases hd : shortEscape? d with
    | some letter' =>
      obtain ⟨hdl, -⟩ := unescape_of_shortEscape? hd
      simp only [hc, hd, List.cons_append, List.nil_append, List.cons.injEq, true_and] at heq
      exact ⟨by rw [← hcl, heq.1, hdl], heq.2⟩
    | none =>
      simp only [hc, hd] at heq
      split at heq
      · simp only [List.cons_append, List.cons.injEq, true_and] at heq
        exact absurd heq.1 hcu
      · simp only [List.cons_append, List.nil_append, List.cons.injEq] at heq
        rw [← heq.1, shortEscape?_backslash] at hd
        cases hd
  | none =>
    cases hd : shortEscape? d with
    | some letter =>
      obtain ⟨-, hdu⟩ := unescape_of_shortEscape? hd
      simp only [hc, hd] at heq
      split at heq
      · simp only [List.cons_append, List.cons.injEq, true_and] at heq
        exact absurd heq.1.symm hdu
      · simp only [List.cons_append, List.nil_append, List.cons.injEq] at heq
        rw [heq.1, shortEscape?_backslash] at hc
        cases hc
    | none =>
      simp only [hc, hd] at heq
      split at heq <;> split at heq
      · rename_i hcn hdn
        simp only [List.cons_append, List.nil_append, List.cons.injEq, true_and] at heq
        exact ⟨Char.toNat_inj.mp (toNat_of_hex hcn hdn heq.1 heq.2.1), heq.2.2⟩
      · simp only [List.cons_append, List.nil_append, List.cons.injEq] at heq
        rw [← heq.1, shortEscape?_backslash] at hd
        cases hd
      · simp only [List.cons_append, List.nil_append, List.cons.injEq] at heq
        rw [heq.1, shortEscape?_backslash] at hc
        cases hc
      · simp only [List.cons_append, List.nil_append, List.cons.injEq] at heq
        exact heq

/-- No character is written as something that begins with a quotation mark. -/
theorem escape_ne_quote (c : Char) (s t : List Char) : escape c ++ s ≠ ['"'] ++ t := by
  intro h
  unfold escape at h
  cases hc : shortEscape? c with
  | some letter =>
    simp [hc] at h
  | none =>
    simp only [hc] at h
    split at h
    · simp at h
    · simp only [List.cons_append, List.nil_append, List.cons.injEq] at h
      rw [h.1] at hc
      cases hc

theorem quote_selfDelimiting (s : String) : SelfDelimiting Anything quote s := by
  have hbody : SelfDelimiting Anything (fun cs => cs.flatMap escape ++ ['"']) s.toList :=
    selfDelimiting_terminated escape_ne_quote (fun _ _ => trivial) fun c _ => escape_selfDelimiting c
  intro s' t t' _ _ heq
  obtain ⟨hchars, hrest⟩ := hbody s'.toList t t' trivial trivial (List.cons.inj heq).2
  exact ⟨String.toList_inj.mp hchars, hrest⟩

example : quote "a" = ['"', 'a', '"'] := by decide +kernel

/-- Which kind of value a text that begins with a character is of. -/
def kindOf (c : Char) : ℕ :=
  if c = 'n' then 0 else if c = 't' || c = 'f' then 1 else if c = '"' then 2
  else if c = '[' then 3 else if c = '\x7b' then 4 else 5

/-- The kind of a value. -/
def Json.kind : Json → ℕ
  | .null => 0
  | .bool _ => 1
  | .str _ => 2
  | .arr _ => 3
  | .obj _ => 4
  | .num _ => 5

theorem kindOf_numeral {c : Char} (h : (c.isDigit || c = '-') = true) : kindOf c = 5 ∧ c ≠ ']' := by
  have hne : ∀ d : Char, (d.isDigit || d = '-') = false → c ≠ d := by
    rintro d hd rfl
    rw [h] at hd
    cases hd
  have hn := hne 'n' (by decide)
  have ht := hne 't' (by decide)
  have hf := hne 'f' (by decide)
  have hquote := hne '"' (by decide)
  have harr := hne '[' (by decide)
  have hobj := hne '\x7b' (by decide)
  exact ⟨by simp [kindOf, hn, ht, hf, hquote, harr, hobj], hne _ (by decide)⟩

variable {fmt : NumberFormat} {gap : List Char}

/-- The first character of a text tells the kind of the value. -/
theorem exists_write (fmt : NumberFormat) (gap : List Char) (v : Json) (indent : List Char) :
    ∃ c rest, v.write fmt gap indent = c :: rest ∧ kindOf c = v.kind ∧ c ≠ ']' := by
  cases v with
  | null => exact ⟨'n', _, rfl, rfl, by decide⟩
  | bool b => cases b <;> exact ⟨_, _, rfl, rfl, by decide⟩
  | num q =>
    obtain ⟨c, rest, htext, hc⟩ := fmt.start q
    exact ⟨c, rest, by rw [Json.write, htext], (kindOf_numeral hc).1, (kindOf_numeral hc).2⟩
  | str s => exact ⟨'"', _, rfl, rfl, by decide⟩
  | arr items => cases items <;> exact ⟨'[', _, rfl, rfl, by decide⟩
  | obj fields =>
    cases fields with
    | nil => exact ⟨'\x7b', _, rfl, rfl, by decide⟩
    | cons f fields => exact ⟨'\x7b', _, rfl, rfl, by decide⟩

theorem kind_eq_of_write {v w : Json} {indent s t : List Char}
    (h : v.write fmt gap indent ++ s = w.write fmt gap indent ++ t) : v.kind = w.kind := by
  obtain ⟨c, rest, hv, hc, -⟩ := exists_write fmt gap v indent
  obtain ⟨d, rest', hw, hd, -⟩ := exists_write fmt gap w indent
  rw [hv, hw] at h
  rw [← hc, ← hd, (List.cons.inj h).1]

/-- What comes between the members of a container. -/
def separator (gap inner : List Char) : List Char := ',' :: lineBreak gap inner

theorem writeItems_eq (inner : List Char) (items : List Json) :
    writeItems fmt gap inner items =
      items.flatMap fun v => separator gap inner ++ v.write fmt gap inner := by
  induction items with
  | nil => rfl
  | cons v items ih =>
    rw [writeItems, ih, List.flatMap_cons]
    rfl

/-- The text of a field. -/
def writeField (fmt : NumberFormat) (gap inner : List Char) (f : String × Json) : List Char :=
  quote f.1 ++ colon gap ++ f.2.write fmt gap inner

theorem writeFields_eq (inner : List Char) (fields : List (String × Json)) :
    writeFields fmt gap inner fields =
      fields.flatMap fun f => separator gap inner ++ writeField fmt gap inner f := by
  induction fields with
  | nil => rfl
  | cons f fields ih =>
    rw [writeFields, ih, List.flatMap_cons]
    rfl

/-- The end of a container, and that it is not a separator. -/
theorem separator_ne {inner indent s t : List Char} {close : Char} (hclose : close ≠ ',') :
    separator gap inner ++ s ≠ (lineBreak gap indent ++ [close]) ++ t := by
  unfold separator lineBreak
  intro h
  split at h
  · exact hclose (List.cons.inj h).1.symm
  · exact absurd (List.cons.inj h).1 (by decide)

theorem notBy_close {indent s : List Char} {close : Char} (hclose : isNumeral close = false) :
    NotBy isNumeral ((lineBreak gap indent ++ [close]) ++ s) := by
  unfold lineBreak
  split
  · rintro c hc
    cases hc
    exact hclose
  · rintro c hc
    cases hc
    rfl

/-- The members of a container that is not empty, and its end. -/
def membersText {α : Type} (gap indent : List Char) (f : α → List Char) (close : Char)
    (p : α × List α) : List Char :=
  f p.1 ++ (p.2.flatMap (fun x => separator gap (indent ++ gap) ++ f x) ++
    (lineBreak gap indent ++ [close]))

theorem members_selfDelimiting {α : Type} {f : α → List Char} {a : α} {as : List α}
    {indent : List Char} {close : Char} (hcomma : close ≠ ',') (hclose : isNumeral close = false)
    (h : ∀ x ∈ a :: as, SelfDelimiting (NotBy isNumeral) f x) :
    SelfDelimiting Anything (membersText gap indent f close) (a, as) := by
  refine selfDelimiting_separated (fun s t => separator_ne hcomma) (fun s => ?_)
    (fun s => notBy_close hclose) h
  rintro c hc
  cases hc
  rfl

theorem write_arr_cons (v : Json) (items : List Json) (indent : List Char) :
    (Json.arr (v :: items)).write fmt gap indent =
      '[' :: (lineBreak gap (indent ++ gap) ++
        membersText gap indent (Json.write fmt gap (indent ++ gap)) ']' (v, items)) := by
  rw [Json.write, writeItems_eq, membersText]
  simp only [List.append_assoc]

theorem write_obj_cons (f : String × Json) (fields : List (String × Json)) (indent : List Char) :
    (Json.obj (f :: fields)).write fmt gap indent =
      '\x7b' :: (lineBreak gap (indent ++ gap) ++
        membersText gap indent (writeField fmt gap (indent ++ gap)) '\x7d' (f, fields)) := by
  rw [Json.write, writeFields_eq, membersText]
  simp only [writeField, List.append_assoc]

/-- An empty container is followed by its end. -/
theorem lineBreak_ne {inner s t : List Char} {c close : Char} (hc : c ≠ close) (hclose : close ≠ '\n') :
    lineBreak gap inner ++ (c :: s) ≠ close :: t := by
  unfold lineBreak
  intro h
  split at h
  · exact hc (List.cons.inj h).1
  · exact hclose (List.cons.inj h).1.symm

theorem writeField_selfDelimiting {f : String × Json} {inner : List Char}
    (h : SelfDelimiting (NotBy isNumeral) (Json.write fmt gap inner) f.2) :
    SelfDelimiting (NotBy isNumeral) (writeField fmt gap inner) f := by
  intro g s t hs ht heq
  unfold writeField at heq
  rw [List.append_assoc, List.append_assoc, List.append_assoc, List.append_assoc] at heq
  obtain ⟨hkey, hrest⟩ := quote_selfDelimiting f.1 g.1 _ _ trivial trivial heq
  obtain ⟨hvalue, hst⟩ := h g.2 s t hs ht (List.append_cancel_left hrest)
  exact ⟨Prod.ext hkey hvalue, hst⟩

/-- The text of a value is the text of no other value, and it is known where it ends. -/
theorem write_selfDelimiting (fmt : NumberFormat) (gap : List Char) (v : Json)
    (indent : List Char) :
    SelfDelimiting (NotBy isNumeral) (Json.write fmt gap indent) v := by
  induction v using Json.members_induction generalizing indent with
  | leaf v hleaf =>
    intro w s t hs ht heq
    have hkind := kind_eq_of_write heq
    cases v with
    | null =>
      cases w <;> cases hkind
      exact ⟨rfl, List.append_cancel_left heq⟩
    | bool b =>
      cases w <;> cases hkind
      rename_i b'
      cases b <;> cases b' <;>
        first | exact ⟨rfl, List.append_cancel_left heq⟩ | exact absurd (List.cons.inj heq).1 (by decide)
    | num q =>
      cases w <;> cases hkind
      rename_i q'
      obtain ⟨hq, hst⟩ := selfDelimiting_of_class fmt.injective fmt.numeral q q' s t hs ht heq
      exact ⟨congrArg Json.num hq, hst⟩
    | str x =>
      cases w <;> cases hkind
      rename_i x'
      obtain ⟨hx, hst⟩ := quote_selfDelimiting x x' s t trivial trivial heq
      exact ⟨congrArg Json.str hx, hst⟩
    | arr | obj => cases hleaf
  | arr items ih =>
    intro w s t hs ht heq
    have hkind := kind_eq_of_write heq
    cases w <;> cases hkind
    rename_i items'
    cases items with
    | nil =>
      cases items' with
      | nil => exact ⟨rfl, List.append_cancel_left heq⟩
      | cons v' items' =>
        obtain ⟨c, rest, hv', -, hc⟩ := exists_write fmt gap v' (indent ++ gap)
        rw [write_arr_cons, membersText, hv'] at heq
        have hinner := (List.cons.inj heq).2.symm
        rw [List.append_eq, List.append_assoc] at hinner
        exact absurd hinner (lineBreak_ne hc (by decide))
    | cons v items =>
      cases items' with
      | nil =>
        obtain ⟨c, rest, hv, -, hc⟩ := exists_write fmt gap v (indent ++ gap)
        rw [write_arr_cons, membersText, hv] at heq
        have hinner := (List.cons.inj heq).2
        rw [List.append_eq, List.append_assoc] at hinner
        exact absurd hinner (lineBreak_ne hc (by decide))
      | cons v' items' =>
        rw [write_arr_cons, write_arr_cons] at heq
        have hmembers : SelfDelimiting Anything
            (membersText gap indent (Json.write fmt gap (indent ++ gap)) ']') (v, items) :=
          members_selfDelimiting (by decide) (by decide) fun x hx => ih x hx (indent ++ gap)
        obtain ⟨hpair, hst⟩ := hmembers.prepend (lineBreak gap (indent ++ gap)) (v', items') s t
          trivial trivial (List.cons.inj heq).2
        cases hpair
        exact ⟨rfl, hst⟩
  | obj fields ih =>
    intro w s t hs ht heq
    have hkind := kind_eq_of_write heq
    cases w <;> cases hkind
    rename_i fields'
    cases fields with
    | nil =>
      cases fields' with
      | nil => exact ⟨rfl, List.append_cancel_left heq⟩
      | cons f' fields' =>
        rw [write_obj_cons] at heq
        have hinner := (List.cons.inj heq).2.symm
        rw [List.append_eq, List.append_assoc] at hinner
        exact absurd hinner (lineBreak_ne (c := '"') (by decide) (by decide))
    | cons f fields =>
      cases fields' with
      | nil =>
        rw [write_obj_cons] at heq
        have hinner := (List.cons.inj heq).2
        rw [List.append_eq, List.append_assoc] at hinner
        exact absurd hinner (lineBreak_ne (c := '"') (by decide) (by decide))
      | cons f' fields' =>
        rw [write_obj_cons, write_obj_cons] at heq
        have hmembers : SelfDelimiting Anything
            (membersText gap indent (writeField fmt gap (indent ++ gap)) '\x7d') (f, fields) :=
          members_selfDelimiting (by decide) (by decide) fun x hx =>
            writeField_selfDelimiting (ih x hx (indent ++ gap))
        obtain ⟨hpair, hst⟩ := hmembers.prepend (lineBreak gap (indent ++ gap)) (f', fields') s t
          trivial trivial (List.cons.inj heq).2
        cases hpair
        exact ⟨rfl, hst⟩

/-- Values with the same text are the same, up to the order of their keys. -/
theorem stringify_injective {v w : Json} (h : stringify fmt gap v = stringify fmt gap w)
    (hv : v.distinct = true) (hw : w.distinct = true) : v.Same w := by
  have hown : v.own = w.own := by
    refine injective_of_selfDelimiting ?_ (fun u => write_selfDelimiting fmt gap u []) ?_
    · rintro c hc
      cases hc
    · exact String.ofList_injective h
  rw [Json.Same, ← ordered_own hv, hown, ordered_own hw]

/-! ## A format -/

/-- An integer in full. -/
def integerText (i : ℤ) : List Char :=
  if i < 0 then '-' :: Nat.toDigits 10 i.natAbs else Nat.toDigits 10 i.natAbs

theorem natAbs_injective_digits {m n : ℕ} (h : Nat.toDigits 10 m = Nat.toDigits 10 n) : m = n := by
  rw [← Nat.ofDigitChars_ten_toDigits (n := m), h, Nat.ofDigitChars_ten_toDigits]

theorem exists_toDigits (n : ℕ) : ∃ c rest, Nat.toDigits 10 n = c :: rest ∧ c.isDigit = true := by
  obtain ⟨c, rest, h⟩ := List.exists_cons_of_ne_nil (Nat.toDigits_ne_nil (n := n) (b := 10))
  have hmem : c ∈ Nat.toDigits 10 n := by
    rw [h]
    exact List.mem_cons_self
  exact ⟨c, rest, h, Nat.isDigit_of_mem_toDigits (by decide) (by decide) hmem⟩

theorem integerText_injective : Function.Injective integerText := by
  intro i j h
  unfold integerText at h
  obtain ⟨c, rest, hc, hdigit⟩ := exists_toDigits i.natAbs
  obtain ⟨d, rest', hd, hdigit'⟩ := exists_toDigits j.natAbs
  split at h <;> split at h
  · have habs := natAbs_injective_digits (List.cons.inj h).2
    omega
  · rw [hd] at h
    rw [← (List.cons.inj h).1] at hdigit'
    exact absurd hdigit' (by decide)
  · rw [hc] at h
    rw [(List.cons.inj h).1] at hdigit
    exact absurd hdigit (by decide)
  · have habs := natAbs_injective_digits h
    omega

theorem integerText_numeral {i : ℤ} {c : Char} (h : c ∈ integerText i) :
    (c.isDigit || c = '-') = true := by
  unfold integerText at h
  have hdigits : ∀ d ∈ Nat.toDigits 10 i.natAbs, d.isDigit = true :=
    fun d hd => Nat.isDigit_of_mem_toDigits (by decide) (by decide) hd
  split at h
  · obtain rfl | h := List.mem_cons.mp h
    · rfl
    · rw [hdigits c h, Bool.true_or]
  · rw [hdigits c h, Bool.true_or]

/-- What follows the numerator in `fractionFormat`. -/
def denominatorText (n : ℕ) : List Char := if n = 1 then [] else 'e' :: Nat.toDigits 10 n

/-- A format that writes integers in full, and other numbers as two of them. -/
def fractionFormat : NumberFormat where
  text q := integerText q.num ++ denominatorText q.den
  injective := by
    intro p q h
    have hmark : ∀ n, NotBy (fun c => decide (c ≠ 'e')) (denominatorText n) := by
      intro n c hc
      unfold denominatorText at hc
      split at hc
      · cases hc
      · cases hc
        rfl
    have hnot : ∀ i, ∀ c ∈ integerText i, decide (c ≠ 'e') = true := by
      intro i c hc
      rw [decide_eq_true_eq]
      rintro rfl
      exact absurd (integerText_numeral hc) (by decide)
    obtain ⟨hnum, hden⟩ := selfDelimiting_of_class integerText_injective hnot p.num q.num _ _
      (hmark _) (hmark _) h
    refine Rat.ext hnum ?_
    unfold denominatorText at hden
    split at hden <;> split at hden
    · omega
    · cases hden
    · cases hden
    · exact natAbs_injective_digits (List.cons.inj hden).2
  numeral := by
    intro q c hc
    obtain hc | hc := List.mem_append.mp hc
    · have hdigit := integerText_numeral hc
      simp only [isNumeral, Bool.or_eq_true] at hdigit ⊢
      exact .inl (.inl (.inl hdigit))
    · unfold denominatorText at hc
      split at hc
      · cases hc
      · obtain rfl | hc := List.mem_cons.mp hc
        · rfl
        · have hdigit : c.isDigit = true := Nat.isDigit_of_mem_toDigits (by decide) (by decide) hc
          rw [isNumeral, hdigit]
          rfl
  start := by
    intro q
    unfold integerText
    obtain ⟨c, rest, hc, hdigit⟩ := exists_toDigits q.num.natAbs
    split
    · exact ⟨'-', _, rfl, rfl⟩
    · exact ⟨c, _, by rw [hc, List.cons_append], by rw [hdigit, Bool.true_or]⟩

end MontrSecure
