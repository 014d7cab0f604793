import Mathlib.Data.List.Basic
import Mathlib.Algebra.Group.Nat.Defs

/-!
# UTF-16 code units

The strings of the source are sequences of 16-bit code units: their length, their order and the
symbols a regular expression sees are those of the code units. A `String` stands for the sequence
`units` gives; it cannot hold a lone surrogate.
-/

namespace Text

/-- The code units of a character. -/
def charUnits (c : Char) : List ℕ :=
  if c.toNat < 0x10000 then [c.toNat]
  else [0xD800 + (c.toNat - 0x10000) / 0x400, 0xDC00 + (c.toNat - 0x10000) % 0x400]

/-- The code units of a string. -/
def units (s : String) : List ℕ := s.toList.flatMap charUnits

/-- `s.length`. -/
def length (s : String) : ℕ := (units s).length

/-- The code unit of an ASCII character. -/
abbrev unit (c : Char) : ℕ := c.toNat

/-- `s.includes(part)`. -/
def includes (s part : String) : Bool := (units s).tails.any fun t => (units part).isPrefixOf t

/-- A character outside the basic plane has no surrogate as its code point. -/
theorem not_surrogate (c : Char) : c.toNat < 0xD800 ∨ 0xDFFF < c.toNat ∧ c.toNat < 0x110000 := c.valid

/-- No character begins the code units of another one. -/
theorem charUnits_append_inj {c d : Char} {s t : List ℕ}
    (h : charUnits c ++ s = charUnits d ++ t) : c = d ∧ s = t := by
  have hc := not_surrogate c
  have hd := not_surrogate d
  unfold charUnits at h
  split at h <;> split at h <;> simp only [List.cons_append, List.nil_append, List.cons.injEq] at h
  · exact ⟨Char.toNat_inj.mp h.1, h.2⟩
  · omega
  · omega
  · obtain ⟨hhigh, hlow, hrest⟩ := h
    exact ⟨Char.toNat_inj.mp (by omega), hrest⟩

/-- Strings with the same code units are the same. -/
theorem units_injective : Function.Injective units := by
  have hlist : ∀ s t : List Char, s.flatMap charUnits = t.flatMap charUnits → s = t := by
    intro s
    induction s with
    | nil =>
      intro t h
      cases t with
      | nil => rfl
      | cons d t =>
        rw [List.flatMap_nil, List.flatMap_cons] at h
        have hempty := congrArg List.length h
        unfold charUnits at hempty
        split at hempty <;> simp at hempty
    | cons c s ih =>
      intro t h
      cases t with
      | nil =>
        rw [List.flatMap_nil, List.flatMap_cons] at h
        have hempty := congrArg List.length h
        unfold charUnits at hempty
        split at hempty <;> simp at hempty
      | cons d t =>
        rw [List.flatMap_cons, List.flatMap_cons] at h
        obtain ⟨rfl, hrest⟩ := charUnits_append_inj h
        rw [ih t hrest]
  intro s t h
  exact String.toList_inj.mp (hlist _ _ h)

theorem units_append (s t : String) : units (s ++ t) = units s ++ units t := by
  rw [units, String.toList_append, List.flatMap_append]
  rfl

/-- The code units of ASCII characters are those characters. -/
theorem units_of_ascii {s : String} (h : ∀ c ∈ s.toList, c.toNat < 0x80) :
    units s = s.toList.map unit := by
  unfold units
  generalize s.toList = cs at h
  induction cs with
  | nil => rfl
  | cons c cs ih =>
    obtain ⟨hc, hcs⟩ := List.forall_mem_cons.mp h
    have hsmall : c.toNat < 0x10000 := by omega
    rw [List.flatMap_cons, ih hcs, charUnits, if_pos hsmall]
    rfl

/-! ## Numerals -/

theorem ascii_of_isDigit {c : Char} (h : c.isDigit = true) : c.toNat < 0x80 := by
  rw [Char.isDigit, Bool.and_eq_true, decide_eq_true_eq, decide_eq_true_eq] at h
  have hle : c.toNat ≤ '9'.toNat := h.2
  exact Nat.lt_of_le_of_lt hle (by decide)

theorem isDigit_of_mem_toString {n : ℕ} {c : Char} (h : c ∈ (toString n).toList) : c.isDigit = true := by
  rw [Nat.toString_eq_ofList_toDigits, String.toList_ofList] at h
  exact Nat.isDigit_of_mem_toDigits (by decide) (by decide) h

theorem length_toString {n k : ℕ} (hk : 0 < k) (h : n < 10 ^ k) : (toString n).toList.length ≤ k := by
  rw [Nat.toString_eq_ofList_toDigits, String.toList_ofList]
  exact (Nat.length_toDigits_le_iff (by decide) hk).mpr h

end Text
