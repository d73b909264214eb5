import Deglobal.Json.Literal
import Deglobal.Proofs.Json.Grammar

/-! # Reading strings

However a string is written, the reader finds its characters, and whatever may
stand in a string is passed over. Both stop right behind the closing quote.
-/

namespace Deglobal.Json

variable {c d : Char} {s cs ds rest : List Char} {v : Nat}

/-! ## Units -/

theorem HexDigit.read (h : HexDigit v d) : hexDigit? d = some v := by
  have htable : ∀ v < 16, hexDigit? v.digitChar = some v ∧
      hexDigit? v.digitChar.toUpper = some v := by
    decide
  obtain ⟨hv, rfl | rfl⟩ := h
  · exact (htable v hv).1
  · exact (htable v hv).2

theorem HexUnit.read (h : HexUnit v ds) : hexUnit (ds ++ rest) = .ok (v, rest) := by
  cases h with
  | mk h₃ h₂ h₁ h₀ => simp [hexUnit, hexValue?, h₃.read, h₂.read, h₁.read, h₀.read]

theorem toNat_not_surrogate (c : Char) :
    isTrailing c.toNat = false ∧ isLeading c.toNat = false := by
  have hvalid : c.toNat < 0xD800 ∨ 0xDFFF < c.toNat ∧ c.toNat < 0x110000 := c.valid
  simp only [isTrailing, isLeading, Bool.and_eq_false_iff, decide_eq_false_iff_not]
  omega

theorem HexUnit.hexEscape (h : HexUnit c.toNat ds) :
    hexEscape (ds ++ rest) = .ok (c, rest) := by
  obtain ⟨htrailing, hleading⟩ := toNat_not_surrogate c
  simp [Json.hexEscape, h.read, htrailing, hleading, bind, Except.bind, pure, Except.pure]

theorem pairedChar_units (h : 0x10000 ≤ c.toNat) :
    pairedChar (0xD800 + (c.toNat - 0x10000) / 0x400) (0xDC00 + (c.toNat - 0x10000) % 0x400) =
      c := by
  have hvalue : 0x10000 + (0xD800 + (c.toNat - 0x10000) / 0x400 - 0xD800) * 0x400 +
      (0xDC00 + (c.toNat - 0x10000) % 0x400 - 0xDC00) = c.toNat := by
    omega
  rw [pairedChar, hvalue, Char.ofNat_toNat]

theorem hexEscape_pair {es : List Char} (h : 0x10000 ≤ c.toNat)
    (hhigh : HexUnit (0xD800 + (c.toNat - 0x10000) / 0x400) ds)
    (hlow : HexUnit (0xDC00 + (c.toNat - 0x10000) % 0x400) es) :
    hexEscape (ds ++ '\\' :: 'u' :: (es ++ rest)) = .ok (c, rest) := by
  have hvalid : c.toNat < 0xD800 ∨ 0xDFFF < c.toNat ∧ c.toNat < 0x110000 := c.valid
  have hleading : isTrailing (0xD800 + (c.toNat - 0x10000) / 0x400) = false ∧
      isLeading (0xD800 + (c.toNat - 0x10000) / 0x400) = true := by
    simp only [isTrailing, isLeading, Bool.and_eq_false_iff, decide_eq_false_iff_not,
      Bool.and_eq_true, decide_eq_true_eq]
    omega
  have htrailing : isTrailing (0xDC00 + (c.toNat - 0x10000) % 0x400) = true := by
    simp only [isTrailing, Bool.and_eq_true, decide_eq_true_eq]
    omega
  simp [hexEscape, trailingUnit, hhigh.read, hlow.read, hleading, htrailing, pairedChar_units h,
    bind, Except.bind, pure, Except.pure]

/-! ## Letters -/

theorem shortEscape?_of_mem {l : Char} (h : (l, c) ∈ escapes) : shortEscape? l = some c := by
  have htable : ∀ p ∈ escapes, shortEscape? p.1 = some p.2 := by decide
  exact htable _ h

theorem ne_of_mem_escapes {l : Char} (h : (l, c) ∈ escapes) : l ≠ 'u' := by
  have htable : ∀ p ∈ escapes, p.1 ≠ 'u' := by decide
  exact htable _ h

theorem IsPlain.letter (h : IsPlain c) : letter (c :: rest) = .ok (some c, rest) := by
  obtain ⟨hlow, hquote, hback⟩ := h
  have hcontrol : ¬ c < ' ' := Char.not_lt.mpr hlow
  unfold Json.letter
  split <;> simp_all

theorem IsPlain.passLetter (h : IsPlain c) : passLetter (c :: rest) = .ok (false, rest) := by
  obtain ⟨hlow, hquote, hback⟩ := h
  have hcontrol : ¬ c < ' ' := Char.not_lt.mpr hlow
  unfold Json.passLetter
  split <;> simp_all

theorem Spelling.letter (h : Spelling c cs) : letter (cs ++ rest) = .ok (some c, rest) := by
  cases h with
  | plain h => exact h.letter
  | short h =>
      have hu := ne_of_mem_escapes h
      simp [Json.letter, shortEscape?_of_mem h]
  | unit h => simp [Json.letter, h.hexEscape, bind, Except.bind, pure, Except.pure]
  | pair h hhigh hlow =>
      simp [Json.letter, hexEscape_pair h hhigh hlow, bind, Except.bind, pure, Except.pure]

/-! ## Strings -/

theorem Quoted.exists_cons {s : String} (h : Quoted s cs) : ∃ tail, cs = '"' :: tail := by
  cases h
  exact ⟨_, rfl⟩

theorem stringBody_quote : stringBody ('"' :: rest) = .ok ([], rest) := by
  rw [stringBody]
  split <;> simp_all [letter]

theorem stringBody_of_letter {tail : List Char} (h : letter cs = .ok (some c, tail)) :
    stringBody cs = (stringBody tail).map fun p => (c :: p.1, p.2) := by
  rw [stringBody]
  split <;> simp_all [bind, Except.bind, pure, Except.pure, Except.map]

theorem passString_quote : passString ('"' :: rest) = .ok rest := by
  rw [passString]
  split <;> simp_all [passLetter]

theorem passString_of_letter {tail : List Char} (h : passLetter cs = .ok (false, tail)) :
    passString cs = passString tail := by
  rw [passString]
  split <;> simp_all

/-- A string is read as the characters that are spelled in it. -/
theorem Spells.read (h : Spells s cs) : stringBody (cs ++ '"' :: rest) = .ok (s, rest) := by
  induction h with
  | nil => exact stringBody_quote
  | cons h hrest ih =>
      rw [List.append_assoc, stringBody_of_letter h.letter, ih]
      rfl

theorem Letters.pass (h : Letters cs) : passString (cs ++ '"' :: rest) = .ok rest := by
  induction h with
  | nil => exact passString_quote
  | plain h hrest ih =>
      rw [List.cons_append, passString_of_letter h.passLetter, ih]
  | @short l c tail h hrest ih =>
      have hu := ne_of_mem_escapes h
      have hletter : passLetter ('\\' :: l :: (tail ++ '"' :: rest)) =
          .ok (false, tail ++ '"' :: rest) := by
        simp [passLetter, shortEscape?_of_mem h]
      rw [List.cons_append, List.cons_append, passString_of_letter hletter, ih]
  | @unit v ds tail h hrest ih =>
      have hletter : passLetter ('\\' :: 'u' :: (ds ++ (tail ++ '"' :: rest))) =
          .ok (false, tail ++ '"' :: rest) := by
        simp [passLetter, h.read, bind, Except.bind, pure, Except.pure]
      rw [List.cons_append, List.cons_append, List.append_assoc, passString_of_letter hletter, ih]

end Deglobal.Json
