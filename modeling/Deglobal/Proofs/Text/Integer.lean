import Deglobal.Proofs.Text.Parts
import Deglobal.Text.Integer
import Mathlib.Data.Nat.Digits.Defs

/-! # What integers look like

The texts that denote an integer, said without reading them: blanks, an optional
sign, decimal digits of which there is one at least, and blanks. A text is read as
an integer of 64 bits exactly if it denotes one.
-/

namespace Deglobal.Text

variable {cs ds : List Char} {s : String} {i : Int} {n : Nat}

def IsDigits (ds : List Char) : Prop := ds ≠ [] ∧ ∀ d ∈ ds, '0' ≤ d ∧ d ≤ '9'

def decimal (ds : List Char) : Nat :=
  Nat.ofDigits 10 (ds.reverse.map fun d => d.toNat - '0'.toNat)

/-- An integer in decimal digits, with a sign or without one. -/
inductive Numeral : List Char → Int → Prop where
  | unsigned {ds : List Char} (h : IsDigits ds) : Numeral ds (decimal ds)
  | plus {ds : List Char} (h : IsDigits ds) : Numeral ('+' :: ds) (decimal ds)
  | minus {ds : List Char} (h : IsDigits ds) : Numeral ('-' :: ds) (-decimal ds)

/-- A text is a numeral with nothing but white space around it. -/
def Denotes (s : String) (i : Int) : Prop :=
  ∃ before cs after, s.toList = before ++ cs ++ after ∧ (∀ c ∈ before, isBlank c = true) ∧
    (∀ c ∈ after, isBlank c = true) ∧ Numeral cs i

/-! ## Digits -/

theorem decimal_cons (d : Char) (ds : List Char) :
    decimal (d :: ds) = (d.toNat - '0'.toNat) * 10 ^ ds.length + decimal ds := by
  simp only [decimal, List.reverse_cons, List.map_append, List.map_cons, List.map_nil,
    Nat.ofDigits_append, List.length_map, List.length_reverse, Nat.ofDigits_singleton]
  ring

theorem digitsAfter?_eq_some_iff {high : Nat} : digitsAfter? high ds = some n ↔
    (∀ d ∈ ds, '0' ≤ d ∧ d ≤ '9') ∧ n = high * 10 ^ ds.length + decimal ds := by
  induction ds generalizing high with
  | nil => simp [digitsAfter?, decimal, eq_comm]
  | cons d rest ih =>
      by_cases hd : '0' ≤ d ∧ d ≤ '9'
      · have hvalue : (high * 10 + (d.toNat - '0'.toNat)) * 10 ^ rest.length + decimal rest =
            high * 10 ^ (d :: rest).length + decimal (d :: rest) := by
          rw [decimal_cons, List.length_cons]
          ring
        have hdigit : digit? d = some (d.toNat - '0'.toNat) := if_pos hd
        simp only [digitsAfter?, hdigit, Option.bind_eq_bind, Option.bind_some, ih, hvalue,
          List.forall_mem_cons, hd, and_self, true_and]
      · have hdigit : digit? d = none := if_neg hd
        simp only [digitsAfter?, hdigit, Option.bind_eq_bind, Option.bind_none,
          List.forall_mem_cons, hd, false_and, reduceCtorEq]

theorem digits?_eq_some_iff : digits? ds = some n ↔ IsDigits ds ∧ n = decimal ds := by
  cases ds with
  | nil => simp [digits?, IsDigits]
  | cons d rest => simp [digits?, IsDigits, digitsAfter?_eq_some_iff]

/-! ## Signs and blanks -/

theorem signed?_eq_some_iff : signed? cs = some i ↔ Numeral cs i := by
  constructor
  · intro h
    unfold signed? at h
    split at h <;>
      (obtain ⟨n, hn, rfl⟩ := Option.map_eq_some_iff.mp h
       obtain ⟨hdigits, rfl⟩ := digits?_eq_some_iff.mp hn)
    · exact .plus hdigits
    · exact .minus hdigits
    · exact .unsigned hdigits
  · intro h
    cases h with
    | unsigned h =>
        have hvalue := digits?_eq_some_iff.mpr ⟨h, rfl⟩
        unfold signed?
        split
        · exact absurd (h.2 '+' List.mem_cons_self) (by decide)
        · exact absurd (h.2 '-' List.mem_cons_self) (by decide)
        · simp [hvalue]
    | plus h => simp [signed?, digits?_eq_some_iff.mpr ⟨h, rfl⟩]
    | minus h => simp [signed?, digits?_eq_some_iff.mpr ⟨h, rfl⟩]

theorem isBlank_of_digit {d : Char} (hd : '0' ≤ d ∧ d ≤ '9') : isBlank d = false := by
  obtain ⟨hlow, hhigh⟩ := hd
  have hlow' : 48 ≤ d.toNat := hlow
  have hhigh' : d.toNat ≤ 57 := hhigh
  simp only [isBlank, inRanges, blankRanges, List.any_cons, List.any_nil]
  grind

theorem Numeral.bareEnds (h : Numeral cs i) : BareEnds isBlank cs := by
  have hnotBlank : ∀ c ∈ cs, isBlank c = false := by
    have hdigits : ∀ {ds}, IsDigits ds → ∀ d ∈ ds, isBlank d = false :=
      fun h d hd => isBlank_of_digit (h.2 d hd)
    cases h with
    | unsigned h => exact hdigits h
    | plus h => exact List.forall_mem_cons.mpr ⟨by decide, hdigits h⟩
    | minus h => exact List.forall_mem_cons.mpr ⟨by decide, hdigits h⟩
  exact ⟨fun c hc => hnotBlank c (List.mem_of_mem_head? hc),
    fun c hc => hnotBlank c (List.mem_of_mem_getLast? hc)⟩

theorem numeral_strip_iff : Numeral (strip isBlank s.toList) i ↔ Denotes s i := by
  constructor
  · intro h
    obtain ⟨before, after, hcs, hbefore, hafter⟩ := exists_strip isBlank s.toList
    exact ⟨before, _, after, hcs, hbefore, hafter, h⟩
  · rintro ⟨before, cs, after, heq, hbefore, hafter, h⟩
    rwa [heq, strip_append hbefore hafter h.bareEnds]

/-- A text is read as a 64-bit integer exactly if it denotes it. -/
theorem int64?_eq_some_iff : int64? s = some i ↔ Denotes s i ∧ InInt64 i := by
  rw [int64?, Option.filter_eq_some_iff, signed?_eq_some_iff, numeral_strip_iff]
  simp

theorem Denotes.unique {j : Int} (hi : Denotes s i) (hj : Denotes s j) : i = j := by
  rw [← numeral_strip_iff, ← signed?_eq_some_iff] at hi hj
  exact Option.some.inj (hi.symm.trans hj)

end Deglobal.Text
