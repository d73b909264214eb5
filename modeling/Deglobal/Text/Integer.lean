import Deglobal.Text.Blank

/-!
# Signed 64-bit integers in text

An optional sign, then one or more ASCII digits, any number of them leading
zeros. A value outside the 64-bit range has no reading.
-/

namespace Deglobal.Text

def digit? (c : Char) : Option Nat :=
  if '0' ≤ c ∧ c ≤ '9' then some (c.toNat - '0'.toNat) else none

/-- Value of a text of ASCII digits read after the digits whose value is `high`. -/
def digitsAfter? (high : Nat) : List Char → Option Nat
  | [] => some high
  | c :: rest => do digitsAfter? (high * 10 + (← digit? c)) rest

def digits? : List Char → Option Nat
  | [] => none
  | cs => digitsAfter? 0 cs

def signed? : List Char → Option Int
  | '+' :: rest => (digits? rest).map Int.ofNat
  | '-' :: rest => (digits? rest).map fun n => -Int.ofNat n
  | cs => (digits? cs).map Int.ofNat

/-- The integers of 64 bits in two's complement. -/
def InInt64 (i : Int) : Prop := -0x8000000000000000 ≤ i ∧ i < 0x8000000000000000

instance (i : Int) : Decidable (InInt64 i) := inferInstanceAs (Decidable (_ ∧ _))

/-- The 64-bit integer a text denotes once the white space at its ends is dropped. -/
def int64? (s : String) : Option Int :=
  (signed? (strip isBlank s.toList)).filter fun i => InInt64 i

end Deglobal.Text
