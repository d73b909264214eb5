import Deglobal.Proofs.Text.Integer

/-! # What JSON looks like

The texts that are JSON values, said without reading them, after the grammar of
the format. A string can be written in many ways, and so can the items of an array
or an object, since gaps may stand between any two tokens.
-/

namespace Deglobal.Json

open Text (IsDigits)

def IsGap (g : List Char) : Prop := ∀ c ∈ g, c ∈ [' ', '\t', '\n', '\r']

instance (g : List Char) : Decidable (IsGap g) :=
  List.decidableBAll (· ∈ [' ', '\t', '\n', '\r']) g

theorem isGap_nil : IsGap [] := by decide

inductive Padded (body : List Char → Prop) : List Char → Prop where
  | mk {before cs after : List Char} (hbefore : IsGap before) (h : body cs)
      (hafter : IsGap after) : Padded body (before ++ (cs ++ after))

/-! ## Strings -/

def IsPlain (c : Char) : Prop := ' ' ≤ c ∧ c ≠ '"' ∧ c ≠ '\\'

instance (c : Char) : Decidable (IsPlain c) :=
  inferInstanceAs (Decidable (' ' ≤ c ∧ c ≠ '"' ∧ c ≠ '\\'))

/-- The letters that make an escape together with a backslash, each with its character. -/
def escapes : List (Char × Char) :=
  [('"', '"'), ('\\', '\\'), ('/', '/'), ('b', '\x08'), ('f', '\x0c'), ('n', '\n'), ('r', '\r'),
   ('t', '\t')]

def HexDigit (v : Nat) (d : Char) : Prop :=
  v < 16 ∧ (d = v.digitChar ∨ d = v.digitChar.toUpper)

instance (v : Nat) (d : Char) : Decidable (HexDigit v d) :=
  inferInstanceAs (Decidable (v < 16 ∧ (d = v.digitChar ∨ d = v.digitChar.toUpper)))

inductive HexUnit : Nat → List Char → Prop where
  | mk {v₃ v₂ v₁ v₀ : Nat} {d₃ d₂ d₁ d₀ : Char} (h₃ : HexDigit v₃ d₃) (h₂ : HexDigit v₂ d₂)
      (h₁ : HexDigit v₁ d₁) (h₀ : HexDigit v₀ d₀) :
      HexUnit (((v₃ * 16 + v₂) * 16 + v₁) * 16 + v₀) [d₃, d₂, d₁, d₀]

/-- The ways to write a character in a string. One outside the basic plane that is not plain
is written as two units. -/
inductive Spelling (c : Char) : List Char → Prop where
  | plain (h : IsPlain c) : Spelling c [c]
  | short {letter : Char} (h : (letter, c) ∈ escapes) : Spelling c ['\\', letter]
  | unit {ds : List Char} (h : HexUnit c.toNat ds) : Spelling c ('\\' :: 'u' :: ds)
  | pair {ds es : List Char} (h : 0x10000 ≤ c.toNat)
      (hhigh : HexUnit (0xD800 + (c.toNat - 0x10000) / 0x400) ds)
      (hlow : HexUnit (0xDC00 + (c.toNat - 0x10000) % 0x400) es) :
      Spelling c ('\\' :: 'u' :: (ds ++ '\\' :: 'u' :: es))

inductive Spells : List Char → List Char → Prop where
  | nil : Spells [] []
  | cons {c : Char} {s cs rest : List Char} (h : Spelling c cs) (hrest : Spells s rest) :
      Spells (c :: s) (cs ++ rest)

/-- What may stand in a string: as far as the format goes, units need not come in pairs. -/
inductive Letters : List Char → Prop where
  | nil : Letters []
  | plain {c : Char} {rest : List Char} (h : IsPlain c) (hrest : Letters rest) :
      Letters (c :: rest)
  | short {letter c : Char} {rest : List Char} (h : (letter, c) ∈ escapes)
      (hrest : Letters rest) : Letters ('\\' :: letter :: rest)
  | unit {v : Nat} {ds rest : List Char} (h : HexUnit v ds) (hrest : Letters rest) :
      Letters ('\\' :: 'u' :: (ds ++ rest))

inductive IsString : List Char → Prop where
  | mk {cs : List Char} (h : Letters cs) : IsString ('"' :: (cs ++ ['"']))

inductive Quoted (s : String) : List Char → Prop where
  | mk {cs : List Char} (h : Spells s.toList cs) : Quoted s ('"' :: (cs ++ ['"']))

/-! ## Numbers -/

/-- The whole digits of a number: no zero stands before others. -/
def IsWhole (ds : List Char) : Prop := ds = ['0'] ∨ (IsDigits ds ∧ ds.head? ≠ some '0')

inductive IsFraction : List Char → Prop where
  | absent : IsFraction []
  | present {ds : List Char} (h : IsDigits ds) : IsFraction ('.' :: ds)

inductive IsExponent : List Char → Prop where
  | absent : IsExponent []
  | present {e : Char} {sign ds : List Char} (he : e ∈ ['e', 'E'])
      (hsign : sign ∈ [[], ['+'], ['-']]) (h : IsDigits ds) : IsExponent (e :: (sign ++ ds))

inductive IsMagnitude : List Char → Prop where
  | mk {whole fraction exponent : List Char} (hwhole : IsWhole whole)
      (hfraction : IsFraction fraction) (hexponent : IsExponent exponent) :
      IsMagnitude (whole ++ (fraction ++ exponent))

/-! ## Items -/

section

variable {α : Type} (closing : Char) (item : α → List Char → Prop)

/-- The items of a list that are left after one of them, each behind a comma, and the end of it. -/
inductive More : List α → List Char → Prop where
  | close {g : List Char} (hg : IsGap g) : More [] (g ++ [closing])
  | next {x : α} {xs : List α} {g g' cs rest : List Char} (hg : IsGap g) (hg' : IsGap g')
      (hx : item x cs) (hrest : More xs rest) :
      More (x :: xs) (g ++ ',' :: (g' ++ (cs ++ rest)))

/-- A list of items, its opening bracket left out. -/
inductive Opened : List α → List Char → Prop where
  | empty {g : List Char} (hg : IsGap g) : Opened [] (g ++ [closing])
  | items {x : α} {xs : List α} {g cs rest : List Char} (hg : IsGap g) (hx : item x cs)
      (hrest : More closing item xs rest) : Opened (x :: xs) (g ++ (cs ++ rest))

end

inductive IsArray {α : Type} (item : α → List Char → Prop) (xs : List α) : List Char → Prop where
  | mk {cs : List Char} (h : Opened ']' item xs cs) : IsArray item xs ('[' :: cs)

/-- A member of an object: a key, a colon, and the text of the value as it is. -/
inductive IsMember {α : Type} (key : α → List Char → Prop) : α × List Char → List Char → Prop where
  | mk {a : α} {cs g g' value : List Char} (ha : key a cs) (hg : IsGap g) (hg' : IsGap g') :
      IsMember key (a, value) (cs ++ (g ++ ':' :: (g' ++ value)))

inductive IsObject {α : Type} (key : α → List Char → Prop) (es : List (α × List Char)) :
    List Char → Prop where
  | mk {cs : List Char} (h : Opened '}' (IsMember key) es cs) : IsObject key es ('{' :: cs)

/-! ## Values -/

/-- The texts that are JSON values, to any depth. -/
inductive IsValue : List Char → Prop where
  | null : IsValue ['n', 'u', 'l', 'l']
  | yes : IsValue ['t', 'r', 'u', 'e']
  | no : IsValue ['f', 'a', 'l', 's', 'e']
  | positive {cs : List Char} (h : IsMagnitude cs) : IsValue cs
  | negative {cs : List Char} (h : IsMagnitude cs) : IsValue ('-' :: cs)
  | string {cs : List Char} (h : IsString cs) : IsValue cs
  | array {vs : List (List Char)} {cs : List Char} (h : IsArray Eq vs cs)
      (hvalues : ∀ v ∈ vs, IsValue v) : IsValue cs
  | object {es : List (List Char × List Char)} {cs : List Char} (h : IsObject Eq es cs)
      (hkeys : ∀ e ∈ es, IsString e.1) (hvalues : ∀ e ∈ es, IsValue e.2) : IsValue cs

end Deglobal.Json
