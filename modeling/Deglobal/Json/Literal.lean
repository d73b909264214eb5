/-!
# Strings and fixed words of JSON

A text is read from left to right and the first problem met decides.

A scanner takes the characters that are left and returns what it read with the
characters after it. A string is read letter by letter, where an escape, or two
escapes that make one character outside the basic plane, counts as one letter.
-/

namespace Deglobal.Json

inductive Fault where
  /-- The text is not JSON at this point. -/
  | malformed
  /-- The text is JSON so far but does not hold what is wanted here. -/
  | mistyped
  /-- The text ends too early. -/
  | truncated
  deriving DecidableEq, Inhabited

/-- The characters JSON allows between tokens. -/
def isSpace (c : Char) : Bool := c == ' ' || c == '\n' || c == '\t' || c == '\r'

def skipSpace (cs : List Char) : List Char := cs.dropWhile isSpace

def word : List Char → List Char → Except Fault (List Char)
  | [], cs => .ok cs
  | _ :: _, [] => .error .truncated
  | w :: ws, c :: cs => if w = c then word ws cs else .error .malformed

def hexDigit? (c : Char) : Option Nat :=
  if '0' ≤ c ∧ c ≤ '9' then some (c.toNat - '0'.toNat)
  else if 'a' ≤ c ∧ c ≤ 'f' then some (c.toNat - 'a'.toNat + 10)
  else if 'A' ≤ c ∧ c ≤ 'F' then some (c.toNat - 'A'.toNat + 10)
  else none

def hexValue? (a b c d : Char) : Option Nat := do
  return (((← hexDigit? a) * 16 + (← hexDigit? b)) * 16 + (← hexDigit? c)) * 16 + (← hexDigit? d)

def byteCount (cs : List Char) : Nat := (String.ofList cs).utf8ByteSize

/-- Read the four hexadecimal digits of an escape; a text with fewer than four bytes left is cut
short. -/
def hexUnit : List Char → Except Fault (Nat × List Char)
  | a :: b :: c :: d :: rest =>
      match hexValue? a b c d with
      | some v => .ok (v, rest)
      | none => .error .malformed
  | few => .error (if byteCount few < 4 then .truncated else .malformed)

/-- Whether a code unit opens a pair. -/
def isLeading (u : Nat) : Bool := 0xD800 ≤ u && u ≤ 0xDBFF

def isTrailing (u : Nat) : Bool := 0xDC00 ≤ u && u ≤ 0xDFFF

def pairedChar (high low : Nat) : Char :=
  Char.ofNat (0x10000 + (high - 0xD800) * 0x400 + (low - 0xDC00))

/-- Read the second escape of a pair whose first code unit is `high`. -/
def trailingUnit (high : Nat) : List Char → Except Fault (Char × List Char)
  | [] => .error .truncated
  | ['\\'] => .error .truncated
  | '\\' :: 'u' :: rest => do
      let (low, rest) ← hexUnit rest
      if isTrailing low then return (pairedChar high low, rest) else throw .malformed
  | _ => .error .malformed

def hexEscape (cs : List Char) : Except Fault (Char × List Char) := do
  let (u, rest) ← hexUnit cs
  if isTrailing u then throw .malformed
  else if isLeading u then trailingUnit u rest
  else return (Char.ofNat u, rest)

def shortEscape? : Char → Option Char
  | '"' => some '"'
  | '\\' => some '\\'
  | '/' => some '/'
  | 'b' => some '\x08'
  | 'f' => some '\x0c'
  | 'n' => some '\n'
  | 'r' => some '\r'
  | 't' => some '\t'
  | _ => none

/-- Read one letter of a string, or its closing quote, for which there is no letter. -/
def letter : List Char → Except Fault (Option Char × List Char)
  | [] => .error .truncated
  | '"' :: rest => .ok (none, rest)
  | ['\\'] => .error .truncated
  | '\\' :: 'u' :: rest => do
      let (c, rest) ← hexEscape rest
      return (some c, rest)
  | '\\' :: e :: rest =>
      match shortEscape? e with
      | some c => .ok (some c, rest)
      | none => .error .malformed
  | c :: rest => if c < ' ' then .error .malformed else .ok (some c, rest)

/-- Pass over one letter of a string; tells whether it was the closing quote. -/
def passLetter : List Char → Except Fault (Bool × List Char)
  | [] => .error .truncated
  | '"' :: rest => .ok (true, rest)
  | ['\\'] => .error .truncated
  | '\\' :: 'u' :: rest => do
      let (_, rest) ← hexUnit rest
      return (false, rest)
  | '\\' :: e :: rest => if (shortEscape? e).isSome then .ok (false, rest) else .error .malformed
  | c :: rest => if c < ' ' then .error .malformed else .ok (false, rest)

theorem hexUnit_shorter {cs rest : List Char} {u : Nat} (h : hexUnit cs = .ok (u, rest)) :
    rest.length < cs.length := by
  unfold hexUnit at h
  split at h
  · split at h
    · injection h with h
      injection h with _ h
      subst h
      simp only [List.length_cons]
      omega
    · cases h
  · cases h

theorem trailingUnit_shorter {high : Nat} {cs rest : List Char} {c : Char}
    (h : trailingUnit high cs = .ok (c, rest)) : rest.length < cs.length := by
  unfold trailingUnit at h
  split at h
  · cases h
  · cases h
  · next tail =>
      cases hu : hexUnit tail with
      | error e => simp [hu, bind, Except.bind] at h
      | ok p =>
          obtain ⟨_, _⟩ := p
          have hs := hexUnit_shorter hu
          simp only [hu, bind, Except.bind] at h
          split at h
          · injection h with h
            injection h with _ h
            subst h
            simp only [List.length_cons]
            omega
          · cases h
  · cases h

theorem hexEscape_shorter {cs rest : List Char} {c : Char}
    (h : hexEscape cs = .ok (c, rest)) : rest.length < cs.length := by
  unfold hexEscape at h
  cases hu : hexUnit cs with
  | error e => simp [hu, bind, Except.bind] at h
  | ok p =>
      obtain ⟨_, _⟩ := p
      have hs := hexUnit_shorter hu
      simp only [hu, bind, Except.bind] at h
      split at h
      · cases h
      · split at h
        · have ht := trailingUnit_shorter h
          omega
        · injection h with h
          injection h with _ h
          subst h
          exact hs

theorem letter_shorter {cs rest : List Char} {c : Option Char}
    (h : letter cs = .ok (c, rest)) : rest.length < cs.length := by
  unfold letter at h
  split at h
  · cases h
  · injection h with h
    injection h with _ h
    subst h
    simp
  · cases h
  · next tail =>
      cases hu : hexEscape tail with
      | error e => simp [hu, bind, Except.bind] at h
      | ok p =>
          obtain ⟨_, _⟩ := p
          have hs := hexEscape_shorter hu
          simp only [hu, bind, Except.bind] at h
          injection h with h
          injection h with _ h
          subst h
          simp only [List.length_cons]
          omega
  · split at h
    · injection h with h
      injection h with _ h
      subst h
      simp only [List.length_cons]
      omega
    · cases h
  · split at h
    · cases h
    · injection h with h
      injection h with _ h
      subst h
      simp

theorem passLetter_shorter {cs rest : List Char} {closes : Bool}
    (h : passLetter cs = .ok (closes, rest)) : rest.length < cs.length := by
  unfold passLetter at h
  split at h
  · cases h
  · injection h with h
    injection h with _ h
    subst h
    simp
  · cases h
  · next tail =>
      cases hu : hexUnit tail with
      | error e => simp [hu, bind, Except.bind] at h
      | ok p =>
          obtain ⟨_, _⟩ := p
          have hs := hexUnit_shorter hu
          simp only [hu, bind, Except.bind] at h
          injection h with h
          injection h with _ h
          subst h
          simp only [List.length_cons]
          omega
  · split at h
    · injection h with h
      injection h with _ h
      subst h
      simp only [List.length_cons]
      omega
    · cases h
  · split at h
    · cases h
    · injection h with h
      injection h with _ h
      subst h
      simp

/-- Read a string whose opening quote is behind us. -/
def stringBody (cs : List Char) : Except Fault (List Char × List Char) :=
  match _h : letter cs with
  | .error e => .error e
  | .ok (none, rest) => .ok ([], rest)
  | .ok (some c, rest) => do
      let (s, rest) ← stringBody rest
      return (c :: s, rest)
termination_by cs.length
decreasing_by exact letter_shorter _h

def passString (cs : List Char) : Except Fault (List Char) :=
  match _h : passLetter cs with
  | .error e => .error e
  | .ok (true, rest) => .ok rest
  | .ok (false, rest) => passString rest
termination_by cs.length
decreasing_by exact passLetter_shorter _h

end Deglobal.Json
