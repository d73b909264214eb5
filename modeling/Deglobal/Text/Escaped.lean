import Deglobal.Text.Extending
import Deglobal.Text.Unseen

/-!
# Escaped text

A text as it is shown in a log: between double quotes, with double quotes,
backslashes, characters that are not seen and marks that extend others written as
escapes. A single quote stands for itself.

A line that goes to a terminal must not move the cursor or ring the bell because
of what some file is called. There the characters a terminal could take for
control sequences are spelled out; blanks and line ends stay as they are.
-/

namespace Deglobal.Text

def codeEscape (c : Char) : String :=
  "\\u\x7b" ++ String.ofList (Nat.toDigits 16 c.toNat) ++ "\x7d"

def escapedChar (c : Char) : String :=
  if c = '\x00' then "\\0"
  else if c = '\t' then "\\t"
  else if c = '\r' then "\\r"
  else if c = '\n' then "\\n"
  else if c = '"' ∨ c = '\\' then String.ofList ['\\', c]
  else if isExtending c || isUnseen c then codeEscape c
  else String.singleton c

/-- A text as it is shown in a log. -/
def escaped (s : String) : String :=
  "\"" ++ String.join (s.toList.map escapedChar) ++ "\""

/-- The seven-bit characters that are spelled out, each with its spelling. -/
def controlSpellings : List (Char × String) :=
  [('\x1b', "\\x1b"), ('\x07', "\\x07"), ('\x08', "\\x08"), ('\x0c', "\\x0c"), ('\x7f', "\\x7f")]

def highControls : Nat × Nat := (0x80, 0x9F)

def terminalChar (c : Char) : String :=
  match controlSpellings.lookup c with
  | some spelling => spelling
  | none => if inRanges [highControls] c then codeEscape c else String.singleton c

/-- A text as it goes to a terminal. -/
def forTerminal (s : String) : String := String.join (s.toList.map terminalChar)

end Deglobal.Text
