/-!
# Words of the shell

A script is cut into words and signs. A word is kept in pieces, since what a
parameter stands for is split at blanks exactly where it is not quoted.
-/

namespace Deglobal.Rehearsal.Shell

inductive Piece where
  | text (s : String) (quoted : Bool)
  | param (name : String) (quoted : Bool)
  deriving DecidableEq, Inhabited

abbrev Word := List Piece

inductive Lead where
  | write
  | append
  | read
  /-- To where another stream is led already. -/
  | same
  deriving DecidableEq, Inhabited

inductive Token where
  | word (w : Word)
  | newline
  | sign (s : String)
  | lead (stream : Nat) (kind : Lead)
  deriving DecidableEq, Inhabited

def endsWord (c : Char) : Bool := " \t\n;&|<>()".toList.contains c

/-- Whether a character stands for itself in an unquoted word. -/
def isPlain (c : Char) : Bool := !endsWord c && !"'\"\\$\x60".toList.contains c

def beginsName (c : Char) : Bool := c.isAlpha || c == '_'

def inName (c : Char) : Bool := c.isAlphanum || c == '_'

def parameter? : List Char → Option (String × List Char)
  | '\x7b' :: rest =>
      match rest.dropWhile (· != '\x7d') with
      | _ :: after => some (String.ofList (rest.takeWhile (· != '\x7d')), after)
      | [] => none
  | c :: rest =>
      if beginsName c then
        some (String.ofList (c :: rest.takeWhile inName), rest.dropWhile inName)
      else if c.isDigit || "*@#?$!-".toList.contains c then some (String.singleton c, rest)
      else none
  | [] => none

/-- The pieces of a word up to its closing double quote. -/
def quotedPieces : Nat → List Char → Option (Word × List Char)
  | 0, _ => none
  | _, [] => none
  | _, '"' :: rest => some ([], rest)
  | n + 1, '\\' :: '\n' :: rest => quotedPieces n rest
  | n + 1, '\\' :: c :: rest => do
      let (ps, after) ← quotedPieces n rest
      let s := if "$\x60\"\\".toList.contains c then [c] else ['\\', c]
      return (.text (String.ofList s) true :: ps, after)
  | n + 1, '$' :: rest => do
      match parameter? rest with
      | some (name, rest) =>
          let (ps, after) ← quotedPieces n rest
          return (.param name true :: ps, after)
      | none =>
          let (ps, after) ← quotedPieces n rest
          return (.text "$" true :: ps, after)
  | n + 1, c :: rest => do
      if c = '\x60' then none
      let (ps, after) ← quotedPieces n rest
      return (.text (String.singleton c) true :: ps, after)

def wordPieces : Nat → List Char → Option (Word × List Char)
  | 0, _ => none
  | _, [] => some ([], [])
  | n + 1, '\'' :: rest => do
      match rest.dropWhile (· != '\'') with
      | _ :: after =>
          let (ps, after) ← wordPieces n after
          return (.text (String.ofList (rest.takeWhile (· != '\''))) true :: ps, after)
      | [] => none
  | n + 1, '"' :: rest => do
      let (quoted, after) ← quotedPieces n rest
      let (ps, after) ← wordPieces n after
      return (.text "" true :: quoted ++ ps, after)
  | n + 1, '\\' :: '\n' :: rest => wordPieces n rest
  | n + 1, '\\' :: c :: rest => do
      let (ps, after) ← wordPieces n rest
      return (.text (String.singleton c) true :: ps, after)
  | n + 1, '$' :: rest => do
      match parameter? rest with
      | some (name, rest) =>
          let (ps, after) ← wordPieces n rest
          return (.param name false :: ps, after)
      | none =>
          let (ps, after) ← wordPieces n rest
          return (.text "$" false :: ps, after)
  | n + 1, c :: rest => do
      if endsWord c then return ([], c :: rest)
      if !isPlain c then none
      let (ps, after) ← wordPieces n (rest.dropWhile isPlain)
      return (.text (String.ofList (c :: rest.takeWhile isPlain)) false :: ps, after)

def sign? : List Char → Option (Token × List Char)
  | '\n' :: rest => some (.newline, rest)
  | '&' :: '&' :: rest => some (.sign "&&", rest)
  | '|' :: '|' :: rest => some (.sign "||", rest)
  | ';' :: rest => some (.sign ";", rest)
  | '&' :: rest => some (.sign "&", rest)
  | '|' :: rest => some (.sign "|", rest)
  | '(' :: rest => some (.sign "(", rest)
  | ')' :: rest => some (.sign ")", rest)
  | _ => none

/-- The sign that leads a stream away, with the number of the stream if it is given. -/
def lead? (cs : List Char) : Option (Token × List Char) :=
  let digits := cs.takeWhile Char.isDigit
  let number := (String.ofList digits).toNat?
  match cs.dropWhile Char.isDigit with
  | '>' :: '>' :: rest => some (.lead (number.getD 1) .append, rest)
  | '>' :: '&' :: rest => some (.lead (number.getD 1) .same, rest)
  | '>' :: '|' :: rest => some (.lead (number.getD 1) .write, rest)
  | '>' :: rest => some (.lead (number.getD 1) .write, rest)
  | '<' :: rest => some (.lead (number.getD 0) .read, rest)
  | _ => none

/-- The tokens of a script with the lines they begin on. -/
def tokens : Nat → Nat → List Char → Option (List (Nat × Token))
  | 0, _, _ => none
  | _, _, [] => some []
  | n + 1, line, ' ' :: rest => tokens n line rest
  | n + 1, line, '\t' :: rest => tokens n line rest
  | n + 1, line, '\\' :: '\n' :: rest => tokens n (line + 1) rest
  | n + 1, line, '#' :: rest => tokens n line (rest.dropWhile (· != '\n'))
  | n + 1, line, cs => do
      let (token, rest) ←
        match (sign? cs).or (lead? cs) with
        | some found => some found
        | none => (wordPieces (cs.length + 1) cs).map fun (w, rest) => (.word w, rest)
      let passed := (cs.take (cs.length - rest.length)).count '\n'
      return (line, token) :: (← tokens n (line + passed) rest)

/-- The tokens of a script, unless it has a part this shell does not know. -/
def tokensOf (script : String) : Option (List (Nat × Token)) :=
  tokens (script.toList.length + 1) 1 script.toList

end Deglobal.Rehearsal.Shell
