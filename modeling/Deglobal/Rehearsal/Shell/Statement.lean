import Deglobal.Rehearsal.Shell.Lexer

/-!
# Statements of the shell

The statements a script is made of: simple commands, lists, conditions, and
loops over words.
-/

namespace Deglobal.Rehearsal.Shell

/-- A stream led to a file, or to where another stream is led. -/
structure Redirect where
  stream : Nat
  kind : Lead
  target : Word
  deriving DecidableEq, Inhabited

inductive Statement where
  | skip
  /-- Assignments, words and redirections, and the line it stands on. -/
  | simple (line : Nat) (sets : List (String × Word)) (words : List Word) (leads : List Redirect)
  | sequence (first second : Statement)
  | both (first second : Statement)
  | either (first second : Statement)
  | invert (s : Statement)
  /-- A loop over words, or over the arguments of the script if there are none. -/
  | forEach (name : String) (items : Option (List Word)) (body : Statement)
  | choose (condition yes no : Statement)
  deriving Inhabited

abbrev Tokens := List (Nat × Token)

def plainText? : Token → Option String
  | .word [.text s false] => some s
  | _ => none

def nextIs (s : String) : Tokens → Bool
  | (_, t) :: _ => plainText? t == some s
  | [] => false

def expect (s : String) : Tokens → Option Tokens
  | (_, t) :: rest => if plainText? t = some s then some rest else none
  | [] => none

def skipNewlines (ts : Tokens) : Tokens := ts.dropWhile fun t => t.2 == .newline

def skipSeparators (ts : Tokens) : Tokens :=
  ts.dropWhile fun t => t.2 == .newline || t.2 == .sign ";"

def assignment? : Word → Option (String × Word)
  | .text s false :: rest =>
      match s.toList.span (· != '=') with
      | (c :: name, '=' :: value) =>
          if beginsName c && name.all inName then
            some (String.ofList (c :: name), .text (String.ofList value) true :: rest)
          else none
      | _ => none
  | _ => none

/-- The words and redirections a simple command goes on with. -/
def simpleParts : Tokens → List Word × List Redirect × Tokens
  | (_, .word w) :: rest =>
      let (words, leads, rest) := simpleParts rest
      (w :: words, leads, rest)
  | (_, .lead stream kind) :: (_, .word target) :: rest =>
      let (words, leads, rest) := simpleParts rest
      (words, ⟨stream, kind, target⟩ :: leads, rest)
  | rest => ([], [], rest)

def loopItems : Tokens → Option (List Word × Tokens)
  | (_, .word w) :: rest => (loopItems rest).map fun (ws, rest) => (w :: ws, rest)
  | (_, .newline) :: rest => some ([], rest)
  | (_, .sign ";") :: rest => some ([], rest)
  | _ => none

def closers : List String := ["then", "elif", "else", "fi", "do", "done", "\x7d"]

def listEnds : Tokens → Bool
  | [] => true
  | (_, t) :: _ => (plainText? t).any closers.contains || t == .sign ")"

mutual

/-- Read statements up to a word that closes them. -/
def readList : Nat → Tokens → Option (Statement × Tokens)
  | 0, _ => none
  | n + 1, ts => do
      let ts := skipSeparators ts
      if listEnds ts then return (.skip, ts)
      let (first, rest) ← readAndOr n ts
      match rest with
      | (_, .newline) :: _ => do
          let (others, rest) ← readList n rest
          return (.sequence first others, rest)
      | (_, .sign ";") :: _ => do
          let (others, rest) ← readList n rest
          return (.sequence first others, rest)
      | _ => if listEnds rest then return (first, rest) else none

def readAndOr : Nat → Tokens → Option (Statement × Tokens)
  | 0, _ => none
  | n + 1, ts => do
      let (first, rest) ← readCommand n ts
      readMore n first rest

def readMore : Nat → Statement → Tokens → Option (Statement × Tokens)
  | 0, _, _ => none
  | n + 1, first, (_, .sign "&&") :: rest => do
      let (second, rest) ← readCommand n (skipNewlines rest)
      readMore n (.both first second) rest
  | n + 1, first, (_, .sign "||") :: rest => do
      let (second, rest) ← readCommand n (skipNewlines rest)
      readMore n (.either first second) rest
  | _ + 1, first, rest => some (first, rest)

def readCommand : Nat → Tokens → Option (Statement × Tokens)
  | 0, _ => none
  | n + 1, ts => do
      if nextIs "!" ts then
        let (s, rest) ← readCommand n ts.tail
        return (.invert s, rest)
      else if nextIs "\x7b" ts then
        let (s, rest) ← readList n ts.tail
        return (s, ← expect "\x7d" rest)
      else if nextIs "if" ts then readCondition n ts.tail
      else if nextIs "for" ts then
        match ts.tail with
        | (_, t) :: rest => do
            let name ← plainText? t
            let rest := skipNewlines rest
            let (items, rest) ←
              if nextIs "in" rest then
                (loopItems rest.tail).map fun (ws, rest) => (some ws, rest)
              else some (none, rest)
            let rest ← expect "do" (skipSeparators rest)
            let (body, rest) ← readList n rest
            return (.forEach name items body, ← expect "done" rest)
        | [] => none
      else
        match ts with
        | (line, _) :: _ =>
            let (words, leads, rest) := simpleParts ts
            let sets := (words.takeWhile fun w => (assignment? w).isSome).filterMap assignment?
            let words := words.dropWhile fun w => (assignment? w).isSome
            if sets.isEmpty && words.isEmpty && leads.isEmpty then none
            else return (.simple line sets words leads, rest)
        | [] => none

def readCondition : Nat → Tokens → Option (Statement × Tokens)
  | 0, _ => none
  | n + 1, ts => do
      let (condition, rest) ← readList n ts
      let (yes, rest) ← readList n (← expect "then" rest)
      if nextIs "elif" rest then
        let (no, rest) ← readCondition n rest.tail
        return (.choose condition yes no, rest)
      else if nextIs "else" rest then
        let (no, rest) ← readList n rest.tail
        return (.choose condition yes no, ← expect "fi" rest)
      else return (.choose condition yes .skip, ← expect "fi" rest)

end

/-- The statement a script is, unless it has a part this shell does not know. -/
def statement? (script : String) : Option Statement := do
  let ts ← tokensOf script
  let (s, rest) ← readList (4 * ts.length + 4) ts
  if rest.isEmpty then return s else none

end Deglobal.Rehearsal.Shell
