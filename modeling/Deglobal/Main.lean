import Deglobal.Session

/-!
# The program

The driver talks to whoever started it, its attendant, who runs commands and
looks after files for it. Each thing wanted is one line on standard output, a
word for what it is and then its operands in escaped form; the answer is read
from standard input:

    run "program" "argument" ...    the exit status, or `launch` and an error number
    discard "path"                  `removed`, `absent`, or an error number
    file "path"                     `yes` or `no`: is it a regular file
    program "path"                  `yes` or `no`: is it one that may be executed
    read "path"                     `lines`, a count and that many lines, or an error number
    print "text"                    nothing; the text is meant for the user

The first argument is the name the driver was started by; the others are the
driver's own. The log and error lines go to standard error.
-/

namespace Deglobal.Attended

def ask (what : String) (operands : List String) : IO Unit := do
  let out ← IO.getStdout
  out.putStrLn (" ".intercalate (what :: operands.map Text.escaped))
  out.flush

def answer : IO (List String) := do
  let line ← (← IO.getStdin).getLine
  return Text.words line

/-- A number in an answer; one that cannot be read counts as an input error. -/
def number (word : String) : Int := (Text.int64? word).getD 5

def confirms (what : String) (p : Path) : IO Bool := do
  ask what [p.text]
  return (← answer) == ["yes"]

def readLines : Nat → IO String
  | 0 => return ""
  | n + 1 => do
      let line ← (← IO.getStdin).getLine
      return line ++ (← readLines n)

def readText (p : Path) : IO (Except OsError String) := do
  ask "read" [p.text]
  match ← answer with
  | ["lines", count] => return .ok (← readLines (number count).toNat)
  | word :: _ => return .error (.code (number word))
  | [] => return .error (.code 5)

def runCommand (c : Command) : IO Outcome := do
  if c.isEmpty then return .exited 0
  ask "run" c.words
  match ← answer with
  | ["launch", code] => return .notLaunched (.code (number code))
  | word :: _ => return .exited (Int32.ofInt (number word))
  | [] => return .notLaunched (.code 5)

def removeFile (p : Path) : IO Removal := do
  ask "discard" [p.text]
  match ← answer with
  | ["removed"] => return .removed
  | ["absent"] => return .absent
  | word :: _ => return .refused (.code (number word))
  | [] => return .refused (.code 5)

def complain (line : String) : IO Unit := do
  (← IO.getStderr).putStrLn line

def log (verbose : Bool) (n : Notice) : IO Unit :=
  if Session.logs verbose n then complain (Session.logLine n) else pure ()

def perform {α : Type} (verbose : Bool) : Script α → IO (Except Failure α)
  | .done result => return result
  | .exec c next => do
      if !c.isEmpty then log verbose (.running c)
      perform verbose (next (← runCommand c))
  | .discard p next => do
      let event := Event.discarded p (← removeFile p)
      if let some n := event.notice? then log verbose n
      perform verbose next
  | .note n next => do
      log verbose n
      perform verbose next
  | .write .out text next => do
      ask "print" [text]
      perform verbose next
  | .write .err text next => do
      (← IO.getStderr).putStr text
      perform verbose next

def probe (program : String) (here : String) : Probe IO where
  lookup := fun name => IO.getEnv name
  readText := readText
  isFile := confirms "file"
  isProgram := confirms "program"
  self? := if program.toList.contains '/' then some ⟨program⟩ else none
  here := ⟨here⟩

def session (program : String) (args : List String) : IO UInt8 := do
  let here := (← IO.getEnv "PWD").getD "/"
  let asked := probe program here
  let result ← match ← Session.prepare asked program args with
    | .error e => pure (.error e)
    | .ok prepared => perform prepared.verbose (prepared.script (asked.self?.map Path.parent))
  if let .error e := result then
    if let some line := Session.errorLine? e then complain line
  return Session.exitByte (Session.status result)

end Deglobal.Attended

/-- Start a session under the name given first. -/
def main (args : List String) : IO UInt32 := do
  return (← Deglobal.Attended.session (args.headD "sstcc") args.tail).toUInt32
