import Deglobal.Rehearsal.Shell.Statement
import Deglobal.Rehearsal.World

/-!
# Running scripts

A script acts on a world and has variables, arguments and a last status besides.
Programs outside the shell are called through a function, so that running a
script does not depend on how programs are found.
-/

namespace Deglobal.Rehearsal.Shell

abbrev Caller := List String → World → Except OsError (Ending × World)

structure State where
  world : World
  name : String
  args : List String
  vars : List (String × String) := []
  status : Nat := 0
  ended : Option Ending := none
  deriving DecidableEq, Inhabited

namespace State

/-- The number every shell has as a process. -/
def processNumber : String := "4242"

def value (sh : State) (name : String) : String :=
  if name = "#" then toString sh.args.length
  else if name = "?" then toString sh.status
  else if name = "$" then processNumber
  else if name = "*" ∨ name = "@" then " ".intercalate sh.args
  else if name = "0" then sh.name
  else
    match name.toNat? with
    | some n => (sh.args[n - 1]?).getD ""
    | none => (sh.vars.lookup name).getD ""

def assign (sh : State) (name value : String) : State :=
  { sh with vars := (name, value) :: sh.vars.filter fun v => v.1 != name }

/-- Put `s` at the end of the last of some fields, or begin one with it. -/
def addToField (fields : List String) (isOpen : Bool) (s : String) : List String :=
  match isOpen, fields.reverse with
  | true, last :: before => (( last ++ s) :: before).reverse
  | _, _ => fields ++ [s]

def isFieldSpace (c : Char) : Bool := c == ' ' || c == '\t' || c == '\n'

def addSplit (fields : List String) (isOpen : Bool) (s : String) : List String × Bool :=
  let cs := s.toList
  let parts := (cs.splitOnP isFieldSpace).filter fun p => !p.isEmpty
  match parts with
  | [] => (fields, isOpen && cs.isEmpty)
  | first :: others =>
      let joined := isOpen && !(cs.head?.any isFieldSpace)
      (addToField fields joined (String.ofList first) ++ others.map String.ofList,
        !(cs.getLast?.any isFieldSpace))

/-- Add each of some values as a field of its own; the first goes on with an open field. -/
def addEach (fields : List String) (isOpen : Bool) : List String → List String × Bool
  | [] => (fields, isOpen)
  | s :: rest => (addToField fields isOpen s ++ rest, true)

/-- The fields a word makes, added to those before it; tells whether the last can go on. -/
def addWord (sh : State) (fields : List String) (isOpen : Bool) : Word → List String × Bool
  | [] => (fields, isOpen)
  | .text s _ :: rest => sh.addWord (addToField fields isOpen s) true rest
  | .param name true :: rest =>
      if name = "@" then
        let (fields, isOpen) := addEach fields isOpen sh.args
        sh.addWord fields isOpen rest
      else sh.addWord (addToField fields isOpen (sh.value name)) true rest
  | .param name false :: rest =>
      if name = "@" ∨ name = "*" then
        let (fields, isOpen) := sh.args.foldl (fun (fields, isOpen) a =>
          let (fields, _) := addSplit fields isOpen a
          (fields, false)) (fields, isOpen)
        sh.addWord fields isOpen rest
      else
        let (fields, isOpen) := addSplit fields isOpen (sh.value name)
        sh.addWord fields isOpen rest

def expand (sh : State) (words : List Word) : List String :=
  words.flatMap fun w =>
    -- An empty pair of double quotes around nothing but an empty argument list makes no field.
    match w with
    | [.text "" true, .param "@" true] => sh.args
    | w => (sh.addWord [] false w).1

/-- The text a word makes where it is not split. -/
def joined (sh : State) (w : Word) : String :=
  String.join (w.map fun
    | .text s _ => s
    | .param name _ => sh.value name)

def complain (sh : State) (line : Nat) (text : String) : State :=
  { sh with world := sh.world.complain s!"{sh.name}: {line}: {text}\n" }

def withStatus (sh : State) (status : Nat) : State := { sh with status }

def finish (sh : State) (status : Nat) : State := { sh with status, ended := some (.exited status) }

end State

inductive Sink where
  | out
  | err
  | file (p : Path)
  deriving DecidableEq, Inhabited

def openProblem (writing : Bool) : OsError → String
  | .code 2 => if writing then "Directory nonexistent" else "No such file"
  | .code 20 => if writing then "Directory nonexistent" else "No such file"
  | .code n => OsError.text n
  | e => e.message

/-- Lead the streams of a command away, in order; the streams end up in two sinks. -/
def leadStreams (sh : State) (line : Nat) (sinks : Sink × Sink) :
    List Redirect → Except State (State × (Sink × Sink))
  | [] => .ok (sh, sinks)
  | r :: rest =>
      let target := sh.joined r.target
      let toSink (sink : Sink) : Sink × Sink :=
        if r.stream = 1 then (sink, sinks.2)
        else if r.stream = 2 then (sinks.1, sink)
        else sinks
      let opened (text : Option String → Option String) :=
        match sh.world.tree.write sh.world.here ⟨target⟩ text with
        | .ok tree =>
            leadStreams { sh with world := { sh.world with tree } } line
              (toSink (.file ⟨target⟩)) rest
        | .error e =>
            .error (sh.complain line s!"cannot create {target}: {openProblem true e}")
      match r.kind with
      | .write => opened fun _ => some ""
      | .append => opened id
      | .read =>
          match sh.world.tree.find sh.world.here ⟨target⟩ with
          | .ok (.taken _ _) => leadStreams sh line sinks rest
          | .ok (.vacant _) =>
              .error (sh.complain line s!"cannot open {target}: {openProblem false .missing}")
          | .error e =>
              .error (sh.complain line s!"cannot open {target}: {openProblem false e}")
      | .same =>
          if target = "1" then leadStreams sh line (toSink sinks.1) rest
          else if target = "2" then leadStreams sh line (toSink sinks.2) rest
          else leadStreams sh line sinks rest

def Sink.send (w : World) (text : String) : Sink → World
  | out => w.print text
  | err => w.complain text
  | file p =>
      if text.isEmpty then w
      else
        match w.tree.write w.here p fun old => old.map (· ++ text) with
        | .ok tree => { w with tree }
        | .error _ => w

def echoEscape? : Char → Option Char
  | 'a' => some '\x07'
  | 'b' => some '\x08'
  | 'e' => some '\x1b'
  | 'f' => some '\x0c'
  | 'n' => some '\n'
  | 'r' => some '\r'
  | 't' => some '\t'
  | 'v' => some '\x0b'
  | '\\' => some '\\'
  | _ => none

def isOctal (c : Char) : Bool := '0' ≤ c && c ≤ '7'

def octalDigits (cs : List Char) : List Char := (cs.take 3).takeWhile isOctal

def octalChar (digits : List Char) : Char :=
  Char.ofNat (digits.foldl (fun n d => n * 8 + (d.toNat - '0'.toNat)) 0 % 256)

/-- A text with the escapes of `echo` written out; tells whether the line goes on. -/
def echoed : List Char → List Char × Bool
  | '\\' :: c :: rest =>
      if c = 'c' then ([], true)
      else if c = '0' then
        let digits := octalDigits rest
        let (cs, goesOn) := echoed (rest.drop digits.length)
        (octalChar digits :: cs, goesOn)
      else if isOctal c then
        let digits := octalDigits (c :: rest)
        let (cs, goesOn) := echoed (rest.drop (digits.length - 1))
        (octalChar digits :: cs, goesOn)
      else
        let (cs, goesOn) := echoed rest
        match echoEscape? c with
        | some e => (e :: cs, goesOn)
        | none => ('\\' :: c :: cs, goesOn)
  | c :: rest =>
      let (cs, goesOn) := echoed rest
      (c :: cs, goesOn)
  | [] => ([], false)
termination_by cs => cs.length
decreasing_by all_goals simp only [List.length_cons, List.length_drop]; omega

def echoText (args : List String) : String :=
  let (silent, args) := match args with
    | "-n" :: rest => (true, rest)
    | args => (false, args)
  let (cs, goesOn) := echoed (" ".intercalate args).toList
  String.ofList (if silent || goesOn then cs else cs ++ ['\n'])

def signalNames : List (String × Nat) :=
  [("HUP", 1), ("INT", 2), ("QUIT", 3), ("ILL", 4), ("TRAP", 5), ("ABRT", 6), ("BUS", 7),
   ("FPE", 8), ("KILL", 9), ("USR1", 10), ("SEGV", 11), ("USR2", 12), ("PIPE", 13), ("ALRM", 14),
   ("TERM", 15), ("STKFLT", 16), ("CHLD", 17), ("CONT", 18), ("URG", 23), ("XCPU", 24),
   ("XFSZ", 25), ("VTALRM", 26), ("PROF", 27), ("WINCH", 28), ("IO", 29), ("PWR", 30),
   ("SYS", 31)]

def signal? (s : String) : Option Nat := s.toNat?.or (signalNames.lookup s)

/-- Whether a signal ends a process that does not handle it. -/
def isDeadly (n : Nat) : Bool := n != 0 && !([17, 18, 23, 28].contains n)

def killed? : List String → Option (Nat × List String)
  | "-s" :: s :: rest => (signal? s).map fun n => (n, rest)
  | s :: rest =>
      match s.toList with
      | '-' :: name => (signal? (String.ofList name)).map fun n => (n, rest)
      | _ => some (15, s :: rest)
  | [] => none

/-- The commands after which a failed redirection ends the script. -/
def isSpecial (name : String) : Bool :=
  [":", "exit", "shift", "set", "export", "readonly", "unset", "."].contains name

/-- Run a command of the shell's own, if it is one; returns what it writes, too. -/
def ownCommand? (sh : State) (line : Nat) : List String → Option (State × String)
  | ":" :: _ => some (sh.withStatus 0, "")
  | "true" :: _ => some (sh.withStatus 0, "")
  | "false" :: _ => some (sh.withStatus 1, "")
  | "echo" :: args => some (sh.withStatus 0, echoText args)
  | "export" :: _ => some (sh.withStatus 0, "")
  | "test" :: args => some (sh.withStatus (sh.world.testStatus args), "")
  | "[" :: args =>
      match args.reverse with
      | "]" :: rest => some (sh.withStatus (sh.world.testStatus rest.reverse), "")
      | _ => some ((sh.complain line "[: missing ]").withStatus 2, "")
  | ["exit"] => some (sh.finish sh.status, "")
  | "exit" :: s :: _ =>
      match s.toNat? with
      | some n => some (sh.finish (n % 256), "")
      | none => some ((sh.complain line s!"exit: Illegal number: {s}").finish 2, "")
  | ["shift"] =>
      match sh.args with
      | _ :: rest => some ({ sh with args := rest, status := 0 }, "")
      | [] => some ((sh.complain line "shift: can't shift that many").finish 2, "")
  | "kill" :: args =>
      match killed? args with
      | some (n, targets) =>
          if targets.contains State.processNumber && isDeadly n then
            some ({ sh with ended := some (.killed n) }, "")
          else some (sh.withStatus 0, "")
      | none => some ((sh.complain line "kill: Illegal number").withStatus 2, "")
  | _ => none

def outside (call : Caller) (sh : State) (line : Nat) (sinks : Sink × Sink)
    (words : List String) : State :=
  let name := words.headD ""
  match call words { sh.world with out := "", err := "" } with
  | .ok (ending, w) =>
      let after := { w with out := sh.world.out, err := sh.world.err }
      let after := sinks.2.send (sinks.1.send after w.out) w.err
      { sh with world := after, status := ending.status }
  | .error e =>
      if e = .denied then (sh.complain line s!"{name}: Permission denied").withStatus 126
      else (sh.complain line s!"{name}: not found").withStatus 127

def runSimple (call : Caller) (line : Nat) (sets : List (String × Word)) (words : List Word)
    (leads : List Redirect) (sh : State) : State :=
  let fields := sh.expand words
  match leadStreams sh line (.out, .err) leads with
  | .error sh =>
      if fields.head?.any isSpecial then sh.finish 2 else sh.withStatus 2
  | .ok (sh, sinks) =>
      match fields with
      | [] =>
          sets.foldl (fun sh (name, value) => sh.assign name (sh.joined value))
            (sh.withStatus 0)
      | fields =>
          match ownCommand? sh line fields with
          | some (sh, text) => { sh with world := sinks.1.send sh.world text }
          | none => outside call sh line sinks fields

/-- Run a statement, unless the script has ended. -/
def Statement.run (call : Caller) : Statement → State → State
  | skip, sh => sh
  | simple line sets words leads, sh =>
      if sh.ended.isSome then sh else runSimple call line sets words leads sh
  | sequence first second, sh => second.run call (first.run call sh)
  | both first second, sh =>
      let sh := first.run call sh
      if sh.status = 0 then second.run call sh else sh
  | either first second, sh =>
      let sh := first.run call sh
      if sh.status = 0 then sh else second.run call sh
  | invert s, sh =>
      let sh := s.run call sh
      sh.withStatus (if sh.status = 0 then 1 else 0)
  | forEach name items body, sh =>
      if sh.ended.isSome then sh
      else
        let fields := match items with
          | some words => sh.expand words
          | none => sh.args
        fields.foldl (fun sh item =>
          if sh.ended.isSome then sh else body.run call (sh.assign name item)) (sh.withStatus 0)
  | choose condition yes no, sh =>
      let sh := condition.run call sh
      if sh.ended.isSome then sh
      else if sh.status = 0 then yes.run call sh
      else no.run call (sh.withStatus 0)

def runScript (call : Caller) (name : String) (args : List String) (script : String)
    (w : World) : Ending × World :=
  match statement? script with
  | none => (.exited 2, w.complain s!"{name}: 1: Syntax error\n")
  | some s =>
      let sh := s.run call { world := w, name, args }
      (sh.ended.getD (.exited sh.status), sh.world)

end Deglobal.Rehearsal.Shell
