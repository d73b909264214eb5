import Deglobal.Rehearsal.Shell.Eval
import Deglobal.Session

/-!
# Workstations

A world in which programs are started: what a path or a name leads to is run as
the shell script it holds, or directly. A driver's session can be rehearsed on
it from its arguments to its exit status.
-/

namespace Deglobal.Rehearsal

def utilities : List (String × Utility) :=
  [("true", .succeed), ("false", .fail), ("echo", .echo), ("test", .test), ("sh", .shell),
   ("touch", .touch), ("cat", .cat), ("rm", .remove), ("mkdir", .makeDirectory)]

def FileTree.furnished (here : Place) : FileTree :=
  utilities.foldl (fun t (name, u) =>
    (t.install ["usr", "bin", name] (.utility u)).install ["bin", name] (.utility u))
    ((({} : FileTree).makeDirectories [] here).install ["dev", "null"] .void)

namespace World

/-- The interpreter a text names in its first line. -/
def interpreter? (text : String) : Option String :=
  match text.toList with
  | '#' :: '!' :: rest =>
      ((rest.takeWhile (· != '\n')).splitOnP (fun c => c == ' ' || c == '\t')).find?
        (fun p => !p.isEmpty) |>.map String.ofList
  | _ => none

/-- What the shell does with its arguments: run a text or a file, or nothing. -/
def runShell (call : Shell.Caller) (w : World) : List String → Ending × World
  | [] => (.exited 0, w)
  | "-c" :: script :: args =>
      Shell.runScript call (args.headD "sh") args.tail script w
  | ["-c"] => (.exited 2, w.complain "sh: 0: -c requires an argument\n")
  | file :: args =>
      match file.toList with
      | '-' :: c :: _ =>
          (.exited 2, w.complain ("sh: 0: Illegal option -" ++ String.ofList [c] ++ "\n"))
      | _ =>
          match w.tree.readText w.here ⟨file⟩ with
          | .ok text => Shell.runScript call file args text w
          | .error _ =>
              (.exited 2, w.complain ("sh: 0: cannot open " ++ file ++ ": No such file\n"))

def runNode (call : Shell.Caller) (w : World) (p : Path) (args : List String) :
    Node → Except OsError (Ending × World)
  | .directory => .error .denied
  | .void => .error .denied
  | .utility .shell => .ok (w.runShell call args)
  | .utility u =>
      let (status, w) := w.runUtility args u
      .ok (.exited status, w)
  | .file text? _ => do
      let some text := text? | throw .badFormat
      let some name := interpreter? text | throw .badFormat
      match ← w.programAt ⟨name⟩ with
      | .utility .shell => return Shell.runScript call p.text args text w
      | _ => throw .badFormat

/-- Start a program, with an allowance for programs started by programs. -/
def launch : Nat → Shell.Caller
  | 0, _, _ => .error (.code 11)
  | _, [], _ => .error .missing
  | allowance + 1, name :: args, w => do
      if (name :: args).any fun a => a.toList.contains '\x00' then throw .nulInCommand
      let (p, node) ← w.program name
      runNode (launch allowance) w p args node

def launchDepth : Nat := 16

end World

/-- A world with a driver's session in it. -/
structure Workstation where
  world : World
  verbose : Bool := false
  deriving DecidableEq, Inhabited

namespace Workstation

def log (s : Workstation) (n : Notice) : Workstation :=
  if Session.logs s.verbose n then
    { s with world := s.world.complain (Session.logLine n ++ "\n") }
  else s

/-- Run a command: it is logged first, and one without a program does nothing. -/
def exec (c : Command) (s : Workstation) : Outcome × Workstation :=
  if c.isEmpty then (.exited 0, s)
  else
    let s := s.log (.running c)
    match World.launch World.launchDepth c.words s.world with
    | .ok (ending, world) => (ending.outcome, { s with world })
    | .error e => (.notLaunched e, s)

def unlink (p : Path) (s : Workstation) : Removal × Workstation :=
  match s.world.tree.unlink s.world.here p with
  | .ok tree => (.removed, { s with world := { s.world with tree } })
  | .error e => (if e = .missing then .absent else .refused e, s)

/-- Take notice of an event: texts go to their stream, notices to the log. -/
def hear (e : Event) (s : Workstation) : Workstation :=
  match e with
  | .wrote .out text => { s with world := s.world.print text }
  | .wrote .err text => { s with world := s.world.complain text }
  | e => (e.notice?).elim s s.log

def host : Host Workstation where
  exec := exec
  unlink := unlink
  hear := hear

end Workstation

structure Start where
  program : String
  args : List String
  env : List (String × String)
  self? : Option Path
  deriving DecidableEq, Inhabited

namespace Start

def probe (st : Start) (w : World) : Probe Id where
  lookup := fun name => st.env.lookup name
  readText := fun p => w.tree.readText w.here p
  isFile := fun p => w.tree.isFile w.here p
  isProgram := fun p => w.tree.isProgram w.here p
  self? := st.self?
  here := ⟨"/" ++ "/".intercalate w.here⟩

def toolchain (st : Start) (w : World) : Except Failure Toolchain :=
  Id.run (Toolchain.load (st.probe w) (Language.ofProgram st.program))

/-- A whole session: the exit status of the driver and the world it leaves. -/
def session (st : Start) (w : World) : UInt8 × World :=
  let conclude (result : Except Failure Int32) (w : World) : UInt8 × World :=
    let line? := match result with
      | .ok _ => none
      | .error e => Session.errorLine? e
    (Session.exitByte (Session.status result), line?.elim w fun line => w.complain (line ++ "\n"))
  match Id.run (Session.prepare (st.probe w) st.program st.args) with
  | .error e => conclude (.error e) w
  | .ok prepared =>
      let run := (prepared.script (st.self?.map Path.parent)).run Workstation.host
        { world := w, verbose := prepared.verbose }
      conclude run.result run.final.world

end Start

end Deglobal.Rehearsal
