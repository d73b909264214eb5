import Deglobal.Build
import Deglobal.Query
import Deglobal.Toolchain.Load

/-!
# Sessions

One call of the driver's program, from its arguments to its exit status: the
arguments are sorted before the toolchain is loaded, and the log is kept only
once both have succeeded.
-/

namespace Deglobal

/-- Carry out an invocation and return the exit status; `home` is the directory the driver runs
from. -/
def Invocation.carryOut (t : Toolchain) (home : Option Path) : Invocation → Script Int32
  | .query q => q.answer t home
  | .build r => do
      t.build r
      return 0

namespace Session

/-- The arguments meant for the driver: a separator in front of them all is dropped. -/
def driverArgs : List String → List String
  | "--" :: rest => rest
  | args => args

def asksVerbose : Invocation → Bool
  | .query _ => false
  | .build r => r.verbose

/-- An invocation that can be carried out, and whether all that happens is to be logged. -/
structure Prepared where
  toolchain : Toolchain
  invocation : Invocation
  verbose : Bool
  deriving DecidableEq, Inhabited

/-- Make a session ready: `program` is the name it was started by. -/
def prepare {m : Type → Type} [Monad m] (probe : Probe m) (program : String)
    (args : List String) : m (Except Failure Prepared) := do
  match classify (driverArgs args) with
  | .error e => return .error e
  | .ok invocation =>
      match ← Toolchain.load probe (Language.ofProgram program) with
      | .error e => return .error e
      | .ok toolchain =>
          return .ok
            { toolchain, invocation
              verbose := toolchain.toggles.verbose || asksVerbose invocation }

def Prepared.script (p : Prepared) (home : Option Path) : Script Int32 :=
  p.invocation.carryOut p.toolchain home

/-- Whether a notice is logged: all of them in a verbose session, else warnings and errors. -/
def logs (verbose : Bool) (n : Notice) : Bool :=
  match n.level with
  | .debug => verbose
  | .info => verbose
  | .warn => true
  | .error => true

/-- A notice as a line of the log, its level set to the right in five columns. -/
def logLine (n : Notice) : String :=
  let level := n.level.text
  String.ofList (List.replicate (5 - level.length) ' ') ++ level ++ " " ++ Text.forTerminal n.text

/-- The line that reports a failure, unless the tool that failed has done so. -/
def errorLine? (e : Failure) : Option String :=
  if e.reportedByTool then none else some ("sstcc: error: " ++ e.message)

def status : Except Failure Int32 → Int32
  | .ok status => status
  | .error e => e.exitStatus

/-- The low byte of a status, which is all that a process can pass on. -/
def exitByte (status : Int32) : UInt8 := status.toUInt32.toUInt8

end Session

end Deglobal
