import Deglobal.Json.Literal
import Deglobal.OsError
import Deglobal.Path

/-!
# Failures

Every way an invocation can fail, as a cause. The wording, the exit status the
driver reports and whether the user has been told already are functions of the
cause.
-/

namespace Deglobal

inductive Claimant where
  /-- A file named on the command line. -/
  | input (file : Path)
  | merge
  deriving DecidableEq, Inhabited

def Claimant.text : Claimant → String
  | input file => file.text
  | merge => "the merge"

/-- Contradictory arguments and unusable configuration values. -/
inductive Misconfiguration where
  | danglingOutput
  /-- Sources are compiled, but more than one object file is named. -/
  | surplusObjects (objects : List Path)
  /-- Two claims to one file; the file is spelled as it was first claimed. -/
  | clash (first second : Claimant) (file : Path)
  | toggle (setting raw : String)
  | placeholder (directory value : String)
  deriving DecidableEq, Inhabited

def Misconfiguration.message : Misconfiguration → String
  | danglingOutput => "missing filename after '-o'"
  | surplusObjects objects =>
      "specified multiple object files for source compilation: " ++
        " ".intercalate (objects.map Path.text)
  | clash first second file =>
      s!"{first.text} and {second.text} would both use {file.text}"
  | toggle setting raw => s!"{setting} must be an integer, got '{raw}'"
  | placeholder directory value =>
      s!"{directory} contains an unresolvable placeholder: {value}"

inductive Failure where
  | configuration (cause : Misconfiguration)
  /-- An external command ran and returned a nonzero status. -/
  | tool (program : String) (status : Int32)
  | launch (program : String) (error : OsError)
  | description (file : Path) (fault : Json.Fault)
  | io (error : OsError)
  deriving DecidableEq, Inhabited

namespace Failure

/-- The line that reports a failure. What the reader of a description says of its fault, in words
that follow after a colon, is left out. -/
def message : Failure → String
  | configuration cause => s!"configuration error: {cause.message}"
  | tool program status => s!"{program} exited with status {status.toInt}"
  | launch program error => s!"failed to launch {program}: {error.message}"
  | description file _ => s!"invalid toolchain description {file.text}"
  | io error => s!"IO error: {error.message}"

/-- The exit status of a failed invocation: a tool's own status is passed on unchanged. -/
def exitStatus : Failure → Int32
  | tool _ status => status
  | launch _ _ => 127
  | configuration _ => 1
  | description _ _ => 1
  | io _ => 1

/-- Whether the tool that failed has reported the problem on its own output. -/
def reportedByTool : Failure → Bool
  | tool _ _ => true
  | _ => false

end Failure

end Deglobal
