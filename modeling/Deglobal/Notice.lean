import Deglobal.BuildPath
import Deglobal.Command
import Deglobal.Text.Escaped

/-!
# The log

What a driver notes while it works, how much each note matters, and its wording.
-/

namespace Deglobal

inductive Level where
  | debug
  | info
  | warn
  | error
  deriving DecidableEq, Inhabited

def Level.text : Level → String
  | debug => "DEBUG"
  | info => "INFO"
  | warn => "WARN"
  | error => "ERROR"

/-- What is noted in the log. -/
inductive Notice where
  | buildPath (p : BuildPath)
  | running (c : Command)
  | removed (p : Path)
  | notRemoved (p : Path) (error : OsError)
  | mergeFailed (output : Path)
  | linkDeferred (output : Path)
  | parallel (sources : Nat)
  deriving DecidableEq, Inhabited

/-- A path as it is shown inside a build path. -/
def Path.shown (p : Path) : String := Text.escaped p.text

def MergePlan.shown : MergePlan → String
  | perSource => "PerSource"
  | consolidated target => "Consolidated(" ++ target.shown ++ ")"

def BuildPath.shown : BuildPath → String
  | preprocess => "Preprocess"
  | directCompile => "DirectCompile"
  | transformCompile plan => "TransformCompile(" ++ plan.shown ++ ")"
  | transformLink output plan =>
      "TransformLink \x7b output: " ++ output.shown ++ ", plan: " ++ plan.shown ++ " \x7d"
  | linkOnly output => "LinkOnly \x7b output: " ++ output.shown ++ " \x7d"
  | allInOne => "AllInOne"

namespace Notice

def level : Notice → Level
  | buildPath _ => .debug
  | running _ => .info
  | removed _ => .debug
  | notRemoved _ _ => .warn
  | mergeFailed _ => .error
  | linkDeferred _ => .debug
  | parallel _ => .debug

def text : Notice → String
  | buildPath p => "build path: " ++ p.shown
  | running c => c.shown
  | removed p => "removed " ++ p.text
  | notRemoved p error => "failed to remove " ++ p.text ++ ": " ++ error.message
  | mergeFailed output => "deglobal merge error on " ++ output.text
  | linkDeferred output => "link of " ++ output.text ++ " deferred to the core build"
  | parallel sources => s!"transforming {sources} sources in parallel"

end Notice

end Deglobal
