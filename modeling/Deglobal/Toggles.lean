import Deglobal.Failure
import Deglobal.Text.Integer

/-!
# Toggles

Four switches that the environment sets. A variable that is set holds a 64-bit
integer, and its switch is on exactly when that integer is not zero.
-/

namespace Deglobal

/-- The switches of a driver. -/
structure Toggles where
  verbose : Bool := false
  deleteTemps : Bool := true
  /-- Put sources through the transform. -/
  sourceToSource : Bool := true
  parallel : Bool := false
  deriving DecidableEq, Inhabited

namespace Toggles

def verboseVariable : String := "SSTMAC_VERBOSE"

def deleteTempsVariable : String := "SSTMAC_DELETE_TEMPS"

def sourceToSourceVariable : String := "SSTMAC_SRC2SRC"

def parallelVariable : String := "SSTMAC_PARALLEL"

/-- The position of one switch: its default if its variable is not set. -/
def read (lookup : String → Option String) (setting : String) (default : Bool) :
    Except Failure Bool :=
  match lookup setting with
  | none => .ok default
  | some raw =>
      match Text.int64? raw with
      | some i => .ok (i != 0)
      | none => .error (.configuration (.toggle setting raw))

/-- The switches as an environment sets them; the first bad variable in this order is reported. -/
def ofLookup (lookup : String → Option String) : Except Failure Toggles := do
  let defaults : Toggles := {}
  let verbose ← read lookup verboseVariable defaults.verbose
  let deleteTemps ← read lookup deleteTempsVariable defaults.deleteTemps
  let sourceToSource ← read lookup sourceToSourceVariable defaults.sourceToSource
  let parallel ← read lookup parallelVariable defaults.parallel
  return { verbose, deleteTemps, sourceToSource, parallel }

end Toggles

end Deglobal
