import Deglobal.Description.Basic
import Deglobal.Failure
import Deglobal.Text.Substitute

/-!
# Install directories

The recorded directories may refer to each other by placeholder: the directory
of executables to the prefix, the header directory to both. What is left once
these are filled in must hold no placeholder at all.
-/

namespace Deglobal

structure Directories where
  prefixDir : String
  execPrefix : String
  includeDir : String
  deriving DecidableEq, Inhabited

namespace Directories

def markStart : String := "$\x7b"

/-- Refuse a directory that still holds a placeholder. -/
def settled (name value : String) : Except Failure String :=
  if Text.contains value markStart then
    .error (.configuration (.placeholder name value))
  else .ok value

/-- The directories of a description, its placeholders filled in. -/
def ofDescription (d : Description) : Except Failure Directories := do
  let execPrefix := Text.substitute prefixMark d.prefixDir d.execPrefix
  let includeDir := Text.substitute prefixMark d.prefixDir
    (Text.substitute execPrefixMark execPrefix d.includeDir)
  let prefixDir ← settled "prefix" d.prefixDir
  let execPrefix ← settled "exec_prefix" execPrefix
  let includeDir ← settled "includedir" includeDir
  return { prefixDir, execPrefix, includeDir }

def libDir (d : Directories) : String := d.prefixDir ++ "/lib"

/-- Fill in the placeholders of a configured flag. -/
def fill (d : Directories) (flag : String) : String :=
  Text.substitute prefixMark d.prefixDir
    (Text.substitute execPrefixMark d.execPrefix
      (Text.substitute includeDirMark d.includeDir flag))

end Directories

end Deglobal
