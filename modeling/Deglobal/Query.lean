import Deglobal.Flags
import Deglobal.Script

/-!
# Queries

The compiler speaks for itself first; what the driver adds is where it is
installed, which variables it listens to, and the flags it works with.
-/

namespace Deglobal

def helpText : String :=
  "The following environmental variables can be defined for the SST compiler\n" ++
  Toggles.verboseVariable ++
    "=0 or 1:        produce verbose output from the SST compiler (default 0)\n" ++
  Toggles.deleteTempsVariable ++
    "=0 or 1:   remove all temp source-to-source files (default 1)\n" ++
  Toggles.sourceToSourceVariable ++
    "=0 or 1:        run a source-to-source pass converting globals to TLS (default 1)\n" ++
  Toggles.parallelVariable ++
    "=0 or 1:       run the source-to-source pass on several threads (default 0)\n"

/-- Answer a query and return the exit status; `home` is the directory the driver runs from. -/
def Query.answer (t : Toolchain) (home : Option Path) : Query → Script Int32
  | .version flag => do
      if let some dir := home then Script.print .out (dir.text ++ "\n")
      Script.status ((Command.ofProgram t.cxx).arg flag)
  | .help => do
      let status ← Script.status ((Command.ofProgram t.cxx).arg "--help")
      Script.print .err helpText
      return status
  | .flags => do
      Script.print .err
        (String.join ((Flags.ofRequest t {}).summary.map fun line => line ++ "\n"))
      return 0

end Deglobal
