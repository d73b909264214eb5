import Deglobal.Path
import Deglobal.Text.Blank

/-!
# Command lines

A program and its arguments, built up from left to right. A command line without
a program stands for nothing to run.
-/

namespace Deglobal

/-- A program and its arguments. -/
structure Command where
  program : String := ""
  args : List String := []
  deriving DecidableEq, Inhabited

namespace Command

def ofProgram (program : String) : Command := { program }

def arg (c : Command) (a : String) : Command := { c with args := c.args ++ [a] }

def withArgs (c : Command) (as : List String) : Command := { c with args := c.args ++ as }

def path (c : Command) (p : Path) : Command := c.arg p.text

def paths (c : Command) (ps : List Path) : Command := c.withArgs (ps.map Path.text)

def output (c : Command) (p : Path) : Command := (c.arg "-o").path p

def output? (c : Command) (p : Option Path) : Command := p.elim c c.output

def words (c : Command) : List String := c.program :: c.args

/-- Whether there is nothing to run. -/
def isEmpty (c : Command) : Bool := c.program.isEmpty

def hasArg (c : Command) (a : String) : Bool := c.args.contains a

/-- The argument after the first output flag among `args`. -/
def outputAmong : List String → Option String
  | [] => none
  | a :: rest => if a = "-o" then rest.head? else outputAmong rest

def outputPath? (c : Command) : Option String := outputAmong c.args

/-- A word as it is shown: in single quotes if it holds white space. -/
def shownWord (w : String) : String :=
  if Text.hasBlank w then "'" ++ w ++ "'" else w

def shown (c : Command) : String := " ".intercalate (c.words.map shownWord)

end Command

end Deglobal
