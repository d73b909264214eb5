import Deglobal.Path

/-!
# Requests

What a driver was asked to do: answer a query about itself, or build something
from the files and flags it was given.
-/

namespace Deglobal

inductive Query where
  /-- The version; carries the flag it was asked with. -/
  | version (flag : String)
  | help
  | flags
  deriving DecidableEq, Inhabited

/-- The parts of a build's command line, each in command-line order. -/
structure Request where
  sources : List Path := []
  assembly : List Path := []
  /-- Object files named by themselves. -/
  objects : List Path := []
  /-- The operand of the last output flag. -/
  explicitOutput : Option Path := none
  /-- The flags that stop a build early. -/
  controlArgs : List String := []
  linkerArgs : List String := []
  /-- Whatever has no other place. -/
  givenFlags : List String := []
  /-- Optimisation and debug flags. -/
  givenCompilerFlags : List String := []
  verbose : Bool := false
  noIntegratedCpp : Bool := false
  deriving DecidableEq, Inhabited

namespace Request

/-- The one output a build names: its explicit output, or else its last object file. -/
def objectTarget? (r : Request) : Option Path := r.explicitOutput.or r.objects.getLast?

def hasSources (r : Request) : Bool := !r.sources.isEmpty

def compileOnly (r : Request) : Bool := r.controlArgs.contains "-c"

def preprocessOnly (r : Request) : Bool := r.controlArgs.contains "-E"

/-- Whether keyword redefinitions are left out: for assembly, and where the caller preprocesses. -/
def withoutRedefinitions (r : Request) : Bool := !r.assembly.isEmpty || r.noIntegratedCpp

end Request

inductive Invocation where
  | query (q : Query)
  | build (r : Request)
  deriving DecidableEq, Inhabited

end Deglobal
