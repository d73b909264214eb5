import Deglobal.Artifact.Basic
import Deglobal.Command
import Deglobal.Flags

/-!
# Recipes

The command lines of a build. They depend on the toolchain and on the flags of
the request, and on nothing that happens while the build runs.
-/

namespace Deglobal

def skeletonHeader : String := "sstmac/skeleton.h"

/-- What the command lines of a build are written from. -/
structure Recipe where
  toolchain : Toolchain
  flags : Flags
  deriving DecidableEq, Inhabited

namespace Recipe

def ofRequest (t : Toolchain) (r : Request) : Recipe := ⟨t, Flags.ofRequest t r⟩

def preprocess (k : Recipe) (a : Artifact) : Command :=
  (Command.ofProgram k.toolchain.compiler)
    |>.withArgs ["-include", skeletonHeader]
    |>.withArgs k.flags.directIncludes
    |>.withArgs k.flags.extraCppflags
    |>.withArgs k.flags.givenFlags
    |>.withArgs k.flags.givenCompilerFlags
    |>.withArgs k.flags.cppflags
    |>.withArgs k.flags.compilerFlags
    |>.arg "-E"
    |>.path a.source
    |>.output a.preprocessed

/-- Put a preprocessed source through the transform tool, which writes beside its input. -/
def transform (k : Recipe) (a : Artifact) : Command :=
  (Command.ofProgram k.toolchain.toolPath.text)
    |>.withArgs k.flags.transformArgs
    |>.path a.preprocessed
    |>.arg "--"

def compile (k : Recipe) (a : Artifact) : Command :=
  (Command.ofProgram k.toolchain.compiler)
    |>.withArgs k.flags.compilerFlags
    |>.withArgs k.flags.givenCompilerFlags
    |>.output a.transformedObject
    |>.arg "-c"
    |>.path a.transformedSource
    |>.arg "--no-integrated-cpp"

/-- Compile a companion source, which is always C++. -/
def companion (k : Recipe) (a : Artifact) : Command :=
  (Command.ofProgram k.toolchain.cxx)
    |>.withArgs k.flags.companionFlags
    |>.withArgs k.flags.cppflags
    |>.output a.companionObject
    |>.arg k.flags.companionInclude
    |>.arg "-c"
    |>.path a.companionSource

/-- Merge objects into one that can still be linked. -/
def merge (k : Recipe) (inputs : List Path) (output : Path) : Command :=
  (Command.ofProgram k.toolchain.cxx)
    |>.withArgs ["-Wl,-r", "-nostdlib"]
    |>.paths inputs
    |>.output output

/-- Compile an assembly file, which is never transformed. -/
def assemble (k : Recipe) (file object : Path) : Command :=
  (Command.ofProgram k.toolchain.compiler)
    |>.withArgs k.flags.givenFlags
    |>.withArgs k.flags.givenCompilerFlags
    |>.withArgs k.flags.cppflags
    |>.withArgs k.flags.compilerFlags
    |>.arg "-c"
    |>.path file
    |>.output object

def link (k : Recipe) (objects : List Path) (output : Path) (linkerArgs : List String) : Command :=
  (Command.ofProgram k.toolchain.linker)
    |>.paths objects
    |>.withArgs k.flags.extraLibs
    |>.withArgs k.flags.ldflags
    |>.withArgs k.flags.givenFlags
    |>.withArgs k.flags.compilerFlags
    |>.withArgs k.flags.extraLibs
    |>.arg k.flags.rpath
    |>.output output
    |>.withArgs linkerArgs

def archive (k : Recipe) (objects : List Path) (output : Path) (linkerArgs : List String) :
    Command :=
  (Command.ofProgram k.toolchain.linker)
    |>.withArgs k.flags.soFlags
    |>.paths objects
    |>.withArgs k.flags.ldflags
    |>.withArgs k.flags.givenFlags
    |>.withArgs k.flags.compilerFlags
    |>.arg k.flags.rpath
    |>.output (sharedObjectPath output)
    |>.withArgs linkerArgs

def direct (k : Recipe) (r : Request) : Command :=
  (Command.ofProgram k.toolchain.compiler)
    |>.withArgs k.flags.extraCppflags
    |>.withArgs k.flags.givenFlags
    |>.withArgs k.flags.givenCompilerFlags
    |>.withArgs k.flags.cppflags
    |>.withArgs k.flags.compilerFlags
    |>.withArgs r.controlArgs
    |>.output? r.explicitOutput
    |>.paths r.sources
    |>.paths r.assembly

def allInOne (k : Recipe) (r : Request) : Command :=
  (Command.ofProgram k.toolchain.compiler)
    |>.withArgs k.flags.extraCppflags
    |>.withArgs k.flags.cppflags
    |>.withArgs k.flags.givenFlags
    |>.withArgs k.flags.compilerFlags
    |>.withArgs k.flags.givenCompilerFlags
    |>.paths r.sources
    |>.paths r.assembly
    |>.paths r.objects
    |>.withArgs k.flags.ldflags
    |>.withArgs k.flags.extraLibs
    |>.arg k.flags.rpath
    |>.output? r.explicitOutput
    |>.withArgs r.linkerArgs

end Recipe

namespace Command

def lastButOne? (args : List String) : Option String := args.reverse[1]?

/-- The files a command is meant to make, read off its arguments: what the transform tool makes
lies beside its input, which stands last but one. -/
def products (tool : String) (c : Command) : List Path :=
  match lastButOne? c.args with
  | some input =>
      if c.program = tool then [transformedBeside ⟨input⟩, companionBeside ⟨input⟩]
      else (c.outputPath?.map Path.mk).toList
  | none => (c.outputPath?.map Path.mk).toList

end Command

end Deglobal
