import Deglobal.Request.Classify
import Deglobal.Toolchain.Basic

/-!
# Flags

The groups of flags every command is put together from. Configured flags have
their placeholders filled in first and are split at white space after that.
-/

namespace Deglobal

/-- Libraries every application is linked with. -/
def runtimeLibs : List String := ["-lsprockit", "-lundumpi", "-lsstmac"]

def mainLib : String := "-lsstmac_main"

/--
Definitions that rename the keywords for thread-local storage, so that what the
user declared thread-local is told apart from what the transform makes so.
-/
def keywordRedefinitions : List String :=
  ["-D__thread=thread_local_not_yet_allowed", "-Dthread_local=thread_local_not_yet_allowed"]

/-- The flag groups of one invocation. -/
structure Flags where
  cppflags : List String
  ldflags : List String
  /-- Configured flags of the driver's language, without optimisation and debug flags. -/
  compilerFlags : List String
  /-- All configured C++ flags, for the companion source. -/
  companionFlags : List String
  /-- Replacement headers, and the keyword redefinitions where they are wanted. -/
  extraCppflags : List String
  /-- Headers forced into the preprocessing before the transform. -/
  directIncludes : List String
  /-- Libraries that stand on both sides of the link flags. -/
  extraLibs : List String
  soFlags : List String
  rpath : String
  companionInclude : String
  givenFlags : List String
  givenCompilerFlags : List String
  transformArgs : List String
  positionIndependent : Bool
  deriving DecidableEq, Inhabited

namespace Flags

/-- A configured flag text as arguments. -/
def resolve (d : Directories) (flags : String) : List String := Text.words (d.fill flags)

def resolveAll (d : Directories) (flags : List String) : List String := flags.flatMap (resolve d)

def integerHeader : Language → String
  | .c => "stdint.h"
  | .cxx => "cstdint"

/-- The arguments for the compiler inside the transform tool, before they are marked as such. -/
def toolingFlags (t : Toolchain) : List String :=
  match t.language with
  | .c => resolve t.directories t.libtoolingCflags
  | .cxx => ["-std=c++1y", "-stdlib=libc++"] ++ resolve t.directories t.libtoolingCxxflags

def wantsPositionIndependence (t : Toolchain) : Bool :=
  Text.contains t.cxxflags "fPIC" || t.cppflags.any fun f => Text.contains f "fPIC"

def ofRequest (t : Toolchain) (r : Request) : Flags where
  cppflags := resolveAll t.directories t.cppflags
  ldflags := resolveAll t.directories t.ldflags ++ runtimeLibs
  compilerFlags := (resolve t.directories t.languageFlags).filter fun f => !isOptOrDebug f
  companionFlags := resolve t.directories t.cxxflags
  extraCppflags :=
    ("-I" ++ t.directories.includeDir ++ "/sstmac/replacements") ::
      if r.withoutRedefinitions then []
      else ("-I" ++ t.directories.prefixDir ++ "/include/sumi") :: "-DSSTMAC=1" ::
        keywordRedefinitions
  directIncludes := ["-include", integerHeader t.language, "-include", "sstmac/compute.h"]
  extraLibs := [mainLib]
  soFlags := resolve t.directories t.soFlags
  rpath := "-Wl,-rpath," ++ t.directories.libDir
  companionInclude := "-I" ++ t.directories.prefixDir ++ "/include"
  givenFlags := r.givenFlags ++ if t.sstCore then ["-DSSTMAC_EXTERNAL_SKELETON"] else []
  givenCompilerFlags := r.givenCompilerFlags
  transformArgs := (toolingFlags t).map ("--extra-arg=" ++ ·)
  positionIndependent := wantsPositionIndependence t

def summary (f : Flags) : List String :=
  [("LDFLAGS", f.ldflags), ("CPPFLAGS", f.cppflags), ("CXXFLAGS", f.companionFlags)].map
    fun (name, flags) => name ++ "=" ++ " ".intercalate flags

end Flags

end Deglobal
