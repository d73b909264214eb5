import Deglobal.Directories
import Deglobal.Toggles

/-!
# Toolchains

Everything about an installation that a driver uses, settled before the first
command runs and only read after that.
-/

namespace Deglobal

inductive Language where
  | c
  | cxx
  deriving DecidableEq, Inhabited

/--
The language a driver is for, by the name it was started as: names ending in
`++` or `cxx` are for C++, all others for C. A text without a file name is taken
as the name itself.
-/
def Language.ofProgram (program : String) : Language :=
  let name := (Path.mk program).fileName?.getD program
  if Text.ends name "++" || Text.ends name "cxx" then .cxx else .c

/-- File name of the tool that moves globals to thread-local storage. -/
def transformToolName : String := "sstmac_clang_deglobal"

/-- A driver's view of its installation. -/
structure Toolchain where
  language : Language
  directories : Directories
  cc : String
  cxx : String
  cflags : String
  cxxflags : String
  cppflags : List String
  ldflags : List String
  soFlags : String
  sstCore : Bool
  libtoolingCxxflags : String
  libtoolingCflags : String
  toggles : Toggles
  tool? : Option Path
  deriving DecidableEq, Inhabited

namespace Toolchain

def assemble (language : Language) (d : Description) (directories : Directories)
    (toggles : Toggles) (tool? : Option Path) : Toolchain where
  language := language
  directories := directories
  cc := d.cc
  cxx := d.cxx
  cflags := d.cflags
  cxxflags := d.cxxflags
  cppflags := d.cppflags
  ldflags := d.ldflags
  soFlags := d.soFlags
  sstCore := d.sstCore
  libtoolingCxxflags := d.libtoolingCxxflags
  libtoolingCflags := d.libtoolingCflags
  toggles := toggles
  tool? := tool?

def ofDescription (language : Language) (d : Description) (toggles : Toggles)
    (tool? : Option Path) : Except Failure Toolchain :=
  (Directories.ofDescription d).map fun directories =>
    assemble language d directories toggles tool?

def compiler (t : Toolchain) : String :=
  match t.language with
  | .c => t.cc
  | .cxx => t.cxx

/-- The linker: always the C++ compiler, since the runtime is C++. -/
def linker (t : Toolchain) : String := t.cxx

def languageFlags (t : Toolchain) : String :=
  match t.language with
  | .c => t.cflags
  | .cxx => t.cxxflags

/-- The program that runs the transform: by its bare name if it was not found. -/
def toolPath (t : Toolchain) : Path := t.tool?.getD ⟨transformToolName⟩

def transforms (t : Toolchain) : Bool := t.toggles.sourceToSource && t.tool?.isSome

end Toolchain

end Deglobal
