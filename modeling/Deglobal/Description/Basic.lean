/-!
# Install descriptions

What the build system recorded about an installation: where it went, which
compilers it uses and with which flags. Flags may still hold placeholders for
the install directories.
-/

namespace Deglobal

/-- Placeholder for the install prefix. -/
def prefixMark : String := "$\x7bprefix\x7d"

def execPrefixMark : String := "$\x7bexec_prefix\x7d"

def includeDirMark : String := "$\x7bincludedir\x7d"

/-- An installation as recorded; a value that is not recorded has its default. -/
structure Description where
  prefixDir : String := "/usr/local"
  execPrefix : String := prefixMark
  includeDir : String := prefixMark ++ "/include"
  cc : String := "cc"
  cxx : String := "c++"
  cflags : String := ""
  cxxflags : String := ""
  cppflags : List String := ["-I" ++ includeDirMark]
  ldflags : List String := ["-L" ++ execPrefixMark ++ "/lib"]
  soFlags : String := "-shared"
  /-- Linking is left to the core build. -/
  sstCore : Bool := false
  /-- Not blank when the installation has the transform tool. -/
  clangCppflags : String := ""
  libtoolingCxxflags : String := ""
  libtoolingCflags : String := ""
  deriving DecidableEq, Inhabited

namespace Description

/-- The fields of a description, in the order they are declared. -/
inductive Field where
  | prefixDir
  | execPrefix
  | includeDir
  | cc
  | cxx
  | cflags
  | cxxflags
  | cppflags
  | ldflags
  | soFlags
  | sstCore
  | clangCppflags
  | libtoolingCxxflags
  | libtoolingCflags
  deriving DecidableEq, Inhabited

namespace Field

def all : List Field :=
  [.prefixDir, .execPrefix, .includeDir, .cc, .cxx, .cflags, .cxxflags, .cppflags, .ldflags,
   .soFlags, .sstCore, .clangCppflags, .libtoolingCxxflags, .libtoolingCflags]

/-- The name a field has in a written description. -/
def key : Field → String
  | prefixDir => "prefix"
  | execPrefix => "exec_prefix"
  | includeDir => "includedir"
  | cc => "cc"
  | cxx => "cxx"
  | cflags => "cflags"
  | cxxflags => "cxxflags"
  | cppflags => "cppflags"
  | ldflags => "ldflags"
  | soFlags => "so_flags"
  | sstCore => "sst_core"
  | clangCppflags => "clang_cppflags"
  | libtoolingCxxflags => "clang_libtooling_cxxflags"
  | libtoolingCflags => "clang_libtooling_cflags"

def ofKey? (key : String) : Option Field := all.find? fun f => f.key == key

inductive Kind where
  | text
  | texts
  | flag
  deriving DecidableEq, Inhabited

abbrev Kind.Value : Kind → Type
  | text => String
  | texts => List String
  | flag => Bool

def kind : Field → Kind
  | cppflags => .texts
  | ldflags => .texts
  | sstCore => .flag
  | _ => .text

end Field

def get (d : Description) : (f : Field) → f.kind.Value
  | .prefixDir => d.prefixDir
  | .execPrefix => d.execPrefix
  | .includeDir => d.includeDir
  | .cc => d.cc
  | .cxx => d.cxx
  | .cflags => d.cflags
  | .cxxflags => d.cxxflags
  | .cppflags => d.cppflags
  | .ldflags => d.ldflags
  | .soFlags => d.soFlags
  | .sstCore => d.sstCore
  | .clangCppflags => d.clangCppflags
  | .libtoolingCxxflags => d.libtoolingCxxflags
  | .libtoolingCflags => d.libtoolingCflags

def set (d : Description) : (f : Field) → f.kind.Value → Description
  | .prefixDir, v => { d with prefixDir := v }
  | .execPrefix, v => { d with execPrefix := v }
  | .includeDir, v => { d with includeDir := v }
  | .cc, v => { d with cc := v }
  | .cxx, v => { d with cxx := v }
  | .cflags, v => { d with cflags := v }
  | .cxxflags, v => { d with cxxflags := v }
  | .cppflags, v => { d with cppflags := v }
  | .ldflags, v => { d with ldflags := v }
  | .soFlags, v => { d with soFlags := v }
  | .sstCore, v => { d with sstCore := v }
  | .clangCppflags, v => { d with clangCppflags := v }
  | .libtoolingCxxflags, v => { d with libtoolingCxxflags := v }
  | .libtoolingCflags, v => { d with libtoolingCflags := v }

@[simp] theorem get_set_self (d : Description) (f : Field) (v : f.kind.Value) :
    (d.set f v).get f = v := by
  cases f <;> rfl

theorem get_set_of_ne (d : Description) {f g : Field} (v : f.kind.Value) (h : g ≠ f) :
    (d.set f v).get g = d.get g := by
  cases f <;> cases g <;> first | rfl | exact absurd rfl h

/-- A description is the values of its fields. -/
theorem ext_get {d e : Description} (h : ∀ f, d.get f = e.get f) : d = e := by
  cases d
  cases e
  congr
  · exact h .prefixDir
  · exact h .execPrefix
  · exact h .includeDir
  · exact h .cc
  · exact h .cxx
  · exact h .cflags
  · exact h .cxxflags
  · exact h .cppflags
  · exact h .ldflags
  · exact h .soFlags
  · exact h .sstCore
  · exact h .clangCppflags
  · exact h .libtoolingCxxflags
  · exact h .libtoolingCflags

theorem Field.ofKey?_key (f : Field) : Field.ofKey? f.key = some f := by
  cases f <;> decide

end Description

end Deglobal
