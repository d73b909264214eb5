import Deglobal.Failure
import Deglobal.Request.Basic
import Deglobal.Text.Blank
import Deglobal.Text.Substitute

/-!
# Sorting a command line

Arguments are told apart by how they begin and end, after white space and then
single quotes are stripped from them. Whatever is not recognised is handed to
the compiler as it is.
-/

namespace Deglobal

/-- An argument without the blanks and then the single quotes around it. -/
def cleanArg (a : String) : String :=
  String.ofList (Text.strip (· == '\'') (Text.strip Text.isBlank a.toList))

def sourceEndings : List String := [".cpp", ".cc", ".c"]

def assemblyEnding : String := ".S"

def objectEnding : String := ".o"

def isOptOrDebug (a : String) : Bool := Text.begins a "-O" || a == "-g"

/-- The query an argument asks, if it stands first. -/
def Query.ofArg? (a : String) : Option Query :=
  if a = "--version" ∨ a = "-V" then some (.version a)
  else if a = "--help" then some .help
  else if a = "--flags" then some .flags
  else none

inductive ArgKind where
  | object
  | linker
  | compilerFlag
  | source
  | assembly
  | verbose
  | control
  | output
  | other
  deriving DecidableEq, Inhabited

/-- The kind of a clean argument: the first of these rules that applies. -/
def ArgKind.ofArg (a : String) : ArgKind :=
  if Text.ends a objectEnding then .object
  else if Text.begins a "-Wl" then .linker
  else if isOptOrDebug a then .compilerFlag
  else if sourceEndings.any (Text.ends a) then .source
  else if Text.ends a assemblyEnding then .assembly
  else if a = "--verbose" then .verbose
  else if a = "-c" ∨ a = "-E" then .control
  else if a = "-o" then .output
  else .other

namespace Request

/-- File a clean argument of a kind in its place; an output flag has none of its own. -/
def add (r : Request) (a : String) : ArgKind → Request
  | .object => { r with objects := r.objects ++ [⟨a⟩] }
  | .linker => { r with linkerArgs := r.linkerArgs ++ [a] }
  | .compilerFlag => { r with givenCompilerFlags := r.givenCompilerFlags ++ [a] }
  | .source => { r with sources := r.sources ++ [⟨a⟩] }
  | .assembly => { r with assembly := r.assembly ++ [⟨a⟩] }
  | .verbose => { r with verbose := true }
  | .control => { r with controlArgs := r.controlArgs ++ [a] }
  | .output => r
  | .other =>
      { r with
        givenFlags := r.givenFlags ++ [a]
        noIntegratedCpp := r.noIntegratedCpp || a == "--no-integrated-cpp" }

/-- Sort clean arguments into a request, from left to right; an output flag takes the next one. -/
def ofCleanArgs (r : Request) : List String → Except Failure Request
  | [] => .ok r
  | a :: rest =>
      match ArgKind.ofArg a, rest with
      | .output, [] => .error (.configuration .danglingOutput)
      | .output, operand :: rest => ofCleanArgs { r with explicitOutput := some ⟨operand⟩ } rest
      | kind, rest => ofCleanArgs (r.add a kind) rest

/-- The object files a request names: those by themselves, and an output that is one. -/
def namedObjects (r : Request) : List Path :=
  r.objects ++ r.explicitOutput.toList.filter fun p => Text.ends p.text objectEnding

/-- Refuse a request that compiles sources into more than one object file. -/
def checked (r : Request) : Except Failure Request :=
  if r.hasSources && 1 < r.namedObjects.length then
    .error (.configuration (.surplusObjects r.namedObjects))
  else .ok r

end Request

/-- Sort the arguments of a driver. A query counts only as the very first argument, as it stands. -/
def classify (args : List String) : Except Failure Invocation :=
  match args.head?.bind Query.ofArg? with
  | some q => .ok (.query q)
  | none => do
      let r ← Request.ofCleanArgs {} (args.map cleanArg)
      return .build (← r.checked)

end Deglobal
