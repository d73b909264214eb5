import Deglobal.Description.Reader
import Deglobal.Toolchain.Basic

/-!
# Loading a toolchain

The description of an installation is found first, then the toggles are read,
then the install directories are settled, and last the transform tool is looked
up. What the system is asked on the way goes through a probe, in any monad: a
probe that answers from a value makes loading a function.
-/

namespace Deglobal

def descriptionVariable : String := "SSTMAC_TOOLCHAIN_VARS"

def searchVariable : String := "PATH"

def homeVariable : String := "HOME"

/-- What a driver asks the system before it starts. -/
structure Probe (m : Type → Type) where
  lookup : String → m (Option String)
  readText : Path → m (Except OsError String)
  isFile : Path → m Bool
  /-- Whether there is a regular file that may be executed. -/
  isProgram : Path → m Bool
  /-- The driver's own program file. -/
  self? : Option Path
  here : Path

/-- Where the description of an installation lies, by its driver's program file. -/
def Description.besides (program : Path) : Path :=
  ((program.parent.parent.join "share").join "sstmac").join "sstccvars.json"

namespace Path

def onward (dir : Path) (steps : List Component) : Path :=
  steps.foldl (fun dir step =>
    match step with
    | .name n => dir.join ⟨n⟩
    | .up => dir.join ".."
    | .here => dir
    | .root => dir) dir

/-- A path seen from a directory, its idle parts dropped; an absolute path is left as it is. -/
def seenFrom (p here : Path) : Path :=
  if p.isAbsolute then p else here.onward p.components

end Path

namespace Toolchain

/--
Where a directory of the search list is. A tilde that is its first component
stands for the home directory, which is taken as it is spelled; a directory that
does not begin with one is seen from `here`.
-/
def searchPlace (here : Path) (home? : Option String) (dir : Path) : Path :=
  match dir.components with
  | .name "~" :: rest => home?.elim dir fun home => (Path.mk home).onward rest
  | _ => dir.seenFrom here

/-- The places the transform tool may be, in the order they are tried. -/
def toolPlaces (here : Path) (prefixDir : String) (home? search? : Option String) : List Path :=
  let installed := ((Path.mk prefixDir).join "bin").join ⟨transformToolName⟩
  let searched := search?.elim [] fun dirs =>
    (dirs.toList.splitOn ':').map fun dir =>
      (searchPlace here home? ⟨String.ofList dir⟩).join ⟨transformToolName⟩
  installed.seenFrom here :: searched

variable {m : Type → Type} [Monad m]

def readDescription (probe : Probe m) (file : Path) : m (Except Failure Description) := do
  match ← probe.readText file with
  | .error e => return .error (.io e)
  | .ok text =>
      match Description.ofText text with
      | .ok d => return .ok d
      | .error fault => return .error (.description file fault)

/-- The description named by the environment, or else the installed one, or else the defaults. -/
def findDescription (probe : Probe m) : m (Except Failure Description) := do
  match ← probe.lookup descriptionVariable with
  | some file => readDescription probe ⟨file⟩
  | none =>
      match probe.self? with
      | none => return .ok {}
      | some program =>
          if ← probe.isFile (Description.besides program) then
            readDescription probe (Description.besides program)
          else return .ok {}

def findToggles (probe : Probe m) : m (Except Failure Toggles) := do
  let verbose ← probe.lookup Toggles.verboseVariable
  let deleteTemps ← probe.lookup Toggles.deleteTempsVariable
  let sourceToSource ← probe.lookup Toggles.sourceToSourceVariable
  let parallel ← probe.lookup Toggles.parallelVariable
  return Toggles.ofLookup fun setting =>
    ([(Toggles.verboseVariable, verbose), (Toggles.deleteTempsVariable, deleteTemps),
      (Toggles.sourceToSourceVariable, sourceToSource),
      (Toggles.parallelVariable, parallel)].lookup setting).join

def firstProgram (probe : Probe m) : List Path → m (Option Path)
  | [] => return none
  | p :: rest => do
      if ← probe.isProgram p then return some p else firstProgram probe rest

/-- The transform tool of an installation; only one configured for it is searched for the tool. -/
def findTool (probe : Probe m) (d : Description) (directories : Directories) :
    m (Option Path) := do
  if (Text.trimmed d.clangCppflags).isEmpty then return none
  let search? ← probe.lookup searchVariable
  let home? ← probe.lookup homeVariable
  -- A home directory without a name is none.
  let home? := home?.filter fun home => !home.isEmpty
  firstProgram probe (toolPlaces probe.here directories.prefixDir home? search?)

def load (probe : Probe m) (language : Language) : m (Except Failure Toolchain) := do
  match ← findDescription probe with
  | .error e => return .error e
  | .ok d =>
      match ← findToggles probe with
      | .error e => return .error e
      | .ok toggles =>
          match Directories.ofDescription d with
          | .error e => return .error e
          | .ok directories => do
              let tool? ← findTool probe d directories
              return .ok (assemble language d directories toggles tool?)

end Toolchain

end Deglobal
