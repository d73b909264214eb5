import Deglobal.OsError
import Deglobal.Path

/-!
# File trees

A tree of files kept as a list of places and what is there. Paths are walked
step by step from the root or from the working directory, so that a missing
directory, a file on the way and a name that is too long are told apart as a
system tells them apart.
-/

namespace Deglobal.Rehearsal

inductive Utility where
  | succeed
  | fail
  | echo
  | test
  | shell
  | touch
  | cat
  | remove
  | makeDirectory
  deriving DecidableEq, Inhabited

inductive Node where
  | directory
  /-- A file; its text is missing if it is not UTF-8. -/
  | file (text? : Option String) (executable : Bool)
  | utility (u : Utility)
  /-- A device that takes whatever is written to it and is always empty. -/
  | void
  deriving DecidableEq, Inhabited

/-- The names that lead from the root to a place. -/
abbrev Place := List String

/-- A tree of files; the root is not listed. -/
structure FileTree where
  entries : List (Place × Node) := []
  deriving DecidableEq, Inhabited

inductive Spot where
  | taken (place : Place) (node : Node)
  /-- Nothing is there, but its directory exists. -/
  | vacant (place : Place)
  deriving DecidableEq, Inhabited

namespace FileTree

def node? (t : FileTree) (place : Place) : Option Node :=
  if place.isEmpty then some .directory else t.entries.lookup place

def put (t : FileTree) (place : Place) (node : Node) : FileTree :=
  ⟨(t.entries.filter fun e => e.1 != place) ++ [(place, node)]⟩

def erase (t : FileTree) (place : Place) : FileTree :=
  ⟨t.entries.filter fun e => e.1 != place⟩

def makeDirectories (t : FileTree) (base : Place) : List String → FileTree
  | [] => t
  | n :: rest =>
      let place := base ++ [n]
      let t := if (t.node? place).isSome then t else t.put place .directory
      t.makeDirectories place rest

def install (t : FileTree) (place : Place) (node : Node) : FileTree :=
  (t.makeDirectories [] place.dropLast).put place node

/-- The longest name a directory entry can have, in bytes. -/
def longestName : Nat := 255

/-- The length from which on a path is refused, in bytes. -/
def pathLimit : Nat := 4096

/-- Walk on from a directory along the pieces of a path. -/
def walk (t : FileTree) (current : Place) : List (List Char) → Except OsError Spot
  | [] => .ok (.taken current .directory)
  | piece :: rest =>
      if Path.isIdle piece then t.walk current rest
      else if piece == ['.', '.'] then t.walk current.dropLast rest
      else
        let name := String.ofList piece
        let place := current ++ [name]
        if longestName < name.utf8ByteSize then .error .nameTooLong
        else
          match t.node? place with
          | none => if rest.isEmpty then .ok (.vacant place) else .error .missing
          | some .directory => t.walk place rest
          | some node => if rest.isEmpty then .ok (.taken place node) else .error .notDirectory

def find (t : FileTree) (here : Place) (p : Path) : Except OsError Spot :=
  if p.text.isEmpty then .error .missing
  else if p.text.toList.contains '\x00' then .error .nulInName
  else if pathLimit ≤ p.text.utf8ByteSize then .error .nameTooLong
  else
    let pieces := p.text.toList.splitOn '/'
    if p.isAbsolute then t.walk [] pieces else t.walk here pieces

def unlink (t : FileTree) (here : Place) (p : Path) : Except OsError FileTree :=
  match t.find here p with
  | .error e => .error e
  | .ok (.vacant _) => .error .missing
  | .ok (.taken _ .directory) => .error .isDirectory
  | .ok (.taken place _) => .ok (t.erase place)

/-- Give a file a text, made from the one it has; a new file is made for it. -/
def write (t : FileTree) (here : Place) (p : Path) (text : Option String → Option String) :
    Except OsError FileTree :=
  match t.find here p with
  | .error e => .error e
  | .ok (.vacant place) => .ok (t.put place (.file (text (some "")) false))
  | .ok (.taken _ .directory) => .error .isDirectory
  | .ok (.taken place (.file old executable)) => .ok (t.put place (.file (text old) executable))
  | .ok (.taken _ (.utility _)) => .error .denied
  | .ok (.taken _ .void) => .ok t

def truncate (t : FileTree) (here : Place) (p : Path) : Except OsError FileTree :=
  t.write here p fun _ => some ""

def readText (t : FileTree) (here : Place) (p : Path) : Except OsError String :=
  match t.find here p with
  | .error e => .error e
  | .ok (.vacant _) => .error .missing
  | .ok (.taken _ .directory) => .error .isDirectory
  | .ok (.taken _ (.file (some text) _)) => .ok text
  | .ok (.taken _ (.file none _)) => .error .notUtf8
  | .ok (.taken _ (.utility _)) => .error .notUtf8
  | .ok (.taken _ .void) => .ok ""

def isFile (t : FileTree) (here : Place) (p : Path) : Bool :=
  match t.find here p with
  | .ok (.taken _ .directory) => false
  | .ok (.taken _ .void) => false
  | .ok (.taken _ _) => true
  | _ => false

def isProgram (t : FileTree) (here : Place) (p : Path) : Bool :=
  match t.find here p with
  | .ok (.taken _ (.file _ executable)) => executable
  | .ok (.taken _ (.utility _)) => true
  | _ => false

/-- How an entry is listed: by its names, a directory with a separator behind. -/
def listed (names : List String) : Node → String
  | .directory => "/".intercalate names ++ "/"
  | _ => "/".intercalate names

/-- Everything below a directory, in the order of the characters of the paths. -/
def listing (t : FileTree) (dir : Place) : List String :=
  let below := t.entries.filterMap fun (place, node) =>
    if dir.isPrefixOf place && dir.length < place.length then
      some (listed (place.drop dir.length) node)
    else none
  below.mergeSort fun a b => decide (a ≤ b)

end FileTree

end Deglobal.Rehearsal
