import Deglobal.Rehearsal.FileTree
import Deglobal.Script

/-!
# Worlds

What programs share in a rehearsal: the file tree, the working directory, the
directories programs are looked up in, and what has been written to the two
output streams. Programs that need no text of their own act on a world directly.
-/

namespace Deglobal.Rehearsal

/-- What programs share. -/
structure World where
  tree : FileTree
  here : Place
  search : List Path
  out : String := ""
  err : String := ""
  deriving DecidableEq, Inhabited

namespace World

def print (w : World) (text : String) : World := { w with out := w.out ++ text }

def complain (w : World) (text : String) : World := { w with err := w.err ++ text }

def programAt (w : World) (p : Path) : Except OsError Node :=
  match w.tree.find w.here p with
  | .error e => .error e
  | .ok (.vacant _) => .error .missing
  | .ok (.taken _ .directory) => .error .denied
  | .ok (.taken _ (.file _ false)) => .error .denied
  | .ok (.taken _ .void) => .error .denied
  | .ok (.taken _ node) => .ok node

/--
Look a name up in directories, in order. A directory without the program is
passed over; so is one where it may not be executed, but that decides the error
if nothing else is found.
-/
def lookUp (w : World) (name : String) (denied : Bool) :
    List Path → Except OsError (Path × Node)
  | [] => .error (if denied then .denied else .missing)
  | dir :: rest =>
      let p := dir.join ⟨name⟩
      match w.programAt p with
      | .ok node => .ok (p, node)
      | .error e =>
          if e = .denied then w.lookUp name true rest
          else if e = .missing ∨ e = .notDirectory then w.lookUp name denied rest
          else .error e

/-- The program a command names: by its path if the name has a separator, else by look-up. -/
def program (w : World) (name : String) : Except OsError (Path × Node) :=
  if name.toList.contains '/' then (w.programAt ⟨name⟩).map fun node => (⟨name⟩, node)
  else w.lookUp name false w.search

def holds (w : World) : List String → Option Bool
  | [] => some false
  | [a] => some (!a.isEmpty)
  | ["!", a] => some a.isEmpty
  | ["-n", a] => some (!a.isEmpty)
  | ["-z", a] => some a.isEmpty
  | ["-e", a] => some (match w.tree.find w.here ⟨a⟩ with
      | .ok (.taken _ _) => true
      | _ => false)
  | ["-d", a] => some (match w.tree.find w.here ⟨a⟩ with
      | .ok (.taken _ .directory) => true
      | _ => false)
  | ["-f", a] => some (w.tree.isFile w.here ⟨a⟩)
  | ["-x", a] => some (w.tree.isProgram w.here ⟨a⟩)
  | [a, "=", b] => some (a == b)
  | [a, "!=", b] => some (a != b)
  | [a, "-eq", b] => (· == ·) <$> a.toInt? <*> b.toInt?
  | [a, "-ne", b] => (· != ·) <$> a.toInt? <*> b.toInt?
  | [a, "-lt", b] => (fun x y => decide (x < y)) <$> a.toInt? <*> b.toInt?
  | [a, "-le", b] => (fun x y => decide (x ≤ y)) <$> a.toInt? <*> b.toInt?
  | [a, "-gt", b] => (fun x y => decide (x > y)) <$> a.toInt? <*> b.toInt?
  | [a, "-ge", b] => (fun x y => decide (x ≥ y)) <$> a.toInt? <*> b.toInt?
  | "!" :: rest@(_ :: _ :: _) => (w.holds rest).map (!·)
  | _ => none

def testStatus (w : World) (args : List String) : Nat :=
  match w.holds args with
  | some true => 0
  | some false => 1
  | none => 2

/-- Do something for each of some files; the status tells whether all of it worked. -/
def forFiles (w : World) (name : String)
    (act : World → Path → Except OsError World) (files : List String) : Nat × World :=
  files.foldl (fun (status, w) file =>
    match act w ⟨file⟩ with
    | .ok w => (status, w)
    | .error (.code n) => (1, w.complain (name ++ ": " ++ file ++ ": " ++ OsError.text n ++ "\n"))
    | .error e => (1, w.complain (name ++ ": " ++ file ++ ": " ++ e.message ++ "\n"))) (0, w)

def operands (args : List String) : List String :=
  args.filter fun a => !(a.toList.head? == some '-')

def showFile (w : World) (p : Path) : Except OsError World :=
  (w.tree.readText w.here p).map w.print

def touchFile (w : World) (p : Path) : Except OsError World :=
  (w.tree.write w.here p id).map fun tree => { w with tree }

def removeFile (w : World) (p : Path) : Except OsError World :=
  (w.tree.unlink w.here p).map fun tree => { w with tree }

def makeDirectory (w : World) (p : Path) : Except OsError World :=
  match w.tree.find w.here p with
  | .ok (.vacant place) => .ok { w with tree := w.tree.put place .directory }
  | .ok (.taken _ _) => .error (.code 17)
  | .error e => .error e

/-- Run a program that needs no text. The shell is none of these. -/
def runUtility (w : World) (args : List String) : Utility → Nat × World
  | .succeed => (0, w)
  | .fail => (1, w)
  | .echo => (0, w.print (" ".intercalate args ++ "\n"))
  | .test => (w.testStatus args, w)
  | .touch => w.forFiles "touch" touchFile (operands args)
  | .cat => w.forFiles "cat" showFile (operands args)
  | .remove =>
      let (status, after) := w.forFiles "rm" removeFile (operands args)
      if args.contains "-f" then (0, { after with err := w.err }) else (status, after)
  | .makeDirectory => w.forFiles "mkdir" makeDirectory (operands args)
  | .shell => (0, w)

end World

end Deglobal.Rehearsal
