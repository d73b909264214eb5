import Deglobal.Recipe
import Deglobal.Rehearsal.FileTree
import Deglobal.Script
import Deglobal.Text.Substitute

/-!
# A scripted toolchain

A bench is a file tree together with rules that say which commands fail and how.
A command that no rule speaks of succeeds and makes the files it is meant to
make, as empty files.
-/

namespace Deglobal.Rehearsal

/-- A rule about the commands that hold a text. -/
structure Rule where
  text : String
  /-- How many such commands are passed over first. -/
  skip : Nat := 0
  /-- How many commands the rule applies to after that; without a number, to all. -/
  times : Option Nat := none
  status : Int32 := 1
  launch : Option Int := none
  produce : Bool := false
  deriving DecidableEq, Inhabited

namespace Rule

def fits (r : Rule) (c : Command) : Bool := c.words.any fun w => Text.contains w r.text

def outcome (r : Rule) : Outcome :=
  match r.launch with
  | some n => .notLaunched (.code n)
  | none => .exited r.status

/-- The rule that applies to a command, and the rules as they stand after it. -/
def choose (c : Command) : List Rule → Option Rule × List Rule
  | [] => (none, [])
  | r :: rest =>
      let passOn (r : Rule) :=
        let (applied, rest) := choose c rest
        (applied, r :: rest)
      if r.fits c then
        if 0 < r.skip then passOn { r with skip := r.skip - 1 }
        else
          match r.times with
          | none => (some r, r :: rest)
          | some 0 => passOn r
          | some (n + 1) => (some r, { r with times := some n } :: rest)
      else passOn r

end Rule

/-- A file tree with a toolchain that works on it. -/
structure Bench where
  tree : FileTree
  here : Place
  /-- The program that stands for the transform tool. -/
  tool : String
  rules : List Rule := []
  deriving DecidableEq, Inhabited

namespace Bench

def products (b : Bench) (c : Command) : List Path := c.products b.tool

def isConfined (p : Path) : Bool := !p.isAbsolute && !p.components.contains .up

def make (b : Bench) (files : List Path) : Bench :=
  files.foldl (fun b p =>
    if isConfined p then
      match b.tree.truncate b.here p with
      | .ok tree => { b with tree }
      | .error _ => b
    else b) b

def exec (c : Command) (b : Bench) : Outcome × Bench :=
  let (applied, rules) := Rule.choose c b.rules
  let b := { b with rules }
  match applied with
  | none => (.exited 0, b.make (b.products c))
  | some r => (r.outcome, if r.produce then b.make (b.products c) else b)

def unlink (p : Path) (b : Bench) : Removal × Bench :=
  match b.tree.unlink b.here p with
  | .ok tree => (.removed, { b with tree })
  | .error e => (if e = .missing then .absent else .refused e, b)

def host : Host Bench where
  exec := exec
  unlink := unlink

def files (b : Bench) : List String := b.tree.listing b.here

end Bench

end Deglobal.Rehearsal
