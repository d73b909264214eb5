import Deglobal.Request.Basic
import Deglobal.Toolchain.Basic

/-!
# Build paths

The ways a build can be carried out, and which of them a request takes.
-/

namespace Deglobal

/-- Where the objects of a transformed source end up. -/
inductive MergePlan where
  /-- One object for each source, beside it. -/
  | perSource
  /-- One object that holds every source and assembly file. -/
  | consolidated (target : Path)
  deriving DecidableEq, Inhabited

def MergePlan.target? : MergePlan → Option Path
  | perSource => none
  | consolidated target => some target

/-- A way to carry out a build. -/
inductive BuildPath where
  | preprocess
  /-- Compile without the transform, in one command. -/
  | directCompile
  /-- Put every source through the transform and merge. -/
  | transformCompile (plan : MergePlan)
  /-- Put every source through the transform, merge and link. -/
  | transformLink (output : Path) (plan : MergePlan)
  | linkOnly (output : Path)
  | allInOne
  deriving DecidableEq, Inhabited

def defaultOutput : Path := ⟨"a.out"⟩

/-- The merged object on the way to a named executable, beside it. -/
def mergedObjectPath (output : Path) : Path :=
  output.sibling ("sstmerged." ++ output.fileName ++ ".o")

def sharedObjectPath (output : Path) : Path :=
  output.sibling ("lib" ++ output.fileName ++ ".so")

def Request.executable (r : Request) : Path := r.explicitOutput.getD defaultOutput

namespace BuildPath

def transforms : BuildPath → Bool
  | transformCompile _ => true
  | transformLink _ _ => true
  | _ => false

/-- The plan of a compilation: one object if the request names its output. -/
def compilePlan (r : Request) : MergePlan :=
  match r.objectTarget? with
  | some target => .consolidated target
  | none => .perSource

/-- The plan on the way to an executable: without a name for it, every source keeps its object. -/
def linkPlan (r : Request) : MergePlan :=
  match r.explicitOutput with
  | some output => .consolidated (mergedObjectPath output)
  | none => .perSource

def select (t : Toolchain) (r : Request) : BuildPath :=
  if r.preprocessOnly then .preprocess
  else if r.compileOnly then
    if t.transforms && r.hasSources then .transformCompile (compilePlan r) else .directCompile
  else if r.hasSources then
    if t.transforms then .transformLink r.executable (linkPlan r) else .allInOne
  else if r.objectTarget?.isSome then .linkOnly r.executable
  else .allInOne

end BuildPath

end Deglobal
