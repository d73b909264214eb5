import Deglobal.Artifact.Basic
import Deglobal.Failure

/-!
# Planning

All files of a build are named before anything runs. Every file is claimed by
the input it belongs to, and a file that is claimed twice refuses the build.
-/

namespace Deglobal

/-- A file of a build and who it belongs to. -/
structure Claim where
  file : Path
  owner : Claimant
  deriving DecidableEq, Inhabited

namespace Claim

/-- The first claim to a file that was claimed before, after the claim it clashes with. -/
def firstClash? (earlier : List Claim) : List Claim → Option (Claim × Claim)
  | [] => none
  | c :: rest =>
      match earlier.find? fun e => e.file.Same c.file with
      | some e => some (e, c)
      | none => firstClash? (c :: earlier) rest

end Claim

namespace Request

/-- How many sources have a transformed object of this name. -/
def stemUses (r : Request) (object : Path) : Nat :=
  r.sources.countP fun s => (Artifact.ofSource s).transformedObject.Same object

/--
The files of one source among those of a request. Sources that differ only in
their suffix would share a transformed object, so those are named after the whole
file name.
-/
def artifactOf (r : Request) (source : Path) : Artifact :=
  let a := Artifact.ofSource source
  if 1 < r.stemUses a.transformedObject then a.withFullName else a

def artifacts (r : Request) : List Artifact := r.sources.map r.artifactOf

def inputs (r : Request) : List Path := r.sources ++ r.assembly ++ r.objects

def sourceClaims (plan : MergePlan) (a : Artifact) : List Claim :=
  let merged := match plan with
    | .perSource => [a.mergedObject]
    | .consolidated _ => []
  (a.intermediates ++ merged).map fun file => ⟨file, .input a.source⟩

/-- All claims of a build, in the order they are made. -/
def claims (r : Request) (plan : MergePlan) : List Claim :=
  (r.inputs.map fun file => ⟨file, .input file⟩) ++
    r.artifacts.flatMap (sourceClaims plan) ++
    (r.assembly.map fun file => ⟨assemblyObject plan file, .input file⟩) ++
    (plan.target?.toList.map fun file => ⟨file, .merge⟩)

/-- The files of every source, provided that no file of the build is claimed twice. -/
def planArtifacts (r : Request) (plan : MergePlan) : Except Failure (List Artifact) :=
  match Claim.firstClash? [] (r.claims plan) with
  | some (e, c) => .error (.configuration (.clash e.owner c.owner e.file))
  | none => .ok r.artifacts

end Request

end Deglobal
