import Deglobal.Artifact.Plan
import Deglobal.Recipe
import Deglobal.Script

/-!
# The transform pipeline

Every source is preprocessed, put through the transform and compiled, then the
assembly files are compiled, and last the objects are merged as the plan has it.
A source cleans up after itself; objects that will not be merged any more are
removed when a later step fails. Sources worked on in parallel are all seen to
their end, in source order, and the first of their failures is reported.
-/

namespace Deglobal

namespace Recipe

def deletesTemps (k : Recipe) : Bool := k.toolchain.toggles.deleteTemps

def cleanUp (k : Recipe) (files : List Path) : Script Unit :=
  if k.deletesTemps then Script.discardAll files else pure ()

def frontHalf (k : Recipe) (a : Artifact) : List Command :=
  [k.preprocess a, k.transform a, k.compile a, k.companion a]

def checkAll : List Command → Script Unit
  | [] => pure ()
  | c :: rest => do
      Script.check c
      checkAll rest

/-- The files of a source that are of no more use once its commands have ended. -/
def spent (a : Artifact) : Except Failure Unit → List Path
  | .ok _ => a.sourceFiles
  | .error _ => a.intermediates

def transformSource (k : Recipe) (a : Artifact) : Script Unit := do
  let result ← (checkAll (k.frontHalf a)).attempt
  k.cleanUp (spent a result)
  Script.done result

/-- Take sources to their objects, each to its end, or only up to the first that fails. -/
def transformEach (k : Recipe) (toTheEnd : Bool) :
    List Artifact → Script (List (Artifact × Except Failure Unit))
  | [] => pure []
  | a :: rest => do
      let result ← (k.transformSource a).attempt
      if toTheEnd || result.isOk then
        let others ← k.transformEach toTheEnd rest
        return (a, result) :: others
      else return [(a, result)]

def firstFailure? (results : List (Artifact × Except Failure Unit)) : Option Failure :=
  results.findSome? fun
    | (_, .error e) => some e
    | (_, .ok _) => none

def completed (results : List (Artifact × Except Failure Unit)) : List Artifact :=
  (results.filter fun r => r.2.isOk).map Prod.fst

def inParallel (k : Recipe) (artifacts : List Artifact) : Bool :=
  k.toolchain.toggles.parallel && 1 < artifacts.length

/-- Take every source to its objects; if one fails, the objects of the others go. -/
def transformAll (k : Recipe) (artifacts : List Artifact) : Script Unit := do
  if k.inParallel artifacts then Script.say (.parallel artifacts.length)
  let results ← k.transformEach (k.inParallel artifacts) artifacts
  match firstFailure? results with
  | none => pure ()
  | some e => do
      k.cleanUp ((completed results).flatMap Artifact.mergeInputs)
      Script.fail e

/-- Compile assembly files; a failure takes the objects made before it along if they are
temporary. -/
def assembleEach (k : Recipe) (plan : MergePlan) (made : List Path) :
    List Path → Script (List Path)
  | [] => pure made
  | file :: rest => do
      let object := assemblyObject plan file
      match ← (Script.check (k.assemble file object)).attempt with
      | .ok _ => k.assembleEach plan (made ++ [object]) rest
      | .error e => do
          if plan.target?.isSome then k.cleanUp made
          Script.fail e

def mergeEach (k : Recipe) : List Artifact → Script (List Path)
  | [] => pure []
  | a :: rest => do
      match ← (Script.check (k.merge a.mergeInputs a.mergedObject)).attempt with
      | .ok _ => do
          Script.discardAll a.mergeInputs
          let others ← k.mergeEach rest
          return a.mergedObject :: others
      | .error e => do
          Script.say (.mergeFailed a.mergedObject)
          k.cleanUp ((a :: rest).flatMap Artifact.mergeInputs)
          Script.fail e

def mergeAll (k : Recipe) (inputs : List Path) (target : Path) : Script Unit := do
  match ← (Script.check (k.merge inputs target)).attempt with
  | .ok _ => Script.discardAll inputs
  | .error e => do
      Script.say (.mergeFailed target)
      k.cleanUp inputs
      Script.fail e

/-- Put a request's sources through the transform; returns the final objects in source order. -/
def pipeline (k : Recipe) (r : Request) (plan : MergePlan) : Script (List Path) := do
  let artifacts ← Script.done (r.planArtifacts plan)
  k.transformAll artifacts
  match ← (k.assembleEach plan [] r.assembly).attempt with
  | .error e => do
      k.cleanUp (artifacts.flatMap Artifact.mergeInputs)
      Script.fail e
  | .ok assembled =>
      match plan with
      | .perSource => do
          let merged ← k.mergeEach artifacts
          return merged ++ assembled
      | .consolidated target => do
          k.mergeAll (artifacts.flatMap Artifact.mergeInputs ++ assembled) target
          return [target]

end Recipe

end Deglobal
