import Deglobal.Pipeline

/-!
# Builds

A request is carried out along its build path: in one compiler command, through
the transform pipeline, or by linking, with a shared object beside the
executable where the configured flags ask for position-independent code.
-/

namespace Deglobal

namespace Recipe

/-- Link objects, and make a shared object of them if one is wanted; all this is the core build's
if linking is left to it. -/
def linkObjects (k : Recipe) (objects : List Path) (output : Path) (linkerArgs : List String) :
    Script Unit := do
  if k.toolchain.sstCore then Script.say (.linkDeferred output)
  else
    Script.check (k.link objects output linkerArgs)
    if k.flags.positionIndependent then Script.check (k.archive objects output linkerArgs)

def transformAndLink (k : Recipe) (r : Request) (output : Path) (plan : MergePlan) :
    Script Unit := do
  let merged ← k.pipeline r plan
  let result ← (k.linkObjects (merged ++ r.objects) output r.linkerArgs).attempt
  -- The core build picks the merged objects up later.
  if !k.toolchain.sstCore then k.cleanUp merged
  Script.done result

def follow (k : Recipe) (r : Request) : BuildPath → Script Unit
  | .preprocess => Script.check (k.direct r)
  | .directCompile => Script.check (k.direct r)
  | .allInOne => Script.check (k.allInOne r)
  | .transformCompile plan => do
      let _ ← k.pipeline r plan
  | .transformLink output plan => k.transformAndLink r output plan
  | .linkOnly output => k.linkObjects r.objects output r.linkerArgs

end Recipe

def Toolchain.build (t : Toolchain) (r : Request) : Script Unit := do
  let path := BuildPath.select t r
  Script.say (.buildPath path)
  (Recipe.ofRequest t r).follow r path

end Deglobal
