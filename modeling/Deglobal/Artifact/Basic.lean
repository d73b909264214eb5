import Deglobal.BuildPath

/-!
# Artifacts

Each source goes through four steps, and every file on the way is named from the
source's own name and lies beside it:

    a.cpp -> pp.a.cpp -> transform -+-> sst.pp.a.cpp ------------> sst.a.o -----------+-> a.o
                                    +-> sstGlobals.pp.a.cpp.cpp -> sstGlobals.a.cpp.o -+
-/

namespace Deglobal

def preprocessedMark : String := "pp."

/-- What the transform tool puts before the name of a transformed source. -/
def transformedMark : String := "sst."

def companionMark : String := "sstGlobals."

/-- What the name of an assembly object begins with that is merged with others. -/
def assemblyMark : String := "sstasm."

/-- The file the transform tool writes its transformed source to, beside its input. -/
def transformedBeside (input : Path) : Path :=
  input.sibling (transformedMark ++ input.fileName)

def companionBeside (input : Path) : Path :=
  input.sibling (companionMark ++ input.fileName ++ ".cpp")

def objectBeside (file : Path) : Path := file.sibling (file.fileStem ++ ".o")

/-- The files made on the way from one source to its object. -/
structure Artifact where
  source : Path
  preprocessed : Path
  transformedSource : Path
  companionSource : Path
  transformedObject : Path
  companionObject : Path
  deriving DecidableEq, Inhabited

namespace Artifact

/-- The files of a source whose transformed object is named after its stem. -/
def ofSource (source : Path) : Artifact where
  source := source
  preprocessed := source.sibling (preprocessedMark ++ source.fileName)
  transformedSource := source.sibling (transformedMark ++ preprocessedMark ++ source.fileName)
  companionSource :=
    source.sibling (companionMark ++ preprocessedMark ++ source.fileName ++ ".cpp")
  transformedObject := source.sibling (transformedMark ++ source.fileStem ++ ".o")
  companionObject := source.sibling (companionMark ++ source.fileName ++ ".o")

def withFullName (a : Artifact) : Artifact :=
  { a with transformedObject := a.source.sibling (transformedMark ++ a.source.fileName ++ ".o") }

/-- The object the source becomes when it is merged on its own. -/
def mergedObject (a : Artifact) : Path := objectBeside a.source

def sourceFiles (a : Artifact) : List Path :=
  [a.preprocessed, a.transformedSource, a.companionSource]

/-- The objects a source is merged from, in merge order. -/
def mergeInputs (a : Artifact) : List Path := [a.transformedObject, a.companionObject]

def intermediates (a : Artifact) : List Path := a.sourceFiles ++ a.mergeInputs

end Artifact

def assemblyObject (plan : MergePlan) (file : Path) : Path :=
  match plan with
  | .perSource => objectBeside file
  | .consolidated _ => file.sibling (assemblyMark ++ file.fileName ++ ".o")

end Deglobal
