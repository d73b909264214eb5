import Deglobal.Build

/-! # The steps of a transform build

A step is a command of a transform build together with what it is for: the files
it reads, each with the step that makes it, and the files it writes. What it
reads stands among the arguments of its command. A schedule is the list of all
steps of a build in the order in which they are meant to happen. The transform
tool names what it writes itself, after its input.
-/

namespace Deglobal

/-- A command of a transform build, by its purpose. -/
inductive Step where
  | preprocess (a : Artifact)
  | transform (a : Artifact)
  | compile (a : Artifact)
  | companion (a : Artifact)
  | assemble (file : Path)
  /-- Merge a source's two objects into the object beside it. -/
  | mergeOne (a : Artifact)
  /-- Merge the objects of all sources and assembly files. -/
  | mergeAll (target : Path)
  | link (output : Path)
  | archive (output : Path)
  deriving DecidableEq, Inhabited

namespace Request

/-- The objects a plan ends with: the sources' in order and then those of the assembly files. -/
def finalObjects (r : Request) : MergePlan → List Path
  | .perSource => r.artifacts.map Artifact.mergedObject ++
      r.assembly.map (assemblyObject .perSource)
  | .consolidated target => [target]

def looseObjects (r : Request) (plan : MergePlan) : List Path :=
  r.artifacts.flatMap Artifact.mergeInputs ++ r.assembly.map (assemblyObject plan)

def finalSupplies (r : Request) : MergePlan → List (Path × Step)
  | .perSource => (r.artifacts.map fun a => (a.mergedObject, .mergeOne a)) ++
      r.assembly.map fun file => (assemblyObject .perSource file, .assemble file)
  | .consolidated target => [(target, .mergeAll target)]

end Request

namespace Step

def command (k : Recipe) (r : Request) (plan : MergePlan) : Step → Command
  | preprocess a => k.preprocess a
  | transform a => k.transform a
  | compile a => k.compile a
  | companion a => k.companion a
  | assemble file => k.assemble file (assemblyObject plan file)
  | mergeOne a => k.merge [a.transformedObject, a.companionObject] (objectBeside a.source)
  | mergeAll target => k.merge (r.looseObjects plan) target
  | link output => k.link (r.finalObjects plan ++ r.objects) output r.linkerArgs
  | archive output => k.archive (r.finalObjects plan ++ r.objects) output r.linkerArgs

def writes (plan : MergePlan) : Step → List Path
  | preprocess a => [a.preprocessed]
  | transform a => [transformedBeside a.preprocessed, companionBeside a.preprocessed]
  | compile a => [a.transformedObject]
  | companion a => [a.companionObject]
  | assemble file => [assemblyObject plan file]
  | mergeOne a => [a.mergedObject]
  | mergeAll target => [target]
  | link output => [output]
  | archive output => [sharedObjectPath output]

def objectSupplies (a : Artifact) : List (Path × Step) :=
  [(a.transformedObject, compile a), (a.companionObject, companion a)]

/-- The objects a link takes: a plan's final objects, and those that came with the request. -/
def linkSupplies (r : Request) (plan : MergePlan) : List (Path × Option Step) :=
  (r.finalSupplies plan).map (fun x => (x.1, some x.2)) ++ r.objects.map (·, none)

/-- The files a step reads, each with the step that makes it; an input of the build has none. -/
def reads (r : Request) (plan : MergePlan) : Step → List (Path × Option Step)
  | preprocess a => [(a.source, none)]
  | transform a => [(a.preprocessed, some (preprocess a))]
  | compile a => [(a.transformedSource, some (transform a))]
  | companion a => [(a.companionSource, some (transform a))]
  | assemble file => [(file, none)]
  | mergeOne a => (objectSupplies a).map fun x => (x.1, some x.2)
  | mergeAll _ =>
      (r.artifacts.flatMap objectSupplies ++
        r.assembly.map fun file => (assemblyObject plan file, assemble file)).map
        fun x => (x.1, some x.2)
  | link _ => linkSupplies r plan
  | archive _ => linkSupplies r plan

theorem linkSupplies_fst (r : Request) (plan : MergePlan) :
    (linkSupplies r plan).map Prod.fst = r.finalObjects plan ++ r.objects := by
  cases plan <;>
    simp [linkSupplies, Request.finalSupplies, Request.finalObjects, Function.comp_def]

theorem reads_mergeAll_fst (r : Request) (plan : MergePlan) (target : Path) :
    ((mergeAll target).reads r plan).map Prod.fst = r.looseObjects plan := by
  simp only [reads, List.map_map, List.map_append, List.map_flatMap, Function.comp_def,
    Request.looseObjects]
  rfl

def ofSource (a : Artifact) : List Step := [preprocess a, transform a, compile a, companion a]

end Step

def Request.steps (r : Request) (plan : MergePlan) : List Step :=
  r.artifacts.flatMap Step.ofSource ++ r.assembly.map Step.assemble ++
    match plan with
    | .perSource => r.artifacts.map Step.mergeOne
    | .consolidated target => [Step.mergeAll target]

def Request.backSteps (r : Request) (plan : MergePlan) : List Step :=
  r.assembly.map Step.assemble ++
    match plan with
    | .perSource => r.artifacts.map Step.mergeOne
    | .consolidated target => [Step.mergeAll target]

theorem Request.steps_eq (r : Request) (plan : MergePlan) :
    r.steps plan = r.artifacts.flatMap Step.ofSource ++ r.backSteps plan :=
  List.append_assoc _ _ _

namespace Recipe

/-- The steps of a link, none if linking is left to the core build. -/
def linkSteps (k : Recipe) (output : Path) : List Step :=
  if k.toolchain.sstCore then []
  else .link output :: if k.flags.positionIndependent then [.archive output] else []

/-- The steps of a build along a path; those without the transform have none. -/
def schedule (k : Recipe) (r : Request) : BuildPath → List Step
  | .transformCompile plan => r.steps plan
  | .transformLink output plan => r.steps plan ++ k.linkSteps output
  | _ => []

end Recipe

def BuildPath.plan? : BuildPath → Option MergePlan
  | transformCompile plan => some plan
  | transformLink _ plan => some plan
  | _ => none

/-- Every program a toolchain runs has a name. -/
structure Toolchain.Named (t : Toolchain) : Prop where
  compiler : t.compiler ≠ ""
  cxx : t.cxx ≠ ""
  tool : t.toolPath.text ≠ ""

/-- An installation to try statements on: everything named, and position-independent code. -/
def Toolchain.sample : Toolchain where
  language := .cxx
  directories := ⟨"/opt/sst", "/opt/sst", "/opt/sst/include"⟩
  cc := "gcc"
  cxx := "g++"
  cflags := "-O2"
  cxxflags := "-O2 -fPIC"
  cppflags := []
  ldflags := []
  soFlags := "-shared"
  sstCore := false
  libtoolingCxxflags := ""
  libtoolingCflags := ""
  toggles := {}
  tool? := some ⟨"/opt/sst/bin/sstmac_clang_deglobal"⟩

theorem Toolchain.named_sample : Toolchain.sample.Named := ⟨by decide, by decide, by decide⟩

/-- A request to try statements on: sources of one stem, assembly, an object and an output. -/
def Request.sample : Request where
  sources := [⟨"a.c"⟩, ⟨"d/./a.c"⟩, ⟨"a.cpp"⟩]
  assembly := [⟨"start.S"⟩]
  objects := [⟨"x.o"⟩]
  explicitOutput := some ⟨"out/prog"⟩
  linkerArgs := ["-Wl,--as-needed"]

theorem Command.isEmpty_eq_false {c : Command} (h : c.program ≠ "") : c.isEmpty = false := by
  simpa [isEmpty] using h

theorem Step.command_isEmpty {k : Recipe} (hk : k.toolchain.Named) (r : Request)
    (plan : MergePlan) (st : Step) : (st.command k r plan).isEmpty = false := by
  apply Command.isEmpty_eq_false
  cases st with
  | preprocess a => exact hk.compiler
  | transform a => exact hk.tool
  | compile a => exact hk.compiler
  | companion a => exact hk.cxx
  | assemble file => exact hk.compiler
  | mergeOne a => exact hk.cxx
  | mergeAll target => exact hk.cxx
  | link output => exact hk.cxx
  | archive output => exact hk.cxx

theorem Recipe.frontHalf_eq (k : Recipe) (r : Request) (plan : MergePlan) (a : Artifact) :
    k.frontHalf a = (Step.ofSource a).map (Step.command k r plan) := rfl

/-! ## The arguments of a step -/

/-- A command has a file among its arguments. -/
def Command.Takes (c : Command) (p : Path) : Prop := p.text ∈ c.args

namespace Command

variable {c : Command} {p : Path} {ps : List Path}

theorem takes_path (c : Command) (p : Path) : (c.path p).Takes p :=
  List.mem_append_right _ List.mem_cons_self

theorem takes_paths (c : Command) (hp : p ∈ ps) : (c.paths ps).Takes p :=
  List.mem_append_right _ (List.mem_map_of_mem hp)

theorem Takes.withArgs (hc : c.Takes p) (as : List String) : (c.withArgs as).Takes p :=
  List.mem_append_left _ hc

theorem Takes.arg (hc : c.Takes p) (a : String) : (c.arg a).Takes p := hc.withArgs [a]

theorem Takes.path (hc : c.Takes p) (q : Path) : (c.path q).Takes p := hc.arg q.text

theorem Takes.paths (hc : c.Takes p) (qs : List Path) : (c.paths qs).Takes p := hc.withArgs _

theorem Takes.output (hc : c.Takes p) (q : Path) : (c.output q).Takes p := (hc.arg "-o").path q

theorem Takes.output? (hc : c.Takes p) (q : Option Path) : (c.output? q).Takes p := by
  cases q with
  | none => exact hc
  | some q => exact hc.output q

end Command

theorem Recipe.merge_takes (k : Recipe) {inputs : List Path} (output : Path) {p : Path}
    (hp : p ∈ inputs) : (k.merge inputs output).Takes p :=
  (Command.takes_paths _ hp).output output

theorem Recipe.link_takes (k : Recipe) {objects : List Path} (output : Path)
    (linkerArgs : List String) {p : Path} (hp : p ∈ objects) :
    (k.link objects output linkerArgs).Takes p := by
  have hobjects := Command.takes_paths (Command.ofProgram k.toolchain.linker) hp
  exact (((((((hobjects.withArgs _).withArgs _).withArgs _).withArgs _).withArgs _).arg _).output
    output).withArgs linkerArgs

theorem Recipe.archive_takes (k : Recipe) {objects : List Path} (output : Path)
    (linkerArgs : List String) {p : Path} (hp : p ∈ objects) :
    (k.archive objects output linkerArgs).Takes p := by
  have hobjects := Command.takes_paths
    ((Command.ofProgram k.toolchain.linker).withArgs k.flags.soFlags) hp
  exact (((((hobjects.withArgs _).withArgs _).withArgs _).arg _).output _).withArgs linkerArgs

/-- The command of a step has every file that the step reads among its arguments. -/
theorem Step.command_takes (k : Recipe) (r : Request) (plan : MergePlan) (st : Step)
    {x : Path × Option Step} (hx : x ∈ st.reads r plan) : (st.command k r plan).Takes x.1 := by
  have hmem : x.1 ∈ (st.reads r plan).map Prod.fst := List.mem_map_of_mem hx
  cases st with
  | preprocess a =>
      rw [List.mem_singleton.mp hmem]
      exact (Command.takes_path _ _).output _
  | transform a =>
      rw [List.mem_singleton.mp hmem]
      exact (Command.takes_path _ _).arg _
  | compile a =>
      rw [List.mem_singleton.mp hmem]
      exact (Command.takes_path _ _).arg _
  | companion a =>
      rw [List.mem_singleton.mp hmem]
      exact Command.takes_path _ _
  | assemble file =>
      rw [List.mem_singleton.mp hmem]
      exact (Command.takes_path _ _).output _
  | mergeOne a => exact k.merge_takes _ hmem
  | mergeAll target =>
      rw [reads_mergeAll_fst] at hmem
      exact k.merge_takes target hmem
  | link output => exact k.link_takes output _ (linkSupplies_fst r plan ▸ hmem)
  | archive output => exact k.archive_takes output _ (linkSupplies_fst r plan ▸ hmem)

end Deglobal
