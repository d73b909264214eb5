import Deglobal.Proofs.Pipeline.Inputs
import Deglobal.Proofs.Pipeline.Overwrite

/-! # The one object of a compilation

A request that stops before linking may name its object with an output flag, or by
an object file among its arguments. Both ways lead to the same target, and the two
paths of a compilation differ in what they make of it. With the transform the
target is what everything is merged into, but an object file is an input as well,
so that a target which was given as one is claimed twice and refused. Without the
transform the compiler is told of the output flag alone.
-/

namespace Deglobal

variable {σ : Type} {r : Request} {plan : MergePlan} {target : Path}

namespace Request

/-- The files of a build other than the object files among its arguments. -/
def otherFiles (r : Request) (plan : MergePlan) : List Path :=
  r.sources ++ r.assembly ++ r.produced plan

/-- No object file among the arguments lies where another file of the build does. -/
def ObjectsFree (r : Request) (plan : MergePlan) : Prop :=
  ∀ p ∈ r.objects, p.components ∉ Path.locations (r.otherFiles plan)

instance (r : Request) (plan : MergePlan) : Decidable (r.ObjectsFree plan) :=
  decidable_of_iff
    (r.objects.all fun p => !(Path.locations (r.otherFiles plan)).contains p.components)
    (by simp [ObjectsFree])

/-- If everything else lies apart, it is up to the object files whether a build is accepted. -/
theorem accepted_iff_objectsFree (hobjects : Path.Apart r.objects)
    (hothers : Path.Apart (r.otherFiles plan)) :
    (∃ artifacts, r.planArtifacts plan = .ok artifacts) ↔ r.ObjectsFree plan := by
  have hmoved : (r.inputs ++ r.produced plan).Perm (r.objects ++ r.otherFiles plan) := by
    unfold inputs otherFiles
    rw [← List.append_assoc]
    exact List.perm_append_comm.append_right _
  have hapart : Path.Apart (r.inputs ++ r.produced plan) ↔
      Path.Apart (r.objects ++ r.otherFiles plan) := (hmoved.map Path.components).nodup_iff
  constructor
  · rintro ⟨artifacts, hplan⟩ p hp
    exact (hapart.mp (planArtifacts_ok_iff.mp hplan).2).notMem hp
  · intro hfree
    refine ⟨r.artifacts, planArtifacts_ok_iff.mpr ⟨rfl, hapart.mpr ?_⟩⟩
    refine Path.apart_append.mpr ⟨hobjects, hothers, fun l hl => ?_⟩
    obtain ⟨p, hp, rfl⟩ := Path.mem_locations_iff.mp hl
    exact hfree p hp

theorem apart_objects_of_classify {args : List String} (hargs : classify args = .ok (.build r))
    (hsources : r.hasSources = true) : Path.Apart r.objects := by
  have hfew := length_objects_of_classify hargs hsources
  unfold Path.Apart Path.locations
  cases hobjects : r.objects with
  | nil => exact List.nodup_nil
  | cons p rest =>
      have hrest : rest = [] := by simpa [hobjects] using hfew
      rw [hrest]
      exact List.nodup_singleton _

/-- A target that no output flag names is an object file among the arguments, which the merge
claims as well. -/
theorem not_objectsFree_of_inferred (hexplicit : r.explicitOutput = none)
    (htarget : r.objectTarget? = some target) : ¬ r.ObjectsFree (.consolidated target) := by
  have hlast : r.objects.getLast? = some target := by
    simpa [objectTarget?, hexplicit] using htarget
  have hproduced : target ∈ r.produced (.consolidated target) :=
    List.mem_append_right _ List.mem_cons_self
  intro hfree
  refine hfree target (List.mem_of_getLast? hlast) (Path.mem_locations ?_)
  exact List.mem_append_right _ hproduced

end Request

namespace BuildPath

variable {t : Toolchain}

theorem select_of_transformed (ht : t.transforms = true) (hsources : r.hasSources = true)
    (hcompile : r.compileOnly = true) (hpreprocess : r.preprocessOnly = false)
    (htarget : r.objectTarget? = some target) :
    select t r = .transformCompile (.consolidated target) := by
  simp [select, compilePlan, ht, hsources, hcompile, hpreprocess, htarget]

theorem select_of_direct (ht : t.transforms = false) (hcompile : r.compileOnly = true)
    (hpreprocess : r.preprocessOnly = false) : select t r = .directCompile := by
  simp [select, ht, hcompile, hpreprocess]

end BuildPath

theorem Recipe.direct_hasOutput (k : Recipe) (hexplicit : r.explicitOutput = some target) :
    (k.direct r).HasOutput target := by
  unfold direct
  rw [hexplicit]
  exact ((Command.hasOutput_output _ _).withArgs _).withArgs _

theorem Invocation.carryOut_of_direct {t : Toolchain} (ht : t.transforms = false)
    (hcompile : r.compileOnly = true) (hpreprocess : r.preprocessOnly = false)
    (home : Option Path) : (Invocation.build r).carryOut t home =
      (Invocation.build { r with objects := [] }).carryOut t home := by
  have hsame : BuildPath.select t { r with objects := [] } = .directCompile :=
    BuildPath.select_of_direct ht hcompile hpreprocess
  rw [carryOut_build, carryOut_build, BuildPath.select_of_direct ht hcompile hpreprocess, hsame]
  rfl

/-- A compilation that has a target, and files that lie apart but for the object files among its
arguments, reaches the target only if an output flag names it. With the transform the merge has it
for its output, unless an object file lies where another file does: then the build is refused
before any command, and this is so whenever the target was given as an object file. Without the
transform the one command has the output flag, and object files make no difference at all. -/
theorem target_reached_only_if_explicit (t : Toolchain) (ht : t.Named) {args : List String}
    (hargs : classify args = .ok (.build r)) (hsources : r.hasSources = true)
    (hcompile : r.compileOnly = true) (hpreprocess : r.preprocessOnly = false)
    (htarget : r.objectTarget? = some target)
    (hothers : Path.Apart (r.otherFiles (.consolidated target))) (home : Option Path)
    (h : Host σ) (s : σ) :
    let k := Recipe.ofRequest t r
    let plan := MergePlan.consolidated target
    let script := (Invocation.build r).carryOut t home
    let run := script.run h s
    (∀ x ∈ run.commands, x.2 = .exited 0) →
      (t.transforms = true → r.ObjectsFree plan → run.result = .ok 0 ∧
        ∃ x ∈ run.commands, x.1 = k.merge (r.looseObjects plan) target ∧ x.1.HasOutput target) ∧
      (t.transforms = true → ¬ r.ObjectsFree plan → run.commands = [] ∧
        ∃ first second file,
          run.result = .error (.configuration (.clash first second file))) ∧
      (t.transforms = false → run.result = .ok 0 ∧ run.commands.map Prod.fst = [k.direct r] ∧
        (r.explicitOutput = some target → (k.direct r).HasOutput target)) ∧
      (r.explicitOutput = none → ¬ r.ObjectsFree plan ∧ (t.transforms = false →
        script = (Invocation.build { r with objects := [] }).carryOut t home)) := by
  intro k plan script run hsuccess
  have haccepted := Request.accepted_iff_objectsFree
    (Request.apart_objects_of_classify hargs hsources) hothers
  obtain ⟨hcommands, hresult⟩ := Script.run_of_succeeded hsuccess
  refine ⟨fun htransforms hfree => ?_, fun htransforms hclash => ?_, fun hdirect => ?_,
    fun hexplicit => ⟨Request.not_objectsFree_of_inferred hexplicit htarget, fun hdirect =>
      Invocation.carryOut_of_direct hdirect hcompile hpreprocess home⟩⟩
  · obtain ⟨artifacts, hplan⟩ := haccepted.mpr hfree
    have hselect :=
      BuildPath.select_of_transformed htransforms hsources hcompile hpreprocess htarget
    have hpath : (BuildPath.select t r).plan? = some plan := hselect ▸ rfl
    obtain ⟨hgoal, hcourse⟩ :=
      Invocation.course_carryOut_build (k.goal_follow hpath hplan) home
    have hmerge : k.merge (r.looseObjects plan) target ∈ run.commands.map Prod.fst := by
      have hscheduled : Step.mergeAll target ∈ k.schedule r (BuildPath.select t r) := by
        rw [hselect]
        exact Recipe.mergeAll_mem_steps r target
      rw [hcommands, hcourse, Recipe.course_follow ht hpath hplan]
      exact List.mem_map_of_mem hscheduled
    obtain ⟨x, hx, heq⟩ := List.mem_map.mp hmerge
    exact ⟨hresult.trans hgoal, x, hx, heq, heq ▸ Command.hasOutput_output _ _⟩
  · have hselect :=
      BuildPath.select_of_transformed htransforms hsources hcompile hpreprocess htarget
    have hpath : (BuildPath.select t r).plan? = some plan := hselect ▸ rfl
    cases hplan : r.planArtifacts plan with
    | ok artifacts => exact absurd (haccepted.mp ⟨artifacts, hplan⟩) hclash
    | error e =>
        obtain ⟨first, second, file, rfl⟩ := Request.clash_of_planArtifacts hplan
        simp only [run, script, Invocation.carryOut_build]
        rw [Recipe.follow_of_clash k hpath hplan]
        exact ⟨rfl, first, second, file, rfl⟩
  · have hselect := BuildPath.select_of_direct (r := r) hdirect hcompile hpreprocess
    have hgoal : (k.follow r (BuildPath.select t r)).goal = .ok () := by
      rw [hselect]
      exact Script.goal_check _
    obtain ⟨hend, hcourse⟩ := Invocation.course_carryOut_build hgoal home
    refine ⟨hresult.trans hend, ?_, k.direct_hasOutput⟩
    rw [hcommands, hcourse, hselect]
    exact Recipe.course_check_direct ht

/-- An object file among the arguments does no harm to a target that an output flag names. -/
theorem target_reached_only_if_explicit_sample :
    let args := ["a.cpp", "start.S", "x.o", "-c", "-o", "out/all"]
    let r : Request :=
      { sources := [⟨"a.cpp"⟩], assembly := [⟨"start.S"⟩], objects := [⟨"x.o"⟩]
        explicitOutput := some ⟨"out/all"⟩, controlArgs := ["-c"] }
    let plan := MergePlan.consolidated ⟨"out/all"⟩
    let untransformed : Toolchain := { Toolchain.sample with tool? := none }
    let run := fun t : Toolchain => ((Invocation.build r).carryOut t none).run Host.willing ()
    classify args = .ok (.build r) ∧ Path.Apart (r.otherFiles plan) ∧ r.ObjectsFree plan ∧
      (run .sample).result = .ok 0 ∧ (∃ x ∈ (run .sample).commands, x.1.HasOutput ⟨"out/all"⟩) ∧
      (run untransformed).result = .ok 0 ∧
      ∃ x ∈ (run untransformed).commands, x.1.HasOutput ⟨"out/all"⟩ := by
  intro args r plan untransformed run
  have hargs : classify args = .ok (.build r) := rfl
  have hothers : Path.Apart (r.otherFiles plan) := by decide +kernel
  have hfree : r.ObjectsFree plan := by decide +kernel
  have hnamed : untransformed.Named := ⟨by decide, by decide, by decide⟩
  obtain ⟨hmerged, -, -, -⟩ := target_reached_only_if_explicit .sample Toolchain.named_sample
    hargs rfl rfl rfl rfl hothers none Host.willing () (by decide +kernel)
  obtain ⟨-, -, hcompiled, -⟩ := target_reached_only_if_explicit untransformed hnamed
    hargs rfl rfl rfl rfl hothers none Host.willing () (by decide +kernel)
  obtain ⟨hresult, x, hx, _, houtput⟩ := hmerged rfl hfree
  obtain ⟨hresult', hcommands, houtput'⟩ := hcompiled rfl
  obtain ⟨y, hy, heq⟩ := List.mem_map.mp (hcommands ▸ List.mem_cons_self)
  exact ⟨hargs, hothers, hfree, hresult, ⟨x, hx, houtput⟩, hresult', y, hy, heq ▸ houtput' rfl⟩

/-- A target that was given as an object file is refused with the transform, and without it no
command is told of the target. -/
theorem inferred_target_missed :
    let r : Request :=
      { sources := [⟨"a.cpp"⟩], objects := [⟨"x.o"⟩], controlArgs := ["-c"] }
    let untransformed : Toolchain := { Toolchain.sample with tool? := none }
    let run := fun t : Toolchain => ((Invocation.build r).carryOut t none).run Host.willing ()
    classify ["a.cpp", "-c", "x.o"] = .ok (.build r) ∧ r.objectTarget? = some ⟨"x.o"⟩ ∧
      Path.Apart (r.otherFiles (.consolidated ⟨"x.o"⟩)) ∧
      (run .sample).commands = [] ∧ (run .sample).result =
        .error (.configuration (.clash (.input ⟨"x.o"⟩) .merge ⟨"x.o"⟩)) ∧
      (run untransformed).result = .ok 0 ∧
      ∀ x ∈ (run untransformed).commands, ¬ x.1.HasOutput ⟨"x.o"⟩ := by
  intro r untransformed run
  have hquiet : ∀ x ∈ (run untransformed).commands, "-o" ∉ x.1.args := by decide +kernel
  refine ⟨rfl, rfl, by decide +kernel, by decide +kernel, by decide +kernel, by decide +kernel,
    fun x hx houtput => hquiet x hx ?_⟩
  obtain ⟨before, after, hsplit⟩ := houtput
  rw [hsplit]
  exact List.mem_append_right _ List.mem_cons_self

end Deglobal
