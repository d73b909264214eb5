import Deglobal.Proofs.Artifact.Apart
import Deglobal.Proofs.Pipeline.Trace

/-! # The order of the inputs

A request may list its sources and its assembly files in any order. Planning
counts the sources of one stem and compares files, and neither depends on the
order; so every source keeps its files and every command its command line. What
follows the order of the inputs is where a command stands among the others, what
a consolidated merge takes first, and where an object stands among those that
the pipeline returns.
-/

namespace Deglobal

/-- The same request with its sources and its assembly files in another order. -/
structure Request.Reordered (r r' : Request) : Prop where
  sources : r'.sources.Perm r.sources
  assembly : r'.assembly.Perm r.assembly
  rest : r' = { r with sources := r'.sources, assembly := r'.assembly }

namespace Request

variable {r r' : Request}

theorem Reordered.objects (hr : r.Reordered r') : r'.objects = r.objects := by
  rw [hr.rest]

/-! ## What planning makes of another order -/

theorem Reordered.stemUses (hr : r.Reordered r') (object : Path) :
    r'.stemUses object = r.stemUses object :=
  hr.sources.countP_eq _

theorem Reordered.artifactOf (hr : r.Reordered r') : r'.artifactOf = r.artifactOf := by
  funext source
  simp only [Request.artifactOf, hr.stemUses]

theorem Reordered.artifacts_perm (hr : r.Reordered r') : r'.artifacts.Perm r.artifacts := by
  unfold artifacts
  rw [hr.artifactOf]
  exact hr.sources.map _

theorem Reordered.inputs_perm (hr : r.Reordered r') : r'.inputs.Perm r.inputs := by
  unfold inputs
  rw [hr.objects]
  exact (hr.sources.append hr.assembly).append_right _

theorem Reordered.produced_perm (hr : r.Reordered r') (plan : MergePlan) :
    (r'.produced plan).Perm (r.produced plan) :=
  ((hr.artifacts_perm.flatMap_right _).append (hr.assembly.map _)).append_right _

theorem Reordered.accepted_iff (hr : r.Reordered r') (plan : MergePlan) :
    (∃ artifacts, r'.planArtifacts plan = .ok artifacts) ↔
      ∃ artifacts, r.planArtifacts plan = .ok artifacts := by
  have hfiles := (hr.inputs_perm.append (hr.produced_perm plan)).map Path.components
  have hapart : Path.Apart (r'.inputs ++ r'.produced plan) ↔
      Path.Apart (r.inputs ++ r.produced plan) := hfiles.nodup_iff
  simp only [planArtifacts_ok_iff, exists_eq_left, hapart]

end Request

/-- The flags of a build depend on whether there is assembly, not on the order of anything. -/
theorem Recipe.ofRequest_reordered (t : Toolchain) {r r' : Request} (hr : r.Reordered r') :
    Recipe.ofRequest t r' = Recipe.ofRequest t r := by
  have hredefinitions : r'.withoutRedefinitions = r.withoutRedefinitions := by
    rw [hr.rest]
    simp only [Request.withoutRedefinitions, hr.assembly.isEmpty_eq]
  unfold ofRequest Flags.ofRequest
  rw [hredefinitions, hr.rest]

/-! ## The commands of another order -/

/-- The commands that files are made with, by the files of each source: the four of every source,
that of every assembly file, and the merges. -/
def Recipe.blocks (k : Recipe) (plan : MergePlan) (files : Path → Artifact)
    (sources assembly : List Path) : List Command :=
  sources.flatMap (fun s => k.frontHalf (files s)) ++
    assembly.map (fun file => k.assemble file (assemblyObject plan file)) ++
    match plan with
    | .perSource => sources.map fun s => k.merge (files s).mergeInputs (files s).mergedObject
    | .consolidated target =>
        [k.merge (sources.flatMap (fun s => (files s).mergeInputs) ++
          assembly.map (assemblyObject plan)) target]

def MergePlan.results (plan : MergePlan) (files : Path → Artifact)
    (sources assembly : List Path) : List Path :=
  match plan with
  | .perSource => sources.map (fun s => (files s).mergedObject) ++
      assembly.map (assemblyObject .perSource)
  | .consolidated target => [target]

namespace Recipe

variable {k : Recipe} {r : Request} {plan : MergePlan} {artifacts : List Artifact}

theorem steps_map_command (k : Recipe) (r : Request) (plan : MergePlan) :
    (r.steps plan).map (Step.command k r plan) =
      k.blocks plan r.artifactOf r.sources r.assembly := by
  cases plan <;>
    simp [Request.steps, blocks, Request.artifacts, List.map_flatMap, List.flatMap_map,
      Function.comp_def, Step.ofSource, Step.command, frontHalf, Request.looseObjects,
      Artifact.mergeInputs, Artifact.mergedObject]

theorem finalObjects_eq_results (r : Request) (plan : MergePlan) :
    r.finalObjects plan = plan.results r.artifactOf r.sources r.assembly := by
  cases plan <;> simp [Request.finalObjects, MergePlan.results, Request.artifacts]

theorem pipeline_of_succeeded {σ : Type} {h : Host σ} {s : σ}
    (hplan : r.planArtifacts plan = .ok artifacts)
    (hok : ∀ x ∈ ((k.pipeline r plan).run h s).commands, x.2 = .exited 0) :
    ((k.pipeline r plan).run h s).commands.map Prod.fst =
        Script.runnable (k.blocks plan r.artifactOf r.sources r.assembly) ∧
      ((k.pipeline r plan).run h s).result =
        .ok (plan.results r.artifactOf r.sources r.assembly) := by
  obtain ⟨hcommands, hresult⟩ := Script.run_of_succeeded hok
  rw [hcommands, hresult, course_pipeline_eq k hplan, goal_pipeline k hplan, steps_map_command,
    finalObjects_eq_results]
  exact ⟨rfl, rfl⟩

end Recipe

/-- A request and any reordering of its sources and assembly files are planned alike: both or
neither are accepted, and every source gets the same files. If all commands succeed, the pipeline
runs the same command lines for every source and every assembly file, and returns the same objects;
the order of the inputs is that of the blocks of commands, of what a consolidated merge takes and of
what is returned. -/
theorem source_order_immaterial (t : Toolchain) (plan : MergePlan) {r r' : Request}
    (hr : r.Reordered r') :
    let k := Recipe.ofRequest t r
    let files := r.artifactOf
    Recipe.ofRequest t r' = k ∧
    ((∃ artifacts, r'.planArtifacts plan = .ok artifacts) ↔
      ∃ artifacts, r.planArtifacts plan = .ok artifacts) ∧
    (∀ source, (files source).source = source) ∧
    ∀ q ∈ [r, r'], ∀ artifacts, q.planArtifacts plan = .ok artifacts →
      artifacts = q.sources.map files ∧
      ∀ (σ : Type) (h : Host σ) (s : σ),
        let run := (k.pipeline q plan).run h s
        (∀ x ∈ run.commands, x.2 = .exited 0) →
          run.commands.map Prod.fst =
              Script.runnable (k.blocks plan files q.sources q.assembly) ∧
            run.result = .ok (plan.results files q.sources q.assembly) := by
  intro k files
  refine ⟨Recipe.ofRequest_reordered t hr, hr.accepted_iff plan, r.artifactOf_source,
    fun q hq artifacts hplan => ?_⟩
  have hfiles : q.artifactOf = files := by
    rcases List.mem_pair.mp hq with rfl | rfl
    · rfl
    · exact hr.artifactOf
  refine ⟨?_, fun σ h s => ?_⟩
  · rw [Request.planArtifacts_eq hplan, ← hfiles]
    rfl
  · intro run hok
    rw [← hfiles]
    exact Recipe.pipeline_of_succeeded hplan hok

/-- Sources of which two share a stem, from last to first. -/
theorem source_order_immaterial_sample :
    let r' := { Request.sample with sources := Request.sample.sources.reverse }
    let plan := MergePlan.consolidated ⟨"out/sstmerged.prog.o"⟩
    let k := Recipe.ofRequest .sample .sample
    let run := (k.pipeline r' plan).run Host.willing ()
    Request.sample.Reordered r' ∧
      r'.planArtifacts plan = .ok (r'.sources.map Request.sample.artifactOf) ∧
      (∀ x ∈ run.commands, x.2 = .exited 0) ∧
      run.commands.map Prod.fst = Script.runnable
        (k.blocks plan Request.sample.artifactOf r'.sources r'.assembly) ∧
      run.commands.length = 14 ∧ run.result = .ok [⟨"out/sstmerged.prog.o"⟩] := by
  intro r' plan k run
  have hreordered : Request.sample.Reordered r' := ⟨List.reverse_perm _, List.Perm.refl _, rfl⟩
  obtain ⟨hsuccess, hlength⟩ : (∀ x ∈ run.commands, x.2 = .exited 0) ∧
      run.commands.length = 14 := by decide +kernel
  have hplan : r'.planArtifacts plan = .ok r'.artifacts := by decide +kernel
  obtain ⟨_, _, _, hall⟩ := source_order_immaterial .sample plan hreordered
  obtain ⟨hfiles, hruns⟩ := hall r' (by simp) r'.artifacts hplan
  obtain ⟨hcommands, hresult⟩ := hruns Unit Host.willing () hsuccess
  exact ⟨hreordered, hplan.trans (congrArg Except.ok hfiles), hsuccess, hcommands, hlength, hresult⟩

end Deglobal
