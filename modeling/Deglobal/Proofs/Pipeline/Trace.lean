import Deglobal.Proofs.Pipeline.Steps
import Deglobal.Proofs.Script.Course
import Deglobal.Query
import Deglobal.Session

/-! # The trace of a build that succeeds

Each function of the pipeline is put in the form of its stages, and its course
is computed from theirs. For a build along a path with the transform the course
is the schedule of that path, whatever the number of sources and assembly files
and whether sources are worked on in parallel.
-/

namespace Deglobal

namespace Recipe

/-! ## The pipeline in stages -/

def conclude (k : Recipe) (results : List (Artifact × Except Failure Unit)) : Script Unit :=
  match firstFailure? results with
  | none => .done (.ok ())
  | some e =>
      (k.cleanUp ((completed results).flatMap Artifact.mergeInputs)).bind fun _ => Script.fail e

theorem transformAll_eq (k : Recipe) (artifacts : List Artifact) :
    k.transformAll artifacts =
      (if k.inParallel artifacts then Script.say (.parallel artifacts.length)
        else .done (.ok ())).bind fun _ =>
        (k.transformEach (k.inParallel artifacts) artifacts).bind k.conclude := by
  unfold transformAll
  cases k.inParallel artifacts <;> rfl

theorem transformSource_eq (k : Recipe) (a : Artifact) :
    k.transformSource a = (checkAll (k.frontHalf a)).attempt.bind fun result =>
      (k.cleanUp (spent a result)).bind fun _ => .done result := rfl

theorem transformEach_cons (k : Recipe) (toTheEnd : Bool) (a : Artifact) (rest : List Artifact) :
    k.transformEach toTheEnd (a :: rest) = (k.transformSource a).attempt.bind fun result =>
      if toTheEnd || result.isOk then
        (k.transformEach toTheEnd rest).bind fun others => .done (.ok ((a, result) :: others))
      else .done (.ok [(a, result)]) := rfl

theorem assembleEach_cons (k : Recipe) (plan : MergePlan) (made : List Path) (file : Path)
    (rest : List Path) :
    k.assembleEach plan made (file :: rest) =
      (Script.check (k.assemble file (assemblyObject plan file))).attempt.bind fun
        | .ok _ => k.assembleEach plan (made ++ [assemblyObject plan file]) rest
        | .error e =>
            (if plan.target?.isSome then k.cleanUp made else .done (.ok ())).bind fun _ =>
              Script.fail e := by
  rw [assembleEach, Script.bind_def]
  congr 1
  funext result
  cases result with
  | ok _ => rfl
  | error e => cases plan.target?.isSome <;> rfl

theorem mergeEach_cons (k : Recipe) (a : Artifact) (rest : List Artifact) :
    k.mergeEach (a :: rest) =
      (Script.check (k.merge a.mergeInputs a.mergedObject)).attempt.bind fun
        | .ok _ => (Script.discardAll a.mergeInputs).bind fun _ =>
            (k.mergeEach rest).bind fun others => .done (.ok (a.mergedObject :: others))
        | .error e => (Script.say (.mergeFailed a.mergedObject)).bind fun _ =>
            (k.cleanUp ((a :: rest).flatMap Artifact.mergeInputs)).bind fun _ =>
              Script.fail e := rfl

theorem mergeAll_eq (k : Recipe) (inputs : List Path) (target : Path) :
    k.mergeAll inputs target = (Script.check (k.merge inputs target)).attempt.bind fun
      | .ok _ => Script.discardAll inputs
      | .error e => (Script.say (.mergeFailed target)).bind fun _ =>
          (k.cleanUp inputs).bind fun _ => Script.fail e := rfl

/-- Merge what has been compiled, or clean up after assembly files that could not be. -/
def finish (k : Recipe) (artifacts : List Artifact) (plan : MergePlan) :
    Except Failure (List Path) → Script (List Path)
  | .error e => (k.cleanUp (artifacts.flatMap Artifact.mergeInputs)).bind fun _ => Script.fail e
  | .ok assembled =>
      match plan with
      | .perSource => (k.mergeEach artifacts).bind fun merged => .done (.ok (merged ++ assembled))
      | .consolidated target =>
          (k.mergeAll (artifacts.flatMap Artifact.mergeInputs ++ assembled) target).bind fun _ =>
            .done (.ok [target])

theorem pipeline_of_plan (k : Recipe) {r : Request} {plan : MergePlan}
    {artifacts : List Artifact} (hplan : r.planArtifacts plan = .ok artifacts) :
    k.pipeline r plan = (k.transformAll artifacts).bind fun _ =>
      (k.assembleEach plan [] r.assembly).attempt.bind (k.finish artifacts plan) := by
  unfold pipeline
  rw [hplan]
  rfl

theorem pipeline_of_clash (k : Recipe) {r : Request} {plan : MergePlan} {e : Failure}
    (hplan : r.planArtifacts plan = .error e) : k.pipeline r plan = .done (.error e) := by
  unfold pipeline
  rw [hplan]
  rfl

/-! ## Results of a pipeline that meets no failure -/

@[simp] theorem goal_cleanUp (k : Recipe) (files : List Path) :
    (k.cleanUp files).goal = .ok () := by
  unfold cleanUp
  split
  · exact Script.goal_discardAll files
  · rfl

@[simp] theorem course_cleanUp (k : Recipe) (files : List Path) :
    (k.cleanUp files).course = [] := by
  unfold cleanUp
  split
  · exact Script.course_discardAll files
  · rfl

theorem goal_checkAll (cs : List Command) : (checkAll cs).goal = .ok () := by
  induction cs with
  | nil => rfl
  | cons c rest ih =>
      simp only [checkAll, Script.bind_def, Script.goal_bind, Script.goal_check]
      exact ih

theorem goal_transformSource (k : Recipe) (a : Artifact) :
    (k.transformSource a).goal = .ok () := by
  simp only [transformSource_eq, Script.goal_bind, Script.goal_attempt, goal_checkAll,
    Except.bind, goal_cleanUp]
  rfl

theorem goal_transformEach (k : Recipe) (toTheEnd : Bool) (artifacts : List Artifact) :
    (k.transformEach toTheEnd artifacts).goal = .ok (artifacts.map (·, .ok ())) := by
  induction artifacts with
  | nil => rfl
  | cons a rest ih =>
      rw [transformEach_cons]
      simp only [Script.goal_bind, Script.goal_attempt, goal_transformSource, Except.bind,
        Except.isOk, Except.toBool, Bool.or_true, if_true, ih]
      rfl

theorem firstFailure?_map_ok (artifacts : List Artifact) :
    firstFailure? (artifacts.map (·, .ok ())) = none := by
  unfold firstFailure?
  simp

theorem conclude_map_ok (k : Recipe) (artifacts : List Artifact) :
    k.conclude (artifacts.map (·, .ok ())) = .done (.ok ()) := by
  unfold conclude
  rw [firstFailure?_map_ok]

theorem goal_transformAll (k : Recipe) (artifacts : List Artifact) :
    (k.transformAll artifacts).goal = .ok () := by
  rw [transformAll_eq]
  cases k.inParallel artifacts with
  | false =>
      simp only [Bool.false_eq_true, if_false, Script.bind, Script.goal_bind, goal_transformEach,
        Except.bind, conclude_map_ok]
      rfl
  | true =>
      simp only [if_true, Script.goal_bind, Script.goal_say, goal_transformEach, Except.bind,
        conclude_map_ok]
      rfl

theorem goal_assembleEach (k : Recipe) (plan : MergePlan) (made files : List Path) :
    (k.assembleEach plan made files).goal = .ok (made ++ files.map (assemblyObject plan)) := by
  induction files generalizing made with
  | nil => simp [assembleEach, Script.pure_def, Script.goal]
  | cons file rest ih =>
      rw [assembleEach_cons]
      simp only [Script.goal_bind, Script.goal_attempt, Script.goal_check, Except.bind, ih]
      simp

theorem goal_mergeEach (k : Recipe) (artifacts : List Artifact) :
    (k.mergeEach artifacts).goal = .ok (artifacts.map Artifact.mergedObject) := by
  induction artifacts with
  | nil => rfl
  | cons a rest ih =>
      rw [mergeEach_cons]
      simp only [Script.goal_bind, Script.goal_attempt, Script.goal_check, Except.bind,
        Script.goal_discardAll, ih]
      rfl

theorem goal_mergeAll (k : Recipe) (inputs : List Path) (target : Path) :
    (k.mergeAll inputs target).goal = .ok () := by
  rw [mergeAll_eq]
  simp only [Script.goal_bind, Script.goal_attempt, Script.goal_check, Except.bind,
    Script.goal_discardAll]

theorem goal_finish (k : Recipe) (r : Request) (plan : MergePlan) :
    (k.finish r.artifacts plan (.ok (r.assembly.map (assemblyObject plan)))).goal =
      .ok (r.finalObjects plan) := by
  cases plan with
  | perSource =>
      simp only [finish, Script.goal_bind, goal_mergeEach, Except.bind]
      rfl
  | consolidated target =>
      simp only [finish, Script.goal_bind, goal_mergeAll, Except.bind]
      rfl

/-! ## Commands of a pipeline that meets no failure -/

theorem course_checkAll (cs : List Command) : (checkAll cs).course = Script.runnable cs := by
  induction cs with
  | nil => rfl
  | cons c rest ih =>
      rw [checkAll, Script.bind_def, Script.course_bind_of_goal (Script.goal_check c),
        Script.course_check_eq, ih, ← Script.runnable_append]
      rfl

theorem course_transformSource (k : Recipe) (a : Artifact) :
    (k.transformSource a).course = Script.runnable (k.frontHalf a) := by
  rw [transformSource_eq, Script.course_bind_of_goal (Script.goal_attempt _),
    Script.course_attempt, course_checkAll, Script.course_bind_of_goal (goal_cleanUp k _),
    course_cleanUp]
  simp [Script.course]

theorem course_transformEach (k : Recipe) (toTheEnd : Bool) (artifacts : List Artifact) :
    (k.transformEach toTheEnd artifacts).course =
      Script.runnable (artifacts.flatMap k.frontHalf) := by
  induction artifacts with
  | nil => rfl
  | cons a rest ih =>
      rw [transformEach_cons, Script.course_bind_of_goal (Script.goal_attempt _),
        Script.course_attempt, course_transformSource, goal_transformSource]
      simp only [Except.isOk, Except.toBool, Bool.or_true, if_true]
      rw [Script.course_bind_of_goal (goal_transformEach k toTheEnd rest), ih]
      simp [Script.course]

theorem course_transformAll (k : Recipe) (artifacts : List Artifact) :
    (k.transformAll artifacts).course = Script.runnable (artifacts.flatMap k.frontHalf) := by
  have htail : ((k.transformEach (k.inParallel artifacts) artifacts).bind k.conclude).course =
      Script.runnable (artifacts.flatMap k.frontHalf) := by
    rw [Script.course_bind_of_goal (goal_transformEach k _ _), course_transformEach,
      conclude_map_ok]
    simp [Script.course]
  rw [transformAll_eq]
  cases hpar : k.inParallel artifacts with
  | false =>
      rw [hpar] at htail
      exact htail
  | true =>
      rw [hpar] at htail
      rw [if_pos rfl, Script.course_bind_of_goal (Script.goal_say _), Script.course_say]
      exact htail

theorem course_assembleEach (k : Recipe) (plan : MergePlan) (made files : List Path) :
    (k.assembleEach plan made files).course =
      Script.runnable (files.map fun file => k.assemble file (assemblyObject plan file)) := by
  induction files generalizing made with
  | nil => rfl
  | cons file rest ih =>
      rw [assembleEach_cons, Script.course_bind_of_goal (Script.goal_attempt _),
        Script.course_attempt, Script.course_check_eq, Script.goal_check]
      simp only [ih, ← Script.runnable_append]
      rfl

theorem course_mergeEach (k : Recipe) (artifacts : List Artifact) :
    (k.mergeEach artifacts).course =
      Script.runnable (artifacts.map fun a => k.merge a.mergeInputs a.mergedObject) := by
  induction artifacts with
  | nil => rfl
  | cons a rest ih =>
      rw [mergeEach_cons, Script.course_bind_of_goal (Script.goal_attempt _),
        Script.course_attempt, Script.course_check_eq, Script.goal_check]
      dsimp only
      rw [Script.course_bind_of_goal (Script.goal_discardAll _), Script.course_discardAll,
        Script.course_bind_of_goal (goal_mergeEach k rest), ih]
      simp only [Script.course, List.append_nil, List.nil_append, ← Script.runnable_append]
      rfl

theorem course_mergeAll (k : Recipe) (inputs : List Path) (target : Path) :
    (k.mergeAll inputs target).course = Script.runnable [k.merge inputs target] := by
  rw [mergeAll_eq, Script.course_bind_of_goal (Script.goal_attempt _),
    Script.course_attempt, Script.course_check_eq, Script.goal_check]
  dsimp only
  rw [Script.course_discardAll, List.append_nil]

theorem course_finish (k : Recipe) (r : Request) (plan : MergePlan) :
    (k.finish r.artifacts plan (.ok (r.assembly.map (assemblyObject plan)))).course =
      Script.runnable ((match plan with
        | .perSource => r.artifacts.map Step.mergeOne
        | .consolidated target => [Step.mergeAll target]).map (Step.command k r plan)) := by
  cases plan with
  | perSource =>
      simp only [finish]
      rw [Script.course_bind_of_goal (goal_mergeEach k _), course_mergeEach]
      simp [Script.course, Function.comp_def, Step.command, Artifact.mergeInputs,
        Artifact.mergedObject]
  | consolidated target =>
      simp only [finish]
      rw [Script.course_bind_of_goal (goal_mergeAll k _ _), course_mergeAll]
      simp [Script.course, Step.command, Request.looseObjects]

end Recipe

theorem Request.planArtifacts_eq {r : Request} {plan : MergePlan} {artifacts : List Artifact}
    (hplan : r.planArtifacts plan = .ok artifacts) : artifacts = r.artifacts := by
  unfold planArtifacts at hplan
  split at hplan
  · cases hplan
  · injection hplan with h
    exact h.symm

namespace Recipe

variable {k : Recipe} {r : Request} {plan : MergePlan} {artifacts : List Artifact}

theorem goal_assembled (k : Recipe) (r : Request) (plan : MergePlan) :
    (k.assembleEach plan [] r.assembly).attempt.goal =
      .ok (.ok (r.assembly.map (assemblyObject plan))) := by
  rw [Script.goal_attempt, goal_assembleEach, List.nil_append]

theorem goal_pipeline (k : Recipe) (hplan : r.planArtifacts plan = .ok artifacts) :
    (k.pipeline r plan).goal = .ok (r.finalObjects plan) := by
  rw [pipeline_of_plan k hplan, Request.planArtifacts_eq hplan]
  simp only [Script.goal_bind, goal_transformAll, goal_assembled, Except.bind, goal_finish]

theorem course_pipeline_eq (k : Recipe) (hplan : r.planArtifacts plan = .ok artifacts) :
    (k.pipeline r plan).course =
      Script.runnable ((r.steps plan).map (Step.command k r plan)) := by
  rw [pipeline_of_plan k hplan, Request.planArtifacts_eq hplan,
    Script.course_bind_of_goal (goal_transformAll k _), course_transformAll,
    Script.course_bind_of_goal (goal_assembled k r plan), Script.course_attempt,
    course_assembleEach, course_finish]
  simp only [Request.steps, List.map_append, List.map_flatMap, List.map_map,
    Script.runnable_append, List.append_assoc]
  rfl

theorem course_pipeline (hk : k.toolchain.Named) (hplan : r.planArtifacts plan = .ok artifacts) :
    (k.pipeline r plan).course = (r.steps plan).map (Step.command k r plan) := by
  rw [course_pipeline_eq k hplan, Script.runnable_of_forall]
  intro c hc
  obtain ⟨st, _, rfl⟩ := List.mem_map.mp hc
  exact st.command_isEmpty hk r plan

/-! ## Whole builds -/

theorem linkObjects_eq (k : Recipe) (objects : List Path) (output : Path)
    (linkerArgs : List String) :
    k.linkObjects objects output linkerArgs =
      if k.toolchain.sstCore then Script.say (.linkDeferred output)
      else (Script.check (k.link objects output linkerArgs)).bind fun _ =>
        if k.flags.positionIndependent then Script.check (k.archive objects output linkerArgs)
        else .done (.ok ()) := rfl

theorem goal_linkObjects (k : Recipe) (objects : List Path) (output : Path)
    (linkerArgs : List String) : (k.linkObjects objects output linkerArgs).goal = .ok () := by
  rw [linkObjects_eq]
  split
  · rfl
  · rw [Script.goal_bind, Script.goal_check]
    simp only [Except.bind]
    split
    · exact Script.goal_check _
    · rfl

theorem course_linkObjects (hk : k.toolchain.Named) (r : Request) (plan : MergePlan)
    (output : Path) :
    (k.linkObjects (r.finalObjects plan ++ r.objects) output r.linkerArgs).course =
      (k.linkSteps output).map (Step.command k r plan) := by
  have hlink := (Step.link output).command_isEmpty hk r plan
  have harchive := (Step.archive output).command_isEmpty hk r plan
  simp only [Step.command] at hlink harchive
  rw [linkObjects_eq, linkSteps]
  split
  · rfl
  · rw [Script.course_bind_of_goal (Script.goal_check _), Script.course_check hlink]
    split
    · rw [Script.course_check harchive]
      rfl
    · rfl

theorem transformAndLink_eq (k : Recipe) (r : Request) (output : Path) (plan : MergePlan) :
    k.transformAndLink r output plan = (k.pipeline r plan).bind fun merged =>
      (k.linkObjects (merged ++ r.objects) output r.linkerArgs).attempt.bind fun result =>
        (if !k.toolchain.sstCore then k.cleanUp merged else .done (.ok ())).bind fun _ =>
          .done result := by
  unfold transformAndLink
  cases k.toolchain.sstCore <;> rfl

def useMerged (k : Recipe) (r : Request) : BuildPath → List Path → Script Unit
  | .transformLink output _, merged =>
      (k.linkObjects (merged ++ r.objects) output r.linkerArgs).attempt.bind fun result =>
        (if !k.toolchain.sstCore then k.cleanUp merged else .done (.ok ())).bind fun _ =>
          .done result
  | _, _ => .done (.ok ())

def laterSteps (k : Recipe) : BuildPath → List Step
  | .transformLink output _ => k.linkSteps output
  | _ => []

theorem follow_of_plan (k : Recipe) (r : Request) {path : BuildPath}
    (hpath : path.plan? = some plan) :
    k.follow r path = (k.pipeline r plan).bind (k.useMerged r path) := by
  cases path with
  | transformCompile _ =>
      cases hpath
      rfl
  | transformLink output _ =>
      cases hpath
      exact transformAndLink_eq k r output plan
  | preprocess => cases hpath
  | directCompile => cases hpath
  | linkOnly output => cases hpath
  | allInOne => cases hpath

theorem schedule_of_plan (k : Recipe) (r : Request) {path : BuildPath}
    (hpath : path.plan? = some plan) :
    k.schedule r path = r.steps plan ++ k.laterSteps path := by
  cases path with
  | transformCompile _ =>
      cases hpath
      exact (List.append_nil _).symm
  | transformLink output _ =>
      cases hpath
      rfl
  | preprocess => cases hpath
  | directCompile => cases hpath
  | linkOnly output => cases hpath
  | allInOne => cases hpath

theorem goal_useMerged (k : Recipe) (r : Request) (path : BuildPath) (merged : List Path) :
    (k.useMerged r path merged).goal = .ok () := by
  unfold useMerged
  split
  · have hclean : (if !k.toolchain.sstCore then k.cleanUp merged else .done (.ok ())).goal =
        .ok () := by
      split
      · exact goal_cleanUp k merged
      · rfl
    rw [Script.goal_bind, Script.goal_attempt, goal_linkObjects]
    simp only [Except.bind]
    rw [Script.goal_bind, hclean]
    rfl
  · rfl

theorem course_useMerged (hk : k.toolchain.Named) (r : Request) (plan : MergePlan)
    (path : BuildPath) :
    (k.useMerged r path (r.finalObjects plan)).course =
      (k.laterSteps path).map (Step.command k r plan) := by
  unfold useMerged laterSteps
  split
  · rw [Script.course_bind_of_goal (Script.goal_attempt _), Script.course_attempt,
      course_linkObjects hk]
    split <;> simp [Script.course, Script.course_bind_of_goal (goal_cleanUp k _), Script.bind]
  · rename_i hother
    split
    · rename_i output _
      exact absurd rfl (hother output _)
    · rfl

theorem goal_follow (k : Recipe) {path : BuildPath} (hpath : path.plan? = some plan)
    (hplan : r.planArtifacts plan = .ok artifacts) : (k.follow r path).goal = .ok () := by
  rw [follow_of_plan k r hpath, Script.goal_bind, goal_pipeline k hplan]
  exact goal_useMerged k r path _

theorem course_follow (hk : k.toolchain.Named) {path : BuildPath} (hpath : path.plan? = some plan)
    (hplan : r.planArtifacts plan = .ok artifacts) :
    (k.follow r path).course = (k.schedule r path).map (Step.command k r plan) := by
  rw [follow_of_plan k r hpath, Script.course_bind_of_goal (goal_pipeline k hplan),
    course_pipeline hk hplan, course_useMerged hk, schedule_of_plan k r hpath, List.map_append]

theorem follow_of_clash (k : Recipe) {path : BuildPath} (hpath : path.plan? = some plan)
    {e : Failure} (hplan : r.planArtifacts plan = .error e) :
    k.follow r path = .done (.error e) := by
  rw [follow_of_plan k r hpath, pipeline_of_clash k hplan]
  rfl

end Recipe

theorem Invocation.carryOut_build (t : Toolchain) (r : Request) (home : Option Path) :
    (Invocation.build r).carryOut t home =
      .note (.buildPath (BuildPath.select t r))
        (((Recipe.ofRequest t r).follow r (BuildPath.select t r)).bind fun _ =>
          .done (.ok 0)) := rfl

theorem Invocation.course_carryOut_build {t : Toolchain} {r : Request}
    (hgoal : ((Recipe.ofRequest t r).follow r (BuildPath.select t r)).goal = .ok ())
    (home : Option Path) :
    ((Invocation.build r).carryOut t home).goal = .ok 0 ∧
      ((Invocation.build r).carryOut t home).course =
        ((Recipe.ofRequest t r).follow r (BuildPath.select t r)).course := by
  rw [carryOut_build]
  constructor
  · rw [Script.goal, Script.goal_bind, hgoal]
    rfl
  · rw [Script.course, Script.course_bind_of_goal hgoal, Script.course, List.append_nil]

namespace BuildPath

theorem transforms_iff_plan? (path : BuildPath) :
    path.transforms = true ↔ ∃ plan, path.plan? = some plan := by
  cases path <;> simp [transforms, plan?]

theorem transforms_select (t : Toolchain) (r : Request) :
    (select t r).transforms = true ↔
      "-E" ∉ r.controlArgs ∧ 0 < r.sources.length ∧
        t.toggles.sourceToSource = true ∧ t.tool?.isSome = true := by
  have hsources : r.hasSources = true ↔ 0 < r.sources.length := by
    cases hs : r.sources <;> simp [Request.hasSources, hs]
  have hactive : t.transforms = true ↔
      t.toggles.sourceToSource = true ∧ t.tool?.isSome = true := by
    simp [Toolchain.transforms]
  have hpreprocess : r.preprocessOnly = true ↔ "-E" ∈ r.controlArgs :=
    List.contains_iff_mem
  rw [← hsources, ← hactive, ← hpreprocess]
  unfold select
  cases r.preprocessOnly <;> cases r.compileOnly <;> cases r.hasSources <;>
    cases t.transforms <;> cases r.objectTarget?.isSome <;> simp [transforms]

end BuildPath

/-- A build takes a path with the transform exactly for sources that are not merely preprocessed
while the transform is on and there. Unless planning refuses it, its commands are those of the
path's schedule, in that order and nothing else, when each of them succeeds. -/
theorem commands_eq_schedule {σ : Type} (t : Toolchain) (ht : t.Named) (r : Request)
    (home : Option Path) (h : Host σ) (hok : ∀ c s, (h.exec c s).1 = .exited 0) (s : σ) :
    let k := Recipe.ofRequest t r
    let path := BuildPath.select t r
    let run := ((Invocation.build r).carryOut t home).run h s
    (path.transforms = true ↔ "-E" ∉ r.controlArgs ∧ 0 < r.sources.length ∧
      t.toggles.sourceToSource = true ∧ t.tool?.isSome = true) ∧
    (path.transforms = true → ∃ plan, path.plan? = some plan ∧
      match r.planArtifacts plan with
      | .error e => run.commands = [] ∧ run.discards = [] ∧ run.result = .error e
      | .ok _ => run.commands.map Prod.fst = (k.schedule r path).map (Step.command k r plan) ∧
          run.result = .ok 0) := by
  intro k path run
  refine ⟨BuildPath.transforms_select t r, fun htransforms => ?_⟩
  obtain ⟨plan, hpath⟩ := path.transforms_iff_plan?.mp htransforms
  refine ⟨plan, hpath, ?_⟩
  cases hplan : r.planArtifacts plan with
  | error e =>
      have hfollow := Recipe.follow_of_clash k hpath hplan
      simp only [run, Invocation.carryOut_build]
      rw [hfollow]
      exact ⟨rfl, rfl, rfl⟩
  | ok artifacts =>
      obtain ⟨hcommands, hresult⟩ :=
        Script.run_of_success hok ((Invocation.build r).carryOut t home) s
      have hgoal := Recipe.goal_follow k hpath hplan
      refine ⟨hcommands.trans ?_, hresult.trans ?_⟩
      · rw [Invocation.carryOut_build, Script.course, Script.course_bind_of_goal hgoal,
          Recipe.course_follow ht hpath hplan, Script.course, List.append_nil]
      · rw [Invocation.carryOut_build, Script.goal, Script.goal_bind, hgoal]
        rfl

def Host.willing : Host Unit where
  exec := fun _ s => (.exited 0, s)
  unlink := fun _ s => (.removed, s)

theorem commands_eq_schedule_sample :
    let k := Recipe.ofRequest .sample .sample
    let path := BuildPath.transformLink ⟨"out/prog"⟩ (.consolidated ⟨"out/sstmerged.prog.o"⟩)
    let run := ((Invocation.build .sample).carryOut .sample none).run Host.willing ()
    Toolchain.sample.Named ∧ (∀ c s, (Host.willing.exec c s).1 = .exited 0) ∧
      run.commands.map Prod.fst = (k.schedule .sample path).map
        (Step.command k .sample (.consolidated ⟨"out/sstmerged.prog.o"⟩)) ∧
      (k.schedule .sample path).length = 16 ∧ run.result = .ok 0 := by
  intro k path run
  have hok : ∀ c s, (Host.willing.exec c s).1 = .exited 0 := fun _ _ => rfl
  have hselect : BuildPath.select .sample .sample = path := by decide
  have hall := commands_eq_schedule .sample Toolchain.named_sample .sample none Host.willing hok ()
  simp only [hselect] at hall
  obtain ⟨plan, hplan, htrace⟩ := hall.2 rfl
  cases hplan
  have haccepted : (Request.sample.planArtifacts
      (.consolidated ⟨"out/sstmerged.prog.o"⟩)).isOk = true := by decide
  cases hartifacts : Request.sample.planArtifacts (.consolidated ⟨"out/sstmerged.prog.o"⟩) with
  | error e =>
      rw [hartifacts] at haccepted
      cases haccepted
  | ok artifacts =>
      rw [hartifacts] at htrace
      exact ⟨Toolchain.named_sample, hok, htrace.1, by decide, htrace.2⟩

end Deglobal
