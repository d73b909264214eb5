import Deglobal.Proofs.Pipeline.Trace
import Deglobal.Proofs.Script.Disk

/-! # The effects of the pipeline

For each function of the pipeline: the commands it may issue, the files it may
discard and what it may come to, whatever the commands answer. From this its
frame is read off, the region of files that it leaves everything else outside of
unchanged.
-/

namespace Deglobal

namespace Recipe

def tasks (k : Recipe) (r : Request) (plan : MergePlan) (steps : List Step) : List Task :=
  steps.map fun st => (st.command k r plan, st.writes plan)

/-- Results are those of the first sources, and of all of them if none of the results is a
failure. -/
def Covers (artifacts : List Artifact) (results : List (Artifact × Except Failure Unit)) : Prop :=
  results.map Prod.fst <+: artifacts ∧
    (firstFailure? results = none → results.map Prod.fst = artifacts)

theorem firstFailure?_eq_none {results : List (Artifact × Except Failure Unit)}
    (hnone : firstFailure? results = none) {x : Artifact × Except Failure Unit}
    (hx : x ∈ results) : x.2 = .ok () := by
  have hx := List.findSome?_eq_none_iff.mp hnone x hx
  obtain ⟨a, result⟩ := x
  cases result with
  | ok _ => rfl
  | error e => cases hx

theorem Covers.mem_of_none {artifacts : List Artifact}
    {results : List (Artifact × Except Failure Unit)} (hcovers : Covers artifacts results)
    (hnone : firstFailure? results = none) {a : Artifact} (ha : a ∈ artifacts) :
    (a, .ok ()) ∈ results := by
  rw [← hcovers.2 hnone] at ha
  obtain ⟨x, hx, rfl⟩ := List.mem_map.mp ha
  rw [← firstFailure?_eq_none hnone hx]
  exact hx

theorem Covers.completed_subset {artifacts : List Artifact}
    {results : List (Artifact × Except Failure Unit)} (hcovers : Covers artifacts results) :
    completed results ⊆ artifacts := by
  intro a ha
  obtain ⟨x, hx, rfl⟩ := List.mem_map.mp ha
  exact List.IsPrefix.subset hcovers.1 (List.mem_map_of_mem (List.mem_of_mem_filter hx))

theorem spent_subset (a : Artifact) (result : Except Failure Unit) :
    spent a result ⊆ a.intermediates := by
  cases result with
  | ok _ => exact List.subset_append_left a.sourceFiles a.mergeInputs
  | error e => exact List.Subset.refl _

/-! ## Commands, removals and results -/

section Always

variable {P : Command → Prop} {Q : Path → Prop}

theorem always_cleanUp (k : Recipe) {files : List Path}
    (hQ : k.deletesTemps = true → ∀ p ∈ files, Q p) :
    (k.cleanUp files).Always P Q (· = .ok ()) := by
  unfold cleanUp
  split
  · exact Script.always_discardAll (hQ ‹_›)
  · rfl

theorem always_fail_after_cleanUp {α : Type} (k : Recipe) {files : List Path}
    (hQ : k.deletesTemps = true → ∀ p ∈ files, Q p) (e : Failure) :
    ((k.cleanUp files).bind fun _ => (Script.fail e : Script α)).Always P Q (· = .error e) :=
  (k.always_cleanUp hQ).bind (fun _ _ => rfl) (fun _ h => by cases h)

theorem always_checkAll {cs : List Command} (hP : ∀ c ∈ cs, P c) :
    (checkAll cs).Always P Q fun _ => True := by
  induction cs with
  | nil => trivial
  | cons c rest ih =>
      refine (Script.always_check (hP c List.mem_cons_self)).bind (fun _ _ => ?_)
        (fun _ _ => trivial)
      exact ih fun c' hc' => hP c' (List.mem_cons_of_mem c hc')

theorem always_transformSource {k : Recipe} {a : Artifact} (hP : ∀ c ∈ k.frontHalf a, P c)
    (hQ : k.deletesTemps = true → ∀ p ∈ a.intermediates, Q p) :
    (k.transformSource a).Always P Q fun _ => True := by
  rw [transformSource_eq]
  refine (always_checkAll hP).attempt_bind fun result _ => ?_
  have hspent : k.deletesTemps = true → ∀ p ∈ spent a result, Q p :=
    fun hdelete p hp => hQ hdelete p (spent_subset a result hp)
  exact (k.always_cleanUp hspent).bind (fun _ _ => trivial) (fun _ h => by cases h)

theorem always_transformEach {k : Recipe} {artifacts : List Artifact} (toTheEnd : Bool)
    (hP : ∀ a ∈ artifacts, ∀ c ∈ k.frontHalf a, P c)
    (hQ : k.deletesTemps = true → ∀ a ∈ artifacts, ∀ p ∈ a.intermediates, Q p) :
    (k.transformEach toTheEnd artifacts).Always P Q
      fun result => ∃ results, result = .ok results ∧ Covers artifacts results := by
  induction artifacts with
  | nil => exact ⟨[], rfl, List.nil_prefix, fun _ => rfl⟩
  | cons a rest ih =>
      rw [transformEach_cons]
      have hsource := always_transformSource (hP a List.mem_cons_self)
        fun hdelete => hQ hdelete a List.mem_cons_self
      refine hsource.attempt_bind fun result _ => ?_
      split
      · have hrest := ih (fun b hb => hP b (List.mem_cons_of_mem a hb))
          (fun hdelete b hb => hQ hdelete b (List.mem_cons_of_mem a hb))
        refine hrest.bind (fun others hothers => ?_) (fun e he => ?_)
        · obtain ⟨results, heq, hbegin, hall⟩ := hothers
          cases heq
          refine ⟨(a, result) :: others, rfl, ?_, fun hnone => ?_⟩
          · exact List.cons_prefix_cons.mpr ⟨rfl, hbegin⟩
          · cases result with
            | ok _ => exact congrArg (a :: ·) (hall hnone)
            | error e => cases hnone
        · obtain ⟨results, heq, _⟩ := he
          cases heq
      · rename_i hstop
        refine ⟨[(a, result)], rfl, ?_, fun hnone => ?_⟩
        · exact List.cons_prefix_cons.mpr ⟨rfl, List.nil_prefix⟩
        · cases result with
          | ok _ => exact absurd (Bool.or_true toTheEnd) hstop
          | error e => cases hnone

theorem always_conclude (k : Recipe) {results : List (Artifact × Except Failure Unit)}
    (hQ : k.deletesTemps = true →
      ∀ p ∈ (completed results).flatMap Artifact.mergeInputs, Q p) :
    (k.conclude results).Always P Q fun result =>
      result = match firstFailure? results with
        | none => .ok ()
        | some e => .error e := by
  unfold conclude
  cases firstFailure? results with
  | none => rfl
  | some e => exact k.always_fail_after_cleanUp hQ e

theorem always_announce (announced : Bool) (n : Notice) :
    (if announced then Script.say n else .done (.ok ())).Always P Q (· = .ok ()) := by
  cases announced <;> rfl

theorem always_transformAll {k : Recipe} {artifacts : List Artifact}
    (hP : ∀ a ∈ artifacts, ∀ c ∈ k.frontHalf a, P c)
    (hQ : k.deletesTemps = true → ∀ a ∈ artifacts, ∀ p ∈ a.intermediates, Q p) :
    (k.transformAll artifacts).Always P Q fun _ => True := by
  rw [transformAll_eq]
  refine (always_announce _ _).bind (fun _ _ => ?_) (fun _ _ => trivial)
  refine (always_transformEach _ hP hQ).bind (fun results hresults => ?_) (fun _ _ => trivial)
  obtain ⟨_, heq, hcovers⟩ := hresults
  cases heq
  refine (k.always_conclude fun hdelete p hp => ?_).mono (fun _ h => h) (fun _ h => h)
    (fun _ _ => trivial)
  obtain ⟨a, ha, hp⟩ := List.mem_flatMap.mp hp
  exact hQ hdelete a (hcovers.completed_subset ha) p (List.mem_append_right a.sourceFiles hp)

theorem always_assembleEach {k : Recipe} {plan : MergePlan} {made files : List Path}
    (hP : ∀ file ∈ files, P (k.assemble file (assemblyObject plan file)))
    (hQ : plan.target?.isSome = true → k.deletesTemps = true →
      ∀ p ∈ made ++ files.map (assemblyObject plan), Q p) :
    (k.assembleEach plan made files).Always P Q fun result => ∀ objects, result = .ok objects →
      objects = made ++ files.map (assemblyObject plan) := by
  induction files generalizing made with
  | nil =>
      intro objects heq
      cases heq
      simp
  | cons file rest ih =>
      rw [assembleEach_cons]
      refine (Script.always_check (hP file List.mem_cons_self)).attempt_bind fun result _ => ?_
      have hmade : made ++ (file :: rest).map (assemblyObject plan) =
          (made ++ [assemblyObject plan file]) ++ rest.map (assemblyObject plan) := by simp
      cases result with
      | ok _ =>
          rw [hmade] at hQ ⊢
          exact ih (fun f hf => hP f (List.mem_cons_of_mem file hf)) hQ
      | error e =>
          have herror : ∀ result : Except Failure (List Path), result = .error e →
              ∀ objects, result = .ok objects →
                objects = made ++ (file :: rest).map (assemblyObject plan) := by
            intro result hresult objects heq
            cases hresult.symm.trans heq
          dsimp only
          split
          · rename_i hconsolidated
            exact (k.always_fail_after_cleanUp
              (fun hdelete p hp => hQ hconsolidated hdelete p (List.mem_append_left _ hp))
              e).mono (fun _ h => h) (fun _ h => h) herror
          · exact herror _ rfl

theorem always_mergeEach {k : Recipe} {artifacts : List Artifact}
    (hP : ∀ a ∈ artifacts, P (k.merge a.mergeInputs a.mergedObject))
    (hQ : ∀ a ∈ artifacts, ∀ p ∈ a.mergeInputs, Q p) :
    (k.mergeEach artifacts).Always P Q fun result => ∀ objects, result = .ok objects →
      objects = artifacts.map Artifact.mergedObject := by
  induction artifacts with
  | nil =>
      intro objects heq
      cases heq
      rfl
  | cons a rest ih =>
      rw [mergeEach_cons]
      refine (Script.always_check (hP a List.mem_cons_self)).attempt_bind fun result _ => ?_
      cases result with
      | ok _ =>
          refine (Script.always_discardAll (hQ a List.mem_cons_self)).bind (fun _ _ => ?_)
            (fun _ h => by cases h)
          have hrest := ih (fun b hb => hP b (List.mem_cons_of_mem a hb))
            (fun b hb => hQ b (List.mem_cons_of_mem a hb))
          refine hrest.bind (fun others hothers objects heq => ?_) (fun e _ objects heq => ?_)
          · cases heq
            exact congrArg (a.mergedObject :: ·) (hothers others rfl)
          · cases heq
      | error e =>
          have hinputs : ∀ p ∈ (a :: rest).flatMap Artifact.mergeInputs, Q p := by
            intro p hp
            obtain ⟨b, hb, hp⟩ := List.mem_flatMap.mp hp
            exact hQ b hb p hp
          refine (k.always_fail_after_cleanUp (fun _ => hinputs) e).mono (fun _ h => h)
            (fun _ h => h) ?_
          intro result hresult objects heq
          cases hresult.symm.trans heq

theorem always_mergeAll {k : Recipe} {inputs : List Path} {target : Path}
    (hP : P (k.merge inputs target)) (hQ : ∀ p ∈ inputs, Q p) :
    (k.mergeAll inputs target).Always P Q fun _ => True := by
  rw [mergeAll_eq]
  refine (Script.always_check hP).attempt_bind fun result _ => ?_
  cases result with
  | ok _ =>
      exact (Script.always_discardAll hQ).mono (fun _ h => h) (fun _ h => h) fun _ _ => trivial
  | error e =>
      exact (k.always_fail_after_cleanUp (fun _ => hQ) e).mono (fun _ h => h) (fun _ h => h)
        fun _ _ => trivial

end Always

theorem looseObjects_subset (r : Request) (plan : MergePlan) : r.looseObjects plan ⊆
    r.artifacts.flatMap (Artifact.produced plan) ++ r.assembly.map (assemblyObject plan) := by
  intro p hp
  rcases List.mem_append.mp hp with hp | hp
  · obtain ⟨a, ha, hp⟩ := List.mem_flatMap.mp hp
    refine List.mem_append_left _ (List.mem_flatMap.mpr ⟨a, ha, ?_⟩)
    exact Request.mergeInputs_subset a hp
  · exact List.mem_append_right _ hp

/-! ## Frames -/

section Frames

variable {σ : Type} {disk : σ → Disk} {h : Host σ} {k : Recipe} {r : Request} {plan : MergePlan}
  {steps : List Step}

theorem mem_tasks {st : Step} (hst : st ∈ steps) :
    (st.command k r plan, st.writes plan) ∈ k.tasks r plan steps := List.mem_map_of_mem hst

theorem ofSource_subset {a : Artifact} (ha : a ∈ r.artifacts) :
    Step.ofSource a ⊆ r.steps plan := by
  intro st hst
  refine List.mem_append_left _ (List.mem_append_left _ ?_)
  exact List.mem_flatMap.mpr ⟨a, ha, hst⟩

theorem assemble_mem_steps {file : Path} (hfile : file ∈ r.assembly) :
    Step.assemble file ∈ r.steps plan :=
  List.mem_append_left _ (List.mem_append_right _ (List.mem_map_of_mem hfile))

theorem mergeOne_mem_steps {a : Artifact} (ha : a ∈ r.artifacts) :
    Step.mergeOne a ∈ r.steps .perSource :=
  List.mem_append_right _ (List.mem_map_of_mem ha)

theorem mergeAll_mem_steps (r : Request) (target : Path) :
    Step.mergeAll target ∈ r.steps (.consolidated target) :=
  List.mem_append_right _ List.mem_cons_self

theorem locations_writes_subset {a : Artifact} (ha : a ∈ r.artifacts) {st : Step}
    (hst : st ∈ Step.ofSource a) :
    Path.locations (st.writes plan) ⊆ Path.locations a.intermediates := by
  simp only [Step.ofSource, List.mem_cons, List.not_mem_nil, or_false] at hst
  rcases hst with rfl | rfl | rfl | rfl
  · exact Path.locations_subset (by simp [Step.writes, Artifact.intermediates,
      Artifact.sourceFiles])
  · obtain ⟨htransformed, hcompanion⟩ := Request.besides_same ha
    unfold Path.Same at htransformed hcompanion
    simp only [Step.writes, Path.locations_cons, htransformed, hcompanion, Path.locations_nil]
    simp [Artifact.intermediates, Artifact.sourceFiles]
  · exact Path.locations_subset (by simp [Step.writes, Artifact.intermediates,
      Artifact.mergeInputs])
  · exact Path.locations_subset (by simp [Step.writes, Artifact.intermediates,
      Artifact.mergeInputs])

theorem task_of_frontHalf (hsteps : r.steps plan ⊆ steps) {a : Artifact} (ha : a ∈ r.artifacts)
    {c : Command} (hc : c ∈ k.frontHalf a) : ∃ files, (c, files) ∈ k.tasks r plan steps ∧
      Path.locations files ⊆ Path.locations a.intermediates := by
  rw [frontHalf_eq k r plan a] at hc
  obtain ⟨st, hst, rfl⟩ := List.mem_map.mp hc
  exact ⟨st.writes plan, mem_tasks (hsteps (ofSource_subset ha hst)),
    locations_writes_subset ha hst⟩

theorem task_of_frontHalves (hsteps : r.steps plan ⊆ steps) {artifacts : List Artifact}
    (hsub : artifacts ⊆ r.artifacts) {c : Command} (hc : ∃ a ∈ artifacts, c ∈ k.frontHalf a) :
    ∃ files, (c, files) ∈ k.tasks r plan steps ∧
      Path.locations files ⊆ Path.locations (artifacts.flatMap Artifact.intermediates) := by
  obtain ⟨a, ha, hc⟩ := hc
  obtain ⟨files, htask, hfiles⟩ := task_of_frontHalf hsteps (hsub ha) hc
  refine ⟨files, htask, fun l hl => ?_⟩
  exact Path.locations_subset (fun p hp => List.mem_flatMap.mpr ⟨a, ha, hp⟩) (hfiles hl)

/-- Cleaning up issues no command and changes only what it removes. -/
theorem within_cleanUp {each : Command → σ → Prop} {tasks : List Task}
    (horderly : Orderly disk h tasks) (k : Recipe) (files : List Path) (m : Moment σ) :
    (k.cleanUp files).Ensures h each
      (fun result m' => result = .ok () ∧ Within disk (Path.locations files) m m') m := by
  unfold cleanUp
  split
  · exact Script.within_discardAll horderly files m
  · exact ⟨rfl, Within.refl m⟩

theorem within_announce {each : Command → σ → Prop} {tasks : List Task}
    (horderly : Orderly disk h tasks) (announced : Bool) (n : Notice) (m : Moment σ) :
    (if announced then Script.say n else .done (.ok ())).Ensures h each (fun result m' =>
      result = .ok () ∧ Within disk [] m m' ∧ m'.issued = m.issued) m := by
  cases announced with
  | true => exact ⟨rfl, horderly.within_heard (.noted n) m, rfl⟩
  | false => exact ⟨rfl, Within.refl m, rfl⟩

variable (hsteps : r.steps plan ⊆ steps) (horderly : Orderly disk h (k.tasks r plan steps))

include hsteps horderly

theorem within_transformSource {a : Artifact} (ha : a ∈ r.artifacts) (m : Moment σ) :
    (k.transformSource a).Ensures h (fun _ _ => True)
      (fun _ m' => Within disk (Path.locations a.intermediates) m m') m := by
  have halways : (k.transformSource a).Always (· ∈ k.frontHalf a) (· ∈ a.intermediates)
      fun _ => True := always_transformSource (fun _ h => h) (fun _ _ h => h)
  exact (halways.within horderly (fun _ _ _ => trivial) (fun c hc => task_of_frontHalf hsteps ha hc)
    (fun p hp => Path.mem_locations hp) m).mono fun _ _ hend => hend.2

theorem within_transformEach {artifacts : List Artifact} (hsub : artifacts ⊆ r.artifacts)
    (toTheEnd : Bool) (m : Moment σ) :
    (k.transformEach toTheEnd artifacts).Ensures h (fun _ _ => True) (fun result m' =>
      (∃ results, result = .ok results ∧ Covers artifacts results) ∧
        Within disk (Path.locations (artifacts.flatMap Artifact.intermediates)) m m') m := by
  have halways : (k.transformEach toTheEnd artifacts).Always
      (fun c => ∃ a ∈ artifacts, c ∈ k.frontHalf a)
      (· ∈ artifacts.flatMap Artifact.intermediates)
      fun result => ∃ results, result = .ok results ∧ Covers artifacts results :=
    always_transformEach toTheEnd (fun a ha c hc => ⟨a, ha, hc⟩)
      (fun _ a ha p hp => List.mem_flatMap.mpr ⟨a, ha, hp⟩)
  exact halways.within horderly (fun _ _ _ => trivial)
    (fun c hc => task_of_frontHalves hsteps hsub hc) (fun p hp => Path.mem_locations hp) m

theorem within_transformAll (m : Moment σ) :
    (k.transformAll r.artifacts).Ensures h (fun _ _ => True) (fun _ m' =>
      Within disk (Path.locations (r.artifacts.flatMap Artifact.intermediates)) m m') m := by
  have halways : (k.transformAll r.artifacts).Always
      (fun c => ∃ a ∈ r.artifacts, c ∈ k.frontHalf a)
      (· ∈ r.artifacts.flatMap Artifact.intermediates) fun _ => True :=
    always_transformAll (fun a ha c hc => ⟨a, ha, hc⟩)
      (fun _ a ha p hp => List.mem_flatMap.mpr ⟨a, ha, hp⟩)
  exact (halways.within horderly (fun _ _ _ => trivial)
    (fun c hc => task_of_frontHalves hsteps (List.Subset.refl _) hc)
    (fun p hp => Path.mem_locations hp) m).mono fun _ _ hend => hend.2

theorem within_assembleEach {made files : List Path} (hsub : files ⊆ r.assembly) (m : Moment σ) :
    (k.assembleEach plan made files).Ensures h (fun _ _ => True) (fun result m' =>
      (∀ objects, result = .ok objects → objects = made ++ files.map (assemblyObject plan)) ∧
        Within disk (Path.locations (made ++ files.map (assemblyObject plan))) m m') m := by
  have halways : (k.assembleEach plan made files).Always
      (fun c => ∃ file ∈ files, c = k.assemble file (assemblyObject plan file))
      (· ∈ made ++ files.map (assemblyObject plan))
      fun result => ∀ objects, result = .ok objects →
        objects = made ++ files.map (assemblyObject plan) :=
    always_assembleEach (fun file hfile => ⟨file, hfile, rfl⟩) (fun _ _ _ h => h)
  refine halways.within horderly (fun _ _ _ => trivial) (fun c hc => ?_)
    (fun p hp => Path.mem_locations hp) m
  obtain ⟨file, hfile, rfl⟩ := hc
  refine ⟨[assemblyObject plan file], mem_tasks (hsteps (assemble_mem_steps (hsub hfile))), ?_⟩
  refine Path.locations_subset fun p hp => List.mem_append_right _ ?_
  rw [List.mem_singleton.mp hp]
  exact List.mem_map_of_mem hfile

end Frames

section Merges

variable {σ : Type} {disk : σ → Disk} {h : Host σ} {k : Recipe} {r : Request} {steps : List Step}

theorem within_mergeEach (hsteps : r.steps .perSource ⊆ steps)
    (horderly : Orderly disk h (k.tasks r .perSource steps)) {artifacts : List Artifact}
    (hsub : artifacts ⊆ r.artifacts) (m : Moment σ) :
    (k.mergeEach artifacts).Ensures h (fun _ _ => True) (fun result m' =>
      (∀ objects, result = .ok objects → objects = artifacts.map Artifact.mergedObject) ∧
        Within disk (Path.locations (artifacts.flatMap Artifact.mergeFiles)) m m') m := by
  have halways : (k.mergeEach artifacts).Always
      (fun c => ∃ a ∈ artifacts, c = k.merge a.mergeInputs a.mergedObject)
      (· ∈ artifacts.flatMap Artifact.mergeFiles)
      fun result => ∀ objects, result = .ok objects →
        objects = artifacts.map Artifact.mergedObject :=
    always_mergeEach (fun a ha => ⟨a, ha, rfl⟩)
      (fun a ha p hp => List.mem_flatMap.mpr ⟨a, ha, List.mem_append_left _ hp⟩)
  refine halways.within horderly (fun _ _ _ => trivial) (fun c hc => ?_)
    (fun p hp => Path.mem_locations hp) m
  obtain ⟨a, ha, rfl⟩ := hc
  refine ⟨[a.mergedObject], mem_tasks (hsteps (mergeOne_mem_steps (hsub ha))), ?_⟩
  refine Path.locations_subset fun p hp => List.mem_flatMap.mpr ⟨a, ha, ?_⟩
  exact List.mem_append_right _ hp

theorem within_mergeAll {target : Path} (hsteps : r.steps (.consolidated target) ⊆ steps)
    (horderly : Orderly disk h (k.tasks r (.consolidated target) steps)) (m : Moment σ) :
    (k.mergeAll (r.looseObjects (.consolidated target)) target).Ensures h (fun _ _ => True)
      (fun _ m' => Within disk
        (Path.locations (r.looseObjects (.consolidated target) ++ [target])) m m') m := by
  have halways : (k.mergeAll (r.looseObjects (.consolidated target)) target).Always
      (· = k.merge (r.looseObjects (.consolidated target)) target)
      (· ∈ r.looseObjects (.consolidated target)) fun _ => True :=
    always_mergeAll rfl (fun _ h => h)
  refine (halways.within horderly (fun _ _ _ => trivial) (fun c hc => ?_) (fun p hp => ?_) m).mono
    fun _ _ hend => hend.2
  · subst hc
    refine ⟨[target], mem_tasks (hsteps (mergeAll_mem_steps r target)), ?_⟩
    exact Path.locations_subset (List.subset_append_right _ _)
  · exact Path.mem_locations (List.mem_append_left _ hp)

end Merges

end Recipe

/-! ## Whole builds -/

namespace Request

def mergedAssembly (r : Request) : MergePlan → List Path
  | .perSource => []
  | .consolidated target => r.assembly.map (assemblyObject (.consolidated target))

/-- The files that a pipeline has no more use for when it ends. -/
def transients (r : Request) (plan : MergePlan) : List Path :=
  r.artifacts.flatMap Artifact.intermediates ++ r.mergedAssembly plan

end Request

namespace Recipe

/-- What a pipeline does once every source has been taken to its objects. -/
def backHalf (k : Recipe) (r : Request) (plan : MergePlan) : Script (List Path) :=
  (k.assembleEach plan [] r.assembly).attempt.bind (k.finish r.artifacts plan)

section Whole

variable {P : Command → Prop} {Q : Path → Prop} {k : Recipe} {r : Request} {plan : MergePlan}

theorem pipeline_eq_backHalf (k : Recipe) {artifacts : List Artifact}
    (hplan : r.planArtifacts plan = .ok artifacts) :
    k.pipeline r plan = (k.transformAll r.artifacts).bind fun _ => k.backHalf r plan := by
  rw [pipeline_of_plan k hplan, Request.planArtifacts_eq hplan]
  rfl

theorem always_finish (hP : ∀ st ∈ r.backSteps plan, P (st.command k r plan))
    (hinputs : ∀ p ∈ r.artifacts.flatMap Artifact.mergeInputs, Q p)
    (hassembly : ∀ p ∈ r.mergedAssembly plan, Q p) {assembled : Except Failure (List Path)}
    (hassembled : ∀ objects, assembled = .ok objects →
      objects = r.assembly.map (assemblyObject plan)) :
    (k.finish r.artifacts plan assembled).Always P Q fun result => ∀ objects,
      result = .ok objects → objects = r.finalObjects plan := by
  cases assembled with
  | error e =>
      have hfail := k.always_fail_after_cleanUp (α := List Path) (P := P) (fun _ => hinputs) e
      apply hfail.mono (fun _ h => h) (fun _ h => h)
      intro result hresult objects heq
      cases hresult.symm.trans heq
  | ok assembled =>
      have hmade := hassembled assembled rfl
      cases plan with
      | perSource =>
          have hmerge : ∀ a ∈ r.artifacts, P (k.merge a.mergeInputs a.mergedObject) :=
            fun a ha => hP (.mergeOne a) (List.mem_append_right _ (List.mem_map_of_mem ha))
          have hobjects : ∀ a ∈ r.artifacts, ∀ p ∈ a.mergeInputs, Q p :=
            fun a ha p hp => hinputs p (List.mem_flatMap.mpr ⟨a, ha, hp⟩)
          refine (always_mergeEach hmerge hobjects).bind (fun merged hmerged objects heq => ?_)
            (fun e _ objects heq => by cases heq)
          cases heq
          rw [hmerged merged rfl, hmade]
          rfl
      | consolidated target =>
          have hmerge := hP (.mergeAll target) (List.mem_append_right _ List.mem_cons_self)
          have hall := always_mergeAll (k := k) hmerge fun p hp =>
            (List.mem_append.mp hp).elim (hinputs p) (hassembly p)
          rw [hmade]
          refine hall.bind (fun _ _ objects heq => ?_) (fun e _ objects heq => by cases heq)
          cases heq
          rfl

theorem always_backHalf (hP : ∀ st ∈ r.backSteps plan, P (st.command k r plan))
    (hinputs : ∀ p ∈ r.artifacts.flatMap Artifact.mergeInputs, Q p)
    (hassembly : ∀ p ∈ r.mergedAssembly plan, Q p) :
    (k.backHalf r plan).Always P Q fun result => ∀ objects,
      result = .ok objects → objects = r.finalObjects plan := by
  have hassemble : ∀ file ∈ r.assembly, P (k.assemble file (assemblyObject plan file)) :=
    fun file hfile => hP (.assemble file) (List.mem_append_left _ (List.mem_map_of_mem hfile))
  have hmade : plan.target?.isSome = true → ∀ p ∈ r.assembly.map (assemblyObject plan), Q p := by
    intro hconsolidated
    cases plan with
    | perSource => cases hconsolidated
    | consolidated target => exact hassembly
  exact (always_assembleEach hassemble fun hconsolidated _ => hmade hconsolidated).attempt_bind
    fun _ hassembled => always_finish hP hinputs hassembly hassembled

/-- An accepted pipeline issues commands of its own steps only, discards only what it has made on
the way, and has the plan's final objects if it succeeds. -/
theorem always_pipeline {artifacts : List Artifact} (hplan : r.planArtifacts plan = .ok artifacts)
    (hP : ∀ st ∈ r.steps plan, P (st.command k r plan))
    (hQ : ∀ p ∈ r.transients plan, Q p) :
    (k.pipeline r plan).Always P Q fun result => ∀ objects,
      result = .ok objects → objects = r.finalObjects plan := by
  rw [Request.steps_eq] at hP
  have hfront : ∀ a ∈ r.artifacts, ∀ c ∈ k.frontHalf a, P c := by
    intro a ha c hc
    rw [frontHalf_eq k r plan a] at hc
    obtain ⟨st, hst, rfl⟩ := List.mem_map.mp hc
    exact hP st (List.mem_append_left _ (List.mem_flatMap.mpr ⟨a, ha, hst⟩))
  have hintermediates : ∀ a ∈ r.artifacts, ∀ p ∈ a.intermediates, Q p :=
    fun a ha p hp => hQ p (List.mem_append_left _ (List.mem_flatMap.mpr ⟨a, ha, hp⟩))
  have hinputs : ∀ p ∈ r.artifacts.flatMap Artifact.mergeInputs, Q p := by
    intro p hp
    obtain ⟨a, ha, hp⟩ := List.mem_flatMap.mp hp
    exact hintermediates a ha p (List.mem_append_right a.sourceFiles hp)
  rw [pipeline_eq_backHalf k hplan]
  refine (always_transformAll hfront fun _ => hintermediates).bind (fun _ _ => ?_)
    (fun e _ objects heq => by cases heq)
  exact always_backHalf (fun st hst => hP st (List.mem_append_right _ hst)) hinputs
    fun p hp => hQ p (List.mem_append_right _ hp)

theorem always_linkObjects {output : Path}
    (hP : ∀ st ∈ k.linkSteps output, P (st.command k r plan)) :
    (k.linkObjects (r.finalObjects plan ++ r.objects) output r.linkerArgs).Always P Q
      fun _ => True := by
  rw [linkObjects_eq]
  unfold linkSteps at hP
  split
  · trivial
  · rename_i hcore
    rw [if_neg hcore] at hP
    have hlink := Script.always_check (Q := Q) (hP (.link output) List.mem_cons_self)
    apply hlink.bind (fun _ _ => ?_) (fun _ _ => trivial)
    split
    · rename_i hshared
      rw [if_pos hshared] at hP
      have harchive := hP (.archive output) (List.mem_cons_of_mem _ List.mem_cons_self)
      exact Script.always_check harchive
    · trivial

theorem always_useMerged {path : BuildPath}
    (hP : ∀ st ∈ k.laterSteps path, P (st.command k r plan))
    (hQ : ∀ output plan', path = .transformLink output plan' → k.toolchain.sstCore = false →
      k.deletesTemps = true → ∀ p ∈ r.finalObjects plan, Q p) :
    (k.useMerged r path (r.finalObjects plan)).Always P Q fun _ => True := by
  unfold useMerged
  split
  · rename_i output plan'
    apply (always_linkObjects hP).attempt_bind
    intro result _
    split
    · rename_i hcore
      have hclean := k.always_cleanUp (P := P) (hQ output plan' rfl (by simpa using hcore))
      exact hclean.bind (fun _ _ => trivial) (fun _ _ => trivial)
    · trivial
  · trivial

/-- Along a path with the transform, an accepted build issues commands of its schedule only, and
discards only what it has made. -/
theorem always_follow {artifacts : List Artifact} {path : BuildPath}
    (hpath : path.plan? = some plan) (hplan : r.planArtifacts plan = .ok artifacts)
    (hP : ∀ st ∈ k.schedule r path, P (st.command k r plan))
    (hQ : ∀ p ∈ r.transients plan ++ r.finalObjects plan, Q p) :
    (k.follow r path).Always P Q fun _ => True := by
  rw [schedule_of_plan k r hpath] at hP
  rw [follow_of_plan k r hpath]
  have hpipeline := always_pipeline hplan (fun st hst => hP st (List.mem_append_left _ hst))
    (fun p hp => hQ p (List.mem_append_left _ hp))
  apply hpipeline.bind
  · intro objects hobjects
    rw [hobjects objects rfl]
    exact always_useMerged (fun st hst => hP st (List.mem_append_right _ hst))
      (fun _ _ _ _ _ p hp => hQ p (List.mem_append_right _ hp))
  · exact fun _ _ => trivial

end Whole

end Recipe

theorem Invocation.always_carryOut_build {t : Toolchain} {r : Request} {P : Command → Prop}
    {Q : Path → Prop}
    (hfollow : ((Recipe.ofRequest t r).follow r (BuildPath.select t r)).Always P Q fun _ => True)
    (home : Option Path) : ((Invocation.build r).carryOut t home).Always P Q fun _ => True := by
  rw [carryOut_build]
  exact hfollow.bind (fun _ _ => trivial) (fun _ _ => trivial)

/-! ## A disk to try statements on -/

def Toolchain.sampleProducts : Command → List Path :=
  Command.products "/opt/sst/bin/sstmac_clang_deglobal"

def MergePlan.sample : MergePlan := .consolidated ⟨"out/sstmerged.prog.o"⟩

theorem Request.planArtifacts_sample :
    Request.sample.planArtifacts .sample = .ok Request.sample.artifacts :=
  planArtifacts_ok_iff.mpr ⟨rfl, by decide +kernel⟩

/-- A disk that holds the inputs of the sample request and nothing else. -/
def Disk.sample : Disk := fun l =>
  if (Path.locations Request.sample.inputs).contains l then some (.file .given) else none

theorem Toolchain.sampleProducts_eq_writes :
    let k := Recipe.ofRequest .sample .sample
    ∀ task ∈ k.tasks .sample .sample (k.schedule .sample (BuildPath.select .sample .sample)),
      Toolchain.sampleProducts task.1 = task.2 := by
  decide +kernel

end Deglobal
