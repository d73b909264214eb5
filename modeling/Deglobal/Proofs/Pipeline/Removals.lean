import Deglobal.Proofs.Pipeline.Effects
import Deglobal.Proofs.Script.Removals

/-! # What a build removes

Only builds along a path with the transform remove files, and only files that
their plan has made up: those on the way from a source to its objects, the
objects of assembly files that are merged with the others, and the final objects
once they have been linked. A build that keeps its intermediate files removes
nothing but what a merge has taken in, and only after that merge.
-/

namespace Deglobal

variable {σ : Type}

namespace Request

def merges (r : Request) : MergePlan → List Step
  | .perSource => r.artifacts.map Step.mergeOne
  | .consolidated target => [Step.mergeAll target]

/-! ## Transient files and final objects -/

theorem transients_subset_produced (r : Request) (plan : MergePlan) :
    r.transients plan ⊆ r.produced plan := by
  refine List.append_subset.mpr ⟨intermediates_subset_produced r plan, ?_⟩
  cases plan with
  | perSource => exact List.nil_subset _
  | consolidated target => exact assembly_subset_produced r (.consolidated target)

theorem Accepted.transient_notMem {r : Request} {plan : MergePlan} (hr : r.Accepted plan) {p : Path}
    (hp : p ∈ r.transients plan) : p.components ∉ Path.locations (r.finalObjects plan) := by
  cases plan with
  | perSource =>
      have hp : p ∈ r.artifacts.flatMap Artifact.intermediates := by
        simpa [transients, mergedAssembly] using hp
      have hapart : Path.Apart (r.artifacts.flatMap Artifact.intermediates ++
          r.artifacts.flatMap fun a => [a.mergedObject]) := Path.Apart.flatMap_append hr.sources
      have hsources := (flatMap_intermediates_sublist r .perSource).subset hp
      rw [finalObjects, Path.locations_append, List.map_eq_flatMap]
      refine fun hmem => (List.mem_append.mp hmem).elim (hapart.notMem hp) ?_
      exact hr.cross _ (Path.mem_locations hsources)
  | consolidated target =>
      intro hmem
      refine hr.target target rfl ?_
      rw [← List.mem_singleton.mp hmem]
      refine Path.mem_locations ((List.mem_append.mp hp).elim (fun hp => ?_) ?_)
      · exact List.mem_append_left _
          ((flatMap_intermediates_sublist r (.consolidated target)).subset hp)
      · exact List.mem_append_right _

theorem finalObjects_subset_produced (r : Request) (plan : MergePlan) :
    r.finalObjects plan ⊆ r.produced plan := by
  cases plan with
  | perSource =>
      refine List.append_subset.mpr ⟨fun p hp => ?_, assembly_subset_produced r .perSource⟩
      obtain ⟨a, ha, rfl⟩ := List.mem_map.mp hp
      refine sources_subset_produced r .perSource (List.mem_flatMap.mpr ⟨a, ha, ?_⟩)
      exact List.mem_append_right _ List.mem_cons_self
  | consolidated target => exact List.subset_append_right _ _

end Request

namespace Recipe

/-- Why an accepted build may remove a file, where its pipeline comes to `returned`. -/
inductive Disposable (k : Recipe) (r : Request) (returned : Except Failure (List Path)) :
    BuildPath → Path → Prop where
  /-- It lies on the way from a source to its objects. -/
  | intermediate {path : BuildPath} {a : Artifact} {p : Path} (source : a ∈ r.artifacts)
      (file : p ∈ a.intermediates) : Disposable k r returned path p
  /-- It is the object of an assembly file and goes into the one object of the plan. -/
  | assembled {path : BuildPath} {target file : Path}
      (plan : path.plan? = some (.consolidated target)) (assembly : file ∈ r.assembly) :
      Disposable k r returned path (assemblyObject (.consolidated target) file)
  /-- It is a final object that the pipeline has returned for the executable. -/
  | linked {output : Path} {plan : MergePlan} {objects : List Path} {p : Path}
      (link : k.toolchain.sstCore = false) (delete : k.deletesTemps = true)
      (success : returned = .ok objects) (object : p ∈ objects) :
      Disposable k r returned (.transformLink output plan) p

/-- Among the events is a merge that has taken the file in; a merge without a program to run counts
as done. -/
def Absorbed (k : Recipe) (r : Request) (plan : MergePlan) (past : List Event) (p : Path) : Prop :=
  ∃ st ∈ r.merges plan, p ∈ (st.reads r plan).map Prod.fst ∧
    ((st.command k r plan).isEmpty = true ∨ .ran (st.command k r plan) (.exited 0) ∈ past)

variable {k : Recipe} {r : Request} {plan : MergePlan} {past : List Event}

theorem Absorbed.later {p : Path} (e : Event) (hp : k.Absorbed r plan past p) :
    k.Absorbed r plan (past ++ [e]) p := by
  obtain ⟨st, hst, hread, hdone⟩ := hp
  exact ⟨st, hst, hread, hdone.imp id (List.mem_append_left _)⟩

/-- The merge that has taken a file in has it among the arguments of its command. -/
theorem Absorbed.takes {p : Path} (hp : k.Absorbed r plan past p) :
    ∃ st ∈ r.merges plan, p ∈ (st.reads r plan).map Prod.fst ∧ (st.command k r plan).Takes p ∧
      ((st.command k r plan).isEmpty = true ∨
        .ran (st.command k r plan) (.exited 0) ∈ past) := by
  obtain ⟨st, hst, hread, hdone⟩ := hp
  obtain ⟨x, hx, rfl⟩ := List.mem_map.mp hread
  exact ⟨st, hst, hread, st.command_takes k r plan hx, hdone⟩

/-! ## When files are removed -/

section Timely

variable (hkeep : k.deletesTemps = false)

include hkeep

theorem timely_fail_after_cleanUp {α : Type} (files : List Path) (e : Failure) :
    ((k.cleanUp files).bind fun _ => (Script.fail e : Script α)).Timely (k.Absorbed r plan)
      (fun _ _ => True) past := by
  have hnone : k.deletesTemps = true → ∀ p ∈ files, False := by simp [hkeep]
  have hfail := k.always_fail_after_cleanUp (α := α) (P := fun _ => True) hnone e
  exact hfail.timely fun _ _ _ => trivial

theorem timely_mergeEach {artifacts : List Artifact} (hsub : artifacts ⊆ r.artifacts) :
    (k.mergeEach artifacts).Timely (k.Absorbed r .perSource) (fun _ _ => True) past := by
  induction artifacts generalizing past with
  | nil => trivial
  | cons a rest ih =>
      rw [mergeEach_cons]
      refine (Script.timely_check _).attempt_bind fun result past' hdone => ?_
      cases result with
      | ok _ =>
          have hmerge : Step.mergeOne a ∈ r.merges .perSource :=
            List.mem_map_of_mem (hsub List.mem_cons_self)
          have hinputs : ∀ p ∈ a.mergeInputs, k.Absorbed r .perSource past' p :=
            fun p hp => ⟨_, hmerge, hp, hdone rfl⟩
          refine (Script.timely_discardAll (fun _ e _ => Absorbed.later e) hinputs).bind
            (fun _ _ _ => ?_) (fun _ _ _ => trivial)
          exact (ih fun b hb => hsub (List.mem_cons_of_mem a hb)).bind (fun _ _ _ => trivial)
            (fun _ _ _ => trivial)
      | error e => exact timely_fail_after_cleanUp hkeep _ e

theorem timely_mergeAll (target : Path) :
    (k.mergeAll (r.looseObjects (.consolidated target)) target).Timely
      (k.Absorbed r (.consolidated target)) (fun _ _ => True) past := by
  rw [mergeAll_eq]
  refine (Script.timely_check _).attempt_bind fun result past' hdone => ?_
  cases result with
  | ok _ =>
      refine Script.timely_discardAll (fun _ e _ => Absorbed.later e) fun p hp => ?_
      rw [← Step.reads_mergeAll_fst r _ target] at hp
      exact ⟨_, List.mem_cons_self, hp, hdone rfl⟩
  | error e => exact timely_fail_after_cleanUp hkeep _ e

theorem timely_finish {assembled : Except Failure (List Path)}
    (hassembled : ∀ objects, assembled = .ok objects →
      objects = r.assembly.map (assemblyObject plan)) :
    (k.finish r.artifacts plan assembled).Timely (k.Absorbed r plan) (fun _ _ => True) past := by
  cases assembled with
  | error e => exact timely_fail_after_cleanUp hkeep _ e
  | ok objects =>
      rw [hassembled objects rfl]
      cases plan with
      | perSource =>
          exact (timely_mergeEach hkeep (List.Subset.refl _)).bind (fun _ _ _ => trivial)
            (fun _ _ _ => trivial)
      | consolidated target =>
          exact (timely_mergeAll hkeep target).bind (fun _ _ _ => trivial) (fun _ _ _ => trivial)

theorem timely_pipeline {artifacts : List Artifact} (hplan : r.planArtifacts plan = .ok artifacts) :
    (k.pipeline r plan).Timely (k.Absorbed r plan) (fun _ _ => True) past := by
  have hfront : (k.transformAll r.artifacts).Always (fun _ => True) (fun _ => False)
      fun _ => True := always_transformAll (fun _ _ _ _ => trivial) (by simp [hkeep])
  have hassemble : (k.assembleEach plan [] r.assembly).Always (fun _ => True) (fun _ => False)
      fun result => ∀ objects, result = .ok objects →
        objects = [] ++ r.assembly.map (assemblyObject plan) :=
    always_assembleEach (fun _ _ => trivial) (by simp [hkeep])
  rw [pipeline_of_plan k hplan, Request.planArtifacts_eq hplan]
  refine (hfront.timely fun _ _ h => h).bind (fun _ _ _ => ?_) (fun _ _ _ => trivial)
  exact (hassemble.timely fun _ _ h => h).attempt_bind fun _ _ hassembled =>
    timely_finish hkeep hassembled

theorem timely_follow {artifacts : List Artifact} {path : BuildPath}
    (hpath : path.plan? = some plan) (hplan : r.planArtifacts plan = .ok artifacts) :
    (k.follow r path).Timely (k.Absorbed r plan) (fun _ _ => True) past := by
  have hpipeline := always_pipeline (k := k) (P := fun _ => True) (Q := fun _ => True) hplan
    (fun _ _ => trivial) (fun _ _ => trivial)
  rw [follow_of_plan k r hpath]
  refine ((timely_pipeline hkeep hplan).and hpipeline).bind (fun objects _ hobjects => ?_)
    (fun _ _ _ => trivial)
  rw [hobjects.2 objects rfl]
  have hlater : (k.useMerged r path (r.finalObjects plan)).Always (fun _ => True) (fun _ => False)
      fun _ => True := always_useMerged (fun _ _ => trivial) (by simp [hkeep])
  exact hlater.timely fun _ _ h => h

end Timely

/-! ## Which files are removed -/

theorem always_follow_of_no_plan {path : BuildPath} (hpath : path.plan? = none) :
    (k.follow r path).Always (fun _ => True) (fun _ => False) fun _ => True := by
  cases path with
  | preprocess => exact Script.always_check trivial
  | directCompile => exact Script.always_check trivial
  | allInOne => exact Script.always_check trivial
  | linkOnly output =>
      rw [follow, linkObjects_eq]
      split
      · trivial
      · refine (Script.always_check trivial).bind (fun _ _ => ?_) fun _ _ => trivial
        split
        · exact Script.always_check trivial
        · trivial
  | transformCompile plan => cases hpath
  | transformLink output plan => cases hpath

theorem disposable_of_follow {artifacts : List Artifact} {path : BuildPath} {h : Host σ} {s : σ}
    {p : Path} (hpath : path.plan? = some plan) (hplan : r.planArtifacts plan = .ok artifacts)
    (hp : p ∈ ((k.follow r path).run h s).discards) :
    k.Disposable r ((k.pipeline r plan).run h s).result path p := by
  have hpipeline : (k.pipeline r plan).Always (fun _ => True) (· ∈ r.transients plan)
      fun result => ∀ objects, result = .ok objects → objects = r.finalObjects plan :=
    always_pipeline hplan (fun _ _ => trivial) (fun _ h => h)
  rw [follow_of_plan k r hpath] at hp
  rcases Script.mem_discards_bind hp with hp | ⟨objects, s', hreturned, hp⟩
  · rcases List.mem_append.mp (hpipeline.discards h s p hp) with hp | hp
    · obtain ⟨a, ha, hp⟩ := List.mem_flatMap.mp hp
      exact .intermediate ha hp
    · cases plan with
      | perSource => exact absurd hp List.not_mem_nil
      | consolidated target =>
          obtain ⟨file, hfile, rfl⟩ := List.mem_map.mp hp
          exact .assembled hpath hfile
  · -- The reason `linked` asks for what this run has returned, not for what the plan promises.
    have hobjects : objects = r.finalObjects plan :=
      (hpipeline.issues (h := h) ⟨[], s⟩).run.1.1 objects hreturned
    subst hobjects
    have hlater : (k.useMerged r path (r.finalObjects plan)).Always (fun _ => True)
        (k.Disposable r ((k.pipeline r plan).run h s).result path) fun _ => True := by
      refine always_useMerged (fun _ _ => trivial) fun output plan' hlink hcore hdelete q hq => ?_
      rw [hlink]
      exact .linked hcore hdelete hreturned hq
    exact hlater.discards h s' p hp

theorem Disposable.mem_transients {returned : Except Failure (List Path)} {p : Path}
    (hp : k.Disposable r returned (.transformCompile plan) p) : p ∈ r.transients plan := by
  cases hp with
  | intermediate ha hp => exact List.mem_append_left _ (List.mem_flatMap.mpr ⟨_, ha, hp⟩)
  | assembled hplan hfile =>
      cases hplan
      exact List.mem_append_right _ (List.mem_map_of_mem hfile)

theorem apart_of_follow {artifacts : List Artifact} {path : BuildPath} {h : Host σ} {s : σ}
    {p : Path} (hpath : path.plan? = some plan) (hplan : r.planArtifacts plan = .ok artifacts)
    (hp : p ∈ ((k.follow r path).run h s).discards) :
    (∀ q ∈ r.inputs, ¬ p.Same q) ∧
      (path = .transformCompile plan → ∀ q ∈ r.finalObjects plan, ¬ p.Same q) := by
  have hr := Request.accepted_of_planArtifacts hplan
  have hmade : (k.follow r path).Always (fun _ => True)
      (· ∈ r.transients plan ++ r.finalObjects plan) fun _ => True :=
    always_follow hpath hplan (fun _ _ => trivial) (fun _ h => h)
  have hproduced : p ∈ r.produced plan :=
    List.append_subset.mpr ⟨r.transients_subset_produced plan,
      r.finalObjects_subset_produced plan⟩ (hmade.discards h s p hp)
  refine ⟨fun q hq hsame => ?_, fun hcompile q hq hsame => ?_⟩
  · have hout := hr.inputs q hq
    rw [← hsame] at hout
    exact hout (Path.mem_locations hproduced)
  · have hreason := disposable_of_follow hpath hplan hp
    rw [hcompile] at hreason
    have hout := hr.transient_notMem hreason.mem_transients
    rw [hsame] at hout
    exact hout (Path.mem_locations hq)

end Recipe

theorem Script.always_status {P : Command → Prop} {Q : Path → Prop} {c : Command} (hc : P c) :
    (Script.status c).Always P Q fun _ => True := by
  refine ⟨hc, fun o => ?_⟩
  cases o <;> trivial

theorem Query.always_answer (t : Toolchain) (home : Option Path) (q : Query) :
    (q.answer t home).Always (fun _ => True) (fun _ => False) fun _ => True := by
  have hstatus : ∀ c : Command, (Script.status c).Always (fun _ => True) (fun _ => False)
      fun _ => True := fun _ => Script.always_status trivial
  cases q with
  | version flag => cases home <;> exact hstatus _
  | help => exact (hstatus _).bind (fun _ _ => trivial) (fun _ _ => trivial)
  | flags => trivial

/-- Queries and builds without the transform remove nothing, and neither does a build that planning
refuses. An accepted build removes only what its plan has made up for the way to the final objects,
and these too if it has linked them itself; no removed file lies where an input does, nor, where
objects are what was asked for, where one of them does. A build that keeps its intermediate files
removes only what a merge reads and has among its arguments, and only after that merge has
succeeded or, having no program to run, has come to nothing. -/
theorem removals_confined (t : Toolchain) (home : Option Path) (h : Host σ) (s : σ) :
    (∀ q : Query, (((Invocation.query q).carryOut t home).run h s).discards = []) ∧
    ∀ r : Request,
      let k := Recipe.ofRequest t r
      let path := BuildPath.select t r
      let run := ((Invocation.build r).carryOut t home).run h s
      match path.plan? with
      | none => run.discards = []
      | some plan =>
        let returned := ((k.pipeline r plan).run h (h.hear (.noted (.buildPath path)) s)).result
        match r.planArtifacts plan with
        | .error _ => run.discards = []
        | .ok _ =>
          (∀ p ∈ run.discards, k.Disposable r returned path p ∧
            (∀ q ∈ r.inputs, ¬ p.Same q) ∧
            (path = .transformCompile plan → ∀ q ∈ r.finalObjects plan, ¬ p.Same q)) ∧
          (k.deletesTemps = false → ∀ before p removal s' after,
            run.events = before ++ (.discarded p removal, s') :: after →
            ∃ st ∈ r.merges plan, p ∈ (st.reads r plan).map Prod.fst ∧
              (st.command k r plan).Takes p ∧
              ((st.command k r plan).isEmpty = true ∨
                .ran (st.command k r plan) (.exited 0) ∈ before.map Prod.fst)) := by
  refine ⟨fun q => (q.always_answer t home).discards_eq_nil h s, fun r => ?_⟩
  intro k path run
  cases hpath : path.plan? with
  | none =>
      have hbuild : ((Invocation.build r).carryOut t home).Always (fun _ => True)
          (fun _ => False) fun _ => True := by
        rw [Invocation.carryOut_build]
        exact (Recipe.always_follow_of_no_plan hpath).bind (fun _ _ => trivial) (fun _ _ => trivial)
      exact hbuild.discards_eq_nil h s
  | some plan =>
      dsimp only
      cases hplan : r.planArtifacts plan with
      | error e =>
          simp only [run, Invocation.carryOut_build]
          rw [Recipe.follow_of_clash k hpath hplan]
          rfl
      | ok artifacts =>
          refine ⟨fun p hp => ?_, fun hkeep => ?_⟩
          · have hfollow : p ∈ ((k.follow r path).run h
                (h.hear (.noted (.buildPath path)) s)).discards := by
              rcases Script.mem_discards_bind hp with hp | ⟨_, _, _, hp⟩
              · exact hp
              · exact absurd hp List.not_mem_nil
            exact ⟨Recipe.disposable_of_follow hpath hplan hfollow,
              Recipe.apart_of_follow hpath hplan hfollow⟩
          · have hbuild : ((Invocation.build r).carryOut t home).Timely (k.Absorbed r plan)
                (fun _ _ => True) [] := by
              rw [Invocation.carryOut_build]
              exact (Recipe.timely_follow hkeep hpath hplan).bind (fun _ _ _ => trivial)
                (fun _ _ _ => trivial)
            exact fun before p removal s' after hsplit =>
              (hbuild.run h s before p removal s' after hsplit).takes

/-- A build of the sample that keeps its intermediate files still removes the objects that it has
merged, the first of them right after the merge. -/
theorem removals_confined_sample :
    let t := { Toolchain.sample with toggles := { deleteTemps := false } }
    let k := Recipe.ofRequest t .sample
    let run := ((Invocation.build .sample).carryOut t none).run Host.willing ()
    k.deletesTemps = false ∧ run.discards = Request.sample.looseObjects .sample ∧
      (∀ p ∈ run.discards, ∀ q ∈ Request.sample.inputs, ¬ p.Same q) ∧
      ∃ before removal after,
        run.events = before ++ (.discarded ⟨"sst.a.c.o"⟩ removal, ()) :: after ∧
        ∃ st ∈ Request.sample.merges .sample,
          ⟨"sst.a.c.o"⟩ ∈ (st.reads .sample .sample).map Prod.fst ∧
          (st.command k .sample .sample).Takes ⟨"sst.a.c.o"⟩ ∧
          ((st.command k .sample .sample).isEmpty = true ∨
            .ran (st.command k .sample .sample) (.exited 0) ∈ before.map Prod.fst) := by
  intro t k run
  have hkeep : k.deletesTemps = false := rfl
  have hpath : (BuildPath.select t .sample).plan? = some .sample := by decide
  have hall := (removals_confined t none Host.willing ()).2 .sample
  dsimp only at hall
  rw [hpath] at hall
  dsimp only at hall
  rw [Request.planArtifacts_sample] at hall
  have hdiscards : run.discards = Request.sample.looseObjects .sample := by decide +kernel
  have hsplit : run.events = run.events.take 15 ++
      (.discarded ⟨"sst.a.c.o"⟩ .removed, ()) :: run.events.drop 16 := by decide +kernel
  exact ⟨hkeep, hdiscards, fun p hp => (hall.1 p hp).2.1, _, _, _, hsplit,
    hall.2 hkeep _ _ _ _ _ hsplit⟩

end Deglobal
