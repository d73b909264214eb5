import Deglobal.Proofs.Pipeline.Leftovers
import Deglobal.Proofs.Pipeline.Temporaries
import Deglobal.Proofs.Pipeline.Verdict
import Deglobal.Proofs.Script.Precise

/-! # What a successful build leaves

A build along a path with the transform makes many files and removes most of
them again. If it succeeds, it has made what it was asked for and nothing else:
every step has written its files, since no command can have failed unnoticed,
each file made on the way was removed by the stage it belongs to, and no stage
removes what another one has made to stay.
-/

namespace Deglobal

variable {σ : Type}

/-! ## Names of what stays -/

theorem getLast?_objectBeside (file : Path) :
    (objectBeside file).components.getLast? = some (.name (file.fileStem ++ ".o")) := by
  rw [objectBeside, file.components_sibling (Path.plain_object file.no_slash_fileStem),
    List.getLast?_concat]

theorem getLast?_mergedObjectPath (output : Path) :
    (mergedObjectPath output).components.getLast? =
      some (.name ("sstmerged." ++ output.fileName ++ ".o")) := by
  have hplain : Path.Plain ("sstmerged." ++ output.fileName ++ ".o") :=
    Path.plain_marked_object (by decide) output.no_slash_fileName
  rw [mergedObjectPath, output.components_sibling hplain, List.getLast?_concat]

theorem mergedObjectPath_not_same (output : Path) : ¬ (mergedObjectPath output).Same output := by
  intro hsame
  have hlast := getLast?_mergedObjectPath output
  rw [hsame] at hlast
  have hlength := congrArg String.length (Path.fileName_of_getLast? hlast)
  simp only [String.length_append] at hlength
  have hmark : "sstmerged.".length = 10 := rfl
  omega

theorem ne_object {m n : String} (hend : m.toList.reverse.take 2 ≠ ['o', '.']) : m ≠ n ++ ".o" := by
  rintro rfl
  exact hend (by simp [String.toList_append])

theorem not_same_sharedObjectPath {p : Path} {n : String}
    (hlast : p.components.getLast? = some (.name (n ++ ".o"))) (output : Path) :
    ¬ p.Same (sharedObjectPath output) := by
  intro hsame
  rw [hsame, fileName_sharedObjectPath] at hlast
  injection hlast with hlast
  injection hlast with hname
  exact ne_object (by simp [String.toList_append]) hname

/-- What a link takes of its own build is neither the executable nor the shared object. -/
theorem finalObject_not_same {t : Toolchain} {r : Request} {output : Path} {plan : MergePlan}
    (hselect : BuildPath.select t r = .transformLink output plan) {p : Path}
    (hp : p ∈ r.finalObjects plan) : ¬ p.Same output ∧ ¬ p.Same (sharedObjectPath output) := by
  have hplan : output = r.executable ∧ plan = BuildPath.linkPlan r := by
    unfold BuildPath.select at hselect
    grind
  obtain ⟨rfl, rfl⟩ := hplan
  cases hexplicit : r.explicitOutput with
  | some output =>
      simp only [Request.executable, BuildPath.linkPlan, hexplicit, Option.getD_some] at hp ⊢
      rw [List.mem_singleton.mp hp]
      exact ⟨mergedObjectPath_not_same output,
        not_same_sharedObjectPath (getLast?_mergedObjectPath output) output⟩
  | none =>
      simp only [Request.executable, BuildPath.linkPlan, hexplicit, Option.getD_none] at hp ⊢
      obtain ⟨file, rfl⟩ : ∃ file, p = objectBeside file := by
        rcases List.mem_append.mp hp with hp | hp
        · obtain ⟨a, _, rfl⟩ := List.mem_map.mp hp
          exact ⟨a.source, rfl⟩
        · obtain ⟨file, _, rfl⟩ := List.mem_map.mp hp
          exact ⟨file, rfl⟩
      have hlast := getLast?_objectBeside file
      refine ⟨fun hsame => ?_, not_same_sharedObjectPath hlast defaultOutput⟩
      have hdefault : defaultOutput.components.getLast? = some (.name "a.out") := by decide
      rw [hsame, hdefault] at hlast
      injection hlast with hlast
      injection hlast with hname
      exact ne_object (by decide) hname

/-! ## What is made and what is left -/

namespace Request

theorem produced_subset (r : Request) (plan : MergePlan) :
    r.produced plan ⊆ r.transients plan ++ r.finalObjects plan := by
  intro p hp
  simp only [produced, transients, List.append_assoc, List.mem_append] at hp ⊢
  rcases hp with hp | hp | hp
  · obtain ⟨a, ha, hp⟩ := List.mem_flatMap.mp hp
    rcases List.mem_append.mp hp with hp | hp
    · exact Or.inl (List.mem_flatMap.mpr ⟨a, ha, hp⟩)
    · cases plan with
      | perSource =>
          rw [List.mem_singleton.mp hp]
          exact Or.inr (Or.inr (List.mem_append_left _ (List.mem_map_of_mem ha)))
      | consolidated target => cases hp
  · cases plan with
    | perSource => exact Or.inr (Or.inr (List.mem_append_right _ hp))
    | consolidated target => exact Or.inr (Or.inl hp)
  · cases plan with
    | perSource => cases hp
    | consolidated target => exact Or.inr (Or.inr hp)

theorem mergedAssembly_subset_temporaries (r : Request) {path : BuildPath} {plan : MergePlan}
    (hpath : path.plan? = some plan) : r.mergedAssembly plan ⊆ r.temporaries path := by
  cases path with
  | transformCompile _ =>
      cases hpath
      exact List.Subset.refl _
  | transformLink _ _ =>
      cases hpath
      exact List.subset_append_left _ _
  | _ => cases hpath

theorem exists_step_of_finalObject {r : Request} {plan : MergePlan} {p : Path}
    (hp : p ∈ r.finalObjects plan) : ∃ st ∈ r.steps plan, p ∈ st.writes plan := by
  cases plan with
  | perSource =>
      rcases List.mem_append.mp hp with hp | hp
      · obtain ⟨a, ha, rfl⟩ := List.mem_map.mp hp
        exact ⟨.mergeOne a, Recipe.mergeOne_mem_steps ha, List.mem_cons_self⟩
      · obtain ⟨file, hfile, rfl⟩ := List.mem_map.mp hp
        exact ⟨.assemble file, Recipe.assemble_mem_steps hfile, List.mem_cons_self⟩
  | consolidated target =>
      exact ⟨.mergeAll target, Recipe.mergeAll_mem_steps r target, hp⟩

end Request

namespace Recipe

/-- What a link makes: the executable, and a shared object of position-independent code. -/
def linked (k : Recipe) (output : Path) : List Path :=
  output :: if k.flags.positionIndependent then [sharedObjectPath output] else []

/-- The files that a build along a path with the transform was asked for. -/
def footprint (k : Recipe) (r : Request) : BuildPath → List Path
  | .transformCompile plan => r.finalObjects plan
  | .transformLink output plan =>
      if k.toolchain.sstCore then r.finalObjects plan else k.linked output
  | _ => []

variable {disk : σ → Disk} {h : Host σ} {k : Recipe} {r : Request} {plan : MergePlan}
  {steps : List Step} {m m' : Moment σ}

section Stages

variable (hk : k.toolchain.Named) (hdelete : k.deletesTemps = true)
  (hprecise : Precise disk h (k.tasks r plan steps)) (hremoves : Removes disk h)

include hk hdelete hprecise hremoves

/-- An accepted pipeline that succeeds has made the final objects, and of what it has made on the
way nothing is left. -/
theorem pipeline_leaves {artifacts : List Artifact} (hplan : r.planArtifacts plan = .ok artifacts)
    (hsteps : r.steps plan ⊆ steps) (hstart : m.issued = [])
    (habsent : ∀ p ∈ r.transients plan, disk m.now p.components = none) {objects : List Path}
    (hplay : (k.pipeline r plan).play h.sparing m = (.ok objects, m')) :
    objects = r.finalObjects plan ∧ Gone disk m'.now (r.transients plan) ∧
      (∀ p ∈ r.finalObjects plan, Made disk m'.now p.components) ∧
      Within disk (Path.locations (r.produced plan)) m m' := by
  have horderly := hprecise.orderly
  have hr := Request.accepted_of_planArtifacts hplan
  have hclear : ∀ a ∈ r.artifacts, Clear disk m.now a.intermediates := by
    intro a ha p hp hdir
    have hnone := habsent p (List.mem_append_left _ (List.mem_flatMap.mpr ⟨a, ha, hp⟩))
    cases hnone.symm.trans hdir
  have hgone := (gone_pipeline_cases hdelete hplan hsteps horderly hremoves hclear hstart).play
  have htidied := (tidied_pipeline (m := m) hdelete hplan hsteps horderly hremoves rfl).play
  have hwithin := (within_pipeline hplan hsteps horderly m).play
  rw [hplay] at hgone htidied hwithin
  refine ⟨hwithin.1 objects rfl, fun p hp => ?_, fun p hp => ?_, hwithin.2⟩
  · rcases List.mem_append.mp hp with hp | hp
    · obtain ⟨a, ha, hp⟩ := List.mem_flatMap.mp hp
      exact hgone a ha (Or.inl rfl) p hp
    · refine (htidied p hp).elim id fun hsame => hsame.trans ?_
      exact habsent p (List.mem_append_right _ hp)
  · obtain ⟨st, hst, hwrites⟩ := Request.exists_step_of_finalObject hp
    have halways : (k.pipeline r plan).Always
        (fun c => ∃ st ∈ r.steps plan, c = st.command k r plan) (· ∈ r.transients plan)
        fun result => ∀ objects, result = .ok objects → objects = r.finalObjects plan :=
      always_pipeline hplan (fun st hst => ⟨st, hst, rfl⟩) (fun _ h => h)
    have hcourse : st.command k r plan ∈ (k.pipeline r plan).course := by
      rw [course_pipeline hk hplan]
      exact List.mem_map_of_mem hst
    have hout : p.components ∉ Path.locations (r.transients plan) := by
      intro hmem
      obtain ⟨q, hq, hsame⟩ := Path.mem_locations_iff.mp hmem
      refine hr.transient_notMem hq ?_
      rw [hsame]
      exact Path.mem_locations hp
    refine (k.accountable_pipeline hplan).made hprecise halways ?_
      (fun q hq => Path.mem_locations hq) hplay (mem_tasks (hsteps hst)) hcourse hwrites hout
    rintro c ⟨st, hst, rfl⟩
    exact ⟨_, mem_tasks (hsteps hst)⟩

end Stages

theorem linkSteps_writes (k : Recipe) (plan : MergePlan) (output : Path)
    (hcore : k.toolchain.sstCore = false) :
    (k.linkSteps output).flatMap (Step.writes plan) = k.linked output := by
  unfold linkSteps linked
  rw [if_neg (by simp [hcore])]
  split <;> rfl

theorem mem_linked {output p : Path} (hp : p ∈ k.linked output) :
    p = output ∨ p = sharedObjectPath output := by
  unfold linked at hp
  grind

/-- A link that succeeds has made what it was meant to make and nothing else. -/
theorem linkObjects_leaves {output : Path} (hk : k.toolchain.Named)
    (hprecise : Precise disk h (k.tasks r plan steps)) (hcore : k.toolchain.sstCore = false)
    (hsteps : k.linkSteps output ⊆ steps) {u : Unit}
    (hplay : (k.linkObjects (r.finalObjects plan ++ r.objects) output r.linkerArgs).play
      h.sparing m = (.ok u, m')) :
    (∀ p ∈ k.linked output, Made disk m'.now p.components) ∧
      Within disk (Path.locations (k.linked output)) m m' := by
  have halways : (k.linkObjects (r.finalObjects plan ++ r.objects) output r.linkerArgs).Always
      (fun c => ∃ st ∈ k.linkSteps output, c = st.command k r plan) (fun _ => False)
      fun _ => True := always_linkObjects fun st hst => ⟨st, hst, rfl⟩
  have htask : ∀ c, (∃ st ∈ k.linkSteps output, c = st.command k r plan) →
      ∃ files, (c, files) ∈ k.tasks r plan steps ∧
        Path.locations files ⊆ Path.locations (k.linked output) := by
    rintro c ⟨st, hst, rfl⟩
    refine ⟨st.writes plan, mem_tasks (hsteps hst), Path.locations_subset fun p hp => ?_⟩
    rw [← k.linkSteps_writes plan output hcore]
    exact List.mem_flatMap.mpr ⟨st, hst, hp⟩
  have hwithin := (halways.within hprecise.orderly (fun _ _ _ => trivial) htask
    (fun _ hp => hp.elim) m).play
  rw [hplay] at hwithin
  refine ⟨fun p hp => ?_, hwithin.2⟩
  rw [← k.linkSteps_writes plan output hcore] at hp
  obtain ⟨st, hst, hwrites⟩ := List.mem_flatMap.mp hp
  have hcourse : st.command k r plan ∈
      (k.linkObjects (r.finalObjects plan ++ r.objects) output r.linkerArgs).course := by
    rw [course_linkObjects hk]
    exact List.mem_map_of_mem hst
  have haccountable := (k.failStop_linkObjects (r.finalObjects plan ++ r.objects) output
    r.linkerArgs).accountable (h := h.sparing) (k.goal_linkObjects _ output r.linkerArgs)
  exact haccountable.made hprecise halways
    (fun c hc => (htask c hc).imp fun _ hfiles => hfiles.1) (fun _ hp => hp.elim) hplay
    (mem_tasks (hsteps hst)) hcourse hwrites List.not_mem_nil

/-- What was to be made is there, and everything else is as it was. -/
structure Leaves (disk : σ → Disk) (files : List Path) (s s' : σ) : Prop where
  made : ∀ p ∈ files, Made disk s' p.components
  same : ∀ l, l ∉ Path.locations files → disk s' l = disk s l

section Whole

variable (hk : k.toolchain.Named) (hdelete : k.deletesTemps = true)
  (hprecise : Precise disk h (k.tasks r plan steps)) (hremoves : Removes disk h)

include hk hdelete hprecise hremoves

/-- A link takes the final objects of its own build along, and leaves what it was to make. -/
theorem useMerged_leaves {output : Path} (hcore : k.toolchain.sstCore = false)
    (hsteps : k.linkSteps output ⊆ steps)
    (hnames : ∀ p ∈ r.finalObjects plan,
      ¬ p.Same output ∧ ¬ p.Same (sharedObjectPath output))
    (hclear : Clear disk m.now (r.finalObjects plan)) {u : Unit}
    (hplay : (k.useMerged r (.transformLink output plan) (r.finalObjects plan)).play
      h.sparing m = (.ok u, m')) :
    (∀ p ∈ k.linked output, Made disk m'.now p.components) ∧
      Gone disk m'.now (r.finalObjects plan) ∧
      Within disk (Path.locations (k.linked output ++ r.finalObjects plan)) m m' := by
  have horderly := hprecise.orderly
  rw [useMerged, Script.play_attempt_bind, if_pos (by simp [hcore])] at hplay
  rcases hlink : (k.linkObjects (r.finalObjects plan ++ r.objects) output r.linkerArgs).play
    h.sparing m with ⟨result, m₁⟩
  rw [hlink] at hplay
  obtain ⟨_, m₂, hclean, hend⟩ := Script.exists_play_of_bind hplay
  rw [Script.play_done] at hend
  cases hend
  obtain ⟨hmade, hwithin⟩ := linkObjects_leaves hk hprecise hcore hsteps hlink
  have hgone := (gone_cleanUp hdelete horderly hremoves (List.Subset.refl _)
    (hclear.keep hwithin)).play
  have hensures : (k.cleanUp (r.finalObjects plan)).Ensures h.sparing (fun _ _ => True) _ m₁ :=
    within_cleanUp horderly k (r.finalObjects plan) m₁
  have hcleaned := hensures.play
  rw [hclean] at hgone hcleaned
  refine ⟨fun p hp => ?_, hgone.2.1, ?_⟩
  · obtain ⟨c, hc⟩ := hmade p hp
    refine ⟨c, (hcleaned.2.same _ fun hmem => ?_).trans hc⟩
    obtain ⟨q, hq, hsame⟩ := Path.mem_locations_iff.mp hmem
    rcases mem_linked hp with rfl | rfl
    · exact (hnames q hq).1 hsame
    · exact (hnames q hq).2 hsame
  · rw [Path.locations_append]
    exact (hwithin.mono (List.subset_append_left _ _)).trans
      (hcleaned.2.mono (List.subset_append_right _ _))

end Whole

theorem Leaves.of_same {files : List Path} {s s' s'' : σ} (hleaves : Leaves disk files s s')
    (hsame : disk s'' = disk s') : Leaves disk files s s'' where
  made := fun p hp => (hleaves.made p hp).imp fun _ hc => (congrFun hsame _).trans hc
  same := fun l hl => (congrFun hsame l).trans (hleaves.same l hl)

/-- A build along a path with the transform that succeeds leaves its footprint and nothing else, as
long as nothing was where it keeps its own files. -/
theorem follow_leaves {t : Toolchain} {path : BuildPath}
    (hselect : BuildPath.select t r = path) (hk : k.toolchain.Named)
    (hdelete : k.deletesTemps = true) (hremoves : Removes disk h)
    (hpath : path.plan? = some plan) {artifacts : List Artifact}
    (hplan : r.planArtifacts plan = .ok artifacts)
    (hprecise : Precise disk h (k.tasks r plan (k.schedule r path))) (hstart : m.issued = [])
    (habsent : ∀ p ∈ r.artifacts.flatMap Artifact.intermediates ++ r.temporaries path,
      disk m.now p.components = none) {u : Unit}
    (hplay : (k.follow r path).play h.sparing m = (.ok u, m')) :
    Leaves disk (k.footprint r path) m.now m'.now := by
  have hschedule := schedule_of_plan k r hpath
  have htransients : ∀ p ∈ r.transients plan, disk m.now p.components = none := fun p hp =>
    habsent p ((List.mem_append.mp hp).elim (List.mem_append_left _) fun hp =>
      List.mem_append_right _ (r.mergedAssembly_subset_temporaries hpath hp))
  rw [follow_of_plan k r hpath] at hplay
  obtain ⟨objects, m₁, hpipeline, huse⟩ := Script.exists_play_of_bind hplay
  obtain ⟨rfl, hgone, hmade, hwithin⟩ := pipeline_leaves hk hdelete hprecise hremoves hplan
    (hschedule ▸ List.subset_append_left _ _) hstart htransients hpipeline
  have hleaves : Leaves disk (r.finalObjects plan) m.now m₁.now := by
    refine ⟨hmade, fun l hl => ?_⟩
    by_cases hmem : l ∈ Path.locations (r.transients plan)
    · obtain ⟨p, hp, rfl⟩ := Path.mem_locations_iff.mp hmem
      exact (hgone p hp).trans (htransients p hp).symm
    · refine hwithin.same l fun hproduced => ?_
      have hboth := Path.locations_subset (r.produced_subset plan) hproduced
      rw [Path.locations_append] at hboth
      exact (List.mem_append.mp hboth).elim hmem hl
  cases path with
  | transformCompile _ =>
      cases hpath
      cases huse.symm.trans (Script.play_done _)
      exact hleaves
  | transformLink output _ =>
      cases hpath
      cases hcore : k.toolchain.sstCore with
      | true =>
          have hheard : m'.now = h.hear (.noted (.linkDeferred output)) m₁.now := by
            simp [useMerged, linkObjects_eq, hcore, Script.say, Script.attempt, Script.bind,
              Moment.heard] at huse
            rw [← huse]
            rfl
          have hsame : disk m'.now = disk m₁.now := by rw [hheard, hprecise.hear]
          rw [footprint, if_pos hcore]
          exact hleaves.of_same hsame
      | false =>
          have hfinals : ∀ p ∈ r.finalObjects plan, disk m.now p.components = none := fun p hp =>
            habsent p (List.mem_append_right _ (List.mem_append_right _ hp))
          obtain ⟨hlinked, hgone', hwithin'⟩ := useMerged_leaves hk hdelete hprecise hremoves hcore
            (hschedule ▸ List.subset_append_right _ _) (fun p hp => finalObject_not_same hselect hp)
            (fun p hp hdir => by
              obtain ⟨c, hc⟩ := hmade p hp
              cases hc.symm.trans hdir) huse
          rw [footprint, if_neg (by simp [hcore])]
          refine ⟨hlinked, fun l hl => ?_⟩
          by_cases hmem : l ∈ Path.locations (r.finalObjects plan)
          · obtain ⟨p, hp, rfl⟩ := Path.mem_locations_iff.mp hmem
            exact (hgone' p hp).trans (hfinals p hp).symm
          · refine (hwithin'.same l ?_).trans (hleaves.same l hmem)
            rw [Path.locations_append, List.mem_append]
            exact fun hboth => hboth.elim hl hmem
  | _ => cases hpath

end Recipe

/-- If a build along a path with the transform succeeds that removes its intermediate files, with
sources in parallel or not, the files there afterwards are those that were there before and its
footprint: the final objects where objects were asked for or linking is left to the core build, and
else the executable, with a shared object exactly for position-independent code. All of the
footprint is as a successful command has written it, and nothing else has changed. It is assumed
that commands that succeed write just their own files, and that nothing was where the build keeps
files for its own use. -/
theorem successful_build_leaves_footprint (t : Toolchain) (ht : t.Named)
    (hdelete : t.toggles.deleteTemps = true) (r : Request) (plan : MergePlan)
    (hpath : (BuildPath.select t r).plan? = some plan) (home : Option Path) (h : Host σ)
    (disk : σ → Disk)
    (hprecise : Precise disk h ((Recipe.ofRequest t r).tasks r plan
      ((Recipe.ofRequest t r).schedule r (BuildPath.select t r))))
    (hremoves : Removes disk h) (s : σ)
    (habsent : ∀ p ∈ r.artifacts.flatMap Artifact.intermediates ++
      r.temporaries (BuildPath.select t r), disk s p.components = none)
    (hok : (((Invocation.build r).carryOut t home).run h s).result = .ok 0) :
    let left := (Recipe.ofRequest t r).footprint r (BuildPath.select t r)
    let final := (((Invocation.build r).carryOut t home).run h s).final
    (∀ l, (disk final l).isSome = true ↔
      (disk s l).isSome = true ∨ l ∈ Path.locations left) ∧
    (∀ p ∈ left, ∃ c, disk final p.components = some (.file (.written c (.exited 0)))) ∧
    ∀ l, l ∉ Path.locations left → disk final l = disk s l := by
  intro left final
  let k := Recipe.ofRequest t r
  let start := h.hear (.noted (.buildPath (BuildPath.select t r))) s
  let script := (k.follow r (BuildPath.select t r)).bind fun _ => .done (.ok (0 : Int32))
  have hresult : (script.run h start).result = .ok 0 := hok
  obtain ⟨artifacts, hplan⟩ : ∃ artifacts, r.planArtifacts plan = .ok artifacts := by
    cases hplan : r.planArtifacts plan with
    | ok artifacts => exact ⟨artifacts, rfl⟩
    | error e =>
        simp only [script, Recipe.follow_of_clash k hpath hplan] at hresult
        cases hresult
  have haccepted : ∀ plan', (BuildPath.select t r).plan? = some plan' →
      ∃ artifacts, r.planArtifacts plan' = .ok artifacts := by
    intro plan' hpath'
    cases hpath.symm.trans hpath'
    exact ⟨artifacts, hplan⟩
  have hcommands : ∀ y ∈ (script.run h start).commands, y.2 = .exited 0 := by
    have hall := (Invocation.accountable_carryOut_build (h := h) haccepted home).run s
    rw [hok] at hall
    exact hall
  have hplay : script.play h.sparing ⟨[], start⟩ =
      (.ok 0, ⟨(script.run h start).commands, final⟩) := by
    rw [Script.play, Script.run_sparing hcommands, hresult]
    rfl
  obtain ⟨_, m₁, hfollow, hend⟩ := Script.exists_play_of_bind hplay
  cases hend.symm.trans (Script.play_done _)
  have hheard : disk start = disk s := hprecise.hear _ s
  have hleaves := Recipe.follow_leaves (k := k) rfl ht hdelete hremoves hpath hplan hprecise rfl
    (fun p hp => (congrFun hheard _).trans (habsent p hp)) hfollow
  have hsame : ∀ l, l ∉ Path.locations left → disk final l = disk s l := fun l hl =>
    (hleaves.same l hl).trans (congrFun hheard l)
  refine ⟨fun l => ?_, hleaves.made, hsame⟩
  by_cases hl : l ∈ Path.locations left
  · obtain ⟨p, hp, rfl⟩ := Path.mem_locations_iff.mp hl
    obtain ⟨c, hc⟩ := hleaves.made p hp
    have hthere : disk final p.components = some (.file (.written c (.exited 0))) := hc
    simp [hthere, hl]
  · simp [hsame l hl, hl]

/-- The sample is linked, with a shared object, and none of its other files is left. -/
theorem successful_build_leaves_footprint_sample :
    let k := Recipe.ofRequest .sample .sample
    let path := BuildPath.select .sample .sample
    let h := Host.onDisk Toolchain.sampleProducts fun _ => .exited 0
    let run := ((Invocation.build .sample).carryOut .sample none).run h Disk.sample
    classify ["a.c", "-o", "out/prog", "d/./a.c", "start.S", "x.o", "a.cpp", "-Wl,--as-needed"] =
        .ok (.build .sample) ∧
      Toolchain.sample.Named ∧ Toolchain.sample.toggles.deleteTemps = true ∧
      path.plan? = some .sample ∧
      Precise (fun d => d) h (k.tasks .sample .sample (k.schedule .sample path)) ∧
      Removes (fun d => d) h ∧
      (∀ p ∈ Request.sample.artifacts.flatMap Artifact.intermediates ++
        Request.sample.temporaries path, Disk.sample p.components = none) ∧
      run.result = .ok 0 ∧ run.discards.length = 17 ∧
      k.footprint .sample path = [⟨"out/prog"⟩, ⟨"out/libprog.so"⟩] ∧
      ∀ l, (run.final l).isSome = true ↔ (Disk.sample l).isSome = true ∨
        l ∈ Path.locations [⟨"out/prog"⟩, ⟨"out/libprog.so"⟩] := by
  intro k path h run
  have hpath : path.plan? = some .sample := by decide
  have hprecise : Precise (fun d => d) h (k.tasks .sample .sample (k.schedule .sample path)) :=
    precise_onDisk Toolchain.sampleProducts_eq_writes
  have habsent : ∀ p ∈ Request.sample.artifacts.flatMap Artifact.intermediates ++
      Request.sample.temporaries path, Disk.sample p.components = none := by decide +kernel
  obtain ⟨hok, hremoved⟩ : run.result = .ok 0 ∧ run.discards.length = 17 := by decide +kernel
  have hleft : k.footprint .sample path = [⟨"out/prog"⟩, ⟨"out/libprog.so"⟩] := by decide +kernel
  have hfiles := (successful_build_leaves_footprint .sample Toolchain.named_sample rfl .sample
    .sample hpath none h (fun d => d) hprecise removes_onDisk Disk.sample habsent hok).1
  rw [hleft] at hfiles
  exact ⟨rfl, Toolchain.named_sample, rfl, hpath, hprecise, removes_onDisk, habsent, hok, hremoved,
    hleft, hfiles⟩

end Deglobal
