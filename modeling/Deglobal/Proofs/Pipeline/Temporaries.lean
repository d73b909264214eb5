import Deglobal.Proofs.Artifact.Spelling
import Deglobal.Proofs.Pipeline.Overwrite
import Deglobal.Proofs.Pipeline.Removals

/-! # Temporary objects after a failure

Some objects are made on the way to others only: those of assembly files that are
merged with the rest, and on the way to an executable all that it is linked of.
They are removed at other places than the files of a single source, and not all
of these places are reached in a build that fails. A temporary object that is
left then is of one of three kinds.
-/

namespace Deglobal

variable {σ : Type}

/-- The objects that a build makes for its own use only. -/
def Request.temporaries (r : Request) : BuildPath → List Path
  | .transformCompile plan => r.mergedAssembly plan
  | .transformLink _ plan => r.mergedAssembly plan ++ r.finalObjects plan
  | _ => []

theorem Request.temporaries_subset (r : Request) {path : BuildPath} {plan : MergePlan}
    (hpath : path.plan? = some plan) :
    r.temporaries path ⊆ r.mergedAssembly plan ++ r.finalObjects plan := by
  cases path with
  | transformCompile _ =>
      cases hpath
      exact List.subset_append_left _ _
  | transformLink _ _ =>
      cases hpath
      exact List.Subset.refl _
  | _ => exact List.nil_subset _

theorem Request.Accepted.temporary_notMem {r : Request} {plan : MergePlan} (hr : r.Accepted plan)
    {p : Path} (hp : p ∈ r.mergedAssembly plan ++ r.finalObjects plan) :
    p.components ∉ Path.locations (r.artifacts.flatMap Artifact.intermediates) := by
  intro hmem
  obtain ⟨q, hq, hsame⟩ := Path.mem_locations_iff.mp hmem
  rcases List.mem_append.mp hp with hp | hp
  · have hassembly : p ∈ r.assembly.map (assemblyObject plan) := by
      cases plan with
      | perSource => cases hp
      | consolidated target => exact hp
    have hsources := (Request.flatMap_intermediates_sublist r plan).subset hq
    refine hr.cross _ (Path.mem_locations hsources) ?_
    rw [hsame]
    exact Path.mem_locations hassembly
  · refine hr.transient_notMem (List.mem_append_left _ hq) ?_
    rw [hsame]
    exact Path.mem_locations hp

theorem Request.mergedAssembly_not_same {r : Request} {plan : MergePlan} {p : Path}
    (hp : p ∈ r.mergedAssembly plan) (output : Path) : ¬ p.Same (sharedObjectPath output) := by
  cases plan with
  | perSource => cases hp
  | consolidated target =>
      obtain ⟨file, _, rfl⟩ := List.mem_map.mp hp
      have hplain : Path.Plain (assemblyMark ++ file.fileName ++ ".o") :=
        Path.plain_marked_object (by decide) file.no_slash_fileName
      intro hsame
      have hlast := fileName_sharedObjectPath output
      rw [← hsame, assemblyObject, Path.components_sibling file hplain,
        List.getLast?_concat] at hlast
      injection hlast with hname
      injection hname with hname
      have hfirst := congrArg (fun n => n.toList.head?) hname
      simp [String.toList_append, assemblyMark] at hfirst

namespace Recipe

/-- How it comes that a build which fails leaves a temporary object, its pipeline having come to
`returned`. -/
inductive LeftBehind (k : Recipe) (r : Request) (plan : MergePlan)
    (returned : Except Failure (List Path)) (issued : List (Command × Outcome)) (p : Path) :
    Prop where
  /-- The last command of the pipeline was to write it and failed. -/
  | unfinished {e : Failure} {st : Step} {before : List (Command × Outcome)} {o : Outcome}
      (failure : returned = .error e) (step : st ∈ r.steps plan) (file : p ∈ st.writes plan)
      (last : issued = before ++ [(st.command k r plan, o)]) (outcome : o ≠ .exited 0)
  /-- It was made for a single source or assembly file, and the pipeline failed after that. -/
  | stranded {e : Failure} {st : Step} {o : Outcome} (failure : returned = .error e)
      (single : plan = .perSource) (step : st ∈ r.steps plan)
      (file : p.components ∈ Path.locations (st.writes plan))
      (ran : (st.command k r plan, o) ∈ issued)
  /-- It was merged, and the executable was linked in its place. -/
  | replaced {objects : List Path} (success : returned = .ok objects)
      (merged : p ∈ r.mergedAssembly plan) (place : p.Same r.executable)

/-- A temporary object is not there, or is what it was in state `s₀`, or was left behind. -/
def Settled (disk : σ → Disk) (k : Recipe) (r : Request) (plan : MergePlan)
    (returned : Except Failure (List Path)) (s₀ : σ) (m : Moment σ) (p : Path) : Prop :=
  Restored disk s₀ m.now p ∨ k.LeftBehind r plan returned m.issued p

/-- Where a pipeline ends, nothing of what it has merged of assembly files is left, and if it has
failed, all its temporary objects are accounted for. -/
def Tidied (disk : σ → Disk) (k : Recipe) (r : Request) (plan : MergePlan) (s₀ : σ)
    (result : Except Failure (List Path)) (m : Moment σ) : Prop :=
  match result with
  | .ok _ => ∀ p ∈ r.mergedAssembly plan, Restored disk s₀ m.now p
  | .error _ => ∀ p ∈ r.mergedAssembly plan ++ r.finalObjects plan,
      k.Settled disk r plan result s₀ m p

variable {disk : σ → Disk} {h : Host σ} {k : Recipe} {r : Request} {plan : MergePlan}
  {steps : List Step} {m m' : Moment σ} {s₀ : σ} {returned : Except Failure (List Path)}

theorem Settled.shrink {p : Path} (hp : k.Settled disk r plan returned s₀ m p)
    (hs : Shrinks disk m m') : k.Settled disk r plan returned s₀ m' p := by
  unfold Settled
  rw [hs.issued]
  exact hp.imp (fun hr => hr.shrink hs) id

theorem restored_cleanUp {tasks : List Task} (hdelete : k.deletesTemps = true)
    (horderly : Orderly disk h tasks) (hremoves : Removes disk h) (files : List Path)
    (hmade : NoNewDirectory disk s₀ m.now) :
    (k.cleanUp files).Ensures h (fun _ _ => True) (fun result m' => result = .ok () ∧
      (∀ p ∈ files, Restored disk s₀ m'.now p) ∧ Shrinks disk m m') m := by
  unfold cleanUp
  rw [if_pos hdelete]
  exact Script.restored_discardAll horderly hremoves files hmade

/-! ## A plan with one object -/

section Consolidated

variable {target : Path} (hdelete : k.deletesTemps = true)
  (hsteps : r.steps (.consolidated target) ⊆ steps)
  (horderly : Orderly disk h (k.tasks r (.consolidated target) steps))
  (hremoves : Removes disk h)

include hdelete hsteps horderly hremoves

/-- If an assembly file cannot be compiled, the objects made before it are not left; its own may be,
and those of later files are as they were. -/
theorem settled_assembleEach {made files : List Path} (hsub : files ⊆ r.assembly)
    (hapart : Path.Apart (files.map (assemblyObject (.consolidated target))))
    (hmade : NoNewDirectory disk s₀ m.now)
    (hbefore : ∀ p ∈ files.map (assemblyObject (.consolidated target)),
      disk m.now p.components = disk s₀ p.components) :
    (k.assembleEach (.consolidated target) made files).Ensures h (fun _ _ => True)
      (fun result m' => ∀ e, result = .error e →
        ∀ p ∈ made ++ files.map (assemblyObject (.consolidated target)),
          k.Settled disk r (.consolidated target) (.error e) s₀ m' p) m := by
  -- Of `made` nothing has to be known: whatever it holds is removed at the first failure.
  induction files generalizing made m with
  | nil =>
      intro e heq
      cases heq
  | cons file rest ih =>
      have hstep : Step.assemble file ∈ r.steps (.consolidated target) :=
        assemble_mem_steps (hsub List.mem_cons_self)
      rw [List.map_cons, ← List.singleton_append] at hapart
      rw [assembleEach_cons]
      refine ((Script.within_check horderly (mem_tasks (hsteps hstep)) m).and
        (Script.ensures_check_failed _ m)).attempt_bind fun result m₁ hend => ?_
      obtain ⟨hwithin, hfailed⟩ := hend
      have hmade₁ := hmade.keep hwithin
      have hbefore₁ : ∀ p ∈ rest.map (assemblyObject (.consolidated target)),
          disk m₁.now p.components = disk s₀ p.components := fun p hp =>
        (hwithin.same _ (hapart.notMem_right hp)).trans (hbefore p (List.mem_cons_of_mem _ hp))
      cases result with
      | ok _ =>
          rw [List.map_cons, List.append_cons]
          exact ih (fun f hf => hsub (List.mem_cons_of_mem file hf))
            (Path.apart_append.mp hapart).2.1 hmade₁ hbefore₁
      | error e =>
          obtain ⟨o, ho, hissued⟩ := hfailed e rfl
          refine (restored_cleanUp hdelete horderly hremoves made hmade₁).bind_of_ok
            fun m₂ hclean => ?_
          obtain ⟨hcleaned, hshrinks⟩ := hclean
          intro e' _ p hp
          rcases List.mem_append.mp hp with hp | hp
          · exact Or.inl (hcleaned p hp)
          · rcases List.mem_cons.mp hp with rfl | hp
            · exact Or.inr (.unfinished rfl hstep List.mem_cons_self
                (hshrinks.issued.trans hissued) ho)
            · exact Or.inl (Restored.shrink (Or.inr (hbefore₁ p hp)) hshrinks)

/-- However the merge ends, nothing is left of the assembly files; of a merge that fails the target
may be. -/
theorem settled_mergeAll (hmade : NoNewDirectory disk s₀ m.now) :
    (k.mergeAll (r.looseObjects (.consolidated target)) target).Ensures h (fun _ _ => True)
      (fun result m' =>
        (∀ p ∈ r.mergedAssembly (.consolidated target), Restored disk s₀ m'.now p) ∧
        ∀ e, result = .error e → k.Settled disk r (.consolidated target) (.error e) s₀ m' target)
      m := by
  have hstep := mergeAll_mem_steps r target
  have hpart : r.mergedAssembly (.consolidated target) ⊆ r.looseObjects (.consolidated target) :=
    List.subset_append_right _ _
  rw [mergeAll_eq]
  refine ((Script.within_check horderly (mem_tasks (hsteps hstep)) m).and
    (Script.ensures_check_failed _ m)).attempt_bind fun result m₁ hend => ?_
  obtain ⟨hwithin, hfailed⟩ := hend
  have hmade₁ := hmade.keep hwithin
  cases result with
  | ok _ =>
      refine (Script.restored_discardAll horderly hremoves _ hmade₁).mono fun _ m₂ hdiscarded => ?_
      refine ⟨fun p hp => hdiscarded.2.1 p (hpart hp), fun e herror => ?_⟩
      cases hdiscarded.1.symm.trans herror
  | error e =>
      obtain ⟨o, ho, hissued⟩ := hfailed e rfl
      refine Script.ensures_say_bind ?_
      refine (restored_cleanUp hdelete horderly hremoves _ (hmade₁.heard horderly)).bind_of_ok
        fun m₂ hclean => ?_
      obtain ⟨hcleaned, hshrinks⟩ := hclean
      exact ⟨fun p hp => hcleaned p (hpart hp), fun _ _ => Or.inr (.unfinished rfl hstep
        List.mem_cons_self (hshrinks.issued.trans hissued) ho)⟩

theorem tidied_finish (hmade : NoNewDirectory disk s₀ m.now)
    {assembled : Except Failure (List Path)} (hassembled : ∀ objects, assembled = .ok objects →
      objects = r.assembly.map (assemblyObject (.consolidated target)))
    (hfailed : ∀ e, assembled = .error e →
      ∀ p ∈ r.mergedAssembly (.consolidated target) ++ [target],
        k.Settled disk r (.consolidated target) (.error e) s₀ m p) :
    (k.finish r.artifacts (.consolidated target) assembled).Ensures h (fun _ _ => True)
      (k.Tidied disk r (.consolidated target) s₀) m := by
  cases assembled with
  | error e =>
      exact (restored_cleanUp hdelete horderly hremoves _ hmade).bind_of_ok
        fun m₁ hclean p hp => (hfailed e rfl p hp).shrink hclean.2
  | ok objects =>
      rw [hassembled objects rfl]
      refine (settled_mergeAll hdelete hsteps horderly hremoves hmade).bind
        (fun _ m₁ hmerged => hmerged.1) (fun e m₁ hmerged p hp => ?_)
      rcases List.mem_append.mp hp with hp | hp
      · exact Or.inl (hmerged.1 p hp)
      · rw [List.mem_singleton.mp hp]
        exact hmerged.2 e rfl

/-- A pipeline with one object tidies up as far as its own last command lets it. -/
theorem tidied_pipeline_of_consolidated {artifacts : List Artifact}
    (hplan : r.planArtifacts (.consolidated target) = .ok artifacts)
    (hbefore : disk m.now = disk s₀) :
    (k.pipeline r (.consolidated target)).Ensures h (fun _ _ => True)
      (k.Tidied disk r (.consolidated target) s₀) m := by
  have hr := Request.accepted_of_planArtifacts hplan
  have hstart : NoNewDirectory disk s₀ m.now := fun l hl => by rwa [hbefore] at hl
  rw [pipeline_of_plan k hplan, Request.planArtifacts_eq hplan]
  refine (within_transformAll hsteps horderly m).bind (fun _ m₁ hfront => ?_)
    (fun e m₁ hfront p hp => ?_)
  · -- The front halves leave all temporary objects alone, so a later failure starts from `s₀`.
    have hsame : ∀ p ∈ r.mergedAssembly (.consolidated target) ++ [target],
        disk m₁.now p.components = disk s₀ p.components := fun p hp => by
      rw [hfront.same _ (hr.temporary_notMem hp), hbefore]
    have hmade := hstart.keep hfront
    refine ((settled_assembleEach hdelete hsteps horderly hremoves (List.Subset.refl _) hr.assembly
      hmade fun p hp => hsame p (List.mem_append_left _ hp)).and
      (within_assembleEach hsteps horderly (List.Subset.refl _) m₁)).attempt_bind
      fun assembled m₂ hend => ?_
    obtain ⟨hfailed, hassembled, hwithin⟩ := hend
    refine tidied_finish hdelete hsteps horderly hremoves (hmade.keep hwithin) hassembled
      fun e herror p hp => ?_
    rcases List.mem_append.mp hp with hp | hp
    · exact hfailed e herror p hp
    · have htarget : target.components ∉ Path.locations
          ([] ++ r.assembly.map (assemblyObject (.consolidated target))) := fun hmem =>
        hr.target target rfl (by rw [Path.locations_append]; exact List.mem_append_right _ hmem)
      have hkept : Restored disk s₀ m₁.now target :=
        Or.inr (hsame target (List.mem_append_right _ List.mem_cons_self))
      rw [List.mem_singleton.mp hp]
      exact Or.inl (hkept.keep hwithin htarget)
  · refine Or.inl (Or.inr ?_)
    rw [hfront.same _ (hr.temporary_notMem hp), hbefore]

end Consolidated

/-! ## Whole builds -/

/-- A pipeline that makes an object for each source and assembly file leaves what its commands have
written of these. -/
theorem tidied_pipeline_of_perSource {artifacts : List Artifact}
    (hplan : r.planArtifacts .perSource = .ok artifacts) (hsteps : r.steps .perSource ⊆ steps)
    (horderly : Orderly disk h (k.tasks r .perSource steps)) (hbefore : disk m.now = disk s₀) :
    (k.pipeline r .perSource).Ensures h (fun _ _ => True) (k.Tidied disk r .perSource s₀) m := by
  have hr := Request.accepted_of_planArtifacts hplan
  have halways : (k.pipeline r .perSource).Always
      (fun c => ∃ st ∈ r.steps .perSource, c = st.command k r .perSource)
      (· ∈ r.transients .perSource) fun result => ∀ objects, result = .ok objects →
        objects = r.finalObjects .perSource :=
    always_pipeline hplan (fun st hst => ⟨st, hst, rfl⟩) (fun _ h => h)
  have htask : ∀ c, (∃ st ∈ r.steps .perSource, c = st.command k r .perSource) →
      ∃ files, (c, files) ∈ k.tasks r .perSource (r.steps .perSource) := by
    rintro c ⟨st, hst, rfl⟩
    exact ⟨_, mem_tasks hst⟩
  have hown := horderly.subset (List.map_subset _ hsteps)
  refine (halways.changedByTasks hown htask (fun p hp => Path.mem_locations hp) m).mono
    fun result m' hend => ?_
  obtain ⟨_, new, hissued, hchange⟩ := hend
  cases result with
  | ok objects => exact fun p hp => absurd hp List.not_mem_nil
  | error e =>
      intro p hp
      have hout : p.components ∉ Path.locations (r.transients .perSource) := by
        simpa [Request.transients, Request.mergedAssembly] using hr.temporary_notMem hp
      rcases hchange _ hout with hsame | ⟨task, htask, hl, o, ho⟩
      · exact Or.inl (Or.inr (hsame.trans (congrFun hbefore _)))
      · obtain ⟨st, hst, rfl⟩ := List.mem_map.mp htask
        have hran : (st.command k r .perSource, o) ∈ m'.issued := by
          rw [hissued]
          exact List.mem_append_right _ ho
        exact Or.inr (.stranded rfl rfl hst hl hran)

theorem tidied_pipeline {artifacts : List Artifact} (hdelete : k.deletesTemps = true)
    (hplan : r.planArtifacts plan = .ok artifacts) (hsteps : r.steps plan ⊆ steps)
    (horderly : Orderly disk h (k.tasks r plan steps)) (hremoves : Removes disk h)
    (hbefore : disk m.now = disk s₀) :
    (k.pipeline r plan).Ensures h (fun _ _ => True) (k.Tidied disk r plan s₀) m := by
  cases plan with
  | perSource => exact tidied_pipeline_of_perSource hplan hsteps horderly hbefore
  | consolidated target =>
      exact tidied_pipeline_of_consolidated hdelete hsteps horderly hremoves hplan hbefore

theorem within_pipeline {artifacts : List Artifact} (hplan : r.planArtifacts plan = .ok artifacts)
    (hsteps : r.steps plan ⊆ steps) (horderly : Orderly disk h (k.tasks r plan steps))
    (m : Moment σ) :
    (k.pipeline r plan).Ensures h (fun _ _ => True) (fun result m' =>
      (∀ objects, result = .ok objects → objects = r.finalObjects plan) ∧
        Within disk (Path.locations (r.produced plan)) m m') m := by
  have halways : (k.pipeline r plan).Always
      (fun c => ∃ st ∈ r.steps plan, c = st.command k r plan) (· ∈ r.transients plan)
      fun result => ∀ objects, result = .ok objects → objects = r.finalObjects plan :=
    always_pipeline hplan (fun st hst => ⟨st, hst, rfl⟩) (fun _ h => h)
  refine halways.within horderly (fun _ _ _ => trivial) ?_
    (fun p hp => Path.mem_locations (r.transients_subset_produced plan hp)) m
  rintro c ⟨st, hst, rfl⟩
  exact ⟨_, mem_tasks (hsteps hst), locations_writes_subset_produced hst⟩

theorem within_linkObjects {output : Path} (hsteps : k.linkSteps output ⊆ steps)
    (horderly : Orderly disk h (k.tasks r plan steps)) (m : Moment σ) :
    (k.linkObjects (r.finalObjects plan ++ r.objects) output r.linkerArgs).Ensures h
      (fun _ _ => True)
      (fun _ m' => Within disk (Path.locations [output, sharedObjectPath output]) m m') m := by
  have halways : (k.linkObjects (r.finalObjects plan ++ r.objects) output r.linkerArgs).Always
      (fun c => ∃ st ∈ k.linkSteps output, c = st.command k r plan) (fun _ => False)
      fun _ => True := always_linkObjects fun st hst => ⟨st, hst, rfl⟩
  refine (halways.within horderly (fun _ _ _ => trivial) ?_ (fun _ hp => hp.elim) m).mono
    fun _ _ hend => hend.2
  rintro c ⟨st, hst, rfl⟩
  refine ⟨st.writes plan, mem_tasks (hsteps hst), Path.locations_subset ?_⟩
  rcases mem_linkSteps hst with rfl | rfl <;> simp [Step.writes]

/-- However a link ends, no final object is left after it, and no object of an assembly file but one
that the executable was put in the place of. -/
theorem restored_useMerged {output : Path} (hdelete : k.deletesTemps = true)
    (hcore : k.toolchain.sstCore = false) (hsteps : k.linkSteps output ⊆ steps)
    (horderly : Orderly disk h (k.tasks r plan steps)) (hremoves : Removes disk h)
    (hmade : NoNewDirectory disk s₀ m.now)
    (hassembly : ∀ p ∈ r.mergedAssembly plan, Restored disk s₀ m.now p) :
    (k.useMerged r (.transformLink output plan) (r.finalObjects plan)).Ensures h (fun _ _ => True)
      (fun _ m' => ∀ p ∈ r.mergedAssembly plan ++ r.finalObjects plan,
        Restored disk s₀ m'.now p ∨ p ∈ r.mergedAssembly plan ∧ p.Same output) m := by
  refine (within_linkObjects hsteps horderly m).attempt_bind fun result m₁ hwithin => ?_
  rw [if_pos (by simp [hcore])]
  refine (restored_cleanUp hdelete horderly hremoves _ (hmade.keep hwithin)).bind_of_ok
    fun m₂ hclean p hp => ?_
  rcases List.mem_append.mp hp with hp | hp
  · -- Planning does not compare its objects with the executable, so the two may coincide.
    by_cases hplace : p.Same output
    · exact Or.inr ⟨hp, hplace⟩
    · have hout : p.components ∉ Path.locations [output, sharedObjectPath output] := by
        simp only [Path.locations_cons, Path.locations_nil, List.mem_cons, List.not_mem_nil,
          or_false, not_or]
        exact ⟨hplace, Request.mergedAssembly_not_same hp output⟩
      exact Or.inl (((hassembly p hp).keep hwithin hout).shrink hclean.2)
  · exact Or.inl (hclean.1 p hp)

theorem settled_follow {path : BuildPath} {e : Failure} (hdelete : k.deletesTemps = true)
    (hcore : k.toolchain.sstCore = false) (hpath : path.plan? = some plan)
    (houtput : ∀ output plan', path = .transformLink output plan' → output = r.executable)
    (horderly : Orderly disk h (k.tasks r plan (k.schedule r path))) (hremoves : Removes disk h)
    (hbefore : disk m.now = disk s₀) (hfail : (k.follow r path).play h m = (.error e, m')) :
    ∀ p ∈ r.temporaries path,
      k.Settled disk r plan ((k.pipeline r plan).play h m).1 s₀ m' p := by
  rw [schedule_of_plan k r hpath] at horderly
  have hsteps : r.steps plan ⊆ r.steps plan ++ k.laterSteps path := List.subset_append_left _ _
  cases hplan : r.planArtifacts plan with
  | error clash =>
      rw [follow_of_clash k hpath hplan, Script.play_done] at hfail
      cases hfail
      exact fun p _ => Or.inl (Or.inr (congrFun hbefore _))
  | ok artifacts =>
      have htidied : k.Tidied disk r plan s₀ ((k.pipeline r plan).play h m).1
          ((k.pipeline r plan).play h m).2 :=
        (tidied_pipeline hdelete hplan hsteps horderly hremoves hbefore).play
      have hmade := (within_pipeline hplan hsteps horderly m).play
      have hstart : NoNewDirectory disk s₀ m.now := fun l hl => by rwa [hbefore] at hl
      rw [follow_of_plan k r hpath] at hfail
      rcases hplay : (k.pipeline r plan).play h m with ⟨result, m₁⟩
      rw [hplay] at htidied hmade
      cases result with
      | error e' =>
          rw [Script.play_bind_of_error hplay] at hfail
          cases hfail
          exact fun p hp => htidied p (r.temporaries_subset hpath hp)
      | ok objects =>
          rw [Script.play_bind_of_ok hplay, hmade.1 objects rfl] at hfail
          cases path with
          | transformCompile _ => cases hfail
          | transformLink output plan' =>
              cases hpath
              have hlink := (restored_useMerged hdelete hcore (List.subset_append_right _ _)
                horderly hremoves (hstart.keep hmade.2) htidied).play
              rw [hfail] at hlink
              intro p hp
              rcases hlink p hp with hrestored | ⟨hmerged, hplace⟩
              · exact Or.inl hrestored
              · rw [houtput output plan rfl] at hplace
                exact Or.inr (.replaced rfl hmerged hplace)
          | _ => exact fun p hp => absurd hp List.not_mem_nil

end Recipe

/-- If a build fails that removes its intermediate files and does its own linking, whatever its
commands answer, each of its temporary objects is gone or as it was before, with three exceptions:
the object that the last command was to write when it failed, objects made for single sources and
assembly files before a later step of the pipeline failed, and a merged object that the executable
was linked in the place of. -/
theorem failed_build_temporaries (t : Toolchain) (hdelete : t.toggles.deleteTemps = true)
    (hcore : t.sstCore = false) (r : Request) (plan : MergePlan)
    (hpath : (BuildPath.select t r).plan? = some plan) (home : Option Path) (h : Host σ)
    (disk : σ → Disk)
    (horderly : Orderly disk h ((Recipe.ofRequest t r).tasks r plan
      ((Recipe.ofRequest t r).schedule r (BuildPath.select t r))))
    (hremoves : Removes disk h) (s : σ) (e : Failure)
    (hfail : (((Invocation.build r).carryOut t home).run h s).result = .error e) :
    let k := Recipe.ofRequest t r
    let path := BuildPath.select t r
    let run := ((Invocation.build r).carryOut t home).run h s
    let returned := ((k.pipeline r plan).run h (h.hear (.noted (.buildPath path)) s)).result
    ∀ p ∈ r.temporaries path,
      disk run.final p.components = none ∨ disk run.final p.components = disk s p.components ∨
        k.LeftBehind r plan returned run.commands p := by
  intro k path run returned p hp
  have hbefore : disk (h.hear (.noted (.buildPath path)) s) = disk s := horderly.hear _ _
  let start : Moment σ := ⟨[], h.hear (.noted (.buildPath path)) s⟩
  have hwhole : ((k.follow r path).bind fun _ => .done (.ok (0 : Int32))).play h start =
      (.error e, ⟨run.commands, run.final⟩) := Prod.ext hfail rfl
  have hfollow : (k.follow r path).play h start = (.error e, ⟨run.commands, run.final⟩) :=
    Script.play_of_bind_done hwhole
  have houtput : ∀ output plan', path = .transformLink output plan' → output = r.executable :=
    fun _ _ => BuildPath.output_of_select
  have hsettled := Recipe.settled_follow (k := k) hdelete hcore hpath houtput horderly hremoves
    hbefore hfollow p hp
  exact or_assoc.mp hsettled

def Outcome.failingOn (word : String) (c : Command) : Outcome :=
  if c.hasArg word then .exited 1 else .exited 0

def Disk.holding (files : List Path) : Disk := fun l =>
  if (Path.locations files).contains l then some (.file .given) else none

/-- If the merge of the sample fails, what has been written of its target is left, and nothing of
the assembly file. -/
theorem failed_build_temporaries_sample :
    let k := Recipe.ofRequest .sample .sample
    let path := BuildPath.select .sample .sample
    let h := Host.onDisk Toolchain.sampleProducts (Outcome.failingOn "-nostdlib")
    let run := ((Invocation.build .sample).carryOut .sample none).run h Disk.sample
    let returned := ((k.pipeline .sample .sample).run h Disk.sample).result
    Toolchain.sample.toggles.deleteTemps = true ∧ Toolchain.sample.sstCore = false ∧
      path.plan? = some .sample ∧
      Orderly (fun d => d) h (k.tasks .sample .sample (k.schedule .sample path)) ∧
      Removes (fun d => d) h ∧ run.result = .error (.tool "g++" 1) ∧
      (∀ p ∈ Request.sample.temporaries path, run.final p.components = none ∨
        run.final p.components = Disk.sample p.components ∨
        k.LeftBehind .sample .sample returned run.commands p) ∧
      Request.sample.temporaries path = [⟨"sstasm.start.S.o"⟩, ⟨"out/sstmerged.prog.o"⟩] ∧
      run.final (Path.mk "sstasm.start.S.o").components = none ∧
      run.final (Path.mk "out/sstmerged.prog.o").components ≠ none := by
  intro k path h run returned
  have hpath : path.plan? = some .sample := by decide
  have horderly : Orderly (fun d => d) h
      (k.tasks .sample .sample (k.schedule .sample path)) :=
    orderly_onDisk Toolchain.sampleProducts_eq_writes
  obtain ⟨hfail, hlist, hgone, hleft⟩ : run.result = .error (.tool "g++" 1) ∧
      Request.sample.temporaries path = [⟨"sstasm.start.S.o"⟩, ⟨"out/sstmerged.prog.o"⟩] ∧
      run.final (Path.mk "sstasm.start.S.o").components = none ∧
      run.final (Path.mk "out/sstmerged.prog.o").components ≠ none := by decide +kernel
  exact ⟨rfl, rfl, hpath, horderly, removes_onDisk, hfail,
    failed_build_temporaries .sample rfl rfl .sample .sample hpath none h (fun d => d) horderly
      removes_onDisk Disk.sample _ hfail, hlist, hgone, hleft⟩

/-- An object that was merged on the way to an executable is left when the next merge fails. -/
theorem failed_merge_strands_object :
    let r : Request := { sources := [⟨"a.cpp"⟩, ⟨"b.cpp"⟩] }
    let k := Recipe.ofRequest .sample r
    let path := BuildPath.transformLink ⟨"a.out"⟩ .perSource
    let h := Host.onDisk Toolchain.sampleProducts (Outcome.failingOn "b.o")
    let run := ((Invocation.build r).carryOut .sample none).run h (Disk.holding r.inputs)
    classify ["a.cpp", "b.cpp"] = .ok (.build r) ∧ BuildPath.select .sample r = path ∧
      Toolchain.sample.toggles.deleteTemps = true ∧ Toolchain.sample.sstCore = false ∧
      Orderly (fun d => d) h (k.tasks r .perSource (k.schedule r path)) ∧
      Removes (fun d => d) h ∧ run.result = .error (.tool "g++" 1) ∧
      ⟨"a.o"⟩ ∈ r.temporaries path ∧
      Disk.holding r.inputs (Path.mk "a.o").components = none ∧
      run.final (Path.mk "a.o").components ≠ none := by
  intro r k path h run
  have hproducts : ∀ task ∈ k.tasks r .perSource (k.schedule r path),
      Toolchain.sampleProducts task.1 = task.2 := by decide +kernel
  have hrun : run.result = .error (.tool "g++" 1) ∧ ⟨"a.o"⟩ ∈ r.temporaries path ∧
      Disk.holding r.inputs (Path.mk "a.o").components = none ∧
      run.final (Path.mk "a.o").components ≠ none := by decide +kernel
  exact ⟨rfl, by decide, rfl, rfl, orderly_onDisk hproducts, removes_onDisk, hrun⟩

end Deglobal
