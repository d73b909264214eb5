import Deglobal.Proofs.Pipeline.Effects

/-! # What a failed pipeline leaves behind

Cleaning up is spread over the functions of the pipeline: a source removes its
own files, sources that came to their end have their objects removed when another
fails, and a merge that fails removes what it and the later ones would have
merged. Each function is shown to leave no file behind that no later one removes,
and a file that is gone stays gone because later steps write other files.
-/

namespace Deglobal

variable {σ : Type}

/-! ## Commands and sources -/

namespace Recipe

/-- The last two words of the commands of a source, the last one first. -/
def endings (a : Artifact) : List (List String) :=
  [[a.preprocessed.text, "-o"], ["--", a.preprocessed.text],
    ["--no-integrated-cpp", a.transformedSource.text], [a.companionSource.text, "-c"]]

theorem ending_mem {k : Recipe} {a : Artifact} {c : Command} (hc : c ∈ k.frontHalf a) :
    c.args.reverse.take 2 ∈ endings a := by
  simp only [frontHalf, List.mem_cons, List.not_mem_nil, or_false] at hc
  rcases hc with rfl | rfl | rfl | rfl
  · simp [preprocess, endings, Command.output, Command.path, Command.arg]
  · simp [transform, endings, Command.path, Command.arg]
  · simp [compile, endings, Command.path, Command.arg]
  · simp [companion, endings, Command.path, Command.arg]

theorem dot_mem_preprocessed {r : Request} {a : Artifact} (ha : a ∈ r.artifacts) :
    '.' ∈ a.preprocessed.text.toList := by
  obtain ⟨source, _, h⟩ := Request.mem_artifacts ha
  rw [h]
  refine source.mem_text_sibling ?_
  rw [String.toList_append]
  exact List.mem_append_left _ (by decide)

theorem dot_mem_transformedSource {r : Request} {a : Artifact} (ha : a ∈ r.artifacts) :
    '.' ∈ a.transformedSource.text.toList := by
  obtain ⟨source, _, h⟩ := Request.mem_artifacts ha
  rw [h]
  refine source.mem_text_sibling ?_
  rw [String.toList_append]
  exact List.mem_append_left _ (by decide)

/-- A command belongs to one source only: its last words name a file of that source. -/
theorem owner_of_frontHalf {k : Recipe} {r : Request}
    (hapart : Path.Apart (r.artifacts.flatMap Artifact.intermediates)) {a b : Artifact}
    (ha : a ∈ r.artifacts) (hb : b ∈ r.artifacts) {c : Command} (hca : c ∈ k.frontHalf a)
    (hcb : c ∈ k.frontHalf b) : a = b := by
  have howner : ∀ {p q : Path}, p ∈ a.intermediates → q ∈ b.intermediates → p.text = q.text →
      a = b := by
    intro p q hp hq heq
    obtain ⟨text⟩ := p
    cases heq
    exact hapart.owner ha hb hp hq rfl
  have hfiles : ∀ d : Artifact, d.preprocessed ∈ d.intermediates ∧
      d.transformedSource ∈ d.intermediates ∧ d.companionSource ∈ d.intermediates := by
    simp [Artifact.intermediates, Artifact.sourceFiles]
  -- No file name is one of the flags, so only endings of the same form can be equal.
  have hnames : ∀ {p : Path}, '.' ∈ p.text.toList → "-o" ≠ p.text ∧ "-c" ≠ p.text := by
    intro p hp
    constructor <;> intro heq <;> rw [← heq] at hp <;> exact absurd hp (by decide)
  obtain ⟨hpo, hpc⟩ := hnames (dot_mem_preprocessed ha)
  obtain ⟨hto, htc⟩ := hnames (dot_mem_transformedSource ha)
  obtain ⟨hpo', hpc'⟩ := hnames (dot_mem_preprocessed hb)
  obtain ⟨hto', htc'⟩ := hnames (dot_mem_transformedSource hb)
  have hending := ending_mem hca
  have hending' := ending_mem hcb
  generalize c.args.reverse.take 2 = ending at hending hending'
  simp only [endings, List.mem_cons, List.not_mem_nil, or_false] at hending
  rcases hending with rfl | rfl | rfl | rfl
  · have heq : a.preprocessed.text = b.preprocessed.text := by
      simpa [endings, hpo', hto'] using hending'
    exact howner (hfiles a).1 (hfiles b).1 heq
  · have heq : a.preprocessed.text = b.preprocessed.text := by
      simpa [endings, hpo.symm, hpc.symm] using hending'
    exact howner (hfiles a).1 (hfiles b).1 heq
  · have heq : a.transformedSource.text = b.transformedSource.text := by
      simpa [endings, hto.symm, htc.symm] using hending'
    exact howner (hfiles a).2.1 (hfiles b).2.1 heq
  · have heq : a.companionSource.text = b.companionSource.text := by
      simpa [endings, hpc', htc'] using hending'
    exact howner (hfiles a).2.2 (hfiles b).2.2 heq

/-! ## Files that are gone -/

section Gone

variable {disk : σ → Disk} {h : Host σ} {k : Recipe} {r : Request} {plan : MergePlan}
  {steps : List Step} {m : Moment σ}

theorem gone_cleanUp {tasks : List Task} (hdelete : k.deletesTemps = true)
    (horderly : Orderly disk h tasks) (hremoves : Removes disk h) {files part : List Path}
    (hpart : part ⊆ files) (hclear : Clear disk m.now part) :
    (k.cleanUp files).Ensures h (fun _ _ => True) (fun result m' => result = .ok () ∧
      Gone disk m'.now part ∧ Shrinks disk m m') m := by
  unfold cleanUp
  rw [if_pos hdelete]
  exact Script.gone_discardAll horderly hremoves hpart hclear

variable (hdelete : k.deletesTemps = true) (hsteps : r.steps plan ⊆ steps)
  (horderly : Orderly disk h (k.tasks r plan steps)) (hremoves : Removes disk h)

include hdelete hsteps horderly hremoves

/-- A source leaves nothing if it fails, and only its objects if not. -/
theorem gone_transformSource {a : Artifact} (ha : a ∈ r.artifacts)
    (hclear : Clear disk m.now a.intermediates) :
    (k.transformSource a).Ensures h (fun _ _ => True)
      (fun result m' => Gone disk m'.now (spent a result)) m := by
  have hfront : (checkAll (k.frontHalf a)).Always (· ∈ k.frontHalf a) (fun _ => False)
      fun _ => True := always_checkAll fun _ h => h
  rw [transformSource_eq]
  refine (hfront.within horderly (fun _ _ _ => trivial)
    (fun c hc => task_of_frontHalf hsteps ha hc) (fun _ hp => hp.elim) m).attempt_bind
    fun result m₁ hend => ?_
  have hclear₁ := (hclear.keep hend.2).subset (spent_subset a result)
  exact (gone_cleanUp hdelete horderly hremoves (List.Subset.refl _) hclear₁).bind_of_ok
    fun _ hclean => hclean.1

/-- Sources that were not reached have had no command, and each of the others has left nothing but
the objects of one that came to its end. -/
theorem gone_transformEach {artifacts : List Artifact} (hsub : artifacts ⊆ r.artifacts)
    (hapart : Path.Apart (artifacts.flatMap Artifact.intermediates))
    (hclear : ∀ a ∈ artifacts, Clear disk m.now a.intermediates) (toTheEnd : Bool) :
    (k.transformEach toTheEnd artifacts).Ensures h (fun _ _ => True) (fun result m' =>
      ∀ results, result = .ok results →
        (∀ x ∈ results, Gone disk m'.now (spent x.1 x.2)) ∧
          Moment.Issued (fun c => ∃ x ∈ results, c ∈ k.frontHalf x.1) m m') m := by
  induction artifacts generalizing m with
  | nil =>
      intro results heq
      cases heq
      exact ⟨fun _ hx => absurd hx List.not_mem_nil, [], (List.append_nil _).symm,
        fun _ hx => absurd hx List.not_mem_nil⟩
  | cons a rest ih =>
      rw [List.flatMap_cons] at hapart
      have ha : a ∈ r.artifacts := hsub List.mem_cons_self
      have hrest : rest ⊆ r.artifacts := fun b hb => hsub (List.mem_cons_of_mem a hb)
      have halways : (k.transformSource a).Always (· ∈ k.frontHalf a) (fun _ => True)
          fun _ => True := always_transformSource (fun _ h => h) (fun _ _ _ => trivial)
      rw [transformEach_cons]
      refine ((gone_transformSource hdelete hsteps horderly hremoves ha
        (hclear a List.mem_cons_self)).and ((within_transformSource hsteps horderly ha m).and
          (halways.issues m))).attempt_bind fun result m₁ hend => ?_
      obtain ⟨hgone, hwithin, _, new, hissued, hnew⟩ := hend
      split
      · refine ((ih hrest (Path.apart_append.mp hapart).2.1 fun b hb =>
          (hclear b (List.mem_cons_of_mem a hb)).keep hwithin).and
          (within_transformEach hsteps horderly hrest toTheEnd m₁)).bind
          (fun others m₂ hend₂ results heq => ?_) (fun _ _ _ _ heq => by cases heq)
        obtain ⟨hothers, _, hwithin₂⟩ := hend₂
        obtain ⟨hgones, new', hissued', hnew'⟩ := hothers others rfl
        cases heq
        refine ⟨fun x hx => ?_, new ++ new', ?_, fun y hy => ?_⟩
        · rcases List.mem_cons.mp hx with rfl | hx
          · exact hgone.keep hwithin₂ fun p hp => hapart.notMem (spent_subset a result hp)
          · exact hgones x hx
        · rw [hissued', hissued, List.append_assoc]
        · rcases List.mem_append.mp hy with hy | hy
          · exact ⟨(a, result), List.mem_cons_self, hnew y hy⟩
          · obtain ⟨x, hx, hc⟩ := hnew' y hy
            exact ⟨x, List.mem_cons_of_mem _ hx, hc⟩
      · intro results heq
        cases heq
        refine ⟨fun x hx => ?_, new, hissued, fun y hy => ?_⟩
        · rw [List.mem_singleton.mp hx]
          exact hgone
        · exact ⟨(a, result), List.mem_cons_self, hnew y hy⟩

theorem gone_transformAll
    (hapart : Path.Apart (r.artifacts.flatMap Artifact.intermediates))
    (hclear : ∀ a ∈ r.artifacts, Clear disk m.now a.intermediates) (hstart : m.issued = []) :
    (k.transformAll r.artifacts).Ensures h (fun _ _ => True) (fun result m' =>
      match result with
      | .ok _ => ∀ a ∈ r.artifacts, Gone disk m'.now a.sourceFiles
      | .error _ => ∀ a ∈ r.artifacts, (∃ x ∈ m'.issued, x.1 ∈ k.frontHalf a) →
          Gone disk m'.now a.intermediates) m := by
  rw [transformAll_eq]
  refine (within_announce horderly _ _ m).bind_of_ok fun m₁ hannounced => ?_
  obtain ⟨hwithin, hissued⟩ := hannounced
  have hclear₁ : ∀ a ∈ r.artifacts, Clear disk m₁.now a.intermediates :=
    fun a ha => (hclear a ha).keep hwithin
  refine ((gone_transformEach hdelete hsteps horderly hremoves (List.Subset.refl _) hapart hclear₁
    _).and (within_transformEach hsteps horderly (List.Subset.refl _) _ m₁)).bind
    (fun results m₂ hend => ?_) (fun e _ hend => by obtain ⟨_, ⟨_, heq, _⟩, _⟩ := hend; cases heq)
  obtain ⟨hresults, ⟨_, heq, hcovers⟩, hwithin₂⟩ := hend
  cases heq
  obtain ⟨hgones, new, hnew_issued, hnew⟩ := hresults results rfl
  unfold conclude
  cases hfirst : firstFailure? results with
  | none => exact fun a ha => hgones _ (hcovers.mem_of_none hfirst ha)
  | some e =>
      have hclear₂ : Clear disk m₂.now ((completed results).flatMap Artifact.mergeInputs) := by
        intro p hp
        obtain ⟨a, ha, hp⟩ := List.mem_flatMap.mp hp
        exact ((hclear₁ a (hcovers.completed_subset ha)).keep hwithin₂) p
          (List.mem_append_right a.sourceFiles hp)
      refine (gone_cleanUp hdelete horderly hremoves (List.Subset.refl _) hclear₂).bind_of_ok
        fun m₃ hclean => ?_
      obtain ⟨hcleaned, hshrinks⟩ := hclean
      rintro a ha ⟨y, hy, hc⟩
      rw [hshrinks.issued, hnew_issued, hissued, hstart, List.nil_append] at hy
      obtain ⟨⟨b, result⟩, hx, hcb⟩ := hnew y hy
      have hb : b ∈ r.artifacts :=
        List.IsPrefix.subset hcovers.1 (List.mem_map_of_mem hx)
      cases owner_of_frontHalf hapart ha hb hc hcb
      have hspent := (hgones _ hx).shrink hshrinks
      cases result with
      | error _ => exact hspent
      | ok _ =>
          refine hspent.append (hcleaned.subset fun p hp => List.mem_flatMap.mpr ⟨a, ?_, hp⟩)
          exact List.mem_map.mpr ⟨_, List.mem_filter.mpr ⟨hx, rfl⟩, rfl⟩

end Gone

section Merging

variable {disk : σ → Disk} {h : Host σ} {k : Recipe} {r : Request} {steps : List Step}
  {m : Moment σ}

theorem gone_mergeEach (hdelete : k.deletesTemps = true) (hsteps : r.steps .perSource ⊆ steps)
    (horderly : Orderly disk h (k.tasks r .perSource steps)) (hremoves : Removes disk h)
    {artifacts : List Artifact} (hsub : artifacts ⊆ r.artifacts)
    (hapart : Path.Apart (artifacts.flatMap Artifact.mergeFiles))
    (hclear : Clear disk m.now (artifacts.flatMap Artifact.mergeInputs)) :
    (k.mergeEach artifacts).Ensures h (fun _ _ => True) (fun _ m' =>
      Gone disk m'.now (artifacts.flatMap Artifact.mergeInputs)) m := by
  induction artifacts generalizing m with
  | nil => exact fun _ hp => absurd hp List.not_mem_nil
  | cons a rest ih =>
      have ha : a ∈ r.artifacts := hsub List.mem_cons_self
      have hrest : rest ⊆ r.artifacts := fun b hb => hsub (List.mem_cons_of_mem a hb)
      have htask : (k.merge a.mergeInputs a.mergedObject, [a.mergedObject]) ∈
          k.tasks r .perSource steps := mem_tasks (hsteps (mergeOne_mem_steps ha))
      rw [mergeEach_cons]
      refine (Script.within_check horderly htask m).attempt_bind fun result m₁ hwithin => ?_
      have hclear₁ := hclear.keep hwithin
      cases result with
      | error e =>
          refine Script.ensures_say_bind ?_
          exact (gone_cleanUp hdelete horderly hremoves (List.Subset.refl _)
              (hclear₁.heard horderly)).bind_of_ok
            fun _ hclean => hclean.1
      | ok _ =>
          rw [List.flatMap_cons] at hapart hclear₁ ⊢
          refine (Script.gone_discardAll horderly hremoves (List.Subset.refl _)
            (hclear₁.subset (List.subset_append_left _ _))).bind_of_ok fun m₂ hdiscarded => ?_
          obtain ⟨hgone, hshrinks⟩ := hdiscarded
          have hclear₂ := (hclear₁.shrink hshrinks).subset (List.subset_append_right _ _)
          have hout : ∀ p ∈ a.mergeInputs,
              p.components ∉ Path.locations (rest.flatMap Artifact.mergeFiles) :=
            fun p hp => hapart.notMem (List.mem_append_left _ hp)
          exact ((ih hrest (Path.apart_append.mp hapart).2.1 hclear₂).and
            (within_mergeEach hsteps horderly hrest m₂)).bind
            (fun _ m₃ hend => (hgone.keep hend.2.2 hout).append hend.1)
            (fun _ m₃ hend => (hgone.keep hend.2.2 hout).append hend.1)

theorem gone_mergeAll {target : Path} (hdelete : k.deletesTemps = true)
    (hsteps : r.steps (.consolidated target) ⊆ steps)
    (horderly : Orderly disk h (k.tasks r (.consolidated target) steps))
    (hremoves : Removes disk h)
    (hclear : Clear disk m.now (r.artifacts.flatMap Artifact.mergeInputs)) :
    (k.mergeAll (r.looseObjects (.consolidated target)) target).Ensures h (fun _ _ => True)
      (fun _ m' => Gone disk m'.now (r.artifacts.flatMap Artifact.mergeInputs)) m := by
  have htask : (k.merge (r.looseObjects (.consolidated target)) target, [target]) ∈
      k.tasks r (.consolidated target) steps := mem_tasks (hsteps (mergeAll_mem_steps r target))
  have hpart : r.artifacts.flatMap Artifact.mergeInputs ⊆
      r.looseObjects (.consolidated target) := List.subset_append_left _ _
  rw [mergeAll_eq]
  refine (Script.within_check horderly htask m).attempt_bind fun result m₁ hwithin => ?_
  have hclear₁ := hclear.keep hwithin
  cases result with
  | error e =>
      refine Script.ensures_say_bind ?_
      exact (gone_cleanUp hdelete horderly hremoves hpart (hclear₁.heard horderly)).bind_of_ok
        fun _ hclean => hclean.1
  | ok _ =>
      exact (Script.gone_discardAll horderly hremoves hpart hclear₁).mono fun _ _ hend => hend.2.1

theorem gone_finish {plan : MergePlan} (hdelete : k.deletesTemps = true)
    (hsteps : r.steps plan ⊆ steps) (horderly : Orderly disk h (k.tasks r plan steps))
    (hremoves : Removes disk h) (hr : r.Accepted plan)
    (hgone : Gone disk m.now (r.artifacts.flatMap Artifact.sourceFiles))
    (hclear : Clear disk m.now (r.artifacts.flatMap Artifact.mergeInputs))
    {assembled : Except Failure (List Path)}
    (hassembled : ∀ objects, assembled = .ok objects →
      objects = r.assembly.map (assemblyObject plan)) :
    (k.finish r.artifacts plan assembled).Ensures h (fun _ _ => True) (fun _ m' =>
      Gone disk m'.now (r.artifacts.flatMap Artifact.sourceFiles) ∧
        Gone disk m'.now (r.artifacts.flatMap Artifact.mergeInputs)) m := by
  cases assembled with
  | error e =>
      exact (gone_cleanUp hdelete horderly hremoves (List.Subset.refl _) hclear).bind_of_ok
        fun _ hclean => ⟨hgone.shrink hclean.2, hclean.1⟩
  | ok objects =>
      rw [hassembled objects rfl]
      cases plan with
      | perSource =>
          have hapart : Path.Apart (r.artifacts.flatMap Artifact.sourceFiles ++
              r.artifacts.flatMap Artifact.mergeFiles) := by
            refine Path.Apart.flatMap_append ?_
            have hproduced : Artifact.produced .perSource =
                fun a => a.sourceFiles ++ a.mergeFiles := by
              funext a
              exact List.append_assoc _ _ _
            exact hproduced ▸ hr.sources
          have hinputs : Path.Apart (r.artifacts.flatMap Artifact.mergeFiles) :=
            (Path.apart_append.mp hapart).2.1
          refine ((gone_mergeEach hdelete hsteps horderly hremoves (List.Subset.refl _) hinputs
            hclear).and (within_mergeEach hsteps horderly (List.Subset.refl _) m)).bind
            (fun _ m₁ hend => ?_) (fun _ m₁ hend => ?_)
          · exact ⟨hgone.keep hend.2.2 fun p hp => hapart.notMem hp, hend.1⟩
          · exact ⟨hgone.keep hend.2.2 fun p hp => hapart.notMem hp, hend.1⟩
      | consolidated target =>
          have hout : ∀ p ∈ r.artifacts.flatMap Artifact.sourceFiles, p.components ∉
              Path.locations (r.looseObjects (.consolidated target) ++ [target]) := by
            intro p hp hmem
            obtain ⟨hinputs, hassembly, htarget⟩ := hr.sourceFiles_notMem hp
            rw [Path.locations_append, List.mem_append, Request.looseObjects,
              Path.locations_append, List.mem_append] at hmem
            rcases hmem with (hmem | hmem) | hmem
            · exact hinputs hmem
            · exact hassembly hmem
            · exact htarget target rfl (List.mem_singleton.mp hmem)
          exact ((gone_mergeAll hdelete hsteps horderly hremoves hclear).and
            (within_mergeAll hsteps horderly m)).bind
            (fun _ _ hend => ⟨hgone.keep hend.2 hout, hend.1⟩)
            (fun _ _ hend => ⟨hgone.keep hend.2 hout, hend.1⟩)

/-- Once every source has been taken to its objects, nothing of it is left in the end, however what
is done with the objects goes. -/
theorem gone_backHalf {plan : MergePlan} (hdelete : k.deletesTemps = true)
    (hsteps : r.steps plan ⊆ steps) (horderly : Orderly disk h (k.tasks r plan steps))
    (hremoves : Removes disk h) (hr : r.Accepted plan)
    (hsources : ∀ a ∈ r.artifacts, Gone disk m.now a.sourceFiles)
    (hclear : ∀ a ∈ r.artifacts, Clear disk m.now a.intermediates) :
    (k.backHalf r plan).Ensures h (fun _ _ => True)
      (fun _ m' => ∀ a ∈ r.artifacts, Gone disk m'.now a.intermediates) m := by
  refine (within_assembleEach hsteps horderly (List.Subset.refl _) m).attempt_bind
    fun assembled m₁ hassembled => ?_
  obtain ⟨hlist, hwithin⟩ := hassembled
  have hgone : Gone disk m₁.now (r.artifacts.flatMap Artifact.sourceFiles) := by
    intro p hp
    obtain ⟨a, ha, hpa⟩ := List.mem_flatMap.mp hp
    exact (hwithin.same _ (hr.sourceFiles_notMem hp).2.1).trans (hsources a ha p hpa)
  have hclear₁ : Clear disk m₁.now (r.artifacts.flatMap Artifact.mergeInputs) := by
    intro p hp
    obtain ⟨a, ha, hpa⟩ := List.mem_flatMap.mp hp
    exact ((hclear a ha).keep hwithin) p (List.mem_append_right a.sourceFiles hpa)
  refine (gone_finish hdelete hsteps horderly hremoves hr hgone hclear₁ hlist).mono
    fun _ m₂ hend a ha => ?_
  have hmine : ∀ {f : Artifact → List Path}, f a ⊆ r.artifacts.flatMap f :=
    fun hp => List.mem_flatMap.mpr ⟨a, ha, hp⟩
  exact (hend.1.subset hmine).append (hend.2.subset hmine)

section Whole

variable {plan : MergePlan} {artifacts : List Artifact} (hdelete : k.deletesTemps = true)
  (hplan : r.planArtifacts plan = .ok artifacts) (hsteps : r.steps plan ⊆ steps)
  (horderly : Orderly disk h (k.tasks r plan steps)) (hremoves : Removes disk h)
  (hclear : ∀ a ∈ r.artifacts, Clear disk m.now a.intermediates) (hstart : m.issued = [])

include hdelete hplan hsteps horderly hremoves hclear hstart

/-- A pipeline leaves nothing of a source that some command was issued for, and if it succeeds,
nothing of any source. -/
theorem gone_pipeline_cases : (k.pipeline r plan).Ensures h (fun _ _ => True) (fun result m' =>
    ∀ a ∈ r.artifacts, result.isOk = true ∨ (∃ x ∈ m'.issued, x.1 ∈ k.frontHalf a) →
      Gone disk m'.now a.intermediates) m := by
  have hr := Request.accepted_of_planArtifacts hplan
  rw [pipeline_eq_backHalf k hplan]
  refine ((gone_transformAll hdelete hsteps horderly hremoves hr.intermediates hclear hstart).and
    (within_transformAll hsteps horderly m)).bind (fun _ m₁ hfront => ?_)
    (fun e m₁ hfront a ha hissued => ?_)
  · obtain ⟨hsources, hwithin⟩ := hfront
    exact (gone_backHalf hdelete hsteps horderly hremoves hr hsources
      fun a ha => (hclear a ha).keep hwithin).mono fun _ _ hend a ha _ => hend a ha
  · exact hfront.1 a ha (hissued.resolve_left Bool.false_ne_true)

theorem gone_pipeline : (k.pipeline r plan).Ensures h (fun _ _ => True) (fun result m' =>
    ∀ e, result = .error e → ∀ a ∈ r.artifacts, (∃ x ∈ m'.issued, x.1 ∈ k.frontHalf a) →
      Gone disk m'.now a.intermediates) m :=
  (gone_pipeline_cases hdelete hplan hsteps horderly hremoves hclear hstart).mono
    fun _ _ hend _ _ a ha hissued => hend a ha (Or.inr hissued)

end Whole

end Merging

end Recipe

/-- If a pipeline that removes its intermediate files fails, whatever its commands answer, none of
those files is left of any source that a command was issued for, as long as commands write only
their own files and no directory is where such a file belongs. -/
theorem failed_pipeline_leaves_no_intermediate (k : Recipe) (hdelete : k.deletesTemps = true)
    (r : Request) (plan : MergePlan) (artifacts : List Artifact)
    (hplan : r.planArtifacts plan = .ok artifacts) (h : Host σ) (disk : σ → Disk)
    (horderly : Orderly disk h (k.tasks r plan (r.steps plan))) (hremoves : Removes disk h) (s : σ)
    (hdirectories : ∀ a ∈ artifacts, ∀ p ∈ a.intermediates,
      disk s p.components ≠ some .directory)
    (e : Failure) (hfail : ((k.pipeline r plan).run h s).result = .error e) :
    let run := (k.pipeline r plan).run h s
    ∀ a ∈ artifacts, (∃ x ∈ run.commands, x.1 ∈ k.frontHalf a) →
      ∀ p ∈ a.intermediates, disk run.final p.components = none := by
  intro run
  cases Request.planArtifacts_eq hplan
  have hpipeline := Recipe.gone_pipeline (m := ⟨[], s⟩) hdelete hplan (List.Subset.refl _)
    horderly hremoves hdirectories rfl
  exact hpipeline.run.1 e hfail

def Outcome.breaking (c : Command) : Outcome :=
  if c.hasArg "d/sstGlobals.pp.a.c.cpp" then .exited 1 else .exited 0

/-- The second source of the sample fails at its last step, and the third is not reached. -/
theorem failed_pipeline_leaves_no_intermediate_sample :
    let k := Recipe.ofRequest .sample .sample
    let h := Host.onDisk Toolchain.sampleProducts Outcome.breaking
    let run := (k.pipeline .sample .sample).run h Disk.sample
    k.deletesTemps = true ∧
      Request.sample.planArtifacts .sample = .ok Request.sample.artifacts ∧
      Orderly (fun d => d) h (k.tasks .sample .sample (Request.sample.steps .sample)) ∧
      Removes (fun d => d) h ∧
      (∀ a ∈ Request.sample.artifacts, ∀ p ∈ a.intermediates,
        Disk.sample p.components ≠ some .directory) ∧
      run.result.isOk = false ∧ run.commands.length = 8 ∧
      ∀ a ∈ Request.sample.artifacts, (∃ x ∈ run.commands, x.1 ∈ k.frontHalf a) →
        ∀ p ∈ a.intermediates, run.final p.components = none := by
  intro k h
  dsimp only
  have hdelete : k.deletesTemps = true := by decide
  have hplan : Request.sample.planArtifacts .sample = .ok Request.sample.artifacts :=
    Request.planArtifacts_ok_iff.mpr ⟨rfl, by decide +kernel⟩
  have horderly : Orderly (fun d => d) h
      (k.tasks .sample .sample (Request.sample.steps .sample)) :=
    orderly_onDisk fun task htask => Toolchain.sampleProducts_eq_writes task
      (List.map_subset _ (List.subset_append_left _ _) htask)
  have hdirectories : ∀ a ∈ Request.sample.artifacts, ∀ p ∈ a.intermediates,
      Disk.sample p.components ≠ some .directory := by
    intro a _ p _
    unfold Disk.sample
    split <;> simp
  obtain ⟨hfail, hlength⟩ : ((k.pipeline .sample .sample).run h Disk.sample).result.isOk = false ∧
      ((k.pipeline .sample .sample).run h Disk.sample).commands.length = 8 := by
    decide +kernel
  refine ⟨hdelete, hplan, horderly, removes_onDisk, hdirectories, hfail, hlength, ?_⟩
  cases hresult : ((k.pipeline .sample .sample).run h Disk.sample).result with
  | ok _ =>
      rw [hresult] at hfail
      cases hfail
  | error e =>
      exact failed_pipeline_leaves_no_intermediate k hdelete .sample .sample _ hplan h
        (fun d => d) horderly removes_onDisk Disk.sample hdirectories e hresult

end Deglobal
