import Deglobal.Proofs.Pipeline.Effects
import Deglobal.Proofs.Pipeline.FailStop
import Deglobal.Proofs.Script.Play

/-! # Compiling and linking in two builds

A build that goes on to an executable can be split after its final objects: a
compilation that makes the same objects, and a link of those objects with the
ones that came with the request. The two builds are requests of their own, with
their own way through path selection, planning and flags. Run one after the other
they issue what the one build issues.
-/

namespace Deglobal

variable {σ : Type} {t : Toolchain} {r : Request} {plan : MergePlan} {artifacts : List Artifact}

namespace Request

/-- The request that stops at the final objects on the way to the executable. -/
def compilation (r : Request) : Request :=
  { r with
    controlArgs := ["-c"]
    objects := []
    explicitOutput := r.explicitOutput.map mergedObjectPath }

/-- The request that links objects made before in place of sources and assembly files. -/
def linking (r : Request) (made : List Path) : Request :=
  { r with sources := [], assembly := [], objects := made ++ r.objects }

theorem finalObjects_ne_nil (hsources : r.hasSources = true) (plan : MergePlan) :
    r.finalObjects plan ≠ [] := by
  cases plan with
  | perSource =>
      have hne : r.sources ≠ [] := by
        simpa [hasSources] using hsources
      simp [finalObjects, artifacts, hne]
  | consolidated target => exact List.cons_ne_nil _ _

/-- A compilation has fewer inputs and makes the same files. -/
theorem planArtifacts_compilation (hplan : r.planArtifacts plan = .ok artifacts) :
    r.compilation.planArtifacts plan = .ok artifacts := by
  obtain ⟨heq, hapart⟩ := planArtifacts_ok_iff.mp hplan
  have hinputs : r.compilation.inputs.Sublist r.inputs := by
    have hnone : ([] : List Path).Sublist r.objects := List.nil_sublist _
    exact List.Sublist.append_left hnone (r.sources ++ r.assembly)
  have hfiles : (r.compilation.inputs ++ r.produced plan).Sublist (r.inputs ++ r.produced plan) :=
    List.Sublist.append_right hinputs (r.produced plan)
  exact planArtifacts_ok_iff.mpr ⟨heq, hapart.sublist hfiles⟩

end Request

/-! ## The paths of the two builds -/

namespace BuildPath

theorem select_of_link (ht : t.transforms = true) (hsources : r.hasSources = true)
    (hcompile : r.compileOnly = false) (hpreprocess : r.preprocessOnly = false) :
    select t r = .transformLink r.executable (linkPlan r) := by
  simp [select, ht, hsources, hcompile, hpreprocess]

theorem compilePlan_compilation (r : Request) : compilePlan r.compilation = linkPlan r := by
  cases hout : r.explicitOutput <;>
    simp [compilePlan, linkPlan, Request.objectTarget?, Request.compilation, hout]

theorem select_compilation (ht : t.transforms = true) (hsources : r.hasSources = true) :
    select t r.compilation = .transformCompile (linkPlan r) := by
  have hpreprocess : r.compilation.preprocessOnly = false := by
    simp [Request.preprocessOnly, Request.compilation]
  have hcompile : r.compilation.compileOnly = true := by
    simp [Request.compileOnly, Request.compilation]
  have hsame : r.compilation.hasSources = true := hsources
  simp [select, hpreprocess, hcompile, ht, hsame, compilePlan_compilation]

theorem select_linking (hcompile : r.compileOnly = false) (hpreprocess : r.preprocessOnly = false)
    {made : List Path} (hmade : made ≠ []) :
    select t (r.linking made) = .linkOnly r.executable := by
  have hnone : (r.linking made).hasSources = false := rfl
  have hcompile' : (r.linking made).compileOnly = false := hcompile
  have hpreprocess' : (r.linking made).preprocessOnly = false := hpreprocess
  have hobjects : (made ++ r.objects).getLast?.isSome = true := by
    simp [hmade]
  have htarget : (r.linking made).objectTarget?.isSome = true := by
    have hlast : (r.linking made).objects.getLast?.isSome = true := hobjects
    unfold Request.objectTarget?
    cases hout : (r.linking made).explicitOutput with
    | none => simpa [hout] using hlast
    | some output => simp
  have hexecutable : (r.linking made).executable = r.executable := rfl
  simp [select, hnone, hcompile', hpreprocess', htarget, hexecutable]

end BuildPath

/-! ## What the two builds do -/

section Play

variable {h : Host σ} {m : Moment σ}

theorem play_carryOut_build (hlog : h.IgnoresLog) (home : Option Path) {path : BuildPath}
    (hselect : BuildPath.select t r = path) {result : Except Failure Unit} {m' : Moment σ}
    (hfollow : ((Recipe.ofRequest t r).follow r path).play h m = (result, m')) :
    ((Invocation.build r).carryOut t home).play h m = (result.map fun _ => 0, m') := by
  have hheard : m.heard h (.noted (.buildPath path)) = m := by
    unfold Moment.heard
    rw [hlog]
  rw [Invocation.carryOut_build, Script.play_note, hselect, hheard]
  cases result with
  | ok _ => rw [Script.play_bind_of_ok hfollow, Script.play_done, Except.map]
  | error e => rw [Script.play_bind_of_error hfollow, Except.map]

namespace Recipe

theorem pipeline_compilation (k : Recipe) (hplan : r.planArtifacts plan = .ok artifacts) :
    k.pipeline r.compilation plan = k.pipeline r plan := by
  rw [pipeline_eq_backHalf k hplan,
    pipeline_eq_backHalf k (Request.planArtifacts_compilation hplan)]
  rfl

theorem play_cleanUp (k : Recipe) (files : List Path) (h : Host σ) (m : Moment σ) :
    ∃ m', (k.cleanUp files).play h m = (.ok (), m') ∧ m'.issued = m.issued := by
  have halways : (k.cleanUp files).Always (fun _ => False) (fun _ => True) (· = .ok ()) :=
    k.always_cleanUp fun _ _ _ => trivial
  obtain ⟨hresult, new, hissued, hnew⟩ := (halways.issues (h := h) m).play
  have hnone : new = [] := List.eq_nil_iff_forall_not_mem.mpr hnew
  rw [hnone, List.append_nil] at hissued
  exact ⟨_, Prod.ext hresult rfl, hissued⟩

theorem play_useMerged (k : Recipe) (r : Request) (output : Path) (plan : MergePlan)
    (merged : List Path) (h : Host σ) (m : Moment σ) :
    let link := (k.linkObjects (merged ++ r.objects) output r.linkerArgs).play h m
    ∃ m', (k.useMerged r (.transformLink output plan) merged).play h m = (link.1, m') ∧
      m'.issued = link.2.issued := by
  intro link
  rw [useMerged, Script.play_attempt_bind]
  by_cases hcore : k.toolchain.sstCore = true
  · refine ⟨link.2, ?_, rfl⟩
    simp [hcore, Script.bind, link]
  · obtain ⟨m', hclean, hissued⟩ := k.play_cleanUp merged h link.2
    refine ⟨m', ?_, hissued⟩
    rw [if_pos (by simp [hcore]), Script.play_bind_of_ok hclean, Script.play_done]

end Recipe

/-- The compilation comes to what the pipeline of the whole build comes to. -/
theorem play_compilation (hlog : h.IgnoresLog) (home : Option Path) (ht : t.transforms = true)
    (hsources : r.hasSources = true)
    (haccepted : r.planArtifacts (BuildPath.linkPlan r) = .ok artifacts)
    {result : Except Failure (List Path)} {m' : Moment σ}
    (hplay : ((Recipe.ofRequest t r).pipeline r (BuildPath.linkPlan r)).play h m = (result, m')) :
    ((Invocation.build r.compilation).carryOut t home).play h m = (result.map fun _ => 0, m') := by
  have hselect := BuildPath.select_compilation ht hsources
  rw [← Recipe.pipeline_compilation _ haccepted] at hplay
  cases result with
  | ok objects =>
      exact play_carryOut_build hlog home hselect
        ((Script.play_bind_of_ok hplay _).trans (Script.play_done _))
  | error e => exact play_carryOut_build hlog home hselect (Script.play_bind_of_error hplay _)

theorem play_linking (hlog : h.IgnoresLog) (home : Option Path) (hcompile : r.compileOnly = false)
    (hpreprocess : r.preprocessOnly = false) {made : List Path} (hmade : made ≠ []) :
    let link := ((Recipe.ofRequest t r).linkObjects (made ++ r.objects) r.executable
      r.linkerArgs).play h m
    ((Invocation.build (r.linking made)).carryOut t home).play h m =
      (link.1.map fun _ => 0, link.2) :=
  play_carryOut_build hlog home (BuildPath.select_linking hcompile hpreprocess hmade) rfl

end Play

/-- A build of sources to an executable issues the commands of its compilation and, if that
succeeds, of a link of the objects it has made, and comes to the same success or failure. -/
theorem build_eq_compile_then_link (t : Toolchain) (ht : t.transforms = true) (r : Request)
    (hsources : r.hasSources = true) (hcompile : r.compileOnly = false)
    (hpreprocess : r.preprocessOnly = false)
    (haccepted : r.planArtifacts (BuildPath.linkPlan r) = .ok artifacts) (home : Option Path)
    (h : Host σ) (hlog : h.IgnoresLog) (s : σ) :
    let linking := r.linking (r.finalObjects (BuildPath.linkPlan r))
    let whole := ((Invocation.build r).carryOut t home).run h s
    let first := ((Invocation.build r.compilation).carryOut t home).run h s
    let second := ((Invocation.build linking).carryOut t home).run h first.final
    BuildPath.select t r = .transformLink r.executable (BuildPath.linkPlan r) ∧
    BuildPath.select t r.compilation = .transformCompile (BuildPath.linkPlan r) ∧
    BuildPath.select t linking = .linkOnly r.executable ∧
    (∀ status, first.result = .ok status →
      whole.commands = first.commands ++ second.commands ∧ whole.result = second.result) ∧
    (∀ e, first.result = .error e →
      whole.commands = first.commands ∧ whole.result = .error e) := by
  intro linking whole first second
  have hwhole := BuildPath.select_of_link ht hsources hcompile hpreprocess
  have hfirst := BuildPath.select_compilation ht hsources
  have hsecond : BuildPath.select t linking = .linkOnly r.executable :=
    BuildPath.select_linking hcompile hpreprocess (Request.finalObjects_ne_nil hsources _)
  refine ⟨hwhole, hfirst, hsecond, ?_⟩
  let k := Recipe.ofRequest t r
  let plan := BuildPath.linkPlan r
  have hmade : ∀ objects, ((k.pipeline r plan).play h ⟨[], s⟩).1 = .ok objects →
      objects = r.finalObjects plan := by
    have halways := Recipe.always_pipeline (k := k) (P := fun _ => True) (Q := fun _ => True)
      haccepted (fun _ _ => trivial) (fun _ _ => trivial)
    exact (halways.issues (h := h) ⟨[], s⟩).play.1
  rcases hplay : (k.pipeline r plan).play h ⟨[], s⟩ with ⟨result, m⟩
  obtain ⟨hresult_first, hcommands_first, hnow⟩ :=
    Script.run_of_play (play_compilation hlog home ht hsources haccepted hplay)
  have hfollow : k.follow r (.transformLink r.executable plan) =
      (k.pipeline r plan).bind (k.useMerged r (.transformLink r.executable plan)) :=
    k.follow_of_plan r rfl
  cases result with
  | error e =>
      have hends := play_carryOut_build hlog home hwhole
        (hfollow ▸ Script.play_bind_of_error hplay _)
      obtain ⟨hresult, hcommands, _⟩ := Script.run_of_play hends
      refine ⟨fun status hok => ?_, fun e' hfail => ?_⟩
      · cases hresult_first.symm.trans hok
      · cases hresult_first.symm.trans hfail
        exact ⟨hcommands.trans hcommands_first.symm, hresult⟩
  | ok objects =>
      obtain rfl := hmade objects (congrArg Prod.fst hplay)
      obtain ⟨m', huse, hissued⟩ := k.play_useMerged r r.executable plan (r.finalObjects plan) h m
      have hends := play_carryOut_build hlog home hwhole
        (hfollow ▸ (Script.play_bind_of_ok hplay _).trans huse)
      obtain ⟨hresult, hcommands, _⟩ := Script.run_of_play hends
      have hends_second := play_linking (t := t) (h := h) (m := ⟨[], first.final⟩) hlog home
        hcompile hpreprocess (Request.finalObjects_ne_nil hsources plan)
      obtain ⟨hresult_second, hcommands_second, _⟩ := Script.run_of_play hends_second
      have hlink := Script.play_eq h
        (k.linkObjects (r.finalObjects plan ++ r.objects) r.executable r.linkerArgs) m
      rw [← hnow] at hlink
      rw [hlink] at hresult hissued
      refine ⟨fun _ _ => ⟨?_, hresult.trans hresult_second.symm⟩, fun e hfail => ?_⟩
      · calc whole.commands
            = m'.issued := hcommands
          _ = m.issued ++ second.commands := hissued.trans (congrArg _ hcommands_second.symm)
          _ = first.commands ++ second.commands := by rw [hcommands_first]
      · cases hresult_first.symm.trans hfail

/-- The shared object of the sample cannot be made: the compilation succeeds, and the link fails as
the whole build does. -/
theorem build_eq_compile_then_link_sample :
    let h := Host.breaking 15 (.exited 1)
    let linking := Request.sample.linking (Request.sample.finalObjects .sample)
    let whole := ((Invocation.build .sample).carryOut .sample none).run h 0
    let first := ((Invocation.build Request.sample.compilation).carryOut .sample none).run h 0
    let second := ((Invocation.build linking).carryOut .sample none).run h first.final
    Toolchain.sample.transforms = true ∧ Request.sample.hasSources = true ∧
      Request.sample.compileOnly = false ∧ Request.sample.preprocessOnly = false ∧
      Request.sample.planArtifacts (BuildPath.linkPlan .sample) = .ok Request.sample.artifacts ∧
      h.IgnoresLog ∧ first.result = .ok 0 ∧ first.commands.length = 14 ∧
      second.result = .error (.tool "g++" 1) ∧
      whole.commands = first.commands ++ second.commands ∧ whole.result = second.result := by
  intro h linking whole first second
  have hlog : h.IgnoresLog := fun _ _ => rfl
  have hplan : Request.sample.planArtifacts (BuildPath.linkPlan .sample) =
      .ok Request.sample.artifacts := Request.planArtifacts_sample
  have hfirst : first.result = .ok 0 ∧ first.commands.length = 14 := by decide +kernel
  have hsecond : second.result = .error (.tool "g++" 1) := by decide +kernel
  have hboth := (build_eq_compile_then_link .sample rfl .sample rfl rfl rfl hplan none h
    hlog 0).2.2.2.1 0 hfirst.1
  exact ⟨rfl, rfl, rfl, rfl, hplan, hlog, hfirst.1, hfirst.2, hsecond, hboth⟩

end Deglobal
