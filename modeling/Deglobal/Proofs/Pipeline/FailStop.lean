import Deglobal.Proofs.Pipeline.Trace
import Deglobal.Proofs.Script.FailStop

/-! # Builds stop at the first failure

Every function of the pipeline cleans up in its own way between a failure and
its end. None of them issues a command on the way, and none of them replaces the
failure: this is `FailStop`, proved for each function from those it calls. While
sources are not worked on in parallel it holds of every build path.
-/

namespace Deglobal

namespace Recipe

variable {β : Type}

/-! ## Cleaning up -/

theorem failStop_cleanUp (k : Recipe) (files : List Path) : (k.cleanUp files).FailStop := by
  unfold cleanUp
  split
  · exact Script.failStop_discardAll files
  · trivial

theorem givesUp_cleanUp_bind (k : Recipe) {e : Failure} {f : Unit → Script β}
    (hf : (f ()).GivesUp e) (files : List Path) : ((k.cleanUp files).bind f).GivesUp e := by
  unfold cleanUp
  split
  · exact Script.givesUp_discardAll_bind hf files
  · exact hf

/-! ## The front half -/

theorem failStop_checkAll (cs : List Command) : (checkAll cs).FailStop := by
  induction cs with
  | nil => trivial
  | cons c rest ih => exact (Script.failStop_check c).bind fun _ => ih

theorem failStop_transformSource (k : Recipe) (a : Artifact) :
    (k.transformSource a).FailStop := by
  rw [transformSource_eq]
  refine (failStop_checkAll _).attempt_bind (fun _ => ?_) (fun e => ?_)
  · exact (k.failStop_cleanUp _).bind fun _ => trivial
  · exact k.givesUp_cleanUp_bind (Script.givesUp_done e) _

/-- The results of sources carry a failure along; what follows them has to give up with it. -/
theorem failStop_transformEach_bind (k : Recipe) {artifacts : List Artifact}
    {f : List (Artifact × Except Failure Unit) → Script β}
    (hok : ∀ results, firstFailure? results = none → (f results).FailStop)
    (herr : ∀ results e, firstFailure? results = some e → (f results).GivesUp e) :
    ((k.transformEach false artifacts).bind f).FailStop := by
  induction artifacts generalizing f with
  | nil => exact hok [] rfl
  | cons a rest ih =>
      rw [transformEach_cons, Script.bind_assoc]
      refine (failStop_transformSource k a).attempt_bind (fun _ => ?_) (fun e => ?_)
      · simp only [Except.isOk, Except.toBool, Bool.or_true, if_true, Script.bind_assoc]
        refine ih (fun results h => ?_) (fun results e h => ?_)
        · exact hok _ h
        · exact herr _ e h
      · exact herr [(a, .error e)] e rfl

theorem givesUp_conclude (k : Recipe) {results : List (Artifact × Except Failure Unit)}
    {e : Failure} (h : firstFailure? results = some e) : (k.conclude results).GivesUp e := by
  unfold conclude
  rw [h]
  exact k.givesUp_cleanUp_bind (Script.givesUp_fail e) _

theorem failStop_conclude (k : Recipe) {results : List (Artifact × Except Failure Unit)}
    (h : firstFailure? results = none) : (k.conclude results).FailStop := by
  unfold conclude
  rw [h]
  trivial

theorem failStop_transformAll {k : Recipe} (hpar : k.toolchain.toggles.parallel = false)
    (artifacts : List Artifact) : (k.transformAll artifacts).FailStop := by
  have hseq : k.inParallel artifacts = false := by simp [inParallel, hpar]
  rw [transformAll_eq, hseq]
  exact k.failStop_transformEach_bind (fun _ => k.failStop_conclude)
    (fun _ _ => k.givesUp_conclude)

/-! ## Assembly files and merges -/

theorem failStop_assembleEach (k : Recipe) (plan : MergePlan) (made files : List Path) :
    (k.assembleEach plan made files).FailStop := by
  induction files generalizing made with
  | nil => trivial
  | cons file rest ih =>
      rw [assembleEach_cons]
      refine (Script.failStop_check _).attempt_bind (fun _ => ih _) (fun e => ?_)
      dsimp only
      split
      · exact k.givesUp_cleanUp_bind (Script.givesUp_fail e) made
      · exact Script.givesUp_fail e

theorem failStop_mergeEach (k : Recipe) (artifacts : List Artifact) :
    (k.mergeEach artifacts).FailStop := by
  induction artifacts with
  | nil => trivial
  | cons a rest ih =>
      rw [mergeEach_cons]
      refine (Script.failStop_check _).attempt_bind (fun _ => ?_) (fun e => ?_)
      · exact (Script.failStop_discardAll _).bind fun _ => ih.bind fun _ => trivial
      · exact k.givesUp_cleanUp_bind (Script.givesUp_fail e) _

theorem failStop_mergeAll (k : Recipe) (inputs : List Path) (target : Path) :
    (k.mergeAll inputs target).FailStop := by
  rw [mergeAll_eq]
  refine (Script.failStop_check _).attempt_bind (fun _ => ?_) (fun e => ?_)
  · exact Script.failStop_discardAll inputs
  · exact k.givesUp_cleanUp_bind (Script.givesUp_fail e) inputs

theorem failStop_finish (k : Recipe) (artifacts : List Artifact) (plan : MergePlan)
    (assembled : List Path) : (k.finish artifacts plan (.ok assembled)).FailStop := by
  cases plan with
  | perSource => exact (k.failStop_mergeEach artifacts).bind fun _ => trivial
  | consolidated target => exact (k.failStop_mergeAll _ target).bind fun _ => trivial

theorem failStop_assembled (k : Recipe) (artifacts : List Artifact) (plan : MergePlan)
    (files : List Path) :
    ((k.assembleEach plan [] files).attempt.bind (k.finish artifacts plan)).FailStop :=
  (k.failStop_assembleEach plan [] files).attempt_bind
    (fun assembled => k.failStop_finish artifacts plan assembled)
    (fun e => k.givesUp_cleanUp_bind (Script.givesUp_fail e) _)

/-! ## Whole builds -/

variable {k : Recipe}

theorem failStop_pipeline (hpar : k.toolchain.toggles.parallel = false) (r : Request)
    (plan : MergePlan) : (k.pipeline r plan).FailStop := by
  cases hplan : r.planArtifacts plan with
  | error e =>
      rw [pipeline_of_clash k hplan]
      trivial
  | ok artifacts =>
      rw [pipeline_of_plan k hplan]
      exact (failStop_transformAll hpar artifacts).bind fun _ =>
        k.failStop_assembled artifacts plan r.assembly

theorem failStop_linkObjects (k : Recipe) (objects : List Path) (output : Path)
    (linkerArgs : List String) : (k.linkObjects objects output linkerArgs).FailStop := by
  rw [linkObjects_eq]
  split
  · trivial
  · refine (Script.failStop_check _).bind fun _ => ?_
    split
    · exact Script.failStop_check _
    · trivial

theorem failStop_useMerged (k : Recipe) (r : Request) (path : BuildPath) (merged : List Path) :
    (k.useMerged r path merged).FailStop := by
  unfold useMerged
  split
  · rename_i output plan
    refine (k.failStop_linkObjects _ output r.linkerArgs).attempt_bind (fun _ => ?_) (fun e => ?_)
    · split
      · exact (k.failStop_cleanUp merged).bind fun _ => trivial
      · trivial
    · split
      · exact k.givesUp_cleanUp_bind (Script.givesUp_done e) merged
      · rfl
  · trivial

theorem failStop_transformAndLink (hpar : k.toolchain.toggles.parallel = false) (r : Request)
    (output : Path) (plan : MergePlan) : (k.transformAndLink r output plan).FailStop := by
  rw [transformAndLink_eq]
  exact (failStop_pipeline hpar r plan).bind fun merged =>
    k.failStop_useMerged r (.transformLink output plan) merged

theorem failStop_follow (hpar : k.toolchain.toggles.parallel = false) (r : Request)
    (path : BuildPath) : (k.follow r path).FailStop := by
  cases path with
  | preprocess => exact Script.failStop_check _
  | directCompile => exact Script.failStop_check _
  | allInOne => exact Script.failStop_check _
  | transformCompile plan => exact (failStop_pipeline hpar r plan).bind fun _ => trivial
  | transformLink output plan => exact failStop_transformAndLink hpar r output plan
  | linkOnly output => exact k.failStop_linkObjects r.objects output r.linkerArgs

theorem goal_follow_of_accepted (k : Recipe) {r : Request} {path : BuildPath}
    (haccepted : ∀ plan, path.plan? = some plan → ∃ artifacts,
      r.planArtifacts plan = .ok artifacts) : (k.follow r path).goal = .ok () := by
  cases hpath : path.plan? with
  | some plan =>
      obtain ⟨artifacts, hplan⟩ := haccepted plan hpath
      exact goal_follow k hpath hplan
  | none =>
      cases path with
      | preprocess => exact Script.goal_check _
      | directCompile => exact Script.goal_check _
      | allInOne => exact Script.goal_check _
      | linkOnly output => exact k.goal_linkObjects r.objects output r.linkerArgs
      | transformCompile plan => cases hpath
      | transformLink output plan => cases hpath

end Recipe

/-- With sources worked on one after the other, a build that planning does not refuse issues its
commands up to the first that fails and no further, whatever its host answers. It comes to success
exactly when all of them have succeeded, and else to the failure of the last one issued, whose
status it reports. -/
theorem build_stops_at_first_failure {σ τ : Type} (t : Toolchain)
    (hpar : t.toggles.parallel = false) (r : Request) (home : Option Path)
    (haccepted : ∀ plan, (BuildPath.select t r).plan? = some plan →
      ∃ artifacts, r.planArtifacts plan = .ok artifacts)
    (ideal : Host τ) (hideal : ∀ c u, (ideal.exec c u).1 = .exited 0) (u : τ)
    (h : Host σ) (s : σ) :
    let script := (Invocation.build r).carryOut t home
    let intended := (script.run ideal u).commands.map Prod.fst
    let run := script.run h s
    (run.result = .ok 0 ↔ run.commands = intended.map (·, .exited 0)) ∧
    (run.result ≠ .ok 0 → ∃ before c o,
      run.commands = before.map (·, .exited 0) ++ [(c, o)] ∧
      before ++ [c] <+: intended ∧ o ≠ .exited 0 ∧
      run.result = .error (o.failure c) ∧
      Session.status run.result = o.status ∧ Session.status run.result ≠ 0) := by
  intro script intended run
  have hintended : intended = script.course := (Script.run_of_success hideal script u).1
  have hfollow := Recipe.goal_follow_of_accepted (Recipe.ofRequest t r) haccepted
  have hgoal : script.goal = .ok 0 := by
    show Script.goal ((Invocation.build r).carryOut t home) = .ok 0
    rw [Invocation.carryOut_build, Script.goal, Script.goal_bind, hfollow]
    rfl
  have hstop : script.FailStop :=
    (Recipe.failStop_follow hpar r (BuildPath.select t r)).bind fun _ => trivial
  rcases hstop.run h s with ⟨hcommands, hresult⟩ | ⟨before, c, o, e, hcommands, hcourse, hfail,
    hresult⟩
  · rw [← hintended] at hcommands
    rw [hgoal] at hresult
    exact ⟨⟨fun _ => hcommands, fun _ => hresult⟩, fun hne => (hne hresult).elim⟩
  · obtain ⟨ho, rfl⟩ := Outcome.failure?_eq_some.mp hfail
    rw [← hintended] at hcourse
    refine ⟨⟨fun hok => ?_, fun hall => ?_⟩, fun _ => ?_⟩
    · cases hresult.symm.trans hok
    · -- The last command issued did not succeed, so it is none of the intended successes.
      have hmem : (c, o) ∈ intended.map (·, Outcome.exited 0) := by
        rw [← hall, hcommands]
        simp
      obtain ⟨_, _, hco⟩ := List.mem_map.mp hmem
      cases hco
      exact (ho rfl).elim
    · have hstatus : Session.status run.result = o.status := by
        rw [show run.result = .error (o.failure c) from hresult]
        exact o.exitStatus_failure c
      refine ⟨before, c, o, hcommands, hcourse, ho, hresult, hstatus, ?_⟩
      rw [hstatus]
      exact Outcome.status_ne_zero ho

/-- A host that counts its commands and answers one of them in a way of its own. -/
def Host.breaking (at? : Nat) (o : Outcome) : Host Nat where
  exec := fun _ n => (if n = at? then o else .exited 0, n + 1)
  unlink := fun _ n => (.absent, n)

/-- The seventh command of the sample, the first compilation of its second source, does not
start. -/
theorem build_stops_at_first_failure_sample :
    let script := (Invocation.build .sample).carryOut .sample none
    let intended := (script.run Host.willing ()).commands.map Prod.fst
    let run := script.run (Host.breaking 6 (.notLaunched .missing)) 0
    classify ["a.c", "-o", "out/prog", "d/./a.c", "start.S", "x.o", "a.cpp", "-Wl,--as-needed"] =
        .ok (.build .sample) ∧
      Toolchain.sample.toggles.parallel = false ∧
      (∀ c u, (Host.willing.exec c u).1 = .exited 0) ∧
      Session.status run.result = 127 ∧ run.commands.length = 7 ∧
      ∃ before c, run.commands = before.map (·, .exited 0) ++ [(c, .notLaunched .missing)] ∧
        before ++ [c] <+: intended ∧ run.result = .error (.launch c.program .missing) := by
  intro script intended run
  have hpar : Toolchain.sample.toggles.parallel = false := rfl
  have hok : ∀ c u, (Host.willing.exec c u).1 = .exited 0 := fun _ _ => rfl
  have hselect : (BuildPath.select .sample .sample).plan? =
      some (.consolidated ⟨"out/sstmerged.prog.o"⟩) := by decide
  have haccepted : ∀ plan, (BuildPath.select .sample .sample).plan? = some plan →
      ∃ artifacts, Request.sample.planArtifacts plan = .ok artifacts := by
    intro plan hplan
    cases hselect.symm.trans hplan
    exact ⟨Request.sample.artifacts, rfl⟩
  have hlength : run.commands.length = 7 := by decide
  have hstatus : Session.status run.result = 127 := by decide
  have hne : run.result ≠ .ok 0 := by
    intro h
    rw [h] at hstatus
    cases hstatus
  obtain ⟨before, c, o, hcommands, hcourse, _, hresult, _⟩ :=
    (build_stops_at_first_failure .sample hpar .sample none haccepted Host.willing hok ()
      (Host.breaking 6 (.notLaunched .missing)) 0).2 hne
  have hlast : (run.commands.map Prod.snd)[6]? = some (.notLaunched .missing) := by decide
  have hsix : before.length = 6 := by
    have hboth := hlength.symm.trans (congrArg List.length hcommands)
    simp only [List.length_append, List.length_map, List.length_singleton] at hboth
    omega
  have ho : o = .notLaunched .missing := by
    rw [hcommands] at hlast
    simpa [hsix] using hlast
  subst ho
  exact ⟨rfl, hpar, hok, hstatus, hlength, before, c, hcommands, hcourse, hresult⟩

end Deglobal
