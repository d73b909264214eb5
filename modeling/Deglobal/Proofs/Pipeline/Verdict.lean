import Deglobal.Proofs.Pipeline.Effects
import Deglobal.Proofs.Pipeline.FailStop
import Deglobal.Proofs.Script.Accounts

/-! # What the result of a build says of its commands

A build that planning has accepted comes to success only if none of its commands
has failed, and a failure of it is the failure of one of them. Sources that are
worked on in parallel do not stop at a failure, so this is more than was said of
one source after the other: the later ones are seen to their end, and what is
reported is still the failure of the first source that has one.
-/

namespace Deglobal

variable {σ : Type}

namespace Recipe

variable {h : Host σ}

/-- What the results of sources amount to: the first failure among them, if there is one. -/
def verdict (results : List (Artifact × Except Failure Unit)) : Except Failure Unit :=
  match firstFailure? results with
  | none => .ok ()
  | some e => .error e

theorem accountable_transformSource (k : Recipe) (a : Artifact) :
    (k.transformSource a).Accountable h :=
  (k.failStop_transformSource a).accountable (k.goal_transformSource a)

/-- The commands of all sources account for the first failure among them, although others follow it
if sources are seen to their end. -/
theorem accounts_transformEach (k : Recipe) (toTheEnd : Bool) (artifacts : List Artifact)
    (m : Moment σ) : ∃ results m', (k.transformEach toTheEnd artifacts).play h m =
      (.ok results, m') ∧ Accounts (verdict results) m m' := by
  induction artifacts generalizing m with
  | nil => exact ⟨[], m, Script.play_done _, .of_issued () rfl⟩
  | cons a rest ih =>
      rcases hplay : (k.transformSource a).play h m with ⟨result, m₁⟩
      have hfirst := (k.accountable_transformSource a).of_play hplay
      obtain ⟨others, m₂, hothers, hsecond⟩ := ih m₁
      rw [transformEach_cons, Script.play_attempt_bind, hplay]
      cases result with
      | ok _ =>
          simp only [Except.isOk, Except.toBool, Bool.or_true, if_true]
          rw [Script.play_bind_of_ok hothers, Script.play_done]
          exact ⟨_, _, rfl, hfirst.after hsecond⟩
      | error e =>
          simp only [Except.isOk, Except.toBool, Bool.or_false]
          split
          · rw [Script.play_bind_of_ok hothers, Script.play_done]
            obtain ⟨new, hissued, _⟩ := hsecond
            exact ⟨_, _, rfl, hfirst.before hissued⟩
          · exact ⟨_, _, Script.play_done _, hfirst⟩

theorem play_conclude (k : Recipe) (results : List (Artifact × Except Failure Unit))
    (m : Moment σ) : ∃ m', (k.conclude results).play h m = (verdict results, m') ∧
      m'.issued = m.issued := by
  unfold verdict
  cases hfirst : firstFailure? results with
  | none =>
      unfold conclude
      rw [hfirst]
      exact ⟨m, Script.play_done _, rfl⟩
  | some e => exact (k.givesUp_conclude hfirst).play

theorem accountable_transformAll (k : Recipe) (artifacts : List Artifact) :
    (k.transformAll artifacts).Accountable h := by
  have hannounce : (if k.inParallel artifacts then Script.say (.parallel artifacts.length)
      else .done (.ok ())).Accountable h := by
    cases k.inParallel artifacts
    · exact Script.FailStop.accountable trivial rfl
    · exact Script.FailStop.accountable trivial rfl
  rw [transformAll_eq]
  refine hannounce.bind fun _ m => ?_
  obtain ⟨results, m₁, hplay, haccounts⟩ :=
    k.accounts_transformEach (h := h) (k.inParallel artifacts) artifacts m
  obtain ⟨m₂, hconclude, hissued⟩ := k.play_conclude (h := h) results m₁
  rw [Script.play_bind_of_ok hplay, hconclude]
  obtain ⟨new, hnew, hverdict⟩ := haccounts
  exact ⟨new, hissued.trans hnew, hverdict⟩

theorem accountable_pipeline (k : Recipe) {r : Request} {plan : MergePlan}
    {artifacts : List Artifact} (hplan : r.planArtifacts plan = .ok artifacts) :
    (k.pipeline r plan).Accountable h := by
  have hgoal : (k.backHalf r plan).goal = .ok (r.finalObjects plan) := by
    rw [backHalf, Script.goal_bind, goal_assembled]
    exact k.goal_finish r plan
  rw [pipeline_eq_backHalf k hplan]
  refine (k.accountable_transformAll r.artifacts).bind fun _ => ?_
  exact (k.failStop_assembled r.artifacts plan r.assembly).accountable hgoal

/-- A build that planning does not refuse succeeds only if all its commands have, and a failure of
it is the failure of one of them. -/
theorem accountable_follow (k : Recipe) {r : Request} {path : BuildPath}
    (haccepted : ∀ plan, path.plan? = some plan → ∃ artifacts,
      r.planArtifacts plan = .ok artifacts) : (k.follow r path).Accountable h := by
  cases hpath : path.plan? with
  | some plan =>
      obtain ⟨artifacts, hplan⟩ := haccepted plan hpath
      rw [follow_of_plan k r hpath]
      refine (k.accountable_pipeline hplan).bind fun merged => ?_
      exact (k.failStop_useMerged r path merged).accountable (k.goal_useMerged r path merged)
  | none =>
      have hgoal := goal_follow_of_accepted k haccepted
      cases path with
      | preprocess => exact (Script.failStop_check _).accountable hgoal
      | directCompile => exact (Script.failStop_check _).accountable hgoal
      | allInOne => exact (Script.failStop_check _).accountable hgoal
      | linkOnly output => exact (k.failStop_linkObjects _ output _).accountable hgoal
      | transformCompile plan => cases hpath
      | transformLink output plan => cases hpath

end Recipe

theorem Invocation.accountable_carryOut_build {h : Host σ} {t : Toolchain} {r : Request}
    (haccepted : ∀ plan, (BuildPath.select t r).plan? = some plan →
      ∃ artifacts, r.planArtifacts plan = .ok artifacts) (home : Option Path) :
    ((Invocation.build r).carryOut t home).Accountable h := by
  have hnote : (Script.say (.buildPath (BuildPath.select t r))).Accountable h :=
    Script.FailStop.accountable trivial rfl
  have hend : (Script.done (.ok 0) : Script Int32).Accountable h :=
    Script.FailStop.accountable trivial rfl
  exact hnote.bind fun _ =>
    ((Recipe.ofRequest t r).accountable_follow haccepted).bind fun _ => hend

end Deglobal
