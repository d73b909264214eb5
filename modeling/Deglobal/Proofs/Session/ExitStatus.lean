import Deglobal.Proofs.Pipeline.FailStop
import Deglobal.Proofs.Script.Reports
import Deglobal.Proofs.Session.Misconfiguration
import Deglobal.Proofs.Session.Setup

/-! # Exit statuses

The exit status of a session is that of the first command that does not succeed,
and 0 if there is none. Nothing else can fail but what the driver was given to
work with, and then nothing is launched and the status is 1: queries pass on what
their command is reported with, and builds stop at their first failure.
-/

namespace Deglobal

variable {σ : Type}

/-! ## How sessions end -/

/-- How the commands of a session settle its result: all of them succeeded and so did the session,
or one that did not was the last and its status is passed on, or none was issued since something is
wrong with what the driver was given. -/
inductive Settles : List (Command × Outcome) → Except Failure Int32 → Prop where
  | clean {commands : List (Command × Outcome)} :
      (∀ x ∈ commands, x.2 = .exited 0) → Settles commands (.ok 0)
  | failed {before : List (Command × Outcome)} {c : Command} {o : Outcome}
      {result : Except Failure Int32} : (∀ x ∈ before, x.2 = .exited 0) → o ≠ .exited 0 →
      Session.status result = o.status → (∀ e, result = .error e → e.ofSetup = false) →
      Settles (before ++ [(c, o)]) result
  | refused {e : Failure} : e.ofSetup = true → Settles [] (.error e)

/-- The same of what the system reported. -/
inductive Told : List Report → Except Failure Int32 → Prop where
  | clean {reports : List Report} : (∀ r ∈ reports, r = .success) → Told reports (.ok 0)
  | failed {first : List Report} {r : Report} {result : Except Failure Int32} :
      (∀ r' ∈ first, r' = .success) → r ≠ .success → r.Possible →
      Session.status result = Int32.ofNat r.status → (∀ e, result = .error e → e.ofSetup = false) →
      Told (first ++ [r]) result
  | refused {e : Failure} : e.ofSetup = true → Told [] (.error e)

theorem Settles.told {commands : List (Command × Outcome)} {reports : List Report}
    {result : Except Failure Int32} (hsettles : Settles commands result)
    (hreported : Reported commands reports) : Told reports result := by
  cases hsettles with
  | clean hall => exact .clean (hreported.forall_success_iff.mp hall)
  | failed hbefore ho hstatus hno =>
      obtain ⟨first, r, rfl, hfirst, hr, hpossible, rfl⟩ := hreported.exists_of_failed hbefore ho
      exact .failed hfirst hr hpossible (hstatus.trans r.status_outcome) hno
  | refused he =>
      cases hreported
      exact .refused he

/-! ## Queries -/

def Outcome.answer (c : Command) : Outcome → Except Failure Int32
  | exited status => .ok status
  | notLaunched error => .error (.launch c.program error)

theorem settles_answer (c : Command) (o : Outcome) : Settles [(c, o)] (o.answer c) := by
  by_cases ho : o = .exited 0
  · subst ho
    exact .clean fun x hx => by rw [List.mem_singleton.mp hx]
  · refine Settles.failed (fun _ hx => absurd hx List.not_mem_nil) ho ?_ ?_
    · cases o <;> rfl
    · cases o with
      | exited status => exact fun _ heq => by cases heq
      | notLaunched error => exact fun _ heq => by cases heq; rfl

theorem settles_exec {c : Command} {next : Outcome → Script Int32} {h : Host σ}
    (hnext : ∀ o s, ((next o).run h s).commands = [] ∧ ((next o).run h s).result = o.answer c)
    (s : σ) :
    Settles ((Script.exec c next).run h s).commands ((Script.exec c next).run h s).result := by
  obtain ⟨hcommands, hresult⟩ := hnext (h.exec c s).1
    (h.hear (.ran c (h.exec c s).1) (h.exec c s).2)
  have hfirst : ((Script.exec c next).run h s).commands = [(c, (h.exec c s).1)] :=
    congrArg ((c, (h.exec c s).1) :: ·) hcommands
  rw [hfirst, show ((Script.exec c next).run h s).result = _ from hresult]
  exact settles_answer c _

theorem Query.settles (q : Query) (t : Toolchain) (home : Option Path) (h : Host σ) (s : σ) :
    let run := (q.answer t home).run h s
    Settles run.commands run.result := by
  have hstatus : ∀ (c : Command) (s : σ), Settles ((Script.status c).run h s).commands
      ((Script.status c).run h s).result := fun c s =>
    settles_exec (fun o _ => by cases o <;> exact ⟨rfl, rfl⟩) s
  cases q with
  | version flag =>
      cases home with
      | none => exact hstatus _ _
      | some dir => exact hstatus _ _
  | help => exact settles_exec (fun o _ => by cases o <;> exact ⟨rfl, rfl⟩) s
  | flags => exact .clean fun _ hx => absurd hx List.not_mem_nil

/-! ## Builds -/

theorem Outcome.ofSetup_failure (c : Command) (o : Outcome) : (o.failure c).ofSetup = false := by
  cases o <;> rfl

theorem Invocation.settles_build {t : Toolchain} (hpar : t.toggles.parallel = false) (r : Request)
    (home : Option Path) (h : Host σ) (s : σ) :
    let run := ((Invocation.build r).carryOut t home).run h s
    Settles run.commands run.result := by
  intro run
  by_cases haccepted : ∀ plan, (BuildPath.select t r).plan? = some plan →
      ∃ artifacts, r.planArtifacts plan = .ok artifacts
  · have hfollow := Recipe.goal_follow_of_accepted (Recipe.ofRequest t r) haccepted
    have hgoal : ((Invocation.build r).carryOut t home).goal = .ok 0 := by
      rw [carryOut_build, Script.goal, Script.goal_bind, hfollow]
      rfl
    have hstop : ((Invocation.build r).carryOut t home).FailStop :=
      (Recipe.failStop_follow hpar r (BuildPath.select t r)).bind fun _ => trivial
    rcases hstop.run h s with ⟨hcommands, hresult⟩ | ⟨before, c, o, e, hcommands, _, hfail, hresult⟩
    · rw [hcommands, hresult, hgoal]
      refine .clean fun x hx => ?_
      obtain ⟨c, _, rfl⟩ := List.mem_map.mp hx
      rfl
    · obtain ⟨ho, rfl⟩ := Outcome.failure?_eq_some.mp hfail
      rw [hcommands, hresult]
      refine .failed (fun x hx => ?_) ho (o.exitStatus_failure c) fun e heq => ?_
      · obtain ⟨c, _, rfl⟩ := List.mem_map.mp hx
        rfl
      · cases heq
        exact o.ofSetup_failure c
  · simp only [not_forall] at haccepted
    obtain ⟨plan, hpath, hrefused⟩ := haccepted
    cases hplan : r.planArtifacts plan with
    | ok artifacts => exact absurd ⟨artifacts, hplan⟩ hrefused
    | error e =>
        simp only [run, carryOut_build, Recipe.follow_of_clash _ hpath hplan]
        exact .refused (r.setupOnly_planArtifacts plan e hplan)

/-! ## Whole sessions -/

namespace Session

def script (probe : Probe Id) (program : String) (args : List String) (home : Option Path) :
    Script Int32 :=
  (Script.done (Id.run (prepare probe program args))).bind fun p => p.script home

theorem settles (probe : Probe Id) (program : String) (args : List String) (home : Option Path)
    (hpar : Toggles.read probe.lookup Toggles.parallelVariable false ≠ .ok true) (h : Host σ)
    (s : σ) :
    let run := (script probe program args home).run h s
    Settles run.commands run.result := by
  simp only [script, script_of_prepare, invoke]
  cases hargs : classify (driverArgs args) with
  | error e => exact .refused (setupOnly_classify _ e hargs)
  | ok inv =>
      cases hload : Id.run (Toolchain.load probe (Language.ofProgram program)) with
      | error e => exact .refused (Toolchain.setupOnly_load _ _ e hload)
      | ok t =>
          have hread := Toolchain.parallel_of_load hload
          have hoff : t.toggles.parallel = false := by
            rw [hread] at hpar
            simpa using hpar
          cases inv with
          | query q => exact q.settles t home h s
          | build r => exact Invocation.settles_build hoff r home h s

/-! ## Statuses in one byte -/

theorem toNat_exitByte_ofNat {n : Nat} (hn : n < 256) :
    (exitByte (Int32.ofNat n)).toNat = n := by
  unfold exitByte
  simp
  omega

theorem toInt_ofNat {n : Nat} (hn : n < 256) : (Int32.ofNat n).toInt = n :=
  Int32.toInt_ofNat_of_lt (by omega)

end Session

namespace Told

open Session (exitByte status)

variable {reports : List Report} {result : Except Failure Int32}

theorem exists_byte (h : Told reports result) : ∃ n < 256, status result = Int32.ofNat n := by
  cases h with
  | clean hall => exact ⟨0, by omega, rfl⟩
  | failed hfirst hr hpossible hstatus hno => exact ⟨_, hpossible.status_lt, hstatus⟩
  | refused he => exact ⟨1, by omega, Failure.exitStatus_of_ofSetup he⟩

/-- The byte holds all of the status. -/
theorem toInt_status (h : Told reports result) :
    (status result).toInt = (exitByte (status result)).toNat := by
  obtain ⟨n, hn, hstatus⟩ := h.exists_byte
  rw [hstatus, Session.toNat_exitByte_ofNat hn, Session.toInt_ofNat hn]

/-- The status is that of the first report of anything but a success. -/
theorem exit_of_find (h : Told reports result) {r : Report}
    (hr : reports.find? (· ≠ .success) = some r) :
    (exitByte (status result)).toNat = r.status := by
  cases h with
  | clean hall =>
      have hfailed := List.find?_some hr
      rw [hall r (List.mem_of_find?_eq_some hr)] at hfailed
      cases hfailed
  | @failed first last _ hfirst hlast hpossible hstatus hno =>
      have hnone : first.find? (· ≠ .success) = none := by
        simpa using hfirst
      rw [List.find?_append, hnone, Option.none_or, List.find?_singleton,
        if_pos (decide_eq_true hlast)] at hr
      cases hr
      rw [hstatus, Session.toNat_exitByte_ofNat hpossible.status_lt]
  | refused he => cases hr

theorem exit_eq_zero_iff (h : Told reports result) :
    exitByte (status result) = 0 ↔
      (∃ st, result = .ok st) ∧ ∀ r ∈ reports, r = .success := by
  cases h with
  | clean hall => exact iff_of_true rfl ⟨⟨0, rfl⟩, hall⟩
  | @failed first r _ hfirst hr hpossible hstatus hno =>
      have hmem : r ∈ first ++ [r] := List.mem_append_right first List.mem_cons_self
      refine iff_of_false (fun hzero => ?_) fun hall => hr (hall.2 r hmem)
      have hexit := Session.toNat_exitByte_ofNat hpossible.status_lt
      rw [← hstatus, hzero] at hexit
      exact hr (Report.eq_success_of_status_eq_zero hexit.symm)
  | @refused e he =>
      have hstatus : status (.error e) = 1 := Failure.exitStatus_of_ofSetup he
      rw [hstatus]
      refine iff_of_false (by decide) fun hall => ?_
      obtain ⟨_, hok⟩ := hall.1
      cases hok

theorem refused_of_ofSetup {e : Failure} (h : Told reports (.error e)) (he : e.ofSetup = true) :
    reports = [] ∧ exitByte (status (.error e)) = 1 := by
  cases h with
  | failed hfirst hr hpossible hstatus hno => cases (hno e rfl).symm.trans he
  | refused _ =>
      have hstatus : status (.error e) = 1 := Failure.exitStatus_of_ofSetup he
      rw [hstatus]
      exact ⟨rfl, rfl⟩

theorem ofSetup_of_success {e : Failure} (h : Told reports (.error e))
    (hall : ∀ r ∈ reports, r = .success) : e.ofSetup = true := by
  cases h with
  | @failed first r _ hfirst hr hpossible hstatus hno =>
      exact absurd (hall r (List.mem_append_right first List.mem_cons_self)) hr
  | refused he => exact he

end Told

namespace Session

/-- The exit status of a session is that of the first report that is not a success, and nothing of
it is lost on the way. It is 0 exactly if the session came to its end and all that it launched
succeeded. What is wrong with the arguments, the configuration or the description of the toolchain
is told by 1, before anything is launched. -/
theorem exit_status_truthful (probe : Probe Id) (program : String) (args : List String)
    (home : Option Path)
    (hpar : Toggles.read probe.lookup Toggles.parallelVariable false ≠ .ok true) (y : System σ)
    (hy : y.Sound) (s : σ) :
    let run := (script probe program args home).run y.host ⟨s, []⟩
    let reports := run.final.reports
    let exit := exitByte (status run.result)
    (exit = 0 ↔ (∃ st, run.result = .ok st) ∧ ∀ r ∈ reports, r = .success) ∧
      (∀ r, reports.find? (· ≠ .success) = some r → exit.toNat = r.status) ∧
      (∀ e, run.result = .error e → e.ofSetup = true → reports = [] ∧ exit = 1) ∧
      (∀ e, run.result = .error e → (∀ r ∈ reports, r = .success) → e.ofSetup = true) ∧
      (status run.result).toInt = exit.toNat := by
  intro run reports exit
  have htold : Told reports run.result := by
    obtain ⟨_, hreports, hreported⟩ :=
      y.reported_run hy (script probe program args home) ⟨s, []⟩
    rw [List.nil_append] at hreports
    rw [← hreports] at hreported
    exact (settles probe program args home hpar y.host _).told hreported
  refine ⟨htold.exit_eq_zero_iff, fun r hr => htold.exit_of_find hr, fun e heq he => ?_,
    fun e heq hall => ?_, htold.toInt_status⟩
  · rw [heq] at htold
    obtain ⟨hnone, hexit⟩ := htold.refused_of_ofSetup he
    exact ⟨hnone, (congrArg (fun result => exitByte (status result)) heq).trans hexit⟩
  · rw [heq] at htold
    exact htold.ofSetup_of_success hall

def sampleProbe : Probe Id where
  lookup setting := if setting = descriptionVariable then some "vars.json" else none
  readText _ := .ok "\x7b\"clang_cppflags\":\"-I/x\"\x7d"
  isFile _ := true
  isProgram _ := true
  self? := none
  here := ⟨"/work"⟩

/-- The third command, the compilation of what the tool has made, is killed. -/
theorem exit_status_truthful_sample :
    let y := System.breaking 2 (.ended (.killed 11))
    let run := (script sampleProbe "sst++" ["a.cpp", "-c"] none).run y.host ⟨0, []⟩
    Toggles.read sampleProbe.lookup Toggles.parallelVariable false ≠ .ok true ∧ y.Sound ∧
      run.final.reports = [.success, .success, .ended (.killed 11)] ∧
      (exitByte (status run.result)).toNat = 139 ∧ (status run.result).toInt = 139 := by
  intro y run
  have hpar : Toggles.read sampleProbe.lookup Toggles.parallelVariable false ≠ .ok true := by
    decide
  have hsound : y.Sound := System.sound_breaking ⟨by decide, by decide⟩
  have hreports : run.final.reports = [.success, .success, .ended (.killed 11)] := by
    decide +kernel
  obtain ⟨_, hfirst, _, _, hint⟩ :=
    exit_status_truthful sampleProbe "sst++" ["a.cpp", "-c"] none hpar y hsound 0
  have hexit : (exitByte (status run.result)).toNat = 139 := by
    refine hfirst (.ended (.killed 11)) ?_
    rw [hreports]
    decide
  exact ⟨hpar, hsound, hreports, hexit, hint.trans (congrArg Nat.cast hexit)⟩

end Session

end Deglobal
