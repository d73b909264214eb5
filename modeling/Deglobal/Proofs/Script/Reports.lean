import Deglobal.Proofs.Script.FailStop

/-! # What a system reports of its commands

A system reports of a command it was to launch how its process ended, or why
there was none. A driver takes a report as a number of 32 bits. Of the reports
there can be, none but that of a success becomes zero on the way, so that the
first command without success is also the first report of something else.
-/

namespace Deglobal

variable {α σ : Type}

/-! ## Reports -/

/-- What a system reports of a command it was to launch. -/
inductive Report where
  | ended (ending : Ending)
  | notLaunched (error : OsError)
  deriving DecidableEq, Inhabited

namespace Report

def success : Report := ended (.exited 0)

def status : Report → Nat
  | ended ending => ending.status
  | notLaunched _ => 127

/-- A process ends with a byte, or by a signal there is. -/
def Possible : Report → Prop
  | ended (.exited status) => status < 256
  | ended (.killed signal) => 1 ≤ signal ∧ signal ≤ 64
  | notLaunched _ => True

def outcome : Report → Outcome
  | ended ending => ending.outcome
  | notLaunched error => .notLaunched error

variable {r : Report}

theorem Possible.status_lt (hr : r.Possible) : r.status < 256 := by
  cases r with
  | ended ending =>
      cases ending with
      | exited status => exact hr
      | killed signal =>
          show 128 + signal < 256
          have hsignal := hr.2
          omega
  | notLaunched error =>
      show 127 < 256
      omega

theorem status_outcome (r : Report) : r.outcome.status = Int32.ofNat r.status := by
  cases r <;> rfl

theorem eq_success_of_status_eq_zero (hzero : r.status = 0) : r = success := by
  cases r with
  | ended ending =>
      cases ending with
      | exited status =>
          have hstatus : status = 0 := hzero
          rw [hstatus]
          rfl
      | killed signal =>
          have hstatus : 128 + signal = 0 := hzero
          omega
  | notLaunched error => cases hzero

/-- Of the reports there can be only a success is taken for one. -/
theorem Possible.outcome_eq_success (hr : r.Possible) : r.outcome = .exited 0 ↔ r = success := by
  constructor
  · intro houtcome
    have hlt := hr.status_lt
    have hstatus : Int32.ofNat r.status = 0 := by
      rw [← status_outcome, houtcome]
      rfl
    have hint : (Int32.ofNat r.status).toInt = r.status := Int32.toInt_ofNat_of_lt (by omega)
    rw [hstatus] at hint
    exact eq_success_of_status_eq_zero (Int.ofNat_inj.mp hint.symm)
  · rintro rfl
    rfl

end Report

/-! ## Systems -/

structure System (σ : Type) where
  launch : Command → σ → Report × σ
  unlink : Path → σ → Removal × σ
  hear : Event → σ → σ := fun _ s => s

structure Watched (σ : Type) where
  now : σ
  reports : List Report := []

namespace System

/-- A system as a host. A command without a program is not launched. -/
def host (y : System σ) : Host (Watched σ) where
  exec c s :=
    if c.isEmpty then (.exited 0, s)
    else
      let answer := y.launch c s.now
      (answer.1.outcome, ⟨answer.2, s.reports ++ [answer.1]⟩)
  unlink p s :=
    let answer := y.unlink p s.now
    (answer.1, { s with now := answer.2 })
  hear e s := { s with now := y.hear e s.now }

/-- Whatever a system reports is possible. -/
def Sound (y : System σ) : Prop := ∀ c s, (y.launch c s).1.Possible

def breaking (at? : Nat) (r : Report) : System Nat where
  launch _ n := (if n = at? then r else .success, n + 1)
  unlink _ n := (.absent, n)

theorem sound_breaking {at? : Nat} {r : Report} (hr : r.Possible) : (breaking at? r).Sound := by
  intro c n
  show (if n = at? then r else Report.success).Possible
  split
  · exact hr
  · show 0 < 256
    omega

end System

/-! ## The reports of a run -/

/-- The commands of a run, and the reports of those that were launched. -/
inductive Reported : List (Command × Outcome) → List Report → Prop where
  | nil : Reported [] []
  | idle {c : Command} {commands : List (Command × Outcome)} {reports : List Report} :
      Reported commands reports → Reported ((c, .exited 0) :: commands) reports
  | launched {c : Command} {r : Report} {commands : List (Command × Outcome)}
      {reports : List Report} : r.Possible → Reported commands reports →
      Reported ((c, r.outcome) :: commands) (r :: reports)

theorem System.reported_run {y : System σ} (hy : y.Sound) (x : Script α) (s : Watched σ) :
    ∃ reports, (x.run y.host s).final.reports = s.reports ++ reports ∧
      Reported (x.run y.host s).commands reports := by
  induction x generalizing s with
  | done result => exact ⟨[], (List.append_nil _).symm, .nil⟩
  | exec c next ih =>
      by_cases hc : c.isEmpty = true
      · have hanswer : y.host.exec c s = (.exited 0, s) := if_pos hc
        simp only [Script.run, hanswer]
        obtain ⟨reports, hreports, hrun⟩ := ih (.exited 0) (y.host.hear (.ran c (.exited 0)) s)
        exact ⟨reports, hreports, hrun.idle⟩
      · have hanswer : y.host.exec c s = ((y.launch c s.now).1.outcome,
            ⟨(y.launch c s.now).2, s.reports ++ [(y.launch c s.now).1]⟩) := if_neg hc
        simp only [Script.run, hanswer]
        obtain ⟨reports, hreports, hrun⟩ := ih (y.launch c s.now).1.outcome
          (y.host.hear (.ran c (y.launch c s.now).1.outcome)
            ⟨(y.launch c s.now).2, s.reports ++ [(y.launch c s.now).1]⟩)
        refine ⟨(y.launch c s.now).1 :: reports, hreports.trans ?_, .launched (hy c s.now) hrun⟩
        exact List.append_assoc s.reports [(y.launch c s.now).1] reports
  | discard p next ih => exact ih _
  | note n next ih => exact ih _
  | write stream text next ih => exact ih _

namespace Reported

variable {commands : List (Command × Outcome)} {reports : List Report}

theorem forall_success_iff (h : Reported commands reports) :
    (∀ x ∈ commands, x.2 = .exited 0) ↔ ∀ r ∈ reports, r = .success := by
  induction h with
  | nil => simp
  | idle _ ih => rw [List.forall_mem_cons, ← ih, and_iff_right rfl]
  | launched hr _ ih => rw [List.forall_mem_cons, List.forall_mem_cons, ih, hr.outcome_eq_success]

theorem exists_of_failed {before : List (Command × Outcome)} {c : Command} {o : Outcome}
    (h : Reported (before ++ [(c, o)]) reports) (hbefore : ∀ x ∈ before, x.2 = .exited 0)
    (ho : o ≠ .exited 0) : ∃ first r, reports = first ++ [r] ∧ (∀ r' ∈ first, r' = .success) ∧
      r ≠ .success ∧ r.Possible ∧ r.outcome = o := by
  induction before generalizing reports with
  | nil =>
      cases h with
      | idle _ => exact absurd rfl ho
      | launched hr hnone =>
          cases hnone
          exact ⟨[], _, rfl, fun _ hmem => absurd hmem List.not_mem_nil,
            mt hr.outcome_eq_success.mpr ho, hr, rfl⟩
  | cons x before ih =>
      obtain ⟨hx, hrest⟩ := List.forall_mem_cons.mp hbefore
      cases h with
      | idle hreported => exact ih hreported hrest
      | launched hr hreported =>
          obtain ⟨first, r, rfl, hfirst, hlast⟩ := ih hreported hrest
          refine ⟨_ :: first, r, rfl, List.forall_mem_cons.mpr ⟨?_, hfirst⟩, hlast⟩
          exact hr.outcome_eq_success.mp hx

end Reported

end Deglobal
