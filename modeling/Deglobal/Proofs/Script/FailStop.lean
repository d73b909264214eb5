import Deglobal.Proofs.Script.Course

/-! # Stopping at the first failure

`FailStop` is a property of a script's text: after any outcome of a command but
success it issues nothing more and ends with that command's failure. Removals
and notices may still follow. `FailStop.run` is what this means for a run
against any host.
-/

namespace Deglobal

def Outcome.failure (c : Command) : Outcome → Failure
  | exited status => .tool c.program status
  | notLaunched error => .launch c.program error

def Outcome.status : Outcome → Int32
  | exited status => status
  | notLaunched _ => 127

/-- The failure that an outcome of a command amounts to, if it is not success. -/
def Outcome.failure? (c : Command) (o : Outcome) : Option Failure :=
  if o = .exited 0 then none else some (o.failure c)

def Outcome.result (c : Command) (o : Outcome) : Except Failure Unit :=
  match o.failure? c with
  | none => .ok ()
  | some e => .error e

theorem Outcome.failure?_eq_none {c : Command} {o : Outcome} :
    o.failure? c = none ↔ o = .exited 0 := by
  unfold failure?
  split <;> simp_all

theorem Outcome.failure?_eq_some {c : Command} {o : Outcome} {e : Failure} :
    o.failure? c = some e ↔ o ≠ .exited 0 ∧ o.failure c = e := by
  unfold failure?
  split <;> simp_all

theorem Outcome.result_eq_ok {c : Command} {o : Outcome} :
    o.result c = .ok () ↔ o = .exited 0 := by
  rw [← failure?_eq_none (c := c), result]
  cases o.failure? c <;> simp

theorem Outcome.exitStatus_failure (c : Command) (o : Outcome) :
    (o.failure c).exitStatus = o.status := by
  cases o <;> rfl

theorem Outcome.status_ne_zero {o : Outcome} (h : o ≠ .exited 0) : o.status ≠ 0 := by
  cases o with
  | exited status =>
      show status ≠ 0
      simpa using h
  | notLaunched error =>
      show (127 : Int32) ≠ 0
      decide

namespace Script

variable {α β σ : Type}

theorem check_of_program {c : Command} (hc : c.isEmpty = false) :
    check c = exec c fun o => done (o.result c) := by
  unfold check
  rw [if_neg (by simp [hc])]
  congr 1
  funext o
  cases o with
  | exited status =>
      by_cases hs : status = 0
      · simp [hs, Outcome.result, Outcome.failure?]
      · simp [hs, Outcome.result, Outcome.failure?, Outcome.failure]
  | notLaunched error => simp [Outcome.result, Outcome.failure?, Outcome.failure]

theorem check_of_empty {c : Command} (hc : c.isEmpty = true) : check c = done (.ok ()) := by
  unfold check
  rw [if_pos hc]

/-! ## Scripts that give up -/

/-- A script that issues no command and ends with a failure. -/
def GivesUp (e : Failure) : Script α → Prop
  | done result => result = .error e
  | exec _ _ => False
  | discard _ next => next.GivesUp e
  | note _ next => next.GivesUp e
  | write _ _ next => next.GivesUp e

theorem givesUp_done (e : Failure) : (done (.error e) : Script α).GivesUp e := rfl

theorem givesUp_fail (e : Failure) : (fail e : Script α).GivesUp e := rfl

theorem GivesUp.bind {e : Failure} {x : Script α} (hx : x.GivesUp e) (f : α → Script β) :
    (x.bind f).GivesUp e := by
  induction x with
  | done result =>
      cases hx
      rfl
  | exec c next ih => exact hx.elim
  | discard p next ih => exact ih hx
  | note n next ih => exact ih hx
  | write stream text next ih => exact ih hx

theorem GivesUp.attempt_bind {e : Failure} {x : Script α} {f : Except Failure α → Script β}
    (hx : x.GivesUp e) (hf : (f (.error e)).GivesUp e) : (x.attempt.bind f).GivesUp e := by
  induction x with
  | done result =>
      cases hx
      exact hf
  | exec c next ih => exact hx.elim
  | discard p next ih => exact ih hx
  | note n next ih => exact ih hx
  | write stream text next ih => exact ih hx

theorem givesUp_discardAll_bind {e : Failure} {f : Unit → Script β} (hf : (f ()).GivesUp e)
    (files : List Path) : ((discardAll files).bind f).GivesUp e := by
  induction files with
  | nil => exact hf
  | cons p rest ih => exact ih

theorem GivesUp.run {e : Failure} {x : Script α} (hx : x.GivesUp e) (h : Host σ) (s : σ) :
    (x.run h s).commands = [] ∧ (x.run h s).result = .error e := by
  induction x generalizing s with
  | done result => exact ⟨rfl, hx⟩
  | exec c next ih => exact hx.elim
  | discard p next ih => exact ih hx _
  | note n next ih => exact ih hx _
  | write stream text next ih => exact ih hx _

/-! ## Scripts that stop at a failure -/

/-- Each command of a script that does not succeed is its last, and its failure the result. -/
def FailStop : Script α → Prop
  | done _ => True
  | exec c next =>
      (next (.exited 0)).FailStop ∧ ∀ o e, o.failure? c = some e → (next o).GivesUp e
  | discard _ next => next.FailStop
  | note _ next => next.FailStop
  | write _ _ next => next.FailStop

theorem GivesUp.failStop {e : Failure} {x : Script α} (hx : x.GivesUp e) : x.FailStop := by
  induction x with
  | done result => trivial
  | exec c next ih => exact hx.elim
  | discard p next ih => exact ih hx
  | note n next ih => exact ih hx
  | write stream text next ih => exact ih hx

theorem FailStop.bind {x : Script α} {f : α → Script β} (hx : x.FailStop)
    (hf : ∀ a, (f a).FailStop) : (x.bind f).FailStop := by
  induction x with
  | done result =>
      cases result with
      | ok a => exact hf a
      | error e => trivial
  | exec c next ih => exact ⟨ih _ hx.1, fun o e ho => (hx.2 o e ho).bind f⟩
  | discard p next ih => exact ih hx
  | note n next ih => exact ih hx
  | write stream text next ih => exact ih hx

/-- What follows an attempt has to give up with the failure it is handed. -/
theorem FailStop.attempt_bind {x : Script α} {f : Except Failure α → Script β}
    (hx : x.FailStop) (hok : ∀ a, (f (.ok a)).FailStop)
    (herr : ∀ e, (f (.error e)).GivesUp e) : (x.attempt.bind f).FailStop := by
  induction x with
  | done result =>
      cases result with
      | ok a => exact hok a
      | error e => exact (herr e).failStop
  | exec c next ih =>
      exact ⟨ih _ hx.1, fun o e ho => (hx.2 o e ho).attempt_bind (herr e)⟩
  | discard p next ih => exact ih hx
  | note n next ih => exact ih hx
  | write stream text next ih => exact ih hx

theorem failStop_discardAll (files : List Path) : (discardAll files).FailStop := by
  induction files with
  | nil => trivial
  | cons p rest ih => exact ih

theorem failStop_check (c : Command) : (check c).FailStop := by
  cases hc : c.isEmpty with
  | true =>
      rw [check_of_empty hc]
      trivial
  | false =>
      rw [check_of_program hc]
      refine ⟨trivial, fun o e ho => ?_⟩
      show Outcome.result c o = .error e
      simp only [Outcome.result, ho]

/-- A run takes the script's course to its end, or breaks it off right after the first command
that fails. -/
theorem FailStop.run {x : Script α} (hx : x.FailStop) (h : Host σ) (s : σ) :
    ((x.run h s).commands = x.course.map (·, .exited 0) ∧ (x.run h s).result = x.goal) ∨
      ∃ before c o e, (x.run h s).commands = before.map (·, .exited 0) ++ [(c, o)] ∧
        before ++ [c] <+: x.course ∧ o.failure? c = some e ∧
        (x.run h s).result = .error e := by
  induction x generalizing s with
  | done result => exact Or.inl ⟨rfl, rfl⟩
  | exec c next ih =>
      cases hf : (h.exec c s).1.failure? c with
      | none =>
          have hok := Outcome.failure?_eq_none.mp hf
          simp only [Script.run, hok]
          rcases ih (.exited 0) hx.1 (h.hear (.ran c (.exited 0)) (h.exec c s).2) with
            ⟨hcommands, hresult⟩ | ⟨before, c', o, e, hcommands, hcourse, hfail, hresult⟩
          · exact Or.inl ⟨congrArg ((c, Outcome.exited 0) :: ·) hcommands, hresult⟩
          · refine Or.inr ⟨c :: before, c', o, e, ?_, ?_, hfail, hresult⟩
            · exact congrArg ((c, Outcome.exited 0) :: ·) hcommands
            · exact List.cons_prefix_cons.mpr ⟨rfl, hcourse⟩
      | some e =>
          obtain ⟨hcommands, hresult⟩ :=
            (hx.2 _ e hf).run h (h.hear (.ran c (h.exec c s).1) (h.exec c s).2)
          refine Or.inr ⟨[], c, (h.exec c s).1, e, ?_, ?_, hf, hresult⟩
          · exact congrArg ((c, (h.exec c s).1) :: ·) hcommands
          · exact List.cons_prefix_cons.mpr ⟨rfl, List.nil_prefix⟩
  | discard p next ih => exact ih hx _
  | note n next ih => exact ih hx _
  | write stream text next ih => exact ih hx _

end Script

end Deglobal
