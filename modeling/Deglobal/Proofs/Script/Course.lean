import Deglobal.Script

/-! # The course of a script

A script whose commands all succeed has one course: the commands it issues, in
order, and what it comes to. Both are functions of the script alone, whatever
the host makes of removals and notices. The last section compares a course with
a run that meets failures: `FailStop` says that the first failed command is the
last one issued and that its failure is the result.
-/

namespace Deglobal

namespace Script

variable {α β σ : Type}

theorem bind_def (x : Script α) (f : α → Script β) : (x >>= f) = x.bind f := rfl

theorem pure_def (a : α) : (pure a : Script α) = done (.ok a) := rfl

theorem bind_assoc {γ : Type} (x : Script α) (f : α → Script β) (g : β → Script γ) :
    (x.bind f).bind g = x.bind fun a => (f a).bind g := by
  induction x with
  | done result => cases result <;> rfl
  | exec c next ih => simp only [bind, ih]
  | discard p next ih => simp only [bind, ih]
  | note n next ih => simp only [bind, ih]
  | write stream text next ih => simp only [bind, ih]

/-! ## Commands and result of an undisturbed run -/

/-- The commands a script issues when each of them succeeds. -/
def course : Script α → List Command
  | done _ => []
  | exec c next => c :: (next (.exited 0)).course
  | discard _ next => next.course
  | note _ next => next.course
  | write _ _ next => next.course

/-- What a script comes to when each of its commands succeeds. -/
def goal : Script α → Except Failure α
  | done result => result
  | exec _ next => (next (.exited 0)).goal
  | discard _ next => next.goal
  | note _ next => next.goal
  | write _ _ next => next.goal

@[simp] theorem goal_bind (x : Script α) (f : α → Script β) :
    (x.bind f).goal = x.goal.bind fun a => (f a).goal := by
  induction x with
  | done result => cases result <;> rfl
  | exec c next ih => exact ih (.exited 0)
  | discard p next ih => exact ih
  | note n next ih => exact ih
  | write stream text next ih => exact ih

theorem exists_goal_of_bind {x : Script α} {f : α → Script β} {b : β}
    (h : (x.bind f).goal = .ok b) : ∃ a, x.goal = .ok a ∧ (f a).goal = .ok b := by
  rw [goal_bind] at h
  cases hx : x.goal with
  | ok a =>
      rw [hx] at h
      exact ⟨a, rfl, h⟩
  | error e =>
      rw [hx] at h
      cases h

theorem course_bind_of_goal {x : Script α} {a : α} (h : x.goal = .ok a) (f : α → Script β) :
    (x.bind f).course = x.course ++ (f a).course := by
  induction x with
  | done result =>
      cases h
      rfl
  | exec c next ih =>
      simp only [bind, course, List.cons_append]
      rw [ih (.exited 0) h]
  | discard p next ih => exact ih h
  | note n next ih => exact ih h
  | write stream text next ih => exact ih h

@[simp] theorem goal_attempt (x : Script α) : x.attempt.goal = .ok x.goal := by
  induction x with
  | done result => rfl
  | exec c next ih => exact ih (.exited 0)
  | discard p next ih => exact ih
  | note n next ih => exact ih
  | write stream text next ih => exact ih

@[simp] theorem course_attempt (x : Script α) : x.attempt.course = x.course := by
  induction x with
  | done result => rfl
  | exec c next ih => simp only [attempt, course, ih]
  | discard p next ih => exact ih
  | note n next ih => exact ih
  | write stream text next ih => exact ih

@[simp] theorem goal_discardAll (files : List Path) : (discardAll files).goal = .ok () := by
  induction files with
  | nil => rfl
  | cons p rest ih => exact ih

@[simp] theorem course_discardAll (files : List Path) : (discardAll files).course = [] := by
  induction files with
  | nil => rfl
  | cons p rest ih => exact ih

@[simp] theorem goal_say (n : Notice) : (say n).goal = .ok () := rfl

@[simp] theorem course_say (n : Notice) : (say n).course = [] := rfl

@[simp] theorem goal_check (c : Command) : (check c).goal = .ok () := by
  unfold check
  split <;> rfl

/-- The commands of a list that have a program; of any other one nothing is issued. -/
def runnable (cs : List Command) : List Command := cs.filter fun c => !c.isEmpty

@[simp] theorem runnable_append (cs ds : List Command) :
    runnable (cs ++ ds) = runnable cs ++ runnable ds := List.filter_append ..

theorem runnable_of_forall {cs : List Command} (hcs : ∀ c ∈ cs, c.isEmpty = false) :
    runnable cs = cs :=
  List.filter_eq_self.mpr fun c hc => by simp [hcs c hc]

theorem course_check_eq (c : Command) : (check c).course = runnable [c] := by
  unfold check
  cases hc : c.isEmpty <;> simp [runnable, course, hc]

theorem course_check {c : Command} (hc : c.isEmpty = false) : (check c).course = [c] := by
  rw [course_check_eq, runnable_of_forall (by simpa using hc)]

theorem run_of_succeeded {h : Host σ} {x : Script α} {s : σ}
    (hok : ∀ y ∈ (x.run h s).commands, y.2 = .exited 0) :
    ((x.run h s).commands.map Prod.fst = x.course) ∧ (x.run h s).result = x.goal := by
  induction x generalizing s with
  | done result => exact ⟨rfl, rfl⟩
  | exec c next ih =>
      have hanswer : (h.exec c s).1 = .exited 0 := hok _ List.mem_cons_self
      have hrest := fun y hy => hok y (List.mem_cons_of_mem _ hy)
      simp only [run, hanswer] at hrest ⊢
      obtain ⟨hcommands, hresult⟩ := ih (.exited 0) hrest
      exact ⟨congrArg (c :: ·) hcommands, hresult⟩
  | discard p next ih => exact ih hok
  | note n next ih => exact ih hok
  | write stream text next ih => exact ih hok

theorem run_of_success {h : Host σ} (hok : ∀ c s, (h.exec c s).1 = .exited 0) (x : Script α)
    (s : σ) : ((x.run h s).commands.map Prod.fst = x.course) ∧ (x.run h s).result = x.goal := by
  induction x generalizing s with
  | done result => exact ⟨rfl, rfl⟩
  | exec c next ih =>
      simp only [run, hok]
      obtain ⟨hcommands, hresult⟩ := ih (.exited 0) (h.hear (.ran c (.exited 0)) (h.exec c s).2)
      exact ⟨congrArg (c :: ·) hcommands, hresult⟩
  | discard p next ih => exact ih _
  | note n next ih => exact ih _
  | write stream text next ih => exact ih _

end Script

end Deglobal
