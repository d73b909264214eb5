import Deglobal.Proofs.Script.Accounts
import Deglobal.Proofs.Script.Disk

/-! # Commands that write just what they are meant to

The exact law for a run in which nothing fails: a task that succeeds writes all
of its files and leaves everything else alone. What a command does that fails is
left open. A run that meets no failure is the same against a host whose failing
commands do nothing, and that host keeps the laws for all outcomes.
-/

namespace Deglobal

variable {α σ : Type} {disk : σ → Disk} {h : Host σ} {tasks : List Task}

/-! ## The law -/

/-- The files change by removals and by the tasks that succeed, each of which writes all its own
files and no others. -/
structure Precise (disk : σ → Disk) (h : Host σ) (tasks : List Task) : Prop where
  hear : ∀ e s, disk (h.hear e s) = disk s
  unlink : ∀ p s l, disk (h.unlink p s).2 l = disk s l ∨
    l = p.components ∧ disk (h.unlink p s).2 l = none
  exec : ∀ task ∈ tasks, ∀ s, (h.exec task.1 s).1 = .exited 0 →
    ∀ l, disk (h.exec task.1 s).2 l =
      if l ∈ Path.locations task.2 then some (.file (.written task.1 (.exited 0))) else disk s l

theorem precise_onDisk {products : Command → List Path} {answer : Command → Outcome}
    (hproducts : ∀ task ∈ tasks, products task.1 = task.2) :
    Precise (fun d => d) (Host.onDisk products answer) tasks where
  hear := fun _ _ => rfl
  unlink := (orderly_onDisk hproducts).unlink
  exec := by
    intro task htask d hok l
    have hanswer : answer task.1 = .exited 0 := hok
    simp only [Host.onDisk, hproducts task htask, hanswer, if_true]

/-- The host whose commands have no effect when they fail. -/
def Host.sparing (h : Host σ) : Host σ :=
  { h with exec := fun c s =>
      if (h.exec c s).1 = .exited 0 then h.exec c s else ((h.exec c s).1, s) }

theorem Host.sparing_exec_of_ok {c : Command} {s : σ} (hok : (h.exec c s).1 = .exited 0) :
    h.sparing.exec c s = h.exec c s := if_pos hok

theorem Host.sparing_exec_of_failed {c : Command} {s : σ} (hfail : (h.exec c s).1 ≠ .exited 0) :
    h.sparing.exec c s = ((h.exec c s).1, s) := if_neg hfail

theorem Host.sparing_exec_fst (h : Host σ) (c : Command) (s : σ) :
    (h.sparing.exec c s).1 = (h.exec c s).1 := by
  by_cases hok : (h.exec c s).1 = .exited 0
  · rw [sparing_exec_of_ok hok]
  · rw [sparing_exec_of_failed hok]

/-- A run in which every command has succeeded does not tell whether failing commands would have had
an effect. -/
theorem Script.run_sparing {x : Script α} {s : σ}
    (hok : ∀ y ∈ (x.run h s).commands, y.2 = .exited 0) : x.run h.sparing s = x.run h s := by
  induction x generalizing s with
  | done result => rfl
  | exec c next ih =>
      have hanswer : (h.exec c s).1 = .exited 0 := hok _ List.mem_cons_self
      simp only [run, Host.sparing_exec_of_ok hanswer]
      exact congrArg (Run.after · _ _) (ih _ fun y hy => hok y (List.mem_cons_of_mem _ hy))
  | discard p next ih => exact congrArg (Run.after · _ _) (ih hok)
  | note n next ih => exact congrArg (Run.after · _ _) (ih hok)
  | write stream text next ih => exact congrArg (Run.after · _ _) (ih hok)

theorem Precise.orderly (hprecise : Precise disk h tasks) : Orderly disk h.sparing tasks where
  hear := hprecise.hear
  unlink := hprecise.unlink
  exec := by
    intro task htask s l
    by_cases hok : (h.exec task.1 s).1 = .exited 0
    · rw [Host.sparing_exec_of_ok hok, hprecise.exec task htask s hok l, hok]
      split
      · rename_i hl
        exact Or.inr ⟨hl, Or.inr rfl⟩
      · exact Or.inl rfl
    · rw [Host.sparing_exec_of_failed hok]
      exact Or.inl rfl

/-! ## What has been made stays -/

def Made (disk : σ → Disk) (s : σ) (l : Location) : Prop :=
  ∃ c, disk s l = some (.file (.written c (.exited 0)))

/-- From one moment to another, what had been made outside a region has stayed, and so has what
tasks have made that were issued in between. -/
def Accumulates (disk : σ → Disk) (tasks : List Task) (region : List Location)
    (m m' : Moment σ) : Prop :=
  ∃ new, m'.issued = m.issued ++ new ∧ ∀ l, l ∉ region →
    (Made disk m.now l ∨ ∃ task ∈ tasks, l ∈ Path.locations task.2 ∧ (task.1, .exited 0) ∈ new) →
      Made disk m'.now l

namespace Accumulates

variable {region : List Location} {m m' m'' : Moment σ}

theorem of_within (hissued : m'.issued = m.issued) (hw : Within disk region m m') :
    Accumulates disk tasks region m m' := by
  refine ⟨[], by rw [hissued, List.append_nil], fun l hl hmade => ?_⟩
  rcases hmade with ⟨c, hc⟩ | ⟨_, _, _, hnew⟩
  · exact ⟨c, (hw.same l hl).trans hc⟩
  · cases hnew

theorem trans (hfirst : Accumulates disk tasks region m m')
    (hsecond : Accumulates disk tasks region m' m'') :
    Accumulates disk tasks region m m'' := by
  obtain ⟨new, hissued, hnew⟩ := hfirst
  obtain ⟨new', hissued', hnew'⟩ := hsecond
  refine ⟨new ++ new', by rw [hissued', hissued, List.append_assoc], fun l hl hmade => ?_⟩
  rcases hmade with hmade | ⟨task, htask, hl', hran⟩
  · exact hnew' l hl (Or.inl (hnew l hl (Or.inl hmade)))
  · rcases List.mem_append.mp hran with hran | hran
    · exact hnew' l hl (Or.inl (hnew l hl (Or.inr ⟨task, htask, hl', hran⟩)))
    · exact hnew' l hl (Or.inr ⟨task, htask, hl', hran⟩)

end Accumulates

theorem Precise.accumulates_ran (hprecise : Precise disk h tasks) {task : Task}
    (htask : task ∈ tasks) (region : List Location) (m : Moment σ) :
    Accumulates disk tasks region m (m.ran h.sparing task.1) := by
  refine ⟨[(task.1, (h.sparing.exec task.1 m.now).1)], rfl, fun l _ hmade => ?_⟩
  have hheard : disk (m.ran h.sparing task.1).now = disk (h.sparing.exec task.1 m.now).2 :=
    hprecise.hear _ _
  unfold Made
  rw [hheard]
  rcases hmade with ⟨c, hc⟩ | ⟨other, hother, hl, hran⟩
  · by_cases hok : (h.exec task.1 m.now).1 = .exited 0
    · rw [Host.sparing_exec_of_ok hok, hprecise.exec task htask m.now hok l]
      split
      · exact ⟨task.1, rfl⟩
      · exact ⟨c, hc⟩
    · rw [Host.sparing_exec_of_failed hok]
      exact ⟨c, hc⟩
  · -- The law holds of each task, so it does not matter which of them the command belongs to.
    injection List.mem_singleton.mp hran with hcommand houtcome
    rw [← hcommand] at houtcome ⊢
    rw [Host.sparing_exec_fst] at houtcome
    rw [Host.sparing_exec_of_ok houtcome.symm, hprecise.exec other hother m.now houtcome.symm l]
    exact ⟨other.1, if_pos hl⟩

theorem Script.Always.accumulates (hprecise : Precise disk h tasks) {region : List Location}
    {P : Command → Prop} {Q : Path → Prop} {R : Except Failure α → Prop}
    (hP : ∀ c, P c → ∃ files, (c, files) ∈ tasks) (hQ : ∀ p, Q p → p.components ∈ region)
    {x : Script α} (hx : x.Always P Q R) (m : Moment σ) :
    x.Ensures h.sparing (fun _ _ => True)
      (fun result m' => R result ∧ Accumulates disk tasks region m m') m := by
  have horderly := hprecise.orderly
  refine hx.ensures (fun _ _ _ => trivial) (fun m => .of_within rfl (Within.refl m))
    (fun _ _ _ => Accumulates.trans) (fun c m hc => ?_)
    (fun p m hp => .of_within rfl (horderly.within_discarded (hQ p hp) m))
    (fun e m => .of_within rfl (horderly.within_heard e m)) m
  obtain ⟨files, htask⟩ := hP c hc
  exact hprecise.accumulates_ran htask region m

/-- After a script that has succeeded, everything is made that the tasks of its course write, except
for what it may discard. -/
theorem Script.Accountable.made {x : Script α} (haccountable : x.Accountable h.sparing)
    (hprecise : Precise disk h tasks) {region : List Location} {P : Command → Prop}
    {Q : Path → Prop} {R : Except Failure α → Prop} (halways : x.Always P Q R)
    (hP : ∀ c, P c → ∃ files, (c, files) ∈ tasks) (hQ : ∀ p, Q p → p.components ∈ region) {a : α}
    {m m' : Moment σ} (hplay : x.play h.sparing m = (.ok a, m')) {task : Task}
    (htask : task ∈ tasks) (hcourse : task.1 ∈ x.course) {p : Path} (hp : p ∈ task.2)
    (hout : p.components ∉ region) : Made disk m'.now p.components := by
  obtain ⟨_, new, hissued, hmade⟩ := (halways.accumulates hprecise hP hQ m).play
  rw [hplay] at hissued hmade
  obtain ⟨new', hissued', hok⟩ := haccountable.of_play hplay
  cases List.append_cancel_left (hissued.symm.trans hissued')
  have hcommands : (x.run h.sparing m.now).commands = new := by
    have hall : m.issued ++ (x.run h.sparing m.now).commands = m'.issued :=
      congrArg (fun end' => end'.2.issued) hplay
    exact List.append_cancel_left (hall.trans hissued)
  rw [← hcommands] at hok hmade
  rw [← (run_of_succeeded hok).1] at hcourse
  obtain ⟨⟨c, o⟩, hran, hcommand⟩ := List.mem_map.mp hcourse
  refine hmade _ hout (Or.inr ⟨task, htask, Path.mem_locations hp, ?_⟩)
  rw [← hcommand, ← hok _ hran]
  exact hran

end Deglobal
