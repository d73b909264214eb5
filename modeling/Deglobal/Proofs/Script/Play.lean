import Deglobal.Proofs.Script.Ensures
import Deglobal.Proofs.Script.FailStop

/-! # Where a script leads

Playing a script from a moment gives its result together with the moment it ends
at. A run is a play from its first state, and the play of a composed script is
put together from those of its parts, so that two scripts are compared by
computing where each of them leads.
-/

namespace Deglobal

variable {α β σ : Type}

/-- A host that what is noted in the log has no effect on. -/
def Host.IgnoresLog (h : Host σ) : Prop := ∀ n s, h.hear (.noted n) s = s

namespace Script

/-- The result of a script that is taken up at a moment, and the moment it ends at. -/
def play (h : Host σ) (x : Script α) (m : Moment σ) : Except Failure α × Moment σ :=
  ((x.run h m.now).result, ⟨m.issued ++ (x.run h m.now).commands, (x.run h m.now).final⟩)

theorem run_of_play {h : Host σ} {x : Script α} {s : σ} {result : Except Failure α} {m : Moment σ}
    (hplay : x.play h ⟨[], s⟩ = (result, m)) :
    (x.run h s).result = result ∧ (x.run h s).commands = m.issued ∧ (x.run h s).final = m.now := by
  cases hplay
  exact ⟨rfl, rfl, rfl⟩

/-- What was issued before has no effect on a play. -/
theorem play_eq (h : Host σ) (x : Script α) (m : Moment σ) :
    x.play h m = ((x.play h ⟨[], m.now⟩).1,
      ⟨m.issued ++ (x.play h ⟨[], m.now⟩).2.issued, (x.play h ⟨[], m.now⟩).2.now⟩) := rfl

section Play

variable {h : Host σ} {m : Moment σ}

@[simp] theorem play_done (result : Except Failure α) :
    (done result).play h m = (result, m) := by
  simp [play, run, Run.commands]

@[simp] theorem play_exec (c : Command) (next : Outcome → Script α) :
    (exec c next).play h m = (next (h.exec c m.now).1).play h (m.ran h c) := by
  simp [play, run, Run.commands, Run.after, Moment.ran]

@[simp] theorem play_discard (p : Path) (next : Script α) :
    (discard p next).play h m = next.play h (m.discarded h p) := rfl

@[simp] theorem play_note (n : Notice) (next : Script α) :
    (note n next).play h m = next.play h (m.heard h (.noted n)) := rfl

@[simp] theorem play_write (stream : Stream) (text : String) (next : Script α) :
    (write stream text next).play h m = next.play h (m.heard h (.wrote stream text)) := rfl

theorem play_bind (x : Script α) (f : α → Script β) :
    (x.bind f).play h m = match x.play h m with
      | (.ok a, m') => (f a).play h m'
      | (.error e, m') => (.error e, m') := by
  induction x generalizing m with
  | done result => cases result <;> simp [bind]
  | exec c next ih => simp only [bind, play_exec, ih]
  | discard p next ih => simp only [bind, play_discard, ih]
  | note n next ih => simp only [bind, play_note, ih]
  | write stream text next ih => simp only [bind, play_write, ih]

theorem play_bind_of_ok {x : Script α} {a : α} {m' : Moment σ} (hx : x.play h m = (.ok a, m'))
    (f : α → Script β) : (x.bind f).play h m = (f a).play h m' := by
  rw [play_bind, hx]

theorem play_bind_of_error {x : Script α} {e : Failure} {m' : Moment σ}
    (hx : x.play h m = (.error e, m')) (f : α → Script β) :
    (x.bind f).play h m = (.error e, m') := by
  rw [play_bind, hx]

theorem exists_play_of_bind {x : Script α} {f : α → Script β} {b : β} {m' : Moment σ}
    (hbind : (x.bind f).play h m = (.ok b, m')) :
    ∃ a m₁, x.play h m = (.ok a, m₁) ∧ (f a).play h m₁ = (.ok b, m') := by
  rcases hplay : x.play h m with ⟨result, m₁⟩
  cases result with
  | ok a =>
      rw [play_bind_of_ok hplay] at hbind
      exact ⟨a, m₁, rfl, hbind⟩
  | error e =>
      rw [play_bind_of_error hplay] at hbind
      cases hbind

theorem play_of_bind_done {x : Script α} {g : α → β} {e : Failure} {m' : Moment σ}
    (hx : (x.bind fun a => done (.ok (g a))).play h m = (.error e, m')) :
    x.play h m = (.error e, m') := by
  rcases hplay : x.play h m with ⟨result, m₁⟩
  cases result with
  | ok a =>
      rw [play_bind_of_ok hplay, play_done] at hx
      cases hx
  | error e' =>
      rw [play_bind_of_error hplay] at hx
      cases hx
      rfl

theorem play_attempt (x : Script α) :
    x.attempt.play h m = (.ok (x.play h m).1, (x.play h m).2) := by
  induction x generalizing m with
  | done result => simp [attempt]
  | exec c next ih => simp only [attempt, play_exec, ih]
  | discard p next ih => simp only [attempt, play_discard, ih]
  | note n next ih => simp only [attempt, play_note, ih]
  | write stream text next ih => simp only [attempt, play_write, ih]

theorem play_attempt_bind (x : Script α) (f : Except Failure α → Script β) :
    (x.attempt.bind f).play h m = (f (x.play h m).1).play h (x.play h m).2 :=
  play_bind_of_ok (play_attempt x) f

theorem play_say_of_ignoresLog (hlog : h.IgnoresLog) (n : Notice) :
    (say n).play h m = (.ok (), m) := by
  have hheard : m.heard h (.noted n) = m := by
    unfold Moment.heard
    rw [hlog n m.now]
  rw [say, play_note, hheard, play_done]

theorem Ensures.play {x : Script α} {each : Command → σ → Prop}
    {post : Except Failure α → Moment σ → Prop} (hx : x.Ensures h each post m) :
    post (x.play h m).1 (x.play h m).2 := hx.run.1

theorem Always.commands {P : Command → Prop} {Q : Path → Prop} {R : Except Failure α → Prop}
    {x : Script α} (hx : x.Always P Q R) (h : Host σ) (s : σ) :
    ∀ y ∈ (x.run h s).commands, P y.1 := by
  obtain ⟨⟨_, new, hissued, hnew⟩, _⟩ := (hx.issues (h := h) ⟨[], s⟩).run
  have hcommands : (x.run h s).commands = new := hissued
  rw [hcommands]
  exact hnew

theorem GivesUp.play {e : Failure} {x : Script α} (hx : x.GivesUp e) :
    ∃ m', x.play h m = (.error e, m') ∧ m'.issued = m.issued := by
  obtain ⟨hcommands, hresult⟩ := hx.run h m.now
  refine ⟨(x.play h m).2, ?_, ?_⟩
  · show (_, _) = _
    rw [hresult]
    rfl
  · show m.issued ++ _ = m.issued
    rw [hcommands, List.append_nil]

end Play

end Script

end Deglobal
