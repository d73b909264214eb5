import Deglobal.Proofs.Script.FailStop
import Deglobal.Proofs.Script.Play

/-! # What a result says of the commands

The commands of a run account for its result if a success means that all of them
have succeeded, and a failure that one of them has failed in just this way. A
script that stops at its first failure is of this kind as soon as it comes to
success without one, and the property passes from parts to the whole.
-/

namespace Deglobal

variable {α β σ : Type}

/-- The commands issued between two moments account for a result: all of them have succeeded if it
is a success, and one of them has failed in that way if it is a failure. -/
def Accounts (result : Except Failure α) (m m' : Moment σ) : Prop :=
  ∃ new, m'.issued = m.issued ++ new ∧ match result with
    | .ok _ => ∀ x ∈ new, x.2 = .exited 0
    | .error e => ∃ x ∈ new, x.2.failure? x.1 = some e

namespace Accounts

variable {m m' m'' : Moment σ}

theorem of_issued (a : α) (hissued : m'.issued = m.issued) :
    Accounts (.ok a : Except Failure α) m m' :=
  ⟨[], by rw [hissued, List.append_nil], fun _ hx => absurd hx List.not_mem_nil⟩

theorem after {a : α} {result : Except Failure β}
    (hfirst : Accounts (.ok a : Except Failure α) m m')
    (hsecond : Accounts result m' m'') : Accounts result m m'' := by
  obtain ⟨new, hissued, hnew⟩ := hfirst
  obtain ⟨new', hissued', hnew'⟩ := hsecond
  refine ⟨new ++ new', by rw [hissued', hissued, List.append_assoc], ?_⟩
  cases result with
  | ok b => exact fun x hx => (List.mem_append.mp hx).elim (hnew x) (hnew' x)
  | error e =>
      obtain ⟨x, hx, hfail⟩ := hnew'
      exact ⟨x, List.mem_append_right new hx, hfail⟩

theorem before {e : Failure} {new : List (Command × Outcome)}
    (hfirst : Accounts (.error e : Except Failure α) m m')
    (hissued : m''.issued = m'.issued ++ new) :
    Accounts (.error e : Except Failure α) m m'' := by
  obtain ⟨begun, hbegun, x, hx, hfail⟩ := hfirst
  refine ⟨begun ++ new, by rw [hissued, hbegun, List.append_assoc], x, ?_, hfail⟩
  exact List.mem_append_left new hx

end Accounts

namespace Script

/-- Wherever a script is taken up, its commands account for its result. -/
def Accountable (h : Host σ) (x : Script α) : Prop :=
  ∀ m, Accounts (x.play h m).1 m (x.play h m).2

variable {h : Host σ}

theorem Accountable.of_play {x : Script α} (hx : x.Accountable h) {m m' : Moment σ}
    {result : Except Failure α} (hplay : x.play h m = (result, m')) : Accounts result m m' := by
  have haccounts := hx m
  rwa [hplay] at haccounts

theorem Accountable.bind {x : Script α} {f : α → Script β} (hx : x.Accountable h)
    (hf : ∀ a, (f a).Accountable h) : (x.bind f).Accountable h := by
  intro m
  rcases hplay : x.play h m with ⟨result, m₁⟩
  have hfirst := hx.of_play hplay
  cases result with
  | ok a =>
      rw [play_bind_of_ok hplay]
      exact hfirst.after (hf a m₁)
  | error e =>
      rw [play_bind_of_error hplay]
      exact hfirst

/-- A script that stops at its first failure accounts for its result if it comes to success where
there is none. -/
theorem FailStop.accountable {x : Script α} (hx : x.FailStop) {a : α} (hgoal : x.goal = .ok a) :
    x.Accountable h := by
  intro m
  refine ⟨(x.run h m.now).commands, rfl, ?_⟩
  rcases hx.run h m.now with ⟨hcommands, hresult⟩ | ⟨before, c, o, e, hcommands, _, hfail, hresult⟩
  · have hok : (x.play h m).1 = .ok a := hresult.trans hgoal
    rw [hok, hcommands]
    intro y hy
    obtain ⟨c, _, rfl⟩ := List.mem_map.mp hy
    rfl
  · have herror : (x.play h m).1 = .error e := hresult
    rw [herror, hcommands]
    exact ⟨(c, o), List.mem_append_right _ List.mem_cons_self, hfail⟩

theorem Accountable.run {x : Script α} (hx : x.Accountable h) (s : σ) :
    match (x.run h s).result with
    | .ok _ => ∀ y ∈ (x.run h s).commands, y.2 = .exited 0
    | .error e => ∃ y ∈ (x.run h s).commands, y.2.failure? y.1 = some e := by
  obtain ⟨new, hissued, hnew⟩ := hx ⟨[], s⟩
  have hcommands : (x.run h s).commands = new := hissued
  rw [hcommands]
  exact hnew

end Script

end Deglobal
