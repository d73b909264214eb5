import Deglobal.Failure

/-! # Computations that can fail

What a chain of steps comes to, each of which can end it with a failure: it is
right if all of them are, and what is wrong with it is wrong with one of them.
-/

namespace Deglobal

theorem Failure.bind_eq_ok {α β : Type} {x : Except Failure α} {f : α → Except Failure β} {b : β} :
    (x >>= f) = .ok b ↔ ∃ a, x = .ok a ∧ f a = .ok b := by
  cases x <;> simp [bind, Except.bind]

theorem Failure.bind_eq_error {α β : Type} {x : Except Failure α} {f : α → Except Failure β}
    {e : Failure} :
    (x >>= f) = .error e ↔ x = .error e ∨ ∃ a, x = .ok a ∧ f a = .error e := by
  cases x <;> simp [bind, Except.bind]

/-- Whether a failure is none of a command, but of what the driver was given to work with. -/
def Failure.ofSetup : Failure → Bool
  | configuration _ => true
  | tool _ _ => false
  | launch _ _ => false
  | description _ _ => true
  | io _ => true

theorem Failure.exitStatus_of_ofSetup {e : Failure} (he : e.ofSetup = true) :
    e.exitStatus = 1 := by
  cases e with
  | tool => cases he
  | launch => cases he
  | configuration => rfl
  | description => rfl
  | io => rfl

def SetupOnly {α : Type} (x : Except Failure α) : Prop := ∀ e, x = .error e → e.ofSetup = true

namespace SetupOnly

variable {α β : Type}

theorem ok (a : α) : SetupOnly (.ok a) := fun _ heq => by cases heq

theorem error {e : Failure} (he : e.ofSetup = true) : SetupOnly (.error e : Except Failure α) :=
  fun _ heq => by
    cases heq
    exact he

theorem bind {x : Except Failure α} {f : α → Except Failure β} (hx : SetupOnly x)
    (hf : ∀ a, SetupOnly (f a)) : SetupOnly (x >>= f) := by
  cases x with
  | ok a => exact hf a
  | error e => exact error (hx e rfl)

end SetupOnly

end Deglobal
