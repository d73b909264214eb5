import Deglobal.Failure
import Deglobal.Notice

/-!
# Scripts

What a driver does to the world outside it, as data: run a command, discard a
file, note something in the log, write to a stream. A script is run against a
host, which answers commands and removals and keeps a state of its own. A run
returns its whole list of events, each with the state the host was in after it,
so that what happened, in which order, and what could be seen meanwhile are all
statements about one value.
-/

namespace Deglobal

/-- How a command ended, with the status it is taken to have returned. -/
inductive Outcome where
  | exited (status : Int32)
  | notLaunched (error : OsError)
  deriving DecidableEq, Inhabited

/-- How a process ended, before a status is made of it. -/
inductive Ending where
  | exited (status : Nat)
  | killed (signal : Nat)
  deriving DecidableEq, Inhabited

/-- The status a process is reported with: a signal counts from 128 on. -/
def Ending.status : Ending → Nat
  | exited status => status
  | killed signal => 128 + signal

def Ending.outcome (e : Ending) : Outcome := .exited (Int32.ofNat e.status)

inductive Removal where
  | removed
  | absent
  | refused (error : OsError)
  deriving DecidableEq, Inhabited

inductive Stream where
  | out
  | err
  deriving DecidableEq, Inhabited

inductive Event where
  | ran (c : Command) (outcome : Outcome)
  | discarded (p : Path) (removal : Removal)
  | noted (n : Notice)
  | wrote (stream : Stream) (text : String)
  deriving DecidableEq, Inhabited

/-- What an event has to say in the log. A file that was absent is not worth a line. -/
def Event.notice? : Event → Option Notice
  | noted n => some n
  | discarded p .removed => some (.removed p)
  | discarded p (.refused error) => some (.notRemoved p error)
  | discarded _ .absent => none
  | ran _ _ => none
  | wrote _ _ => none

/-- Steps to be taken outside the driver, ending in a result or a failure. -/
inductive Script (α : Type) where
  | done (result : Except Failure α)
  | exec (c : Command) (next : Outcome → Script α)
  | discard (p : Path) (next : Script α)
  | note (n : Notice) (next : Script α)
  | write (stream : Stream) (text : String) (next : Script α)

namespace Script

variable {α β σ : Type}

/-- Go on with the result of a script; a failure ends it. -/
def bind : Script α → (α → Script β) → Script β
  | done (.ok a), f => f a
  | done (.error e), _ => done (.error e)
  | exec c next, f => exec c fun o => (next o).bind f
  | discard p next, f => discard p (next.bind f)
  | note n next, f => note n (next.bind f)
  | write stream text next, f => write stream text (next.bind f)

instance : Monad Script where
  pure a := done (.ok a)
  bind := bind

def fail (e : Failure) : Script α := done (.error e)

/-- A script whose failure is part of its result. -/
def attempt : Script α → Script (Except Failure α)
  | done result => done (.ok result)
  | exec c next => exec c fun o => (next o).attempt
  | discard p next => discard p next.attempt
  | note n next => note n next.attempt
  | write stream text next => write stream text next.attempt

def status (c : Command) : Script Int32 :=
  exec c fun
    | .exited status => done (.ok status)
    | .notLaunched error => done (.error (.launch c.program error))

/-- Run a command that has to succeed; without a program there is nothing to do. -/
def check (c : Command) : Script Unit :=
  if c.isEmpty then done (.ok ())
  else exec c fun
    | .exited status =>
        done (if status = 0 then .ok () else .error (.tool c.program status))
    | .notLaunched error => done (.error (.launch c.program error))

def discardAll : List Path → Script Unit
  | [] => done (.ok ())
  | p :: rest => discard p (discardAll rest)

def say (n : Notice) : Script Unit := note n (done (.ok ()))

def print (stream : Stream) (text : String) : Script Unit := write stream text (done (.ok ()))

end Script

/-- What a script runs against. -/
structure Host (σ : Type) where
  /-- Run a command that has a program, or answer one that has none. -/
  exec : Command → σ → Outcome × σ
  unlink : Path → σ → Removal × σ
  hear : Event → σ → σ := fun _ s => s

/-- A finished run: its result, the state it left and all that happened. -/
structure Run (σ α : Type) where
  result : Except Failure α
  final : σ
  /-- Every event, with the state after it. -/
  events : List (Event × σ)

namespace Run

variable {α σ : Type}

def after (r : Run σ α) (e : Event) (s : σ) : Run σ α := { r with events := (e, s) :: r.events }

def commands (r : Run σ α) : List (Command × Outcome) :=
  r.events.filterMap fun
    | (.ran c o, _) => some (c, o)
    | _ => none

/-- The files a run set out to remove. -/
def discards (r : Run σ α) : List Path :=
  r.events.filterMap fun
    | (.discarded p _, _) => some p
    | _ => none

def written (r : Run σ α) (stream : Stream) : String :=
  String.join (r.events.filterMap fun
    | (.wrote s text, _) => if s = stream then some text else none
    | _ => none)

end Run

/-- Run a script against a host from a state. -/
def Script.run {α σ : Type} (h : Host σ) : Script α → σ → Run σ α
  | done result, s => ⟨result, s, []⟩
  | exec c next, s =>
      let answer := h.exec c s
      let e := Event.ran c answer.1
      let s := h.hear e answer.2
      ((next answer.1).run h s).after e s
  | discard p next, s =>
      let answer := h.unlink p s
      let e := Event.discarded p answer.1
      let s := h.hear e answer.2
      (next.run h s).after e s
  | note n next, s =>
      let s := h.hear (.noted n) s
      (next.run h s).after (.noted n) s
  | write stream text next, s =>
      let s := h.hear (.wrote stream text) s
      (next.run h s).after (.wrote stream text) s

end Deglobal
