import Deglobal.Proofs.Script.Ensures
import Deglobal.Proofs.Script.FailStop

/-! # What a script removes, and when

Which files a run discards is read off the script's text. When it discards them
is a matter of what happened before: `Timely` says of a script that, whatever it
is answered, no file is discarded before the events that have to precede it.
-/

namespace Deglobal

/-- Every removal among events came when `each` held of the file and of all that had happened, those
events in `past` included. -/
def EachDiscarded {σ : Type} (each : List Event → Path → Prop) (past : List Event)
    (events : List (Event × σ)) : Prop :=
  ∀ before p removal s after, events = before ++ (.discarded p removal, s) :: after →
    each (past ++ before.map Prod.fst) p

theorem eachDiscarded_nil {σ : Type} {each : List Event → Path → Prop} {past : List Event} :
    EachDiscarded each past ([] : List (Event × σ)) := by
  intro before p removal s after h
  simp at h

theorem EachDiscarded.cons {σ : Type} {each : List Event → Path → Prop} {past : List Event}
    {e : Event} {s : σ} {events : List (Event × σ)}
    (hrest : EachDiscarded each (past ++ [e]) events)
    (hhead : ∀ p removal, e = .discarded p removal → each past p) :
    EachDiscarded each past ((e, s) :: events) := by
  intro before p removal s' after h
  cases before with
  | nil =>
      cases h
      rw [List.map_nil, List.append_nil]
      exact hhead p removal rfl
  | cons first before =>
      injection h with hfirst h
      subst hfirst
      have hlater := hrest before p removal s' after h
      rwa [List.append_assoc] at hlater

namespace Script

variable {α β σ : Type}

/-! ## Which files -/

theorem Always.discards {P : Command → Prop} {Q : Path → Prop} {R : Except Failure α → Prop}
    {x : Script α} (hx : x.Always P Q R) (h : Host σ) (s : σ) :
    ∀ p ∈ (x.run h s).discards, Q p := by
  induction x generalizing s with
  | done result => exact fun _ hp => absurd hp List.not_mem_nil
  | exec c next ih => exact ih _ (hx.2 _) _
  | discard q next ih =>
      intro p hp
      rcases List.mem_cons.mp hp with rfl | hp
      · exact hx.1
      · exact ih hx.2 _ p hp
  | note n next ih => exact ih hx _
  | write stream text next ih => exact ih hx _

theorem Always.discards_eq_nil {P : Command → Prop} {R : Except Failure α → Prop} {x : Script α}
    (hx : x.Always P (fun _ => False) R) (h : Host σ) (s : σ) : (x.run h s).discards = [] :=
  List.eq_nil_iff_forall_not_mem.mpr (hx.discards h s)

theorem mem_discards_bind {h : Host σ} {x : Script α} {f : α → Script β} {s : σ} {p : Path}
    (hp : p ∈ ((x.bind f).run h s).discards) : p ∈ (x.run h s).discards ∨
      ∃ a s', (x.run h s).result = .ok a ∧ p ∈ ((f a).run h s').discards := by
  induction x generalizing s with
  | done result =>
      cases result with
      | ok a => exact Or.inr ⟨a, s, rfl, hp⟩
      | error e => exact Or.inl hp
  | exec c next ih => exact ih _ hp
  | discard q next ih =>
      rcases List.mem_cons.mp hp with rfl | hp
      · exact Or.inl List.mem_cons_self
      · exact (ih hp).imp (List.mem_cons_of_mem q) id
  | note n next ih => exact ih hp
  | write stream text next ih => exact ih hp

/-! ## At what time -/

/-- Whatever the answers, a script that is taken up after the events in `past` discards a file only
when `each` holds of all events up to then, and where it ends, `post` holds of its result and of all
events. -/
def Timely (each : List Event → Path → Prop) (post : Except Failure α → List Event → Prop) :
    Script α → List Event → Prop
  | done result, past => post result past
  | exec c next, past => ∀ o, (next o).Timely each post (past ++ [.ran c o])
  | discard p next, past =>
      each past p ∧ ∀ removal, next.Timely each post (past ++ [.discarded p removal])
  | note n next, past => next.Timely each post (past ++ [.noted n])
  | write stream text next, past => next.Timely each post (past ++ [.wrote stream text])

section Timely

variable {each : List Event → Path → Prop} {past : List Event}
  {post : Except Failure α → List Event → Prop}

theorem Timely.bind {x : Script α} {f : α → Script β} {S : Except Failure β → List Event → Prop}
    (hx : x.Timely each post past) (hok : ∀ a past', post (.ok a) past' → (f a).Timely each S past')
    (herr : ∀ e past', post (.error e) past' → S (.error e) past') :
    (x.bind f).Timely each S past := by
  induction x generalizing past with
  | done result =>
      cases result with
      | ok a => exact hok a past hx
      | error e => exact herr e past hx
  | exec c next ih => exact fun o => ih o (hx o)
  | discard p next ih => exact ⟨hx.1, fun removal => ih (hx.2 removal)⟩
  | note n next ih => exact ih hx
  | write stream text next ih => exact ih hx

theorem Timely.attempt_bind {x : Script α} {f : Except Failure α → Script β}
    {S : Except Failure β → List Event → Prop} (hx : x.Timely each post past)
    (hf : ∀ result past', post result past' → (f result).Timely each S past') :
    (x.attempt.bind f).Timely each S past := by
  induction x generalizing past with
  | done result => exact hf result past hx
  | exec c next ih => exact fun o => ih o (hx o)
  | discard p next ih => exact ⟨hx.1, fun removal => ih (hx.2 removal)⟩
  | note n next ih => exact ih hx
  | write stream text next ih => exact ih hx

theorem Timely.and {P : Command → Prop} {Q : Path → Prop} {R : Except Failure α → Prop}
    {x : Script α} (hx : x.Timely each post past) (hx' : x.Always P Q R) :
    x.Timely each (fun result past' => post result past' ∧ R result) past := by
  induction x generalizing past with
  | done result => exact ⟨hx, hx'⟩
  | exec c next ih => exact fun o => ih o (hx o) (hx'.2 o)
  | discard p next ih => exact ⟨hx.1, fun removal => ih (hx.2 removal) hx'.2⟩
  | note n next ih => exact ih hx hx'
  | write stream text next ih => exact ih hx hx'

theorem Always.timely {P : Command → Prop} {R : Except Failure α → Prop} {x : Script α}
    (hx : x.Always P (fun _ => False) R) (hpost : ∀ result past', R result → post result past') :
    x.Timely each post past := by
  induction x generalizing past with
  | done result => exact hpost result past hx
  | exec c next ih => exact fun o => ih o (hx.2 o)
  | discard p next ih => exact hx.1.elim
  | note n next ih => exact ih hx
  | write stream text next ih => exact ih hx

theorem timely_check (c : Command) : (check c).Timely each (fun result past' =>
    result = .ok () → c.isEmpty = true ∨ .ran c (.exited 0) ∈ past') past := by
  cases hempty : c.isEmpty with
  | true =>
      rw [check_of_empty hempty]
      exact fun _ => Or.inl rfl
  | false =>
      rw [check_of_program hempty]
      intro o hok
      rw [Outcome.result_eq_ok.mp hok]
      exact Or.inr (List.mem_append_right past List.mem_cons_self)

/-- Files are discarded in time if they all are at the start and nothing that happens later undoes
that. -/
theorem timely_discardAll (hkeep : ∀ past e p, each past p → each (past ++ [e]) p)
    {files : List Path} (hfiles : ∀ p ∈ files, each past p) :
    (discardAll files).Timely each (fun _ _ => True) past := by
  induction files generalizing past with
  | nil => trivial
  | cons p rest ih =>
      refine ⟨hfiles p List.mem_cons_self, fun removal => ih fun q hq => ?_⟩
      exact hkeep past _ q (hfiles q (List.mem_cons_of_mem p hq))

theorem Timely.run {x : Script α} (hx : x.Timely each post past) (h : Host σ) (s : σ) :
    EachDiscarded each past (x.run h s).events := by
  induction x generalizing past s with
  | done result => exact eachDiscarded_nil
  | exec c next ih => exact (ih _ (hx _) _).cons fun p removal heq => by cases heq
  | discard q next ih =>
      refine (ih (hx.2 _) _).cons fun p removal heq => ?_
      cases heq
      exact hx.1
  | note n next ih => exact (ih hx _).cons fun p removal heq => by cases heq
  | write stream text next ih => exact (ih hx _).cons fun p removal heq => by cases heq

end Timely

end Script

end Deglobal
