import Deglobal.Script

/-! # What a script ensures

Two ways of reasoning about a script from its parts. `Always` speaks of the
script alone: what it may issue and discard, and what it may come to, whatever it
is answered. `Ensures` speaks of its run against one host: what holds whenever a
command is issued and at the end. `Always.ensures` and `Ensures.run` lead from
the first to the second and from there to the events of a run.
-/

namespace Deglobal

/-- Where a run stands: the commands it has issued so far, and the state of its host. -/
structure Moment (σ : Type) where
  issued : List (Command × Outcome)
  now : σ

namespace Moment

variable {σ : Type}

def ran (h : Host σ) (c : Command) (m : Moment σ) : Moment σ where
  issued := m.issued ++ [(c, (h.exec c m.now).1)]
  now := h.hear (.ran c (h.exec c m.now).1) (h.exec c m.now).2

def discarded (h : Host σ) (p : Path) (m : Moment σ) : Moment σ :=
  { m with now := h.hear (.discarded p (h.unlink p m.now).1) (h.unlink p m.now).2 }

def heard (h : Host σ) (e : Event) (m : Moment σ) : Moment σ := { m with now := h.hear e m.now }

def Issued (P : Command → Prop) (m m' : Moment σ) : Prop :=
  ∃ new, m'.issued = m.issued ++ new ∧ ∀ x ∈ new, P x.1

end Moment

def stateAfter {σ : Type} (s : σ) (events : List (Event × σ)) : σ :=
  (events.map Prod.snd).getLast?.getD s

theorem stateAfter_cons {σ : Type} (s s' : σ) (e : Event) (events : List (Event × σ)) :
    stateAfter s ((e, s') :: events) = stateAfter s' events := by
  unfold stateAfter
  rw [List.map_cons, List.getLast?_cons, Option.getD_some]

/-- Every command among events that began in state `s` was issued in a state that `each` allows. -/
def EachIssued {σ : Type} (each : Command → σ → Prop) (s : σ) (events : List (Event × σ)) : Prop :=
  ∀ before c o s' after, events = before ++ (.ran c o, s') :: after → each c (stateAfter s before)

theorem eachIssued_nil {σ : Type} {each : Command → σ → Prop} {s : σ} : EachIssued each s [] := by
  intro before c o s' after h
  simp at h

theorem EachIssued.cons {σ : Type} {each : Command → σ → Prop} {s s' : σ} {e : Event}
    {events : List (Event × σ)} (hrest : EachIssued each s' events)
    (hhead : ∀ c o, e = .ran c o → each c s) : EachIssued each s ((e, s') :: events) := by
  intro before c o s'' after h
  cases before with
  | nil =>
      cases h
      exact hhead c o rfl
  | cons first before =>
      injection h with hfirst h
      subst hfirst
      rw [stateAfter_cons]
      exact hrest before c o s'' after h

namespace Script

variable {α β σ : Type}

/-! ## Whatever the answers -/

/-- A script that issues only commands in `P`, discards only files in `Q` and comes to a result in
`R`. -/
def Always (P : Command → Prop) (Q : Path → Prop) (R : Except Failure α → Prop) : Script α → Prop
  | done result => R result
  | exec c next => P c ∧ ∀ o, (next o).Always P Q R
  | discard p next => Q p ∧ next.Always P Q R
  | note _ next => next.Always P Q R
  | write _ _ next => next.Always P Q R

section Always

variable {P P' : Command → Prop} {Q Q' : Path → Prop} {R R' : Except Failure α → Prop}

theorem Always.mono {x : Script α} (hx : x.Always P Q R) (hP : ∀ c, P c → P' c)
    (hQ : ∀ p, Q p → Q' p) (hR : ∀ result, R result → R' result) : x.Always P' Q' R' := by
  induction x with
  | done result => exact hR result hx
  | exec c next ih => exact ⟨hP c hx.1, fun o => ih o (hx.2 o)⟩
  | discard p next ih => exact ⟨hQ p hx.1, ih hx.2⟩
  | note n next ih => exact ih hx
  | write stream text next ih => exact ih hx

theorem Always.bind {x : Script α} {f : α → Script β} {S : Except Failure β → Prop}
    (hx : x.Always P Q R) (hok : ∀ a, R (.ok a) → (f a).Always P Q S)
    (herr : ∀ e, R (.error e) → S (.error e)) : (x.bind f).Always P Q S := by
  induction x with
  | done result =>
      cases result with
      | ok a => exact hok a hx
      | error e => exact herr e hx
  | exec c next ih => exact ⟨hx.1, fun o => ih o (hx.2 o)⟩
  | discard p next ih => exact ⟨hx.1, ih hx.2⟩
  | note n next ih => exact ih hx
  | write stream text next ih => exact ih hx

theorem Always.attempt_bind {x : Script α} {f : Except Failure α → Script β}
    {S : Except Failure β → Prop} (hx : x.Always P Q R)
    (hf : ∀ result, R result → (f result).Always P Q S) : (x.attempt.bind f).Always P Q S := by
  induction x with
  | done result => exact hf result hx
  | exec c next ih => exact ⟨hx.1, fun o => ih o (hx.2 o)⟩
  | discard p next ih => exact ⟨hx.1, ih hx.2⟩
  | note n next ih => exact ih hx
  | write stream text next ih => exact ih hx

theorem always_check {c : Command} (hc : P c) : (check c).Always P Q fun _ => True := by
  unfold check
  split
  · trivial
  · refine ⟨hc, fun o => ?_⟩
    cases o <;> trivial

theorem always_discardAll {files : List Path} (hfiles : ∀ p ∈ files, Q p) :
    (discardAll files).Always P Q (· = .ok ()) := by
  induction files with
  | nil => rfl
  | cons p rest ih =>
      refine ⟨hfiles p List.mem_cons_self, ih fun q hq => ?_⟩
      exact hfiles q (List.mem_cons_of_mem p hq)

end Always

/-! ## Against a host -/

/-- Whenever a script issues a command from moment `m` on, `each` holds of it and of the state it is
issued in, and where it ends, `post` holds of its result. -/
def Ensures (h : Host σ) (each : Command → σ → Prop) (post : Except Failure α → Moment σ → Prop) :
    Script α → Moment σ → Prop
  | done result, m => post result m
  | exec c next, m =>
      each c m.now ∧ (next (h.exec c m.now).1).Ensures h each post (m.ran h c)
  | discard p next, m => next.Ensures h each post (m.discarded h p)
  | note n next, m => next.Ensures h each post (m.heard h (.noted n))
  | write stream text next, m => next.Ensures h each post (m.heard h (.wrote stream text))

section Ensures

variable {h : Host σ} {each : Command → σ → Prop} {m : Moment σ}
  {post post' : Except Failure α → Moment σ → Prop}

theorem Ensures.mono {x : Script α} (hx : x.Ensures h each post m)
    (hpost : ∀ result m', post result m' → post' result m') : x.Ensures h each post' m := by
  induction x generalizing m with
  | done result => exact hpost result m hx
  | exec c next ih => exact ⟨hx.1, ih _ hx.2⟩
  | discard p next ih => exact ih hx
  | note n next ih => exact ih hx
  | write stream text next ih => exact ih hx

theorem Ensures.and {each' : Command → σ → Prop} {x : Script α} (hx : x.Ensures h each post m)
    (hx' : x.Ensures h each' post' m) :
    x.Ensures h each (fun result m' => post result m' ∧ post' result m') m := by
  induction x generalizing m with
  | done result => exact ⟨hx, hx'⟩
  | exec c next ih => exact ⟨hx.1, ih _ hx.2 hx'.2⟩
  | discard p next ih => exact ih hx hx'
  | note n next ih => exact ih hx hx'
  | write stream text next ih => exact ih hx hx'

theorem Ensures.bind {x : Script α} {f : α → Script β} {S : Except Failure β → Moment σ → Prop}
    (hx : x.Ensures h each post m) (hok : ∀ a m', post (.ok a) m' → (f a).Ensures h each S m')
    (herr : ∀ e m', post (.error e) m' → S (.error e) m') : (x.bind f).Ensures h each S m := by
  induction x generalizing m with
  | done result =>
      cases result with
      | ok a => exact hok a m hx
      | error e => exact herr e m hx
  | exec c next ih => exact ⟨hx.1, ih _ hx.2⟩
  | discard p next ih => exact ih hx
  | note n next ih => exact ih hx
  | write stream text next ih => exact ih hx

theorem Ensures.bind_of_ok {x : Script α} {f : α → Script β} {a : α} {Q : Moment σ → Prop}
    {S : Except Failure β → Moment σ → Prop}
    (hx : x.Ensures h each (fun result m' => result = .ok a ∧ Q m') m)
    (hf : ∀ m', Q m' → (f a).Ensures h each S m') : (x.bind f).Ensures h each S m := by
  refine hx.bind (fun b m' hend => ?_) (fun e m' hend => by cases hend.1)
  obtain ⟨hresult, hQ⟩ := hend
  cases hresult
  exact hf m' hQ

theorem Ensures.attempt_bind {x : Script α} {f : Except Failure α → Script β}
    {S : Except Failure β → Moment σ → Prop} (hx : x.Ensures h each post m)
    (hf : ∀ result m', post result m' → (f result).Ensures h each S m') :
    (x.attempt.bind f).Ensures h each S m := by
  induction x generalizing m with
  | done result => exact hf result m hx
  | exec c next ih => exact ⟨hx.1, ih _ hx.2⟩
  | discard p next ih => exact ih hx
  | note n next ih => exact ih hx
  | write stream text next ih => exact ih hx

theorem ensures_say_bind {n : Notice} {f : Unit → Script β} {S : Except Failure β → Moment σ → Prop}
    (hf : (f ()).Ensures h each S (m.heard h (.noted n))) :
    ((say n).bind f).Ensures h each S m := hf

/-- A relation that every step of a script keeps relates the moments it begins and ends at. -/
theorem Always.ensures {P : Command → Prop} {Q : Path → Prop} {R : Except Failure α → Prop}
    {Rel : Moment σ → Moment σ → Prop} (heach : ∀ c s, P c → each c s) (hrefl : ∀ m, Rel m m)
    (htrans : ∀ m₁ m₂ m₃, Rel m₁ m₂ → Rel m₂ m₃ → Rel m₁ m₃)
    (hran : ∀ c m, P c → Rel m (m.ran h c))
    (hdiscarded : ∀ p m, Q p → Rel m (m.discarded h p))
    (hheard : ∀ e m, Rel m (m.heard h e)) {x : Script α} (hx : x.Always P Q R) (m : Moment σ) :
    x.Ensures h each (fun result m' => R result ∧ Rel m m') m := by
  induction x generalizing m with
  | done result => exact ⟨hx, hrefl m⟩
  | exec c next ih =>
      refine ⟨heach c _ hx.1, (ih _ (hx.2 _) (m.ran h c)).mono fun _ _ hend => ⟨hend.1, ?_⟩⟩
      exact htrans _ _ _ (hran c m hx.1) hend.2
  | discard p next ih =>
      refine (ih hx.2 (m.discarded h p)).mono fun _ _ hend => ⟨hend.1, ?_⟩
      exact htrans _ _ _ (hdiscarded p m hx.1) hend.2
  | note n next ih =>
      refine (ih hx (m.heard h (.noted n))).mono fun _ _ hend => ⟨hend.1, ?_⟩
      exact htrans _ _ _ (hheard (.noted n) m) hend.2
  | write stream text next ih =>
      refine (ih hx (m.heard h (.wrote stream text))).mono fun _ _ hend => ⟨hend.1, ?_⟩
      exact htrans _ _ _ (hheard (.wrote stream text) m) hend.2

theorem Always.issues {P : Command → Prop} {Q : Path → Prop} {R : Except Failure α → Prop}
    {x : Script α} (hx : x.Always P Q R) (m : Moment σ) :
    x.Ensures h (fun _ _ => True) (fun result m' => R result ∧ Moment.Issued P m m') m := by
  have hnone : ∀ {m m' : Moment σ}, m'.issued = m.issued → Moment.Issued P m m' := fun heq =>
    ⟨[], by rw [heq, List.append_nil], fun _ hx => absurd hx List.not_mem_nil⟩
  refine hx.ensures (fun _ _ _ => trivial) (fun m => hnone rfl) ?_ (fun c m hc => ?_)
    (fun _ _ _ => hnone rfl) (fun _ _ => hnone rfl) m
  · rintro m₁ m₂ m₃ ⟨new, heq, hnew⟩ ⟨new', heq', hnew'⟩
    refine ⟨new ++ new', by rw [heq', heq, List.append_assoc], fun x hx => ?_⟩
    exact (List.mem_append.mp hx).elim (hnew x) (hnew' x)
  · refine ⟨[(c, (h.exec c m.now).1)], rfl, fun x hx => ?_⟩
    rw [List.mem_singleton.mp hx]
    exact hc

theorem Ensures.run {x : Script α} (hx : x.Ensures h each post m) :
    post (x.run h m.now).result ⟨m.issued ++ (x.run h m.now).commands, (x.run h m.now).final⟩ ∧
      EachIssued each m.now (x.run h m.now).events := by
  induction x generalizing m with
  | done result =>
      refine ⟨?_, eachIssued_nil⟩
      rw [show (Script.run h (done result) m.now).commands = [] from rfl, List.append_nil]
      exact hx
  | exec c next ih =>
      obtain ⟨hpost, hrest⟩ := ih _ hx.2
      refine ⟨?_, hrest.cons fun c' o heq => ?_⟩
      · rw [Moment.ran, List.append_assoc, List.singleton_append] at hpost
        exact hpost
      · cases heq
        exact hx.1
  | discard p next ih =>
      obtain ⟨hpost, hrest⟩ := ih hx
      exact ⟨hpost, hrest.cons fun c' o heq => by cases heq⟩
  | note n next ih =>
      obtain ⟨hpost, hrest⟩ := ih hx
      exact ⟨hpost, hrest.cons fun c' o heq => by cases heq⟩
  | write stream text next ih =>
      obtain ⟨hpost, hrest⟩ := ih hx
      exact ⟨hpost, hrest.cons fun c' o heq => by cases heq⟩

end Ensures

end Script

end Deglobal
