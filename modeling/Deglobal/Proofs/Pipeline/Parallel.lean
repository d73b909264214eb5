import Deglobal.Proofs.Pipeline.FailStop
import Deglobal.Proofs.Pipeline.Leftovers
import Deglobal.Proofs.Script.Play

/-! # Sources in parallel

Sources that are worked on in parallel are all seen to their end, while one after
the other they stop at the first failure. Both ways are played from the same
moment. As long as no command of a source fails they lead to the same place; from
the first failure on, the parallel one goes on with later sources and reports the
same failure in the end. Either way a front half that fails and cleans up leaves
the files as they were.
-/

namespace Deglobal

variable {σ : Type}

namespace Recipe

def withParallel (k : Recipe) (parallel : Bool) : Recipe :=
  { k with toolchain := { k.toolchain with
      toggles := { k.toolchain.toggles with parallel := parallel } } }

/-! ## What does not depend on the way -/

section WithParallel

variable (k : Recipe) (parallel : Bool)

theorem transformEach_withParallel (toTheEnd : Bool) (artifacts : List Artifact) :
    (k.withParallel parallel).transformEach toTheEnd artifacts =
      k.transformEach toTheEnd artifacts := by
  induction artifacts with
  | nil => rfl
  | cons a rest ih =>
      have hsource : (k.withParallel parallel).transformSource a = k.transformSource a := rfl
      simp only [transformEach_cons, hsource, ih]

theorem assembleEach_withParallel (plan : MergePlan) (made files : List Path) :
    (k.withParallel parallel).assembleEach plan made files = k.assembleEach plan made files := by
  induction files generalizing made with
  | nil => rfl
  | cons file rest ih =>
      have hcommand : (k.withParallel parallel).assemble file (assemblyObject plan file) =
          k.assemble file (assemblyObject plan file) := rfl
      have hclean : (k.withParallel parallel).cleanUp made = k.cleanUp made := rfl
      simp only [assembleEach_cons, hcommand, hclean, ih]

theorem mergeEach_withParallel (artifacts : List Artifact) :
    (k.withParallel parallel).mergeEach artifacts = k.mergeEach artifacts := by
  induction artifacts with
  | nil => rfl
  | cons a rest ih =>
      have hcommand : (k.withParallel parallel).merge a.mergeInputs a.mergedObject =
          k.merge a.mergeInputs a.mergedObject := rfl
      have hclean : ∀ files, (k.withParallel parallel).cleanUp files = k.cleanUp files :=
        fun _ => rfl
      simp only [mergeEach_cons, hcommand, hclean, ih]

theorem backHalf_withParallel (r : Request) (plan : MergePlan) :
    (k.withParallel parallel).backHalf r plan = k.backHalf r plan := by
  have hfinish : (k.withParallel parallel).finish r.artifacts plan =
      k.finish r.artifacts plan := by
    funext assembled
    cases assembled with
    | error e => rfl
    | ok objects =>
        cases plan with
        | perSource => simp only [finish, mergeEach_withParallel]
        | consolidated target => rfl
  rw [backHalf, backHalf, hfinish, assembleEach_withParallel]

theorem pipeline_withParallel {r : Request} {plan : MergePlan} {artifacts : List Artifact}
    (hplan : r.planArtifacts plan = .ok artifacts) :
    (k.withParallel parallel).pipeline r plan =
      ((k.withParallel parallel).transformAll r.artifacts).bind fun _ => k.backHalf r plan := by
  rw [pipeline_eq_backHalf _ hplan, backHalf_withParallel]

end WithParallel

/-! ## The commands of sources -/

def Succeeded (k : Recipe) (artifacts : List Artifact) (issued : List (Command × Outcome)) :
    Prop :=
  ∀ x ∈ issued, x.2 = .exited 0 ∧ ∃ a ∈ artifacts, x.1 ∈ k.frontHalf a

/-- Commands of sources up to the first that failed, with which the sources before `later` end. -/
def BreaksOff (k : Recipe) (artifacts : List Artifact) (e : Failure) (later : List Artifact)
    (issued : List (Command × Outcome)) : Prop :=
  ∃ earlier a before c o, artifacts = earlier ++ a :: later ∧ issued = before ++ [(c, o)] ∧
    k.Succeeded (earlier ++ [a]) before ∧ c ∈ k.frontHalf a ∧ o.failure? c = some e

/-- From `issued` on, one way breaks off at `first`, and another goes on from there to `second`
with later sources only. -/
def Overruns (k : Recipe) (artifacts : List Artifact) (e : Failure)
    (issued first second : List (Command × Outcome)) : Prop :=
  ∃ later new rest, first = issued ++ new ∧ k.BreaksOff artifacts e later new ∧
    second = first ++ rest ∧ ∀ x ∈ rest, ∃ b ∈ later, x.1 ∈ k.frontHalf b

section Commands

variable {k : Recipe} {artifacts : List Artifact} {e : Failure}
  {issued first second new : List (Command × Outcome)}

theorem Succeeded.cons {a : Artifact} {new' : List (Command × Outcome)}
    (hnew : k.Succeeded [a] new) (hnew' : k.Succeeded artifacts new') :
    k.Succeeded (a :: artifacts) (new ++ new') := by
  intro x hx
  rcases List.mem_append.mp hx with hx | hx
  · obtain ⟨hok, b, hb, hc⟩ := hnew x hx
    exact ⟨hok, b, List.mem_cons.mpr (Or.inl (List.mem_singleton.mp hb)), hc⟩
  · obtain ⟨hok, b, hb, hc⟩ := hnew' x hx
    exact ⟨hok, b, List.mem_cons_of_mem a hb, hc⟩

theorem eq_of_failed {before : List (Command × Outcome)} {c c' : Command} {o o' : Outcome}
    (hbefore : k.Succeeded artifacts before) (hmem : (c', o') ∈ before ++ [(c, o)])
    (ho' : o' ≠ .exited 0) : c' = c ∧ o' = o := by
  rcases List.mem_append.mp hmem with hmem | hmem
  · exact absurd (hbefore _ hmem).1 ho'
  · cases List.mem_singleton.mp hmem
    exact ⟨rfl, rfl⟩

theorem Overruns.self (hover : k.Overruns artifacts e issued first second) :
    k.Overruns artifacts e issued first first := by
  obtain ⟨later, new, _, hfirst, hbreak, _⟩ := hover
  exact ⟨later, new, [], hfirst, hbreak, (List.append_nil first).symm,
    fun _ hx => absurd hx List.not_mem_nil⟩

theorem Overruns.cons {a : Artifact} (hnew : k.Succeeded [a] new)
    (hover : k.Overruns artifacts e (issued ++ new) first second) :
    k.Overruns (a :: artifacts) e issued first second := by
  obtain ⟨later, new', rest, hfirst, hbreak, hsecond⟩ := hover
  obtain ⟨earlier, b, before, c, o, rfl, rfl, hbefore, hc, hfail⟩ := hbreak
  have hbreak : k.BreaksOff (a :: (earlier ++ b :: later)) e later (new ++ (before ++ [(c, o)])) :=
    ⟨a :: earlier, b, new ++ before, c, o, rfl, (List.append_assoc _ _ _).symm,
      hnew.cons hbefore, hc, hfail⟩
  exact ⟨later, _, rest, hfirst.trans (List.append_assoc _ _ _), hbreak, hsecond⟩

theorem Overruns.of_source {a : Artifact} {rest : List (Command × Outcome)}
    (hbreak : k.BreaksOff [a] e [] new)
    (hrest : ∀ x ∈ rest, ∃ b ∈ artifacts, x.1 ∈ k.frontHalf b) :
    k.Overruns (a :: artifacts) e issued (issued ++ new) (issued ++ new ++ rest) := by
  obtain ⟨earlier, b, before, c, o, hsplit, hnew, hbefore, hc, hfail⟩ := hbreak
  obtain ⟨rfl, hb⟩ : earlier = [] ∧ b = a := by
    cases earlier with
    | nil => exact ⟨rfl, (List.head_eq_of_cons_eq hsplit).symm⟩
    | cons _ others => cases others <;> cases hsplit
  subst hb
  exact ⟨artifacts, new, rest, rfl, ⟨[], b, before, c, o, rfl, hnew, hbefore, hc, hfail⟩, rfl,
    hrest⟩

end Commands

/-! ## Both ways from the same moment -/

section Both

variable {h : Host σ}

theorem play_transformSource (k : Recipe) (a : Artifact) (h : Host σ) (m : Moment σ) :
    ∃ result m' new, (k.transformSource a).play h m = (result, m') ∧
      m'.issued = m.issued ++ new ∧ (result = .ok () ∧ k.Succeeded [a] new ∨
        ∃ e, result = .error e ∧ k.BreaksOff [a] e [] new) := by
  have halways : (k.transformSource a).Always (· ∈ k.frontHalf a) (fun _ => True)
      fun _ => True := always_transformSource (fun _ h => h) (fun _ _ _ => trivial)
  have hmine := halways.commands h m.now
  refine ⟨_, _, _, rfl, rfl, ?_⟩
  rcases (failStop_transformSource k a).run h m.now with
    ⟨hcommands, hresult⟩ | ⟨before, c, o, e, hcommands, _, hfail, hresult⟩
  · left
    refine ⟨hresult.trans (goal_transformSource k a), fun x hx => ?_⟩
    have hok : x.2 = .exited 0 := by
      rw [hcommands] at hx
      obtain ⟨_, _, rfl⟩ := List.mem_map.mp hx
      rfl
    exact ⟨hok, a, List.mem_singleton_self a, hmine x hx⟩
  · right
    rw [hcommands] at hmine
    have hbefore : k.Succeeded ([] ++ [a]) (before.map (·, .exited 0)) := by
      intro x hx
      have hx_mine := hmine x (List.mem_append_left _ hx)
      obtain ⟨_, _, rfl⟩ := List.mem_map.mp hx
      exact ⟨rfl, a, List.mem_singleton_self a, hx_mine⟩
    have hc : c ∈ k.frontHalf a :=
      hmine (c, o) (List.mem_append_right _ List.mem_cons_self)
    exact ⟨e, hresult, [], a, _, c, o, rfl, hcommands, hbefore, hc, hfail⟩

/-- Sources that all come to their end do so either way; else one way breaks off at the first
failure, and the other goes on with later sources. -/
theorem play_transformEach (k : Recipe) (artifacts : List Artifact) (h : Host σ) (m : Moment σ) :
    (∃ m' new, (∀ toTheEnd, (k.transformEach toTheEnd artifacts).play h m =
        (.ok (artifacts.map (·, .ok ())), m')) ∧
      m'.issued = m.issued ++ new ∧ k.Succeeded artifacts new) ∨
    ∃ e results more m₁ m₂, (k.transformEach false artifacts).play h m = (.ok results, m₁) ∧
      (k.transformEach true artifacts).play h m = (.ok (results ++ more), m₂) ∧
      firstFailure? results = some e ∧ k.Overruns artifacts e m.issued m₁.issued m₂.issued := by
  induction artifacts generalizing m with
  | nil =>
      exact Or.inl ⟨m, [], fun _ => Script.play_done _, (List.append_nil _).symm,
        fun _ hx => absurd hx List.not_mem_nil⟩
  | cons a rest ih =>
      obtain ⟨result, m₁, new, hsource, hissued, hends⟩ := play_transformSource k a h m
      have hstep : ∀ toTheEnd, (k.transformEach toTheEnd (a :: rest)).play h m =
          (if toTheEnd || result.isOk then
            (k.transformEach toTheEnd rest).bind fun others => .done (.ok ((a, result) :: others))
          else .done (.ok [(a, result)])).play h m₁ := by
        intro toTheEnd
        rw [transformEach_cons, Script.play_attempt_bind, hsource]
      rcases hends with ⟨rfl, hnew⟩ | ⟨e, rfl, hbreak⟩
      · have hgo : ∀ {toTheEnd results m'},
            (k.transformEach toTheEnd rest).play h m₁ = (.ok results, m') →
            (k.transformEach toTheEnd (a :: rest)).play h m =
              (.ok ((a, .ok ()) :: results), m') := by
          intro toTheEnd results m' hplay
          have hok : (toTheEnd || (Except.ok () : Except Failure Unit).isOk) = true :=
            Bool.or_true toTheEnd
          rw [hstep, if_pos hok, Script.play_bind_of_ok hplay, Script.play_done]
        rcases ih m₁ with ⟨m₂, new', hplay, hissued', hnew'⟩ |
          ⟨e, results, more, m₂, m₃, hseq, hpar, hfirst, hover⟩
        · left
          refine ⟨m₂, new ++ new', fun toTheEnd => hgo (hplay toTheEnd), ?_, hnew.cons hnew'⟩
          rw [hissued', hissued, List.append_assoc]
        · right
          rw [hissued] at hover
          exact ⟨e, (a, .ok ()) :: results, more, m₂, m₃, hgo hseq, hgo hpar, hfirst,
            hover.cons hnew⟩
      · right
        have halways : (k.transformEach true rest).Always
            (fun c => ∃ b ∈ rest, c ∈ k.frontHalf b) (fun _ => True) fun result =>
              ∃ results, result = .ok results ∧ Covers rest results :=
          always_transformEach true (fun b hb c hc => ⟨b, hb, hc⟩) (fun _ _ _ _ _ => trivial)
        have hend := (halways.issues (h := h) m₁).play
        generalize hplay : (k.transformEach true rest).play h m₁ = ends at hend
        obtain ⟨_, m₂⟩ := ends
        obtain ⟨⟨others, rfl, _⟩, later, hlater, hmine⟩ := hend
        refine ⟨e, [(a, .error e)], others, m₁, m₂, ?_, ?_, rfl, ?_⟩
        · rw [hstep]
          exact Script.play_done _
        · rw [hstep, Bool.true_or, if_pos rfl, Script.play_bind_of_ok hplay, Script.play_done]
          rfl
        · rw [hlater, hissued]
          exact Overruns.of_source hbreak hmine

theorem play_transformAll (k : Recipe) (artifacts : List Artifact) (hlog : h.IgnoresLog)
    (m : Moment σ) :
    (∃ m' new, (∀ parallel, ((k.withParallel parallel).transformAll artifacts).play h m =
        (.ok (), m')) ∧ m'.issued = m.issued ++ new ∧ k.Succeeded artifacts new) ∨
    ∃ e m₁ m₂, ((k.withParallel false).transformAll artifacts).play h m = (.error e, m₁) ∧
      ((k.withParallel true).transformAll artifacts).play h m = (.error e, m₂) ∧
      k.Overruns artifacts e m.issued m₁.issued m₂.issued := by
  have hall : ∀ parallel, ((k.withParallel parallel).transformAll artifacts).play h m =
      ((k.transformEach ((k.withParallel parallel).inParallel artifacts) artifacts).bind
        k.conclude).play h m := by
    intro parallel
    have hannounce : (if (k.withParallel parallel).inParallel artifacts then
        Script.say (.parallel artifacts.length) else .done (.ok ())).play h m = (.ok (), m) := by
      split
      · exact Script.play_say_of_ignoresLog hlog _
      · exact Script.play_done _
    rw [transformAll_eq, Script.play_bind_of_ok hannounce, transformEach_withParallel]
    rfl
  rcases play_transformEach k artifacts h m with ⟨m', new, hplay, hissued, hnew⟩ |
    ⟨e, results, more, m₁, m₂, hseq, hpar, hfirst, hover⟩
  · left
    refine ⟨m', new, fun parallel => ?_, hissued, hnew⟩
    rw [hall, Script.play_bind_of_ok (hplay _), conclude_map_ok, Script.play_done]
  · right
    have hmore : firstFailure? (results ++ more) = some e := by
      unfold firstFailure? at hfirst ⊢
      rw [List.findSome?_append, hfirst]
      rfl
    obtain ⟨m₁', hstop, hissued⟩ := (k.givesUp_conclude hfirst).play (h := h) (m := m₁)
    obtain ⟨m₂', hstop', hissued'⟩ := (k.givesUp_conclude hmore).play (h := h) (m := m₂)
    have hseq' : ((k.withParallel false).transformAll artifacts).play h m = (.error e, m₁') := by
      rw [hall, show (k.withParallel false).inParallel artifacts = false from rfl,
        Script.play_bind_of_ok hseq, hstop]
    cases hway : (k.withParallel true).inParallel artifacts with
    | true =>
        refine ⟨e, m₁', m₂', hseq', ?_, ?_⟩
        · rw [hall, hway, Script.play_bind_of_ok hpar, hstop']
        · rwa [hissued, hissued']
    | false =>
        -- A single source is not worked on in parallel.
        refine ⟨e, m₁', m₁', hseq', ?_, ?_⟩
        · rw [hall, hway, Script.play_bind_of_ok hseq, hstop]
        · rw [hissued]
          exact hover.self

end Both

/-! ## The back half issues none of the sources' commands -/

theorem notMem_frontHalf_of_output {k : Recipe} {r : Request} {c : Command} {p : Path}
    (hending : c.args.reverse.take 2 = [p.text, "-o"])
    (hp : p.components ∉ Path.locations (r.artifacts.flatMap Artifact.intermediates))
    {a : Artifact} (ha : a ∈ r.artifacts) : c ∉ k.frontHalf a := by
  intro hc
  have hmem := ending_mem hc
  have hdot := dot_mem_preprocessed ha
  have hdot' := dot_mem_transformedSource ha
  rw [hending] at hmem
  simp only [endings, List.mem_cons, List.not_mem_nil, or_false, List.cons.injEq, and_true] at hmem
  rcases hmem with heq | ⟨_, heq⟩ | ⟨_, heq⟩ | ⟨_, heq⟩
  · apply hp
    have hsame : p = a.preprocessed := by
      obtain ⟨text⟩ := p
      exact congrArg Path.mk heq
    rw [hsame]
    exact Path.mem_locations (List.mem_flatMap.mpr ⟨a, ha, List.mem_cons_self⟩)
  · rw [← heq] at hdot
    exact absurd hdot (by decide)
  · rw [← heq] at hdot'
    exact absurd hdot' (by decide)
  · exact absurd heq (by decide)

theorem notMem_frontHalf_of_backSteps {k : Recipe} {r : Request} {plan : MergePlan}
    (hr : r.Accepted plan) {st : Step} (hst : st ∈ r.backSteps plan) {a : Artifact}
    (ha : a ∈ r.artifacts) : st.command k r plan ∉ k.frontHalf a := by
  have hmade : Path.locations (r.artifacts.flatMap Artifact.intermediates) ⊆
      Path.locations (r.artifacts.flatMap (Artifact.produced plan)) :=
    Path.locations_subset (Request.flatMap_intermediates_sublist r plan).subset
  rcases List.mem_append.mp hst with hst | hst
  · obtain ⟨file, hfile, rfl⟩ := List.mem_map.mp hst
    refine notMem_frontHalf_of_output (p := assemblyObject plan file) ?_ (fun hmem => ?_) ha
    · simp [Step.command, assemble, Command.output, Command.path, Command.arg]
    · exact hr.cross _ (hmade hmem) (Path.mem_locations (List.mem_map_of_mem hfile))
  · cases plan with
    | perSource =>
        obtain ⟨b, hb, rfl⟩ := List.mem_map.mp hst
        refine notMem_frontHalf_of_output (p := b.mergedObject) ?_ ?_ ha
        · simp [Step.command, merge, Artifact.mergedObject, Command.output, Command.path,
            Command.arg]
        · have hapart : Path.Apart (r.artifacts.flatMap Artifact.intermediates ++
              r.artifacts.flatMap fun b => [b.mergedObject]) := hr.sources.flatMap_append
          exact hapart.notMem_right (List.mem_flatMap.mpr ⟨b, hb, List.mem_cons_self⟩)
    | consolidated target =>
        cases List.mem_singleton.mp hst
        refine notMem_frontHalf_of_output (p := target) ?_ (fun hmem => ?_) ha
        · simp [Step.command, merge, Command.output, Command.path, Command.arg]
        · apply hr.target target rfl
          rw [Path.locations_append]
          exact List.mem_append_left _ (hmade hmem)

theorem notMem_frontHalf_of_backHalf {k : Recipe} {r : Request} {plan : MergePlan}
    (hr : r.Accepted plan) (h : Host σ) (s : σ) {x : Command × Outcome}
    (hx : x ∈ ((k.backHalf r plan).run h s).commands) {a : Artifact} (ha : a ∈ r.artifacts) :
    x.1 ∉ k.frontHalf a := by
  have halways : (k.backHalf r plan).Always (fun c => ∀ a ∈ r.artifacts, c ∉ k.frontHalf a)
      (fun _ => True) fun result => ∀ objects, result = .ok objects →
        objects = r.finalObjects plan :=
    always_backHalf (fun st hst a ha => notMem_frontHalf_of_backSteps hr hst ha)
      (fun _ _ => trivial) (fun _ _ => trivial)
  exact halways.commands h s x hx a ha

/-! ## Files after a front half that fails -/

section Files

variable {disk : σ → Disk} {h : Host σ} {k : Recipe} {r : Request} {plan : MergePlan}
  {steps : List Step} {m : Moment σ} (hdelete : k.deletesTemps = true)
  (hsteps : r.steps plan ⊆ steps) (horderly : Orderly disk h (k.tasks r plan steps))
  (hremoves : Removes disk h)

include hdelete hsteps horderly hremoves

/-- Where there was nothing, sources leave nothing but the objects of those that came to their
end. -/
theorem vacant_transformEach {artifacts : List Artifact} (hsub : artifacts ⊆ r.artifacts)
    (hapart : Path.Apart (artifacts.flatMap Artifact.intermediates))
    (hnone : Gone disk m.now (artifacts.flatMap Artifact.intermediates)) (toTheEnd : Bool) :
    (k.transformEach toTheEnd artifacts).Ensures h (fun _ _ => True) (fun result m' =>
      ∀ results, result = .ok results → ∀ p ∈ artifacts.flatMap Artifact.intermediates,
        p ∉ (completed results).flatMap Artifact.mergeInputs →
          disk m'.now p.components = none) m := by
  induction artifacts generalizing m with
  | nil => exact fun _ _ _ hp => absurd hp List.not_mem_nil
  | cons a rest ih =>
      rw [List.flatMap_cons] at hapart hnone
      have ha : a ∈ r.artifacts := hsub List.mem_cons_self
      have hrest : rest ⊆ r.artifacts := fun b hb => hsub (List.mem_cons_of_mem a hb)
      have hclear : Clear disk m.now a.intermediates := by
        intro p hp hdir
        cases (hnone p (List.mem_append_left _ hp)).symm.trans hdir
      -- What a source leaves besides its two objects if it came to its end is gone.
      have hspent : ∀ {result : Except Failure Unit} {others p}, p ∈ a.intermediates →
          p ∉ (completed ((a, result) :: others)).flatMap Artifact.mergeInputs →
            p ∈ spent a result := by
        intro result others p hp hout
        cases result with
        | error e => exact hp
        | ok _ =>
            rcases List.mem_append.mp hp with hp | hp
            · exact hp
            · exact absurd (List.mem_flatMap.mpr ⟨a, List.mem_cons_self, hp⟩) hout
      rw [transformEach_cons]
      refine ((gone_transformSource hdelete hsteps horderly hremoves ha hclear).and
        (within_transformSource hsteps horderly ha m)).attempt_bind fun result m₁ hend => ?_
      obtain ⟨hgone, hwithin⟩ := hend
      have hnone₁ : Gone disk m₁.now (rest.flatMap Artifact.intermediates) :=
        (hnone.subset (List.subset_append_right _ _)).keep hwithin fun p hp =>
          hapart.notMem_right hp
      split
      · refine ((ih hrest (Path.apart_append.mp hapart).2.1 hnone₁).and
          (within_transformEach hsteps horderly hrest toTheEnd m₁)).bind
          (fun others m₂ hend₂ results heq p hp hout => ?_) (fun _ _ _ _ heq => by cases heq)
        obtain ⟨hothers, _, hwithin₂⟩ := hend₂
        cases heq
        rcases List.mem_append.mp hp with hp | hp
        · exact (hwithin₂.same _ (hapart.notMem hp)).trans (hgone p (hspent hp hout))
        · refine hothers others rfl p hp fun hmem => hout ?_
          obtain ⟨b, hb, hpb⟩ := List.mem_flatMap.mp hmem
          refine List.mem_flatMap.mpr ⟨b, ?_, hpb⟩
          cases result with
          | ok _ => exact List.mem_cons_of_mem a hb
          | error e => exact hb
      · intro results heq p hp hout
        cases heq
        rcases List.mem_append.mp hp with hp | hp
        · exact hgone p (hspent hp hout)
        · exact hnone₁ p hp

theorem vacant_transformAll
    (hapart : Path.Apart (r.artifacts.flatMap Artifact.intermediates))
    (hnone : Gone disk m.now (r.artifacts.flatMap Artifact.intermediates)) :
    (k.transformAll r.artifacts).Ensures h (fun _ _ => True) (fun result m' => ∀ e,
      result = .error e → Gone disk m'.now (r.artifacts.flatMap Artifact.intermediates)) m := by
  rw [transformAll_eq]
  refine (within_announce horderly _ _ m).bind_of_ok fun m₁ hannounced => ?_
  have hnone₁ := hnone.keep hannounced.1 fun _ _ => List.not_mem_nil
  refine ((vacant_transformEach hdelete hsteps horderly hremoves (List.Subset.refl _) hapart
    hnone₁ _).and (within_transformEach hsteps horderly (List.Subset.refl _) _ m₁)).bind
    (fun results m₂ hend => ?_) (fun e _ hend => by obtain ⟨_, ⟨_, heq, _⟩, _⟩ := hend; cases heq)
  obtain ⟨hvacant, ⟨_, heq, hcovers⟩, hwithin⟩ := hend
  cases heq
  unfold conclude
  cases firstFailure? results with
  | none =>
      intro e heq
      cases heq
  | some e =>
      have hclear : Clear disk m₂.now ((completed results).flatMap Artifact.mergeInputs) := by
        intro p hp hdir
        obtain ⟨a, ha, hp⟩ := List.mem_flatMap.mp hp
        have hp : p ∈ r.artifacts.flatMap Artifact.intermediates := List.mem_flatMap.mpr
          ⟨a, hcovers.completed_subset ha, List.mem_append_right a.sourceFiles hp⟩
        cases (hnone₁ p hp).symm.trans (hwithin.directory _ hdir)
      refine (gone_cleanUp hdelete horderly hremoves (List.Subset.refl _) hclear).bind_of_ok
        fun m₃ hclean _ _ p hp => ?_
      obtain ⟨hcleaned, hshrinks⟩ := hclean
      by_cases hmem : p ∈ (completed results).flatMap Artifact.mergeInputs
      · exact hcleaned p hmem
      · exact (hshrinks.gone p.components).elim
          (fun hsame => hsame.trans (hvacant results rfl p hp hmem)) id

theorem restored_transformAll
    (hapart : Path.Apart (r.artifacts.flatMap Artifact.intermediates))
    (hnone : Gone disk m.now (r.artifacts.flatMap Artifact.intermediates)) :
    (k.transformAll r.artifacts).Ensures h (fun _ _ => True) (fun result m' => ∀ e,
      result = .error e → disk m'.now = disk m.now) m := by
  refine ((vacant_transformAll hdelete hsteps horderly hremoves hapart hnone).and
    (within_transformAll hsteps horderly m)).mono fun result m' hend e heq => ?_
  obtain ⟨hgone, hwithin⟩ := hend
  funext l
  by_cases hl : l ∈ Path.locations (r.artifacts.flatMap Artifact.intermediates)
  · obtain ⟨p, hp, rfl⟩ := Path.mem_locations_iff.mp hl
    exact (hgone e heq p hp).trans (hnone p hp).symm
  · exact hwithin.same l hl

theorem restored_of_play (hapart : Path.Apart (r.artifacts.flatMap Artifact.intermediates))
    (hnone : Gone disk m.now (r.artifacts.flatMap Artifact.intermediates)) {e : Failure}
    {m' : Moment σ} (hplay : (k.transformAll r.artifacts).play h m = (.error e, m')) :
    disk m'.now = disk m.now := by
  have hends := (restored_transformAll hdelete hsteps horderly hremoves hapart hnone).play
  rw [hplay] at hends
  exact hends e rfl

end Files

end Recipe

/-- Worked on in parallel or one after the other, sources come to the same objects or to the same
failure, whatever their commands answer. If none of their commands fails, both ways issue the same
commands and leave the host in the same state. Else one after the other they end with the first that
fails, and in parallel only commands of later sources follow it; where intermediate files are
removed, none of them was there before and commands write only their own files, both ways leave the
same files. -/
theorem parallel_agrees_with_sequential (k : Recipe) (r : Request) (plan : MergePlan)
    (h : Host σ) (hlog : h.IgnoresLog) (s : σ) :
    let sequential := ((k.withParallel false).pipeline r plan).run h s
    let parallel := ((k.withParallel true).pipeline r plan).run h s
    parallel.result = sequential.result ∧
    ((∀ x ∈ sequential.commands, (∃ a ∈ r.artifacts, x.1 ∈ k.frontHalf a) → x.2 = .exited 0) →
      parallel.commands = sequential.commands ∧ parallel.final = sequential.final) ∧
    ∀ c o, (c, o) ∈ sequential.commands → (∃ a ∈ r.artifacts, c ∈ k.frontHalf a) →
      o ≠ .exited 0 → ∃ earlier a later before rest, r.artifacts = earlier ++ a :: later ∧
        sequential.commands = before ++ [(c, o)] ∧ c ∈ k.frontHalf a ∧
        (∀ x ∈ before, x.2 = .exited 0 ∧ ∃ b ∈ earlier ++ [a], x.1 ∈ k.frontHalf b) ∧
        sequential.result = .error (o.failure c) ∧
        parallel.commands = sequential.commands ++ rest ∧
        (∀ x ∈ rest, ∃ b ∈ later, x.1 ∈ k.frontHalf b) ∧
        ∀ disk : σ → Disk, k.deletesTemps = true →
          Orderly disk h (k.tasks r plan (r.steps plan)) → Removes disk h →
          (∀ b ∈ r.artifacts, ∀ p ∈ b.intermediates, disk s p.components = none) →
          disk parallel.final = disk sequential.final := by
  intro sequential parallel
  cases hplan : r.planArtifacts plan with
  | error e =>
      have hclash : ∀ way, ((k.withParallel way).pipeline r plan).run h s = ⟨.error e, s, []⟩ := by
        intro way
        rw [Recipe.pipeline_of_clash _ hplan]
        rfl
      simp only [sequential, parallel, hclash]
      exact ⟨trivial, fun _ => ⟨trivial, trivial⟩, fun _ _ hmem => absurd hmem List.not_mem_nil⟩
  | ok artifacts =>
      have hr := Request.accepted_of_planArtifacts hplan
      have hpipeline := fun way => k.pipeline_withParallel way hplan
      rcases Recipe.play_transformAll k r.artifacts hlog ⟨[], s⟩ with
        ⟨m, new, hplay, hissued, hnew⟩ |
          ⟨e, m₁, m₂, hseq, hpar, later, new, rest, hfirst, hbreak, hsecond, hrest⟩
      · have hsame : ∀ way, ((k.withParallel way).pipeline r plan).play h ⟨[], s⟩ =
            (k.backHalf r plan).play h m := by
          intro way
          rw [hpipeline, Script.play_bind_of_ok (hplay way)]
        obtain ⟨hresult, hcommands, hfinal⟩ := Script.run_of_play (hsame false)
        obtain ⟨hresult', hcommands', hfinal'⟩ := Script.run_of_play (hsame true)
        refine ⟨hresult'.trans hresult.symm, fun _ => ⟨hcommands'.trans hcommands.symm,
          hfinal'.trans hfinal.symm⟩, ?_⟩
        rintro c o hmem ⟨a, ha, hc⟩ ho
        have hall : sequential.commands =
            m.issued ++ ((k.backHalf r plan).run h m.now).commands := hcommands
        rw [hall, hissued, List.nil_append] at hmem
        rcases List.mem_append.mp hmem with hmem | hmem
        · exact absurd (hnew _ hmem).1 ho
        · exact absurd hc (Recipe.notMem_frontHalf_of_backHalf hr h m.now hmem ha)
      · obtain ⟨earlier, a, before, c, o, hsplit, rfl, hbefore, hc, hfail⟩ := hbreak
        obtain ⟨ho, rfl⟩ := Outcome.failure?_eq_some.mp hfail
        have hseq_ends : ((k.withParallel false).pipeline r plan).play h ⟨[], s⟩ =
            (.error (o.failure c), m₁) := by
          rw [hpipeline, Script.play_bind_of_error hseq]
        have hpar_ends : ((k.withParallel true).pipeline r plan).play h ⟨[], s⟩ =
            (.error (o.failure c), m₂) := by
          rw [hpipeline, Script.play_bind_of_error hpar]
        obtain ⟨hresult, hissued, hfinal⟩ := Script.run_of_play hseq_ends
        obtain ⟨hresult', hissued', hfinal'⟩ := Script.run_of_play hpar_ends
        have hcommands : sequential.commands = before ++ [(c, o)] := hissued.trans hfirst
        have hmore : parallel.commands = sequential.commands ++ rest :=
          (hissued'.trans hsecond).trans (congrArg (· ++ rest) hissued.symm)
        have ha : a ∈ r.artifacts := by
          rw [hsplit]
          exact List.mem_append_right _ List.mem_cons_self
        refine ⟨hresult'.trans hresult.symm, fun hok => ?_,
          fun c' o' hmem _ ho' => ?_⟩
        · have hmem : (c, o) ∈ sequential.commands := by
            rw [hcommands]
            exact List.mem_append_right _ List.mem_cons_self
          exact absurd (hok _ hmem ⟨a, ha, hc⟩) ho
        · -- The last command is the only one that failed.
          rw [hcommands] at hmem
          obtain ⟨rfl, rfl⟩ := Recipe.eq_of_failed hbefore hmem ho'
          refine ⟨earlier, a, later, before, rest, hsplit, hcommands, hc, hbefore, hresult, hmore,
            hrest, fun disk hdelete horderly hremoves hnone => ?_⟩
          have hgone : Gone disk s (r.artifacts.flatMap Artifact.intermediates) := by
            intro p hp
            obtain ⟨b, hb, hp⟩ := List.mem_flatMap.mp hp
            exact hnone b hb p hp
          have hrestored : disk m₂.now = disk s := Recipe.restored_of_play
            (k := k.withParallel true) hdelete (List.Subset.refl _) horderly hremoves
            hr.intermediates hgone hpar
          have hrestored' : disk m₁.now = disk s := Recipe.restored_of_play
            (k := k.withParallel false) hdelete (List.Subset.refl _) horderly hremoves
            hr.intermediates hgone hseq
          rw [hfinal', hfinal, hrestored, hrestored']

/-- The second source of the sample fails at its last step; in parallel the third is still seen to
its end, and nothing is left of any of them. -/
theorem parallel_agrees_with_sequential_sample :
    let k := Recipe.ofRequest .sample .sample
    let h := Host.onDisk Toolchain.sampleProducts Outcome.breaking
    let sequential := ((k.withParallel false).pipeline .sample .sample).run h Disk.sample
    let parallel := ((k.withParallel true).pipeline .sample .sample).run h Disk.sample
    h.IgnoresLog ∧ k.deletesTemps = true ∧
      Orderly (fun d => d) h (k.tasks .sample .sample (Request.sample.steps .sample)) ∧
      Removes (fun d => d) h ∧
      (∀ a ∈ Request.sample.artifacts, ∀ p ∈ a.intermediates,
        Disk.sample p.components = none) ∧
      sequential.commands.length = 8 ∧ parallel.commands.length = 12 ∧
      parallel.result = sequential.result ∧ parallel.final = sequential.final := by
  intro k h sequential parallel
  have hlog : h.IgnoresLog := fun _ _ => rfl
  have horderly : Orderly (fun d => d) h
      (k.tasks .sample .sample (Request.sample.steps .sample)) :=
    orderly_onDisk fun task htask => Toolchain.sampleProducts_eq_writes task
      (List.map_subset _ (List.subset_append_left _ _) htask)
  have hnone : ∀ a ∈ Request.sample.artifacts, ∀ p ∈ a.intermediates,
      Disk.sample p.components = none := by decide +kernel
  have hcommands : sequential.commands.length = 8 ∧ parallel.commands.length = 12 := by
    decide +kernel
  have hbroken : ∃ x ∈ sequential.commands, (∃ a ∈ Request.sample.artifacts,
      x.1 ∈ k.frontHalf a) ∧ x.2 ≠ .exited 0 := by decide +kernel
  obtain ⟨⟨c, o⟩, hmem, hfront, ho⟩ := hbroken
  obtain ⟨hresult, _, hfailing⟩ :=
    parallel_agrees_with_sequential k .sample .sample h hlog Disk.sample
  obtain ⟨_, _, _, _, _, _, _, _, _, _, _, _, hfiles⟩ := hfailing c o hmem hfront ho
  exact ⟨hlog, rfl, horderly, removes_onDisk, hnone, hcommands.1, hcommands.2, hresult,
    hfiles (fun d => d) rfl horderly removes_onDisk hnone⟩

end Deglobal
