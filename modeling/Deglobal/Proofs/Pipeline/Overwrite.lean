import Deglobal.Proofs.Pipeline.Effects
import Deglobal.Proofs.Request.Endings
import Deglobal.Proofs.Script.Play

/-! # What a build writes over

Every file that the pipeline writes is claimed in the plan, apart from the inputs.
The link stage writes two more, which no claim is made for: the shared object,
whose name is never that of an input, and the executable, which is called whatever
the request says. A build that is told to link over one of its inputs does so.
-/

namespace Deglobal

/-! ## Output flags -/

def Command.HasOutput (c : Command) (p : Path) : Prop :=
  ∃ before after, c.args = before ++ "-o" :: p.text :: after

namespace Command

variable {c : Command} {p : Path}

theorem hasOutput_output (c : Command) (p : Path) : (c.output p).HasOutput p :=
  ⟨c.args, [], List.append_assoc c.args ["-o"] [p.text]⟩

theorem HasOutput.withArgs (hc : c.HasOutput p) (as : List String) :
    (c.withArgs as).HasOutput p := by
  obtain ⟨before, after, hargs⟩ := hc
  have hmore : (c.withArgs as).args = before ++ "-o" :: p.text :: (after ++ as) := by
    simp [Command.withArgs, hargs]
  exact ⟨before, after ++ as, hmore⟩

theorem HasOutput.arg (hc : c.HasOutput p) (a : String) : (c.arg a).HasOutput p :=
  hc.withArgs [a]

theorem HasOutput.path (hc : c.HasOutput p) (q : Path) : (c.path q).HasOutput p :=
  hc.arg q.text

end Command

/-- The files a command writes: the operand of its output flag, or what the transform tool puts
beside its last argument but one. -/
def Command.Produces (c : Command) (files : List Path) : Prop :=
  (∃ p, files = [p] ∧ c.HasOutput p) ∨
    ∃ input before, files = [transformedBeside input, companionBeside input] ∧
      c.args = before ++ [input.text, "--"]

theorem Step.command_produces (k : Recipe) (r : Request) (plan : MergePlan) (st : Step) :
    (st.command k r plan).Produces (st.writes plan) := by
  cases st with
  | transform a =>
      have hargs : (k.transform a).args = k.flags.transformArgs ++ [a.preprocessed.text, "--"] := by
        simp [Recipe.transform, Command.ofProgram, Command.withArgs, Command.path, Command.arg]
      exact Or.inr ⟨a.preprocessed, _, rfl, hargs⟩
  | preprocess a => exact Or.inl ⟨_, rfl, Command.hasOutput_output _ _⟩
  | compile a =>
      exact Or.inl ⟨_, rfl, (((Command.hasOutput_output _ _).arg _).path _).arg _⟩
  | companion a =>
      exact Or.inl ⟨_, rfl, (((Command.hasOutput_output _ _).arg _).arg _).path _⟩
  | assemble file => exact Or.inl ⟨_, rfl, Command.hasOutput_output _ _⟩
  | mergeOne a => exact Or.inl ⟨_, rfl, Command.hasOutput_output _ _⟩
  | mergeAll target => exact Or.inl ⟨_, rfl, Command.hasOutput_output _ _⟩
  | link output => exact Or.inl ⟨_, rfl, (Command.hasOutput_output _ _).withArgs _⟩
  | archive output => exact Or.inl ⟨_, rfl, (Command.hasOutput_output _ _).withArgs _⟩

/-! ## What the steps write -/

variable {k : Recipe} {r : Request} {plan : MergePlan} {st : Step}

theorem locations_writes_subset_produced (hst : st ∈ r.steps plan) :
    Path.locations (st.writes plan) ⊆ Path.locations (r.produced plan) := by
  rw [Request.steps_eq] at hst
  rcases List.mem_append.mp hst with hfront | hback
  · obtain ⟨a, ha, hst⟩ := List.mem_flatMap.mp hfront
    have hmade : a.intermediates ⊆ r.produced plan := fun p hp =>
      Request.intermediates_subset_produced r plan (List.mem_flatMap.mpr ⟨a, ha, hp⟩)
    exact List.Subset.trans (Recipe.locations_writes_subset ha hst) (Path.locations_subset hmade)
  · apply Path.locations_subset
    rcases List.mem_append.mp hback with hassemble | hmerge
    · obtain ⟨file, hfile, rfl⟩ := List.mem_map.mp hassemble
      have hobject := Request.assembly_subset_produced r plan (List.mem_map_of_mem hfile)
      simpa [Step.writes] using hobject
    · cases plan with
      | perSource =>
          obtain ⟨a, ha, rfl⟩ := List.mem_map.mp hmerge
          have hobject : a.mergedObject ∈ Artifact.produced .perSource a :=
            Request.mergeFiles_subset a (List.mem_append_right _ List.mem_cons_self)
          have hmade := Request.sources_subset_produced r .perSource
            (List.mem_flatMap.mpr ⟨a, ha, hobject⟩)
          simpa [Step.writes] using hmade
      | consolidated target =>
          rw [List.mem_singleton.mp hmerge]
          exact List.subset_append_right _ _

theorem not_same_input_of_steps (hr : r.Accepted plan) (hst : st ∈ r.steps plan) {p q : Path}
    (hp : p ∈ st.writes plan) (hq : q ∈ r.inputs) : ¬ p.Same q := by
  intro hsame
  have hmade := locations_writes_subset_produced hst (Path.mem_locations hp)
  rw [hsame] at hmade
  exact hr.inputs q hq hmade

/-! ## What the link stage writes -/

namespace BuildPath

theorem output_of_select {t : Toolchain} {output : Path}
    (hselect : select t r = .transformLink output plan) : output = r.executable := by
  unfold select at hselect
  grind

end BuildPath

theorem mem_linkSteps {output : Path} (hst : st ∈ k.linkSteps output) :
    st = .link output ∨ st = .archive output := by
  unfold Recipe.linkSteps at hst
  split at hst
  · cases hst
  · rcases List.mem_cons.mp hst with hlink | hst
    · exact Or.inl hlink
    · split at hst
      · exact Or.inr (List.mem_singleton.mp hst)
      · cases hst

theorem mem_laterSteps {t : Toolchain} (hst : st ∈ k.laterSteps (BuildPath.select t r)) :
    st = .link r.executable ∨ st = .archive r.executable := by
  unfold Recipe.laterSteps at hst
  split at hst
  · rename_i output _ hselect
    rw [← BuildPath.output_of_select hselect]
    exact mem_linkSteps hst
  · cases hst

theorem mem_schedule_cases {t : Toolchain} (hst : st ∈ k.schedule r (BuildPath.select t r))
    (hpath : (BuildPath.select t r).plan? = some plan) :
    st ∈ r.steps plan ∨ st = .link r.executable ∨ st = .archive r.executable := by
  rw [Recipe.schedule_of_plan k r hpath] at hst
  exact (List.mem_append.mp hst).imp id mem_laterSteps

def Step.Overwrites (r : Request) (plan : MergePlan) (st : Step) : Prop :=
  ∃ p ∈ st.writes plan, ∃ q ∈ r.inputs, p.Same q

/-- Along a path with the transform, an accepted step writes over an input exactly if it links the
executable there. -/
theorem overwrites_iff {t : Toolchain} (hsorted : r.Sorted) (hr : r.Accepted plan)
    (hpath : (BuildPath.select t r).plan? = some plan)
    (hst : st ∈ k.schedule r (BuildPath.select t r)) :
    st.Overwrites r plan ↔ st = .link r.executable ∧ ∃ q ∈ r.inputs, r.executable.Same q := by
  constructor
  · rintro ⟨p, hp, q, hq, hsame⟩
    rcases mem_schedule_cases hst hpath with hstep | rfl | rfl
    · exact absurd hsame (not_same_input_of_steps hr hstep hp hq)
    · have heq : p = r.executable := List.mem_singleton.mp hp
      exact ⟨rfl, q, hq, heq ▸ hsame⟩
    · have heq : p = sharedObjectPath r.executable := List.mem_singleton.mp hp
      obtain ⟨ending, hending, hends⟩ := hsorted.ends_of_mem_inputs hq
      exact absurd (heq ▸ hsame) (sharedObjectPath_not_same r.executable hending hends)
  · rintro ⟨rfl, q, hq, hsame⟩
    exact ⟨r.executable, List.mem_cons_self, q, hq, hsame⟩

/-- A build along a path with the transform that planning refuses ends so before any command. In an
accepted one only commands of the schedule run, and the one step that can write over an input is the
link, which does if the executable has the name of an input. -/
theorem inputs_overwritten_only_by_link {σ : Type} (t : Toolchain) {args : List String}
    (hargs : classify args = .ok (.build r)) (hpath : (BuildPath.select t r).plan? = some plan)
    (home : Option Path) (h : Host σ) (s : σ) :
    let k := Recipe.ofRequest t r
    let schedule := k.schedule r (BuildPath.select t r)
    let run := ((Invocation.build r).carryOut t home).run h s
    (∀ e, r.planArtifacts plan = .error e → run.commands = [] ∧ run.result = .error e ∧
      ∃ cause, e = .configuration cause) ∧
    ∀ artifacts, r.planArtifacts plan = .ok artifacts →
      (∀ x ∈ run.commands, ∃ st ∈ schedule, x.1 = st.command k r plan ∧
        x.1.Produces (st.writes plan)) ∧
      ∀ st ∈ schedule, st.Overwrites r plan ↔
        st = .link r.executable ∧ ∃ q ∈ r.inputs, r.executable.Same q := by
  intro k schedule run
  constructor
  · intro e hclash
    have hcause : ∃ cause, e = .configuration cause := by
      unfold Request.planArtifacts at hclash
      split at hclash
      · cases hclash
        exact ⟨_, rfl⟩
      · cases hclash
    have hfollow := Recipe.follow_of_clash k hpath hclash
    simp only [run, Invocation.carryOut_build]
    rw [hfollow]
    exact ⟨rfl, rfl, hcause⟩
  · intro artifacts hplan
    have hr := Request.accepted_of_planArtifacts hplan
    refine ⟨?_, fun st hst => overwrites_iff (Request.sorted_of_classify hargs) hr hpath hst⟩
    let scheduled : Command → Prop := fun c =>
      ∃ st ∈ schedule, c = st.command k r plan ∧ c.Produces (st.writes plan)
    have hfollow : (k.follow r (BuildPath.select t r)).Always scheduled (fun _ => True)
        fun _ => True :=
      Recipe.always_follow hpath hplan
        (fun st hst => ⟨st, hst, rfl, st.command_produces k r plan⟩) (fun _ _ => trivial)
    have hbuild : ((Invocation.build r).carryOut t home).Always scheduled (fun _ => True)
        fun _ => True := by
      rw [Invocation.carryOut_build]
      exact hfollow.bind (fun _ _ => trivial) (fun _ _ => trivial)
    exact hbuild.commands h s

/-- The sample's executable is none of its inputs, so nothing is written over. -/
theorem inputs_overwritten_only_by_link_sample :
    let k := Recipe.ofRequest .sample .sample
    let schedule := k.schedule .sample (BuildPath.select .sample .sample)
    let run := ((Invocation.build .sample).carryOut .sample none).run Host.willing ()
    classify ["a.c", "-o", "out/prog", "d/./a.c", "start.S", "x.o", "a.cpp", "-Wl,--as-needed"] =
        .ok (.build .sample) ∧
      (BuildPath.select .sample .sample).plan? = some .sample ∧
      Request.sample.planArtifacts .sample = .ok Request.sample.artifacts ∧
      (∀ x ∈ run.commands, ∃ st ∈ schedule, x.1 = st.command k .sample .sample ∧
        x.1.Produces (st.writes .sample)) ∧
      ∀ st ∈ schedule, ¬ st.Overwrites .sample .sample := by
  intro k schedule run
  have hpath : (BuildPath.select .sample .sample).plan? = some .sample := by decide
  have hargs : classify ["a.c", "-o", "out/prog", "d/./a.c", "start.S", "x.o", "a.cpp",
      "-Wl,--as-needed"] = .ok (.build .sample) := rfl
  have happart : ¬ ∃ q ∈ Request.sample.inputs, Request.sample.executable.Same q := by decide
  obtain ⟨hcommands, hiff⟩ :=
    (inputs_overwritten_only_by_link .sample hargs hpath none Host.willing ()).2 _
      Request.planArtifacts_sample
  exact ⟨hargs, hpath, Request.planArtifacts_sample, hcommands,
    fun st hst hover => happart ((hiff st hst).mp hover).2⟩

/-- An executable that is to be called like its source is linked over it. -/
theorem link_overwrites_source :
    let r : Request := { sources := [⟨"a.cpp"⟩], explicitOutput := some ⟨"a.cpp"⟩ }
    let plan := MergePlan.consolidated ⟨"sstmerged.a.cpp.o"⟩
    let link := Step.link ⟨"a.cpp"⟩
    let run := ((Invocation.build r).carryOut .sample none).run Host.willing ()
    classify ["a.cpp", "-o", "a.cpp"] = .ok (.build r) ∧
      BuildPath.select .sample r = .transformLink ⟨"a.cpp"⟩ plan ∧
      (link.command (Recipe.ofRequest .sample r) r plan, .exited 0) ∈ run.commands ∧
      link.Overwrites r plan ∧ run.result = .ok 0 := by
  intro r plan link run
  have hover : link.Overwrites r plan :=
    ⟨⟨"a.cpp"⟩, List.mem_cons_self, ⟨"a.cpp"⟩, List.mem_cons_self, rfl⟩
  have hrun : (link.command (Recipe.ofRequest .sample r) r plan, .exited 0) ∈ run.commands ∧
      run.result = .ok 0 := by decide +kernel
  exact ⟨rfl, by decide, hrun.1, hover, hrun.2⟩

end Deglobal
