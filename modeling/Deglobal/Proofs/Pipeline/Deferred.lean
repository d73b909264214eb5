import Deglobal.Proofs.Pipeline.Inputs
import Deglobal.Proofs.Pipeline.Overwrite

/-! # Builds that leave linking to the core build

An installation can leave linking to the core build. The stage that links objects
then runs nothing, so that a path with the transform ends at its final objects and
a path that only links does nothing at all. One path does not go through that
stage: the command that compiles and links at once links all the same.
-/

namespace Deglobal

variable {σ : Type} {k : Recipe} {r : Request} {plan : MergePlan} {st : Step}

/-- A step that makes an executable or a shared object. -/
def Step.Links : Step → Prop
  | link _ => True
  | archive _ => True
  | _ => False

/-- A command that ends before anything is linked: it only preprocesses or compiles, runs the
transform tool, or merges objects into one that can still be linked. -/
def Recipe.StopsShort (k : Recipe) (c : Command) : Prop :=
  "-E" ∈ c.args ∨ "-c" ∈ c.args ∨ c.program = k.toolchain.toolPath.text ∨
    ["-Wl,-r", "-nostdlib"] <+: c.args

instance (k : Recipe) (c : Command) : Decidable (k.StopsShort c) :=
  inferInstanceAs (Decidable (_ ∨ _ ∨ _ ∨ _))

/-! ## Commands that stop short -/

theorem Step.not_links_of_mem_steps (hst : st ∈ r.steps plan) : ¬ st.Links := by
  rw [Request.steps_eq] at hst
  rcases List.mem_append.mp hst with hfront | hback
  · obtain ⟨a, _, hst⟩ := List.mem_flatMap.mp hfront
    simp only [ofSource, List.mem_cons, List.not_mem_nil, or_false] at hst
    rcases hst with rfl | rfl | rfl | rfl <;> exact id
  · rcases List.mem_append.mp hback with hassemble | hmerge
    · obtain ⟨file, _, rfl⟩ := List.mem_map.mp hassemble
      exact id
    · cases plan with
      | perSource =>
          obtain ⟨a, _, rfl⟩ := List.mem_map.mp hmerge
          exact id
      | consolidated target =>
          rw [List.mem_singleton.mp hmerge]
          exact id

theorem Recipe.merge_stopsShort (k : Recipe) (inputs : List Path) (output : Path) :
    k.StopsShort (k.merge inputs output) := by
  refine Or.inr (Or.inr (Or.inr ⟨inputs.map Path.text ++ ["-o", output.text], ?_⟩))
  simp [merge, Command.ofProgram, Command.withArgs, Command.paths, Command.output, Command.path,
    Command.arg]

theorem Step.command_stopsShort (k : Recipe) (r : Request) (plan : MergePlan)
    (hst : ¬ st.Links) : k.StopsShort (st.command k r plan) := by
  -- Both flags are written out in the recipe, somewhere after the configured ones.
  have hflag : ∀ (c : Command) (flag : String), flag ∈ (c.arg flag).args :=
    fun c flag => List.mem_append_right _ List.mem_cons_self
  have hmore : ∀ {c : Command} {flag : String} (as : List String), flag ∈ c.args →
      flag ∈ (c.withArgs as).args := fun _ hmem => List.mem_append_left _ hmem
  cases st with
  | preprocess a => exact Or.inl (hmore _ (hmore _ (hmore _ (hflag _ "-E"))))
  | transform a => exact Or.inr (Or.inr (Or.inl rfl))
  | compile a => exact Or.inr (Or.inl (hmore _ (hmore _ (hflag _ "-c"))))
  | companion a => exact Or.inr (Or.inl (hmore _ (hflag _ "-c")))
  | assemble file => exact Or.inr (Or.inl (hmore _ (hmore _ (hmore _ (hflag _ "-c")))))
  | mergeOne a => exact k.merge_stopsShort _ _
  | mergeAll target => exact k.merge_stopsShort _ _
  | link output => exact absurd trivial hst
  | archive output => exact absurd trivial hst

theorem Command.mem_output? {c : Command} {a : String} (ha : a ∈ c.args) (q : Option Path) :
    a ∈ (c.output? q).args := by
  cases q with
  | none => exact ha
  | some p => exact List.mem_append_left _ (List.mem_append_left _ ha)

theorem Recipe.direct_stopsShort (k : Recipe)
    (hstops : r.preprocessOnly = true ∨ r.compileOnly = true) : k.StopsShort (k.direct r) := by
  have hcontrol : ∀ {flag : String}, flag ∈ r.controlArgs → flag ∈ (k.direct r).args := by
    intro flag hflag
    refine List.mem_append_left _ (List.mem_append_left _ (Command.mem_output? ?_ _))
    exact List.mem_append_right _ hflag
  rcases hstops with hpreprocess | hcompile
  · exact Or.inl (hcontrol (List.contains_iff_mem.mp hpreprocess))
  · exact Or.inr (Or.inl (hcontrol (List.contains_iff_mem.mp hcompile)))

/-! ## The paths of a build that leaves linking -/

namespace BuildPath

variable {t : Toolchain}

theorem stops_of_select (hpath : select t r = .preprocess ∨ select t r = .directCompile) :
    r.preprocessOnly = true ∨ r.compileOnly = true := by
  unfold select at hpath
  grind

theorem select_eq_allInOne : select t r = .allInOne ↔ r.preprocessOnly = false ∧
    r.compileOnly = false ∧ (r.hasSources = true → t.transforms = false) ∧
      (r.hasSources = false → r.objectTarget?.isSome = false) := by
  unfold select
  grind

end BuildPath

/-- What a build that leaves linking issues along a path: on the paths without the transform the
one direct command, and on those with it the commands of the steps up to the final objects. -/
def Recipe.Unlinked (k : Recipe) (r : Request) (path : BuildPath) (c : Command) : Prop :=
  (path = .preprocess ∨ path = .directCompile) ∧ c = k.direct r ∨
    ∃ plan, path.plan? = some plan ∧ ∃ st ∈ r.steps plan, ¬ st.Links ∧ c = st.command k r plan

theorem Recipe.Unlinked.stopsShort {t : Toolchain} {c : Command}
    (hc : k.Unlinked r (BuildPath.select t r) c) : k.StopsShort c := by
  rcases hc with ⟨hpath, rfl⟩ | ⟨plan, _, st, _, hlinks, rfl⟩
  · exact k.direct_stopsShort (BuildPath.stops_of_select hpath)
  · exact st.command_stopsShort k r plan hlinks

theorem Recipe.linkObjects_of_core (hcore : k.toolchain.sstCore = true) (objects : List Path)
    (output : Path) (linkerArgs : List String) :
    k.linkObjects objects output linkerArgs = Script.say (.linkDeferred output) := by
  rw [linkObjects_eq, if_pos hcore]

theorem Recipe.always_unlinked (hcore : k.toolchain.sstCore = true) {path : BuildPath}
    (hpath : path ≠ .allInOne) :
    (k.follow r path).Always (k.Unlinked r path) (fun _ => True) fun _ => True := by
  cases hplanned : path.plan? with
  | some plan =>
      cases hplan : r.planArtifacts plan with
      | error e =>
          rw [follow_of_clash k hplanned hplan]
          trivial
      | ok artifacts =>
          refine always_follow hplanned hplan (fun st hst => ?_) (fun _ _ => trivial)
          have hnone : k.laterSteps path = [] := by
            unfold laterSteps
            split
            · exact if_pos hcore
            · rfl
          rw [schedule_of_plan k r hplanned, hnone, List.append_nil] at hst
          exact Or.inr ⟨plan, hplanned, st, hst, Step.not_links_of_mem_steps hst, rfl⟩
  | none =>
      cases path with
      | preprocess => exact Script.always_check (Or.inl ⟨Or.inl rfl, rfl⟩)
      | directCompile => exact Script.always_check (Or.inl ⟨Or.inr rfl, rfl⟩)
      | allInOne => exact absurd rfl hpath
      | linkOnly output =>
          rw [follow, linkObjects_of_core hcore]
          trivial
      | transformCompile plan => cases hplanned
      | transformLink output plan => cases hplanned

theorem Recipe.always_allInOne (k : Recipe) (r : Request) :
    (k.follow r .allInOne).Always (· = k.allInOne r) (fun _ => True) fun _ => True :=
  Script.always_check rfl

/-- A build that leaves linking to the core build links on one path only. On every other path each
command is the direct one or that of a step which links nothing, and stops short by what it was
given: a path that only links runs nothing. The path that compiles and links at once does so
whatever was left to the core build. It is the path of a request that neither preprocesses nor
compiles only, and has sources while the transform is off, or has neither sources nor a target. -/
theorem linked_only_allInOne_if_deferred (t : Toolchain) (hcore : t.sstCore = true) (r : Request)
    (home : Option Path) (h : Host σ) (s : σ) :
    let k := Recipe.ofRequest t r
    let path := BuildPath.select t r
    let run := ((Invocation.build r).carryOut t home).run h s
    (path ≠ .allInOne → ∀ x ∈ run.commands, k.Unlinked r path x.1 ∧ k.StopsShort x.1) ∧
      (∀ output, path = .linkOnly output → run.commands = [] ∧ run.result = .ok 0) ∧
      (path = .allInOne → (∀ x ∈ run.commands, x.1 = k.allInOne r) ∧
        (t.compiler ≠ "" → ∃ o, run.commands = [(k.allInOne r, o)])) ∧
      (path = .allInOne ↔ r.preprocessOnly = false ∧ r.compileOnly = false ∧
        (r.hasSources = true → t.transforms = false) ∧
        (r.hasSources = false → r.objectTarget?.isSome = false)) := by
  intro k path run
  refine ⟨fun hpath x hx => ?_, fun output hpath => ?_, fun hpath => ⟨?_, fun hcompiler => ?_⟩,
    BuildPath.select_eq_allInOne⟩
  · have halways := Invocation.always_carryOut_build (Recipe.always_unlinked hcore hpath) home
    have hunlinked := halways.commands h s x hx
    exact ⟨hunlinked, hunlinked.stopsShort⟩
  · have hfollow : k.follow r path = Script.say (.linkDeferred output) := by
      rw [hpath, Recipe.follow, Recipe.linkObjects_of_core (k := k) hcore]
    simp only [run, Invocation.carryOut_build]
    rw [hfollow]
    exact ⟨rfl, rfl⟩
  · have halways := k.always_allInOne r
    rw [← hpath] at halways
    exact (Invocation.always_carryOut_build halways home).commands h s
  · have hprogram : (k.allInOne r).isEmpty = false :=
      Command.isEmpty_eq_false ((Command.program_output? _ _).trans_ne hcompiler)
    have hfollow : k.follow r path =
        .exec (k.allInOne r) fun o => .done (o.result (k.allInOne r)) := by
      rw [hpath, Recipe.follow, Script.check_of_program hprogram]
    simp only [run, Invocation.carryOut_build]
    rw [hfollow]
    refine ⟨(h.exec (k.allInOne r) (h.hear (.noted (.buildPath path)) s)).1, ?_⟩
    simp only [Script.bind, Script.run, Run.after, Run.commands]
    cases Outcome.result _ _ <;> rfl

/-- Of the sample's sixteen commands all but the last two are left. -/
theorem linked_only_allInOne_if_deferred_sample :
    let t : Toolchain := { Toolchain.sample with sstCore := true }
    let k := Recipe.ofRequest t .sample
    let run := ((Invocation.build .sample).carryOut t none).run Host.willing ()
    t.sstCore = true ∧ BuildPath.select t .sample ≠ .allInOne ∧ run.commands.length = 14 ∧
      run.result = .ok 0 ∧ ∀ x ∈ run.commands,
        k.Unlinked .sample (BuildPath.select t .sample) x.1 ∧ k.StopsShort x.1 := by
  intro t k run
  have hpath : BuildPath.select t .sample ≠ .allInOne := by decide
  have hunlinked :=
    (linked_only_allInOne_if_deferred t rfl .sample none Host.willing ()).1 hpath
  have hrun : run.commands.length = 14 ∧ run.result = .ok 0 := by decide +kernel
  exact ⟨rfl, hpath, hrun.1, hrun.2, hunlinked⟩

/-- Without the transform tool a source is linked at once, into the executable it was to be left
for. -/
theorem allInOne_links_deferred :
    let t : Toolchain := { Toolchain.sample with sstCore := true, tool? := none }
    let r : Request := { sources := [⟨"a.cpp"⟩], explicitOutput := some ⟨"prog"⟩ }
    let k := Recipe.ofRequest t r
    let run := ((Invocation.build r).carryOut t none).run Host.willing ()
    classify ["a.cpp", "-o", "prog"] = .ok (.build r) ∧ t.sstCore = true ∧
      run.commands = [(k.allInOne r, .exited 0)] ∧ run.result = .ok 0 ∧
      (k.allInOne r).HasOutput ⟨"prog"⟩ ∧ ¬ k.StopsShort (k.allInOne r) := by
  intro t r k run
  exact ⟨rfl, rfl, by decide +kernel, by decide +kernel,
    (Command.hasOutput_output _ _).withArgs _, by decide +kernel⟩

end Deglobal
