import Deglobal.Proofs.Pipeline.Effects
import Deglobal.Request.Classify

/-! # Where the inputs go

Every build path hands the files of a request on to commands of its own choice.
Sources and objects always end up as arguments of a command that is there for
them. Assembly files do so on every path but one: a request without sources that
names an output or an object is linked from its objects, and assembly files make
no difference to that link.
-/

namespace Deglobal

variable {σ : Type} {k : Recipe} {r : Request} {plan : MergePlan}

/-! ## Commands and the files they are for -/

theorem Command.program_output? (c : Command) (q : Option Path) :
    (c.output? q).program = c.program := by
  cases q <;> rfl

theorem Recipe.direct_takes (k : Recipe) {r : Request} {p : Path}
    (hp : p ∈ r.sources ++ r.assembly) : (k.direct r).Takes p := by
  rcases List.mem_append.mp hp with hp | hp
  · exact (Command.takes_paths _ hp).paths _
  · exact Command.takes_paths _ hp

theorem Recipe.allInOne_takes (k : Recipe) {r : Request} {p : Path} (hp : p ∈ r.inputs) :
    (k.allInOne r).Takes p := by
  have hfiles : ∀ c : Command,
      (((c.paths r.sources).paths r.assembly).paths r.objects).Takes p := by
    intro c
    rcases List.mem_append.mp hp with hp | hp
    · rcases List.mem_append.mp hp with hp | hp
      · exact ((Command.takes_paths c hp).paths _).paths _
      · exact (Command.takes_paths _ hp).paths _
    · exact Command.takes_paths _ hp
  exact (((((hfiles _).withArgs _).withArgs _).arg _).output? _).withArgs _

/-! ## The commands of each path -/

namespace Recipe

theorem course_check_direct (hk : k.toolchain.Named) :
    (Script.check (k.direct r)).course = [k.direct r] := by
  have hprogram : (k.direct r).program = k.toolchain.compiler := Command.program_output? _ _
  exact Script.course_check (Command.isEmpty_eq_false (hprogram ▸ hk.compiler))

theorem course_check_allInOne (hk : k.toolchain.Named) :
    (Script.check (k.allInOne r)).course = [k.allInOne r] := by
  have hprogram : (k.allInOne r).program = k.toolchain.compiler := Command.program_output? _ _
  exact Script.course_check (Command.isEmpty_eq_false (hprogram ▸ hk.compiler))

theorem link_mem_course (hk : k.toolchain.Named) (hcore : k.toolchain.sstCore = false)
    (objects : List Path) (output : Path) (linkerArgs : List String) :
    k.link objects output linkerArgs ∈ (k.linkObjects objects output linkerArgs).course := by
  have hprogram : (k.link objects output linkerArgs).isEmpty = false :=
    Command.isEmpty_eq_false hk.cxx
  rw [linkObjects_eq, if_neg (by simp [hcore]),
    Script.course_bind_of_goal (Script.goal_check _), Script.course_check hprogram]
  exact List.mem_append_left _ List.mem_cons_self

theorem taken_of_step (hk : k.toolchain.Named) {path : BuildPath} (hpath : path.plan? = some plan)
    {artifacts : List Artifact} (hplan : r.planArtifacts plan = .ok artifacts) {st : Step}
    (hst : st ∈ k.schedule r path) {x : Path × Option Step} (hx : x ∈ st.reads r plan) :
    st.command k r plan ∈ (k.follow r path).course ∧ (st.command k r plan).Takes x.1 := by
  refine ⟨?_, st.command_takes k r plan hx⟩
  rw [course_follow hk hpath hplan]
  exact List.mem_map_of_mem hst

theorem accepted_of_goal {path : BuildPath} (hpath : path.plan? = some plan)
    (hgoal : (k.follow r path).goal = .ok ()) :
    ∃ artifacts, r.planArtifacts plan = .ok artifacts := by
  cases hplan : r.planArtifacts plan with
  | ok artifacts => exact ⟨artifacts, rfl⟩
  | error e =>
      rw [follow_of_clash k hpath hplan] at hgoal
      cases hgoal

/-- Every path but that of a mere link has a command for each source and each assembly file. -/
theorem exists_takes_of_not_linkOnly (hk : k.toolchain.Named) {path : BuildPath}
    (hlink : ∀ output, path ≠ .linkOnly output) (hgoal : (k.follow r path).goal = .ok ()) {p : Path}
    (hp : p ∈ r.sources ++ r.assembly) : ∃ c ∈ (k.follow r path).course, c.Takes p := by
  cases hpath : path.plan? with
  | some plan =>
      obtain ⟨artifacts, hplan⟩ := accepted_of_goal hpath hgoal
      have hsteps : r.steps plan ⊆ k.schedule r path := by
        rw [schedule_of_plan k r hpath]
        exact List.subset_append_left _ _
      rcases List.mem_append.mp hp with hp | hp
      · have hstep : Step.preprocess (r.artifactOf p) ∈ r.steps plan :=
          ofSource_subset (List.mem_map_of_mem hp) List.mem_cons_self
        have hread : (p, none) ∈ (Step.preprocess (r.artifactOf p)).reads r plan := by
          rw [Step.reads, Request.artifactOf_source]
          exact List.mem_cons_self
        exact ⟨_, taken_of_step hk hpath hplan (hsteps hstep) hread⟩
      · have hstep : Step.assemble p ∈ r.steps plan := assemble_mem_steps hp
        exact ⟨_, taken_of_step hk hpath hplan (hsteps hstep) List.mem_cons_self⟩
  | none =>
      -- The paths without the transform have a single command, for all files at once.
      have hone : ∀ {c : Command}, (k.follow r path).course = [c] → c.Takes p →
          ∃ c ∈ (k.follow r path).course, c.Takes p :=
        fun hcourse htakes => ⟨_, hcourse ▸ List.mem_cons_self, htakes⟩
      cases path with
      | preprocess => exact hone (course_check_direct hk) (k.direct_takes hp)
      | directCompile => exact hone (course_check_direct hk) (k.direct_takes hp)
      | allInOne =>
          exact hone (course_check_allInOne hk) (k.allInOne_takes (List.mem_append_left _ hp))
      | linkOnly output => exact absurd rfl (hlink output)
      | transformCompile plan => cases hpath
      | transformLink output plan => cases hpath

/-- Every path that ends in an executable has a command that makes it of all objects. -/
theorem exists_takes_object (hk : k.toolchain.Named) (hcore : k.toolchain.sstCore = false)
    {path : BuildPath} {output : Path} (hpath : path = .allInOne ∨ path = .linkOnly output ∨
      ∃ plan, path = .transformLink output plan)
    (hgoal : (k.follow r path).goal = .ok ()) {p : Path} (hp : p ∈ r.objects) :
    ∃ c ∈ (k.follow r path).course, (c = k.allInOne r ∨
      ∃ objects, c = k.link objects output r.linkerArgs) ∧ c.Takes p := by
  rcases hpath with rfl | rfl | ⟨plan, rfl⟩
  · refine ⟨k.allInOne r, ?_, Or.inl rfl, k.allInOne_takes (List.mem_append_right _ hp)⟩
    rw [follow, course_check_allInOne hk]
    exact List.mem_cons_self
  · exact ⟨_, link_mem_course hk hcore r.objects output r.linkerArgs, Or.inr ⟨_, rfl⟩,
      k.link_takes output r.linkerArgs hp⟩
  · have hpath : (BuildPath.transformLink output plan).plan? = some plan := rfl
    obtain ⟨artifacts, hplan⟩ := accepted_of_goal hpath hgoal
    have hstep : Step.link output ∈ k.schedule r (.transformLink output plan) := by
      refine List.mem_append_right _ ?_
      rw [linkSteps, if_neg (by simp [hcore])]
      exact List.mem_cons_self
    have hread : (p, none) ∈ (Step.link output).reads r plan :=
      List.mem_append_right _ (List.mem_map_of_mem hp)
    obtain ⟨hmem, htakes⟩ := taken_of_step hk hpath hplan hstep hread
    exact ⟨_, hmem, Or.inr ⟨_, rfl⟩, htakes⟩

end Recipe

/-! ## Which path a request takes -/

namespace BuildPath

variable {t : Toolchain}

theorem select_eq_linkOnly {output : Path} : select t r = .linkOnly output ↔
    r.preprocessOnly = false ∧ r.compileOnly = false ∧ r.hasSources = false ∧
      r.objectTarget?.isSome = true ∧ output = r.executable := by
  unfold select
  grind

theorem select_of_links (hpreprocess : r.preprocessOnly = false)
    (hcompile : r.compileOnly = false) : select t r = .allInOne ∨
      select t r = .linkOnly r.executable ∨
      ∃ plan, select t r = .transformLink r.executable plan := by
  unfold select
  grind

end BuildPath

/-- A link of objects alone does not depend on the assembly files of the request. -/
theorem Invocation.carryOut_of_linkOnly {t : Toolchain} {output : Path}
    (hpath : BuildPath.select t r = .linkOnly output) (home : Option Path) :
    (Invocation.build r).carryOut t home =
      (Invocation.build { r with assembly := [] }).carryOut t home := by
  have hsame : BuildPath.select t { r with assembly := [] } = .linkOnly output := by
    rw [BuildPath.select_eq_linkOnly] at hpath ⊢
    exact hpath
  rw [carryOut_build, carryOut_build, hpath, hsame]
  rfl

/-- If every command of a build succeeds that does its own linking, each source is an argument of
one of them, and so is each assembly file unless the build is a mere link, for which assembly files
make no difference at all. A mere link is what a request without sources comes to that names an
output or an object and does not stop early. In every request that does not stop early, each object
is an argument of the command that makes the executable. -/
theorem inputs_taken_unless_linkOnly {σ : Type} (t : Toolchain) (ht : t.Named)
    (hcore : t.sstCore = false) (r : Request) (home : Option Path) (h : Host σ) (s : σ) :
    let k := Recipe.ofRequest t r
    let path := BuildPath.select t r
    let script := (Invocation.build r).carryOut t home
    let run := script.run h s
    (∀ x ∈ run.commands, x.2 = .exited 0) → run.result = .ok 0 →
      (∀ p ∈ r.sources, ∃ x ∈ run.commands, x.1.Takes p) ∧
      (path ≠ .linkOnly r.executable → ∀ p ∈ r.assembly, ∃ x ∈ run.commands, x.1.Takes p) ∧
      (path = .linkOnly r.executable →
        script = (Invocation.build { r with assembly := [] }).carryOut t home) ∧
      (path = .linkOnly r.executable ↔ r.preprocessOnly = false ∧ r.compileOnly = false ∧
        r.hasSources = false ∧ r.objectTarget?.isSome = true) ∧
      (r.preprocessOnly = false → r.compileOnly = false → ∀ p ∈ r.objects, ∃ x ∈ run.commands,
        (x.1 = k.allInOne r ∨ ∃ objects, x.1 = k.link objects r.executable r.linkerArgs) ∧
          x.1.Takes p) := by
  intro k path script run hsuccess hresult
  obtain ⟨hcommands, hgoal⟩ := Script.run_of_succeeded hsuccess
  obtain ⟨_, hfollow, _⟩ : ∃ a, (k.follow r path).goal = .ok a ∧ _ :=
    Script.exists_goal_of_bind (hgoal.symm.trans hresult)
  have hissued : ∀ {c : Command}, c ∈ (k.follow r path).course → ∃ x ∈ run.commands, x.1 = c := by
    intro c hc
    have hcourse : script.course = (k.follow r path).course ++ [] :=
      Script.course_bind_of_goal hfollow _
    rw [← List.append_nil (k.follow r path).course, ← hcourse, ← hcommands] at hc
    exact List.mem_map.mp hc
  have hlink : path = .linkOnly r.executable ↔ r.preprocessOnly = false ∧ r.compileOnly = false ∧
      r.hasSources = false ∧ r.objectTarget?.isSome = true := by
    rw [BuildPath.select_eq_linkOnly]
    simp
  have htaken : path ≠ .linkOnly r.executable → ∀ p ∈ r.sources ++ r.assembly,
      ∃ x ∈ run.commands, x.1.Takes p := by
    intro hother p hp
    have hnot : ∀ output, path ≠ .linkOnly output := by
      intro output houtput
      obtain ⟨_, _, _, _, rfl⟩ := BuildPath.select_eq_linkOnly.mp houtput
      exact hother houtput
    obtain ⟨c, hc, htakes⟩ := Recipe.exists_takes_of_not_linkOnly ht hnot hfollow hp
    obtain ⟨x, hx, rfl⟩ := hissued hc
    exact ⟨x, hx, htakes⟩
  refine ⟨fun p hp => ?_, fun hother p hp => htaken hother p (List.mem_append_right _ hp),
    fun hpath => Invocation.carryOut_of_linkOnly hpath home, hlink,
    fun hpreprocess hcompile p hp => ?_⟩
  · refine htaken (fun hpath => ?_) p (List.mem_append_left _ hp)
    have hnone : r.sources = [] := by simpa [Request.hasSources] using (hlink.mp hpath).2.2.1
    rw [hnone] at hp
    cases hp
  · obtain ⟨c, hc, hmakes, htakes⟩ := Recipe.exists_takes_object ht hcore
      (BuildPath.select_of_links hpreprocess hcompile) hfollow hp
    obtain ⟨x, hx, rfl⟩ := hissued hc
    exact ⟨x, hx, hmakes, htakes⟩

/-- Every file of the sample is an argument of one of its sixteen commands. -/
theorem inputs_taken_unless_linkOnly_sample :
    let run := ((Invocation.build .sample).carryOut .sample none).run Host.willing ()
    Toolchain.sample.Named ∧ Toolchain.sample.sstCore = false ∧
      (∀ x ∈ run.commands, x.2 = .exited 0) ∧ run.result = .ok 0 ∧ run.commands.length = 16 ∧
      (∀ p ∈ Request.sample.sources, ∃ x ∈ run.commands, x.1.Takes p) ∧
      (∀ p ∈ Request.sample.assembly, ∃ x ∈ run.commands, x.1.Takes p) ∧
      ∀ p ∈ Request.sample.objects, ∃ x ∈ run.commands, x.1.Takes p := by
  intro run
  obtain ⟨hsuccess, hresult, hlength⟩ : (∀ x ∈ run.commands, x.2 = .exited 0) ∧
      run.result = .ok 0 ∧ run.commands.length = 16 := by decide +kernel
  obtain ⟨hsources, hassembly, _, hlink, hobjects⟩ := inputs_taken_unless_linkOnly .sample
    Toolchain.named_sample rfl .sample none Host.willing () hsuccess hresult
  refine ⟨Toolchain.named_sample, rfl, hsuccess, hresult, hlength, hsources,
    hassembly fun hpath => ?_, fun p hp => ?_⟩
  · exact absurd (hlink.mp hpath).2.2.1 (by decide)
  · obtain ⟨x, hx, _, htakes⟩ := hobjects (by decide) (by decide) p hp
    exact ⟨x, hx, htakes⟩

/-- An assembly file that is to be linked with an object is left out of the executable. -/
theorem linkOnly_drops_assembly :
    let r : Request :=
      { assembly := [⟨"start.S"⟩], objects := [⟨"x.o"⟩], explicitOutput := some ⟨"prog"⟩ }
    let run := ((Invocation.build r).carryOut .sample none).run Host.willing ()
    classify ["start.S", "x.o", "-o", "prog"] = .ok (.build r) ∧
      BuildPath.select .sample r = .linkOnly ⟨"prog"⟩ ∧
      (∀ x ∈ run.commands, x.2 = .exited 0) ∧ run.result = .ok 0 ∧
      ∀ x ∈ run.commands, ¬ x.1.Takes ⟨"start.S"⟩ := by
  intro r run
  have hrun : (∀ x ∈ run.commands, x.2 = .exited 0) ∧ run.result = .ok 0 ∧
      ∀ x ∈ run.commands, "start.S" ∉ x.1.args := by decide +kernel
  exact ⟨rfl, by decide, hrun⟩

end Deglobal
