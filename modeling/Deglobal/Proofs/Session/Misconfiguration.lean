import Deglobal.Proofs.Pipeline.Verdict
import Deglobal.Session

/-! # Misconfigurations leave no trace

An invocation is refused for what is wrong with its arguments, with the toggles or
the install directories, or with the files of its build. The first three end it
before there is anything to carry out, and the files are planned before the first
command. From there on a failure is that of a command, so that a refusal finds
everything outside the driver as it was.
-/

namespace Deglobal

variable {α σ : Type} {h : Host σ}

/-! ## Whole invocations -/

def Toolchain.configure (language : Language) (d : Description)
    (lookup : String → Option String) (tool? : Option Path) : Except Failure Toolchain := do
  let toggles ← Toggles.ofLookup lookup
  ofDescription language d toggles tool?

namespace Session

/-- A whole invocation: sort the arguments, settle the configuration and carry out what was asked
for. -/
def invoke (args : List String) (configuration : Except Failure Toolchain) (home : Option Path) :
    Script Int32 := do
  let invocation ← Script.done (classify args)
  let toolchain ← Script.done configuration
  invocation.carryOut toolchain home

/-- A session that is prepared with a probe which answers from a value is an invocation with the
toolchain that is loaded with it. -/
theorem script_of_prepare (probe : Probe Id) (program : String) (args : List String)
    (home : Option Path) :
    ((Script.done (Id.run (prepare probe program args))).bind fun p => p.script home) =
      invoke (driverArgs args) (Id.run (Toolchain.load probe (Language.ofProgram program)))
        home := by
  unfold prepare invoke
  cases classify (driverArgs args) with
  | error e => rfl
  | ok invocation =>
      generalize Toolchain.load probe (Language.ofProgram program) = loaded
      cases loaded with
      | error e => rfl
      | ok toolchain => rfl

end Session

/-! ## Runs that leave no trace -/

/-- A run from state `s` that is over before anything is done: at most the path of a build has been
noted. -/
inductive Run.Idle (h : Host σ) (s : σ) : Run σ α → Prop where
  | silent (result : Except Failure α) : Idle h s ⟨result, s, []⟩
  | noted (result : Except Failure α) (path : BuildPath) :
      Idle h s ⟨result, h.hear (.noted (.buildPath path)) s,
        [(.noted (.buildPath path), h.hear (.noted (.buildPath path)) s)]⟩

namespace Run.Idle

variable {s : σ} {run : Run σ α}

theorem commands (hrun : run.Idle h s) : run.commands = [] := by
  cases hrun <;> rfl

theorem discards (hrun : run.Idle h s) : run.discards = [] := by
  cases hrun <;> rfl

theorem written (hrun : run.Idle h s) (stream : Stream) : run.written stream = "" := by
  cases hrun <;> rfl

theorem events (hrun : run.Idle h s) :
    ∀ x ∈ run.events, ∃ path, x.1 = .noted (.buildPath path) := by
  cases hrun with
  | silent result => exact fun x hx => absurd hx List.not_mem_nil
  | noted result path =>
      intro x hx
      rw [List.mem_singleton.mp hx]
      exact ⟨path, rfl⟩

theorem view {τ : Type} (hrun : run.Idle h s) (view : σ → τ)
    (hview : ∀ n s, view (h.hear (.noted n) s) = view s) : view run.final = view s := by
  cases hrun with
  | silent result => rfl
  | noted result path => exact hview _ s

end Run.Idle

/-! ## Where misconfigurations come from -/

theorem Outcome.failure?_ne_configuration {c : Command} {o : Outcome} {cause : Misconfiguration} :
    o.failure? c ≠ some (.configuration cause) := by
  intro hfail
  obtain ⟨_, heq⟩ := Outcome.failure?_eq_some.mp hfail
  cases o <;> cases heq

theorem Script.Accountable.not_misconfigured {x : Script α} (hx : x.Accountable h) (s : σ)
    (cause : Misconfiguration) : (x.run h s).result ≠ .error (.configuration cause) := by
  intro hresult
  have hrun := hx.run s
  rw [hresult] at hrun
  obtain ⟨y, _, hfail⟩ := hrun
  exact Outcome.failure?_ne_configuration hfail

theorem Query.not_misconfigured (q : Query) (t : Toolchain) (home : Option Path) (s : σ)
    (cause : Misconfiguration) :
    ((q.answer t home).run h s).result ≠ .error (.configuration cause) := by
  -- A query has no failure but that of its command to start.
  have hstatus : ∀ c : Command, (Script.status c).Always (fun _ => True) (fun _ => True)
      fun result => result ≠ .error (.configuration cause) := by
    intro c
    refine ⟨trivial, fun o => ?_⟩
    cases o <;> exact fun heq => by cases heq
  have halways : (q.answer t home).Always (fun _ => True) (fun _ => True)
      fun result => result ≠ .error (.configuration cause) := by
    cases q with
    | version flag => cases home <;> exact hstatus _
    | help =>
        refine (hstatus _).bind (fun _ _ heq => by cases heq) (fun e he heq => he ?_)
        cases heq
        rfl
    | flags => exact fun heq => by cases heq
  exact (halways.issues (h := h) ⟨[], s⟩).run.1.1

/-- An invocation that is carried out ends in a misconfiguration only where planning refuses it. -/
theorem Invocation.idle_of_misconfigured (inv : Invocation) (t : Toolchain) (home : Option Path)
    (s : σ) {cause : Misconfiguration}
    (hresult : ((inv.carryOut t home).run h s).result = .error (.configuration cause)) :
    ((inv.carryOut t home).run h s).Idle h s := by
  cases inv with
  | query q => exact absurd hresult (q.not_misconfigured t home s cause)
  | build r =>
      by_cases haccepted : ∀ plan, (BuildPath.select t r).plan? = some plan →
          ∃ artifacts, r.planArtifacts plan = .ok artifacts
      · have haccountable := accountable_carryOut_build (h := h) haccepted home
        exact absurd hresult (haccountable.not_misconfigured s cause)
      · simp only [not_forall] at haccepted
        obtain ⟨plan, hpath, hrefused⟩ := haccepted
        cases hplan : r.planArtifacts plan with
        | ok artifacts => exact absurd ⟨artifacts, hplan⟩ hrefused
        | error e =>
            rw [carryOut_build, Recipe.follow_of_clash _ hpath hplan]
            exact .noted _ _

theorem Session.idle_of_misconfigured (args : List String)
    (configuration : Except Failure Toolchain) (home : Option Path) (s : σ)
    {cause : Misconfiguration} (hresult : ((invoke args configuration home).run h s).result =
      .error (.configuration cause)) :
    ((invoke args configuration home).run h s).Idle h s := by
  unfold invoke at hresult ⊢
  cases hargs : classify args with
  | error e => exact .silent _
  | ok inv =>
      cases configuration with
      | error e => exact .silent _
      | ok t =>
          rw [hargs] at hresult
          exact inv.idle_of_misconfigured t home s hresult

/-- An invocation that ends in a misconfiguration has run no command, removed no file and written
nothing, whatever its arguments, its description, its environment and the answers of its host: at
most the path of a build has been noted. What notices have no effect on is as it was before. -/
theorem misconfiguration_leaves_no_trace (args : List String) (language : Language)
    (d : Description) (lookup : String → Option String) (tool? home : Option Path) (h : Host σ)
    (s : σ) (cause : Misconfiguration) :
    let run := (Session.invoke args (Toolchain.configure language d lookup tool?) home).run h s
    run.result = .error (.configuration cause) →
      run.commands = [] ∧ run.discards = [] ∧ (∀ stream, run.written stream = "") ∧
      (∀ x ∈ run.events, ∃ path, x.1 = .noted (.buildPath path)) ∧
      ∀ {τ : Type} (view : σ → τ), (∀ n s, view (h.hear (.noted n) s) = view s) →
        view run.final = view s := by
  intro run hresult
  have hidle : run.Idle h s := Session.idle_of_misconfigured args _ home s hresult
  exact ⟨hidle.commands, hidle.discards, hidle.written, hidle.events, hidle.view⟩

/-- The object of the source would be written over the one that came with it; even a host that
would write at every command has its disk as it was. -/
theorem misconfiguration_leaves_no_trace_sample :
    let h := Host.onDisk Toolchain.sampleProducts fun _ => .exited 0
    let configuration := Toolchain.configure .cxx {} (fun _ => none) (some ⟨"/opt/tool"⟩)
    let run := (Session.invoke ["a.cpp", "a.o"] configuration none).run h Disk.sample
    run.result = .error (.configuration (.clash (.input ⟨"a.o"⟩) (.input ⟨"a.cpp"⟩) ⟨"a.o"⟩)) ∧
      (∀ n s, h.hear (.noted n) s = s) ∧ run.commands = [] ∧ run.discards = [] ∧
      (∀ stream, run.written stream = "") ∧ run.final = Disk.sample := by
  intro h configuration run
  have hresult : run.result =
      .error (.configuration (.clash (.input ⟨"a.o"⟩) (.input ⟨"a.cpp"⟩) ⟨"a.o"⟩)) := by
    decide +kernel
  have hlog : ∀ n s, h.hear (.noted n) s = s := fun _ _ => rfl
  obtain ⟨hcommands, hdiscards, hwritten, -, hview⟩ := misconfiguration_leaves_no_trace
    ["a.cpp", "a.o"] .cxx {} (fun _ => none) (some ⟨"/opt/tool"⟩) none h Disk.sample _ hresult
  exact ⟨hresult, hlog, hcommands, hdiscards, hwritten, hview id hlog⟩

end Deglobal
