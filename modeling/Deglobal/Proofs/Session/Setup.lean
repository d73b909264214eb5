import Deglobal.Proofs.Failure
import Deglobal.Proofs.Request.Endings
import Deglobal.Session

/-! # What can be wrong before the first command

Arguments are sorted, a toolchain is loaded and the files of a build are planned
before anything is launched. Each of these can fail, and never with a failure of
a command.
-/

namespace Deglobal

theorem Request.setupOnly_ofCleanArgs (r : Request) (args : List String) :
    SetupOnly (r.ofCleanArgs args) := by
  fun_induction Request.ofCleanArgs r args with
  | case1 r => exact .ok r
  | case2 r a hkind => exact .error rfl
  | case3 r a hkind operand rest ih => exact ih
  | case4 r a rest kind hkind ih => exact ih

theorem Request.setupOnly_checked (r : Request) : SetupOnly r.checked := by
  unfold checked
  split
  · exact .error rfl
  · exact .ok r

theorem setupOnly_classify (args : List String) : SetupOnly (classify args) := by
  unfold classify
  split
  · exact .ok _
  · exact (Request.setupOnly_ofCleanArgs _ _).bind fun r => r.setupOnly_checked.bind fun _ => .ok _

theorem Request.setupOnly_planArtifacts (r : Request) (plan : MergePlan) :
    SetupOnly (r.planArtifacts plan) := by
  unfold planArtifacts
  split
  · exact .error rfl
  · exact .ok _

theorem Toggles.setupOnly_read (lookup : String → Option String) (setting : String)
    (default : Bool) : SetupOnly (read lookup setting default) := by
  unfold read
  split
  · exact .ok _
  · split
    · exact .ok _
    · exact .error rfl

theorem Toggles.setupOnly_ofLookup (lookup : String → Option String) :
    SetupOnly (ofLookup lookup) :=
  (setupOnly_read _ _ _).bind fun _ => (setupOnly_read _ _ _).bind fun _ =>
    (setupOnly_read _ _ _).bind fun _ => (setupOnly_read _ _ _).bind fun _ => .ok _

theorem Directories.setupOnly_ofDescription (d : Description) :
    SetupOnly (ofDescription d) := by
  have hsettled : ∀ name value, SetupOnly (settled name value) := by
    intro name value
    unfold settled
    split
    · exact .error rfl
    · exact .ok _
  exact (hsettled _ _).bind fun _ => (hsettled _ _).bind fun _ => (hsettled _ _).bind fun _ => .ok _

namespace Toolchain

variable {probe : Probe Id}

theorem setupOnly_readDescription (file : Path) :
    SetupOnly (Id.run (readDescription probe file)) := by
  unfold readDescription
  generalize probe.readText file = answer
  cases answer with
  | error e => exact .error rfl
  | ok text =>
      dsimp only [bind, Id.run]
      cases Description.ofText text with
      | ok d => exact .ok d
      | error fault => exact .error rfl

theorem setupOnly_findDescription : SetupOnly (Id.run (findDescription probe)) := by
  unfold findDescription
  generalize probe.lookup descriptionVariable = named
  cases named with
  | some file => exact setupOnly_readDescription _
  | none =>
      cases hself : probe.self? with
      | none => exact .ok _
      | some program =>
          dsimp only
          generalize probe.isFile (Description.besides program) = found
          cases found with
          | true => exact setupOnly_readDescription _
          | false => exact .ok _

/-- Loading step by step, with a probe that answers from a value. -/
theorem load_eq (probe : Probe Id) (language : Language) :
    Id.run (load probe language) = (do
      let d ← Id.run (findDescription probe)
      let toggles ← Toggles.ofLookup probe.lookup
      let directories ← Directories.ofDescription d
      return assemble language d directories toggles (Id.run (findTool probe d directories))) := by
  have htoggles : findToggles probe = Toggles.ofLookup probe.lookup := rfl
  unfold load
  rw [htoggles]
  generalize findDescription probe = found
  cases found with
  | error e => rfl
  | ok d =>
      cases Toggles.ofLookup probe.lookup with
      | error e => rfl
      | ok toggles =>
          dsimp only [bind, Id.run, Except.bind]
          cases Directories.ofDescription d with
          | error e => rfl
          | ok directories => rfl

theorem setupOnly_load (probe : Probe Id) (language : Language) :
    SetupOnly (Id.run (load probe language)) := by
  rw [load_eq]
  exact setupOnly_findDescription.bind fun _ => (Toggles.setupOnly_ofLookup _).bind fun _ =>
    (Directories.setupOnly_ofDescription _).bind fun _ => .ok _

theorem parallel_of_load {probe : Probe Id} {language : Language} {t : Toolchain}
    (hload : Id.run (load probe language) = .ok t) :
    Toggles.read probe.lookup Toggles.parallelVariable false = .ok t.toggles.parallel := by
  rw [load_eq] at hload
  simp only [Failure.bind_eq_ok] at hload
  obtain ⟨d, _, toggles, htoggles, directories, _, ht⟩ := hload
  simp only [Toggles.ofLookup, Failure.bind_eq_ok] at htoggles
  obtain ⟨_, _, _, _, _, _, parallel, hparallel, heq⟩ := htoggles
  cases heq
  cases ht
  exact hparallel

end Toolchain

end Deglobal
