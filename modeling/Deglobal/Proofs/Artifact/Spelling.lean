import Deglobal.Proofs.Artifact.Clash
import Deglobal.Proofs.Path.Names
import Deglobal.Request.Classify

/-! # Two spellings of one file

A relative path may be written with a dot at its beginning, which names the same
file and makes other components of it. Planning tells files apart by their
components, so it accepts one file under two spellings. That is all it lets
through: once the dot is dropped, two planned files fall together exactly if one
is the other with a dot before it, and a build whose files are all named in one
way has none of those.
-/

namespace Deglobal

namespace Path

def Dotted (p : Path) : Prop := p.components.head? = some .here

instance (p : Path) : Decidable p.Dotted := inferInstanceAs (Decidable (_ = _))

/-- The components of a path but for dots. -/
def undotted (p : Path) : Location := p.components.filter (· != .here)

variable {p q : Path}

/-! ## Where a dot can stand -/

theorem component?_ne (piece : List Char) :
    component? piece ≠ some .here ∧ component? piece ≠ some .root := by
  unfold component?
  split
  · simp
  · split <;> simp

theorem ne_of_mem_steps {cs : List Char} {c : Component}
    (hc : c ∈ (cs.splitOn '/').filterMap component?) : c ≠ .here ∧ c ≠ .root := by
  obtain ⟨piece, _, hpiece⟩ := List.mem_filterMap.mp hc
  have hne := component?_ne piece
  rw [hpiece] at hne
  exact ⟨fun h => hne.1 (congrArg some h), fun h => hne.2 (congrArg some h)⟩

theorem here_notMem_undotted (p : Path) : .here ∉ p.undotted := by
  simp [undotted]

/-- A dot stands at the beginning of a relative path or nowhere. -/
theorem components_cases (p : Path) :
    p.components = .here :: p.undotted ∧ p.undotted.head? ≠ some .root ∨
      p.components = p.undotted := by
  have hsteps : ∀ c ∈ (p.text.toList.splitOn '/').filterMap component?, c ≠ .here ∧ c ≠ .root :=
    fun c hc => ne_of_mem_steps hc
  have hkept : ((p.text.toList.splitOn '/').filterMap component?).filter (· != .here) =
      (p.text.toList.splitOn '/').filterMap component? := by
    apply List.filter_eq_self.mpr
    intro c hc
    simpa using (hsteps c hc).1
  unfold undotted
  rw [components_eq, read, List.filter_append, hkept, anchorOf]
  split
  · right
    rfl
  · split
    · left
      refine ⟨rfl, fun hroot => ?_⟩
      exact (hsteps _ (List.mem_of_mem_head? hroot)).2 rfl
    · right
      rfl

theorem Dotted.components (hp : p.Dotted) :
    p.components = .here :: p.undotted ∧ p.undotted.head? ≠ some .root := by
  rcases p.components_cases with hdot | hplain
  · exact hdot
  · have hmem : .here ∈ p.components := List.mem_of_mem_head? hp
    rw [hplain] at hmem
    exact absurd hmem p.here_notMem_undotted

theorem components_of_not_dotted (hp : ¬ p.Dotted) : p.components = p.undotted := by
  rcases p.components_cases with ⟨hdot, _⟩ | hplain
  · have hhead : p.Dotted := congrArg List.head? hdot
    exact absurd hhead hp
  · exact hplain

/-- Paths that differ by dots only are the same, or one is the other with a dot before it. -/
theorem undotted_eq_iff : p.undotted = q.undotted ↔
    p.Same q ∨ p.components = .here :: q.components ∨ q.components = .here :: p.components := by
  constructor
  · intro heq
    by_cases hp : p.Dotted <;> by_cases hq : q.Dotted
    · left
      rw [Same, hp.components.1, hq.components.1, heq]
    · right; left
      rw [hp.components.1, components_of_not_dotted hq, heq]
    · right; right
      rw [hq.components.1, components_of_not_dotted hp, heq]
    · left
      rw [Same, components_of_not_dotted hp, components_of_not_dotted hq, heq]
  · rintro (heq | heq | heq)
    · rw [undotted, undotted, heq]
    · simp [undotted, heq]
    · simp [undotted, heq]

theorem head?_of_isAbsolute (hp : p.isAbsolute = true) : p.components.head? = some .root := by
  obtain ⟨rest, hrest⟩ : ∃ rest, p.text.toList = '/' :: rest := by
    unfold isAbsolute at hp
    cases htext : p.text.toList with
    | nil => simp [htext] at hp
    | cons c rest =>
        rw [htext] at hp
        have hc : '/' = c := by simpa using hp
        exact ⟨rest, by rw [hc]⟩
  rw [components_eq, hrest, read_separator]
  rfl

/-! ## Siblings -/

theorem head?_append_name (before : List Component) (n : String) {c : Component}
    (hc : ∀ n, c ≠ .name n) :
    (before ++ [Component.name n]).head? = some c ↔ before.head? = some c := by
  cases before with
  | nil => simpa using (hc n).symm
  | cons first others => rfl

theorem head?_sibling (p : Path) {n : String} (hn : Plain n) {c : Component}
    (hc : ∀ n, c ≠ .name n) :
    (p.sibling n).components.head? = some c ↔ p.components.head? = some c := by
  rw [components_sibling p hn, head?_append_name _ n hc]
  unfold directory
  split
  · rename_i hname
    obtain ⟨m, hlast⟩ := getLast?_of_fileName? hname
    obtain ⟨before, hcomponents⟩ := List.getLast?_eq_some_iff.mp hlast
    rw [hcomponents, List.dropLast_concat, head?_append_name before m hc]
  · rfl

end Path

/-! ## Planned files -/

def MadeBeside (q p : Path) : Prop := ∃ n, Path.Plain n ∧ p = q.sibling n

theorem madeBeside_object {q : Path} (mark : String) {n : String} (hmark : '/' ∉ mark.toList)
    (hn : '/' ∉ n.toList) : MadeBeside q (q.sibling (mark ++ n ++ ".o")) :=
  ⟨_, Path.plain_marked_object hmark hn, rfl⟩

theorem madeBeside_objectBeside (q : Path) : MadeBeside q (objectBeside q) :=
  ⟨_, Path.plain_object q.no_slash_fileStem, rfl⟩

theorem Artifact.madeBeside_intermediates {source object p : Path}
    (hobject : MadeBeside source object)
    (hp : p ∈ { ofSource source with transformedObject := object }.intermediates) :
    MadeBeside source p := by
  simp only [intermediates, sourceFiles, mergeInputs, List.cons_append, List.nil_append,
    List.mem_cons, List.not_mem_nil, or_false] at hp
  rcases hp with rfl | rfl | rfl | rfl | rfl
  · exact ⟨_, plain_preprocessed source, rfl⟩
  · exact ⟨_, plain_transformedSource source, rfl⟩
  · exact ⟨_, plain_companionSource source, rfl⟩
  · exact hobject
  · exact madeBeside_object companionMark (by decide) source.no_slash_fileName

namespace Request

variable {r : Request} {plan : MergePlan} {p : Path}

theorem madeBeside_of_source {source : Path}
    (hp : p ∈ Artifact.produced plan (r.artifactOf source)) : MadeBeside source p := by
  have hobject : MadeBeside source (r.artifactOf source).transformedObject := by
    rw [transformedObject_artifactOf]
    split
    · exact madeBeside_object transformedMark (by decide) source.no_slash_fileName
    · exact madeBeside_object transformedMark (by decide) source.no_slash_fileStem
  rcases List.mem_append.mp hp with hp | hp
  · rw [artifactOf_eq_ofSource] at hp
    exact Artifact.madeBeside_intermediates hobject hp
  · cases plan with
    | perSource =>
        rw [List.mem_singleton.mp hp, mergedObject_artifactOf]
        exact madeBeside_objectBeside source
    | consolidated target => cases hp

theorem madeBeside_of_assembly (plan : MergePlan) (file : Path) :
    MadeBeside file (assemblyObject plan file) := by
  cases plan with
  | perSource => exact madeBeside_objectBeside file
  | consolidated target =>
      exact madeBeside_object assemblyMark (by decide) file.no_slash_fileName

/-- What a plan makes is its target or lies beside an input. -/
theorem produced_cases (hp : p ∈ r.produced plan) :
    plan.target? = some p ∨ ∃ q ∈ r.inputs, MadeBeside q p := by
  rcases List.mem_append.mp hp with hp | hp
  · right
    rcases List.mem_append.mp hp with hp | hp
    · obtain ⟨a, ha, hp⟩ := List.mem_flatMap.mp hp
      obtain ⟨source, hsource, rfl⟩ := List.mem_map.mp ha
      have hinput : source ∈ r.inputs :=
        List.mem_append_left _ (List.mem_append_left _ hsource)
      exact ⟨source, hinput, madeBeside_of_source hp⟩
    · obtain ⟨file, hfile, rfl⟩ := List.mem_map.mp hp
      exact ⟨file, assembly_mem_inputs hfile, madeBeside_of_assembly plan file⟩
  · left
    exact Option.mem_toList.mp hp

/-- A planned file begins as some file does that the request names. -/
theorem exists_named (hp : p ∈ r.inputs ++ r.produced plan) :
    ∃ q ∈ r.inputs ++ plan.target?.toList, ∀ c, (∀ n, c ≠ .name n) →
      (p.components.head? = some c ↔ q.components.head? = some c) := by
  rcases List.mem_append.mp hp with hp | hp
  · exact ⟨p, List.mem_append_left _ hp, fun _ _ => Iff.rfl⟩
  · rcases produced_cases hp with htarget | ⟨q, hq, n, hn, rfl⟩
    · have hmem : p ∈ plan.target?.toList := Option.mem_toList.mpr htarget
      exact ⟨p, List.mem_append_right _ hmem, fun _ _ => Iff.rfl⟩
    · exact ⟨q, List.mem_append_left _ hq, fun c hc => Path.head?_sibling q hn hc⟩

end Request

namespace Path

variable {files : List Path}

/-- Files that lie apart do so without their dots, unless one is another with a dot before it. -/
theorem Apart.undotted_iff (hfiles : Apart files) : (files.map undotted).Nodup ↔
    ∀ p ∈ files, ∀ q ∈ files, p.components ≠ .here :: q.components := by
  constructor
  · intro hnodup p hp q hq heq
    have hsame : p = q := List.inj_on_of_nodup_map hnodup hp hq
      (undotted_eq_iff.mpr (Or.inr (Or.inl heq)))
    rw [hsame] at heq
    exact List.cons_ne_self _ _ heq.symm
  · intro hnone
    have hdistinct : files.Nodup := List.Nodup.of_map components hfiles
    apply hdistinct.map_on
    intro p hp q hq heq
    rcases undotted_eq_iff.mp heq with hsame | hdot | hdot
    · exact List.inj_on_of_nodup_map hfiles hp hq hsame
    · exact absurd hdot (hnone p hp q hq)
    · exact absurd hdot (hnone q hq p hp)

theorem of_components_eq_here_cons {p q : Path} (heq : p.components = .here :: q.components) :
    p.Dotted ∧ ¬ q.Dotted ∧ q.components.head? ≠ some .root := by
  have hp : p.Dotted := congrArg List.head? heq
  obtain ⟨hcomponents, hroot⟩ := hp.components
  have hq : q.components = p.undotted := (List.cons.inj (heq.symm.trans hcomponents)).2
  refine ⟨hp, fun hdotted => ?_, hq ▸ hroot⟩
  have hmem : .here ∈ p.undotted := hq ▸ List.mem_of_mem_head? hdotted
  exact p.here_notMem_undotted hmem

end Path

/-- The files of an accepted build are different files, dots or not, unless one of them is another
with a dot before it. There is none such if the files that the request names are all written without
a dot at their beginning, or all of them with one or as absolute paths. -/
theorem planned_files_distinct {r : Request} {plan : MergePlan} {artifacts : List Artifact}
    (hplan : r.planArtifacts plan = .ok artifacts) :
    let files := r.inputs ++ r.produced plan
    let named := r.inputs ++ plan.target?.toList
    ((files.map Path.undotted).Nodup ↔
      ∀ p ∈ files, ∀ q ∈ files, p.components ≠ .here :: q.components) ∧
    ((∀ p ∈ named, ¬ p.Dotted) ∨ (∀ p ∈ named, p.Dotted ∨ p.isAbsolute = true) →
      (files.map Path.undotted).Nodup) := by
  intro files named
  have hiff := (Request.planArtifacts_ok_iff.mp hplan).2.undotted_iff
  refine ⟨hiff, fun huniform => hiff.mpr fun p hp q hq heq => ?_⟩
  obtain ⟨hdotted, hplain, hrelative⟩ := Path.of_components_eq_here_cons heq
  rcases huniform with hnone | hall
  · obtain ⟨x, hx, hbegin⟩ := Request.exists_named hp
    exact hnone x hx ((hbegin .here (fun _ h => by cases h)).mp hdotted)
  · obtain ⟨x, hx, hbegin⟩ := Request.exists_named hq
    rcases hall x hx with hdot | habsolute
    · exact hplain ((hbegin .here (fun _ h => by cases h)).mpr hdot)
    · have hroot := Path.head?_of_isAbsolute habsolute
      exact hrelative ((hbegin .root (fun _ h => by cases h)).mpr hroot)

/-- Sources of one stem, one of them with an idle dot, and a file for each of the other inputs. -/
theorem planned_files_distinct_sample :
    let r : Request := {
      sources := [⟨"a.c"⟩, ⟨"d/./a.c"⟩, ⟨"a.cpp"⟩],
      assembly := [⟨"start.S"⟩], objects := [⟨"x.o"⟩] }
    let plan := MergePlan.consolidated ⟨"out/sstmerged.prog.o"⟩
    r.planArtifacts plan = .ok r.artifacts ∧
      (∀ p ∈ r.inputs ++ plan.target?.toList, ¬ p.Dotted) ∧
      ((r.inputs ++ r.produced plan).map Path.undotted).Nodup := by
  intro r plan
  have hplan : r.planArtifacts plan = .ok r.artifacts :=
    Request.planArtifacts_ok_iff.mpr ⟨rfl, by decide⟩
  have hnone : ∀ p ∈ r.inputs ++ plan.target?.toList, ¬ p.Dotted := by decide
  exact ⟨hplan, hnone, (planned_files_distinct hplan).2 (Or.inl hnone)⟩

/-- One source under two spellings is accepted, and all files of the one are those of the other. -/
theorem one_source_planned_twice :
    let r : Request := { sources := [⟨"a.cpp"⟩, ⟨"./a.cpp"⟩], controlArgs := ["-c"] }
    classify ["a.cpp", "./a.cpp", "-c"] = .ok (.build r) ∧
      BuildPath.compilePlan r = .perSource ∧
      r.planArtifacts .perSource = .ok r.artifacts ∧
      ¬ ((r.inputs ++ r.produced .perSource).map Path.undotted).Nodup ∧
      ∃ a b, r.artifacts = [a, b] ∧
        a.intermediates.map Path.undotted = b.intermediates.map Path.undotted ∧
        a.mergedObject.undotted = b.mergedObject.undotted := by
  intro r
  have hplan : r.planArtifacts .perSource = .ok r.artifacts :=
    Request.planArtifacts_ok_iff.mpr ⟨rfl, by decide⟩
  have hshared : ¬ ((r.inputs ++ r.produced .perSource).map Path.undotted).Nodup := by decide
  exact ⟨rfl, rfl, hplan, hshared, _, _, rfl, by decide, by decide⟩

end Deglobal
