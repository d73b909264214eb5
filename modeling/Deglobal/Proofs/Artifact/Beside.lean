import Deglobal.Proofs.Artifact.Ordinary

/-! # The files of one source

What is made of a source lies in the directory of the source, whatever the path of
the source looks like, and no file of it is in the way of another one: their names
are told apart by the mark they begin with and by their length. The transform tool
calls what it writes after its own input, which is a preprocessed source, and
arrives at the files that are planned.
-/

namespace Deglobal

namespace Path

theorem apart_of_names (p : Path) {names : List String} (hplain : ∀ n ∈ names, Plain n)
    (hnames : names.Nodup) : Apart (names.map p.sibling) := by
  rw [Apart, locations, List.map_map]
  apply hnames.map_on
  intro n hn m hm hsame
  exact ((sibling_same_iff (hplain n hn) (hplain m hm)).mp hsame).2

end Path

/-! ## Names -/

/-- The names of the files on the way from a source called `name` to its object, where `stem` is
the name without its suffix. -/
def madeNames (name stem : String) : List String :=
  [preprocessedMark ++ name, transformedMark ++ preprocessedMark ++ name,
    companionMark ++ preprocessedMark ++ name ++ ".cpp", transformedMark ++ stem ++ ".o",
    companionMark ++ name ++ ".o"]

section

variable {name stem n : String}

theorem map_mark_madeNames (name stem : String) :
    (madeNames name stem).map (fun n => (markOf? n, n.length)) =
      [(some preprocessedMark, name.length + 3), (some transformedMark, name.length + 7),
        (some companionMark, name.length + 18), (some transformedMark, stem.length + 6),
        (some companionMark, name.length + 13)] := by
  have hlengths : preprocessedMark.length = 3 ∧ transformedMark.length = 4 ∧
      companionMark.length = 11 ∧ ".cpp".length = 4 ∧ ".o".length = 2 := by decide
  obtain ⟨hpreprocessed, htransformed, hcompanion, hcpp, ho⟩ := hlengths
  simp only [madeNames, List.map_cons, List.map_nil, String.append_assoc, String.length_append,
    markOf?_append (by decide : preprocessedMark ∈ madeMarks),
    markOf?_append (by decide : transformedMark ∈ madeMarks),
    markOf?_append (by decide : companionMark ∈ madeMarks)]
  simp only [hpreprocessed, htransformed, hcompanion, hcpp, ho, List.cons.injEq, Prod.mk.injEq,
    true_and, and_true]
  omega

/-- Names that begin with one mark differ in length. -/
theorem nodup_madeNames (hstem : stem.length ≤ name.length) : (madeNames name stem).Nodup := by
  apply List.Nodup.of_map fun n => (markOf? n, n.length)
  rw [map_mark_madeNames]
  have hlength : name.length + 7 ≠ stem.length + 6 := by omega
  simp [preprocessedMark, transformedMark, companionMark, hlength]

theorem length_of_mem_madeNames (hstem : stem.length ≤ name.length)
    (hn : n ∈ madeNames name stem) : stem.length + 3 ≤ n.length := by
  have hmem := List.mem_map_of_mem (f := fun n => (markOf? n, n.length)) hn
  rw [map_mark_madeNames] at hmem
  simp only [List.mem_cons, List.not_mem_nil, or_false, Prod.mk.injEq] at hmem
  omega

end

/-! ## Files -/

namespace Artifact

/-- The files on the way from a source to its object on its own, and that object. -/
def files (a : Artifact) : List Path := a.intermediates ++ [a.mergedObject]

def fileNames (source : Path) : List String :=
  madeNames source.fileName source.fileStem ++ [source.fileStem ++ ".o"]

variable {source file : Path}

theorem files_ofSource (source : Path) :
    (ofSource source).files = (fileNames source).map source.sibling := rfl

theorem plain_fileNames (source : Path) : ∀ n ∈ fileNames source, Path.Plain n := by
  simp only [fileNames, madeNames, List.cons_append, List.nil_append, List.forall_mem_cons]
  exact ⟨plain_preprocessed source, plain_transformedSource source, plain_companionSource source,
    Path.plain_marked_object (by decide) source.no_slash_fileStem,
    Path.plain_marked_object (by decide) source.no_slash_fileName,
    Path.plain_object source.no_slash_fileStem, by simp⟩

/-- The object of a source on its own has the shortest name. -/
theorem nodup_fileNames (source : Path) : (fileNames source).Nodup := by
  have hstem := source.length_fileStem_le
  rw [fileNames, List.nodup_append]
  refine ⟨nodup_madeNames hstem, List.nodup_singleton _, fun n hn m hm heq => ?_⟩
  have hlength : n.length = source.fileStem.length + 2 := by
    rw [heq, List.mem_singleton.mp hm, String.length_append]
    rfl
  have hlonger := length_of_mem_madeNames hstem hn
  omega

theorem apart_files (source : Path) : Path.Apart (ofSource source).files :=
  source.apart_of_names (plain_fileNames source) (nodup_fileNames source)

theorem of_mem_files (hfile : file ∈ (ofSource source).files) :
    file.fileName?.isSome ∧ file.parent.components = source.directory := by
  rw [files_ofSource] at hfile
  obtain ⟨n, hn, rfl⟩ := List.mem_map.mp hfile
  have hplain := plain_fileNames source n hn
  refine ⟨?_, source.components_parent_sibling hplain⟩
  rw [source.fileName?_sibling hplain]
  rfl

/-- The transform tool calls what it writes after its input, which is a preprocessed source, and the
files are the planned ones. All files of a source lie apart. They lie where the source does if it
has a file name, and else in the directory that it is. -/
theorem tool_names_planned_files (source : Path) :
    let a := ofSource source
    (∃ n, a.preprocessed.fileName? = some n ∧
      (a.preprocessed.sibling ("sst." ++ n)).Same a.transformedSource ∧
      (a.preprocessed.sibling ("sstGlobals." ++ n ++ ".cpp")).Same a.companionSource) ∧
    Path.Apart a.files ∧
    (source.fileName?.isSome →
      ∀ file ∈ a.files, file.fileName?.isSome ∧ file.parent.Same source.parent) ∧
    (source.fileName? = none →
      ∀ file ∈ a.files, file.fileName?.isSome ∧ file.parent.Same source) := by
  intro a
  have hname : a.preprocessed.fileName? = some (preprocessedMark ++ source.fileName) :=
    source.fileName?_sibling (plain_preprocessed source)
  have htransformed := transformedBeside_same source
  have hcompanion := companionBeside_same source
  rw [transformedBeside, fileName_preprocessed] at htransformed
  rw [companionBeside, fileName_preprocessed] at hcompanion
  refine ⟨⟨_, hname, htransformed, hcompanion⟩, apart_files source, fun hnamed file hfile => ?_,
    fun hunnamed file hfile => ?_⟩
  · obtain ⟨hsome, hparent⟩ := of_mem_files hfile
    exact ⟨hsome, hparent.trans (Path.directory_of_named hnamed)⟩
  · obtain ⟨hsome, hparent⟩ := of_mem_files hfile
    exact ⟨hsome, hparent.trans (Path.directory_of_unnamed hunnamed)⟩

/-- A hidden source with two suffixes and idle steps around it, and a path that ends in two dots. -/
theorem tool_names_planned_files_sample :
    let hidden := ofSource ⟨"d/.//.a.tar.cpp/."⟩
    let bare := ofSource ⟨"d/.."⟩
    hidden.source.fileName?.isSome ∧ hidden.mergedObject = ⟨"d/.a.tar.o"⟩ ∧
      hidden.mergedObject ∈ hidden.files ∧
      hidden.mergedObject.parent.Same hidden.source.parent ∧
      bare.source.fileName? = none ∧ bare.companionSource = ⟨"d/../sstGlobals.pp..cpp"⟩ ∧
      bare.companionSource ∈ bare.files ∧ bare.companionSource.parent.Same bare.source := by
  intro hidden bare
  have hnamed : hidden.source.fileName?.isSome := by decide
  have hunnamed : bare.source.fileName? = none := by decide
  have hmerged : hidden.mergedObject ∈ hidden.files := List.mem_append_right _ (by simp)
  have hcompanion : bare.companionSource ∈ bare.files := by decide
  obtain ⟨_, _, hbeside, _⟩ := tool_names_planned_files hidden.source
  obtain ⟨_, _, _, hbelow⟩ := tool_names_planned_files bare.source
  exact ⟨hnamed, by decide, hmerged, (hbeside hnamed _ hmerged).2, hunnamed, by decide, hcompanion,
    (hbelow hunnamed _ hcompanion).2⟩

end Artifact

end Deglobal
