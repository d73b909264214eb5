import Deglobal.Proofs.Artifact.Clash
import Deglobal.Proofs.Artifact.Spelling
import Deglobal.Proofs.Request.Endings

/-! # Ordinary builds are accepted

All files on the way from a source to its objects have names that begin with a
mark, and so do the objects of assembly files that are merged with others. What a
name begins with, and whether it ends like an object's, tells what the file was
made for, and what follows the mark tells what it was made from. Inputs whose own
names begin otherwise are therefore in the way of no such file, and what is left
to clash is what lies beside the inputs without a mark.
-/

namespace Deglobal

/-! ## Marks -/

/-- What the names of files begin with that are made on the way to an object. -/
def madeMarks : List String :=
  [preprocessedMark, transformedMark, companionMark, assemblyMark]

def markOf? (n : String) : Option String := madeMarks.find? (Text.begins n)

/-- What is told from a name: its mark, and whether it ends like an object's. -/
def shape (n : String) : Option String × Bool := (markOf? n, Text.ends n objectEnding)

def Path.Unmarked (p : Path) : Prop := ∀ mark ∈ madeMarks, Text.begins p.fileName mark = false

instance (p : Path) : Decidable p.Unmarked := inferInstanceAs (Decidable (∀ _ ∈ _, _))

theorem Text.begins_iff {s start : String} :
    Text.begins s start = true ↔ start.toList <+: s.toList := List.isPrefixOf_iff_prefix

theorem markOf?_append {mark : String} (hmark : mark ∈ madeMarks) (n : String) :
    markOf? (mark ++ n) = some mark := by
  have hself : Text.begins (mark ++ n) mark = true := by
    rw [Text.begins_iff, String.toList_append]
    exact List.prefix_append _ _
  have happart : ∀ m ∈ madeMarks, ∀ m' ∈ madeMarks, m.toList <+: m'.toList → m = m' := by decide
  have hfound : (markOf? (mark ++ n)).isSome := List.find?_isSome.mpr ⟨mark, hmark, hself⟩
  obtain ⟨found, hfound⟩ := Option.isSome_iff_exists.mp hfound
  have hmem : found ∈ madeMarks := List.mem_of_find?_eq_some hfound
  have hbegins := Text.begins_iff.mp (List.find?_some hfound)
  rcases List.prefix_or_prefix_of_prefix hbegins (Text.begins_iff.mp hself) with h | h
  · rw [hfound, happart found hmem mark hmark h]
  · rw [hfound, happart mark hmark found hmem h]

theorem Path.Unmarked.markOf?_eq {p : Path} (hp : p.Unmarked) : markOf? p.fileName = none := by
  rw [markOf?, List.find?_eq_none]
  intro mark hmark
  simp [hp mark hmark]

theorem markOf?_object {n : String} (hdot : '.' ∈ n.toList)
    (hn : ∀ mark ∈ madeMarks, Text.begins n mark = false) :
    markOf? (Path.stemOf n ++ ".o") = none := by
  have hhead : ∀ mark ∈ madeMarks, ∃ c, mark.toList.head? = some c ∧ c ≠ '.' := by
    simp [madeMarks, preprocessedMark, transformedMark, companionMark, assemblyMark]
  have hlast : ∀ mark ∈ madeMarks, mark.toList.getLast? = some '.' := by decide
  rw [markOf?, List.find?_eq_none]
  intro mark hmark hbegins
  have hprefix := Text.begins_iff.mp hbegins
  rw [String.toList_append] at hprefix
  rcases Path.stemOf_cases n with ⟨hstem, hleads⟩ | ⟨suffix, hname⟩
  · -- The name's only dot leads it, and no mark begins with a dot.
    obtain ⟨c, hfirst, hc⟩ := hhead mark hmark
    obtain ⟨chars, hname⟩ := List.head?_eq_some_iff.mp (hleads hdot)
    obtain ⟨others, hchars⟩ := List.head?_eq_some_iff.mp hfirst
    rw [hstem, hname, hchars, List.cons_append] at hprefix
    exact hc (List.cons_prefix_cons.mp hprefix).1
  · have hsplit : (Path.stemOf n).toList ++ ".o".toList =
        ((Path.stemOf n).toList ++ ['.']) ++ ['o'] := by simp
    rw [hsplit, List.prefix_concat_iff] at hprefix
    rcases hprefix with hwhole | hpart
    · have hend := hlast mark hmark
      rw [hwhole] at hend
      simp at hend
    · have hfull : mark.toList <+: n.toList := by
        rw [hname]
        exact hpart.trans (by simp)
      have := hn mark hmark
      rw [Text.begins_iff.mpr hfull] at this
      cases this

/-! ## Files that lie apart -/

namespace Path

variable {files others : List Path}

theorem apart_append_of_not_same (hfiles : Apart files) (hothers : Apart others)
    (hcross : ∀ p ∈ files, ∀ q ∈ others, ¬ p.Same q) : Apart (files ++ others) := by
  refine apart_append.mpr ⟨hfiles, hothers, fun l hl hl' => ?_⟩
  obtain ⟨p, hp, rfl⟩ := mem_locations_iff.mp hl
  obtain ⟨q, hq, hsame⟩ := mem_locations_iff.mp hl'
  exact hcross p hp q hq hsame.symm

theorem not_same_of_shape {p q : Path} (h : shape p.fileName ≠ shape q.fileName) : ¬ p.Same q :=
  fun hsame => h (congrArg shape hsame.fileName_eq)

theorem not_same_of_mark {p q : Path} (h : markOf? p.fileName ≠ markOf? q.fileName) : ¬ p.Same q :=
  fun hsame => h (congrArg markOf? hsame.fileName_eq)

theorem Apart.map (hfiles : Apart files) {f : Path → Path}
    (hf : ∀ p ∈ files, ∀ q ∈ files, ¬ p.Same q → ¬ (f p).Same (f q)) : Apart (files.map f) := by
  have hdistinct : files.Nodup := List.Nodup.of_map components hfiles
  rw [Apart, locations, List.map_map]
  apply hdistinct.map_on
  intro p hp q hq heq
  by_contra hne
  exact hf p hp q hq (fun hsame => hne (List.inj_on_of_nodup_map hfiles hp hq hsame)) heq

/-- Siblings that are named after the files they lie beside lie apart like those. -/
theorem Apart.siblings (hfiles : Apart files) (hnamed : ∀ p ∈ files, p.fileName?.isSome)
    {name : String → String} (hname : Function.Injective name)
    (hplain : ∀ p : Path, Plain (name p.fileName)) :
    Apart (files.map fun p => p.sibling (name p.fileName)) := by
  apply hfiles.map
  intro p hp q hq hne hsame
  obtain ⟨hdirectory, heq⟩ := (sibling_same_iff (hplain p) (hplain q)).mp hsame
  exact hne ((same_iff_of_fileName? (hnamed p hp) (hnamed q hq)).mpr ⟨hdirectory, hname heq⟩)

/-- Files made of several owners lie apart if those of each role do and roles differ in shape. -/
theorem apart_of_roles {α : Type} {owners : List α}
    {roles : List ((α → Path) × (Option String × Bool))} (hshapes : (roles.map Prod.snd).Nodup)
    (hroles : ∀ x ∈ roles, (∀ a ∈ owners, shape (x.1 a).fileName = x.2) ∧
      Apart (owners.map x.1)) :
    Apart (owners.flatMap fun a => roles.map fun x => x.1 a) := by
  induction roles with
  | nil =>
      have hnone : (owners.flatMap fun _ => ([] : List Path)) = [] :=
        List.flatMap_eq_nil_iff.mpr fun _ _ => rfl
      simp [hnone, Apart]
  | cons x rest ih =>
      obtain ⟨hx, hrest⟩ := List.nodup_cons.mp hshapes
      obtain ⟨hshape, hapart⟩ := hroles x List.mem_cons_self
      have hothers := ih hrest fun y hy => hroles y (List.mem_cons_of_mem x hy)
      have hperm := List.flatMap_append_perm owners (fun a => [x.1 a])
        fun a => rest.map fun y => y.1 a
      rw [← List.map_eq_flatMap] at hperm
      refine (hperm.map components).nodup_iff.mp (apart_append_of_not_same hapart hothers ?_)
      intro p hp q hq
      obtain ⟨a, ha, rfl⟩ := List.mem_map.mp hp
      obtain ⟨b, hb, hq⟩ := List.mem_flatMap.mp hq
      obtain ⟨y, hy, rfl⟩ := List.mem_map.mp hq
      apply not_same_of_shape
      rw [hshape a ha, (hroles y (List.mem_cons_of_mem x hy)).1 b hb]
      exact fun heq => hx (List.mem_map.mpr ⟨y, hy, heq.symm⟩)

end Path

/-! ## What is made of a source -/

/-- The files on the way from a source to its object, each with what its name tells. -/
def madeRoles : List ((Artifact → Path) × (Option String × Bool)) :=
  [(Artifact.preprocessed, some preprocessedMark, false),
    (Artifact.transformedSource, some transformedMark, false),
    (Artifact.companionSource, some companionMark, false),
    (Artifact.transformedObject, some transformedMark, true),
    (Artifact.companionObject, some companionMark, true)]

theorem shape_append {mark : String} (hmark : mark ∈ madeMarks) (n : String) :
    shape (mark ++ n) = (some mark, Text.ends (mark ++ n) objectEnding) := by
  rw [shape, markOf?_append hmark]

def EndsLikeSource (n : String) : Prop := ∃ e ∈ sourceEndings, Text.ends n e = true

theorem EndsLikeSource.append {n : String} (hn : EndsLikeSource n) (start : String) :
    EndsLikeSource (start ++ n) := by
  obtain ⟨e, he, hends⟩ := hn
  exact ⟨e, he, Text.ends_append hends start⟩

theorem EndsLikeSource.not_object {n : String} (hn : EndsLikeSource n) :
    Text.ends n objectEnding = false := by
  have hother : ∀ e ∈ sourceEndings,
      ¬ e.toList <:+ objectEnding.toList ∧ ¬ objectEnding.toList <:+ e.toList := by decide
  obtain ⟨e, he, hends⟩ := hn
  exact Text.not_ends hends (hother e he)

namespace Request

variable {r : Request}

/-- A role whose files lie beside the sources, with a mark before what they are called after. -/
theorem role_of_mark (hsources : Path.Apart r.sources)
    (hnamed : ∀ s ∈ r.sources, s.fileName?.isSome) {mark : String} (hmark : mark ∈ madeMarks)
    (file : Artifact → Path) (name : String → String) (hname : Function.Injective name)
    (hplain : ∀ s : Path, Path.Plain (mark ++ name s.fileName))
    (hfile : ∀ s, file (r.artifactOf s) = s.sibling (mark ++ name s.fileName)) {isObject : Bool}
    (hends : ∀ s ∈ r.sources, Text.ends (mark ++ name s.fileName) objectEnding = isObject) :
    (∀ a ∈ r.artifacts, shape (file a).fileName = (some mark, isObject)) ∧
      Path.Apart (r.artifacts.map file) := by
  constructor
  · intro a ha
    obtain ⟨s, hs, rfl⟩ := List.mem_map.mp ha
    rw [hfile, Path.fileName_sibling s (hplain s), shape_append hmark, hends s hs]
  · have hfiles : r.artifacts.map file =
        r.sources.map fun s => s.sibling (mark ++ name s.fileName) := by
      simp [artifacts, Function.comp_def, hfile]
    have hinjective : Function.Injective fun n => mark ++ name n := fun n m h =>
      hname (by simpa using h)
    have hsiblings := hsources.siblings hnamed hinjective hplain
    rwa [hfiles]

theorem plain_transformedObject {n : String} (hn : '/' ∉ n.toList) :
    Path.Plain (transformedMark ++ n ++ ".o") :=
  Path.plain_marked_object (by decide) hn

theorem stemObject_same_iff {s s' : Path} : (stemObject s).Same (stemObject s') ↔
    s.directory = s'.directory ∧ s.fileStem = s'.fileStem := by
  have hs := plain_transformedObject s.no_slash_fileStem
  have hs' := plain_transformedObject s'.no_slash_fileStem
  show (s.sibling (transformedMark ++ s.fileStem ++ ".o")).Same
    (s'.sibling (transformedMark ++ s'.fileStem ++ ".o")) ↔ _
  rw [Path.sibling_same_iff hs hs']
  simp

theorem one_lt_stemUses {s s' : Path} (hs : s ∈ r.sources) (hs' : s' ∈ r.sources) (hne : s' ≠ s)
    (hsame : (stemObject s').Same (stemObject s)) : 1 < r.stemUses (stemObject s) := by
  obtain ⟨i, hi, rfl⟩ := List.getElem_of_mem hs
  obtain ⟨j, hj, rfl⟩ := List.getElem_of_mem hs'
  refine (one_lt_stemUses_iff hi).mpr ⟨⟨j, hj⟩, fun h => hne ?_, hsame⟩
  simp only at h
  simp [h]

/-- Transformed objects lie apart unless one is called after a stem that is the full name of a
source which is called after its full name. -/
theorem apart_transformedObjects (hsources : Path.Apart r.sources)
    (hnamed : ∀ s ∈ r.sources, s.fileName?.isSome)
    (hfull : ∀ s ∈ r.sources, ∀ s' ∈ r.sources, ¬ s.Same s' → s.directory = s'.directory →
      s.fileStem = s'.fileName → ¬ 1 < r.stemUses (stemObject s')) :
    Path.Apart (r.artifacts.map Artifact.transformedObject) := by
  have hfiles : r.artifacts.map Artifact.transformedObject =
      r.sources.map fun s => (r.artifactOf s).transformedObject := by
    simp [artifacts, Function.comp_def]
  rw [hfiles]
  apply hsources.map
  intro p hp q hq hne
  have hdiffer : ¬ (p.directory = q.directory ∧ p.fileName = q.fileName) :=
    fun h => hne ((Path.same_iff_of_fileName? (hnamed p hp) (hnamed q hq)).mpr h)
  have hpname := plain_transformedObject p.no_slash_fileName
  have hqname := plain_transformedObject q.no_slash_fileName
  have hpstem := plain_transformedObject p.no_slash_fileStem
  have hqstem := plain_transformedObject q.no_slash_fileStem
  rw [transformedObject_artifactOf, transformedObject_artifactOf]
  -- Each of the two is called after its full name or after its stem.
  split <;> rename_i hpshared <;> split <;> rename_i hqshared <;> intro hsame
  · rw [Path.sibling_same_iff hpname hqname] at hsame
    exact hdiffer (by simpa using hsame)
  · obtain ⟨hdirectory, hname⟩ := (Path.sibling_same_iff hpname hqstem).mp hsame
    exact hfull q hq p hp (fun h => hne h.symm) hdirectory.symm (by simpa using hname.symm) hpshared
  · obtain ⟨hdirectory, hname⟩ := (Path.sibling_same_iff hpstem hqname).mp hsame
    exact hfull p hp q hq hne hdirectory (by simpa using hname) hqshared
  · exact hpshared (one_lt_stemUses hp hq (fun h => hne (by rw [h]; rfl)) hsame.symm)

theorem shape_transformedObject (r : Request) (s : Path) :
    shape (r.artifactOf s).transformedObject.fileName = (some transformedMark, true) := by
  have hshape : ∀ n, shape (transformedMark ++ n ++ ".o") = (some transformedMark, true) := by
    intro n
    have hends : Text.ends (transformedMark ++ (n ++ ".o")) objectEnding = true :=
      Text.ends_append (Text.ends_append_self n ".o") transformedMark
    rw [String.append_assoc, shape_append (by decide), hends]
  rw [transformedObject_artifactOf]
  split
  · rw [Path.fileName_sibling s (plain_transformedObject s.no_slash_fileName), hshape]
  · have hname := Path.fileName_sibling s (plain_transformedObject s.no_slash_fileStem)
    exact (congrArg shape hname).trans (hshape s.fileStem)

/-- Every role has one shape for all sources, and its files lie apart if the transformed objects
do. -/
theorem roles_of_sources (hsources : Path.Apart r.sources)
    (hnamed : ∀ s ∈ r.sources, s.fileName?.isSome)
    (hends : ∀ s ∈ r.sources, EndsLikeSource s.fileName)
    (hobjects : Path.Apart (r.artifacts.map Artifact.transformedObject)) :
    ∀ x ∈ madeRoles, (∀ a ∈ r.artifacts, shape (x.1 a).fileName = x.2) ∧
      Path.Apart (r.artifacts.map x.1) := by
  have hcpp : ∀ n, EndsLikeSource (n ++ ".cpp") := fun n =>
    ⟨".cpp", by decide, Text.ends_append_self n ".cpp"⟩
  have hpreprocessed := role_of_mark hsources hnamed (by decide : preprocessedMark ∈ madeMarks)
    Artifact.preprocessed id Function.injective_id Artifact.plain_preprocessed
    (fun s => by rw [artifactOf_eq_ofSource]; rfl)
    (fun s hs => ((hends s hs).append preprocessedMark).not_object)
  have htransformed := role_of_mark hsources hnamed (by decide : transformedMark ∈ madeMarks)
    Artifact.transformedSource (preprocessedMark ++ ·) (fun n m h => by simpa using h)
    (fun s => by simpa only [String.append_assoc] using Artifact.plain_transformedSource s)
    (fun s => by rw [artifactOf_eq_ofSource, ← String.append_assoc]; rfl)
    (fun s hs => (((hends s hs).append preprocessedMark).append transformedMark).not_object)
  have hcompanion := role_of_mark hsources hnamed (by decide : companionMark ∈ madeMarks)
    Artifact.companionSource (fun n => preprocessedMark ++ n ++ ".cpp")
    (fun n m h => by simpa using h)
    (fun s => by simpa only [String.append_assoc] using Artifact.plain_companionSource s)
    (fun s => by rw [artifactOf_eq_ofSource, ← String.append_assoc, ← String.append_assoc]; rfl)
    (fun s _ => ((hcpp (preprocessedMark ++ s.fileName)).append companionMark).not_object)
  have hcompanionObject := role_of_mark hsources hnamed
    (by decide : companionMark ∈ madeMarks) Artifact.companionObject (· ++ ".o")
    (fun n m h => by simpa using h)
    (fun s => by
      rw [← String.append_assoc]
      exact Path.plain_marked_object (by decide) s.no_slash_fileName)
    (fun s => by rw [artifactOf_eq_ofSource, ← String.append_assoc]; rfl)
    (fun s _ => Text.ends_append (Text.ends_append_self s.fileName ".o") companionMark)
  have htransformedObject : ∀ a ∈ r.artifacts,
      shape a.transformedObject.fileName = (some transformedMark, true) := by
    intro a ha
    obtain ⟨s, _, rfl⟩ := List.mem_map.mp ha
    exact r.shape_transformedObject s
  simp only [madeRoles, List.forall_mem_cons]
  exact ⟨hpreprocessed, htransformed, hcompanion, ⟨htransformedObject, hobjects⟩,
    hcompanionObject, by simp⟩

end Request

/-! ## Accepted builds -/

def Path.SharesObject (p q : Path) : Prop :=
  p.directory = q.directory ∧ p.fileStem = q.fileStem

instance (p q : Path) : Decidable (p.SharesObject q) := inferInstanceAs (Decidable (_ ∧ _))

theorem objectBeside_same_iff {p q : Path} :
    (objectBeside p).Same (objectBeside q) ↔ p.SharesObject q := by
  unfold objectBeside
  rw [Path.sibling_same_iff (Path.plain_object p.no_slash_fileStem)
    (Path.plain_object q.no_slash_fileStem)]
  simp [Path.SharesObject]

theorem fileName_objectBeside (p : Path) : (objectBeside p).fileName = p.fileStem ++ ".o" :=
  Path.fileName_sibling p (Path.plain_object p.no_slash_fileStem)

theorem apart_objectsBeside_iff {files : List Path} : Path.Apart (files.map objectBeside) ↔
    files.Pairwise fun p q => ¬ p.SharesObject q := by
  simp only [Path.Apart, Path.locations, List.map_map, List.Nodup, List.pairwise_map]
  apply List.Pairwise.iff
  exact fun p q => not_congr objectBeside_same_iff

namespace Request

variable {r : Request}

theorem apart_perSource_iff : Path.Apart (r.inputs ++ r.produced .perSource) ↔
    Path.Apart (r.inputs ++ (r.artifacts.flatMap Artifact.intermediates ++
      (r.sources ++ r.assembly).map objectBeside)) := by
  have hmerged : (r.artifacts.flatMap fun a => [a.mergedObject]) = r.sources.map objectBeside := by
    simp [artifacts, List.flatMap_map, mergedObject_artifactOf, ← List.map_eq_flatMap]
  have hperm := List.flatMap_append_perm r.artifacts Artifact.intermediates
    fun a => [a.mergedObject]
  have hproduced : r.produced .perSource =
      r.artifacts.flatMap (fun a => a.intermediates ++ [a.mergedObject]) ++
        r.assembly.map objectBeside := List.append_nil _
  rw [hmerged] at hperm
  rw [hproduced, List.map_append, ← List.append_assoc (r.artifacts.flatMap _)]
  exact (((hperm.append_right _).append_left _).map Path.components).nodup_iff.symm

theorem not_renamed {p : Path} (hstems : r.sources.Pairwise fun p q => ¬ p.SharesObject q)
    (hp : p ∈ r.sources) : ¬ 1 < r.stemUses (stemObject p) := by
  obtain ⟨i, hi, rfl⟩ := List.getElem_of_mem hp
  rw [one_lt_stemUses_iff hi]
  rintro ⟨j, hne, hsame⟩
  obtain ⟨hdirectory, hstem⟩ := stemObject_same_iff.mp hsame
  rcases Nat.lt_or_gt_of_ne hne with hlt | hlt
  · exact List.pairwise_iff_getElem.mp hstems j i j.isLt hi hlt ⟨hdirectory, hstem⟩
  · exact List.pairwise_iff_getElem.mp hstems i j hi j.isLt hlt ⟨hdirectory.symm, hstem.symm⟩

theorem plain_assemblyObject (file : Path) :
    Path.Plain (assemblyMark ++ file.fileName ++ ".o") :=
  Path.plain_marked_object (by decide) file.no_slash_fileName

theorem markOf?_of_mem_assemblyObjects {target p : Path}
    (hp : p ∈ r.assembly.map (assemblyObject (.consolidated target))) :
    markOf? p.fileName = some assemblyMark := by
  obtain ⟨file, _, rfl⟩ := List.mem_map.mp hp
  unfold assemblyObject
  rw [Path.fileName_sibling file (plain_assemblyObject file), String.append_assoc,
    markOf?_append (by decide)]

theorem produced_consolidated (r : Request) (target : Path) :
    r.produced (.consolidated target) = r.artifacts.flatMap Artifact.intermediates ++
      (r.assembly.map (assemblyObject (.consolidated target)) ++ [target]) := by
  have hnone : Artifact.produced (.consolidated target) = Artifact.intermediates := by
    funext a
    exact List.append_nil _
  simp [produced, hnone, MergePlan.target?]

/-- A request whose inputs stand where their endings belong, lie apart and begin with no mark. -/
structure Ordinary (r : Request) : Prop where
  sorted : r.Sorted
  apart : Path.Apart r.inputs
  unmarked : ∀ p ∈ r.inputs, p.Unmarked

namespace Ordinary

variable (hr : r.Ordinary) {p : Path}

include hr

theorem exists_name (hp : p ∈ r.inputs) : p.fileName?.isSome ∧ '.' ∈ p.fileName.toList := by
  have hdot : ∀ e ∈ inputEndings, '.' ∈ e.toList := by decide
  obtain ⟨e, he, hends⟩ := hr.sorted.ends_of_mem_inputs hp
  obtain ⟨n, hlast, hn⟩ := Path.exists_name_of_input he hends
  refine ⟨Path.isSome_fileName?_of_getLast? hlast, ?_⟩
  rw [Path.fileName_of_getLast? hlast]
  exact (Text.ends_iff.mp hn).subset (hdot e he)

theorem endsLikeSource (hp : p ∈ r.sources) : EndsLikeSource p.fileName := by
  obtain ⟨e, he, hends⟩ := List.any_eq_true.mp (hr.sorted.sources p hp)
  obtain ⟨n, hlast, hn⟩ := Path.exists_name_of_input (List.mem_append_left _ he) hends
  rw [Path.fileName_of_getLast? hlast]
  exact ⟨e, he, hn⟩

theorem not_object (hp : p ∈ r.sources ++ r.assembly) :
    Text.ends p.fileName objectEnding = false := by
  rcases List.mem_append.mp hp with hp | hp
  · exact (hr.endsLikeSource hp).not_object
  · obtain ⟨n, hlast, hn⟩ := Path.exists_name_of_input (by decide) (hr.sorted.assembly p hp)
    rw [Path.fileName_of_getLast? hlast]
    exact Text.not_ends hn (by decide)

theorem apart_sources : Path.Apart r.sources :=
  hr.apart.sublist ((List.sublist_append_left _ _).trans (List.sublist_append_left _ _))

theorem apart_assembly : Path.Apart r.assembly :=
  hr.apart.sublist ((List.sublist_append_right _ _).trans (List.sublist_append_left _ _))

theorem named_source (hp : p ∈ r.sources) : p.fileName?.isSome :=
  (hr.exists_name (List.mem_append_left _ (List.mem_append_left _ hp))).1

theorem named_assembly (hp : p ∈ r.assembly) : p.fileName?.isSome :=
  (hr.exists_name (assembly_mem_inputs hp)).1

theorem markOf?_objectBeside (hp : p ∈ r.inputs) : markOf? (objectBeside p).fileName = none := by
  obtain ⟨hname, hdot⟩ := hr.exists_name hp
  rw [fileName_objectBeside, Path.fileStem_eq hname]
  exact markOf?_object hdot (hr.unmarked p hp)

section Intermediates

variable (hobjects : Path.Apart (r.artifacts.map Artifact.transformedObject))

include hobjects

theorem apart_intermediates : Path.Apart (r.artifacts.flatMap Artifact.intermediates) :=
  Path.apart_of_roles (by decide) (roles_of_sources hr.apart_sources
    (fun _ hs => hr.named_source hs) (fun _ hs => hr.endsLikeSource hs) hobjects)

theorem marked_intermediate (hp : p ∈ r.artifacts.flatMap Artifact.intermediates) :
    ∃ mark ∈ [preprocessedMark, transformedMark, companionMark],
      markOf? p.fileName = some mark := by
  have hroles := roles_of_sources hr.apart_sources (fun _ hs => hr.named_source hs)
    (fun _ hs => hr.endsLikeSource hs) hobjects
  have hmarks : ∀ x ∈ madeRoles.map Prod.snd,
      ∃ mark ∈ [preprocessedMark, transformedMark, companionMark], x.1 = some mark := by
    decide
  obtain ⟨a, ha, hp⟩ := List.mem_flatMap.mp hp
  obtain ⟨x, hx, rfl⟩ : ∃ x ∈ madeRoles, x.1 a = p := List.mem_map.mp hp
  obtain ⟨mark, hmark, heq⟩ := hmarks x.2 (List.mem_map_of_mem hx)
  exact ⟨mark, hmark, (congrArg Prod.fst ((hroles x hx).1 a ha)).trans heq⟩

theorem input_not_same_intermediate (hp : p ∈ r.inputs) {q : Path}
    (hq : q ∈ r.artifacts.flatMap Artifact.intermediates) : ¬ p.Same q := by
  obtain ⟨mark, _, hmark⟩ := hr.marked_intermediate hobjects hq
  apply Path.not_same_of_mark
  rw [(hr.unmarked p hp).markOf?_eq, hmark]
  simp

end Intermediates

theorem input_not_same_objectBeside (hp : p ∈ r.sources ++ r.assembly) (q : Path) :
    ¬ p.Same (objectBeside q) := by
  apply Path.not_same_of_shape
  rw [fileName_objectBeside, shape, shape, hr.not_object hp,
    show objectEnding = ".o" from rfl, Text.ends_append_self]
  simp

theorem apart_perSource (hshared : (r.sources ++ r.assembly).Pairwise fun p q => ¬ p.SharesObject q)
    (hfree : ∀ p ∈ r.objects, ∀ q ∈ r.sources ++ r.assembly, ¬ p.Same (objectBeside q)) :
    Path.Apart (r.inputs ++ r.produced .perSource) := by
  have hstems := hshared.sublist (List.sublist_append_left _ _)
  have hobjects : Path.Apart (r.artifacts.map Artifact.transformedObject) :=
    apart_transformedObjects hr.apart_sources (fun _ hs => hr.named_source hs)
      fun _ _ _ hs' _ _ _ => not_renamed hstems hs'
  rw [apart_perSource_iff]
  apply Path.apart_append_of_not_same hr.apart
  · apply Path.apart_append_of_not_same (hr.apart_intermediates hobjects)
      (apart_objectsBeside_iff.mpr hshared)
    intro p hp q hq
    obtain ⟨mark, _, hmark⟩ := hr.marked_intermediate hobjects hp
    obtain ⟨file, hfile, rfl⟩ := List.mem_map.mp hq
    apply Path.not_same_of_mark
    rw [hmark, hr.markOf?_objectBeside (List.mem_append_left _ hfile)]
    simp
  · intro p hp q hq
    rcases List.mem_append.mp hq with hq | hq
    · exact hr.input_not_same_intermediate hobjects hp hq
    · obtain ⟨file, hmem, rfl⟩ := List.mem_map.mp hq
      rcases List.mem_append.mp hp with hp | hp
      · exact hr.input_not_same_objectBeside hp file
      · exact hfree p hp file hmem

theorem apart_assemblyObjects (target : Path) :
    Path.Apart (r.assembly.map (assemblyObject (.consolidated target))) := by
  have hinjective : Function.Injective fun n => assemblyMark ++ n ++ ".o" := fun n m h => by
    simpa using h
  have hsiblings := hr.apart_assembly.siblings (fun _ hp => hr.named_assembly hp) hinjective
    plain_assemblyObject
  exact hsiblings

/-- What a plan with one object makes, all of it but that object begins with a mark. -/
theorem apart_made (hobjects : Path.Apart (r.artifacts.map Artifact.transformedObject))
    {target : Path} (hunmarked : target.Unmarked) :
    Path.Apart (r.artifacts.flatMap Artifact.intermediates ++
      (r.assembly.map (assemblyObject (.consolidated target)) ++ [target])) := by
  have hother : ∀ mark ∈ [preprocessedMark, transformedMark, companionMark],
      mark ≠ assemblyMark := by decide
  apply Path.apart_append_of_not_same (hr.apart_intermediates hobjects)
  · apply Path.apart_append_of_not_same (hr.apart_assemblyObjects target)
    · simp [Path.Apart]
    · intro p hp q hq
      apply Path.not_same_of_mark
      rw [markOf?_of_mem_assemblyObjects hp, List.mem_singleton.mp hq, hunmarked.markOf?_eq]
      simp
  · intro p hp q hq
    obtain ⟨mark, hmem, hmark⟩ := hr.marked_intermediate hobjects hp
    apply Path.not_same_of_mark
    rcases List.mem_append.mp hq with hq | hq
    · simpa [hmark, markOf?_of_mem_assemblyObjects hq] using hother mark hmem
    · rw [hmark, List.mem_singleton.mp hq, hunmarked.markOf?_eq]
      simp

theorem apart_consolidated {target : Path} (htarget : ∀ p ∈ r.inputs, ¬ p.Same target)
    (hunmarked : target.Unmarked)
    (hfull : ∀ s ∈ r.sources, ∀ s' ∈ r.sources, ¬ s.Same s' → s.directory = s'.directory →
      s.fileStem ≠ s'.fileName) :
    Path.Apart (r.inputs ++ r.produced (.consolidated target)) := by
  have hobjects : Path.Apart (r.artifacts.map Artifact.transformedObject) :=
    apart_transformedObjects hr.apart_sources (fun _ hs => hr.named_source hs)
      fun s hs s' hs' hne hdirectory hname => absurd hname (hfull s hs s' hs' hne hdirectory)
  rw [produced_consolidated]
  apply Path.apart_append_of_not_same hr.apart (hr.apart_made hobjects hunmarked)
  intro p hp q hq
  rcases List.mem_append.mp hq with hq | hq
  · exact hr.input_not_same_intermediate hobjects hp hq
  · rcases List.mem_append.mp hq with hq | hq
    · apply Path.not_same_of_mark
      rw [(hr.unmarked p hp).markOf?_eq, markOf?_of_mem_assemblyObjects hq]
      simp
    · rw [List.mem_singleton.mp hq]
      exact htarget p hp

end Ordinary

/-- Of a request whose inputs lie apart and are not named like made files, a build with an object
for each source is accepted exactly if no two inputs have the same object beside them and no object
of the request is one of those. A build with one object is accepted if that is no input and not
named like a made file, and no source's stem is the full name of another one beside it. -/
theorem ordinary_builds_accepted {args : List String} {r : Request}
    (hargs : classify args = .ok (.build r)) (hapart : Path.Apart r.inputs)
    (hunmarked : ∀ p ∈ r.inputs, p.Unmarked) :
    (r.planArtifacts .perSource = .ok r.artifacts ↔
      ((r.sources ++ r.assembly).Pairwise fun p q => ¬ p.SharesObject q) ∧
        ∀ p ∈ r.objects, ∀ q ∈ r.sources ++ r.assembly, ¬ p.Same (objectBeside q)) ∧
    ∀ target : Path, (∀ p ∈ r.inputs, ¬ p.Same target) → target.Unmarked →
      (∀ s ∈ r.sources, ∀ s' ∈ r.sources, ¬ s.Same s' → s.directory = s'.directory →
        s.fileStem ≠ s'.fileName) →
      r.planArtifacts (.consolidated target) = .ok r.artifacts := by
  have hr : r.Ordinary := ⟨sorted_of_classify hargs, hapart, hunmarked⟩
  refine ⟨⟨fun hplan => ?_, fun ⟨hshared, hfree⟩ => ?_⟩, fun target htarget hmark hfull => ?_⟩
  · have hplanned := apart_perSource_iff.mp (planArtifacts_ok_iff.mp hplan).2
    obtain ⟨_, hproduced, hcross⟩ := Path.apart_append.mp hplanned
    refine ⟨apart_objectsBeside_iff.mp (Path.apart_append.mp hproduced).2.1, ?_⟩
    intro p hp q hq hsame
    refine hcross _ (Path.mem_locations (object_mem_inputs hp)) ?_
    rw [show p.components = (objectBeside q).components from hsame]
    exact Path.mem_locations (List.mem_append_right _ (List.mem_map_of_mem hq))
  · exact planArtifacts_ok_iff.mpr ⟨rfl, hr.apart_perSource hshared hfree⟩
  · exact planArtifacts_ok_iff.mpr ⟨rfl, hr.apart_consolidated htarget hmark hfull⟩

/-- Sources of one stem are accepted for an object each if they lie in different directories, and
for one object wherever they lie. -/
theorem ordinary_builds_accepted_sample :
    let r : Request := {
      sources := [⟨"a.c"⟩, ⟨"d/./a.c"⟩, ⟨".c"⟩], assembly := [⟨"b.S"⟩], objects := [⟨"x.o"⟩] }
    let r' : Request := { sources := [⟨"a.c"⟩, ⟨"a.cpp"⟩], assembly := [⟨"a.S"⟩] }
    (classify ["a.c", "d/./a.c", "b.S", ".c", "x.o"] = .ok (.build r) ∧ Path.Apart r.inputs ∧
      (∀ p ∈ r.inputs, p.Unmarked) ∧ r.planArtifacts .perSource = .ok r.artifacts) ∧
    classify ["a.c", "a.cpp", "a.S"] = .ok (.build r') ∧ Path.Apart r'.inputs ∧
      (∀ p ∈ r'.inputs, p.Unmarked) ∧ r'.planArtifacts .perSource ≠ .ok r'.artifacts ∧
      r'.planArtifacts (.consolidated ⟨"a.o"⟩) = .ok r'.artifacts := by
  intro r r'
  have hargs : classify ["a.c", "d/./a.c", "b.S", ".c", "x.o"] = .ok (.build r) := rfl
  have hapart : Path.Apart r.inputs := by decide
  have hunmarked : ∀ p ∈ r.inputs, p.Unmarked := by decide
  have hargs' : classify ["a.c", "a.cpp", "a.S"] = .ok (.build r') := rfl
  have hapart' : Path.Apart r'.inputs := by decide
  have hunmarked' : ∀ p ∈ r'.inputs, p.Unmarked := by decide
  obtain ⟨hperSource, hconsolidated⟩ := ordinary_builds_accepted hargs' hapart' hunmarked'
  refine ⟨⟨hargs, hapart, hunmarked, ?_⟩, hargs', hapart', hunmarked', fun hplan => ?_, ?_⟩
  · exact (ordinary_builds_accepted hargs hapart hunmarked).1.mpr ⟨by decide, by decide⟩
  · exact absurd (hperSource.mp hplan).1 (by decide)
  · exact hconsolidated ⟨"a.o"⟩ (by decide) (by decide) (by decide)

end Request

end Deglobal
