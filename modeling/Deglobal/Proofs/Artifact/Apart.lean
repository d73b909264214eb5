import Deglobal.Artifact.Plan
import Deglobal.Proofs.Path.Sibling
import Mathlib.Data.List.Flatten
import Mathlib.Data.List.Nodup
import Mathlib.Data.List.Perm.Basic

/-! # The files of an accepted plan

Planning refuses a build in which a file is claimed twice. What it accepts is a
list of files that lie at different locations, and any part of that list does as
well. Everything later modules need to know about the names of files is read off
`Path.Apart` for the part in question.
-/

namespace Deglobal

/-- Where a path leads; paths are the same exactly when their locations are equal. -/
abbrev Location := List Component

namespace Path

def locations (files : List Path) : List Location := files.map components

/-- No two of the files lie at the same location. -/
def Apart (files : List Path) : Prop := (locations files).Nodup

instance (files : List Path) : Decidable (Apart files) := inferInstanceAs (Decidable (List.Nodup _))

variable {files others : List Path} {p q : Path}

@[simp] theorem locations_nil : locations [] = [] := rfl

@[simp] theorem locations_cons : locations (p :: files) = p.components :: locations files := rfl

@[simp] theorem locations_append :
    locations (files ++ others) = locations files ++ locations others := List.map_append

theorem mem_locations (h : p ∈ files) : p.components ∈ locations files := List.mem_map_of_mem h

theorem mem_locations_iff {l : Location} : l ∈ locations files ↔ ∃ p ∈ files, p.components = l :=
  List.mem_map

theorem locations_subset (h : files ⊆ others) : locations files ⊆ locations others :=
  List.map_subset components h

theorem Apart.sublist (h : Apart others) (hsub : files.Sublist others) : Apart files :=
  List.Nodup.sublist (hsub.map components) h

theorem apart_append : Apart (files ++ others) ↔
    Apart files ∧ Apart others ∧ ∀ l ∈ locations files, l ∉ locations others := by
  unfold Apart
  rw [locations_append, List.nodup_append']
  rfl

theorem Apart.notMem (h : Apart (files ++ others)) (hp : p ∈ files) :
    p.components ∉ locations others :=
  (apart_append.mp h).2.2 _ (mem_locations hp)

theorem Apart.notMem_right (h : Apart (files ++ others)) (hp : p ∈ others) :
    p.components ∉ locations files :=
  fun hmem => (apart_append.mp h).2.2 _ hmem (mem_locations hp)

/-- Files that belong to several owners and lie apart tell their owners apart. -/
theorem Apart.owner {α : Type} {owners : List α} {f : α → List Path}
    (h : Apart (owners.flatMap f)) {a b : α} (ha : a ∈ owners) (hb : b ∈ owners) (hp : p ∈ f a)
    (hq : q ∈ f b) (hsame : p.Same q) : a = b := by
  induction owners with
  | nil => exact absurd ha List.not_mem_nil
  | cons c rest ih =>
      rw [List.flatMap_cons] at h
      have hrest : ∀ {d : α} {x : Path}, d ∈ rest → x ∈ f d → x ∈ rest.flatMap f :=
        fun hd hx => List.mem_flatMap.mpr ⟨_, hd, hx⟩
      have hcross := (apart_append.mp h).2.2
      unfold Same at hsame
      rcases List.mem_cons.mp ha with rfl | harest
      · rcases List.mem_cons.mp hb with rfl | hbrest
        · rfl
        · exact absurd (hsame ▸ mem_locations (hrest hbrest hq)) (hcross _ (mem_locations hp))
      · rcases List.mem_cons.mp hb with rfl | hbrest
        · exact absurd (hsame ▸ mem_locations (hrest harest hp)) (hcross _ (mem_locations hq))
        · exact ih (apart_append.mp h).2.1 harest hbrest

/-- Two kinds of files of the same owners lie apart if all of them do. -/
theorem Apart.flatMap_append {α : Type} {owners : List α} {f g : α → List Path}
    (h : Apart (owners.flatMap fun a => f a ++ g a)) :
    Apart (owners.flatMap f ++ owners.flatMap g) :=
  ((List.flatMap_append_perm owners f g).map components).nodup_iff.mpr h

end Path

/-! ## What planning accepts -/

theorem Claim.firstClash?_eq_none {earlier claims : List Claim} :
    firstClash? earlier claims = none ↔ Path.Apart (claims.map Claim.file) ∧
      ∀ c ∈ claims, ∀ e ∈ earlier, ¬ e.file.Same c.file := by
  induction claims generalizing earlier with
  | nil => simp [firstClash?, Path.Apart]
  | cons c rest ih =>
      unfold firstClash?
      cases hfind : earlier.find? fun e => e.file.Same c.file with
      | some e =>
          have hsame : e.file.Same c.file := by simpa using List.find?_some hfind
          simp only [reduceCtorEq, false_iff, not_and]
          exact fun _ h => h c List.mem_cons_self e (List.mem_of_find?_eq_some hfind) hsame
      | none =>
          have hnone : ∀ e ∈ earlier, ¬ e.file.Same c.file := by
            simpa using List.find?_eq_none.mp hfind
          simp only [ih, List.mem_cons, forall_eq_or_imp, Path.Apart, List.map_cons,
            Path.locations_cons, List.nodup_cons]
          constructor
          · rintro ⟨hrest, hearlier⟩
            refine ⟨⟨fun hmem => ?_, hrest⟩, hnone, fun d hd => (hearlier d hd).2⟩
            obtain ⟨p, hp, hsame⟩ := Path.mem_locations_iff.mp hmem
            obtain ⟨d, hd, rfl⟩ := List.mem_map.mp hp
            exact (hearlier d hd).1 hsame.symm
          · rintro ⟨⟨hc, hrest⟩, _, hearlier⟩
            refine ⟨hrest, fun d hd => ⟨fun hsame => hc ?_, hearlier d hd⟩⟩
            rw [show c.file.components = d.file.components from hsame]
            exact Path.mem_locations (List.mem_map_of_mem hd)

namespace Artifact

def mergeFiles (a : Artifact) : List Path := a.mergeInputs ++ [a.mergedObject]

def produced (plan : MergePlan) (a : Artifact) : List Path :=
  a.intermediates ++ match plan with
    | .perSource => [a.mergedObject]
    | .consolidated _ => []

end Artifact

namespace Request

/-- The files that a plan makes, in the order in which they are claimed. -/
def produced (r : Request) (plan : MergePlan) : List Path :=
  r.artifacts.flatMap (Artifact.produced plan) ++ r.assembly.map (assemblyObject plan) ++
    plan.target?.toList

theorem claims_file (r : Request) (plan : MergePlan) :
    (r.claims plan).map Claim.file = r.inputs ++ r.produced plan := by
  have hsource : ∀ a, (sourceClaims plan a).map Claim.file = Artifact.produced plan a := by
    intro a
    simp only [sourceClaims, List.map_map, Function.comp_def, List.map_id']
    rfl
  simp only [claims, produced, List.map_append, List.map_map, List.map_flatMap, hsource,
    Function.comp_def, List.map_id', List.append_assoc]

theorem planArtifacts_ok_iff {r : Request} {plan : MergePlan} {artifacts : List Artifact} :
    r.planArtifacts plan = .ok artifacts ↔
      artifacts = r.artifacts ∧ Path.Apart (r.inputs ++ r.produced plan) := by
  have hclash : Claim.firstClash? [] (r.claims plan) = none ↔ _ := Claim.firstClash?_eq_none
  rw [claims_file] at hclash
  unfold planArtifacts
  cases hfirst : Claim.firstClash? [] (r.claims plan) with
  | some clash => simp_all
  | none => simp_all [eq_comm]

/-- What planning refuses a build for is a file that is claimed twice. -/
theorem clash_of_planArtifacts {r : Request} {plan : MergePlan} {e : Failure}
    (hplan : r.planArtifacts plan = .error e) :
    ∃ first second file, e = .configuration (.clash first second file) := by
  unfold planArtifacts at hplan
  split at hplan
  · cases hplan
    exact ⟨_, _, _, rfl⟩
  · cases hplan

variable {r : Request} {plan : MergePlan} {a : Artifact}

/-- A source's files other than its transformed object do not depend on the other sources. -/
theorem artifactOf_eq_ofSource (r : Request) (source : Path) :
    r.artifactOf source = { Artifact.ofSource source with
      transformedObject := (r.artifactOf source).transformedObject } := by
  unfold artifactOf
  dsimp only
  split <;> rfl

theorem artifactOf_source (r : Request) (source : Path) :
    (r.artifactOf source).source = source := by
  rw [artifactOf_eq_ofSource]
  rfl

theorem mergedObject_artifactOf (r : Request) (source : Path) :
    (r.artifactOf source).mergedObject = objectBeside source :=
  congrArg objectBeside (r.artifactOf_source source)

theorem mem_artifacts (ha : a ∈ r.artifacts) :
    ∃ source ∈ r.sources, a = { Artifact.ofSource source with
      transformedObject := a.transformedObject } := by
  obtain ⟨source, hsource, rfl⟩ := List.mem_map.mp ha
  exact ⟨source, hsource, r.artifactOf_eq_ofSource source⟩

theorem source_mem_inputs (ha : a ∈ r.artifacts) : a.source ∈ r.inputs := by
  obtain ⟨source, hsource, h⟩ := mem_artifacts ha
  rw [h]
  exact List.mem_append_left _ (List.mem_append_left _ hsource)

theorem assembly_mem_inputs {file : Path} (h : file ∈ r.assembly) : file ∈ r.inputs :=
  List.mem_append_left _ (List.mem_append_right _ h)

theorem object_mem_inputs {file : Path} (h : file ∈ r.objects) : file ∈ r.inputs :=
  List.mem_append_right _ h

/-- The transform tool writes the two planned files of a source. -/
theorem besides_same (ha : a ∈ r.artifacts) :
    (transformedBeside a.preprocessed).Same a.transformedSource ∧
      (companionBeside a.preprocessed).Same a.companionSource := by
  obtain ⟨source, _, h⟩ := mem_artifacts ha
  rw [h]
  exact ⟨Artifact.transformedBeside_same source, Artifact.companionBeside_same source⟩

theorem mergeInputs_subset (a : Artifact) : a.mergeInputs ⊆ Artifact.produced plan a :=
  fun _ hp => List.mem_append_left _ (List.mem_append_right a.sourceFiles hp)

theorem mergeFiles_subset (a : Artifact) : a.mergeFiles ⊆ Artifact.produced .perSource a := by
  unfold Artifact.produced Artifact.intermediates
  rw [List.append_assoc]
  exact List.subset_append_right a.sourceFiles _

theorem flatMap_mergeFiles_subset (artifacts : List Artifact) :
    artifacts.flatMap Artifact.mergeFiles ⊆
      artifacts.flatMap (Artifact.produced .perSource) := by
  intro p hp
  obtain ⟨a, ha, hp⟩ := List.mem_flatMap.mp hp
  exact List.mem_flatMap.mpr ⟨a, ha, mergeFiles_subset a hp⟩

theorem flatMap_intermediates_sublist (r : Request) (plan : MergePlan) :
    (r.artifacts.flatMap Artifact.intermediates).Sublist
      (r.artifacts.flatMap (Artifact.produced plan)) :=
  List.Sublist.flatMap_right _ fun _ _ => List.sublist_append_left _ _

theorem sources_subset_produced (r : Request) (plan : MergePlan) :
    r.artifacts.flatMap (Artifact.produced plan) ⊆ r.produced plan :=
  fun _ hp => List.mem_append_left _ (List.mem_append_left _ hp)

theorem intermediates_subset_produced (r : Request) (plan : MergePlan) :
    r.artifacts.flatMap Artifact.intermediates ⊆ r.produced plan :=
  fun _ hp => sources_subset_produced r plan ((flatMap_intermediates_sublist r plan).subset hp)

theorem assembly_subset_produced (r : Request) (plan : MergePlan) :
    r.assembly.map (assemblyObject plan) ⊆ r.produced plan :=
  fun _ hp => List.mem_append_left _ (List.mem_append_right _ hp)

/-- What is known of the files of an accepted plan. -/
structure Accepted (r : Request) (plan : MergePlan) : Prop where
  inputs : ∀ p ∈ r.inputs, p.components ∉ Path.locations (r.produced plan)
  sources : Path.Apart (r.artifacts.flatMap (Artifact.produced plan))
  assembly : Path.Apart (r.assembly.map (assemblyObject plan))
  /-- What is made of sources and what is made of assembly files lie apart. -/
  cross : ∀ l ∈ Path.locations (r.artifacts.flatMap (Artifact.produced plan)),
    l ∉ Path.locations (r.assembly.map (assemblyObject plan))
  target : ∀ target, plan.target? = some target →
    target.components ∉ Path.locations
      (r.artifacts.flatMap (Artifact.produced plan) ++ r.assembly.map (assemblyObject plan))

theorem accepted_of_planArtifacts {artifacts : List Artifact}
    (hplan : r.planArtifacts plan = .ok artifacts) : r.Accepted plan := by
  have hapart := (planArtifacts_ok_iff.mp hplan).2
  obtain ⟨_, hproduced, hinputs⟩ := Path.apart_append.mp hapart
  obtain ⟨hobjects, _, htarget⟩ := Path.apart_append.mp hproduced
  obtain ⟨hsources, hassembly, hcross⟩ := Path.apart_append.mp hobjects
  refine ⟨fun p hp => hinputs _ (Path.mem_locations hp), hsources, hassembly, hcross, ?_⟩
  intro target htarget_eq hmem
  refine htarget _ hmem (Path.mem_locations ?_)
  rw [htarget_eq]
  exact List.mem_cons_self

theorem Accepted.intermediates (hr : r.Accepted plan) :
    Path.Apart (r.artifacts.flatMap Artifact.intermediates) :=
  hr.sources.sublist (flatMap_intermediates_sublist r plan)

theorem Accepted.sourceFiles_notMem (hr : r.Accepted plan) {p : Path}
    (hp : p ∈ r.artifacts.flatMap Artifact.sourceFiles) :
    p.components ∉ Path.locations (r.artifacts.flatMap Artifact.mergeInputs) ∧
      p.components ∉ Path.locations (r.assembly.map (assemblyObject plan)) ∧
      ∀ target, plan.target? = some target → p.components ≠ target.components := by
  have hproduced : p ∈ r.artifacts.flatMap (Artifact.produced plan) := by
    obtain ⟨a, ha, hp⟩ := List.mem_flatMap.mp hp
    exact List.mem_flatMap.mpr ⟨a, ha, List.mem_append_left _ (List.mem_append_left _ hp)⟩
  refine ⟨hr.intermediates.flatMap_append.notMem hp, hr.cross _ (Path.mem_locations hproduced),
    fun target htarget heq => hr.target target htarget ?_⟩
  rw [← heq]
  exact Path.mem_locations (List.mem_append_left _ hproduced)

theorem Accepted.input_notMem (hr : r.Accepted plan) {p : Path} (hp : p ∈ r.inputs)
    {files : List Path} (hfiles : files ⊆ r.produced plan) :
    p.components ∉ Path.locations files :=
  fun hmem => hr.inputs p hp (Path.locations_subset hfiles hmem)

end Request

end Deglobal
