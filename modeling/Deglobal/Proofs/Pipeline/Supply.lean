import Deglobal.Proofs.Pipeline.Effects

/-! # Every step finds its inputs

A file that a step reads has to be there when the step's command is issued, and
has to be as the step that makes it left it. Since planning keeps all files of a
build apart, what a step has made stays untouched until the source, the merge or
the link that it belongs to is done with it. Each function of the pipeline is
shown to hand on the objects it makes; the last of them hands the final objects
to the link.
-/

namespace Deglobal

variable {σ : Type}

/-- A file is there, and the step that makes it has succeeded and wrote it last; one that no step
makes is as it was given. -/
def Supplied (disk : σ → Disk) (k : Recipe) (r : Request) (plan : MergePlan) (s : σ)
    (x : Path × Option Step) : Prop :=
  disk s x.1.components = some (.file (match x.2 with
    | none => .given
    | some st => .written (st.command k r plan) (.exited 0)))

/-- All files a step reads are there, and up to the link each of them is supplied. -/
def Provided (disk : σ → Disk) (k : Recipe) (r : Request) (plan : MergePlan) (s : σ)
    (st : Step) : Prop :=
  (∀ x ∈ st.reads r plan, ∃ origin, disk s x.1.components = some (.file origin)) ∧
    ((∀ output, st ≠ .archive output) → ∀ x ∈ st.reads r plan, Supplied disk k r plan s x)

def Prepared (disk : σ → Disk) (k : Recipe) (r : Request) (plan : MergePlan) (steps : List Step)
    (c : Command) (s : σ) : Prop :=
  ∃ st ∈ steps, c = st.command k r plan ∧ Provided disk k r plan s st

section Pipeline

variable {disk : σ → Disk} {h : Host σ} {k : Recipe} {r : Request} {plan : MergePlan}
  {steps : List Step} {m m' : Moment σ}

theorem Supplied.keep {region : List Location} {x : Path × Option Step}
    (hx : Supplied disk k r plan m.now x) (hw : Within disk region m m')
    (hout : x.1.components ∉ region) : Supplied disk k r plan m'.now x :=
  (hw.same _ hout).trans hx

theorem Supplied.of_same {s : σ} {p q : Path} {st? : Option Step} (hsame : p.Same q)
    (hp : Supplied disk k r plan s (p, st?)) : Supplied disk k r plan s (q, st?) := by
  unfold Supplied at hp ⊢
  rw [← show p.components = q.components from hsame]
  exact hp

theorem provided_of_supplied {s : σ} {st : Step}
    (hx : ∀ x ∈ st.reads r plan, Supplied disk k r plan s x) : Provided disk k r plan s st :=
  ⟨fun x hmem => ⟨_, hx x hmem⟩, fun _ => hx⟩

def ObjectsSupplied (disk : σ → Disk) (k : Recipe) (r : Request) (plan : MergePlan) (s : σ)
    (a : Artifact) : Prop :=
  ∀ x ∈ Step.objectSupplies a, Supplied disk k r plan s (x.1, some x.2)

theorem ObjectsSupplied.keep {region : List Location} {a : Artifact}
    (ha : ObjectsSupplied disk k r plan m.now a) (hw : Within disk region m m')
    (hout : ∀ p ∈ a.mergeInputs, p.components ∉ region) :
    ObjectsSupplied disk k r plan m'.now a := by
  intro x hx
  refine (ha x hx).keep hw (hout x.1 ?_)
  simp only [Step.objectSupplies, List.mem_cons, List.not_mem_nil, or_false] at hx
  rcases hx with rfl | rfl
  · exact List.mem_cons_self
  · exact List.mem_cons_of_mem _ List.mem_cons_self

namespace Recipe

variable (hk : k.toolchain.Named) (hsteps : r.steps plan ⊆ steps)
  (horderly : Orderly disk h (k.tasks r plan steps))
  (hdelivers : Delivers disk h (k.tasks r plan steps))

include hk horderly hdelivers in
/-- A step whose files are supplied supplies what it writes, if it succeeds. -/
theorem supply_check {st : Step} (hst : st ∈ steps)
    (hreads : Provided disk k r plan m.now st) :
    (Script.check (st.command k r plan)).Ensures h (Prepared disk k r plan steps)
      (fun result m' => Within disk (Path.locations (st.writes plan)) m m' ∧
        (result = .ok () → ∀ p ∈ st.writes plan, Supplied disk k r plan m'.now (p, some st)))
      m :=
  Script.ensures_check horderly hdelivers (mem_tasks hst) (st.command_isEmpty hk r plan)
    ⟨st, hst, rfl, hreads⟩

include hk horderly hdelivers in
theorem supply_checkAll_cons {st : Step} {rest : List Command} {post : Moment σ → Prop}
    (hst : st ∈ steps) (hreads : ∀ x ∈ st.reads r plan, Supplied disk k r plan m.now x)
    (hrest : ∀ m', Within disk (Path.locations (st.writes plan)) m m' →
      (∀ p ∈ st.writes plan, Supplied disk k r plan m'.now (p, some st)) →
      (checkAll rest).Ensures h (Prepared disk k r plan steps)
        (fun result m'' => result = .ok () → post m'') m') :
    (checkAll (st.command k r plan :: rest)).Ensures h (Prepared disk k r plan steps)
      (fun result m'' => result = .ok () → post m'') m := by
  refine (supply_check hk horderly hdelivers hst (provided_of_supplied hreads)).bind
    (fun _ m' hend => ?_) (fun _ _ _ heq => by cases heq)
  exact hrest m' hend.1 (hend.2 rfl)

include hk hsteps horderly hdelivers

/-- The four steps of a source hand its files on from one to the next. -/
theorem supply_frontHalf {a : Artifact} (ha : a ∈ r.artifacts)
    (hapart : Path.Apart a.intermediates)
    (hsource : Supplied disk k r plan m.now (a.source, none)) :
    (checkAll (k.frontHalf a)).Ensures h (Prepared disk k r plan steps)
      (fun result m' => result = .ok () → ObjectsSupplied disk k r plan m'.now a) m := by
  have hst : ∀ st ∈ Step.ofSource a, st ∈ steps := fun st h => hsteps (ofSource_subset ha h)
  obtain ⟨htransformed, hcompanion⟩ := Request.besides_same ha
  obtain ⟨_, hobjects, _⟩ := Path.apart_append.mp hapart
  have hsource_ne : a.companionSource.components ∉ Path.locations [a.transformedObject] := by
    intro hmem
    refine hapart.notMem (List.mem_cons_of_mem _ (List.mem_cons_of_mem _ List.mem_cons_self)) ?_
    exact Path.locations_subset (List.subset_append_left [a.transformedObject] _) hmem
  have hobject_ne : a.transformedObject.components ∉ Path.locations [a.companionObject] :=
    (show Path.Apart ([a.transformedObject] ++ [a.companionObject]) from hobjects).notMem
      List.mem_cons_self
  rw [frontHalf_eq k r plan a]
  simp only [Step.ofSource, List.map_cons, List.map_nil]
  refine supply_checkAll_cons hk horderly hdelivers (hst (.preprocess a) (by simp [Step.ofSource]))
    ?_ fun m₁ _ hs₁ => ?_
  · intro x hx
    rw [List.mem_singleton.mp hx]
    exact hsource
  refine supply_checkAll_cons hk horderly hdelivers (hst (.transform a) (by simp [Step.ofSource]))
    ?_ fun m₂ _ hs₂ => ?_
  · intro x hx
    rw [List.mem_singleton.mp hx]
    exact hs₁ _ List.mem_cons_self
  refine supply_checkAll_cons hk horderly hdelivers (hst (.compile a) (by simp [Step.ofSource]))
    ?_ fun m₃ hw₃ hs₃ => ?_
  · intro x hx
    rw [List.mem_singleton.mp hx]
    exact (hs₂ _ List.mem_cons_self).of_same htransformed
  refine supply_checkAll_cons hk horderly hdelivers (hst (.companion a) (by simp [Step.ofSource]))
    ?_ fun m₄ hw₄ hs₄ => ?_
  · intro x hx
    rw [List.mem_singleton.mp hx]
    have hs : Supplied disk k r plan m₂.now (a.companionSource, some (.transform a)) :=
      (hs₂ _ (List.mem_cons_of_mem _ List.mem_cons_self)).of_same hcompanion
    exact hs.keep hw₃ hsource_ne
  · intro _ x hx
    simp only [Step.objectSupplies, List.mem_cons, List.not_mem_nil, or_false] at hx
    rcases hx with rfl | rfl
    · exact (hs₃ _ List.mem_cons_self).keep hw₄ hobject_ne
    · exact hs₄ _ List.mem_cons_self

theorem supply_transformSource {a : Artifact} (ha : a ∈ r.artifacts)
    (hapart : Path.Apart a.intermediates)
    (hsource : Supplied disk k r plan m.now (a.source, none)) :
    (k.transformSource a).Ensures h (Prepared disk k r plan steps)
      (fun result m' => (result = .ok () → ObjectsSupplied disk k r plan m'.now a) ∧
        Within disk (Path.locations a.intermediates) m m') m := by
  refine Script.Ensures.and ?_ (within_transformSource hsteps horderly ha m)
  rw [transformSource_eq]
  refine (supply_frontHalf hk hsteps horderly hdelivers ha hapart hsource).attempt_bind
    fun result m₁ hobjects => ?_
  refine (within_cleanUp horderly k (spent a result) m₁).bind_of_ok fun m₂ hclean => ?_
  intro hok
  cases hok
  refine (hobjects rfl).keep hclean fun p hp => ?_
  exact hapart.notMem_right hp

/-- Sources that come to their end leave their objects, whatever becomes of the others. -/
theorem supply_transformEach {artifacts : List Artifact} (hsub : artifacts ⊆ r.artifacts)
    (hapart : Path.Apart (artifacts.flatMap Artifact.intermediates))
    (hsources : ∀ a ∈ artifacts, Supplied disk k r plan m.now (a.source, none) ∧
      a.source.components ∉ Path.locations (artifacts.flatMap Artifact.intermediates))
    (toTheEnd : Bool) :
    (k.transformEach toTheEnd artifacts).Ensures h (Prepared disk k r plan steps)
      (fun result m' => ∀ results, result = .ok results →
        ∀ a, (a, .ok ()) ∈ results → ObjectsSupplied disk k r plan m'.now a) m := by
  induction artifacts generalizing m with
  | nil =>
      intro results heq a ha
      cases heq
      cases ha
  | cons a rest ih =>
      rw [List.flatMap_cons] at hapart hsources
      obtain ⟨haparts, hrests, hcross⟩ := Path.apart_append.mp hapart
      have ha : a ∈ r.artifacts := hsub List.mem_cons_self
      have hrest : rest ⊆ r.artifacts := fun b hb => hsub (List.mem_cons_of_mem a hb)
      rw [transformEach_cons]
      refine (supply_transformSource hk hsteps horderly hdelivers ha haparts
        (hsources a List.mem_cons_self).1).attempt_bind fun result m₁ hend => ?_
      obtain ⟨hobjects, hwithin⟩ := hend
      split
      · have hsources₁ : ∀ b ∈ rest, Supplied disk k r plan m₁.now (b.source, none) ∧
            b.source.components ∉ Path.locations (rest.flatMap Artifact.intermediates) := by
          intro b hb
          obtain ⟨hsource, hout⟩ := hsources b (List.mem_cons_of_mem a hb)
          rw [Path.locations_append, List.mem_append, not_or] at hout
          exact ⟨hsource.keep hwithin hout.1, hout.2⟩
        refine ((ih hrest hrests hsources₁).and
          (within_transformEach hsteps horderly hrest toTheEnd m₁)).bind ?_ ?_
        · intro others m₂ ⟨hothers, _, hwithin₂⟩ results heq b hb
          cases heq
          rcases List.mem_cons.mp hb with hb | hb
          · cases hb
            refine (hobjects rfl).keep hwithin₂ fun p hp => ?_
            exact hapart.notMem (List.mem_append_right a.sourceFiles hp)
          · exact hothers others rfl b hb
        · intro e m₂ _ results heq
          cases heq
      · intro results heq b hb
        cases heq
        cases List.mem_singleton.mp hb
        exact hobjects rfl

theorem supply_transformAll
    (hapart : Path.Apart (r.artifacts.flatMap Artifact.intermediates))
    (hsources : ∀ a ∈ r.artifacts, Supplied disk k r plan m.now (a.source, none) ∧
      a.source.components ∉ Path.locations (r.artifacts.flatMap Artifact.intermediates)) :
    (k.transformAll r.artifacts).Ensures h (Prepared disk k r plan steps)
      (fun result m' => (result = .ok () →
        ∀ a ∈ r.artifacts, ObjectsSupplied disk k r plan m'.now a) ∧
        Within disk (Path.locations (r.artifacts.flatMap Artifact.intermediates)) m m') m := by
  refine Script.Ensures.and ?_ (within_transformAll hsteps horderly m)
  rw [transformAll_eq]
  refine (within_announce horderly _ _ m).bind_of_ok fun m₁ hstart => ?_
  have hsources₁ : ∀ a ∈ r.artifacts, Supplied disk k r plan m₁.now (a.source, none) ∧
      a.source.components ∉ Path.locations (r.artifacts.flatMap Artifact.intermediates) :=
    fun a ha => ⟨(hsources a ha).1.keep hstart.1 List.not_mem_nil, (hsources a ha).2⟩
  refine ((supply_transformEach hk hsteps horderly hdelivers (List.Subset.refl _) hapart
    hsources₁ _).and (within_transformEach hsteps horderly (List.Subset.refl _) _ m₁)).bind
    (fun results m₂ hend => ?_) (fun e _ hend => by obtain ⟨_, ⟨_, heq, _⟩, _⟩ := hend; cases heq)
  obtain ⟨hobjects, ⟨_, heq, hcovers⟩, _⟩ := hend
  cases heq
  unfold conclude
  cases hfirst : firstFailure? results with
  | none => exact fun _ a ha => hobjects results rfl a (hcovers.mem_of_none hfirst ha)
  | some e =>
      exact (within_cleanUp horderly k _ m₂).bind_of_ok fun _ _ heq => by cases heq

theorem supply_assembleEach {done files : List Path} (hsub : files ⊆ r.assembly)
    (hapart : Path.Apart ((done ++ files).map (assemblyObject plan)))
    (hfiles : ∀ file ∈ files, Supplied disk k r plan m.now (file, none) ∧
      file.components ∉ Path.locations (files.map (assemblyObject plan)))
    (hdone : ∀ file ∈ done,
      Supplied disk k r plan m.now (assemblyObject plan file, some (.assemble file))) :
    (k.assembleEach plan (done.map (assemblyObject plan)) files).Ensures h
      (Prepared disk k r plan steps) (fun result m' => (∃ objects, result = .ok objects) →
        ∀ file ∈ done ++ files,
          Supplied disk k r plan m'.now (assemblyObject plan file, some (.assemble file))) m := by
  induction files generalizing done m with
  | nil =>
      intro _ file hfile
      rw [List.append_nil] at hfile
      exact hdone file hfile
  | cons file rest ih =>
      rw [assembleEach_cons]
      have hstep := supply_check hk horderly hdelivers
        (hsteps (assemble_mem_steps (hsub List.mem_cons_self))) (m := m)
        (provided_of_supplied fun x hx => by
          rw [List.mem_singleton.mp hx]
          exact (hfiles file List.mem_cons_self).1)
      refine hstep.attempt_bind fun result m₁ hend => ?_
      obtain ⟨hwithin, hobject⟩ := hend
      cases result with
      | ok _ =>
          have hmade : done.map (assemblyObject plan) ++ [assemblyObject plan file] =
              (done ++ [file]).map (assemblyObject plan) := by simp
          have hlist : done ++ file :: rest = (done ++ [file]) ++ rest := by simp
          rw [hlist] at hapart
          rw [hlist, hmade]
          refine ih (fun f hf => hsub (List.mem_cons_of_mem file hf)) hapart (fun f hf => ?_)
            (fun f hf => ?_)
          · obtain ⟨hgiven, hout⟩ := hfiles f (List.mem_cons_of_mem file hf)
            rw [List.map_cons, ← List.singleton_append, Path.locations_append, List.mem_append,
              not_or] at hout
            exact ⟨hgiven.keep hwithin hout.1, hout.2⟩
          · rcases List.mem_append.mp hf with hf | hf
            · refine (hdone f hf).keep hwithin ?_
              rw [List.append_assoc, List.map_append, List.singleton_append, List.map_cons,
                ← List.singleton_append, ← List.append_assoc] at hapart
              exact (Path.apart_append.mp hapart).1.notMem (List.mem_map_of_mem hf)
            · rw [List.mem_singleton.mp hf]
              exact hobject rfl _ List.mem_cons_self
      | error e =>
          dsimp only
          split
          · exact (within_cleanUp horderly k _ m₁).bind_of_ok fun _ _ ⟨_, heq⟩ => by cases heq
          · rintro ⟨_, heq⟩
            cases heq

end Recipe

end Pipeline

/-! ## Merging -/

section Merging

variable {disk : σ → Disk} {h : Host σ} {k : Recipe} {r : Request} {steps : List Step}
  {m m' : Moment σ}

namespace Recipe

theorem supply_mergeEach (hk : k.toolchain.Named) (hsteps : r.steps .perSource ⊆ steps)
    (horderly : Orderly disk h (k.tasks r .perSource steps))
    (hdelivers : Delivers disk h (k.tasks r .perSource steps)) {artifacts : List Artifact}
    (hsub : artifacts ⊆ r.artifacts)
    (hapart : Path.Apart (artifacts.flatMap (Artifact.produced .perSource)))
    (hobjects : ∀ a ∈ artifacts, ObjectsSupplied disk k r .perSource m.now a) :
    (k.mergeEach artifacts).Ensures h (Prepared disk k r .perSource steps)
      (fun result m' => (∃ objects, result = .ok objects) → ∀ a ∈ artifacts,
        Supplied disk k r .perSource m'.now (a.mergedObject, some (.mergeOne a))) m := by
  induction artifacts generalizing m with
  | nil => exact fun _ a ha => absurd ha List.not_mem_nil
  | cons a rest ih =>
      rw [List.flatMap_cons] at hapart
      obtain ⟨haparts, hrests, _⟩ := Path.apart_append.mp hapart
      have hrest : rest ⊆ r.artifacts := fun b hb => hsub (List.mem_cons_of_mem a hb)
      rw [mergeEach_cons]
      have hreads : ∀ x ∈ (Step.mergeOne a).reads r .perSource,
          Supplied disk k r .perSource m.now x := by
        intro x hx
        obtain ⟨y, hy, rfl⟩ := List.mem_map.mp hx
        exact hobjects a List.mem_cons_self y hy
      refine (supply_check hk horderly hdelivers
        (hsteps (mergeOne_mem_steps (hsub List.mem_cons_self)))
        (provided_of_supplied hreads)).attempt_bind fun result m₁ hend => ?_
      obtain ⟨hwithin, hmerged⟩ := hend
      cases result with
      | error e =>
          refine Script.ensures_say_bind ?_
          exact (within_cleanUp horderly k _ _).bind_of_ok fun _ _ ⟨_, heq⟩ => by cases heq
      | ok _ =>
          refine (Script.within_discardAll horderly a.mergeInputs m₁).bind_of_ok
            fun m₂ hdiscarded => ?_
          have hout : ∀ b ∈ rest, ∀ p ∈ b.mergeInputs,
              p.components ∉ Path.locations (Artifact.produced .perSource a) := fun b hb p hp =>
            hapart.notMem_right (List.mem_flatMap.mpr ⟨b, hb, List.mem_append_left _
              (List.mem_append_right b.sourceFiles hp)⟩)
          have hobjects₂ : ∀ b ∈ rest, ObjectsSupplied disk k r .perSource m₂.now b := by
            intro b hb
            have hkept := (hobjects b (List.mem_cons_of_mem a hb)).keep hwithin fun p hp hmem =>
              hout b hb p hp (Path.locations_subset (List.subset_append_right _ _) hmem)
            exact hkept.keep hdiscarded fun p hp hmem =>
              hout b hb p hp (Path.locations_subset (fun q hq => List.mem_append_left _
                (List.mem_append_right a.sourceFiles hq)) hmem)
          have hmerged₂ : Supplied disk k r .perSource m₂.now
              (a.mergedObject, some (.mergeOne a)) := by
            refine (hmerged rfl _ List.mem_cons_self).keep hdiscarded fun hmem => ?_
            exact haparts.notMem_right List.mem_cons_self
              (Path.locations_subset (List.subset_append_right a.sourceFiles _) hmem)
          refine ((ih hrest hrests hobjects₂).and
            (within_mergeEach hsteps horderly hrest m₂)).bind (fun others m₃ hend => ?_)
            (fun _ _ _ ⟨_, heq⟩ => by cases heq)
          intro _ b hb
          rcases List.mem_cons.mp hb with rfl | hb
          · refine hmerged₂.keep hend.2.2 ?_
            exact fun hmem => hapart.notMem (List.mem_append_right _ List.mem_cons_self)
              (Path.locations_subset (Request.flatMap_mergeFiles_subset rest) hmem)
          · exact hend.1 ⟨others, rfl⟩ b hb

theorem supply_mergeAll {target : Path} (hk : k.toolchain.Named)
    (hsteps : r.steps (.consolidated target) ⊆ steps)
    (horderly : Orderly disk h (k.tasks r (.consolidated target) steps))
    (hdelivers : Delivers disk h (k.tasks r (.consolidated target) steps))
    (hapart : target.components ∉ Path.locations (r.looseObjects (.consolidated target)))
    (hreads : ∀ x ∈ (Step.mergeAll target).reads r (.consolidated target),
      Supplied disk k r (.consolidated target) m.now x) :
    (k.mergeAll (r.looseObjects (.consolidated target)) target).Ensures h
      (Prepared disk k r (.consolidated target) steps) (fun result m' => result = .ok () →
        Supplied disk k r (.consolidated target) m'.now (target, some (.mergeAll target))) m := by
  rw [mergeAll_eq]
  refine (supply_check hk horderly hdelivers (hsteps (mergeAll_mem_steps r target))
    (provided_of_supplied hreads)).attempt_bind fun result m₁ hend => ?_
  cases result with
  | ok _ =>
      refine (Script.within_discardAll horderly _ m₁).mono fun _ m₂ hdiscarded _ => ?_
      exact (hend.2 rfl _ List.mem_cons_self).keep hdiscarded.2 hapart
  | error e =>
      refine Script.ensures_say_bind ?_
      exact (within_cleanUp horderly k _ _).bind_of_ok fun _ _ heq => by cases heq

theorem supply_finish {plan : MergePlan} (hk : k.toolchain.Named)
    (hsteps : r.steps plan ⊆ steps) (horderly : Orderly disk h (k.tasks r plan steps))
    (hdelivers : Delivers disk h (k.tasks r plan steps)) (hr : r.Accepted plan)
    (hinputs : ∀ p ∈ r.inputs, Supplied disk k r plan m.now (p, none))
    (hobjects : ∀ a ∈ r.artifacts, ObjectsSupplied disk k r plan m.now a)
    (hassembled : ∀ file ∈ r.assembly,
      Supplied disk k r plan m.now (assemblyObject plan file, some (.assemble file))) :
    (k.finish r.artifacts plan (.ok (r.assembly.map (assemblyObject plan)))).Ensures h
      (Prepared disk k r plan steps) (fun result m' =>
        ∀ objects, result = .ok objects → objects = r.finalObjects plan ∧
          ∀ x ∈ Step.linkSupplies r plan, Supplied disk k r plan m'.now x) m := by
  cases plan with
  | perSource =>
      refine ((supply_mergeEach hk hsteps horderly hdelivers (List.Subset.refl _) hr.sources
        hobjects).and (within_mergeEach hsteps horderly (List.Subset.refl _) m)).bind
        (fun merged m₁ hend objects heq => ?_) (fun _ _ _ _ heq => by cases heq)
      obtain ⟨hmerged, hlist, hwithin⟩ := hend
      cases heq
      refine ⟨by rw [hlist merged rfl]; rfl, fun x hx => ?_⟩
      rcases List.mem_append.mp hx with hx | hx
      · obtain ⟨y, hy, rfl⟩ := List.mem_map.mp hx
        rcases List.mem_append.mp hy with hy | hy
        · obtain ⟨a, ha, rfl⟩ := List.mem_map.mp hy
          exact hmerged ⟨merged, rfl⟩ a ha
        · obtain ⟨file, hfile, rfl⟩ := List.mem_map.mp hy
          refine (hassembled file hfile).keep hwithin fun hmem => hr.cross _ ?_
            (Path.mem_locations (List.mem_map_of_mem hfile))
          exact Path.locations_subset (Request.flatMap_mergeFiles_subset r.artifacts) hmem
      · obtain ⟨p, hp, rfl⟩ := List.mem_map.mp hx
        refine (hinputs p (Request.object_mem_inputs hp)).keep hwithin ?_
        exact hr.input_notMem (Request.object_mem_inputs hp) fun q hq =>
          Request.sources_subset_produced r _ (Request.flatMap_mergeFiles_subset r.artifacts hq)
  | consolidated target =>
      have hloose := looseObjects_subset r (.consolidated target)
      have hreads : ∀ x ∈ (Step.mergeAll target).reads r (.consolidated target),
          Supplied disk k r (.consolidated target) m.now x := by
        intro x hx
        obtain ⟨y, hy, rfl⟩ := List.mem_map.mp hx
        rcases List.mem_append.mp hy with hy | hy
        · obtain ⟨a, ha, hy⟩ := List.mem_flatMap.mp hy
          exact hobjects a ha y hy
        · obtain ⟨file, hfile, rfl⟩ := List.mem_map.mp hy
          exact hassembled file hfile
      have htarget : target.components ∉
          Path.locations (r.looseObjects (.consolidated target)) := fun hmem =>
        hr.target target rfl (Path.locations_subset hloose hmem)
      refine ((supply_mergeAll hk hsteps horderly hdelivers htarget hreads).and
        (within_mergeAll hsteps horderly m)).bind (fun _ m₁ hend objects heq => ?_)
        (fun _ _ _ _ heq => by cases heq)
      cases heq
      refine ⟨rfl, fun x hx => ?_⟩
      rcases List.mem_cons.mp hx with rfl | hx
      · exact hend.1 rfl
      · obtain ⟨p, hp, rfl⟩ := List.mem_map.mp hx
        refine (hinputs p (Request.object_mem_inputs hp)).keep hend.2 ?_
        refine hr.input_notMem (Request.object_mem_inputs hp) fun q hq => ?_
        rcases List.mem_append.mp hq with hq | hq
        · exact List.mem_append_left _ (hloose hq)
        · exact List.mem_append_right _ hq

/-- The pipeline leaves everything that a link takes. -/
theorem supply_pipeline {plan : MergePlan} (hk : k.toolchain.Named)
    (hsteps : r.steps plan ⊆ steps) (horderly : Orderly disk h (k.tasks r plan steps))
    (hdelivers : Delivers disk h (k.tasks r plan steps))
    (hinputs : ∀ p ∈ r.inputs, Supplied disk k r plan m.now (p, none)) :
    (k.pipeline r plan).Ensures h (Prepared disk k r plan steps) (fun result m' =>
      ∀ objects, result = .ok objects → objects = r.finalObjects plan ∧
        ∀ x ∈ Step.linkSupplies r plan, Supplied disk k r plan m'.now x) m := by
  cases hplan : r.planArtifacts plan with
  | error e =>
      rw [pipeline_of_clash k hplan]
      intro objects heq
      cases heq
  | ok artifacts =>
      have hr := Request.accepted_of_planArtifacts hplan
      rw [pipeline_of_plan k hplan, Request.planArtifacts_eq hplan]
      have hsources : ∀ a ∈ r.artifacts, Supplied disk k r plan m.now (a.source, none) ∧
          a.source.components ∉ Path.locations (r.artifacts.flatMap Artifact.intermediates) :=
        fun a ha => ⟨hinputs _ (Request.source_mem_inputs ha),
          hr.input_notMem (Request.source_mem_inputs ha)
            (Request.intermediates_subset_produced r plan)⟩
      refine (supply_transformAll hk hsteps horderly hdelivers hr.intermediates hsources).bind
        (fun _ m₁ hfront => ?_) (fun _ _ _ _ heq => by cases heq)
      obtain ⟨hobjects, hwithin₁⟩ := hfront
      have hinputs₁ : ∀ p ∈ r.inputs, Supplied disk k r plan m₁.now (p, none) := fun p hp =>
        (hinputs p hp).keep hwithin₁
          (hr.input_notMem hp (Request.intermediates_subset_produced r plan))
      have hfiles : ∀ file ∈ r.assembly, Supplied disk k r plan m₁.now (file, none) ∧
          file.components ∉ Path.locations (r.assembly.map (assemblyObject plan)) :=
        fun file hfile => ⟨hinputs₁ file (Request.assembly_mem_inputs hfile),
          hr.input_notMem (Request.assembly_mem_inputs hfile)
            (Request.assembly_subset_produced r plan)⟩
      have hassemble := supply_assembleEach hk hsteps horderly hdelivers
        (List.Subset.refl r.assembly) (show Path.Apart (([] ++ r.assembly).map _) from hr.assembly)
        hfiles (fun _ hnil => absurd hnil List.not_mem_nil)
      refine (hassemble.and (within_assembleEach hsteps horderly (List.Subset.refl _)
        m₁)).attempt_bind fun result m₂ hend => ?_
      obtain ⟨hassembled, hlist, hwithin₂⟩ := hend
      cases result with
      | error e =>
          exact (within_cleanUp horderly k _ m₂).bind (fun _ _ _ _ heq => by cases heq)
            (fun _ _ _ _ heq => by cases heq)
      | ok objects =>
          rw [hlist objects rfl]
          refine supply_finish hk hsteps horderly hdelivers hr (fun p hp => ?_) (fun a ha => ?_)
            (hassembled ⟨objects, rfl⟩)
          · exact (hinputs₁ p hp).keep hwithin₂
              (hr.input_notMem hp (Request.assembly_subset_produced r plan))
          · refine (hobjects rfl a ha).keep hwithin₂ fun p hp => hr.cross _ ?_
            exact Path.mem_locations
              (List.mem_flatMap.mpr ⟨a, ha, Request.mergeInputs_subset a hp⟩)

/-- A link and what follows it find the final objects; the link may replace one of them. -/
theorem supply_linkObjects {plan : MergePlan} {output : Path} (hk : k.toolchain.Named)
    (hsteps : k.linkSteps output ⊆ steps) (horderly : Orderly disk h (k.tasks r plan steps))
    (hdelivers : Delivers disk h (k.tasks r plan steps))
    (hreads : ∀ x ∈ Step.linkSupplies r plan, Supplied disk k r plan m.now x) :
    (k.linkObjects (r.finalObjects plan ++ r.objects) output r.linkerArgs).Ensures h
      (Prepared disk k r plan steps) (fun _ _ => True) m := by
  unfold linkSteps at hsteps
  rw [linkObjects_eq]
  cases hcore : k.toolchain.sstCore with
  | true => trivial
  | false =>
      rw [hcore, if_neg Bool.false_ne_true] at hsteps
      rw [if_neg Bool.false_ne_true]
      have hprovided : Provided disk k r plan m.now (.link output) :=
        provided_of_supplied hreads
      refine (supply_check hk horderly hdelivers (hsteps List.mem_cons_self) hprovided).bind
        (fun _ m₁ hend => ?_) (fun _ _ _ => trivial)
      obtain ⟨hwithin, houtput⟩ := hend
      split
      · rename_i hpic
        have harchive : Step.archive output ∈ steps := hsteps (by simp [hpic])
        have hprovided₁ : Provided disk k r plan m₁.now (.archive output) := by
          refine ⟨fun x hx => ?_, fun hne => absurd rfl (hne output)⟩
          by_cases hsame : x.1.components = output.components
          · have hlinked : Supplied disk k r plan m₁.now (x.1, some (.link output)) :=
              (houtput rfl output List.mem_cons_self).of_same hsame.symm
            exact ⟨_, hlinked⟩
          · refine ⟨_, (hreads x hx).keep hwithin fun hmem => hsame ?_⟩
            exact List.mem_singleton.mp hmem
        exact (supply_check hk horderly hdelivers harchive hprovided₁).mono fun _ _ _ => trivial
      · trivial

theorem supply_useMerged {plan : MergePlan} {path : BuildPath} (hk : k.toolchain.Named)
    (hsteps : k.laterSteps path ⊆ steps) (horderly : Orderly disk h (k.tasks r plan steps))
    (hdelivers : Delivers disk h (k.tasks r plan steps))
    (hreads : ∀ x ∈ Step.linkSupplies r plan, Supplied disk k r plan m.now x) :
    (k.useMerged r path (r.finalObjects plan)).Ensures h (Prepared disk k r plan steps)
      (fun _ _ => True) m := by
  unfold useMerged
  split
  · refine (supply_linkObjects hk hsteps horderly hdelivers hreads).attempt_bind
      fun result m₁ _ => ?_
    split
    · exact (within_cleanUp horderly k _ m₁).bind (fun _ _ _ => trivial) (fun _ _ _ => trivial)
    · trivial
  · trivial

theorem supply_follow {plan : MergePlan} {path : BuildPath} (hk : k.toolchain.Named)
    (hpath : path.plan? = some plan)
    (horderly : Orderly disk h (k.tasks r plan (k.schedule r path)))
    (hdelivers : Delivers disk h (k.tasks r plan (k.schedule r path)))
    (hinputs : ∀ p ∈ r.inputs, Supplied disk k r plan m.now (p, none)) :
    (k.follow r path).Ensures h (Prepared disk k r plan (k.schedule r path))
      (fun _ _ => True) m := by
  have hschedule := schedule_of_plan k r hpath
  have hsteps : r.steps plan ⊆ k.schedule r path :=
    hschedule ▸ List.subset_append_left _ _
  have hlater : k.laterSteps path ⊆ k.schedule r path :=
    hschedule ▸ List.subset_append_right _ _
  rw [follow_of_plan k r hpath]
  refine (supply_pipeline hk hsteps horderly hdelivers hinputs).bind (fun merged m₁ hend => ?_)
    (fun _ _ _ => trivial)
  obtain ⟨rfl, hreads⟩ := hend merged rfl
  exact supply_useMerged hk hlater horderly hdelivers hreads

end Recipe

end Merging

/-- Along a path with the transform, every command issued is that of a step of the schedule, all the
files it reads are among its arguments and are there when it is issued, and up to the link each of
them was written last by the step that makes it, or is an input as it was given. -/
theorem steps_find_their_inputs (t : Toolchain) (ht : t.Named) (r : Request)
    (home : Option Path) (plan : MergePlan) (hpath : (BuildPath.select t r).plan? = some plan)
    (h : Host σ) (disk : σ → Disk)
    (horderly : Orderly disk h ((Recipe.ofRequest t r).tasks r plan
      ((Recipe.ofRequest t r).schedule r (BuildPath.select t r))))
    (hdelivers : Delivers disk h ((Recipe.ofRequest t r).tasks r plan
      ((Recipe.ofRequest t r).schedule r (BuildPath.select t r))))
    (s : σ) (hinputs : ∀ p ∈ r.inputs, disk s p.components = some (.file .given)) :
    let k := Recipe.ofRequest t r
    let steps := k.schedule r (BuildPath.select t r)
    let run := ((Invocation.build r).carryOut t home).run h s
    ∀ before c o s' after, run.events = before ++ (.ran c o, s') :: after →
      ∃ st ∈ steps, c = st.command k r plan ∧
        (∀ x ∈ st.reads r plan, c.Takes x.1) ∧
        (∀ x ∈ st.reads r plan, ∃ origin,
          disk (stateAfter s before) x.1.components = some (.file origin)) ∧
        ((∀ output, st ≠ .archive output) → ∀ x ∈ st.reads r plan,
          disk (stateAfter s before) x.1.components = some (.file (match x.2 with
            | none => .given
            | some st => .written (st.command k r plan) (.exited 0)))) := by
  intro k steps run
  have hfollow : (k.follow r (BuildPath.select t r)).Ensures h (Prepared disk k r plan steps)
      (fun _ _ => True) ⟨[], h.hear (.noted (.buildPath (BuildPath.select t r))) s⟩ := by
    refine Recipe.supply_follow ht hpath horderly hdelivers fun p hp => ?_
    unfold Supplied
    rw [horderly.hear]
    exact hinputs p hp
  have hbuild : ((Invocation.build r).carryOut t home).Ensures h (Prepared disk k r plan steps)
      (fun _ _ => True) ⟨[], s⟩ := by
    rw [Invocation.carryOut_build]
    exact hfollow.bind (fun _ _ _ => trivial) (fun _ _ _ => trivial)
  intro before c o s' after hsplit
  obtain ⟨st, hst, rfl, hthere, hmade⟩ := hbuild.run.2 before c o s' after hsplit
  exact ⟨st, hst, rfl, fun _ hx => st.command_takes k r plan hx, hthere, hmade⟩

/-- All sixteen commands of the sample, the archive among them, find their inputs. -/
theorem steps_find_their_inputs_sample :
    let k := Recipe.ofRequest .sample .sample
    let steps := k.schedule .sample (BuildPath.select .sample .sample)
    let h := Host.onDisk Toolchain.sampleProducts fun _ => .exited 0
    let run := ((Invocation.build .sample).carryOut .sample none).run h Disk.sample
    Toolchain.sample.Named ∧ (BuildPath.select .sample .sample).plan? = some .sample ∧
      Orderly (fun d => d) h (k.tasks .sample .sample steps) ∧
      Delivers (fun d => d) h (k.tasks .sample .sample steps) ∧
      (∀ p ∈ Request.sample.inputs, Disk.sample p.components = some (.file .given)) ∧
      run.commands.length = 16 ∧
      ∀ before c o d after, run.events = before ++ (.ran c o, d) :: after →
        ∃ st ∈ steps, c = st.command k .sample .sample ∧
          (∀ x ∈ st.reads .sample .sample, c.Takes x.1) ∧
          (∀ x ∈ st.reads .sample .sample, ∃ origin,
            stateAfter Disk.sample before x.1.components = some (.file origin)) ∧
          ((∀ output, st ≠ .archive output) → ∀ x ∈ st.reads .sample .sample,
            stateAfter Disk.sample before x.1.components = some (.file (match x.2 with
              | none => .given
              | some st => .written (st.command k .sample .sample) (.exited 0)))) := by
  intro k steps h run
  have hpath : (BuildPath.select .sample .sample).plan? = some .sample := by decide
  have horderly : Orderly (fun d => d) h (k.tasks .sample .sample steps) :=
    orderly_onDisk Toolchain.sampleProducts_eq_writes
  have hdelivers : Delivers (fun d => d) h (k.tasks .sample .sample steps) :=
    delivers_onDisk Toolchain.sampleProducts_eq_writes
  have hinputs : ∀ p ∈ Request.sample.inputs,
      Disk.sample p.components = some (.file .given) := fun p hp =>
    if_pos (List.contains_iff_mem.mpr (Path.mem_locations hp))
  have hlength : run.commands.length = 16 := by decide +kernel
  exact ⟨Toolchain.named_sample, hpath, horderly, hdelivers, hinputs, hlength,
    steps_find_their_inputs .sample Toolchain.named_sample .sample none .sample hpath h
      (fun d => d) horderly hdelivers Disk.sample hinputs⟩

end Deglobal
