import Deglobal.Proofs.Artifact.Apart

/-! # Which plans clash

The files of a build can be listed by their names alone. Only the transformed
object of a source depends on the other sources: it is called after the whole
file name if the object called after the stem would lie where that of a source
at another position does. Planning counts uses of a stem and then goes through
its claims one by one. What comes of it is said of the list: a build is accepted
exactly if the listed files lie apart, and else the first of them that lies where
an earlier one does is reported, together with that earlier one.
-/

namespace Deglobal

/-! ## The list -/

namespace Request

/-- The transformed object of a source as it is called after the source's stem. -/
def stemObject (source : Path) : Path := source.sibling ("sst." ++ source.fileStem ++ ".o")

/-- The stem object of a source at another position than `i` lies where that of `source` does. -/
def SharesStem (r : Request) (i : Nat) (source : Path) : Prop :=
  ∃ j : Fin r.sources.length, j.val ≠ i ∧ (stemObject r.sources[j]).Same (stemObject source)

instance (r : Request) (i : Nat) (source : Path) : Decidable (r.SharesStem i source) :=
  Nat.decidableExistsFin _

def namedAt (r : Request) (i : Nat) (source : Path) : Artifact where
  source := source
  preprocessed := source.sibling ("pp." ++ source.fileName)
  transformedSource := source.sibling ("sst.pp." ++ source.fileName)
  companionSource := source.sibling ("sstGlobals.pp." ++ source.fileName ++ ".cpp")
  transformedObject :=
    if r.SharesStem i source then source.sibling ("sst." ++ source.fileName ++ ".o")
    else stemObject source
  companionObject := source.sibling ("sstGlobals." ++ source.fileName ++ ".o")

def namedArtifacts (r : Request) : List Artifact := r.sources.mapIdx r.namedAt

/-- The files made of a source, in the order in which they are listed. -/
def listedOf (plan : MergePlan) (a : Artifact) : List Path :=
  [a.preprocessed, a.transformedSource, a.companionSource, a.transformedObject,
    a.companionObject] ++
    match plan with
    | .perSource => [a.source.sibling (a.source.fileStem ++ ".o")]
    | .consolidated _ => []

def listedObject (plan : MergePlan) (file : Path) : Path :=
  match plan with
  | .perSource => file.sibling (file.fileStem ++ ".o")
  | .consolidated _ => file.sibling ("sstasm." ++ file.fileName ++ ".o")

/-- Every file of a build with its owner: the inputs, the files of each source, the objects of
assembly files and the one object of a plan that has just one. -/
def listed (r : Request) (plan : MergePlan) : List Claim :=
  ((r.sources ++ r.assembly ++ r.objects).map fun file => ⟨file, .input file⟩) ++
    (r.namedArtifacts.flatMap fun a =>
      (listedOf plan a).map fun file => ⟨file, .input a.source⟩) ++
    (r.assembly.map fun file => ⟨listedObject plan file, .input file⟩) ++
    match plan with
    | .perSource => []
    | .consolidated target => [⟨target, .merge⟩]

end Request

/-! ## Counting uses of a stem -/

/-- An element at position `i` is counted more than once exactly if one at another position is
counted too. -/
theorem one_lt_countP_iff {α : Type} {l : List α} {P : α → Bool} {i : Nat} (hi : i < l.length)
    (hP : P l[i] = true) :
    1 < l.countP P ↔ ∃ j : Fin l.length, j.val ≠ i ∧ P l[j] = true := by
  have hcount : l.countP P = (l.eraseIdx i).countP P + 1 := by
    rw [← (List.getElem_cons_eraseIdx_perm hi).countP_eq P, List.countP_cons_of_pos hP]
  rw [hcount, Nat.lt_add_left_iff_pos, List.countP_pos_iff]
  constructor
  · rintro ⟨x, hx, hPx⟩
    obtain ⟨j, hj, hne, rfl⟩ := List.mem_eraseIdx_iff_getElem.mp hx
    exact ⟨⟨j, hj⟩, hne, hPx⟩
  · rintro ⟨j, hne, hPj⟩
    exact ⟨l[j], List.mem_eraseIdx_iff_getElem.mpr ⟨j, j.isLt, hne, rfl⟩, hPj⟩

namespace Request

variable {r : Request}

theorem one_lt_stemUses_iff {i : Nat} (hi : i < r.sources.length) :
    1 < r.stemUses (stemObject r.sources[i]) ↔ r.SharesStem i r.sources[i] := by
  have hself : decide ((stemObject r.sources[i]).Same (stemObject r.sources[i])) = true :=
    decide_eq_true rfl
  have hcount := one_lt_countP_iff
    (P := fun s => decide ((stemObject s).Same (stemObject r.sources[i]))) hi hself
  simp only [decide_eq_true_eq] at hcount
  exact hcount

theorem transformedObject_artifactOf (r : Request) (s : Path) :
    (r.artifactOf s).transformedObject =
      if 1 < r.stemUses (stemObject s) then s.sibling (transformedMark ++ s.fileName ++ ".o")
      else stemObject s := by
  have hstem : (Artifact.ofSource s).transformedObject = stemObject s := rfl
  unfold artifactOf
  simp only [hstem]
  split <;> rfl

theorem artifactOf_eq_namedAt {i : Nat} (hi : i < r.sources.length) :
    r.artifactOf r.sources[i] = r.namedAt i r.sources[i] := by
  rw [artifactOf_eq_ofSource, transformedObject_artifactOf]
  unfold namedAt
  by_cases hshared : r.SharesStem i r.sources[i]
  · rw [if_pos ((one_lt_stemUses_iff hi).mpr hshared), if_pos hshared]
    rfl
  · rw [if_neg (mt (one_lt_stemUses_iff hi).mp hshared), if_neg hshared]
    rfl

theorem artifacts_eq_namedArtifacts (r : Request) : r.artifacts = r.namedArtifacts := by
  apply List.ext_getElem
  · simp [artifacts, namedArtifacts]
  · intro i hi _
    have hi : i < r.sources.length := by simpa [artifacts] using hi
    simpa [artifacts, namedArtifacts] using artifactOf_eq_namedAt hi

theorem claims_eq_listed (r : Request) (plan : MergePlan) : r.claims plan = r.listed plan := by
  unfold claims listed
  rw [artifacts_eq_namedArtifacts]
  cases plan with
  | perSource => rfl
  | consolidated target => rfl

end Request

/-! ## The first clash -/

theorem Failure.message_clash (first second : Claimant) (file : Path) :
    (configuration (.clash first second file)).message = "configuration error: " ++ first.text ++
      " and " ++ second.text ++ " would both use " ++ file.text := by
  have hcause : (Misconfiguration.clash first second file).message =
      first.text ++ " and " ++ second.text ++ " would both use " ++ file.text := rfl
  have hmessage : (configuration (.clash first second file)).message =
      "configuration error: " ++ (Misconfiguration.clash first second file).message := rfl
  rw [hmessage, hcause]
  simp only [← String.append_assoc]

/-- The claims before the one that is reported do not clash, and it clashes with one of them. -/
theorem Claim.split_of_firstClash? {earlier claims : List Claim} {e c : Claim}
    (hclash : firstClash? earlier claims = some (e, c)) :
    ∃ before after, claims = before ++ c :: after ∧ firstClash? earlier before = none ∧
      (e ∈ before ∨ e ∈ earlier) ∧ e.file.Same c.file := by
  -- A claim that clashes with none before it moves over to `earlier`.
  induction claims generalizing earlier with
  | nil => cases hclash
  | cons d rest ih =>
      unfold firstClash? at hclash
      split at hclash
      · rename_i found hfind
        cases hclash
        have hsame : e.file.Same c.file := by simpa using List.find?_some hfind
        exact ⟨[], rest, rfl, rfl, Or.inr (List.mem_of_find?_eq_some hfind), hsame⟩
      · rename_i hfind
        obtain ⟨before, after, rfl, hnone, hmem, hsame⟩ := ih hclash
        refine ⟨d :: before, after, rfl, ?_, ?_, hsame⟩
        · unfold firstClash?
          rw [hfind]
          exact hnone
        · rcases hmem with hmem | hmem
          · exact Or.inl (List.mem_cons_of_mem d hmem)
          · rcases List.mem_cons.mp hmem with rfl | hmem
            · exact Or.inl List.mem_cons_self
            · exact Or.inr hmem

namespace Request

/-- The claim `later` is the first one of the list whose file lies where that of an earlier claim
does, and `first` is that earlier claim. -/
def FirstClash (files : List Claim) (first later : Claim) : Prop :=
  ∃ before after, files = before ++ later :: after ∧ Path.Apart (before.map Claim.file) ∧
    first ∈ before ∧ first.file.Same later.file

/-- A build is accepted exactly if all its files lie apart, with the files of its sources as they
are named. One that is refused is refused for the first file that lies where an earlier one does:
the report names the owners of both, and spells the file as it was claimed first. -/
theorem planArtifacts_ok_iff_listed_apart (r : Request) (plan : MergePlan) :
    ((∃ artifacts, r.planArtifacts plan = .ok artifacts) ↔
      Path.Apart ((r.listed plan).map Claim.file)) ∧
    (∀ artifacts, r.planArtifacts plan = .ok artifacts → artifacts = r.namedArtifacts) ∧
    ∀ e, r.planArtifacts plan = .error e →
      ∃ first later, FirstClash (r.listed plan) first later ∧
        e = .configuration (.clash first.owner later.owner first.file) ∧
        e.message = "configuration error: " ++ first.owner.text ++ " and " ++ later.owner.text ++
          " would both use " ++ first.file.text := by
  have hapart : Claim.firstClash? [] (r.listed plan) = none ↔
      Path.Apart ((r.listed plan).map Claim.file) := by
    rw [Claim.firstClash?_eq_none]
    simp
  unfold planArtifacts
  rw [claims_eq_listed, artifacts_eq_namedArtifacts, ← hapart]
  cases hclash : Claim.firstClash? [] (r.listed plan) with
  | none => simp
  | some clash =>
      obtain ⟨first, later⟩ := clash
      refine ⟨by simp, by simp, fun e he => ?_⟩
      obtain rfl : e = .configuration (.clash first.owner later.owner first.file) :=
        (Except.error.inj he).symm
      refine ⟨first, later, ?_, rfl, ?_⟩
      · obtain ⟨before, after, hfiles, hnone, hmem, hsame⟩ := Claim.split_of_firstClash? hclash
        have hbefore := (Claim.firstClash?_eq_none.mp hnone).1
        exact ⟨before, after, hfiles, hbefore, by simpa using hmem, hsame⟩
      · exact Failure.message_clash first.owner later.owner first.file

/-- Sources of one stem are told apart by their full names, until the full name of one is the stem
of another. -/
theorem planArtifacts_ok_iff_listed_apart_sample :
    let plan := MergePlan.consolidated ⟨"all.o"⟩
    let two : Request := { sources := [⟨"a.c"⟩, ⟨"a.cpp"⟩] }
    let three : Request := { sources := [⟨"a.c"⟩, ⟨"a.cpp"⟩, ⟨"a.c.c"⟩] }
    (∃ artifacts, two.planArtifacts plan = .ok artifacts ∧
      artifacts.map Artifact.transformedObject = [⟨"sst.a.c.o"⟩, ⟨"sst.a.cpp.o"⟩]) ∧
    three.planArtifacts plan =
      .error (.configuration (.clash (.input ⟨"a.c"⟩) (.input ⟨"a.c.c"⟩) ⟨"sst.a.c.o"⟩)) ∧
    ∃ first later, FirstClash (three.listed plan) first later ∧
      first = ⟨⟨"sst.a.c.o"⟩, .input ⟨"a.c"⟩⟩ ∧ later.owner = .input ⟨"a.c.c"⟩ := by
  intro plan two three
  have hrefused : three.planArtifacts plan =
      .error (.configuration (.clash (.input ⟨"a.c"⟩) (.input ⟨"a.c.c"⟩) ⟨"sst.a.c.o"⟩)) := by
    decide +kernel
  refine ⟨?_, hrefused, ?_⟩
  · obtain ⟨haccepted, hnames, _⟩ := planArtifacts_ok_iff_listed_apart two plan
    obtain ⟨artifacts, hplan⟩ := haccepted.mpr (by decide +kernel)
    refine ⟨artifacts, hplan, ?_⟩
    rw [hnames artifacts hplan]
    decide +kernel
  · obtain ⟨⟨file, owner⟩, ⟨laterFile, laterOwner⟩, hclash, heq, _⟩ :=
      (planArtifacts_ok_iff_listed_apart three plan).2.2 _ hrefused
    cases heq
    exact ⟨_, _, hclash, rfl, rfl⟩

end Request

end Deglobal
