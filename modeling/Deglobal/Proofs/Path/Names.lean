import Deglobal.Proofs.Path.Sibling
import Mathlib.Data.List.TakeDrop

/-! # Names and directories

A path that has a file name lies in its directory under that name, and these two
make out its location: they decide which paths and which siblings are the same.
The stem of a name is the part before its last dot, or else the whole name.
-/

namespace Deglobal

namespace Path

variable {p q : Path} {n m : String}

theorem Same.fileName_eq (h : p.Same q) : p.fileName = q.fileName := by
  have hcomponents : p.components = q.components := h
  simp only [fileName, fileName?, hcomponents]

theorem fileName_of_getLast? (hlast : p.components.getLast? = some (.name n)) : p.fileName = n := by
  unfold fileName fileName?
  rw [hlast]
  rfl

theorem isSome_fileName?_of_getLast? (hlast : p.components.getLast? = some (.name n)) :
    p.fileName?.isSome := by
  simp [fileName?, hlast]

theorem components_eq_directory (hp : p.fileName?.isSome) :
    p.components = p.directory ++ [.name p.fileName] := by
  obtain ⟨n, hlast⟩ := getLast?_of_fileName? hp
  obtain ⟨before, hcomponents⟩ := List.getLast?_eq_some_iff.mp hlast
  rw [directory, if_pos hp, fileName_of_getLast? hlast, hcomponents, List.dropLast_concat]

theorem same_iff_of_fileName? (hp : p.fileName?.isSome) (hq : q.fileName?.isSome) :
    p.Same q ↔ p.directory = q.directory ∧ p.fileName = q.fileName := by
  rw [Same, components_eq_directory hp, components_eq_directory hq]
  simp

theorem sibling_same_iff (hn : Plain n) (hm : Plain m) :
    (p.sibling n).Same (q.sibling m) ↔ p.directory = q.directory ∧ n = m := by
  rw [Same, components_sibling p hn, components_sibling q hm]
  simp

theorem components_parent_sibling (p : Path) (hn : Plain n) :
    (p.sibling n).parent.components = p.directory := by
  have hname : (p.sibling n).fileName?.isSome := by
    rw [fileName?_sibling p hn]
    rfl
  rw [components_parent hname, components_sibling p hn, List.dropLast_concat]

/-- What lies beside a path with a file name lies in its parent. -/
theorem directory_of_named (hp : p.fileName?.isSome) : p.directory = p.parent.components := by
  rw [directory, if_pos hp, components_parent hp]

theorem directory_of_unnamed (hp : p.fileName? = none) : p.directory = p.components := by
  rw [directory, hp]
  rfl

/-! ## Stems -/

/-- A name is its own stem if it has no dot but one that leads it; else a dot and the suffix follow
the stem. -/
theorem stemOf_cases (n : String) :
    (stemOf n = n ∧ ('.' ∈ n.toList → n.toList.head? = some '.')) ∨
      ∃ suffix, n.toList = (stemOf n).toList ++ '.' :: suffix := by
  unfold stemOf
  rw [List.span_eq_takeWhile_dropWhile]
  have hsplit : n.toList.reverse.takeWhile (· != '.') ++ n.toList.reverse.dropWhile (· != '.') =
      n.toList.reverse := List.takeWhile_append_dropWhile
  cases hdropped : n.toList.reverse.dropWhile (· != '.') with
  | nil =>
      refine Or.inl ⟨rfl, fun hdot => ?_⟩
      have hnone := List.dropWhile_eq_nil_iff.mp hdropped '.' (List.mem_reverse.mpr hdot)
      simp at hnone
  | cons dot before =>
      have hdot : dot = '.' := by
        have hhead := List.head?_dropWhile_not (· != '.') n.toList.reverse
        simpa [hdropped] using hhead
      have htext : n.toList =
          before.reverse ++ '.' :: (n.toList.reverse.takeWhile (· != '.')).reverse := by
        rw [hdropped, hdot] at hsplit
        have hreversed := congrArg List.reverse hsplit
        simpa using hreversed.symm
      cases hbefore : before.isEmpty with
      | true =>
          rw [List.isEmpty_iff.mp hbefore] at htext
          refine Or.inl ⟨by simp [hbefore], fun _ => by rw [htext]; rfl⟩
      | false => exact Or.inr ⟨_, by simpa [hbefore] using htext⟩

theorem stemOf_isPrefix (n : String) : (stemOf n).toList <+: n.toList := by
  rcases stemOf_cases n with ⟨hstem, _⟩ | ⟨suffix, hname⟩
  · simp [hstem]
  · simp [hname]

theorem fileStem_eq (hp : p.fileName?.isSome) : p.fileStem = stemOf p.fileName := by
  obtain ⟨n, hname⟩ := Option.isSome_iff_exists.mp hp
  simp [fileStem, fileName, hname]

theorem length_fileStem_le (p : Path) : p.fileStem.length ≤ p.fileName.length := by
  unfold fileStem fileName
  cases p.fileName? with
  | none => simp
  | some n =>
      have hlength := (stemOf_isPrefix n).length_le
      rwa [String.length_toList, String.length_toList] at hlength

theorem no_slash_fileStem (p : Path) : '/' ∉ p.fileStem.toList := by
  have hname := p.no_slash_fileName
  unfold fileStem
  unfold fileName at hname
  cases h : p.fileName? with
  | none => simp
  | some n =>
      rw [h] at hname
      exact fun hmem => hname ((stemOf_isPrefix n).subset hmem)

theorem plain_object {n : String} (hn : '/' ∉ n.toList) : Plain (n ++ ".o") := by
  have hlast : (n ++ ".o").toList.getLast? = some 'o' := by
    simp [String.toList_append]
  have hslash : '/' ∉ (n ++ ".o").toList := by
    simp [String.toList_append, hn]
  exact plain_of_last hlast (by decide) hslash

theorem plain_marked_object {mark n : String} (hmark : '/' ∉ mark.toList) (hn : '/' ∉ n.toList) :
    Plain (mark ++ n ++ ".o") := by
  apply plain_object
  simp [String.toList_append, hmark, hn]

end Path

end Deglobal
