import Deglobal.Artifact.Basic
import Deglobal.Proofs.Text.Parts
import Mathlib.Data.List.DropRight

/-! # The components of a sibling

Operations on paths work on the text; what they mean is read off the components.
A sibling's components are those of the directory and one more name, so that the
sibling of a sibling is a sibling: the names the transform tool gives to what it
writes beside its input are the planned ones.
-/

namespace Deglobal

namespace Path

/-! ## Pieces and components -/

theorem not_mem_of_mem_splitOn {cs piece : List Char} (h : piece ∈ cs.splitOn '/') :
    '/' ∉ piece :=
  fun hmem => (Text.of_mem_splitOn h hmem).2 rfl

theorem component?_of_isIdle {piece : List Char} (h : isIdle piece = true) :
    component? piece = none := by
  unfold component?
  rw [if_pos h]

@[simp] theorem component?_nil : component? [] = none := rfl

@[simp] theorem component?_dot : component? ['.'] = none := rfl

def anchorOf (cs : List Char) : List Component :=
  if cs.head? = some '/' then [.root]
  else if (cs.splitOn '/').head? = some ['.'] then [.here]
  else []

theorem anchored_of_separator {p : Path} {rest : List Char} (h : p.text.toList = '/' :: rest) :
    p.anchored = (['/'], rest.splitOn '/') := by
  unfold anchored
  rw [h]
  rfl

theorem anchored_of_dot {p : Path} {pieces : List (List Char)}
    (hroot : p.text.toList.head? ≠ some '/')
    (h : p.text.toList.splitOn '/' = ['.'] :: pieces) : p.anchored = (['.'], [] :: pieces) := by
  unfold anchored
  split
  · rename_i heq
    rw [heq] at hroot
    exact absurd rfl hroot
  · rw [h]
    rfl

theorem anchored_of_name {p : Path} (hroot : p.text.toList.head? ≠ some '/')
    (h : (p.text.toList.splitOn '/').head? ≠ some ['.']) :
    p.anchored = ([], p.text.toList.splitOn '/') := by
  unfold anchored
  split
  · rename_i heq
    rw [heq] at hroot
    exact absurd rfl hroot
  · split
    · rename_i heq
      rw [heq] at h
      exact absurd rfl h
    · rfl

def read (cs : List Char) : List Component :=
  anchorOf cs ++ (cs.splitOn '/').filterMap component?

theorem components_eq (p : Path) : p.components = read p.text.toList := by
  unfold components read anchorOf
  by_cases hroot : p.text.toList.head? = some '/'
  · obtain ⟨rest, hrest⟩ := List.head?_eq_some_iff.mp hroot
    rw [anchored_of_separator hrest, if_pos hroot, hrest]
    simp [anchorComponent, List.splitOn_cons_eq_if_modifyHead, List.filterMap_cons]
  · rw [if_neg hroot]
    by_cases hdot : (p.text.toList.splitOn '/').head? = some ['.']
    · obtain ⟨pieces, hpieces⟩ := List.head?_eq_some_iff.mp hdot
      rw [anchored_of_dot hroot hpieces, if_pos hdot, hpieces]
      simp [anchorComponent, List.filterMap_cons]
    · rw [anchored_of_name hroot hdot, if_neg hdot]
      rfl

/-! ## Names -/

/-- A text that stands for itself as a step of a path. -/
structure Plain (n : String) : Prop where
  no_slash : '/' ∉ n.toList
  not_idle : isIdle n.toList = false
  not_up : n.toList ≠ ['.', '.']

theorem Plain.component? {n : String} (hn : Plain n) :
    Path.component? n.toList = some (.name n) := by
  unfold Path.component?
  rw [if_neg (by simp [hn.not_idle]), if_neg (by simpa using hn.not_up)]
  simp

theorem plain_append (mark : String) {n : String} {c : Char} {cs : List Char}
    (hmark : mark.toList = c :: cs) (hdot : c ≠ '.') (hslash : '/' ∉ mark.toList)
    (hn : '/' ∉ n.toList) : Plain (mark ++ n) := by
  have htext : (mark ++ n).toList = c :: (cs ++ n.toList) := by
    rw [String.toList_append, hmark, List.cons_append]
  refine ⟨?_, ?_, ?_⟩
  · rw [String.toList_append, List.mem_append]
    exact fun h => h.elim hslash hn
  · rw [htext]
    simp [isIdle, hdot]
  · rw [htext]
    simp [hdot]

theorem plain_of_last {n : String} {c : Char} (hlast : n.toList.getLast? = some c) (hdot : c ≠ '.')
    (hslash : '/' ∉ n.toList) : Plain n := by
  have hne : ∀ {cs : List Char}, cs.getLast? ≠ some c → n.toList ≠ cs := by
    intro cs hcs heq
    rw [heq] at hlast
    exact hcs hlast
  have hempty : n.toList ≠ [] := hne (by simp)
  have hhere : n.toList ≠ ['.'] := hne (by simpa using hdot.symm)
  have hup : n.toList ≠ ['.', '.'] := hne (by simpa using hdot.symm)
  have hidle : isIdle n.toList = false := by
    simp [isIdle, hempty, hhere]
  exact ⟨hslash, hidle, hup⟩

theorem no_slash_of_name_mem {p : Path} {n : String} (h : .name n ∈ p.components) :
    '/' ∉ n.toList := by
  rw [components_eq, read, List.mem_append] at h
  rcases h with h | h
  · unfold anchorOf at h
    split at h
    · simp at h
    · split at h <;> simp at h
  · obtain ⟨piece, hpiece, hcomponent⟩ := List.mem_filterMap.mp h
    unfold component? at hcomponent
    split at hcomponent
    · cases hcomponent
    · split at hcomponent
      · cases hcomponent
      · injection hcomponent with hname
        injection hname with hname
        subst hname
        simpa using not_mem_of_mem_splitOn hpiece

theorem no_slash_fileName (p : Path) : '/' ∉ p.fileName.toList := by
  unfold fileName fileName?
  split
  · rename_i n hlast
    exact no_slash_of_name_mem (List.mem_of_getLast? hlast)
  · simp

/-! ## Joining -/

theorem read_separator (cs : List Char) :
    read ('/' :: cs) = .root :: (cs.splitOn '/').filterMap component? := by
  unfold read anchorOf
  simp [List.splitOn_cons_eq_if_modifyHead, List.filterMap_cons]

theorem read_append_separator {cs : List Char} (hcs : cs ≠ []) {piece : List Char}
    (hpiece : '/' ∉ piece) :
    read (cs ++ '/' :: piece) = read cs ++ (component? piece).toList := by
  have hsplit : (cs ++ '/' :: piece).splitOn '/' = cs.splitOn '/' ++ [piece] := by
    rw [List.splitOn_append_cons_self, List.splitOn_eq_singleton hpiece]
  have hhead : (cs.splitOn '/' ++ [piece]).head? = (cs.splitOn '/').head? :=
    List.head?_append_of_ne_nil _ (List.splitOn_ne_nil '/' cs)
  unfold read anchorOf
  rw [hsplit, List.head?_append_of_ne_nil _ hcs, hhead, List.filterMap_append, List.append_assoc]
  cases hc : component? piece with
  | none => simp [hc]
  | some c => simp [hc]

theorem Plain.components {n : String} (hn : Plain n) : (Path.mk n).components = [.name n] := by
  rw [components_eq, read, anchorOf, List.splitOn_eq_singleton hn.no_slash, if_neg, if_neg]
  · simp [hn.component?]
  · intro h
    have hidle := hn.not_idle
    injection h with hdot
    rw [hdot] at hidle
    cases hidle
  · intro h
    exact hn.no_slash (List.mem_of_mem_head? h)

theorem Plain.isAbsolute {n : String} (hn : Plain n) : (Path.mk n).isAbsolute = false := by
  have hmem := hn.no_slash
  unfold Path.isAbsolute
  cases hc : n.toList with
  | nil => rfl
  | cons c cs =>
      rw [hc] at hmem
      have hne : '/' ≠ c := fun h => hmem (h ▸ List.mem_cons_self)
      simp [List.isPrefixOf, hne]

theorem components_join (p : Path) {n : String} (hn : Plain n) :
    (p.join ⟨n⟩).components = p.components ++ [.name n] := by
  have hpiece : (component? n.toList).toList = [.name n] := by
    rw [hn.component?]
    rfl
  unfold join
  rw [if_neg (by simp [hn.isAbsolute])]
  split
  · rename_i hnone
    have hnil : p.text.toList = [] := List.getLast?_eq_none_iff.mp hnone
    rw [hn.components, components_eq p, hnil]
    rfl
  · rename_i hlast
    obtain ⟨before, htext⟩ := List.getLast?_eq_some_iff.mp hlast
    rw [components_eq, components_eq p, String.toList_append, htext, List.append_assoc,
      List.singleton_append]
    by_cases hbefore : before = []
    · subst hbefore
      rw [List.nil_append, List.nil_append, read_separator, read_separator,
        List.splitOn_eq_singleton hn.no_slash]
      simp [List.filterMap_cons, hn.component?]
    · rw [read_append_separator hbefore hn.no_slash,
        read_append_separator hbefore List.not_mem_nil, hpiece]
      simp
  · rename_i hlast
    have htext : p.text.toList ≠ [] := by
      intro hnil
      rw [hnil] at hlast
      cases hlast
    have hjoined : (p.text ++ "/" ++ n).toList = p.text.toList ++ '/' :: n.toList := by
      simp [String.toList_append]
    rw [components_eq, hjoined, read_append_separator htext hn.no_slash, hpiece, components_eq p]

/-! ## Parents -/

theorem filterMap_settled (pieces : List (List Char)) :
    (settled pieces).filterMap component? = pieces.filterMap component? := by
  have hidle : (pieces.rtakeWhile isIdle).filterMap component? = [] := by
    rw [List.filterMap_eq_nil_iff]
    exact fun piece h => component?_of_isIdle (List.mem_rtakeWhile_imp h)
  calc (settled pieces).filterMap component?
      = (pieces.rdropWhile isIdle ++ pieces.rtakeWhile isIdle).filterMap component? := by
        rw [List.filterMap_append, hidle, List.append_nil, settled,
          Text.dropTail_eq_rdropWhile]
    _ = pieces.filterMap component? := by rw [List.rdropWhile_append_rtakeWhile]

theorem component?_eq_none {piece : List Char} : component? piece = none ↔ isIdle piece = true := by
  refine ⟨fun h => ?_, component?_of_isIdle⟩
  unfold component? at h
  split at h
  · assumption
  · split at h <;> cases h

theorem filterMap_dropLast_settled (pieces : List (List Char)) :
    (settled pieces).dropLast.filterMap component? = (pieces.filterMap component?).dropLast := by
  rw [← filterMap_settled pieces]
  rcases List.eq_nil_or_concat (settled pieces) with hnil | ⟨before, piece, hsettled⟩
  · rw [hnil]
    rfl
  · rw [List.concat_eq_append] at hsettled
    have hne : settled pieces ≠ [] := by simp [hsettled]
    have hlast : ¬ isIdle piece := by
      have hkept : pieces.rdropWhile isIdle = before ++ [piece] := hsettled
      simpa [hkept] using List.rdropWhile_last_not isIdle pieces hne
    cases hc : component? piece with
    | none => exact absurd (component?_eq_none.mp hc) hlast
    | some c => simp [hsettled, hc]

theorem settled_prefix_self (pieces : List (List Char)) : settled pieces <+: pieces := by
  rw [settled, Text.dropTail_eq_rdropWhile]
  exact List.rdropWhile_prefix isIdle _

/-- The pieces of a path without its last component. -/
def keptPieces (pieces : List (List Char)) : List (List Char) :=
  settled (settled pieces).dropLast

theorem keptPieces_prefix_self (pieces : List (List Char)) : keptPieces pieces <+: pieces :=
  (settled_prefix_self _).trans ((List.dropLast_prefix _).trans (settled_prefix_self _))

theorem filterMap_keptPieces (pieces : List (List Char)) :
    (keptPieces pieces).filterMap component? = (pieces.filterMap component?).dropLast := by
  rw [keptPieces, filterMap_settled, filterMap_dropLast_settled]

/-- Pieces without separators, put together and taken apart again. -/
theorem filterMap_splitOn_intercalate {pieces : List (List Char)}
    (h : ∀ piece ∈ pieces, '/' ∉ piece) :
    ((['/'].intercalate pieces).splitOn '/').filterMap component? =
      pieces.filterMap component? := by
  by_cases hnil : pieces = []
  · subst hnil
    rfl
  · rw [List.splitOn_intercalate '/' h hnil]

theorem toList_parent (p : Path) :
    p.parent.text.toList = p.anchored.1 ++ ['/'].intercalate (keptPieces p.anchored.2) := by
  unfold parent keptPieces
  simp

theorem components_parent_of_separator {p : Path} {rest : List Char}
    (h : p.text.toList = '/' :: rest) :
    p.parent.components = .root :: ((rest.splitOn '/').filterMap component?).dropLast := by
  have hmem : ∀ piece ∈ keptPieces (rest.splitOn '/'), '/' ∉ piece := fun piece hpiece =>
    not_mem_of_mem_splitOn ((keptPieces_prefix_self _).subset hpiece)
  rw [components_eq, toList_parent, anchored_of_separator h, List.singleton_append,
    read_separator, filterMap_splitOn_intercalate hmem, filterMap_keptPieces]

theorem components_parent_of_dot {p : Path} {pieces : List (List Char)}
    (hroot : p.text.toList.head? ≠ some '/')
    (h : p.text.toList.splitOn '/' = ['.'] :: pieces) :
    p.parent.components = .here :: (pieces.filterMap component?).dropLast := by
  rw [components_eq, toList_parent, anchored_of_dot hroot h]
  obtain hnil | ⟨kept, hkept⟩ : keptPieces ([] :: pieces) = [] ∨
      ∃ kept, keptPieces ([] :: pieces) = [] :: kept := by
    rcases List.prefix_cons_iff.mp (keptPieces_prefix_self ([] :: pieces)) with
      hnil | ⟨kept, hkept, _⟩
    · exact Or.inl hnil
    · exact Or.inr ⟨kept, hkept⟩
  · have hdrop := filterMap_keptPieces ([] :: pieces)
    rw [hnil] at hdrop
    rw [List.filterMap_cons_none component?_nil] at hdrop
    rw [hnil, ← hdrop]
    rfl
  · have hdrop := filterMap_keptPieces ([] :: pieces)
    rw [hkept, List.filterMap_cons_none component?_nil,
      List.filterMap_cons_none component?_nil] at hdrop
    have hmem : ∀ piece ∈ ['.'] :: kept, '/' ∉ piece := by
      intro piece hpiece
      rcases List.mem_cons.mp hpiece with rfl | hpiece
      · decide
      · have hbegin := keptPieces_prefix_self ([] :: pieces)
        rw [hkept] at hbegin
        exact not_mem_of_mem_splitOn (h ▸ List.mem_cons_of_mem _
          ((List.prefix_cons_inj _).mp hbegin |>.subset hpiece))
    have htext : ['.'] ++ ['/'].intercalate ([] :: kept) =
        ['/'].intercalate (['.'] :: kept) := by
      cases kept <;> simp [List.intercalate]
    have hsplit := List.splitOn_intercalate '/' hmem (by simp)
    have hhead : (['/'].intercalate (['.'] :: kept)).head? ≠ some '/' := by
      rw [← htext]
      simp
    rw [hkept, htext, read, anchorOf, if_neg hhead, hsplit, ← hdrop]
    rfl

theorem intercalate_prefix_of (sep : List Char) {kept pieces : List (List Char)}
    (h : kept <+: pieces) : sep.intercalate kept <+: sep.intercalate pieces := by
  induction kept generalizing pieces with
  | nil => exact List.nil_prefix
  | cons first others ih =>
      obtain ⟨more, rfl, hmore⟩ := List.cons_prefix_iff.mp h
      by_cases hothers : others = []
      · subst hothers
        rw [List.intercalate_singleton]
        by_cases hnil : more = []
        · subst hnil
          exact List.prefix_iff_eq_append.mpr (by simp [List.intercalate_singleton])
        · rw [List.intercalate_cons_of_ne_nil hnil, List.append_assoc]
          exact List.prefix_append first _
      · have hnil : more ≠ [] := fun h => hothers (List.prefix_nil.mp (h ▸ hmore))
        rw [List.intercalate_cons_of_ne_nil hothers, List.intercalate_cons_of_ne_nil hnil]
        exact (List.prefix_append_right_inj _).mpr (ih hmore)

theorem components_parent_of_name {p : Path} (hroot : p.text.toList.head? ≠ some '/')
    (h : (p.text.toList.splitOn '/').head? ≠ some ['.']) :
    p.parent.components = ((p.text.toList.splitOn '/').filterMap component?).dropLast := by
  rw [components_eq, toList_parent, anchored_of_name hroot h, List.nil_append,
    ← filterMap_keptPieces]
  have hbegin := keptPieces_prefix_self (p.text.toList.splitOn '/')
  have hmem : ∀ piece ∈ keptPieces (p.text.toList.splitOn '/'), '/' ∉ piece :=
    fun piece hpiece => not_mem_of_mem_splitOn (hbegin.subset hpiece)
  -- The parent's text begins like the path's, so neither has an anchor.
  have htext : ['/'].intercalate (keptPieces (p.text.toList.splitOn '/')) <+: p.text.toList := by
    have hjoined := intercalate_prefix_of ['/'] hbegin
    rwa [List.intercalate_splitOn] at hjoined
  have hhead : (['/'].intercalate (keptPieces (p.text.toList.splitOn '/'))).head? ≠
      some '/' := by
    intro hslash
    obtain ⟨rest, hrest⟩ := List.head?_eq_some_iff.mp hslash
    rw [hrest] at htext
    obtain ⟨more, hmore, _⟩ := List.cons_prefix_iff.mp htext
    exact hroot (by rw [hmore]; rfl)
  by_cases hnil : keptPieces (p.text.toList.splitOn '/') = []
  · rw [hnil]
    rfl
  · have hsplit := List.splitOn_intercalate '/' hmem hnil
    have hdot : (keptPieces (p.text.toList.splitOn '/')).head? ≠ some ['.'] := by
      intro hdot
      obtain ⟨rest, hrest⟩ := List.head?_eq_some_iff.mp hdot
      rw [hrest] at hbegin
      obtain ⟨more, hmore, _⟩ := List.cons_prefix_iff.mp hbegin
      exact h (by rw [hmore]; rfl)
    rw [read, anchorOf, if_neg hhead, hsplit, if_neg hdot, List.nil_append]

theorem getLast?_of_fileName? {p : Path} (h : p.fileName?.isSome) :
    ∃ n, p.components.getLast? = some (.name n) := by
  unfold fileName? at h
  split at h
  · rename_i n hlast
    exact ⟨n, hlast⟩
  · cases h

theorem components_parent {p : Path} (h : p.fileName?.isSome) :
    p.parent.components = p.components.dropLast := by
  obtain ⟨n, hlast⟩ := getLast?_of_fileName? h
  rw [components_eq p] at hlast ⊢
  by_cases hroot : p.text.toList.head? = some '/'
  · obtain ⟨rest, hrest⟩ := List.head?_eq_some_iff.mp hroot
    rw [components_parent_of_separator hrest, hrest, read_separator, List.dropLast_cons_of_ne_nil]
    intro hnil
    rw [hrest, read_separator, hnil] at hlast
    cases hlast
  · by_cases hdot : (p.text.toList.splitOn '/').head? = some ['.']
    · obtain ⟨pieces, hpieces⟩ := List.head?_eq_some_iff.mp hdot
      have hread : read p.text.toList = .here :: pieces.filterMap component? := by
        rw [read, anchorOf, if_neg hroot, if_pos hdot, hpieces,
          List.filterMap_cons_none component?_dot]
        rfl
      rw [components_parent_of_dot hroot hpieces, hread, List.dropLast_cons_of_ne_nil]
      intro hnil
      rw [hread, hnil] at hlast
      cases hlast
    · rw [components_parent_of_name hroot hdot, read, anchorOf, if_neg hroot, if_neg hdot,
        List.nil_append]

/-! ## Siblings -/

/-- The components of the directory that a path's siblings lie in. -/
def directory (p : Path) : List Component :=
  if p.fileName?.isSome then p.components.dropLast else p.components

theorem components_sibling (p : Path) {n : String} (hn : Plain n) :
    (p.sibling n).components = p.directory ++ [.name n] := by
  unfold sibling directory
  split
  · rename_i h
    rw [components_join _ hn, components_parent h]
  · exact components_join p hn

theorem fileName?_sibling (p : Path) {n : String} (hn : Plain n) :
    (p.sibling n).fileName? = some n := by
  unfold fileName?
  rw [components_sibling p hn, List.getLast?_concat]

theorem fileName_sibling (p : Path) {n : String} (hn : Plain n) :
    (p.sibling n).fileName = n := by
  rw [fileName, fileName?_sibling p hn, Option.getD_some]

theorem directory_sibling (p : Path) {n : String} (hn : Plain n) :
    (p.sibling n).directory = p.directory := by
  rw [directory, if_pos (by rw [fileName?_sibling p hn]; rfl), components_sibling p hn,
    List.dropLast_concat]

theorem sibling_sibling_same (p : Path) {n m : String} (hn : Plain n) (hm : Plain m) :
    ((p.sibling n).sibling m).Same (p.sibling m) := by
  unfold Same
  rw [components_sibling _ hm, directory_sibling p hn, components_sibling p hm]

end Path

theorem Path.mem_text_sibling (p : Path) {n : String} {c : Char} (hc : c ∈ n.toList) :
    c ∈ (p.sibling n).text.toList := by
  have hjoin : ∀ q : Path, c ∈ (q.join ⟨n⟩).text.toList := by
    intro q
    unfold Path.join
    split
    · exact hc
    · split
      · exact hc
      · rw [String.toList_append]
        exact List.mem_append_right _ hc
      · rw [String.toList_append]
        exact List.mem_append_right _ hc
  unfold Path.sibling
  split
  · exact hjoin p.parent
  · exact hjoin p

/-! ## What the transform tool writes -/

namespace Artifact

theorem plain_preprocessed (source : Path) : Path.Plain (preprocessedMark ++ source.fileName) :=
  Path.plain_append preprocessedMark rfl (by decide) (by decide) source.no_slash_fileName

theorem fileName_preprocessed (source : Path) :
    (ofSource source).preprocessed.fileName = preprocessedMark ++ source.fileName :=
  Path.fileName_sibling source (plain_preprocessed source)

theorem plain_transformedSource (source : Path) :
    Path.Plain (transformedMark ++ preprocessedMark ++ source.fileName) := by
  rw [String.append_assoc]
  exact Path.plain_append transformedMark rfl (by decide) (by decide)
    (plain_preprocessed source).no_slash

theorem plain_companionSource (source : Path) :
    Path.Plain (companionMark ++ preprocessedMark ++ source.fileName ++ ".cpp") := by
  have hslash : '/' ∉ (preprocessedMark ++ (source.fileName ++ ".cpp")).toList := by
    rw [← String.append_assoc, String.toList_append, List.mem_append]
    exact fun h => h.elim (plain_preprocessed source).no_slash (by decide)
  rw [String.append_assoc, String.append_assoc]
  exact Path.plain_append companionMark rfl (by decide) (by decide) hslash

/-- The tool writes the transformed source where the plan has it. -/
theorem transformedBeside_same (source : Path) :
    (transformedBeside (ofSource source).preprocessed).Same
      (ofSource source).transformedSource := by
  unfold transformedBeside
  rw [fileName_preprocessed, ← String.append_assoc]
  exact Path.sibling_sibling_same source (plain_preprocessed source)
    (plain_transformedSource source)

theorem companionBeside_same (source : Path) :
    (companionBeside (ofSource source).preprocessed).Same
      (ofSource source).companionSource := by
  unfold companionBeside
  rw [fileName_preprocessed, ← String.append_assoc]
  exact Path.sibling_sibling_same source (plain_preprocessed source)
    (plain_companionSource source)

end Artifact

end Deglobal
