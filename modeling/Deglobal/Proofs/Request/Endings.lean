import Deglobal.Artifact.Plan
import Deglobal.Proofs.Path.Sibling
import Deglobal.Request.Classify

/-! # What inputs are called

Sorting a command line tells inputs apart by how they end. An ending without a
separator is the end of the last component as well, so the name an input lies
under ends like one of them. A shared object's name never does.
-/

namespace Deglobal

def inputEndings : List String := sourceEndings ++ [assemblyEnding, objectEnding]

theorem Text.ends_iff {s ending : String} :
    Text.ends s ending = true ↔ ending.toList <:+ s.toList := List.isSuffixOf_iff_suffix

theorem Text.ends_append {s ending : String} (h : Text.ends s ending = true) (start : String) :
    Text.ends (start ++ s) ending = true := by
  rw [Text.ends_iff, String.toList_append]
  exact (Text.ends_iff.mp h).trans (List.suffix_append _ _)

theorem Text.ends_append_self (start ending : String) :
    Text.ends (start ++ ending) ending = true := by
  rw [Text.ends_iff, String.toList_append]
  exact List.suffix_append _ _

/-- A text has one of two endings only, unless one of these ends with the other. -/
theorem Text.not_ends {a x y : String} (hx : Text.ends a x = true)
    (hne : ¬ x.toList <:+ y.toList ∧ ¬ y.toList <:+ x.toList) : Text.ends a y = false := by
  by_contra hy
  have hends : Text.ends a y = true := (Bool.not_eq_false _).mp hy
  rcases List.suffix_or_suffix_of_suffix (Text.ends_iff.mp hx) (Text.ends_iff.mp hends) with h | h
  · exact hne.1 h
  · exact hne.2 h

/-! ## Endings of components -/

theorem exists_last_piece (cs : List Char) {ending : List Char} (hslash : '/' ∉ ending) :
    ∃ before piece, (cs ++ ending).splitOn '/' = before ++ [piece] ∧ ending <:+ piece := by
  induction cs with
  | nil =>
      have hwhole : ending.splitOn '/' = [ending] := List.splitOn_eq_singleton hslash
      exact ⟨[], ending, hwhole, List.suffix_refl ending⟩
  | cons c rest ih =>
      obtain ⟨before, piece, hsplit, hpiece⟩ := ih
      rw [List.cons_append, List.splitOn_cons_eq_if_modifyHead, hsplit]
      split
      · exact ⟨[] :: before, piece, rfl, hpiece⟩
      · cases before with
        | nil => exact ⟨[], c :: piece, rfl, hpiece.trans (List.suffix_cons c piece)⟩
        | cons first others => exact ⟨(c :: first) :: others, piece, rfl, hpiece⟩

theorem Path.exists_name_of_ends {p : Path} {ending : String} {c : Char}
    (hends : Text.ends p.text ending = true) (hslash : '/' ∉ ending.toList)
    (hlast : ending.toList.getLast? = some c) (hdot : c ≠ '.') :
    ∃ n, p.components.getLast? = some (.name n) ∧ ending.toList <:+ n.toList := by
  obtain ⟨cs, htext⟩ : ending.toList <:+ p.text.toList := Text.ends_iff.mp hends
  obtain ⟨before, piece, hsplit, hpiece⟩ := exists_last_piece cs hslash
  have hmem : piece ∈ (cs ++ ending.toList).splitOn '/' := by
    rw [hsplit]
    exact List.mem_append_right _ List.mem_cons_self
  have hpiece_slash : '/' ∉ piece := not_mem_of_mem_splitOn hmem
  have hpiece_last : piece.getLast? = some c := by
    obtain ⟨start, rfl⟩ := hpiece
    rw [List.getLast?_append, hlast]
    rfl
  have hplain : Path.Plain (String.ofList piece) :=
    plain_of_last (by simpa using hpiece_last) hdot (by simpa using hpiece_slash)
  have hcomponent : Path.component? piece = some (.name (String.ofList piece)) := by
    simpa using hplain.component?
  refine ⟨String.ofList piece, ?_, by simpa using hpiece⟩
  rw [components_eq, read, ← htext, hsplit, List.filterMap_append]
  simp [hcomponent]

theorem Path.exists_name_of_input {p : Path} {ending : String} (hending : ending ∈ inputEndings)
    (hends : Text.ends p.text ending = true) :
    ∃ n, p.components.getLast? = some (.name n) ∧ Text.ends n ending = true := by
  have hslash : ∀ e ∈ inputEndings, '/' ∉ e.toList := by decide
  have hdot : ∀ e ∈ inputEndings, ∃ c, e.toList.getLast? = some c ∧ c ≠ '.' := by
    simp [inputEndings, sourceEndings, assemblyEnding, objectEnding]
  obtain ⟨c, hchar, hc⟩ := hdot ending hending
  obtain ⟨n, hname, hsuffix⟩ := exists_name_of_ends hends (hslash ending hending) hchar hc
  exact ⟨n, hname, Text.ends_iff.mpr hsuffix⟩

theorem fileName_sharedObjectPath (output : Path) :
    (sharedObjectPath output).components.getLast? =
      some (.name ("lib" ++ output.fileName ++ ".so")) := by
  have hslash : '/' ∉ (output.fileName ++ ".so").toList := by
    rw [String.toList_append, List.mem_append]
    exact fun h => h.elim output.no_slash_fileName (by decide)
  have hplain : Path.Plain ("lib" ++ output.fileName ++ ".so") := by
    rw [String.append_assoc]
    exact Path.plain_append "lib" rfl (by decide) (by decide) hslash
  rw [sharedObjectPath, Path.components_sibling output hplain, List.getLast?_concat]

theorem sharedObjectPath_not_same (output : Path) {p : Path} {ending : String}
    (hending : ending ∈ inputEndings) (hends : Text.ends p.text ending = true) :
    ¬ (sharedObjectPath output).Same p := by
  have hother : ∀ e ∈ inputEndings, ¬ e.toList <:+ ".so".toList ∧ ¬ ".so".toList <:+ e.toList := by
    decide
  intro hsame
  obtain ⟨n, hname, hend⟩ := Path.exists_name_of_input hending hends
  have hlast := fileName_sharedObjectPath output
  rw [hsame, hname] at hlast
  injection hlast with hlast
  injection hlast with hlast
  subst hlast
  have hshared := Text.ends_append_self ("lib" ++ output.fileName) ".so"
  rw [Text.not_ends hend (hother ending hending)] at hshared
  cases hshared

/-! ## Endings of a sorted command line -/

namespace ArgKind

variable {a : String}

theorem ends_of_object (h : ofArg a = .object) : Text.ends a objectEnding = true := by
  grind [ofArg]

theorem ends_of_source (h : ofArg a = .source) : sourceEndings.any (Text.ends a) = true := by
  grind [ofArg]

theorem ends_of_assembly (h : ofArg a = .assembly) : Text.ends a assemblyEnding = true := by
  grind [ofArg]

end ArgKind

namespace Request

/-- Every file of a request stands where its ending belongs. -/
structure Sorted (r : Request) : Prop where
  sources : ∀ p ∈ r.sources, sourceEndings.any (Text.ends p.text) = true
  assembly : ∀ p ∈ r.assembly, Text.ends p.text assemblyEnding = true
  objects : ∀ p ∈ r.objects, Text.ends p.text objectEnding = true

variable {r r' : Request}

theorem Sorted.add (hr : r.Sorted) {a : String} {kind : ArgKind} (hkind : ArgKind.ofArg a = kind) :
    (r.add a kind).Sorted := by
  obtain ⟨hsources, hassembly, hobjects⟩ := hr
  have happend : ∀ {files : List Path} {P : Path → Prop}, (∀ p ∈ files, P p) → P ⟨a⟩ →
      ∀ p ∈ files ++ [⟨a⟩], P p := by
    intro files P hfiles ha p hp
    rcases List.mem_append.mp hp with hp | hp
    · exact hfiles p hp
    · rwa [List.mem_singleton.mp hp]
  cases kind with
  | object => exact ⟨hsources, hassembly, happend hobjects (ArgKind.ends_of_object hkind)⟩
  | source => exact ⟨happend hsources (ArgKind.ends_of_source hkind), hassembly, hobjects⟩
  | assembly => exact ⟨hsources, happend hassembly (ArgKind.ends_of_assembly hkind), hobjects⟩
  | linker => exact ⟨hsources, hassembly, hobjects⟩
  | compilerFlag => exact ⟨hsources, hassembly, hobjects⟩
  | verbose => exact ⟨hsources, hassembly, hobjects⟩
  | control => exact ⟨hsources, hassembly, hobjects⟩
  | output => exact ⟨hsources, hassembly, hobjects⟩
  | other => exact ⟨hsources, hassembly, hobjects⟩

theorem Sorted.ofCleanArgs (hr : r.Sorted) {args : List String}
    (hargs : ofCleanArgs r args = .ok r') : r'.Sorted := by
  fun_induction Request.ofCleanArgs r args with
  | case1 r =>
      cases hargs
      exact hr
  | case2 => cases hargs
  | case3 r a operand rest _ ih => exact ih ⟨hr.sources, hr.assembly, hr.objects⟩ hargs
  | case4 r a rest _ _ ih => exact ih (hr.add rfl) hargs

theorem eq_of_checked (hchecked : r.checked = .ok r') : r' = r := by
  unfold checked at hchecked
  split at hchecked
  · cases hchecked
  · exact (Except.ok.inj hchecked).symm

theorem ofCleanArgs_of_classify {args : List String} (hargs : classify args = .ok (.build r)) :
    ofCleanArgs {} (args.map cleanArg) = .ok r ∧ r.checked = .ok r := by
  unfold classify at hargs
  split at hargs
  · cases hargs
  · cases hclean : Request.ofCleanArgs {} (args.map cleanArg) with
    | error e =>
        rw [hclean] at hargs
        cases hargs
    | ok found =>
        have hrest : (found.checked.bind fun r => .ok (Invocation.build r)) = .ok (.build r) := by
          rw [hclean] at hargs
          exact hargs
        cases hchecked : found.checked with
        | error e =>
            rw [hchecked] at hrest
            cases hrest
        | ok whole =>
            rw [hchecked] at hrest
            cases hrest
            obtain rfl := eq_of_checked hchecked
            exact ⟨rfl, hchecked⟩

/-- A request with sources names one object file at most, the output included. -/
theorem length_namedObjects_of_classify {args : List String}
    (hargs : classify args = .ok (.build r)) (hsources : r.hasSources = true) :
    r.namedObjects.length ≤ 1 := by
  have hchecked := (ofCleanArgs_of_classify hargs).2
  unfold checked at hchecked
  split at hchecked
  · cases hchecked
  · rename_i hfew
    simpa [hsources] using hfew

theorem length_objects_of_classify {args : List String} (hargs : classify args = .ok (.build r))
    (hsources : r.hasSources = true) : r.objects.length ≤ 1 := by
  have hnamed := length_namedObjects_of_classify hargs hsources
  rw [namedObjects, List.length_append] at hnamed
  omega

/-- A build that a command line asks for has its files where their endings belong. -/
theorem sorted_of_classify {args : List String} (hargs : classify args = .ok (.build r)) :
    r.Sorted := by
  have hnone : ∀ {P : Path → Prop}, ∀ p ∈ ([] : List Path), P p :=
    fun p hp => absurd hp List.not_mem_nil
  have hempty : ({} : Request).Sorted := ⟨hnone, hnone, hnone⟩
  exact hempty.ofCleanArgs (ofCleanArgs_of_classify hargs).1

theorem Sorted.ends_of_mem_inputs (hr : r.Sorted) {p : Path} (hp : p ∈ r.inputs) :
    ∃ ending ∈ inputEndings, Text.ends p.text ending = true := by
  rcases List.mem_append.mp hp with hp | hp
  · rcases List.mem_append.mp hp with hp | hp
    · obtain ⟨ending, hending, hends⟩ := List.any_eq_true.mp (hr.sources p hp)
      exact ⟨ending, List.mem_append_left _ hending, hends⟩
    · exact ⟨assemblyEnding, by decide, hr.assembly p hp⟩
  · exact ⟨objectEnding, by decide, hr.objects p hp⟩

end Request

end Deglobal
