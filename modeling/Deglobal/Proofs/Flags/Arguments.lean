import Deglobal.Flags
import Deglobal.Proofs.Directories.Placeholders
import Deglobal.Proofs.Text.Words
import Mathlib.Data.List.Basic

/-! # Configured flags as arguments

A configured text has its placeholders filled in before it is split at white
space. No placeholder holds white space, so that what each word of the text comes
to does not depend on the others; but a directory that holds some splits the word
it is put into, and an empty one can make a word vanish. Where the directories
are words themselves each word of the text becomes one argument.
-/

namespace Deglobal

/-! ## Filling in between blanks -/

namespace Text

variable {fillings : List (List Char × List Char)}

theorem keepsBlanks_substituteAll (hmarks : ∀ x ∈ fillings, IsWord x.1) :
    KeepsBlanks (substituteAll fillings) := by
  induction fillings with
  | nil => exact ⟨rfl, fun _ _ _ _ => rfl⟩
  | cons x rest ih =>
      obtain ⟨hne, hblank⟩ := hmarks x List.mem_cons_self
      have hfirst : KeepsBlanks (substituteFrom x.1 x.2 0) := by
        refine ⟨substituteFrom_nil x.1 x.2 0, fun s b t hb => ?_⟩
        refine substituteFrom_append_cons hne (fun hmem => ?_) x.2 s t
        exact Bool.false_ne_true ((hblank b hmem).symm.trans hb)
      exact (ih fun y hy => hmarks y (List.mem_cons_of_mem x hy)).comp hfirst

theorem isWord_substituteAll (hfillings : ∀ x ∈ fillings, x.1 ≠ [] ∧ IsWord x.2) {s : List Char}
    (hs : IsWord s) : IsWord (substituteAll fillings s) := by
  induction fillings generalizing s with
  | nil => exact hs
  | cons x rest ih =>
      obtain ⟨hne, hx⟩ := hfillings x List.mem_cons_self
      refine ih (fun y hy => hfillings y (List.mem_cons_of_mem x hy)) ⟨?_, fun c hc => ?_⟩
      · exact substituteFrom_ne_nil hne hx.1 hs.1
      · exact (mem_substituteFrom hne hc).elim (hs.2 c) (hx.2 c)

end Text

namespace Directories

variable {d : Directories}

theorem isWord_of_mem_fillings {x : List Char × List Char} (hx : x ∈ d.fillings) :
    Text.IsWord x.1 := by
  have hmarks : ∀ mark ∈ marks, mark ≠ "" ∧ Text.hasBlank mark = false := by decide
  obtain ⟨mark, hmark, heq⟩ := exists_mark_of_mem_fillings hx
  rw [heq]
  exact Text.isWord_toList_iff.mpr (hmarks mark hmark)

/-- What a word comes to does not depend on the words around it. -/
theorem words_fill (d : Directories) (flags : String) :
    Text.words (d.fill flags) = (Text.words flags).flatMap fun w => Text.words (d.fill w) := by
  have hkeeps := Text.keepsBlanks_substituteAll fun _ hx => isWord_of_mem_fillings (d := d) hx
  rw [Text.words, toList_fill, hkeeps.wordsOf_eq, List.map_flatMap, Text.words, List.flatMap_map]
  refine List.flatMap_congr fun w _ => ?_
  rw [Text.words, toList_fill, String.toList_ofList]

theorem isWord_fill (hdirs : ∀ dir ∈ d.all, Text.IsWord dir.toList) {w : String}
    (hw : Text.IsWord w.toList) : Text.IsWord (d.fill w).toList := by
  rw [toList_fill]
  refine Text.isWord_substituteAll (fun x hx => ⟨(isWord_of_mem_fillings hx).1, ?_⟩) hw
  obtain ⟨dir, hdir, heq⟩ := exists_dir_of_mem_fillings hx
  rw [heq]
  exact hdirs dir hdir

/-- Every directory is what some word is filled in with. -/
theorem Settled.exists_fill_eq (hd : d.Settled) {dir : String} (hdir : dir ∈ d.all) :
    ∃ mark : String, Text.IsWord mark.toList ∧ d.fill mark = dir := by
  obtain ⟨x, hx, heq⟩ := exists_mem_fillings_of_mem_all hdir
  refine ⟨String.ofList x.1, ?_, ?_⟩
  · rw [String.toList_ofList]
    exact isWord_of_mem_fillings hx
  · rw [← String.toList_inj, toList_fill, String.toList_ofList, ← heq]
    exact hd.isFilling.substituteAll_mark hx

end Directories

/-! ## Arguments of configured texts -/

namespace Flags

variable {d : Directories}

def filledWords (d : Directories) (flags : String) : List String := (Text.words flags).map d.fill

theorem resolve_eq_filledWords_iff {flags : String} :
    resolve d flags = filledWords d flags ↔
      ∀ w ∈ Text.words flags, Text.IsWord (d.fill w).toList := by
  constructor
  · intro heq w hw
    have hmem : d.fill w ∈ resolve d flags := heq ▸ List.mem_map_of_mem hw
    exact Text.isWord_of_mem_words hmem
  · intro hwords
    have hone : ∀ w ∈ Text.words flags, Text.words (d.fill w) = [d.fill w] :=
      fun w hw => Text.words_of_isWord (hwords w hw)
    rw [resolve, d.words_fill, List.flatMap_congr hone, filledWords, List.map_eq_flatMap]

/-- Every text becomes its words, each filled in, exactly if the directories are words. -/
theorem forall_resolve_eq_iff (hd : d.Settled) :
    (∀ flags, resolve d flags = filledWords d flags) ↔
      ∀ dir ∈ d.all, Text.IsWord dir.toList := by
  constructor
  · intro hall dir hdir
    obtain ⟨mark, hmark, rfl⟩ := hd.exists_fill_eq hdir
    refine resolve_eq_filledWords_iff.mp (hall mark) mark ?_
    rw [Text.words_of_isWord hmark]
    exact List.mem_cons_self
  · intro hdirs flags
    exact resolve_eq_filledWords_iff.mpr fun w hw =>
      Directories.isWord_fill hdirs (Text.isWord_of_mem_words hw)

/-- A configured text is split as if its words had been filled in one by one and split after that;
a word becomes one argument exactly if what it is filled in with leaves it one. That is so of every
text exactly if no directory is empty or holds white space, and then every configured argument is
one argument of each group of flags. -/
theorem one_argument_per_word_iff (v : Description) (d : Directories)
    (h : Directories.ofDescription v = .ok d) :
    (∀ flags, resolve d flags = (Text.words flags).flatMap (resolve d)) ∧
      (∀ flags, resolve d flags = filledWords d flags ↔
        ∀ w ∈ Text.words flags, d.fill w ≠ "" ∧ Text.hasBlank (d.fill w) = false) ∧
      ((∀ flags, resolve d flags = filledWords d flags) ↔
        ∀ dir ∈ d.all, dir ≠ "" ∧ Text.hasBlank dir = false) ∧
      ((∀ dir ∈ d.all, dir ≠ "" ∧ Text.hasBlank dir = false) →
        ∀ language toggles tool? r,
          let t := Toolchain.assemble language v d toggles tool?
          let f := Flags.ofRequest t r
          f.cppflags = v.cppflags.flatMap (filledWords d) ∧
            f.ldflags = v.ldflags.flatMap (filledWords d) ++ runtimeLibs ∧
            f.compilerFlags =
              (filledWords d t.languageFlags).filter (fun w => !isOptOrDebug w) ∧
            f.companionFlags = filledWords d v.cxxflags ∧
            f.soFlags = filledWords d v.soFlags ∧
            f.transformArgs =
              (match language with
                | .c => filledWords d v.libtoolingCflags
                | .cxx => ["-std=c++1y", "-stdlib=libc++"] ++
                    filledWords d v.libtoolingCxxflags).map ("--extra-arg=" ++ ·)) := by
  obtain ⟨_, _, _, hsettled⟩ := Directories.ofDescription_eq_ok.mp h
  have hall := forall_resolve_eq_iff hsettled
  simp only [Text.isWord_toList_iff] at hall
  refine ⟨d.words_fill, fun flags => ?_, hall, ?_⟩
  · simp only [resolve_eq_filledWords_iff, Text.isWord_toList_iff]
  · intro hdirs language toggles tool? r
    have hresolve : resolve d = filledWords d := funext (hall.mpr hdirs)
    cases language <;>
      simp [ofRequest, toolingFlags, resolveAll, Toolchain.assemble, Toolchain.languageFlags,
        hresolve]

theorem one_argument_per_word_iff_sample :
    let d := Directories.nested
    let v := { Directories.nestedDescription with
      cppflags := ["-I$\x7bincludedir\x7d/a -DPLAIN", "-I$\x7bprefix\x7d/b"] }
    Directories.ofDescription v = .ok d ∧
      (∀ dir ∈ d.all, dir ≠ "" ∧ Text.hasBlank dir = false) ∧
      (∀ flags, resolve d flags = filledWords d flags) ∧
      (Flags.ofRequest (Toolchain.assemble .cxx v d {} none) {}).cppflags =
        ["-I/opt/$arch//opt/$archx/../\x7binclude\x7d/a", "-DPLAIN", "-I/opt/$arch/b"] := by
  intro d v
  have hok : Directories.ofDescription v = .ok d := by decide
  have hdirs : ∀ dir ∈ d.all, dir ≠ "" ∧ Text.hasBlank dir = false := by decide
  obtain ⟨_, _, hall, hgroups⟩ := one_argument_per_word_iff v d hok
  refine ⟨hok, hdirs, hall.mpr hdirs, (hgroups hdirs .cxx {} none {}).1.trans ?_⟩
  decide

/-- A prefix with a blank splits the flags it is put into, but for those that are made from it
without being split. -/
theorem blank_in_prefix_splits_flag :
    let d : Directories := ⟨"/opt/my sst", "/opt/my sst", "/opt/my sst/include"⟩
    let v : Description := { prefixDir := "/opt/my sst" }
    let f := Flags.ofRequest (Toolchain.assemble .cxx v d {} none) {}
    Directories.ofDescription v = .ok d ∧ v.cppflags = ["-I$\x7bincludedir\x7d"] ∧
      filledWords d "-I$\x7bincludedir\x7d" = ["-I/opt/my sst/include"] ∧
      resolve d "-I$\x7bincludedir\x7d" ≠ filledWords d "-I$\x7bincludedir\x7d" ∧
      f.cppflags = ["-I/opt/my", "sst/include"] ∧
      f.companionInclude = "-I/opt/my sst/include" ∧ f.rpath = "-Wl,-rpath,/opt/my sst/lib" := by
  decide

end Flags

end Deglobal
