import Deglobal.Directories
import Deglobal.Proofs.Failure
import Deglobal.Proofs.Text.Substitute

/-! # Placeholders in directories and flags

The directories of an installation are settled from its description, and flags
are filled in with the settled directories. The two fill in different
placeholders in different orders. They agree on what the description records,
because a placeholder that the first of them does not know stays where it is and
is refused. A flag that has been filled in is done with, unless a directory makes
up a placeholder with what it is put beside: `Text.Inert` says when that cannot
happen.
-/

namespace Deglobal

theorem prefixMark_isPlaceholder : Text.IsPlaceholder prefixMark.toList :=
  ⟨"prefix".toList, by decide, by decide, by decide⟩

theorem execPrefixMark_isPlaceholder : Text.IsPlaceholder execPrefixMark.toList :=
  ⟨"exec_prefix".toList, by decide, by decide, by decide⟩

theorem includeDirMark_isPlaceholder : Text.IsPlaceholder includeDirMark.toList :=
  ⟨"includedir".toList, by decide, by decide, by decide⟩

theorem Text.toList_substitute (pattern replacement s : String) :
    (substitute pattern replacement s).toList =
      substituteFrom pattern.toList replacement.toList 0 s.toList := by
  simp [substitute]

theorem Text.substitute_of_absent {pattern s : String}
    (h : ¬ pattern.toList <:+: s.toList) (replacement : String) :
    substitute pattern replacement s = s := by
  rw [← String.toList_inj, toList_substitute, substituteFrom_of_absent h]

/-- A placeholder that is not there after another one has been filled in was not there before. -/
theorem Text.absent_of_substitute {mark pattern s : String} (hmark : IsPlaceholder mark.toList)
    (hpattern : IsPlaceholder pattern.toList) (hne : mark ≠ pattern) (replacement : String)
    (h : ¬ mark.toList <:+: (substitute pattern replacement s).toList) :
    ¬ mark.toList <:+: s.toList := by
  intro hin
  rw [toList_substitute] at h
  exact h (hpattern.infix_substituteFrom hmark (mt String.toList_inj.mp hne) replacement.toList hin)

namespace Directories

/-! ## Settled directories -/

def all (d : Directories) : List String := [d.prefixDir, d.execPrefix, d.includeDir]

/-- No directory holds the beginning of a placeholder. -/
def Settled (d : Directories) : Prop := ∀ dir ∈ d.all, Text.contains dir markStart = false

theorem settled_eq_ok {name value dir : String} :
    settled name value = .ok dir ↔ Text.contains value markStart = false ∧ value = dir := by
  unfold settled
  cases Text.contains value markStart <;> simp

theorem ofDescription_eq_ok {v : Description} {d : Directories} :
    ofDescription v = .ok d ↔ d.prefixDir = v.prefixDir ∧
      d.execPrefix = Text.substitute prefixMark d.prefixDir v.execPrefix ∧
      d.includeDir = Text.substitute prefixMark d.prefixDir
        (Text.substitute execPrefixMark d.execPrefix v.includeDir) ∧ d.Settled := by
  simp only [ofDescription, Failure.bind_eq_ok, settled_eq_ok]
  constructor
  · rintro ⟨_, ⟨hpre, rfl⟩, _, ⟨hexec, rfl⟩, _, ⟨hinclude, rfl⟩, hd⟩
    cases hd
    refine ⟨rfl, rfl, rfl, fun dir hdir => ?_⟩
    simp only [all, List.mem_cons, List.not_mem_nil, or_false] at hdir
    rcases hdir with rfl | rfl | rfl
    · exact hpre
    · exact hexec
    · exact hinclude
  · rintro ⟨hpre, hexec, hinclude, hsettled⟩
    rw [← hpre, ← hexec, ← hinclude]
    exact ⟨_, ⟨hsettled _ (by simp [all]), rfl⟩, _, ⟨hsettled _ (by simp [all]), rfl⟩, _,
      ⟨hsettled _ (by simp [all]), rfl⟩, rfl⟩

theorem Settled.absent {d : Directories} (hd : d.Settled) {dir : String} (hdir : dir ∈ d.all)
    {m : List Char} (hm : Text.IsPlaceholder m) : ¬ m <:+: dir.toList := by
  have hnone := (Text.contains_eq_false_iff _ _).mp (hd dir hdir)
  exact fun hin => hnone (hm.mark_isPrefix.isInfix.trans hin)

/-! ## Filling in -/

/-- The placeholders with the directories they stand for, in the order they are filled in. -/
def fillings (d : Directories) : List (List Char × List Char) :=
  [(includeDirMark.toList, d.includeDir.toList), (execPrefixMark.toList, d.execPrefix.toList),
    (prefixMark.toList, d.prefixDir.toList)]

variable {d : Directories}

theorem toList_fill (d : Directories) (flag : String) :
    (d.fill flag).toList = Text.substituteAll d.fillings flag.toList := by
  simp only [fill, Text.toList_substitute]
  rfl

def marks : List String := [prefixMark, execPrefixMark, includeDirMark]

theorem isPlaceholder_of_mem_marks : ∀ mark ∈ marks, Text.IsPlaceholder mark.toList := by
  simp only [marks, List.forall_mem_cons]
  exact ⟨prefixMark_isPlaceholder, execPrefixMark_isPlaceholder, includeDirMark_isPlaceholder,
    fun _ hmark => absurd hmark List.not_mem_nil⟩

theorem exists_mark_of_mem_fillings {x : List Char × List Char} (hx : x ∈ d.fillings) :
    ∃ mark ∈ marks, x.1 = mark.toList := by
  simp only [fillings, List.mem_cons, List.not_mem_nil, or_false] at hx
  rcases hx with rfl | rfl | rfl <;> simp [marks]

theorem exists_dir_of_mem_fillings {x : List Char × List Char} (hx : x ∈ d.fillings) :
    ∃ dir ∈ d.all, x.2 = dir.toList := by
  simp only [fillings, List.mem_cons, List.not_mem_nil, or_false] at hx
  rcases hx with rfl | rfl | rfl <;> simp [all]

theorem exists_mem_fillings_of_mem_all {dir : String} (hdir : dir ∈ d.all) :
    ∃ x ∈ d.fillings, x.2 = dir.toList := by
  simp only [all, List.mem_cons, List.not_mem_nil, or_false] at hdir
  rcases hdir with rfl | rfl | rfl <;> simp [fillings]

theorem Settled.isFilling (hd : d.Settled) : Text.IsFilling d.fillings where
  placeholder x hx := by
    obtain ⟨mark, hmark, heq⟩ := exists_mark_of_mem_fillings hx
    exact heq ▸ isPlaceholder_of_mem_marks mark hmark
  nodup := by
    show [includeDirMark.toList, execPrefixMark.toList, prefixMark.toList].Nodup
    decide
  settled x hx y hy := by
    obtain ⟨dir, hdir, hreplacement⟩ := exists_dir_of_mem_fillings hx
    obtain ⟨mark, hmark, heq⟩ := exists_mark_of_mem_fillings hy
    rw [hreplacement, heq]
    exact hd.absent hdir (isPlaceholder_of_mem_marks mark hmark)

theorem fill_of_absent {flag : String}
    (h : ∀ x ∈ d.fillings, ¬ x.1 <:+: flag.toList) : d.fill flag = flag := by
  rw [← String.toList_inj, toList_fill, Text.substituteAll_of_absent h]

theorem forall_marks_iff {flag : String} :
    (∀ mark ∈ marks, Text.contains flag mark = false) ↔
      ∀ x ∈ d.fillings, ¬ x.1 <:+: flag.toList := by
  simp only [marks, fillings, List.forall_mem_cons, Text.contains_eq_false_iff]
  tauto

/-- A flag filled in with settled directories is done with exactly if no directory can make up a
placeholder that was to be filled in with it or before it. -/
theorem Settled.fill_done_iff (hd : d.Settled) :
    (∀ flag, d.fill (d.fill flag) = d.fill flag ∧
      ∀ mark ∈ marks, Text.contains (d.fill flag) mark = false) ↔ Text.Inert d.fillings := by
  constructor
  · intro hdone
    by_contra hnot
    obtain ⟨s, y, hy, hstands⟩ := hd.isFilling.exists_infix_substituteAll hnot
    have hgone := forall_marks_iff.mp (hdone (String.ofList s)).2 y hy
    rw [toList_fill, String.toList_ofList] at hgone
    exact hgone hstands
  · intro hinert flag
    have hgone : ∀ x ∈ d.fillings, ¬ x.1 <:+: (d.fill flag).toList := by
      rw [toList_fill]
      exact hd.isFilling.not_infix_substituteAll hinert
    exact ⟨fill_of_absent hgone, forall_marks_iff.mpr hgone⟩

/-! ## Absolute directories -/

/-- An absolute directory can make up a placeholder only with a dollar sign at its end. -/
theorem Settled.completes_iff (hd : d.Settled) {dir : String} (hdir : dir ∈ d.all)
    (habsolute : Text.begins dir "/" = true) {x : List Char × List Char} (hx : x ∈ d.fillings) :
    Text.Completes x.1 dir.toList ↔ Text.ends dir "$" = true := by
  have hnone := (Text.contains_eq_false_iff _ _).mp (hd dir hdir)
  obtain ⟨rest, hrest⟩ := List.isPrefixOf_iff_prefix.mp habsolute
  rw [Text.ends, List.isSuffixOf_iff_suffix]
  rw [← hrest] at hnone ⊢
  obtain ⟨mark, hmark, heq⟩ := exists_mark_of_mem_fillings hx
  have hslash : ∀ mark ∈ marks, '/' ∉ mark.toList := by decide
  exact (hd.isFilling.placeholder x hx).completes_iff (heq ▸ hslash mark hmark) hnone

theorem Settled.inert_iff_of_absolute (hd : d.Settled)
    (habsolute : ∀ dir ∈ d.all, Text.begins dir "/" = true) :
    Text.Inert d.fillings ↔ ∀ dir ∈ d.all, Text.ends dir "$" = false := by
  constructor
  · intro hinert dir hdir
    obtain ⟨x, hx, heq⟩ := exists_mem_fillings_of_mem_all hdir
    have hnot := hinert.self hx
    rw [heq, hd.completes_iff hdir (habsolute dir hdir) hx, Bool.not_eq_true] at hnot
    exact hnot
  · intro hends
    refine .of_forall fun x hx y hy => ?_
    obtain ⟨dir, hdir, heq⟩ := exists_dir_of_mem_fillings hx
    rw [heq, hd.completes_iff hdir (habsolute dir hdir) hy, hends dir hdir]
    exact Bool.false_ne_true

/-! ## What filling in settles -/

/-- Filling in flags is done with after one time, and leaves none of the placeholders, exactly if
no directory can make up a placeholder that is filled in with it or before it. Of absolute
directories that is so if none of them ends in a dollar sign. -/
theorem fill_final_iff_inert (v : Description) (d : Directories) (h : ofDescription v = .ok d) :
    ((∀ flag, d.fill (d.fill flag) = d.fill flag ∧
        ∀ mark ∈ marks, Text.contains (d.fill flag) mark = false) ↔ Text.Inert d.fillings) ∧
      ((∀ dir ∈ d.all, Text.begins dir "/" = true) →
        (Text.Inert d.fillings ↔ ∀ dir ∈ d.all, Text.ends dir "$" = false)) := by
  obtain ⟨_, _, _, hsettled⟩ := ofDescription_eq_ok.mp h
  exact ⟨hsettled.fill_done_iff, hsettled.inert_iff_of_absolute⟩

/-- A description whose directories refer to each other, with a dollar sign and braces that belong
to no placeholder. -/
def nestedDescription : Description where
  prefixDir := "/opt/$arch"
  execPrefix := "$\x7bprefix\x7d/$\x7bprefix\x7dx"
  includeDir := "$\x7bexec_prefix\x7d/../\x7binclude\x7d"

def nested : Directories where
  prefixDir := "/opt/$arch"
  execPrefix := "/opt/$arch//opt/$archx"
  includeDir := "/opt/$arch//opt/$archx/../\x7binclude\x7d"

theorem fill_final_iff_inert_sample :
    ofDescription nestedDescription = .ok nested ∧
      (∀ dir ∈ nested.all, Text.begins dir "/" = true) ∧ Text.Inert nested.fillings ∧
      ∀ flag, nested.fill (nested.fill flag) = nested.fill flag ∧
        ∀ mark ∈ marks, Text.contains (nested.fill flag) mark = false := by
  have hok : ofDescription nestedDescription = .ok nested := by decide
  have habsolute : ∀ dir ∈ nested.all, Text.begins dir "/" = true := by decide
  have hends : ∀ dir ∈ nested.all, Text.ends dir "$" = false := by decide
  obtain ⟨hdone, hinert⟩ := fill_final_iff_inert nestedDescription nested hok
  exact ⟨hok, habsolute, (hinert habsolute).mpr hends, hdone.mpr ((hinert habsolute).mpr hends)⟩

/-- A prefix that ends in a dollar sign makes up a placeholder with the braces behind it. It is
left in the flag, and filling in once more fills it in. -/
theorem joined_placeholder_stays :
    let d : Directories := ⟨"/opt/sst$", "/opt/sst$", "/opt/sst$/include"⟩
    let flag := "$\x7bprefix\x7d\x7bprefix\x7d"
    ofDescription { prefixDir := "/opt/sst$" } = .ok d ∧
      d.fill flag = "/opt/sst$\x7bprefix\x7d" ∧ Text.contains (d.fill flag) prefixMark = true ∧
      d.fill (d.fill flag) = "/opt/sst/opt/sst$" ∧ d.fill (d.fill flag) ≠ d.fill flag := by
  decide

/-! ## What a description records -/

theorem Settled.fill_eq (hd : d.Settled) {dir : String} (hdir : dir ∈ d.all) : d.fill dir = dir :=
  fill_of_absent fun x hx => hd.absent hdir (hd.isFilling.placeholder x hx)

theorem Settled.substitute_eq (hd : d.Settled) {dir : String} (hdir : dir ∈ d.all) {mark : String}
    (hmark : Text.IsPlaceholder mark.toList) (replacement : String) :
    Text.substitute mark replacement dir = dir :=
  Text.substitute_of_absent (hd.absent hdir hmark) replacement

/-- Filling in a flag and settling the directories agree on what the description records: a
placeholder that only the former would fill in is none that the latter accepts. What has been
settled is settled as it is. -/
theorem fill_recorded (v : Description) (d : Directories) (h : ofDescription v = .ok d) :
    d.fill v.prefixDir = d.prefixDir ∧ d.fill v.execPrefix = d.execPrefix ∧
      d.fill v.includeDir = d.includeDir ∧
      ofDescription { v with prefixDir := d.prefixDir, execPrefix := d.execPrefix,
                             includeDir := d.includeDir } = .ok d := by
  obtain ⟨hpre, hexec, hinclude, hsettled⟩ := ofDescription_eq_ok.mp h
  have hmem : d.prefixDir ∈ d.all ∧ d.execPrefix ∈ d.all ∧ d.includeDir ∈ d.all := by simp [all]
  obtain ⟨hpreMem, hexecMem, hincludeMem⟩ := hmem
  -- A foreign placeholder would have stayed in the directory that came of it.
  have hforeign : ∀ {mark : String}, Text.IsPlaceholder mark.toList → mark ≠ prefixMark →
      ¬ mark.toList <:+: v.execPrefix.toList := by
    intro mark hmark hne
    refine Text.absent_of_substitute hmark prefixMark_isPlaceholder hne d.prefixDir ?_
    rw [← hexec]
    exact hsettled.absent hexecMem hmark
  have hforeignInclude : ¬ includeDirMark.toList <:+: v.includeDir.toList := by
    refine Text.absent_of_substitute includeDirMark_isPlaceholder execPrefixMark_isPlaceholder
      (by decide) d.execPrefix ?_
    refine Text.absent_of_substitute includeDirMark_isPlaceholder prefixMark_isPlaceholder
      (by decide) d.prefixDir ?_
    rw [← hinclude]
    exact hsettled.absent hincludeMem includeDirMark_isPlaceholder
  refine ⟨?_, ?_, ?_, ?_⟩
  · rw [← hpre, hsettled.fill_eq hpreMem]
  · rw [fill, Text.substitute_of_absent (hforeign includeDirMark_isPlaceholder (by decide)),
      Text.substitute_of_absent (hforeign execPrefixMark_isPlaceholder (by decide)), ← hexec]
  · rw [fill, Text.substitute_of_absent hforeignInclude, ← hinclude]
  · refine ofDescription_eq_ok.mpr ⟨rfl, ?_, ?_, hsettled⟩
    · exact (hsettled.substitute_eq hexecMem prefixMark_isPlaceholder _).symm
    · show d.includeDir = _
      rw [hsettled.substitute_eq hincludeMem execPrefixMark_isPlaceholder,
        hsettled.substitute_eq hincludeMem prefixMark_isPlaceholder]

theorem fill_recorded_sample :
    ofDescription nestedDescription = .ok nested ∧
      nested.fill nestedDescription.prefixDir = nested.prefixDir ∧
      nested.fill nestedDescription.execPrefix = nested.execPrefix ∧
      nested.fill nestedDescription.includeDir = nested.includeDir ∧
      ofDescription { nestedDescription with prefixDir := nested.prefixDir,
                                             execPrefix := nested.execPrefix,
                                             includeDir := nested.includeDir } = .ok nested := by
  have hok : ofDescription nestedDescription = .ok nested := by decide
  exact ⟨hok, fill_recorded nestedDescription nested hok⟩

end Directories

end Deglobal
