import Deglobal.Proofs.Request.Units
import Deglobal.Proofs.Text.Parts

/-! # Stray quotes and blanks

Sorting looks at clean arguments, but for the first one, which asks a query only
as it stands: a quoted query is an argument for the compiler. Quotes are stripped
after blanks, so that blanks inside of quotes stay, and only stripping once more
would take them away. Apart from these two cases it makes no difference whether
arguments are handed over clean.
-/

namespace Deglobal

/-! ## Cleaning twice -/

section

variable {a b : String} {q : Query}

theorem toList_cleanArg (a : String) :
    (cleanArg a).toList = Text.strip (· == '\'') (Text.strip Text.isBlank a.toList) := by
  rw [cleanArg, String.toList_ofList]

theorem cleanArg_eq_self_iff : cleanArg a = a ↔
    Text.BareEnds Text.isBlank a.toList ∧ Text.BareEnds (· == '\'') a.toList := by
  constructor
  · intro h
    have hlist : Text.strip (· == '\'') (Text.strip Text.isBlank a.toList) = a.toList := by
      rw [← toList_cleanArg, h]
    have hquotes := Text.length_strip_le (· == '\'') (Text.strip Text.isBlank a.toList)
    have hblanks := Text.length_strip_le Text.isBlank a.toList
    rw [hlist] at hquotes
    refine ⟨Text.length_strip_eq_iff.mp (by omega), ?_⟩
    rw [← hlist]
    exact Text.bareEnds_strip _ _
  · rintro ⟨hblank, hquote⟩
    rw [← String.toList_inj, toList_cleanArg, Text.strip_of_bareEnds hblank,
      Text.strip_of_bareEnds hquote]

theorem cleanArg_cleanArg_iff :
    cleanArg (cleanArg a) = cleanArg a ↔ Text.BareEnds Text.isBlank (cleanArg a).toList := by
  rw [cleanArg_eq_self_iff, and_iff_left]
  rw [toList_cleanArg]
  exact Text.bareEnds_strip _ _

theorem cleanArg_of_query (ha : Query.ofArg? a = some q) : cleanArg a = a := by
  have hflags : ∀ flag ∈ ["--version", "-V", "--help", "--flags"], cleanArg flag = flag := by
    decide
  apply hflags
  grind [Query.ofArg?]

end

/-! ## What a command line comes to -/

section

variable {args args' : List String} {a b : String}

theorem classify_eq_query_iff {q : Query} :
    classify args = .ok (.query q) ↔ args.head?.bind Query.ofArg? = some q := by
  cases hquery : args.head?.bind Query.ofArg? with
  | some q' => simp [classify, hquery]
  | none =>
      rw [classify_eq_of_units hquery]
      cases ArgUnit.read (args.map cleanArg) with
      | none => simp
      | some units =>
          cases hchecked : (units.foldl Request.file {}).checked <;> simp [Except.map, hchecked]

/-- Of two command lines that are the same when clean, one is sorted like the other exactly if both
ask the same query or neither asks one. -/
theorem classify_eq_iff_of_clean (h : args.map cleanArg = args'.map cleanArg) :
    classify args = classify args' ↔
      args.head?.bind Query.ofArg? = args'.head?.bind Query.ofArg? := by
  constructor
  · intro heq
    refine Option.ext fun q => ?_
    rw [← classify_eq_query_iff, heq, classify_eq_query_iff]
  · intro heq
    cases hquery : args.head?.bind Query.ofArg? with
    | some q =>
        rw [classify_eq_query_iff.mpr hquery, classify_eq_query_iff.mpr (heq ▸ hquery)]
    | none =>
        rw [classify_eq_of_units hquery, classify_eq_of_units (heq ▸ hquery), h]

theorem checked_file_word (a : String) :
    (Request.file {} (.word a)).checked = .ok (Request.file {} (.word a)) := by
  simp only [Request.file]
  cases ArgKind.ofArg a <;> rfl

theorem classify_singleton (hquery : Query.ofArg? a = none) (ha : cleanArg a ≠ "-o") :
    classify [a] = .ok (.build (Request.file {} (.word (cleanArg a)))) := by
  rw [classify_eq_of_units (by simpa using hquery), List.map_singleton, ArgUnit.read_word ha]
  simp [ArgUnit.read, checked_file_word, Except.map]

theorem eq_of_file_word (ha : a ≠ "-o") (hverbose : a ≠ "--verbose") (hb : b ≠ "-o")
    (h : Request.file {} (.word a) = Request.file {} (.word b)) : a = b := by
  have hheld : ∀ x ≠ "-o", ∀ place, (Request.file {} (.word x)).held place =
      if (ArgUnit.word x).kind = place ∧ x ≠ "--verbose" then [.word x] else [] := by
    intro x hx place
    rw [Request.held_file (by simpa using hx)]
    cases place <;> simp [ArgUnit.isOutput, Request.held]
  have hplace := hheld a ha (ArgUnit.word a).kind
  rw [h, hheld b hb] at hplace
  grind

/-- One argument by itself is sorted as if it were clean only if it is clean of blanks then, and
asks no query that it does not ask as it stands. -/
theorem of_classify_singleton (h : classify [cleanArg a] = classify [a]) :
    cleanArg (cleanArg a) = cleanArg a ∧ Query.ofArg? (cleanArg a) = Query.ofArg? a := by
  have hask : Query.ofArg? (cleanArg a) = Query.ofArg? a := by
    refine Option.ext fun q => ?_
    have hquery : classify [cleanArg a] = .ok (.query q) ↔ _ := classify_eq_query_iff
    rw [h, classify_eq_query_iff] at hquery
    simpa using hquery.symm
  refine ⟨?_, hask⟩
  have hfixed : ∀ x ∈ ["-o", "--verbose"], cleanArg a = x → cleanArg (cleanArg a) = cleanArg a := by
    have hflags : ∀ x ∈ ["-o", "--verbose"], cleanArg x = x := by decide
    intro x hx heq
    rw [heq, hflags x hx]
  cases hquery : Query.ofArg? a with
  | some q => exact congrArg cleanArg (cleanArg_of_query hquery)
  | none =>
      by_cases ho : cleanArg a = "-o"
      · exact hfixed "-o" (by simp) ho
      by_cases hv : cleanArg a = "--verbose"
      · exact hfixed "--verbose" (by simp) hv
      rw [classify_singleton hquery ho] at h
      by_cases htwice : cleanArg (cleanArg a) = "-o"
      · rw [classify_eq_of_units (by simpa [hask] using hquery), List.map_singleton, htwice] at h
        cases h
      · rw [classify_singleton (hask.trans hquery) htwice] at h
        exact (eq_of_file_word ho hv htwice (by simpa using h.symm)).symm

end

/-- Two command lines that are the same when clean are sorted alike unless only one of them asks a
query, which a query flag does as it stands. Given arguments can be handed over clean exactly if
none of them holds blanks next to its outermost quotes and none is a quoted query flag. -/
theorem cleaning_immaterial_iff (Given : String → Prop) :
    (∀ a, cleanArg (cleanArg a) = cleanArg a ↔
      Text.BareEnds Text.isBlank (cleanArg a).toList) ∧
    (∀ args args', args.map cleanArg = args'.map cleanArg →
      (classify args = classify args' ↔
        args.head?.bind Query.ofArg? = args'.head?.bind Query.ofArg?)) ∧
    ((∀ args, (∀ a ∈ args, Given a) → classify (args.map cleanArg) = classify args) ↔
      ∀ a, Given a → Text.BareEnds Text.isBlank (cleanArg a).toList ∧
        ((Query.ofArg? (cleanArg a)).isSome → cleanArg a = a)) := by
  refine ⟨fun a => cleanArg_cleanArg_iff, fun args args' h => classify_eq_iff_of_clean h,
    fun hall a ha => ?_, fun hgiven args hargs => ?_⟩
  · obtain ⟨htwice, hask⟩ := of_classify_singleton (hall [a] (by simpa using ha))
    refine ⟨cleanArg_cleanArg_iff.mp htwice, fun hquery => ?_⟩
    obtain ⟨q, hq⟩ := Option.isSome_iff_exists.mp hquery
    exact cleanArg_of_query (hask ▸ hq)
  · have hclean : (args.map cleanArg).map cleanArg = args.map cleanArg := by
      rw [List.map_map]
      exact List.map_congr_left fun a ha =>
        cleanArg_cleanArg_iff.mpr (hgiven a (hargs a ha)).1
    refine (classify_eq_iff_of_clean hclean).mpr ?_
    cases args with
    | nil => rfl
    | cons a rest =>
        have hquery := (hgiven a (hargs a List.mem_cons_self)).2
        simp only [List.map_cons, List.head?_cons, Option.bind_some]
        refine Option.ext fun q => ⟨fun hq => ?_, fun hq => ?_⟩
        · rwa [hquery (Option.isSome_of_mem hq)] at hq
        · rwa [cleanArg_of_query hq]

/-- Quotes and blanks in every order, as long as none of the blanks is inside of quotes. -/
theorem cleaning_immaterial_iff_sample :
    let args := [" 'a.c' ", "''-o", "\u3000'-O2''", "'don't'", "''"]
    let args' := ["'a.c''", " -o'", "-O2", "don't ", ""]
    args.map cleanArg = args'.map cleanArg ∧ classify args = classify args' ∧
      (∀ a ∈ args, Text.BareEnds Text.isBlank (cleanArg a).toList ∧
        ((Query.ofArg? (cleanArg a)).isSome → cleanArg a = a)) ∧
      classify (args.map cleanArg) = classify args ∧
      classify args = .ok (.build {
        sources := ["a.c"], explicitOutput := some "-O2", givenFlags := ["don't", ""] }) := by
  intro args args'
  obtain ⟨_, hclean, hall⟩ := cleaning_immaterial_iff (· ∈ args)
  have hsame : args.map cleanArg = args'.map cleanArg := by decide
  have hgiven : ∀ a ∈ args, Text.BareEnds Text.isBlank (cleanArg a).toList ∧
      ((Query.ofArg? (cleanArg a)).isSome → cleanArg a = a) := by
    decide
  exact ⟨hsame, (hclean args args' hsame).mpr rfl, hgiven,
    hall.mpr hgiven args fun _ ha => ha, by decide⟩

/-- A quoted query flag is handed on to the compiler, while the flag by itself is a query; and a
source with blanks inside of its quotes is one only if the blanks are stripped again. -/
theorem quotes_hide_query :
    classify ["'--version'"] = .ok (.build { givenFlags := ["--version"] }) ∧
      classify (["'--version'"].map cleanArg) = .ok (.query (.version "--version")) ∧
      (¬ ∀ args, classify args = classify (args.map cleanArg)) ∧
      cleanArg "' a.c '" = " a.c " ∧ cleanArg (cleanArg "' a.c '") = "a.c" ∧
      classify ["' a.c '"] = .ok (.build { givenFlags := [" a.c "] }) ∧
      classify (["' a.c '"].map cleanArg) = .ok (.build { sources := ["a.c"] }) := by
  have hquoted : classify ["'--version'"] = .ok (.build { givenFlags := ["--version"] }) := by
    decide
  have hclean : classify (["'--version'"].map cleanArg) =
      .ok (.query (.version "--version")) := by
    decide
  refine ⟨hquoted, hclean, fun hall => ?_, by decide, by decide, by decide, by decide⟩
  have heq := hall ["'--version'"]
  rw [hquoted, hclean] at heq
  cases heq

end Deglobal
