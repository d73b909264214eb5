import Deglobal.Command
import Deglobal.Proofs.Text.Parts
import Mathlib.Data.List.Basic
import Mathlib.Data.List.Infix

/-! # What a shown command line tells

A command line is shown as its words with blanks between them, where a word that
holds white space is put in quotes and a quote is shown as it is. So a quote that
belongs to a word can be taken for one that was put there: a word with blanks for
several words, and several words for one. Where no word can be mistaken like this
the text determines the command.
-/

namespace Deglobal

namespace Text

def quoted (w : List Char) : List Char := if w.any isBlank then '\'' :: (w ++ ['\'']) else w

variable {w w' r r' : List Char}

theorem quoted_of_blank (hw : w.any isBlank = true) : quoted w = '\'' :: (w ++ ['\'']) :=
  if_pos hw

theorem quoted_of_not_blank (hw : w.any isBlank = false) : quoted w = w :=
  if_neg (by simp [hw])

theorem plain_notMem (hw : w.any isBlank = false) : ' ' ∉ w := by
  intro hmem
  have hblank := List.any_eq_false.mp hw ' ' hmem
  exact hblank (by decide)

/-! ## Words that end where they seem to end -/

/-- A word can be told from what is shown after it. -/
structure Legible (w : List Char) : Prop where
  /-- With white space in it, the word has no quote right before a blank. -/
  closed : w.any isBlank = true → ¬ ['\'', ' '] <:+: w
  /-- Without, the word ends in a quote if it begins with another. -/
  paired : w.any isBlank = false → w.head? = some '\'' → 2 ≤ w.length ∧ w.getLast? = some '\''

instance (w : List Char) : Decidable (Legible w) :=
  decidable_of_iff ((w.any isBlank = true → ¬ ['\'', ' '] <:+: w) ∧
      (w.any isBlank = false → w.head? = some '\'' → 2 ≤ w.length ∧ w.getLast? = some '\''))
    ⟨fun h => ⟨h.1, h.2⟩, fun h => ⟨h.closed, h.paired⟩⟩

/-- A closing quote is the first one with a blank behind it. -/
theorem eq_nil_of_closed {a : List Char} (hw : ¬ ['\'', ' '] <:+: w ++ a)
    (h : '\'' :: ' ' :: r = a ++ '\'' :: ' ' :: r') : a = [] := by
  match a with
  | [] => rfl
  | [x] => simp at h
  | x :: y :: rest =>
      obtain ⟨rfl, rfl, _⟩ : '\'' = x ∧ ' ' = y ∧ _ := by simpa using h
      exact absurd ⟨w, rest, by simp⟩ hw

theorem eq_of_closed (hw : ¬ ['\'', ' '] <:+: w) (hw' : ¬ ['\'', ' '] <:+: w')
    (h : w ++ '\'' :: ' ' :: r = w' ++ '\'' :: ' ' :: r') : w = w' := by
  rcases List.append_eq_append_iff.mp h with ⟨a, rfl, ha⟩ | ⟨a, rfl, ha⟩
  · rw [eq_nil_of_closed hw' ha, List.append_nil]
  · rw [eq_nil_of_closed hw ha, List.append_nil]

theorem not_infix_of_not_blank (hw : w.any isBlank = false) : ¬ ['\'', ' '] <:+: w :=
  fun h => plain_notMem hw (h.subset (by simp))

theorem Legible.ne_of_blank (hw : Legible w) (hblank : w.any isBlank = false)
    (hw' : Legible w') (hblank' : w'.any isBlank = true) :
    quoted w ++ ' ' :: r ≠ quoted w' ++ ' ' :: r' := by
  intro h
  rw [quoted_of_not_blank hblank, quoted_of_blank hblank'] at h
  cases w with
  | nil => simp at h
  | cons x rest =>
      obtain ⟨rfl, h⟩ : x = '\'' ∧ _ := by simpa using h
      obtain ⟨hlength, hlast⟩ := hw.paired hblank rfl
      -- The quotes that the first word has of its own stand where the second one has its.
      obtain ⟨inner, rfl⟩ : ∃ inner, rest = inner ++ ['\''] := by
        have hne : rest ≠ [] := by
          rintro rfl
          simp at hlength
        refine ⟨rest.dropLast, ?_⟩
        rw [List.getLast?_cons_of_ne_nil hne, List.getLast?_eq_some_getLast hne] at hlast
        rw [← Option.some.inj hlast, List.dropLast_append_getLast hne]
      have hinner : inner.any isBlank = false := by
        simp_all
      have heq := eq_of_closed (not_infix_of_not_blank hinner) (hw'.closed hblank')
        (by simpa using h)
      rw [heq, hblank'] at hinner
      cases hinner

theorem Legible.eq_of_quoted (hw : Legible w) (hw' : Legible w')
    (h : quoted w ++ ' ' :: r = quoted w' ++ ' ' :: r') : w = w' := by
  cases hblank : w.any isBlank <;> cases hblank' : w'.any isBlank
  · rw [quoted_of_not_blank hblank, quoted_of_not_blank hblank'] at h
    have hsplit := congrArg (List.splitOn ' ') h
    rw [List.splitOn_append_cons_self_of_not_mem (plain_notMem hblank),
      List.splitOn_append_cons_self_of_not_mem (plain_notMem hblank')] at hsplit
    exact (List.cons.inj hsplit).1
  · exact absurd h (hw.ne_of_blank hblank hw' hblank')
  · exact absurd h.symm (hw'.ne_of_blank hblank' hw hblank)
  · rw [quoted_of_blank hblank, quoted_of_blank hblank'] at h
    exact eq_of_closed (hw.closed hblank) (hw'.closed hblank') (by simpa using h)

/-! ## Lines of words -/

def shownLine (ws : List (List Char)) : List Char := [' '].intercalate (ws.map quoted)

variable {ws ws' : List (List Char)}

theorem shownLine_append_blank (hws : ws ≠ []) :
    shownLine ws ++ [' '] = ws.flatMap fun w => quoted w ++ [' '] := by
  induction ws with
  | nil => exact absurd rfl hws
  | cons w rest ih =>
      by_cases hrest : rest = []
      · simp [hrest, shownLine]
      · rw [List.flatMap_cons, ← ih hrest, shownLine, List.map_cons,
          List.intercalate_cons_of_ne_nil (by simpa using hrest)]
        simp [shownLine]

theorem eq_of_shownLine (hws : ∀ w ∈ ws, Legible w) (hws' : ∀ w ∈ ws', Legible w)
    (hne : ws ≠ []) (hne' : ws' ≠ []) (h : shownLine ws = shownLine ws') : ws = ws' := by
  have hblanks : (ws.flatMap fun w => quoted w ++ [' ']) =
      ws'.flatMap fun w => quoted w ++ [' '] := by
    rw [← shownLine_append_blank hne, h, shownLine_append_blank hne']
  clear h hne hne'
  induction ws generalizing ws' with
  | nil =>
      cases ws' with
      | nil => rfl
      | cons w' rest' => simp at hblanks
  | cons w rest ih =>
      cases ws' with
      | nil => simp at hblanks
      | cons w' rest' =>
          obtain ⟨hw, hrest⟩ := List.forall_mem_cons.mp hws
          obtain ⟨hw', hrest'⟩ := List.forall_mem_cons.mp hws'
          simp only [List.flatMap_cons, List.append_assoc, List.singleton_append] at hblanks
          obtain rfl := hw.eq_of_quoted hw' hblanks
          rw [ih hrest hrest' (by simpa using hblanks)]

/-! ## What stands between blanks -/

/-- What a word is shown as, cut at blanks. -/
def pieces (w : List Char) : List (List Char) := (quoted w).splitOn ' '

theorem splitOn_shownLine (hne : ws ≠ []) : (shownLine ws).splitOn ' ' = ws.flatMap pieces := by
  induction ws with
  | nil => exact absurd rfl hne
  | cons w rest ih =>
      by_cases hrest : rest = []
      · simp [hrest, shownLine, pieces]
      · rw [List.flatMap_cons, ← ih hrest, shownLine, List.map_cons,
          List.intercalate_cons_of_ne_nil (by simpa using hrest), List.append_assoc,
          List.singleton_append, List.splitOn_append_cons_self]
        rfl

theorem shownLine_eq_iff (hne : ws ≠ []) (hne' : ws' ≠ []) :
    shownLine ws = shownLine ws' ↔ ws.flatMap pieces = ws'.flatMap pieces := by
  rw [← splitOn_shownLine hne, ← splitOn_shownLine hne']
  refine ⟨fun h => by rw [h], fun h => ?_⟩
  have hjoined := congrArg [' '].intercalate h
  rwa [List.intercalate_splitOn, List.intercalate_splitOn] at hjoined

theorem pieces_of_not_blank (hw : w.any isBlank = false) : pieces w = [w] := by
  rw [pieces, quoted_of_not_blank hw, List.splitOn_eq_singleton (plain_notMem hw)]

theorem flatMap_pieces_of_not_blank (hws : ∀ w ∈ ws, w.any isBlank = false) :
    ws.flatMap pieces = ws := by
  rw [List.flatMap_congr fun w hw => pieces_of_not_blank (hws w hw), List.flatMap_singleton']

theorem splitOn_append_quote (x : List Char) :
    ∃ between last, (x ++ ['\'']).splitOn ' ' = between ++ [last ++ ['\'']] := by
  by_cases hx : ' ' ∈ x
  · obtain ⟨after, before, hsplit, hafter⟩ := List.eq_append_cons_of_mem (List.mem_reverse.mpr hx)
    have heq : x ++ ['\''] = before.reverse ++ ' ' :: (after.reverse ++ ['\'']) := by
      rw [← List.reverse_reverse x, hsplit]
      simp
    refine ⟨before.reverse.splitOn ' ', after.reverse, ?_⟩
    have hend : (after.reverse ++ ['\'']).splitOn ' ' = [after.reverse ++ ['\'']] :=
      List.splitOn_eq_singleton (by simpa using hafter)
    rw [heq, List.splitOn_append_cons_self, hend]
  · exact ⟨[], x, List.splitOn_eq_singleton (by simpa using hx)⟩

/-- The pieces of a word with a blank: a quote opens the first of them, and one closes the last. -/
theorem exists_pieces (hw : ' ' ∈ w) :
    ∃ first between last, pieces w = ('\'' :: first) :: between ++ [last ++ ['\'']] := by
  have hblank : w.any isBlank = true := List.any_eq_true.mpr ⟨' ', hw, by decide⟩
  obtain ⟨first, rest, rfl, hfirst⟩ := List.eq_append_cons_of_mem hw
  obtain ⟨between, last, hlast⟩ := splitOn_append_quote rest
  refine ⟨first, between, last, ?_⟩
  have heq : quoted (first ++ ' ' :: rest) = ('\'' :: first) ++ ' ' :: (rest ++ ['\'']) := by
    rw [quoted_of_blank hblank]
    simp
  rw [pieces, heq, List.splitOn_append_cons_self_of_not_mem (by simpa using hfirst), hlast]
  rfl

theorem not_blank_of_mem_pieces {p : List Char} (hw : ∀ b ∈ w, isBlank b = true → b = ' ')
    (hp : p ∈ pieces w) : p.any isBlank = false := by
  have hquoted : ∀ b ∈ quoted w, isBlank b = true → b = ' ' := by
    intro b hb hblank
    cases hany : w.any isBlank with
    | false =>
        rw [quoted_of_not_blank hany] at hb
        exact hw b hb hblank
    | true =>
        rw [quoted_of_blank hany] at hb
        simp only [List.mem_cons, List.mem_append, List.not_mem_nil, or_false] at hb
        rcases hb with rfl | hb | rfl
        · exact absurd hblank (by decide)
        · exact hw b hb hblank
        · exact absurd hblank (by decide)
  refine List.any_eq_false.mpr fun b hb hblank => ?_
  obtain ⟨hmem, hne⟩ := of_mem_splitOn hp hb
  exact hne (hquoted b hmem hblank)

/-! ## Words that can be told from their pieces -/

/-- A quote opens one word and closes a later one. -/
def Encloses (w w' : List Char) : Prop := w.head? = some '\'' ∧ w'.getLast? = some '\''

/-- Words without white space, and without quotes that seem to go around some of them, are shown
like no others. -/
theorem eq_of_unenclosed (hws : ∀ w ∈ ws, w.any isBlank = false)
    (hquotes : ws.Pairwise fun w w' => ¬ Encloses w w') (hne : ws ≠ []) (hne' : ws' ≠ [])
    (h : shownLine ws' = shownLine ws) : ws' = ws := by
  have hpieces := (shownLine_eq_iff hne' hne).mp h
  rw [flatMap_pieces_of_not_blank hws] at hpieces
  suffices hws' : ∀ w ∈ ws', w.any isBlank = false by
    rwa [flatMap_pieces_of_not_blank hws'] at hpieces
  intro w hw
  by_contra hblank
  have hblank : w.any isBlank = true := by simpa using hblank
  have hmem : pieces w <:+: ws := by
    obtain ⟨before, after, rfl⟩ := List.append_of_mem hw
    rw [List.flatMap_append, List.flatMap_cons] at hpieces
    exact ⟨before.flatMap pieces, after.flatMap pieces, by simpa using hpieces⟩
  by_cases hspace : ' ' ∈ w
  · obtain ⟨first, between, last, hsplit⟩ := exists_pieces hspace
    rw [hsplit] at hmem
    have hpair := hquotes.sublist hmem.sublist
    have hlast : last ++ ['\''] ∈ between ++ [last ++ ['\'']] := by simp
    exact List.rel_of_pairwise_cons hpair hlast ⟨rfl, List.getLast?_concat⟩
  · -- Other white space than a blank does not part the word.
    have hone : pieces w = ['\'' :: (w ++ ['\''])] := by
      rw [pieces, quoted_of_blank hblank, List.splitOn_eq_singleton (by simpa using hspace)]
    have hshown := hws ('\'' :: (w ++ ['\''])) (hmem.subset (by simp [hone]))
    obtain ⟨b, hb, hbblank⟩ := List.any_eq_true.mp hblank
    exact List.any_eq_false.mp hshown b (by simp [hb]) hbblank

/-! ## Words that can be mistaken -/

/-- A word with blanks is shown like the words that it is cut into. -/
theorem exists_mistaken_word (hw : w ∈ ws) (hblank : w.any isBlank = true)
    (hplain : ∀ b ∈ w, isBlank b = true → b = ' ') :
    ∃ ws' ≠ [], shownLine ws' = shownLine ws ∧ ws' ≠ ws := by
  obtain ⟨b, hb, hbblank⟩ := List.any_eq_true.mp hblank
  obtain ⟨first, between, last, hpieces⟩ := exists_pieces (hplain b hb hbblank ▸ hb)
  obtain ⟨before, after, rfl⟩ := List.append_of_mem hw
  have hcut : (pieces w).flatMap pieces = pieces w :=
    flatMap_pieces_of_not_blank fun p hp => not_blank_of_mem_pieces hplain hp
  have hlength : 2 ≤ (pieces w).length := by
    rw [hpieces]
    simp
  have hne : before ++ pieces w ++ after ≠ [] := by
    rw [hpieces]
    simp
  refine ⟨before ++ pieces w ++ after, hne, ?_, fun heq => ?_⟩
  · rw [shownLine_eq_iff hne (by simp)]
    simp [hcut]
  · have hcount := congrArg List.length heq
    simp only [List.length_append, List.length_cons] at hcount
    omega

theorem intercalate_concat_append (ws : List (List Char)) (last more : List Char) :
    [' '].intercalate (ws ++ [last]) ++ more = [' '].intercalate (ws ++ [last ++ more]) := by
  induction ws with
  | nil => simp
  | cons w rest ih =>
      simp only [List.cons_append]
      rw [List.intercalate_cons_of_ne_nil (by simp), List.intercalate_cons_of_ne_nil (by simp),
        ← ih]
      simp

/-- Words that quotes seem to go around are the pieces of one word. -/
theorem exists_pieces_eq {between : List (List Char)} (h : Encloses w w')
    (hws : ∀ x ∈ w :: between ++ [w'], ' ' ∉ x) : ∃ m, pieces m = w :: between ++ [w'] := by
  obtain ⟨first, rfl⟩ := List.head?_eq_some_iff.mp h.1
  obtain ⟨last, rfl⟩ := List.getLast?_eq_some_iff.mp h.2
  refine ⟨first ++ ' ' :: [' '].intercalate (between ++ [last]), ?_⟩
  have hblank : (first ++ ' ' :: [' '].intercalate (between ++ [last])).any isBlank = true :=
    List.any_eq_true.mpr ⟨' ', by simp, by decide⟩
  have hquoted : quoted (first ++ ' ' :: [' '].intercalate (between ++ [last])) =
      ('\'' :: first) ++ ' ' :: [' '].intercalate (between ++ [last ++ ['\'']]) := by
    rw [quoted_of_blank hblank, ← intercalate_concat_append]
    simp
  have hrest : ∀ x ∈ between ++ [last ++ ['\'']], ' ' ∉ x :=
    fun x hx => hws x (List.mem_cons_of_mem _ hx)
  rw [pieces, hquoted, List.splitOn_append_cons_self_of_not_mem (hws _ (by simp)),
    List.splitOn_intercalate ' ' hrest (by simp)]
  rfl

theorem exists_mistaken_words (hws : ∀ w ∈ ws, w.any isBlank = false)
    (hquotes : ¬ ws.Pairwise fun w w' => ¬ Encloses w w') :
    ∃ ws' ≠ [], shownLine ws' = shownLine ws ∧ ws' ≠ ws := by
  simp only [List.pairwise_iff_forall_sublist, not_forall, not_not] at hquotes
  obtain ⟨w, w', hsublist, hencloses⟩ := hquotes
  obtain ⟨front, back, rfl, hw, hw'⟩ := List.cons_sublist_iff.mp hsublist
  obtain ⟨before, mid, rfl⟩ := List.append_of_mem hw
  obtain ⟨mid', after, rfl⟩ := List.append_of_mem (List.singleton_sublist.mp hw')
  have hplain : ∀ x ∈ w :: (mid ++ mid') ++ [w'], ' ' ∉ x := by
    intro x hx
    refine plain_notMem (hws x ?_)
    simp only [List.cons_append, List.mem_cons, List.mem_append, List.not_mem_nil] at hx ⊢
    tauto
  obtain ⟨m, hm⟩ := exists_pieces_eq hencloses hplain
  have hbefore : before.flatMap pieces = before :=
    flatMap_pieces_of_not_blank fun x hx => hws x (by simp [hx])
  have hafter : after.flatMap pieces = after :=
    flatMap_pieces_of_not_blank fun x hx => hws x (by simp [hx])
  refine ⟨before ++ m :: after, by simp, ?_, fun heq => ?_⟩
  · rw [shownLine_eq_iff (by simp) (by simp), flatMap_pieces_of_not_blank hws]
    simp [hm, hbefore, hafter]
  · have hcount := congrArg List.length heq
    simp only [List.length_append, List.length_cons] at hcount
    omega

end Text

/-! ## Commands -/

namespace Command

variable {c c' : Command}

theorem toList_shownWord (w : String) : (shownWord w).toList = Text.quoted w.toList := by
  unfold shownWord Text.quoted Text.hasBlank
  split <;> simp

def wordLists (c : Command) : List (List Char) := c.words.map String.toList

theorem toList_shown (c : Command) : c.shown.toList = Text.shownLine c.wordLists := by
  rw [shown, String.toList_intercalate, List.map_map, Text.shownLine, wordLists, List.map_map]
  congr 1
  exact List.map_congr_left fun w _ => toList_shownWord w

theorem wordLists_ne_nil (c : Command) : c.wordLists ≠ [] := by
  simp [wordLists, words]

theorem wordLists_inj : c.wordLists = c'.wordLists ↔ c = c' := by
  refine ⟨fun h => ?_, fun h => by rw [h]⟩
  have hwords : c.words = c'.words :=
    List.map_injective_iff.mpr (fun _ _ heq => String.toList_inj.mp heq) h
  obtain ⟨program, args⟩ := c
  obtain ⟨program', args'⟩ := c'
  simpa [words] using hwords

theorem exists_wordLists_eq {ws : List (List Char)} (hws : ws ≠ []) :
    ∃ c : Command, c.wordLists = ws := by
  cases ws with
  | nil => exact absurd rfl hws
  | cons w rest =>
      refine ⟨⟨String.ofList w, rest.map String.ofList⟩, ?_⟩
      simp [wordLists, words, Function.comp_def]

theorem shown_eq_iff : c.shown = c'.shown ↔
    Text.shownLine c.wordLists = Text.shownLine c'.wordLists := by
  rw [← String.toList_inj, toList_shown, toList_shown]

/-- Of command lines with legible words no two are shown alike. A command line whose white space is
blanks is shown like no other exactly if none of its words holds one and no word that begins with
a quote stands before one that ends in a quote. -/
theorem shown_determines_command_iff (c : Command) :
    ((∀ w ∈ c.words, Text.Legible w.toList) → ∀ c' : Command,
      (∀ w ∈ c'.words, Text.Legible w.toList) → (c.shown = c'.shown ↔ c = c')) ∧
    ((∀ w ∈ c.words, ∀ b ∈ w.toList, Text.isBlank b = true → b = ' ') →
      ((∀ c', c'.shown = c.shown → c' = c) ↔
        (∀ w ∈ c.words, Text.hasBlank w = false) ∧
          c.words.Pairwise fun w w' =>
            ¬ (w.toList.head? = some '\'' ∧ w'.toList.getLast? = some '\''))) := by
  refine ⟨fun hc c' hc' => ⟨fun h => ?_, fun h => by rw [h]⟩, fun hplain => ?_⟩
  · refine wordLists_inj.mp (Text.eq_of_shownLine ?_ ?_ c.wordLists_ne_nil c'.wordLists_ne_nil
      (shown_eq_iff.mp h))
    · exact List.forall_mem_map.mpr hc
    · exact List.forall_mem_map.mpr hc'
  · have hblank : (∀ w ∈ c.words, Text.hasBlank w = false) ↔
        ∀ w ∈ c.wordLists, w.any Text.isBlank = false := by
      simp only [wordLists, List.forall_mem_map, Text.hasBlank]
    have hquotes : (c.words.Pairwise fun w w' =>
          ¬ (w.toList.head? = some '\'' ∧ w'.toList.getLast? = some '\'')) ↔
        c.wordLists.Pairwise fun w w' => ¬ Text.Encloses w w' := by
      rw [wordLists, List.pairwise_map]
      rfl
    rw [hblank, hquotes]
    -- Any other words that are shown alike are those of another command.
    have hmistaken : (∃ ws' ≠ [], Text.shownLine ws' = Text.shownLine c.wordLists ∧
        ws' ≠ c.wordLists) → ¬ ∀ c', c'.shown = c.shown → c' = c := by
      rintro ⟨ws', hne, hshown, hdiffers⟩ hall
      obtain ⟨c', rfl⟩ := exists_wordLists_eq hne
      exact hdiffers (wordLists_inj.mpr (hall c' (shown_eq_iff.mpr hshown)))
    constructor
    · intro hall
      have hfree : ∀ w ∈ c.wordLists, w.any Text.isBlank = false := by
        intro w hw
        by_contra hblanked
        obtain ⟨word, hword, rfl⟩ := List.mem_map.mp hw
        exact hmistaken (Text.exists_mistaken_word hw (by simpa using hblanked)
          (hplain word hword)) hall
      refine ⟨hfree, ?_⟩
      by_contra henclosed
      exact hmistaken (Text.exists_mistaken_words hfree henclosed) hall
    · rintro ⟨hfree, hunenclosed⟩ c' hshown
      exact wordLists_inj.mp (Text.eq_of_unenclosed hfree hunenclosed c.wordLists_ne_nil
        c'.wordLists_ne_nil (shown_eq_iff.mp hshown))

/-- Quotes inside of words and around them do no harm while they cannot be taken for others. -/
theorem shown_determines_command_iff_sample :
    let c := (ofProgram "g++").withArgs ["-DMSG='hello, world'", "", "-DX='y'", "it's so"]
    let c' := (ofProgram "g++").withArgs ["-DMSG='hello, world'", "-DX='y'", "it's so"]
    let plain := (ofProgram "cc").withArgs ["-DX='y'", "", "a.c", "'z'"]
    (∀ w ∈ c.words, Text.Legible w.toList) ∧ (∀ w ∈ c'.words, Text.Legible w.toList) ∧
      (c.shown = c'.shown ↔ c = c') ∧
      (∀ w ∈ plain.words, ∀ b ∈ w.toList, Text.isBlank b = true → b = ' ') ∧
      plain.shown = "cc -DX='y'  a.c 'z'" ∧
      ∀ other : Command, other.shown = plain.shown → other = plain := by
  intro c c' plain
  have hc : ∀ w ∈ c.words, Text.Legible w.toList := by decide
  have hc' : ∀ w ∈ c'.words, Text.Legible w.toList := by decide
  have hplain : ∀ w ∈ plain.words, ∀ b ∈ w.toList, Text.isBlank b = true → b = ' ' := by
    have hall : ∀ w ∈ plain.words, (w.toList.all fun b => !Text.isBlank b || b == ' ') = true := by
      decide
    intro w hw b hb hblank
    simpa [hblank] using List.all_eq_true.mp (hall w hw) b hb
  exact ⟨hc, hc', (shown_determines_command_iff c).1 hc c' hc', hplain, by decide,
    ((shown_determines_command_iff plain).2 hplain).mpr (by decide)⟩

/-- An argument with quotes inside is shown like two arguments, and so is an argument with a blank
inside like two arguments with quotes. -/
theorem quotes_shown_alike :
    let one := (ofProgram "cc").arg "a b' 'c d"
    let two := ((ofProgram "cc").arg "a b").arg "c d"
    let four := (((ofProgram "cc").arg "'a").arg "b'").withArgs ["'c", "d'"]
    one.shown = "cc 'a b' 'c d'" ∧ two.shown = one.shown ∧ four.shown = one.shown ∧
      two ≠ one ∧ four ≠ one ∧ four ≠ two := by
  decide

end Command

end Deglobal
