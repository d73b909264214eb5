import Deglobal.Text.Blank

/-! # Words and blanks

Words are what stands between blanks. A change to a text that leaves its blanks
where they are is a change to each of its words, and the words of the result are
those that come of them, in order.
-/

namespace Deglobal.Text

variable {s w : List Char}

/-! ## The words of a text -/

theorem wordsOf_append_cons {b : Char} (hb : isBlank b = true) (x y : List Char) :
    wordsOf (x ++ b :: y) = wordsOf x ++ wordsOf y := by
  unfold wordsOf
  rw [List.splitOnP_append_cons x y hb, List.filter_append]

def IsWord (s : List Char) : Prop := s ≠ [] ∧ ∀ c ∈ s, isBlank c = false

theorem isWord_toList_iff {s : String} : IsWord s.toList ↔ s ≠ "" ∧ hasBlank s = false := by
  simp [IsWord, hasBlank]

theorem wordsOf_of_isWord (hs : IsWord s) : wordsOf s = [s] := by
  rw [wordsOf, List.splitOnP_eq_singleton hs.2]
  simp [hs.1]

/-- Induction on a text from blank to blank. -/
theorem blank_induction {motive : List Char → Prop}
    (word : ∀ s, (∀ c ∈ s, isBlank c = false) → motive s)
    (blank : ∀ x b y, (∀ c ∈ x, isBlank c = false) → isBlank b = true → motive y →
      motive (x ++ b :: y)) (s : List Char) : motive s := by
  suffices h : ∀ x, (∀ c ∈ x, isBlank c = false) → motive (x ++ s) from
    h [] fun _ hc => absurd hc List.not_mem_nil
  induction s with
  | nil =>
      intro x hx
      rw [List.append_nil]
      exact word x hx
  | cons c rest ih =>
      intro x hx
      cases hc : isBlank c with
      | true => exact blank x c rest hx hc (ih [] fun _ hd => absurd hd List.not_mem_nil)
      | false =>
          have hlonger := ih (x ++ [c]) fun d hd => by
            rcases List.mem_append.mp hd with hd | hd
            · exact hx d hd
            · rw [List.mem_singleton.mp hd]
              exact hc
          rwa [List.append_assoc, List.singleton_append] at hlonger

theorem isWord_of_mem_wordsOf (hw : w ∈ wordsOf s) : IsWord w := by
  have hword : ∀ x : List Char, (∀ c ∈ x, isBlank c = false) → w ∈ wordsOf x → IsWord w := by
    intro x hx hmem
    by_cases hne : x = []
    · subst hne
      exact absurd hmem List.not_mem_nil
    · rw [wordsOf_of_isWord ⟨hne, hx⟩] at hmem
      rw [List.mem_singleton.mp hmem]
      exact ⟨hne, hx⟩
  induction s using blank_induction with
  | word s hs => exact hword s hs hw
  | blank x b y hx hb ih =>
      rw [wordsOf_append_cons hb] at hw
      rcases List.mem_append.mp hw with hw | hw
      · exact hword x hx hw
      · exact ih hw

theorem isWord_of_mem_words {w s : String} (hw : w ∈ words s) : IsWord w.toList := by
  obtain ⟨x, hx, rfl⟩ := List.mem_map.mp hw
  rw [String.toList_ofList]
  exact isWord_of_mem_wordsOf hx

theorem words_of_isWord {s : String} (hs : IsWord s.toList) : words s = [s] := by
  rw [words, wordsOf_of_isWord hs, List.map_singleton, String.ofList_toList]

/-! ## Changes between blanks -/

/-- A change to texts that leaves every blank where it is. -/
structure KeepsBlanks (f : List Char → List Char) : Prop where
  nil : f [] = []
  blank : ∀ x b y, isBlank b = true → f (x ++ b :: y) = f x ++ b :: f y

namespace KeepsBlanks

variable {f g : List Char → List Char}

theorem comp (hg : KeepsBlanks g) (hf : KeepsBlanks f) : KeepsBlanks fun s => g (f s) where
  nil := by rw [hf.nil, hg.nil]
  blank x b y hb := by rw [hf.blank x b y hb, hg.blank _ b _ hb]

/-- The words of the result are the words that come of each word. -/
theorem wordsOf_eq (hf : KeepsBlanks f) (s : List Char) :
    wordsOf (f s) = (wordsOf s).flatMap fun w => wordsOf (f w) := by
  have hword : ∀ s, (∀ c ∈ s, isBlank c = false) →
      wordsOf (f s) = (wordsOf s).flatMap fun w => wordsOf (f w) := by
    intro s hs
    by_cases hne : s = []
    · subst hne
      rw [hf.nil]
      rfl
    · rw [wordsOf_of_isWord ⟨hne, hs⟩, List.flatMap_singleton]
  induction s using blank_induction with
  | word s hs => exact hword s hs
  | blank x b y hx hb ih =>
      rw [hf.blank x b y hb, wordsOf_append_cons hb, wordsOf_append_cons hb, List.flatMap_append,
        hword x hx, ih]

end KeepsBlanks

end Deglobal.Text
