import Deglobal.Description.Reader
import Deglobal.Proofs.Json.Values

/-! # Values of fields as they are written

A field is written as a JSON string, as an array of strings or as a truth value,
according to its kind. Every such text is read as the value, in whatever way the
strings are spelled and wherever the gaps are.
-/

namespace Deglobal.Description

open Json

variable {s : String} {ss : List String} {cs g rest : List Char}

/-- The texts a value of some kind is written as. -/
def Field.Kind.Writes : (k : Field.Kind) → k.Value → List Char → Prop
  | .text, s, cs => Quoted s cs
  | .texts, ss, cs => IsArray Quoted ss cs
  | .flag, b, cs => cs = (if b then "true" else "false").toList

theorem readText_of_quoted (h : Quoted s cs) (hg : IsGap g) :
    readText (g ++ (cs ++ rest)) = .ok (s, rest) := by
  obtain ⟨h⟩ := h
  simp [readText, hg.skipSpace, skipSpace_cons, h.read, bind, Except.bind, pure, Except.pure]

theorem exists_readText (h : Quoted s cs) :
    ∃ tail, cs = '"' :: tail ∧ ∀ rest, readText ('"' :: (tail ++ rest)) = .ok (s, rest) := by
  obtain ⟨tail, rfl⟩ := h.exists_cons
  exact ⟨tail, rfl, fun rest => readText_of_quoted h isGap_nil⟩

theorem readMoreTexts_close {n : Nat} (hg : IsGap g) :
    readMoreTexts (n + 1) (g ++ ']' :: rest) = .ok ([], rest) := by
  simp [readMoreTexts, hg.skipSpace, skipSpace_cons]

theorem readMoreTexts_comma {n : Nat} {g' : List Char} (h : Quoted s cs) (hg : IsGap g)
    (hg' : IsGap g') : readMoreTexts (n + 1) (g ++ ',' :: (g' ++ (cs ++ rest))) =
      (readMoreTexts n rest).map fun p => (s :: p.1, p.2) := by
  obtain ⟨tail, rfl, hread⟩ := exists_readText h
  simp [readMoreTexts, hg.skipSpace, hg'.skipSpace, skipSpace_cons, hread, bind, Except.bind,
    pure, Except.pure]
  cases readMoreTexts n rest <;> rfl

theorem readMoreTexts_of_more {n : Nat} (h : More ']' Quoted ss cs) (hn : cs.length ≤ n) :
    readMoreTexts n (cs ++ rest) = .ok (ss, rest) := by
  induction ss generalizing cs n with
  | nil =>
      obtain ⟨n, rfl⟩ := h.exists_succ hn
      obtain ⟨hg⟩ := h
      rw [List.append_assoc]
      exact readMoreTexts_close hg
  | cons s ss ih =>
      obtain ⟨n, rfl⟩ := h.exists_succ hn
      cases h with
      | next hg hg' hs hrest =>
          simp only [List.length_append, List.length_cons] at hn
          simp only [List.append_assoc, List.cons_append]
          rw [readMoreTexts_comma hs hg hg', ih hrest (by omega)]
          rfl

theorem readTexts_of_array (h : IsArray Quoted ss cs) (hg : IsGap g) :
    readTexts (g ++ (cs ++ rest)) = .ok (ss, rest) := by
  obtain ⟨hend | ⟨hfirst, hs, hmore⟩⟩ := h
  · simp [readTexts, hg.skipSpace, hend.skipSpace, skipSpace_cons]
  · rename_i s ss g' cs more
    have hread : readMoreTexts ((more ++ rest).length + 1) (more ++ rest) = .ok (ss, rest) :=
      readMoreTexts_of_more hmore (by simp; omega)
    obtain ⟨tail, rfl, hfirstRead⟩ := exists_readText hs
    simp (disch := decide) only [readTexts, hg.skipSpace, hfirst.skipSpace, skipSpace_cons,
      List.cons_append, List.append_assoc]
    change (readText ('"' :: (tail ++ (more ++ rest))) >>= fun p =>
      readMoreTexts (p.2.length + 1) p.2 >>= fun q => pure (p.1 :: q.1, q.2)) = _
    rw [hfirstRead]
    simp only [bind, Except.bind, hread, pure, Except.pure]

theorem readFlag_of_writes {b : Bool} (h : Field.Kind.Writes .flag b cs) (hg : IsGap g) :
    readFlag (g ++ (cs ++ rest)) = .ok (b, rest) := by
  obtain rfl := h
  cases b <;> simp [readFlag, hg.skipSpace, skipSpace_cons, word, Except.map]

theorem readKind_of_writes {k : Field.Kind} {v : k.Value} (h : k.Writes v cs) (hg : IsGap g) :
    readKind k (g ++ (cs ++ rest)) = .ok (v, rest) := by
  cases k with
  | text => exact readText_of_quoted h hg
  | texts => exact readTexts_of_array h hg
  | flag => exact readFlag_of_writes h hg

theorem exists_readKind {k : Field.Kind} {v : k.Value} (h : k.Writes v cs) :
    ∃ c tail, cs = c :: tail ∧ (c = '"' ∨ c = '[' ∨ c = 't' ∨ c = 'f') ∧
      ∀ rest, readKind k (c :: (tail ++ rest)) = .ok (v, rest) := by
  have hread : ∀ rest, readKind k ([] ++ (cs ++ rest)) = .ok (v, rest) :=
    fun rest => readKind_of_writes h isGap_nil
  cases k with
  | text =>
      obtain ⟨_⟩ := h
      exact ⟨'"', _, rfl, by simp, hread⟩
  | texts =>
      obtain ⟨_⟩ := h
      exact ⟨'[', _, rfl, by simp, hread⟩
  | flag =>
      obtain rfl := h
      cases v
      · exact ⟨'f', _, rfl, by simp, hread⟩
      · exact ⟨'t', _, rfl, by simp, hread⟩

end Deglobal.Description
