import Deglobal.Text.Blank
import Mathlib.Data.List.DropRight

/-! # Parts of a text

Stripping a text takes away all that can go at its ends and leaves the rest as it
is: what comes of it is the one part of the text between characters that can go
which neither begins nor ends with one. Cutting a text at a separator leaves
pieces of it without the separator.
-/

namespace Deglobal.Text

variable {p : Char → Bool} {cs before body after : List Char}

def BareEnds (p : Char → Bool) (cs : List Char) : Prop :=
  (∀ c ∈ cs.head?, p c = false) ∧ ∀ c ∈ cs.getLast?, p c = false

instance (p : Char → Bool) (cs : List Char) : Decidable (BareEnds p cs) :=
  decidable_of_iff ((cs.head?.all fun c => !p c) = true ∧ (cs.getLast?.all fun c => !p c) = true)
    (by simp [BareEnds, Option.all_eq_true])

/-! ## Stripping -/

theorem dropTail_eq_rdropWhile {α : Type} (p : α → Bool) (l : List α) :
    dropTail p l = l.rdropWhile p := rfl

theorem strip_append (hbefore : ∀ c ∈ before, p c = true) (hafter : ∀ c ∈ after, p c = true)
    (hbody : BareEnds p body) : strip p (before ++ body ++ after) = body := by
  rw [strip, dropTail_eq_rdropWhile, List.append_assoc, List.dropWhile_append_of_pos hbefore]
  cases body with
  | nil => simp [List.dropWhile_eq_nil_iff.mpr hafter]
  | cons c rest =>
      have hc : p c = false := hbody.1 c rfl
      have hlast : p ((c :: rest).getLast (List.cons_ne_nil c rest)) = false :=
        hbody.2 _ (List.getLast?_eq_some_getLast _)
      rw [List.cons_append, List.dropWhile_cons_of_neg (by simp [hc]), ← List.cons_append]
      simp only [List.rdropWhile, List.reverse_append]
      rw [List.dropWhile_append_of_pos (by simpa using hafter), ← List.rdropWhile]
      simp [hlast]

theorem exists_strip (p : Char → Bool) (cs : List Char) :
    ∃ before after, cs = before ++ strip p cs ++ after ∧ (∀ c ∈ before, p c = true) ∧
      ∀ c ∈ after, p c = true := by
  refine ⟨cs.takeWhile p, (cs.dropWhile p).rtakeWhile p, ?_, ?_, ?_⟩
  · rw [strip, dropTail_eq_rdropWhile, List.append_assoc, List.rdropWhile_append_rtakeWhile,
      List.takeWhile_append_dropWhile]
  · exact fun c hc => List.mem_takeWhile_imp hc
  · exact fun c hc => List.mem_rtakeWhile_imp hc

theorem bareEnds_strip (p : Char → Bool) (cs : List Char) : BareEnds p (strip p cs) := by
  rw [strip, dropTail_eq_rdropWhile]
  constructor
  · intro c hc
    obtain ⟨tail, htail⟩ := List.rdropWhile_prefix p (cs.dropWhile p)
    have hfirst : (cs.dropWhile p).head? = some c := by
      rw [← htail, List.head?_append, Option.mem_def.mp hc]
      rfl
    simpa [hfirst] using List.head?_dropWhile_not p cs
  · intro c hc
    have hne : (cs.dropWhile p).rdropWhile p ≠ [] := by
      rintro heq
      simp [heq] at hc
    have hlast := List.rdropWhile_last_not p (cs.dropWhile p) hne
    rw [List.getLast?_eq_some_getLast hne] at hc
    simp_all

theorem strip_of_bareEnds (h : BareEnds p cs) : strip p cs = cs := by
  have hstrip : strip p ([] ++ cs ++ []) = cs := strip_append (by simp) (by simp) h
  simpa using hstrip

theorem strip_eq_self_iff : strip p cs = cs ↔ BareEnds p cs :=
  ⟨fun h => h ▸ bareEnds_strip p cs, strip_of_bareEnds⟩

theorem length_strip_le (p : Char → Bool) (cs : List Char) :
    (strip p cs).length ≤ cs.length := by
  obtain ⟨before, after, hcs, _⟩ := exists_strip p cs
  have hlength := congrArg List.length hcs
  simp only [List.length_append] at hlength
  omega

/-- Nothing is lost in stripping exactly if there is nothing to strip. -/
theorem length_strip_eq_iff : (strip p cs).length = cs.length ↔ BareEnds p cs := by
  refine ⟨fun h => ?_, fun h => by rw [strip_of_bareEnds h]⟩
  obtain ⟨before, after, hcs, _⟩ := exists_strip p cs
  have hlength := congrArg List.length hcs
  simp only [List.length_append] at hlength
  have hbefore : before = [] := List.length_eq_zero_iff.mp (by omega)
  have hafter : after = [] := List.length_eq_zero_iff.mp (by omega)
  refine strip_eq_self_iff.mp ?_
  simpa [hbefore, hafter] using hcs.symm

/-! ## Cutting -/

theorem of_mem_splitOn {sep c : Char} {cs piece : List Char} (hpiece : piece ∈ cs.splitOn sep)
    (hc : c ∈ piece) : c ∈ cs ∧ c ≠ sep := by
  by_cases hcs : sep ∈ cs
  · obtain ⟨first, rest, rfl, hfirst⟩ := List.eq_append_cons_of_mem hcs
    rw [List.splitOn_append_cons_self_of_not_mem hfirst] at hpiece
    rcases List.mem_cons.mp hpiece with rfl | hpiece
    · exact ⟨List.mem_append_left _ hc, fun heq => hfirst (heq ▸ hc)⟩
    · obtain ⟨hmem, hne⟩ := of_mem_splitOn hpiece hc
      exact ⟨by simp [hmem], hne⟩
  · rw [List.splitOn_eq_singleton hcs, List.mem_singleton] at hpiece
    subst hpiece
    exact ⟨hc, fun heq => hcs (heq ▸ hc)⟩
termination_by cs.length

end Deglobal.Text
