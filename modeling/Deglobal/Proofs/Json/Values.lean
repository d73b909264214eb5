import Deglobal.Json.Skip
import Deglobal.Proofs.Json.Strings

/-! # Passing over values

Every JSON value is passed over, whatever it holds and however deep, and reading
goes on right behind it. A number alone does not show where it ends, so what
follows it must not go on with it.
-/

namespace Deglobal.Json

variable {cs ds g rest : List Char} {c : Char}

/-! ## Gaps -/

theorem isSpace_iff : isSpace c = true ↔ c ∈ [' ', '\t', '\n', '\r'] := by
  simp [isSpace]
  tauto

theorem IsGap.skipSpace (hg : IsGap g) : skipSpace (g ++ cs) = skipSpace cs := by
  rw [Json.skipSpace, List.dropWhile_append_of_pos fun c hc => isSpace_iff.mpr (hg c hc)]
  rfl

theorem IsGap.skipSpace_eq_nil (hg : IsGap g) : Json.skipSpace g = [] := by
  have h : Json.skipSpace (g ++ []) = Json.skipSpace [] := hg.skipSpace
  rwa [List.append_nil] at h

theorem skipSpace_cons (hc : c ∉ [' ', '\t', '\n', '\r']) : skipSpace (c :: cs) = c :: cs := by
  rw [skipSpace, List.dropWhile_cons_of_neg (by rwa [isSpace_iff])]

theorem IsGap.passValue {n : Nat} (hg : IsGap g) :
    passValue n (g ++ cs) = Json.passValue n cs := by
  cases n <;> simp only [Json.passValue, hg.skipSpace]

theorem IsGap.passElements {n : Nat} (hg : IsGap g) :
    passElements n (g ++ cs) = Json.passElements n cs := by
  cases n <;> simp only [Json.passElements, hg.passValue]

theorem IsGap.passMembers {n : Nat} (hg : IsGap g) :
    passMembers n (g ++ cs) = Json.passMembers n cs := by
  cases n <;> simp only [Json.passMembers, hg.skipSpace]

/-! ## Numbers -/

def NoDigit (rest : List Char) : Prop := ∀ c, rest.head? = some c → isDigit c = false

/-- A text does not begin with anything that would go on with a number. -/
def Ends (rest : List Char) : Prop :=
  ∀ c, rest.head? = some c → isDigit c = false ∧ c ∉ ['.', 'e', 'E']

theorem Ends.noDigit (h : Ends rest) : NoDigit rest := fun c hc => (h c hc).1

theorem isDigit_iff : isDigit c = true ↔ '0' ≤ c ∧ c ≤ '9' := by
  simp [isDigit]

theorem dropWhile_digits (h : Text.IsDigits (c :: ds)) (hrest : NoDigit rest) :
    isDigit c = true ∧ (ds ++ rest).dropWhile isDigit = rest := by
  obtain ⟨hc, hds⟩ := List.forall_mem_cons.mp h.2
  refine ⟨isDigit_iff.mpr hc, ?_⟩
  rw [List.dropWhile_append_of_pos fun d hd => isDigit_iff.mpr (hds d hd)]
  cases rest with
  | nil => rfl
  | cons c rest => exact List.dropWhile_cons_of_neg (by simp [hrest c rfl])

theorem passExponent_append {sign : List Char} (hsign : sign ∈ [[], ['+'], ['-']])
    (h : Text.IsDigits ds) (hrest : NoDigit rest) :
    passExponent (sign ++ (ds ++ rest)) = .ok rest := by
  obtain ⟨c, ds, rfl⟩ := List.exists_cons_of_ne_nil h.1
  obtain ⟨hc, hdrop⟩ := dropWhile_digits h hrest
  simp only [List.mem_cons, List.not_mem_nil, or_false] at hsign
  rcases hsign with rfl | rfl | rfl
  · have hplus : c ≠ '+' := by
      rintro rfl
      cases hc
    have hminus : c ≠ '-' := by
      rintro rfl
      cases hc
    simp [passExponent, hplus, hminus, hc, hdrop]
  · simp [passExponent, hc, hdrop]
  · simp [passExponent, hc, hdrop]

theorem IsExponent.pass (h : IsExponent cs) (hrest : Ends rest) :
    passOptionalExponent (cs ++ rest) = .ok rest := by
  cases h with
  | absent =>
      rw [List.nil_append]
      unfold passOptionalExponent
      split
      · exact absurd (hrest 'e' rfl).2 (by decide)
      · exact absurd (hrest 'E' rfl).2 (by decide)
      · rfl
  | present he hsign h =>
      have hexponent := passExponent_append hsign h hrest.noDigit
      simp only [List.mem_cons, List.not_mem_nil, or_false] at he
      rcases he with rfl | rfl <;> simpa [passOptionalExponent] using hexponent

theorem IsExponent.head? (h : IsExponent cs) (hrest : Ends rest) :
    ∀ c, (cs ++ rest).head? = some c → isDigit c = false ∧ c ≠ '.' := by
  intro c hc
  cases h with
  | absent => exact ⟨(hrest c hc).1, fun hpoint => (hrest c hc).2 (by simp [hpoint])⟩
  | present he hsign h =>
      simp only [List.mem_cons, List.not_mem_nil, or_false] at he
      rcases he with rfl | rfl <;> (cases hc; decide)

theorem IsFraction.pass {es : List Char} (h : IsFraction cs) (hexponent : IsExponent es)
    (hrest : Ends rest) : passFraction (cs ++ (es ++ rest)) = .ok rest := by
  have hhead := hexponent.head? hrest
  cases h with
  | absent =>
      rw [List.nil_append]
      unfold passFraction
      split
      · next heq => exact absurd rfl (hhead '.' (by rw [heq]; rfl)).2
      · next heq => exact absurd rfl (hhead '.' (by rw [heq]; rfl)).2
      · exact hexponent.pass hrest
  | @present ds h =>
      obtain ⟨c, ds, rfl⟩ := List.exists_cons_of_ne_nil h.1
      obtain ⟨hc, hdrop⟩ := dropWhile_digits h fun c hc => (hhead c hc).1
      simp [passFraction, hc, hdrop, hexponent.pass hrest]

theorem IsMagnitude.pass (h : IsMagnitude cs) (hrest : Ends rest) :
    passNumber (cs ++ rest) = .ok rest := by
  obtain ⟨hwhole, hfraction, hexponent⟩ := h
  rename_i whole fraction exponent
  have hpass := hfraction.pass hexponent hrest
  have hnoDigit : NoDigit (fraction ++ (exponent ++ rest)) := by
    cases hfraction with
    | absent => exact fun c hc => (hexponent.head? hrest c hc).1
    | present h =>
        intro c hc
        cases hc
        rfl
  rw [List.append_assoc, List.append_assoc]
  rcases hwhole with rfl | ⟨hdigits, hzero⟩
  · simp only [List.singleton_append, passNumber]
    split
    · next c tail heq =>
        have hc := hnoDigit c (by rw [heq]; rfl)
        simp only [hc, Bool.false_eq_true, if_false, hpass]
    · next heq =>
        rw [heq] at hpass
        simpa [passFraction, passOptionalExponent] using hpass
  · obtain ⟨c, ds, rfl⟩ := List.exists_cons_of_ne_nil hdigits.1
    obtain ⟨hc, hdrop⟩ := dropWhile_digits hdigits hnoDigit
    have hzero : c ≠ '0' := by simpa using hzero
    simp [passNumber, hc, hdrop, hpass]

theorem IsMagnitude.exists_digit (h : IsMagnitude cs) :
    ∃ c tail, cs = c :: tail ∧ isDigit c = true := by
  obtain ⟨rfl | ⟨hdigits, _⟩, _, _⟩ := h
  · exact ⟨'0', _, rfl, rfl⟩
  · obtain ⟨c, ds, rfl⟩ := List.exists_cons_of_ne_nil hdigits.1
    exact ⟨c, _, rfl, isDigit_iff.mpr (hdigits.2 c List.mem_cons_self)⟩

theorem notMem_of_isDigit (hc : isDigit c = true) : c ∉ [' ', '\t', '\n', '\r', ']'] := by
  intro hmem
  simp only [List.mem_cons, List.not_mem_nil, or_false] at hmem
  rcases hmem with rfl | rfl | rfl | rfl | rfl <;> cases hc

theorem passValue_of_isDigit {n : Nat} (hc : isDigit c = true) :
    passValue (n + 1) (c :: cs) = passNumber (c :: cs) := by
  have hspace : c ∉ [' ', '\t', '\n', '\r'] := fun hmem =>
    notMem_of_isDigit hc (List.mem_append_left [']'] hmem)
  rw [passValue, skipSpace_cons hspace]
  split <;> rename_i heq
  case h_9 =>
    cases heq
    exact if_pos hc
  all_goals
    cases heq
    try cases hc

/-! ## Arrays and objects -/

/-- An allowance of one call for each character is enough to pass over a value. -/
def Passed (cs : List Char) : Prop :=
  ∀ n rest, cs.length ≤ n → Ends rest → passValue n (cs ++ rest) = .ok rest

theorem ends_cons (hc : isDigit c = false ∧ c ∉ ['.', 'e', 'E']) : Ends (c :: rest) := by
  rintro _ ⟨⟩
  exact hc

theorem IsGap.ends (hg : IsGap g) (h : Ends rest) : Ends (g ++ rest) := by
  cases g with
  | nil => exact h
  | cons c g =>
      have hspaces : ∀ c ∈ [' ', '\t', '\n', '\r'],
          isDigit c = false ∧ c ∉ ['.', 'e', 'E'] := by
        simp [isDigit]
      exact ends_cons (hspaces c (hg c List.mem_cons_self))

section

variable {α : Type} {closing : Char} {item : α → List Char → Prop} {xs : List α}

theorem More.ends (h : More closing item xs cs) (hclosing : closing ∈ [']', '}']) :
    Ends (cs ++ rest) := by
  have hbrackets : ∀ c ∈ [']', '}'], isDigit c = false ∧ c ∉ ['.', 'e', 'E'] := by
    simp [isDigit]
  cases h with
  | close hg =>
      rw [List.append_assoc]
      exact hg.ends (ends_cons (hbrackets closing hclosing))
  | next hg =>
      rw [List.append_assoc]
      exact hg.ends (ends_cons (by decide))

theorem More.length_pos (h : More closing item xs cs) : 0 < cs.length := by
  cases h <;> simp

theorem More.exists_succ {n : Nat} (h : More closing item xs cs) (hn : cs.length ≤ n) :
    ∃ m, n = m + 1 :=
  Nat.exists_eq_add_one_of_ne_zero (Nat.pos_iff_ne_zero.mp (h.length_pos.trans_le hn))

end

section

variable {n : Nat} {key tail : List Char}

theorem passElements_close (h : passValue n cs = .ok (g ++ ']' :: rest)) (hg : IsGap g) :
    passElements (n + 1) cs = .ok rest := by
  simp [passElements, h, hg.skipSpace, skipSpace_cons, bind, Except.bind, pure, Except.pure]

theorem passElements_comma (h : passValue n cs = .ok (g ++ ',' :: rest)) (hg : IsGap g) :
    passElements (n + 1) cs = passElements n rest := by
  simp [passElements, h, hg.skipSpace, skipSpace_cons, bind, Except.bind]

theorem passMembers_close {g' : List Char} (hkey : IsString key) (hg : IsGap g)
    (h : passValue n tail = .ok (g' ++ '}' :: rest)) (hg' : IsGap g') :
    passMembers (n + 1) (key ++ (g ++ ':' :: tail)) = .ok rest := by
  obtain ⟨hkey⟩ := hkey
  simp [passMembers, hkey.pass, h, hg.skipSpace, hg'.skipSpace, skipSpace_cons, bind, Except.bind,
    pure, Except.pure]

theorem passMembers_comma {g' : List Char} (hkey : IsString key) (hg : IsGap g)
    (h : passValue n tail = .ok (g' ++ ',' :: rest)) (hg' : IsGap g') :
    passMembers (n + 1) (key ++ (g ++ ':' :: tail)) = passMembers n rest := by
  obtain ⟨hkey⟩ := hkey
  simp [passMembers, hkey.pass, h, hg.skipSpace, hg'.skipSpace, skipSpace_cons, bind, Except.bind]

end

theorem passValue_array (hg : IsGap g) (hc : c ∉ [' ', '\t', '\n', '\r', ']']) {n : Nat} :
    passValue (n + 1) ('[' :: (g ++ c :: cs)) = passElements n (c :: cs) := by
  have hspace : c ∉ [' ', '\t', '\n', '\r'] := fun h => hc (List.mem_append_left [']'] h)
  have hend : c ≠ ']' := fun h => hc (by simp [h])
  rw [passValue, skipSpace_cons (by decide)]
  simp only [hg.skipSpace, skipSpace_cons hspace]
  split
  · next heq =>
      cases heq
      exact absurd rfl hend
  · rfl

theorem More.pass_elements {vs : List (List Char)} {v : List Char} {n : Nat}
    (h : More ']' Eq vs cs) (hvalues : ∀ a ∈ v :: vs, Passed a) (hn : v.length + cs.length ≤ n) :
    passElements n (v ++ (cs ++ rest)) = .ok rest := by
  induction vs generalizing v cs n with
  | nil =>
      have hpos := h.length_pos
      obtain ⟨n, rfl⟩ := h.exists_succ (n := n) (by omega)
      have hvalue := hvalues v List.mem_cons_self n (cs ++ rest) (by omega) (h.ends (by simp))
      obtain ⟨hg⟩ := h
      exact passElements_close (by simpa using hvalue) hg
  | cons x xs ih =>
      have hpos := h.length_pos
      obtain ⟨n, rfl⟩ := h.exists_succ (n := n) (by omega)
      have hvalue := hvalues v List.mem_cons_self n (cs ++ rest) (by omega) (h.ends (by simp))
      cases h with
      | next hg hg' hx hrest =>
          obtain rfl := hx
          simp only [List.length_append, List.length_cons] at hn
          rw [passElements_comma (by simpa using hvalue) hg, hg'.passElements]
          exact ih hrest (fun a ha => hvalues a (List.mem_cons_of_mem _ ha)) (by omega)

theorem IsMember.exists_passValue {e : List Char × List Char} {m : List Char} {n : Nat}
    (hm : IsMember Eq e m) (hvalue : Passed e.2) (hn : m.length ≤ n) (hrest : Ends rest) :
    ∃ g tail, m ++ rest = e.1 ++ (g ++ ':' :: tail) ∧ IsGap g ∧ passValue n tail = .ok rest := by
  obtain ⟨rfl, hg, hg'⟩ := hm
  simp only [List.length_append, List.length_cons] at hn
  have hpass := hvalue n rest (by simp; omega) hrest
  rw [← hg'.passValue] at hpass
  exact ⟨_, _, by simp, hg, hpass⟩

theorem More.pass_members {es : List (List Char × List Char)} {e : List Char × List Char}
    {m : List Char} {n : Nat} (hm : IsMember Eq e m) (h : More '}' (IsMember Eq) es cs)
    (hkeys : ∀ a ∈ e :: es, IsString a.1) (hvalues : ∀ a ∈ e :: es, Passed a.2)
    (hn : m.length + cs.length ≤ n) : passMembers n (m ++ (cs ++ rest)) = .ok rest := by
  induction es generalizing e m cs n with
  | nil =>
      have hpos := h.length_pos
      obtain ⟨n, rfl⟩ := h.exists_succ (n := n) (by omega)
      obtain ⟨g, tail, heq, hg, hvalue⟩ := hm.exists_passValue (n := n)
        (hvalues e List.mem_cons_self) (by omega) (h.ends (by simp))
      obtain ⟨hend⟩ := h
      rw [heq]
      exact passMembers_close (hkeys e List.mem_cons_self) hg (by simpa using hvalue) hend
  | cons x xs ih =>
      have hpos := h.length_pos
      obtain ⟨n, rfl⟩ := h.exists_succ (n := n) (by omega)
      obtain ⟨g, tail, heq, hg, hvalue⟩ := hm.exists_passValue (n := n)
        (hvalues e List.mem_cons_self) (by omega) (h.ends (by simp))
      rw [heq]
      cases h with
      | next hend hnext hx hrest =>
          simp only [List.length_append, List.length_cons] at hn
          rw [passMembers_comma (hkeys e List.mem_cons_self) hg (by simpa using hvalue) hend,
            hnext.passMembers]
          exact ih hx hrest (fun a ha => hkeys a (List.mem_cons_of_mem _ ha))
            (fun a ha => hvalues a (List.mem_cons_of_mem _ ha)) (by omega)

/-! ## Values -/

theorem IsValue.exists_cons (h : IsValue cs) :
    ∃ c tail, cs = c :: tail ∧ c ∉ [' ', '\t', '\n', '\r', ']'] := by
  cases h with
  | positive h =>
      obtain ⟨c, tail, rfl, hc⟩ := h.exists_digit
      exact ⟨c, tail, rfl, notMem_of_isDigit hc⟩
  | string h =>
      cases h
      exact ⟨'"', _, rfl, by decide⟩
  | array h =>
      cases h
      exact ⟨'[', _, rfl, by decide⟩
  | object h =>
      cases h
      exact ⟨'{', _, rfl, by decide⟩
  | _ => exact ⟨_, _, rfl, by decide⟩

theorem IsValue.passed_of_succ (h : IsValue cs) (hsucc : ∀ n rest, cs.length ≤ n + 1 → Ends rest →
    passValue (n + 1) (cs ++ rest) = .ok rest) : Passed cs := by
  intro n rest hn hrest
  cases n with
  | zero =>
      obtain ⟨c, tail, rfl, _⟩ := h.exists_cons
      cases hn
  | succ n => exact hsucc n rest hn hrest

/-- An allowance of one call for each character is enough to pass over any value. -/
theorem IsValue.passed (h : IsValue cs) : Passed cs := by
  induction h with
  | null => exact IsValue.null.passed_of_succ fun _ _ _ _ => rfl
  | yes => exact IsValue.yes.passed_of_succ fun _ _ _ _ => rfl
  | no => exact IsValue.no.passed_of_succ fun _ _ _ _ => rfl
  | positive h =>
      refine (IsValue.positive h).passed_of_succ fun n rest _ hrest => ?_
      obtain ⟨c, tail, rfl, hc⟩ := h.exists_digit
      rw [List.cons_append, passValue_of_isDigit hc]
      exact h.pass hrest
  | negative h =>
      refine (IsValue.negative h).passed_of_succ fun n rest _ hrest => ?_
      simpa [passValue, skipSpace_cons] using h.pass hrest
  | string h =>
      refine (IsValue.string h).passed_of_succ fun n rest _ _ => ?_
      obtain ⟨h⟩ := h
      simpa [passValue, skipSpace_cons] using h.pass
  | array h hvalues ih =>
      refine (IsValue.array h hvalues).passed_of_succ fun n rest hn _ => ?_
      obtain ⟨hg | ⟨hg, rfl, hmore⟩⟩ := h
      · simp [passValue, skipSpace_cons, hg.skipSpace]
      · obtain ⟨c, tail, rfl, hc⟩ := (hvalues _ List.mem_cons_self).exists_cons
        simp only [List.length_append, List.length_cons] at hn
        have hpass : passElements n (_ ++ (_ ++ rest)) = .ok rest :=
          hmore.pass_elements ih (by simp; omega)
        simpa [passValue_array hg hc] using hpass
  | object h hkeys hvalues ih =>
      refine (IsValue.object h hkeys hvalues).passed_of_succ fun n rest hn _ => ?_
      obtain ⟨hg | ⟨hg, hmember, hmore⟩⟩ := h
      · simp [passValue, skipSpace_cons, hg.skipSpace]
      · simp only [List.length_append, List.length_cons] at hn
        have hpass : passMembers n (_ ++ (_ ++ rest)) = .ok rest :=
          hmore.pass_members hmember hkeys ih (by omega)
        have hkey := hkeys _ List.mem_cons_self
        obtain ⟨rfl, _, _⟩ := hmember
        obtain ⟨_⟩ := hkey
        simpa [passValue, skipSpace_cons, hg.skipSpace] using hpass

/-- A value is passed over with the gap before it. -/
theorem IsValue.skip (h : IsValue cs) (hg : IsGap g) (hrest : Ends rest) :
    skipValue (g ++ (cs ++ rest)) = .ok rest := by
  rw [skipValue, hg.passValue]
  refine h.passed _ _ ?_ hrest
  simp only [List.length_append]
  omega

end Deglobal.Json
