import Deglobal.Text.Substitute
import Mathlib.Data.List.Induction

/-! # What a substitution leaves and what it makes

A substitution reads a text from left to right: it writes the replacement where
the pattern stands and passes on by one character where it does not. What stands
in its result stood in the text before, or stands in the replacement, or was put
together from the replacement and what it came to stand beside. Placeholders do
not overlap one another, so that of two different ones a substitution for the
first leaves every second one in place.
-/

namespace Deglobal.Text

variable {p q r s t : List Char}

theorem occursIn_iff (pattern s : List Char) : occursIn pattern s = true ↔ pattern <:+: s := by
  induction s with
  | nil => simp [occursIn]
  | cons c rest ih => simp [occursIn, List.infix_cons_iff, ih]

theorem contains_iff (s pattern : String) :
    contains s pattern = true ↔ pattern.toList <:+: s.toList := occursIn_iff _ _

theorem contains_eq_false_iff (s pattern : String) :
    contains s pattern = false ↔ ¬ pattern.toList <:+: s.toList := by
  rw [← contains_iff, Bool.not_eq_true]

/-! ## How a substitution reads -/

@[simp] theorem substituteFrom_nil (p r : List Char) (n : Nat) : substituteFrom p r n [] = [] := by
  cases n <;> rfl

theorem substituteFrom_drop (p r : List Char) (n : Nat) (s : List Char) :
    substituteFrom p r n s = substituteFrom p r 0 (s.drop n) := by
  induction s generalizing n with
  | nil => simp
  | cons c rest ih =>
      cases n with
      | zero => rfl
      | succ n => exact ih n

theorem substituteFrom_append (hp : p ≠ []) (r t : List Char) :
    substituteFrom p r 0 (p ++ t) = r ++ substituteFrom p r 0 t := by
  obtain ⟨c, rest, rfl⟩ := List.exists_cons_of_ne_nil hp
  have hpre : (c :: rest).isPrefixOf (c :: (rest ++ t)) = true :=
    List.isPrefixOf_iff_prefix.mpr (List.prefix_append (c :: rest) t)
  rw [List.cons_append, substituteFrom, if_pos hpre, substituteFrom_drop]
  simp

theorem substituteFrom_cons {c : Char} (h : ¬ p <+: c :: t) (r : List Char) :
    substituteFrom p r 0 (c :: t) = c :: substituteFrom p r 0 t := by
  rw [substituteFrom, if_neg fun hpre => h (List.isPrefixOf_iff_prefix.mp hpre)]

/-- Induction on a text in the way a substitution for `p` reads it. -/
theorem reading_induction (hp : p ≠ []) {motive : List Char → Prop} (nil : motive [])
    (occurrence : ∀ t, motive t → motive (p ++ t))
    (other : ∀ c t, ¬ p <+: c :: t → motive t → motive (c :: t)) (s : List Char) : motive s := by
  induction hlen : s.length using Nat.strongRecOn generalizing s with
  | ind n ih =>
      cases s with
      | nil => exact nil
      | cons c rest =>
          by_cases hpre : p <+: c :: rest
          · obtain ⟨t, ht⟩ := hpre
            rw [← ht]
            have hpos := List.length_pos_iff.mpr hp
            have hsum := congrArg List.length ht
            rw [List.length_append] at hsum
            exact occurrence t (ih t.length (by omega) t rfl)
          · rw [List.length_cons] at hlen
            exact other c rest hpre (ih rest.length (by omega) rest rfl)

theorem substituteFrom_of_absent (h : ¬ p <:+: s) (r : List Char) :
    substituteFrom p r 0 s = s := by
  induction s with
  | nil => exact substituteFrom_nil p r 0
  | cons c rest ih =>
      obtain ⟨hhere, hlater⟩ := not_or.mp (mt List.infix_cons_iff.mpr h)
      rw [substituteFrom_cons hhere, ih hlater]

/-- A character that is none of the pattern's parts what stands before it from what comes after. -/
theorem substituteFrom_append_cons (hp : p ≠ []) {b : Char} (hb : b ∉ p) (r s t : List Char) :
    substituteFrom p r 0 (s ++ b :: t) = substituteFrom p r 0 s ++ b :: substituteFrom p r 0 t := by
  induction s using reading_induction hp with
  | nil =>
      have hnot : ¬ p <+: b :: t := by
        intro hpre
        rcases List.prefix_cons_iff.mp hpre with rfl | ⟨_, rfl, _⟩
        · exact hp rfl
        · exact hb List.mem_cons_self
      rw [List.nil_append, substituteFrom_cons hnot, substituteFrom_nil, List.nil_append]
  | occurrence s ih =>
      rw [List.append_assoc, substituteFrom_append hp, substituteFrom_append hp, ih,
        List.append_assoc]
  | other c s hnot ih =>
      have hlonger : ¬ p <+: c :: (s ++ b :: t) := by
        intro hpre
        rcases List.prefix_or_prefix_of_prefix hpre (List.prefix_append (c :: s) (b :: t)) with
          hshort | ⟨rest, hrest⟩
        · exact hnot hshort
        · rw [← hrest, ← List.cons_append, List.prefix_append_right_inj] at hpre
          rcases List.prefix_cons_iff.mp hpre with rfl | ⟨_, rfl, _⟩
          · rw [List.append_nil] at hrest
            exact hnot (hrest ▸ List.prefix_rfl)
          · exact hb (hrest ▸ List.mem_append_right _ List.mem_cons_self)
      rw [List.cons_append, substituteFrom_cons hlonger, substituteFrom_cons hnot, ih,
        List.cons_append]

theorem mem_substituteFrom (hp : p ≠ []) {c : Char} (hc : c ∈ substituteFrom p r 0 s) :
    c ∈ s ∨ c ∈ r := by
  induction s using reading_induction hp with
  | nil =>
      rw [substituteFrom_nil] at hc
      exact Or.inl hc
  | occurrence t ih =>
      rw [substituteFrom_append hp] at hc
      rcases List.mem_append.mp hc with hr | ht
      · exact Or.inr hr
      · exact (ih ht).imp (List.mem_append_right p) id
  | other d t hnot ih =>
      rw [substituteFrom_cons hnot] at hc
      rcases List.mem_cons.mp hc with rfl | ht
      · exact Or.inl List.mem_cons_self
      · exact (ih ht).imp (List.mem_cons_of_mem d) id

theorem substituteFrom_ne_nil (hp : p ≠ []) (hr : r ≠ []) (hs : s ≠ []) :
    substituteFrom p r 0 s ≠ [] := by
  cases s using reading_induction hp with
  | nil => exact absurd rfl hs
  | occurrence t _ =>
      rw [substituteFrom_append hp]
      exact List.append_ne_nil_of_left_ne_nil hr _
  | other c t hnot _ =>
      rw [substituteFrom_cons hnot]
      exact List.cons_ne_nil _ _

/-! ## What can be put together -/

/-- A text `r` can make up a word together with what it is put beside: it is the word's inside, or
its beginning is the word's end, or its end the word's beginning. -/
inductive Completes (word r : List Char) : Prop where
  | inside (a b : List Char) : a ≠ [] → b ≠ [] → word = a ++ (r ++ b) → Completes word r
  | atStart (a x rest : List Char) : a ≠ [] → x ≠ [] → word = a ++ x → r = x ++ rest →
      Completes word r
  | atEnd (rest x b : List Char) : x ≠ [] → b ≠ [] → word = x ++ b → r = rest ++ x →
      Completes word r

/-- What a result begins with was there before, up to where it runs into a replacement. -/
theorem prefix_substituteFrom (hp : p ≠ []) {w : List Char}
    (hw : w <+: substituteFrom p r 0 s) :
    w <+: s ∨ ∃ a x, w = a ++ x ∧ x ≠ [] ∧ (x <+: r ∨ r <+: x) := by
  induction s using reading_induction hp generalizing w with
  | nil =>
      rw [substituteFrom_nil] at hw
      exact Or.inl hw
  | occurrence t ih =>
      rw [substituteFrom_append hp] at hw
      by_cases hnil : w = []
      · exact Or.inl (hnil ▸ List.nil_prefix)
      · exact Or.inr ⟨[], w, rfl, hnil,
          List.prefix_or_prefix_of_prefix hw (List.prefix_append r _)⟩
  | other c t hnot ih =>
      rw [substituteFrom_cons hnot] at hw
      rcases List.prefix_cons_iff.mp hw with rfl | ⟨w', rfl, hw'⟩
      · exact Or.inl List.nil_prefix
      · rcases ih hw' with hstood | ⟨a, x, rfl, hx⟩
        · exact Or.inl (List.cons_prefix_cons.mpr ⟨rfl, hstood⟩)
        · exact Or.inr ⟨c :: a, x, rfl, hx⟩

/-- A word in the result is another word than the pattern and was there before, or it is in the
replacement, or the replacement completes it. -/
theorem infix_substituteFrom (hp : p ≠ []) (hq : q ≠ []) (h : q <:+: substituteFrom p r 0 s) :
    (q <:+: s ∧ q ≠ p) ∨ q <:+: r ∨ Completes q r := by
  induction s using reading_induction hp with
  | nil =>
      rw [substituteFrom_nil] at h
      exact absurd (List.infix_nil.mp h) hq
  | occurrence t ih =>
      rw [substituteFrom_append hp] at h
      rcases List.infix_append_iff.mp h with hr | ht | ⟨x, b, rfl, ⟨rest, hrest⟩, hb⟩
      · exact Or.inr (Or.inl hr)
      · exact (ih ht).imp_left fun hold => ⟨hold.1.trans (List.suffix_append p t).isInfix, hold.2⟩
      · -- The word stands across the end of the replacement, or on one side of it only.
        by_cases hx : x = []
        · subst hx
          exact (ih hb.isInfix).imp_left fun hold =>
            ⟨hold.1.trans (List.suffix_append p t).isInfix, hold.2⟩
        by_cases hbnil : b = []
        · subst hbnil
          rw [List.append_nil]
          exact Or.inr (Or.inl ⟨rest, [], by rw [List.append_nil, hrest]⟩)
        · exact Or.inr (Or.inr (.atEnd rest x b hx hbnil rfl hrest.symm))
  | other c t hnot ih =>
      rw [substituteFrom_cons hnot] at h
      rcases List.infix_cons_iff.mp h with hhere | hlater
      · rcases List.prefix_cons_iff.mp hhere with rfl | ⟨w, rfl, hw⟩
        · exact absurd rfl hq
        rcases prefix_substituteFrom hp hw with hw | ⟨a, x, rfl, hx, hside⟩
        · have hstood : c :: w <+: c :: t := List.cons_prefix_cons.mpr ⟨rfl, hw⟩
          exact Or.inl ⟨hstood.isInfix, fun heq => hnot (heq ▸ hstood)⟩
        · have hcons : c :: a ≠ [] := List.cons_ne_nil c a
          rcases hside with ⟨rest, hrest⟩ | ⟨b, rfl⟩
          · exact Or.inr (Or.inr (.atStart (c :: a) x rest hcons hx rfl hrest.symm))
          · by_cases hb : b = []
            · subst hb
              rw [List.append_nil] at hx
              exact Or.inr (Or.inr (.atStart (c :: a) r [] hcons hx (by simp) (by simp)))
            · exact Or.inr (Or.inr (.inside (c :: a) b hcons hb rfl))
      · exact (ih hlater).imp_left fun hold =>
          ⟨hold.1.trans (List.suffix_cons c t).isInfix, hold.2⟩

/-! ## Placeholders -/

/-- A name between braces, with a dollar sign in front. -/
def IsPlaceholder (m : List Char) : Prop :=
  ∃ name, m = '$' :: '\x7b' :: (name ++ ['\x7d']) ∧ '$' ∉ name ∧ '\x7d' ∉ name

namespace IsPlaceholder

theorem ne_nil (hp : IsPlaceholder p) : p ≠ [] := by
  obtain ⟨name, rfl, _⟩ := hp
  exact List.cons_ne_nil _ _

theorem exists_dollar (hp : IsPlaceholder p) : ∃ rest, p = '$' :: rest ∧ '$' ∉ rest := by
  obtain ⟨name, rfl, hdollar, _⟩ := hp
  exact ⟨_, rfl, by simpa using hdollar⟩

theorem dollar_mem (hp : IsPlaceholder p) : '$' ∈ p := by
  obtain ⟨rest, rfl, _⟩ := hp.exists_dollar
  exact List.mem_cons_self

theorem dollar_notMem (hp : IsPlaceholder p) (heq : p = s ++ t) (hs : s ≠ []) : '$' ∉ t := by
  obtain ⟨rest, rfl, hrest⟩ := hp.exists_dollar
  obtain ⟨c, s, rfl⟩ := List.exists_cons_of_ne_nil hs
  cases heq
  exact fun hmem => hrest (List.mem_append_right s hmem)

theorem mark_isPrefix (hp : IsPlaceholder p) : ['$', '\x7b'] <+: p := by
  obtain ⟨name, rfl, _⟩ := hp
  exact ⟨_, rfl⟩

theorem eq_of_isPrefix (hp : IsPlaceholder p) (hq : IsPlaceholder q) (h : q <+: p) : q = p := by
  obtain ⟨name, rfl, _, hname⟩ := hp
  obtain ⟨name', rfl, _, _⟩ := hq
  simp only [List.cons_prefix_cons, true_and] at h
  rcases List.prefix_concat_iff.mp h with heq | hshort
  · rw [heq]
  · exact absurd (hshort.subset (List.mem_append_right name' List.mem_cons_self)) hname

/-- A placeholder that begins inside of another text with a placeholder after it ends there too. -/
theorem prefix_of_prefix_append (hp : IsPlaceholder p) (hq : IsPlaceholder q) (hs : s ≠ [])
    (h : q <+: s ++ (p ++ t)) : q <+: s := by
  rcases List.prefix_or_prefix_of_prefix h (List.prefix_append s (p ++ t)) with hshort | ⟨x, hx⟩
  · exact hshort
  · subst hx
    -- What is left of it would begin with the dollar sign of the other one.
    cases x with
    | nil => simp
    | cons c x =>
        have hleft := (List.prefix_append_right_inj s).mp h
        obtain ⟨rest, rfl, _⟩ := hp.exists_dollar
        obtain ⟨rfl, _⟩ := List.cons_prefix_cons.mp hleft
        exact absurd List.mem_cons_self (hq.dollar_notMem rfl hs)

/-- Of two different placeholders one that stands behind or across the end of the other stands
behind it. -/
theorem infix_of_infix_append (hp : IsPlaceholder p) (hq : IsPlaceholder q) (hne : q ≠ p)
    (h : q <:+: p ++ t) : q <:+: t := by
  obtain ⟨x, y, hxy⟩ := h
  rw [List.append_assoc] at hxy
  cases x with
  | nil =>
      have hpre : q <+: p ++ t := ⟨y, hxy⟩
      rcases List.prefix_or_prefix_of_prefix hpre (List.prefix_append p t) with hqp | hpq
      · exact absurd (hp.eq_of_isPrefix hq hqp) hne
      · exact absurd (hq.eq_of_isPrefix hp hpq).symm hne
  | cons c x =>
      rcases List.append_eq_append_iff.mp hxy with ⟨z, hz, hrest⟩ | ⟨z, _, hz⟩
      · cases z with
        | nil => exact ⟨[], y, by simpa using hrest⟩
        | cons d z =>
            obtain ⟨rest, rfl, _⟩ := hq.exists_dollar
            obtain ⟨rfl, _⟩ := List.cons.inj hrest
            exact absurd List.mem_cons_self (hp.dollar_notMem hz (List.cons_ne_nil c x))
      · exact ⟨z, y, by rw [hz, List.append_assoc]⟩

theorem eq_of_isInfix (hp : IsPlaceholder p) (hq : IsPlaceholder q) (h : q <:+: p) : q = p := by
  by_contra hne
  have hnil := hp.infix_of_infix_append hq hne (t := []) (by rwa [List.append_nil])
  exact hq.ne_nil (List.infix_nil.mp hnil)

theorem substituteFrom_append_of_dollar_notMem (hp : IsPlaceholder p) (hs : '$' ∉ s)
    (r t : List Char) :
    substituteFrom p r 0 (s ++ t) = s ++ substituteFrom p r 0 t := by
  induction s with
  | nil => rfl
  | cons c s ih =>
      obtain ⟨rest, rfl, _⟩ := hp.exists_dollar
      have hnot : ¬ '$' :: rest <+: c :: (s ++ t) := by
        intro hpre
        obtain ⟨rfl, _⟩ := List.cons_prefix_cons.mp hpre
        exact hs List.mem_cons_self
      rw [List.cons_append, substituteFrom_cons hnot,
        ih fun hmem => hs (List.mem_cons_of_mem c hmem), List.cons_append]

/-- A substitution for one placeholder leaves every other one in place. -/
theorem infix_substituteFrom (hp : IsPlaceholder p) (hq : IsPlaceholder q) (hne : q ≠ p)
    (r : List Char) (h : q <:+: s) : q <:+: substituteFrom p r 0 s := by
  induction s using reading_induction hp.ne_nil with
  | nil => exact absurd (List.infix_nil.mp h) hq.ne_nil
  | occurrence t ih =>
      rw [substituteFrom_append hp.ne_nil]
      exact (ih (hp.infix_of_infix_append hq hne h)).trans (List.suffix_append r _).isInfix
  | other c t hnot ih =>
      rw [substituteFrom_cons hnot]
      rcases List.infix_cons_iff.mp h with hhere | hlater
      · obtain ⟨rest, rfl, hrest⟩ := hq.exists_dollar
        obtain ⟨rfl, u, rfl⟩ := List.cons_prefix_cons.mp hhere
        rw [hp.substituteFrom_append_of_dollar_notMem hrest]
        exact (List.prefix_append ('$' :: rest) _).isInfix
      · exact (ih hlater).trans (List.suffix_cons c _).isInfix

theorem substituteFrom_of_first (hp : IsPlaceholder p) (hs : ¬ p <:+: s) (r t : List Char) :
    substituteFrom p r 0 (s ++ (p ++ t)) = s ++ (r ++ substituteFrom p r 0 t) := by
  induction s with
  | nil => exact substituteFrom_append hp.ne_nil r t
  | cons c s ih =>
      have hnot : ¬ p <+: c :: (s ++ (p ++ t)) := fun hpre =>
        hs (hp.prefix_of_prefix_append hp (List.cons_ne_nil c s) hpre).isInfix
      rw [List.cons_append, substituteFrom_cons hnot,
        ih fun hin => hs (hin.trans (List.suffix_cons c s).isInfix), List.cons_append]

theorem not_infix_of_proper (hp : IsPlaceholder p) (hq : IsPlaceholder q) (hs : s <+: p)
    (hne : s ≠ p) : ¬ q <:+: s := by
  intro hin
  have heq := hp.eq_of_isInfix hq (hin.trans hs.isInfix)
  exact hne (hs.eq_of_length_le (heq ▸ hin.length_le))

theorem not_infix_between {m : List Char} (hp : IsPlaceholder p) (hq : IsPlaceholder q)
    (hm : IsPlaceholder m) (hs : s <+: m) (hne : s ≠ m) (ht : '$' ∉ t) (hqp : q ≠ p) :
    ¬ q <:+: s ++ (p ++ t) := by
  have hbefore : ¬ q <:+: s := hm.not_infix_of_proper hq hs hne
  have hbehind : ¬ q <:+: p ++ t := fun hin =>
    ht ((hp.infix_of_infix_append hq hqp hin).subset hq.dollar_mem)
  intro h
  rcases List.infix_append_iff.mp h with hin | hin | ⟨x, y, rfl, hx, hy⟩
  · exact hbefore hin
  · exact hbehind hin
  · by_cases hnil : x = []
    · subst hnil
      exact hbehind hy.isInfix
    · have hpre := (List.prefix_append_right_inj x).mpr hy
      have hshort := hp.prefix_of_prefix_append hq hnil hpre
      exact hbefore (hshort.isInfix.trans hx.isInfix)

/-- What can complete a placeholder does so between a beginning of it and a text without dollar
signs. -/
theorem exists_between {m : List Char} (hm : IsPlaceholder m) (h : Completes m r) :
    ∃ a b, a <+: m ∧ a ≠ m ∧ '$' ∉ b ∧ m <:+: a ++ (r ++ b) := by
  cases h with
  | inside a b ha hb heq =>
      refine ⟨a, b, ⟨_, heq.symm⟩, fun hall => hb ?_, ?_, heq ▸ List.infix_rfl⟩
      · exact (List.append_eq_nil_iff.mp (List.self_eq_append_right.mp (hall.trans heq))).2
      · rw [← List.append_assoc] at heq
        exact hm.dollar_notMem heq (List.append_ne_nil_of_left_ne_nil ha r)
  | atStart a x rest ha hx heq hr =>
      refine ⟨a, [], ⟨_, heq.symm⟩, fun hall => hx ?_, List.not_mem_nil, ?_⟩
      · exact List.self_eq_append_right.mp (hall.trans heq)
      · rw [hr, List.append_nil, ← List.append_assoc, ← heq]
        exact (List.prefix_append m rest).isInfix
  | atEnd rest x b hx hb heq hr =>
      refine ⟨[], b, List.nil_prefix, hm.ne_nil.symm, hm.dollar_notMem heq hx, ?_⟩
      rw [hr, List.nil_append, List.append_assoc, ← heq]
      exact (List.suffix_append rest m).isInfix

/-- A replacement that begins with a character foreign to a placeholder and holds no beginning of
one completes it only with a dollar sign at its end. -/
theorem completes_iff (hp : IsPlaceholder p) {c : Char} (hc : c ∉ p)
    (hmark : ¬ ['$', '\x7b'] <:+: c :: r) : Completes p (c :: r) ↔ ['$'] <:+ c :: r := by
  constructor
  · intro h
    cases h with
    | inside a b _ _ heq =>
        refine absurd ?_ hc
        rw [heq]
        exact List.mem_append_right a (List.mem_append_left b List.mem_cons_self)
    | atStart a x rest _ hx heq hr =>
        obtain ⟨d, x, rfl⟩ := List.exists_cons_of_ne_nil hx
        obtain ⟨rfl, _⟩ := List.cons.inj hr
        exact absurd (heq ▸ List.mem_append_right a List.mem_cons_self) hc
    | atEnd rest x b hx _ heq hr =>
        obtain ⟨name, hname, _⟩ := hp
        rw [heq] at hname
        -- A longer end would hold the dollar sign and the brace.
        match x, hx, hname, hr with
        | [d], _, hname, hr =>
            obtain ⟨rfl, _⟩ := List.cons.inj hname
            exact ⟨rest, hr.symm⟩
        | d :: e :: x, _, hname, hr =>
            obtain ⟨rfl, htail⟩ := List.cons.inj hname
            obtain ⟨rfl, _⟩ := List.cons.inj htail
            exact absurd ⟨rest, x, by rw [hr]; simp⟩ hmark
  · rintro ⟨rest, hrest⟩
    obtain ⟨name, rfl, _⟩ := hp
    exact .atEnd rest ['$'] _ (List.cons_ne_nil _ _) (List.cons_ne_nil _ _) rfl hrest.symm

end IsPlaceholder

/-! ## One substitution after the other -/

def substituteAll (fillings : List (List Char × List Char)) (s : List Char) : List Char :=
  fillings.foldl (fun s x => substituteFrom x.1 x.2 0 s) s

/-- Different placeholders, each with a replacement that holds none of them. -/
structure IsFilling (fillings : List (List Char × List Char)) : Prop where
  placeholder : ∀ x ∈ fillings, IsPlaceholder x.1
  nodup : (fillings.map Prod.fst).Nodup
  settled : ∀ x ∈ fillings, ∀ y ∈ fillings, ¬ y.1 <:+: x.2

theorem IsFilling.of_append {before after : List (List Char × List Char)}
    (h : IsFilling (before ++ after)) : IsFilling before where
  placeholder x hx := h.placeholder x (List.mem_append_left after hx)
  nodup := by
    have hnodup := h.nodup
    rw [List.map_append, List.nodup_append] at hnodup
    exact hnodup.1
  settled x hx y hy :=
    h.settled x (List.mem_append_left after hx) y (List.mem_append_left after hy)

/-- No replacement can complete a placeholder that was to be filled in with it or before it. -/
def Inert (fillings : List (List Char × List Char)) : Prop :=
  ∀ before x after, fillings = before ++ x :: after → ∀ y ∈ before ++ [x], ¬ Completes y.1 x.2

theorem Inert.self {fillings : List (List Char × List Char)} (h : Inert fillings)
    {x : List Char × List Char} (hx : x ∈ fillings) : ¬ Completes x.1 x.2 := by
  obtain ⟨before, after, heq⟩ := List.append_of_mem hx
  exact h before x after heq x (List.mem_append_right before List.mem_cons_self)

theorem Inert.of_forall {fillings : List (List Char × List Char)}
    (h : ∀ x ∈ fillings, ∀ y ∈ fillings, ¬ Completes y.1 x.2) : Inert fillings := by
  rintro before x after rfl y hy
  have hx : x ∈ before ++ x :: after := List.mem_append_right before List.mem_cons_self
  refine h x hx y ?_
  rcases List.mem_append.mp hy with hy | hy
  · exact List.mem_append_left _ hy
  · rwa [List.mem_singleton.mp hy]

section SubstituteAll

variable {fillings : List (List Char × List Char)}

theorem substituteAll_cons (x : List Char × List Char) (rest : List (List Char × List Char))
    (s : List Char) : substituteAll (x :: rest) s =
      substituteAll rest (substituteFrom x.1 x.2 0 s) := rfl

theorem substituteAll_append (before after : List (List Char × List Char)) (s : List Char) :
    substituteAll (before ++ after) s = substituteAll after (substituteAll before s) := by
  rw [substituteAll, List.foldl_append]
  rfl

theorem substituteAll_of_absent (h : ∀ x ∈ fillings, ¬ x.1 <:+: s) :
    substituteAll fillings s = s := by
  induction fillings with
  | nil => rfl
  | cons x rest ih =>
      rw [substituteAll_cons, substituteFrom_of_absent (h x List.mem_cons_self)]
      exact ih fun y hy => h y (List.mem_cons_of_mem x hy)

theorem IsFilling.substituteAll_mark (h : IsFilling fillings) {x : List Char × List Char}
    (hx : x ∈ fillings) : substituteAll fillings x.1 = x.2 := by
  obtain ⟨before, after, rfl⟩ := List.append_of_mem hx
  have hmark := h.placeholder x hx
  have hnodup := h.nodup
  rw [List.map_append, List.map_cons, List.nodup_append] at hnodup
  have hbefore : substituteAll before x.1 = x.1 := by
    refine substituteAll_of_absent fun y hy hin => ?_
    have heq := hmark.eq_of_isInfix (h.placeholder y (List.mem_append_left _ hy)) hin
    exact hnodup.2.2 _ (List.mem_map_of_mem hy) _ List.mem_cons_self heq
  have hhere : substituteFrom x.1 x.2 0 x.1 = x.2 := by
    have happend := substituteFrom_append hmark.ne_nil x.2 []
    rwa [List.append_nil, substituteFrom_nil, List.append_nil] at happend
  rw [substituteAll_append, substituteAll_cons, hbefore, hhere]
  exact substituteAll_of_absent fun y hy =>
    h.settled x hx y (List.mem_append_right _ (List.mem_cons_of_mem x hy))

theorem infix_substituteAll (hq : IsPlaceholder q)
    (hfillings : ∀ x ∈ fillings, IsPlaceholder x.1 ∧ q ≠ x.1) (h : q <:+: s) :
    q <:+: substituteAll fillings s := by
  induction fillings generalizing s with
  | nil => exact h
  | cons x rest ih =>
      obtain ⟨hx, hne⟩ := hfillings x List.mem_cons_self
      exact ih (fun y hy => hfillings y (List.mem_cons_of_mem x hy))
        (hx.infix_substituteFrom hq hne x.2 h)

/-- Placeholders are filled in for good if no replacement can complete one anew. -/
theorem IsFilling.not_infix_substituteAll (h : IsFilling fillings) (hinert : Inert fillings) :
    ∀ y ∈ fillings, ¬ y.1 <:+: substituteAll fillings s := by
  induction fillings using List.reverseRecOn with
  | nil => exact fun y hy => absurd hy List.not_mem_nil
  | append_singleton init x ih =>
      have hlast : x ∈ init ++ [x] := List.mem_append_right init List.mem_cons_self
      have hih := ih h.of_append
        (fun before y after heq => hinert before y (after ++ [x]) (by rw [heq]; simp))
      intro y hy hin
      rw [substituteAll_append] at hin
      rcases infix_substituteFrom (h.placeholder x hlast).ne_nil (h.placeholder y hy).ne_nil
        hin with
        ⟨hold, hne⟩ | hreplacement | hcompletes
      · rcases List.mem_append.mp hy with hy | hy
        · exact hih y hy hold
        · exact hne (by rw [List.mem_singleton.mp hy])
      · exact h.settled x hlast y hy hreplacement
      · exact hinert init x [] rfl y hy hcompletes

/-- A replacement that can complete a placeholder filled in with it or before it does so in some
text. -/
theorem IsFilling.exists_infix_substituteAll (h : IsFilling fillings) (hnot : ¬ Inert fillings) :
    ∃ s, ∃ y ∈ fillings, y.1 <:+: substituteAll fillings s := by
  simp only [Inert, not_forall, not_not] at hnot
  obtain ⟨before, x, after, rfl, y, hy, hcompletes⟩ := hnot
  have hbefore : ∀ {z}, z ∈ before → z ∈ before ++ x :: after := List.mem_append_left _
  have hx : IsPlaceholder x.1 := h.placeholder x (List.mem_append_right before List.mem_cons_self)
  have hy' : y ∈ before ++ x :: after := by
    rcases List.mem_append.mp hy with hy | hy
    · exact hbefore hy
    · rw [List.mem_singleton.mp hy]
      exact List.mem_append_right before List.mem_cons_self
  have hplaceholder := h.placeholder y hy'
  obtain ⟨a, b, ha, hne, hb, hstands⟩ := hplaceholder.exists_between hcompletes
  have hnodup := h.nodup
  rw [List.map_append, List.map_cons, List.nodup_append, List.nodup_cons] at hnodup
  obtain ⟨_, ⟨hxafter, _⟩, hdisjoint⟩ := hnodup
  have hfirst : substituteAll before (a ++ (x.1 ++ b)) = a ++ (x.1 ++ b) := by
    refine substituteAll_of_absent fun z hz => ?_
    refine hx.not_infix_between (h.placeholder z (hbefore hz)) hplaceholder ha hne hb ?_
    exact hdisjoint _ (List.mem_map_of_mem hz) _ List.mem_cons_self
  have hhere : substituteFrom x.1 x.2 0 (a ++ (x.1 ++ b)) = a ++ (x.2 ++ b) := by
    rw [hx.substituteFrom_of_first (hplaceholder.not_infix_of_proper hx ha hne),
      substituteFrom_of_absent fun hin => hb (hin.subset hx.dollar_mem)]
  refine ⟨a ++ (x.1 ++ b), y, hy', ?_⟩
  have hall : substituteAll (before ++ x :: after) (a ++ (x.1 ++ b)) =
      substituteAll after (a ++ (x.2 ++ b)) := by
    rw [substituteAll_append, substituteAll_cons, hfirst, hhere]
  rw [hall]
  refine infix_substituteAll hplaceholder (fun z hz => ⟨?_, ?_⟩) hstands
  · exact h.placeholder z (List.mem_append_right before (List.mem_cons_of_mem x hz))
  · rcases List.mem_append.mp hy with hy | hy
    · exact hdisjoint _ (List.mem_map_of_mem hy) _
        (List.mem_cons_of_mem _ (List.mem_map_of_mem hz))
    · rw [List.mem_singleton.mp hy]
      exact fun heq => hxafter (heq ▸ List.mem_map_of_mem hz)

end SubstituteAll

end Deglobal.Text
