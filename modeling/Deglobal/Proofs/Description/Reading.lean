import Deglobal.Proofs.Description.Values
import Deglobal.Toolchain.Load

/-! # Reading written descriptions

A description can be written as an object of some of its fields, in any order and
with other fields between them, or as an array of its first fields. It is read as
the fields that were written, with all others at their defaults. A field that is
given again ends the reading, whatever stands behind it.
-/

namespace Deglobal

namespace Description

open Json

/-! ## What is written -/

/-- Some fields of a description, in an order, with unknown fields before, between and after them:
the names of all of these and the texts of their values. -/
inductive Entries (v : Description) : List Field → List (String × List Char) → Prop where
  | nil : Entries v [] []
  | field {f : Field} {fields : List Field} {value : List Char} {es : List (String × List Char)}
      (h : f.kind.Writes (v.get f) value) (hrest : Entries v fields es) :
      Entries v (f :: fields) ((f.key, value) :: es)
  | unknown {name : String} {fields : List Field} {value : List Char}
      {es : List (String × List Char)} (hname : ∀ f : Field, name ≠ f.key) (h : IsValue value)
      (hrest : Entries v fields es) : Entries v fields ((name, value) :: es)

/-- A description with some fields taken over from `v`. -/
def adopt (v : Description) (fields : List Field) (d : Description) : Description :=
  fields.foldl (fun d f => d.set f (v.get f)) d

/-- Some fields of `v`, with all others at their defaults. -/
def only (v : Description) (fields : List Field) : Description := v.adopt fields {}

variable {v d : Description} {fields fields' seen : List Field} {f : Field}

@[simp] theorem adopt_nil : v.adopt [] d = d := rfl

@[simp] theorem adopt_cons : v.adopt (f :: fields) d = v.adopt fields (d.set f (v.get f)) := rfl

theorem adopt_append : v.adopt (fields ++ fields') d = v.adopt fields' (v.adopt fields d) :=
  List.foldl_append

theorem get_adopt {g : Field} :
    (v.adopt fields d).get g = if g ∈ fields then v.get g else d.get g := by
  induction fields generalizing d with
  | nil => simp
  | cons f fields ih =>
      rw [adopt_cons, ih]
      by_cases hg : g = f
      · subst hg
        simp
      · simp [hg, get_set_of_ne d (v.get f) hg]

theorem get_only {g : Field} :
    (v.only fields).get g = if g ∈ fields then v.get g else ({} : Description).get g :=
  get_adopt

theorem only_congr (h : fields.Perm fields') : v.only fields = v.only fields' := by
  refine ext_get fun f => ?_
  rw [get_only, get_only]
  simp only [h.mem_iff]

/-! ## One member -/

section

variable {key value g g' rest tail : List Char} {name : String}

theorem readMember_field (hkey : Quoted f.key ('"' :: key)) (hg : IsGap g) (hg' : IsGap g')
    (hvalue : f.kind.Writes (v.get f) value) (hf : f ∉ seen) :
    readMember seen d (key ++ (g ++ ':' :: (g' ++ (value ++ rest)))) =
      .ok (f :: seen, d.set f (v.get f), rest) := by
  obtain ⟨hkey⟩ := hkey
  simp [readMember, hkey.read, Field.ofKey?_key, hf, hg.skipSpace, skipSpace_cons,
    readKind_of_writes hvalue hg', bind, Except.bind, pure, Except.pure]

theorem readMember_unknown (hkey : Quoted name ('"' :: key)) (hg : IsGap g) (hg' : IsGap g')
    (hname : ∀ f : Field, name ≠ f.key) (hvalue : IsValue value) (hrest : Ends rest) :
    readMember seen d (key ++ (g ++ ':' :: (g' ++ (value ++ rest)))) = .ok (seen, d, rest) := by
  have hunknown : Field.ofKey? name = none :=
    List.find?_eq_none.mpr fun f _ => by simpa using (hname f).symm
  obtain ⟨hkey⟩ := hkey
  simp [readMember, hkey.read, hunknown, hg.skipSpace, skipSpace_cons, hvalue.skip hg' hrest,
    bind, Except.bind, pure, Except.pure]

theorem readMember_repeated (hkey : Quoted f.key ('"' :: key)) (hf : f ∈ seen) :
    readMember seen d (key ++ tail) = .error .mistyped := by
  obtain ⟨hkey⟩ := hkey
  simp [readMember, hkey.read, Field.ofKey?_key, hf, bind, Except.bind, throw, throwThe,
    MonadExceptOf.throw]

theorem Entries.exists_readMember {e : String × List Char} {es : List (String × List Char)}
    {m : List Char} (h : Entries v fields (e :: es)) (hm : IsMember Quoted e m)
    (hseen : ∀ f ∈ fields, f ∉ seen) (hrest : Ends rest) :
    ∃ taken left tail, fields = taken ++ left ∧ Entries v left es ∧ m = '"' :: tail ∧
      readMember seen d (tail ++ rest) = .ok (taken ++ seen, v.adopt taken d, rest) := by
  cases h with
  | @field f left value _ hvalue hleft =>
      obtain ⟨hkey, hg, hg'⟩ := hm
      obtain ⟨tail, rfl⟩ := hkey.exists_cons
      have hread : readMember seen d (tail ++ (_ ++ ':' :: (_ ++ (value ++ rest)))) = _ :=
        readMember_field hkey hg hg' hvalue (hseen f List.mem_cons_self)
      exact ⟨[f], left, _, rfl, hleft, rfl, by simpa using hread⟩
  | @unknown _ _ value _ hname hvalue hleft =>
      obtain ⟨hkey, hg, hg'⟩ := hm
      obtain ⟨tail, rfl⟩ := hkey.exists_cons
      have hread : readMember seen d (tail ++ (_ ++ ':' :: (_ ++ (value ++ rest)))) = _ :=
        readMember_unknown hkey hg hg' hname hvalue hrest
      exact ⟨[], fields, _, rfl, hleft, rfl, by simpa using hread⟩

end

/-! ## Members in a row -/

section

variable {n : Nat} {cs g g' rest : List Char} {after : List (String × List Char)}

theorem readMoreMembers_close (hg : IsGap g) :
    readMoreMembers (n + 1) seen d (g ++ '}' :: rest) = .ok (d, rest) := by
  simp [readMoreMembers, hg.skipSpace, skipSpace_cons]

theorem readMoreMembers_comma (hg : IsGap g) (hg' : IsGap g') :
    readMoreMembers (n + 1) seen d (g ++ ',' :: (g' ++ '"' :: cs)) =
      readMember seen d cs >>= fun p => readMoreMembers n p.1 p.2.1 p.2.2 := by
  simp [readMoreMembers, hg.skipSpace, hg'.skipSpace, skipSpace_cons]

theorem readObject_close (hg : IsGap g) : readObject (g ++ '}' :: rest) = .ok ({}, rest) := by
  simp [readObject, hg.skipSpace, skipSpace_cons]

theorem readObject_member (hg : IsGap g) :
    readObject (g ++ '"' :: cs) =
      readMember [] {} cs >>= fun p => readMoreMembers (p.2.2.length + 1) p.1 p.2.1 p.2.2 := by
  simp [readObject, hg.skipSpace, skipSpace_cons]

/-- What is read goes on with the entries `after`, with some fields read and known already. -/
def GoesOn (known : List Field) (d : Description) (after : List (String × List Char))
    (rest : List Char) (result : Except Fault (Description × List Char)) : Prop :=
  ∃ n seen cs, known ⊆ seen ∧ More '}' (IsMember Quoted) after cs ∧ cs.length ≤ n ∧
    result = readMoreMembers n seen d (cs ++ rest)

theorem GoesOn.mono {known known' : List Field} {result : Except Fault (Description × List Char)}
    (h : GoesOn known d after rest result) (hknown : known' ⊆ known) :
    GoesOn known' d after rest result := by
  obtain ⟨n, seen, cs, hseen, h⟩ := h
  exact ⟨n, seen, cs, List.Subset.trans hknown hseen, h⟩

theorem GoesOn.eq_ok {result : Except Fault (Description × List Char)}
    (h : GoesOn fields d [] rest result) : result = .ok (d, rest) := by
  obtain ⟨n, seen, cs, _, hmore, hn, rfl⟩ := h
  obtain ⟨n, rfl⟩ := hmore.exists_succ hn
  obtain ⟨hg⟩ := hmore
  rw [List.append_assoc]
  exact readMoreMembers_close hg

theorem GoesOn.eq_error {value : List Char} {result : Except Fault (Description × List Char)}
    (h : GoesOn fields d ((f.key, value) :: after) rest result) (hf : f ∈ fields) :
    result = .error .mistyped := by
  obtain ⟨n, seen, cs, hseen, hmore, hn, rfl⟩ := h
  obtain ⟨n, rfl⟩ := hmore.exists_succ hn
  cases hmore with
  | next hg hg' hm hmore =>
      obtain ⟨hkey, _, _⟩ := hm
      obtain ⟨tail, rfl⟩ := hkey.exists_cons
      simp only [List.append_assoc, List.cons_append]
      rw [readMoreMembers_comma hg hg', readMember_repeated hkey (hseen hf)]
      rfl

theorem fresh_of_append {taken left : List Field} (hfields : (taken ++ left).Nodup)
    (hseen : ∀ f ∈ taken ++ left, f ∉ seen) :
    left.Nodup ∧ ∀ f ∈ left, f ∉ taken ++ seen := by
  obtain ⟨_, hleft, hapart⟩ := List.nodup_append.mp hfields
  refine ⟨hleft, fun f hf hmem => ?_⟩
  rcases List.mem_append.mp hmem with htaken | hold
  · exact hapart f htaken f hf rfl
  · exact hseen f (List.mem_append_right _ hf) hold

theorem Entries.goesOn {es : List (String × List Char)} (h : Entries v fields es)
    (hmore : More '}' (IsMember Quoted) (es ++ after) cs) (hfields : fields.Nodup)
    (hseen : ∀ f ∈ fields, f ∉ seen) (hn : cs.length ≤ n) :
    GoesOn (fields ++ seen) (v.adopt fields d) after rest
      (readMoreMembers n seen d (cs ++ rest)) := by
  induction es generalizing fields seen d cs n with
  | nil =>
      cases h
      exact ⟨n, seen, cs, List.Subset.refl _, hmore, hn, rfl⟩
  | cons e es ih =>
      obtain ⟨n, rfl⟩ := hmore.exists_succ hn
      cases hmore with
      | next hg hg' hm hmore =>
          obtain ⟨taken, left, tail, rfl, hleft, rfl, hread⟩ :=
            h.exists_readMember hm hseen (hmore.ends (by simp))
          obtain ⟨hleftFields, hleftSeen⟩ := fresh_of_append hfields hseen
          simp only [List.length_append, List.length_cons] at hn
          simp only [List.append_assoc, List.cons_append]
          rw [readMoreMembers_comma hg hg', hread, adopt_append]
          refine (ih hleft hmore hleftFields hleftSeen (by omega)).mono ?_
          intro f
          simp only [List.mem_append]
          tauto

/-- The first member has no comma before it, and otherwise an object is read as its members are. -/
theorem Entries.goesOn_object {e : String × List Char} {es : List (String × List Char)}
    (h : Entries v fields (e :: es)) (hfields : fields.Nodup)
    (hopened : Opened '}' (IsMember Quoted) (e :: es ++ after) cs) :
    GoesOn fields (v.only fields) after rest (readObject (cs ++ rest)) := by
  cases hopened with
  | items hg hm hmore =>
      have hseen : ∀ f ∈ fields, f ∉ ([] : List Field) := fun f _ => List.not_mem_nil
      obtain ⟨taken, left, tail, rfl, hleft, rfl, hread⟩ :=
        h.exists_readMember hm hseen (hmore.ends (by simp))
      obtain ⟨hleftFields, hleftSeen⟩ := fresh_of_append hfields hseen
      simp only [List.append_assoc, List.cons_append]
      rw [readObject_member hg, hread, only, adopt_append]
      refine (hleft.goesOn hmore hleftFields hleftSeen (by simp; omega)).mono ?_
      intro f
      simp only [List.mem_append, List.not_mem_nil, or_false]
      tauto

end

/-! ## Elements in a row -/

section

variable {cs g rest : List Char} {others : List Field} {first : Bool}

theorem readElements_close (hg : IsGap g) :
    readElements first fields d (g ++ ']' :: rest) = .ok (d, rest) := by
  cases fields <;> simp [readElements, hg.skipSpace, skipSpace_cons, pure, Except.pure]

theorem readElements_first (hg : IsGap g) (h : f.kind.Writes (v.get f) cs) :
    readElements true (f :: fields) d (g ++ (cs ++ rest)) =
      readElements false fields (d.set f (v.get f)) rest := by
  obtain ⟨c, tail, rfl, hc, hread⟩ := exists_readKind h
  rcases hc with rfl | rfl | rfl | rfl <;>
    simp [readElements, hg.skipSpace, skipSpace_cons, hread, bind, Except.bind, pure, Except.pure]

theorem readElements_comma {g' : List Char} (hg : IsGap g) (hg' : IsGap g')
    (h : f.kind.Writes (v.get f) cs) :
    readElements false (f :: fields) d (g ++ ',' :: (g' ++ (cs ++ rest))) =
      readElements false fields (d.set f (v.get f)) rest := by
  obtain ⟨c, tail, rfl, hc, hread⟩ := exists_readKind h
  rcases hc with rfl | rfl | rfl | rfl <;>
    simp [readElements, hg.skipSpace, hg'.skipSpace, skipSpace_cons, hread, bind, Except.bind, pure,
      Except.pure]

theorem readElements_of_more (h : More ']' (fun f => f.kind.Writes (v.get f)) fields cs) :
    readElements false (fields ++ others) d (cs ++ rest) = .ok (v.adopt fields d, rest) := by
  induction fields generalizing cs d with
  | nil =>
      obtain ⟨hg⟩ := h
      rw [List.append_assoc]
      exact readElements_close hg
  | cons f fields ih =>
      cases h with
      | next hg hg' hf hmore =>
          simp only [List.append_assoc, List.cons_append]
          rw [readElements_comma hg hg' hf, ih hmore, adopt_cons]

/-- The elements of an array are read as the first fields. -/
theorem readElements_of_opened (h : Opened ']' (fun f => f.kind.Writes (v.get f)) fields cs) :
    readElements true (fields ++ others) {} (cs ++ rest) = .ok (v.only fields, rest) := by
  cases h with
  | empty hg =>
      rw [List.append_assoc]
      exact readElements_close hg
  | items hg hf hmore =>
      simp only [List.append_assoc, List.cons_append]
      rw [readElements_first hg hf, readElements_of_more hmore]
      rfl

end

/-! ## Whole texts -/

section

variable {g g' cs text : List Char} {es after : List (String × List Char)}

theorem ofChars_of_readObject (hg : IsGap g) (h : readObject cs = .ok (d, g')) (hg' : IsGap g') :
    ofChars (g ++ '{' :: cs) = .ok d := by
  simp [ofChars, hg.skipSpace, skipSpace_cons, h, hg'.skipSpace_eq_nil, bind, Except.bind, pure,
    Except.pure]

theorem ofChars_of_readObject_error {fault : Fault} (hg : IsGap g)
    (h : readObject cs = .error fault) : ofChars (g ++ '{' :: cs) = .error fault := by
  simp [ofChars, hg.skipSpace, skipSpace_cons, h, bind, Except.bind]

theorem ofChars_of_readElements (hg : IsGap g)
    (h : readElements true Field.all {} cs = .ok (d, g')) (hg' : IsGap g') :
    ofChars (g ++ '[' :: cs) = .ok d := by
  simp [ofChars, hg.skipSpace, skipSpace_cons, h, hg'.skipSpace_eq_nil, bind, Except.bind, pure,
    Except.pure]

theorem ofChars_of_object (h : Entries v fields es) (hfields : fields.Nodup)
    (htext : Padded (IsObject Quoted es) text) : ofChars text = .ok (v.only fields) := by
  obtain ⟨hbefore, hobject, hafter⟩ := htext
  obtain ⟨hopened⟩ := hobject
  rw [List.cons_append]
  refine ofChars_of_readObject hbefore ?_ hafter
  cases es with
  | nil =>
      cases h
      obtain ⟨hg⟩ := hopened
      rw [List.append_assoc]
      exact readObject_close hg
  | cons e es => exact (h.goesOn_object hfields (by simpa using hopened)).eq_ok

theorem ofChars_of_repeated {value : List Char} (h : Entries v fields es) (hfields : fields.Nodup)
    (hf : f ∈ fields) (htext : Padded (IsObject Quoted (es ++ (f.key, value) :: after)) text) :
    ofChars text = .error .mistyped := by
  obtain ⟨hbefore, hobject, hafter⟩ := htext
  obtain ⟨hopened⟩ := hobject
  rw [List.cons_append]
  refine ofChars_of_readObject_error hbefore ?_
  cases es with
  | nil =>
      cases h
      cases hf
  | cons e es => exact (h.goesOn_object hfields hopened).eq_error hf

theorem ofChars_of_array {k : Nat}
    (htext : Padded (IsArray (fun f => f.kind.Writes (v.get f)) (Field.all.take k)) text) :
    ofChars text = .ok (v.only (Field.all.take k)) := by
  obtain ⟨hbefore, harray, hafter⟩ := htext
  obtain ⟨hopened⟩ := harray
  rw [List.cons_append]
  refine ofChars_of_readElements hbefore ?_ hafter
  conv_lhs => rw [← List.take_append_drop k Field.all]
  exact readElements_of_opened hopened

end

end Description

namespace Toolchain

open Json Description

variable {m : Type → Type} [Monad m] [LawfulMonad m] {probe : Probe m} {file : Path} {text : String}

theorem readDescription_of_text (hfile : probe.readText file = pure (.ok text)) :
    readDescription probe file = pure ((ofText text).mapError (.description file)) := by
  simp only [readDescription, hfile, pure_bind]
  cases ofText text <;> rfl

/-- The description in a file has the fields that are written in an object, in whatever order and
with whatever else between them, and the others at their defaults; one with a field given again is
none; and the first fields in an array are read like these fields in an object. -/
theorem readDescription_reads_written (hfile : probe.readText file = pure (.ok text)) :
    (∀ (v : Description) (fields given : List Field) (es : List (String × List Char)),
      fields.Nodup → given.Perm fields → Entries v given es →
        Padded (IsObject Quoted es) text.toList →
          readDescription probe file = pure (.ok (v.only fields))) ∧
    (∀ (v : Description) (given : List Field) (before after : List (String × List Char))
      (f : Field) (value : List Char), given.Nodup → Entries v given before → f ∈ given →
        Padded (IsObject Quoted (before ++ (f.key, value) :: after)) text.toList →
          readDescription probe file = pure (.error (.description file .mistyped))) ∧
    ∀ (v : Description) (k : Nat),
      Padded (IsArray (fun f => f.kind.Writes (v.get f)) (Field.all.take k)) text.toList →
        readDescription probe file = pure (.ok (v.only (Field.all.take k))) := by
  rw [readDescription_of_text hfile, ofText]
  refine ⟨fun v fields given es hfields hgiven h htext => ?_,
    fun v given before after f value hgiven h hf htext => ?_, fun v k htext => ?_⟩
  · rw [ofChars_of_object h (hgiven.nodup_iff.mpr hfields) htext, only_congr hgiven]
    rfl
  · rw [ofChars_of_repeated h hgiven hf htext]
    rfl
  · rw [ofChars_of_array htext]
    rfl

/-- A key spelled with an escape, a character of two units, and before them an unknown field with
a number in it and half of such a character. -/
theorem readDescription_reads_written_sample :
    let probe (text : String) : Probe Id :=
      { lookup := fun _ => none, readText := fun _ => .ok text, isFile := fun _ => true,
        isProgram := fun _ => false, self? := none, here := ⟨"/"⟩ }
    let object := "\x7b\"x\":[-0.5e3 ,\"\\ud83D\"], \"\\u0063c\":\"\\ud83D\\ude00\"\x7d\n"
    let repeated := "\x7b\"\\u0063c\":\"\\ud83D\\ude00\",\"\\u0063c\":?\x7d"
    let array := "[ \"\\ud83D\\ude00\"]"
    readDescription (probe object) ⟨"v"⟩ = .ok { cc := "😀" } ∧
      readDescription (probe repeated) ⟨"v"⟩ = .error (.description ⟨"v"⟩ .mistyped) ∧
      readDescription (probe array) ⟨"v"⟩ = .ok { prefixDir := "😀" } := by
  intro probe object repeated array
  obtain ⟨h₀, h₃, h₆, h₈, hd, hD, he⟩ : HexDigit 0 '0' ∧ HexDigit 3 '3' ∧ HexDigit 6 '6' ∧
      HexDigit 8 '8' ∧ HexDigit 0xD 'd' ∧ HexDigit 0xD 'D' ∧ HexDigit 0xE 'e' := by
    decide
  have hletter : HexUnit 'c'.toNat ['0', '0', '6', '3'] := .mk h₀ h₀ h₆ h₃
  have hhigh : HexUnit 0xD83D ['d', '8', '3', 'D'] := .mk hd h₈ h₃ hD
  have hlow : HexUnit 0xDE00 ['d', 'e', '0', '0'] := .mk hd he h₀ h₀
  have hx : Quoted "x" _ := .mk (.cons (c := 'x') (.plain (by decide)) .nil)
  have hcc : Quoted "cc" _ :=
    .mk (.cons (c := 'c') (.unit hletter) (.cons (c := 'c') (.plain (by decide)) .nil))
  have hvalue : Quoted "😀" _ := .mk (.cons (c := '😀') (.pair (by decide) hhigh hlow) .nil)
  have hnumber : IsValue _ :=
    .negative (.mk (.inl rfl) (.present (show Text.IsDigits ['5'] from ⟨by simp, by simp⟩))
      (.present (show 'e' ∈ ['e', 'E'] by decide) (show [] ∈ [[], ['+'], ['-']] by decide)
        (show Text.IsDigits ['3'] from ⟨by simp, by simp⟩)))
  have hhalf : IsValue _ := .string (.mk (.unit hhigh .nil))
  have hvalues := List.forall_mem_cons.mpr ⟨hnumber, List.forall_mem_singleton.mpr hhalf⟩
  have hunknown := IsValue.array (.mk (.items isGap_nil rfl
    (.next (g := [' ']) (by decide) isGap_nil rfl (.close isGap_nil)))) hvalues
  have hcode : Entries { cc := "😀" } [.cc] [(Field.cc.key, _)] := .field hvalue .nil
  have hentries := hcode.unknown (show ∀ f : Field, "x" ≠ f.key from fun f => by cases f <;> decide)
    hunknown
  -- The derivations follow the texts, so that they can be compared with the literals at the end.
  have htext : ∀ {body : List Char → Prop} {cs text : List Char}, Padded body cs → cs = text →
      Padded body text := fun h heq => heq ▸ h
  have hspace : IsGap [' '] := by decide
  refine ⟨?_, ?_, ?_⟩
  · obtain ⟨hobject, _⟩ :=
      @readDescription_reads_written Id _ _ (probe object) ⟨"v"⟩ object rfl
    refine hobject _ [.cc] [.cc] _ (by decide) (.refl _) hentries (htext (.mk isGap_nil
      (.mk (.items isGap_nil (.mk hx isGap_nil isGap_nil) (.next isGap_nil hspace
        (.mk hcc isGap_nil isGap_nil) (.close isGap_nil)))) (show IsGap ['\n'] by decide)) ?_)
    decide
  · obtain ⟨_, hrepeated, _⟩ :=
      @readDescription_reads_written Id _ _ (probe repeated) ⟨"v"⟩ repeated rfl
    refine hrepeated _ [.cc] _ [] .cc ['?'] (by decide) hcode (by decide) (htext (.mk isGap_nil
      (.mk (.items isGap_nil (.mk hcc isGap_nil isGap_nil) (.next isGap_nil isGap_nil
        (.mk hcc isGap_nil isGap_nil) (.close isGap_nil)))) isGap_nil) ?_)
    decide
  · obtain ⟨_, _, harray⟩ := @readDescription_reads_written Id _ _ (probe array) ⟨"v"⟩ array rfl
    refine harray { prefixDir := "😀" } 1 (htext (.mk isGap_nil
      (.mk (.items hspace hvalue (.close isGap_nil))) isGap_nil) ?_)
    decide

end Toolchain

end Deglobal
