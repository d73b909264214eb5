import Deglobal.Proofs.Failure
import Deglobal.Proofs.Request.Endings

/-! # The units of a command line

Clean arguments are read in units: an output flag with the argument after it,
whatever that looks like, and every other argument by itself. Sorting a command
line files its units one after the other, and each of them goes to one place of
the request, which the unit alone decides. A request therefore holds the units of
its command line, place by place and in their order, and units of different
places can be exchanged.
-/

namespace Deglobal

/-- The kinds of arguments that have a list, or the output, for their place in a request. -/
def ArgKind.places : List ArgKind :=
  [.source, .assembly, .object, .control, .linker, .other, .compilerFlag, .output]

/-- What clean arguments are read in. -/
inductive ArgUnit where
  | word (a : String)
  | output (operand : String)
  deriving DecidableEq, Inhabited

namespace ArgUnit

/-- The units of clean arguments; there are none if the last output flag has no operand. -/
def read : List String → Option (List ArgUnit)
  | [] => some []
  | a :: rest =>
      if a = "-o" then
        match rest with
        | [] => none
        | operand :: others => (read others).map (output operand :: ·)
      else (read rest).map (word a :: ·)

/-- The kind of a unit, which is that of its first argument. -/
def kind : ArgUnit → ArgKind
  | word a => .ofArg a
  | output _ => .output

def isOutput : ArgUnit → Bool
  | word _ => false
  | output _ => true

/-- The units that leave something in a list or an output: all but those for verbosity and the
outputs that a later one replaces. -/
def lasting : List ArgUnit → List ArgUnit
  | [] => []
  | u :: rest =>
      if u = word "--verbose" ∨ u.isOutput ∧ rest.any isOutput then lasting rest
      else u :: lasting rest

end ArgUnit

/-! ## Reading units -/

namespace ArgKind

variable {a : String}

theorem ofArg_eq_output_iff : ofArg a = .output ↔ a = "-o" := by
  refine ⟨fun h => ?_, fun h => ?_⟩
  · grind [ofArg]
  · subst h
    decide

theorem ofArg_eq_verbose_iff : ofArg a = .verbose ↔ a = "--verbose" := by
  refine ⟨fun h => ?_, fun h => ?_⟩
  · grind [ofArg]
  · subst h
    decide

end ArgKind

namespace ArgUnit

variable {xs ys : List String} {units : List ArgUnit}

theorem read_output (operand : String) (rest : List String) :
    read ("-o" :: operand :: rest) = (read rest).map (output operand :: ·) := by
  rw [read, if_pos rfl]

theorem read_word {a : String} (ha : a ≠ "-o") (rest : List String) :
    read (a :: rest) = (read rest).map (word a :: ·) := by
  rw [read.eq_def]
  simp only [if_neg ha]

theorem read_append (hxs : read xs = some units) :
    read (xs ++ ys) = (read ys).map (units ++ ·) := by
  fun_induction read xs generalizing units with
  | case1 => simp_all
  | case2 => cases hxs
  | case3 operand others ih =>
      obtain ⟨found, hfound, rfl⟩ := Option.map_eq_some_iff.mp hxs
      simp [read_output, ih hfound, Function.comp_def]
  | case4 a rest ha ih =>
      obtain ⟨found, hfound, rfl⟩ := Option.map_eq_some_iff.mp hxs
      simp [read_word ha, ih hfound, Function.comp_def]

theorem word_notMem_of_read (hxs : read xs = some units) : word "-o" ∉ units := by
  fun_induction read xs generalizing units with
  | case1 => simp_all
  | case2 => cases hxs
  | case3 operand others ih =>
      obtain ⟨found, hfound, rfl⟩ := Option.map_eq_some_iff.mp hxs
      simpa using ih hfound
  | case4 a rest ha ih =>
      obtain ⟨found, hfound, rfl⟩ := Option.map_eq_some_iff.mp hxs
      simpa [Ne.symm ha] using ih hfound

theorem kind_mem_places {u : ArgUnit} (hu : u ∈ lasting units) : u.kind ∈ ArgKind.places := by
  have hne : u ≠ word "--verbose" := by
    induction units with
    | nil => cases hu
    | cons v rest ih => grind [lasting]
  have hkind : u.kind ≠ .verbose := by
    cases u with
    | word a => simpa [kind, ArgKind.ofArg_eq_verbose_iff] using hne
    | output operand => simp [kind]
  generalize u.kind = place at hkind ⊢
  cases place <;> simp_all [ArgKind.places]

theorem isOutput_iff {u : ArgUnit} (hu : u ≠ word "-o") : u.isOutput = true ↔ u.kind = .output := by
  cases u with
  | word a => simpa [isOutput, kind, ArgKind.ofArg_eq_output_iff] using hu
  | output operand => simp [isOutput, kind]

end ArgUnit

/-- A list is a permutation of the parts that a key divides it into. -/
theorem flatMap_filter_perm {α κ : Type} [DecidableEq κ] {key : α → κ} {keys : List κ}
    (hkeys : keys.Nodup) {l : List α} (hl : ∀ x ∈ l, key x ∈ keys) :
    (keys.flatMap fun k => l.filter fun x => key x = k).Perm l := by
  induction keys generalizing l with
  | nil => simp_all [List.eq_nil_iff_forall_not_mem]
  | cons k rest ih =>
      obtain ⟨hk, hrest⟩ := List.nodup_cons.mp hkeys
      have hothers : ∀ k' ∈ rest, (l.filter fun x => key x = k') =
          (l.filter fun x => !decide (key x = k)).filter fun x => key x = k' := by
        intro k' hk'
        rw [List.filter_filter]
        apply List.filter_congr
        intro x _
        have hne : k' ≠ k := fun h => hk (h ▸ hk')
        by_cases hx : key x = k' <;> simp [hx, hne]
      rw [List.flatMap_cons, List.flatMap_congr hothers]
      refine (List.Perm.append_left _ (ih hrest ?_)).trans (List.filter_append_perm _ l)
      intro x hx
      obtain ⟨hmem, hne⟩ := List.mem_filter.mp hx
      have hkey := hl x hmem
      simp_all

/-! ## Filing units -/

namespace Request

variable {r : Request} {u v : ArgUnit}

def file (r : Request) : ArgUnit → Request
  | .word a => r.add a (.ofArg a)
  | .output operand => { r with explicitOutput := some ⟨operand⟩ }

/-- What a request holds in the place of a kind. -/
def held (r : Request) : ArgKind → List ArgUnit
  | .object => r.objects.map fun p => .word p.text
  | .linker => r.linkerArgs.map .word
  | .compilerFlag => r.givenCompilerFlags.map .word
  | .source => r.sources.map fun p => .word p.text
  | .assembly => r.assembly.map fun p => .word p.text
  | .verbose => []
  | .control => r.controlArgs.map .word
  | .output => r.explicitOutput.toList.map fun p => .output p.text
  | .other => r.givenFlags.map .word

theorem ofCleanArgs_eq (r : Request) (args : List String) :
    r.ofCleanArgs args = match ArgUnit.read args with
      | none => .error (.configuration .danglingOutput)
      | some units => .ok (units.foldl file r) := by
  fun_induction Request.ofCleanArgs r args with
  | case1 r => rfl
  | case2 r a ha =>
      obtain rfl := ArgKind.ofArg_eq_output_iff.mp ha
      rfl
  | case3 r a operand rest ha ih =>
      obtain rfl := ArgKind.ofArg_eq_output_iff.mp ha
      rw [ih, ArgUnit.read_output]
      cases ArgUnit.read rest <;> rfl
  | case4 r a rest hnil hcons ih =>
      have ha : a ≠ "-o" := by
        intro h
        have houtput := ArgKind.ofArg_eq_output_iff.mpr h
        cases rest with
        | nil => exact hnil houtput rfl
        | cons operand others => exact hcons operand others houtput rfl
      rw [ih, ArgUnit.read_word ha]
      cases ArgUnit.read rest <;> rfl

theorem held_add (r : Request) (a : String) {kind : ArgKind} (hkind : kind ≠ .output)
    (place : ArgKind) : (r.add a kind).held place = r.held place ++
      if kind = place ∧ kind ≠ .verbose then [.word a] else [] := by
  cases kind <;> cases place <;> simp_all [add, held]

/-- Filing a unit adds it to its place, where an output replaces the one that was there. -/
theorem held_file (hu : u ≠ .word "-o") (place : ArgKind) :
    (r.file u).held place = (if place = .output ∧ u.isOutput then [] else r.held place) ++
      if u.kind = place ∧ u ≠ .word "--verbose" then [u] else [] := by
  cases u with
  | word a =>
      have hkind : ArgKind.ofArg a ≠ .output := fun h =>
        hu (congrArg ArgUnit.word (ArgKind.ofArg_eq_output_iff.mp h))
      have hverbose : ArgKind.ofArg a ≠ .verbose ↔ a ≠ "--verbose" :=
        ArgKind.ofArg_eq_verbose_iff.not
      simp [file, held_add r a hkind, ArgUnit.kind, ArgUnit.isOutput, hverbose]
  | output operand => cases place <;> simp [file, held, ArgUnit.kind, ArgUnit.isOutput]

theorem held_foldl {units : List ArgUnit} (hunits : .word "-o" ∉ units) (place : ArgKind) :
    (units.foldl file r).held place =
      (if place = .output ∧ units.any ArgUnit.isOutput then [] else r.held place) ++
        (ArgUnit.lasting units).filter fun u => u.kind = place := by
  induction units generalizing r with
  | nil => simp [ArgUnit.lasting]
  | cons u rest ih =>
      obtain ⟨hu, hrest⟩ : u ≠ .word "-o" ∧ .word "-o" ∉ rest := by simpa [eq_comm] using hunits
      rw [List.foldl_cons, ih hrest, held_file hu, ArgUnit.lasting, List.any_cons]
      by_cases hverbose : u = .word "--verbose"
      · simp [hverbose, ArgUnit.isOutput]
      · have hkind := ArgUnit.isOutput_iff hu
        cases hlater : rest.any ArgUnit.isOutput with
        | false => grind
        | true =>
            -- An output that is replaced is gone from its own place and never was in another.
            by_cases hlast : place = .output
            · grind
            · grind

theorem file_comm (h : u.kind ≠ v.kind) : (r.file u).file v = (r.file v).file u := by
  cases u with
  | word a =>
      cases v with
      | word b =>
          have hkinds : ArgKind.ofArg a ≠ ArgKind.ofArg b := h
          simp only [file]
          cases hleft : ArgKind.ofArg a <;> cases hright : ArgKind.ofArg b <;>
            simp_all [add]
      | output operand =>
          simp only [file]
          cases ArgKind.ofArg a <;> rfl
  | output operand =>
      cases v with
      | word b =>
          simp only [file]
          cases ArgKind.ofArg b <;> rfl
      | output other => exact absurd rfl h

end Request

/-! ## Whole command lines -/

theorem classify_eq_of_units {args : List String} (hquery : args.head?.bind Query.ofArg? = none) :
    classify args = match ArgUnit.read (args.map cleanArg) with
      | none => .error (.configuration .danglingOutput)
      | some units => (units.foldl Request.file {}).checked.map .build := by
  unfold classify
  simp only [hquery, Request.ofCleanArgs_eq]
  cases ArgUnit.read (args.map cleanArg) with
  | none => rfl
  | some units =>
      cases hchecked : (units.foldl Request.file {}).checked <;>
        simp [bind, Except.bind, Except.map, pure, Except.pure, hchecked]

theorem no_query_of_classify {args : List String} {r : Request}
    (hargs : classify args = .ok (.build r)) : args.head?.bind Query.ofArg? = none := by
  cases hquery : args.head?.bind Query.ofArg? with
  | none => rfl
  | some q => simp [classify, hquery] at hargs

theorem exists_units_of_classify {args : List String} {r : Request}
    (hargs : classify args = .ok (.build r)) :
    ∃ units, ArgUnit.read (args.map cleanArg) = some units ∧ r = units.foldl Request.file {} := by
  have hclean := (Request.ofCleanArgs_of_classify hargs).1
  rw [Request.ofCleanArgs_eq] at hclean
  cases hunits : ArgUnit.read (args.map cleanArg) with
  | none => simp [hunits] at hclean
  | some units =>
      rw [hunits] at hclean
      exact ⟨units, rfl, (Except.ok.inj hclean).symm⟩

/-- The second command line is the first one with two adjacent units exchanged that belong in
different places. -/
def Exchanged (args args' : List String) : Prop :=
  ∃ before u v after units x y,
    args = before ++ u ++ v ++ after ∧ args' = before ++ v ++ u ++ after ∧
    ArgUnit.read (before.map cleanArg) = some units ∧
    ArgUnit.read (u.map cleanArg) = some [x] ∧ ArgUnit.read (v.map cleanArg) = some [y] ∧
    x.kind ≠ y.kind

theorem Exchanged.classify_eq {args args' : List String} (h : Exchanged args args')
    (hquery : args.head?.bind Query.ofArg? = none)
    (hquery' : args'.head?.bind Query.ofArg? = none) : classify args' = classify args := by
  obtain ⟨before, u, v, after, units, x, y, rfl, rfl, hbefore, hu, hv, hkinds⟩ := h
  rw [classify_eq_of_units hquery, classify_eq_of_units hquery']
  simp only [List.map_append, List.append_assoc, ArgUnit.read_append hbefore,
    ArgUnit.read_append hu, ArgUnit.read_append hv]
  cases ArgUnit.read (after.map cleanArg) with
  | none => rfl
  | some later => simp [Request.file_comm hkinds]

/-- A request holds the units of its command line: each of them but those for verbosity and the
outputs that a later one replaces is in one place, once and in command-line order, and there is
nothing else. Two adjacent units that belong in different places can be exchanged. -/
theorem request_holds_units {args : List String} {r : Request}
    (hargs : classify args = .ok (.build r)) :
    ∃ units, ArgUnit.read (args.map cleanArg) = some units ∧
      (ArgKind.places.flatMap r.held).Perm (ArgUnit.lasting units) ∧
      (∀ place, r.held place = (ArgUnit.lasting units).filter fun u => u.kind = place) ∧
      ∀ args', Exchanged args args' → args'.head?.bind Query.ofArg? = none →
        classify args' = .ok (.build r) := by
  obtain ⟨units, hunits, hfiled⟩ := exists_units_of_classify hargs
  have hheld : ∀ place, r.held place = (ArgUnit.lasting units).filter fun u => u.kind = place := by
    intro place
    rw [hfiled, Request.held_foldl (ArgUnit.word_notMem_of_read hunits)]
    cases place <;> simp [Request.held]
  refine ⟨units, hunits, ?_, hheld, fun args' hexchanged hquery' => ?_⟩
  · rw [List.flatMap_congr fun place _ => hheld place]
    exact flatMap_filter_perm (by decide) fun u hu => ArgUnit.kind_mem_places hu
  · rw [hexchanged.classify_eq (no_query_of_classify hargs) hquery', hargs]

/-- The operand of an output flag is never looked at, and the flag with its operand changes places
with a compiler flag. -/
theorem request_holds_units_sample :
    let args := [" 'a.c'", "-o", "-c", "--verbose", "-o", "x.o", "-O2.c", "-c"]
    let r : Request := {
      sources := [⟨"a.c"⟩], explicitOutput := some ⟨"x.o"⟩, controlArgs := ["-c"],
      givenCompilerFlags := ["-O2.c"], verbose := true }
    classify args = .ok (.build r) ∧
      (ArgKind.places.flatMap r.held).Perm
        [.word "a.c", .output "x.o", .word "-O2.c", .word "-c"] ∧
      classify [" 'a.c'", "-o", "-c", "--verbose", "-O2.c", "-o", "x.o", "-c"] =
        .ok (.build r) := by
  intro args r
  have hargs : classify args = .ok (.build r) := rfl
  obtain ⟨units, hunits, hperm, _, hexchange⟩ := request_holds_units hargs
  have hread : ArgUnit.read (args.map cleanArg) = some [.word "a.c", .output "-c",
      .word "--verbose", .output "x.o", .word "-O2.c", .word "-c"] := rfl
  obtain rfl := Option.some.inj (hread.symm.trans hunits)
  refine ⟨hargs, hperm, hexchange _ ?_ rfl⟩
  exact ⟨[" 'a.c'", "-o", "-c", "--verbose"], ["-o", "x.o"], ["-O2.c"], ["-c"], _, _, _,
    rfl, rfl, rfl, rfl, rfl, by decide⟩

end Deglobal
