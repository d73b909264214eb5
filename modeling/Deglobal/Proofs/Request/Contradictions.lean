import Deglobal.Proofs.Request.Units

/-! # Contradictory command lines

Sorting fails for two reasons: the last output flag has no operand, or sources are
to become more than one object file. Both are said of the units of the command
line here, without the request that is made of them.
-/

namespace Deglobal

namespace ArgUnit

def isObject : ArgUnit → Bool
  | word a => Text.ends a ".o"
  | output _ => false

/-- Whether a unit is a source: it ends like one, and does not begin like a flag that may end in
any way. -/
def isSource : ArgUnit → Bool
  | word a => (Text.ends a ".cpp" || Text.ends a ".cc" || Text.ends a ".c") &&
      !Text.begins a "-Wl" && !Text.begins a "-O"
  | output _ => false

def lastOperand? : List ArgUnit → Option String
  | [] => none
  | word _ :: rest => lastOperand? rest
  | output operand :: rest => (lastOperand? rest).or (some operand)

/-- How many object files units name: those by themselves, and the output if it is one. -/
def objectCount (units : List ArgUnit) : Nat :=
  units.countP isObject + (lastOperand? units).toList.countP fun operand => Text.ends operand ".o"

end ArgUnit

/-- Clean arguments that contradict each other: the last output flag has no operand, or there is a
source and more than one object file is named. -/
def Contradictory (args : List String) : Prop :=
  ArgUnit.read args = none ∨
    ∃ units ∈ ArgUnit.read args, (∃ u ∈ units, u.isSource) ∧ 1 < ArgUnit.objectCount units

instance (args : List String) : Decidable (Contradictory args) :=
  inferInstanceAs (Decidable (_ ∨ _))

theorem contradictory_iff_of_read {args : List String} {units : List ArgUnit}
    (hunits : ArgUnit.read args = some units) :
    Contradictory args ↔ (∃ u ∈ units, u.isSource) ∧ 1 < ArgUnit.objectCount units := by
  simp [Contradictory, hunits]

/-! ## Objects and sources among units -/

namespace ArgUnit

variable {u : ArgUnit} {units : List ArgUnit}

theorem isObject_iff : u.isObject = true ↔ u.kind = .object := by
  cases u with
  | word a => grind [isObject, kind, ArgKind.ofArg, objectEnding]
  | output operand => simp [isObject, kind]

theorem isSource_iff : u.isSource = true ↔ u.kind = .source := by
  cases u with
  | word a =>
      have hother : ∀ e ∈ sourceEndings,
          ¬ e.toList <:+ ".o".toList ∧ ¬ ".o".toList <:+ e.toList := by decide
      have hdebug : ∀ e ∈ sourceEndings, Text.ends "-g" e = false := by decide
      have hsource : ∀ e ∈ sourceEndings, Text.ends a e = true →
          Text.ends a ".o" = false ∧ a ≠ "-g" := by
        intro e he hends
        refine ⟨Text.not_ends hends (hother e he), ?_⟩
        rintro rfl
        rw [hdebug e he] at hends
        cases hends
      simp only [sourceEndings, List.mem_cons, List.not_mem_nil, or_false] at hsource
      grind [isSource, kind, ArgKind.ofArg, objectEnding, isOptOrDebug, sourceEndings]
  | output operand => simp [isSource, kind]

theorem filter_lasting {place : ArgKind} (hverbose : place ≠ .verbose) (houtput : place ≠ .output) :
    ((lasting units).filter fun u => u.kind = place) = units.filter fun u => u.kind = place := by
  induction units with
  | nil => rfl
  | cons u rest ih =>
      rw [lasting]
      split
      · rename_i hdropped
        have hne : u.kind ≠ place := by
          rcases hdropped with rfl | ⟨hu, _⟩
          · exact hverbose.symm
          · cases u with
            | word a => cases hu
            | output operand => exact houtput.symm
        simp [hne, ih]
      · simp [List.filter_cons, ih]

end ArgUnit

namespace Request

variable {units : List ArgUnit}

theorem held_filed (hunits : .word "-o" ∉ units) {place : ArgKind} (hverbose : place ≠ .verbose)
    (houtput : place ≠ .output) :
    (units.foldl file {}).held place = units.filter fun u => u.kind = place := by
  rw [held_foldl hunits, ArgUnit.filter_lasting hverbose houtput]
  cases place <;> simp_all [held]

theorem explicitOutput_foldl (r : Request) (units : List ArgUnit) :
    (units.foldl file r).explicitOutput =
      ((ArgUnit.lastOperand? units).map Path.mk).or r.explicitOutput := by
  induction units generalizing r with
  | nil => rfl
  | cons u rest ih =>
      rw [List.foldl_cons, ih]
      cases u with
      | word a =>
          have hkept : ∀ kind, (r.add a kind).explicitOutput = r.explicitOutput := by
            intro kind
            cases kind <;> rfl
          simp [file, hkept, ArgUnit.lastOperand?]
      | output operand =>
          cases h : ArgUnit.lastOperand? rest <;> simp [file, ArgUnit.lastOperand?, h]

theorem hasSources_filed (hunits : .word "-o" ∉ units) :
    (units.foldl file {}).hasSources = true ↔ ∃ u ∈ units, u.isSource := by
  have hheld : (units.foldl file {}).held .source = units.filter fun u => u.kind = .source :=
    held_filed hunits (by decide) (by decide)
  have hsources : (units.foldl file {}).hasSources = true ↔
      (units.foldl file {}).held .source ≠ [] := by
    simp [hasSources, held]
  rw [hsources, hheld]
  simp [ArgUnit.isSource_iff, List.filter_eq_nil_iff]

theorem length_namedObjects_filed (hunits : .word "-o" ∉ units) :
    (units.foldl file {}).namedObjects.length = ArgUnit.objectCount units := by
  have hobjects : (units.foldl file {}).objects.length = units.countP ArgUnit.isObject := by
    have hheld : (units.foldl file {}).held .object = units.filter fun u => u.kind = .object :=
      held_filed hunits (by decide) (by decide)
    have hlength := congrArg List.length hheld
    simp only [held, List.length_map] at hlength
    rw [hlength, ← List.countP_eq_length_filter]
    apply List.countP_congr
    simp [ArgUnit.isObject_iff]
  have houtput : (units.foldl file {}).explicitOutput =
      (ArgUnit.lastOperand? units).map Path.mk := by
    rw [explicitOutput_foldl]
    simp
  rw [namedObjects, List.length_append, hobjects, houtput, ArgUnit.objectCount]
  cases ArgUnit.lastOperand? units with
  | none => rfl
  | some operand => cases hends : Text.ends operand ".o" <;> simp [objectEnding, hends]

end Request

/-! ## When sorting fails -/

theorem Request.checked_eq_error_iff {r : Request} :
    (∃ e, r.checked = .error e) ↔ r.hasSources = true ∧ 1 < r.namedObjects.length := by
  unfold checked
  split <;> simp_all

theorem Request.cause_of_checked {r : Request} {e : Failure} (hchecked : r.checked = .error e) :
    1 < r.namedObjects.length ∧ e = .configuration (.surplusObjects r.namedObjects) := by
  unfold checked at hchecked
  split at hchecked
  · cases hchecked
    simp_all
  · cases hchecked

/-- A command line that is no query is refused exactly if its clean arguments contradict each other.
What is refused is a configuration, for the missing operand or for the object files, of which an
accepted request with sources names one at most. -/
theorem classify_fails_iff_contradictory (args : List String) :
    ((∃ e, classify args = .error e) ↔
      args.head?.bind Query.ofArg? = none ∧ Contradictory (args.map cleanArg)) ∧
    (∀ e, classify args = .error e → e = .configuration .danglingOutput ∨
      ∃ files, 1 < files.length ∧ e = .configuration (.surplusObjects files)) ∧
    ∀ r, classify args = .ok (.build r) → r.hasSources = true →
      r.objects.length + (r.explicitOutput.toList.countP fun p => Text.ends p.text ".o") ≤ 1 := by
  cases hquery : args.head?.bind Query.ofArg? with
  | some q =>
      have hclassify : classify args = .ok (.query q) := by simp [classify, hquery]
      simp [hclassify]
  | none =>
      have hfew : ∀ r, classify args = .ok (.build r) → r.hasSources = true →
          r.objects.length + (r.explicitOutput.toList.countP fun p => Text.ends p.text ".o") ≤
            1 := by
        intro r hargs hsources
        have hnamed := Request.length_namedObjects_of_classify hargs hsources
        rwa [Request.namedObjects, List.length_append, ← List.countP_eq_length_filter] at hnamed
      rw [classify_eq_of_units hquery] at hfew ⊢
      cases hunits : ArgUnit.read (args.map cleanArg) with
      | none => simp [Contradictory, hunits]
      | some units =>
          have hword := ArgUnit.word_notMem_of_read hunits
          have herror : ∀ e, (units.foldl Request.file {}).checked.map Invocation.build =
              .error e ↔ (units.foldl Request.file {}).checked = .error e := by
            intro e
            cases (units.foldl Request.file {}).checked <;> simp [Except.map]
          rw [hunits] at hfew
          refine ⟨?_, fun e he => ?_, hfew⟩
          · simp only [contradictory_iff_of_read hunits, herror, Request.checked_eq_error_iff,
              Request.hasSources_filed hword, Request.length_namedObjects_filed hword, true_and]
          · obtain ⟨hmany, rfl⟩ := Request.cause_of_checked ((herror e).mp he)
            exact Or.inr ⟨_, hmany, rfl⟩

/-- An operand may look like an output flag or like a source, and then it is neither. Two objects
are too many for a source only if the second one is the last output. -/
theorem classify_fails_iff_contradictory_sample :
    let accepted := ["a.c", "x.o", "-o", "y.o", "-o", "-o"]
    let refused := ["-o", "a.c", "b.cc", "x.o", " -o ", "'y.o'"]
    let dangling := ["-o", "a.c", "-o"]
    ¬ Contradictory (accepted.map cleanArg) ∧
      (∃ r, classify accepted = .ok (.build r) ∧ r.hasSources = true ∧
        r.objects.length + (r.explicitOutput.toList.countP fun p => Text.ends p.text ".o") ≤ 1) ∧
      Contradictory (refused.map cleanArg) ∧ (∃ e, classify refused = .error e) ∧
      Contradictory (dangling.map cleanArg) ∧
      ∃ e, classify dangling = .error e ∧ (e = .configuration .danglingOutput ∨
        ∃ files, 1 < files.length ∧ e = .configuration (.surplusObjects files)) := by
  intro accepted refused dangling
  have hrefused : Contradictory (refused.map cleanArg) := by decide
  have hdangling : Contradictory (dangling.map cleanArg) := by decide
  have hbuild : classify accepted = .ok (.build {
      sources := [⟨"a.c"⟩], objects := [⟨"x.o"⟩], explicitOutput := some ⟨"-o"⟩ }) := rfl
  obtain ⟨e, he⟩ := (classify_fails_iff_contradictory dangling).1.mpr ⟨rfl, hdangling⟩
  refine ⟨by decide, ⟨_, hbuild, rfl, ?_⟩, hrefused, ?_, hdangling, e, he, ?_⟩
  · exact (classify_fails_iff_contradictory accepted).2.2 _ hbuild rfl
  · exact (classify_fails_iff_contradictory refused).1.mpr ⟨rfl, hrefused⟩
  · exact (classify_fails_iff_contradictory dangling).2.1 e he

end Deglobal
