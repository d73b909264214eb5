import Deglobal.Proofs.Failure
import Deglobal.Proofs.Text.Integer
import Deglobal.Toggles

/-! # Toggles and the environment

A toggle is set by a variable of its own. Each variable is read by itself, and the
first one in the order of the toggles that is set and denotes no 64-bit integer is
reported; where there is none, the environment alone decides about the toggles
whose variables are set, and the defaults about the others.
-/

namespace Deglobal

inductive Switch where
  | verbose
  | deleteTemps
  | sourceToSource
  | parallel
  deriving DecidableEq

namespace Switch

def all : List Switch := [.verbose, .deleteTemps, .sourceToSource, .parallel]

def setting : Switch → String
  | verbose => "SSTMAC_VERBOSE"
  | deleteTemps => "SSTMAC_DELETE_TEMPS"
  | sourceToSource => "SSTMAC_SRC2SRC"
  | parallel => "SSTMAC_PARALLEL"

end Switch

namespace Toggles

variable {lookup : String → Option String} {setting raw : String} {default b : Bool}
  {e : Failure} {t : Toggles}

def isOn (t : Toggles) : Switch → Bool
  | .verbose => t.verbose
  | .deleteTemps => t.deleteTemps
  | .sourceToSource => t.sourceToSource
  | .parallel => t.parallel

/-- A text denotes an integer of 64 bits. -/
def IsSetting (raw : String) : Prop :=
  ∃ i, Text.Denotes raw i ∧ -2 ^ 63 ≤ i ∧ i ≤ 2 ^ 63 - 1

/-! ## One variable -/

theorem inInt64_iff {i : Int} : Text.InInt64 i ↔ -2 ^ 63 ≤ i ∧ i ≤ 2 ^ 63 - 1 := by
  unfold Text.InInt64
  omega

theorem read_of_unset (h : lookup setting = none) : read lookup setting default = .ok default := by
  simp [read, h]

theorem read_of_denotes {i : Int} (h : lookup setting = some raw) (hi : Text.Denotes raw i)
    (hrange : -2 ^ 63 ≤ i ∧ i ≤ 2 ^ 63 - 1) : read lookup setting default = .ok (i != 0) := by
  have hread := Text.int64?_eq_some_iff.mpr ⟨hi, inInt64_iff.mpr hrange⟩
  simp [read, h, hread]

theorem read_of_not_isSetting (h : lookup setting = some raw) (hraw : ¬ IsSetting raw) :
    read lookup setting default = .error (.configuration (.toggle setting raw)) := by
  have hread : Text.int64? raw = none := by
    refine Option.eq_none_iff_forall_ne_some.mpr fun i hi => hraw ?_
    obtain ⟨hdenotes, hrange⟩ := Text.int64?_eq_some_iff.mp hi
    exact ⟨i, hdenotes, inInt64_iff.mp hrange⟩
  simp [read, h, hread]

theorem isSetting_of_read (h : read lookup setting default = .ok b)
    (hset : lookup setting = some raw) : IsSetting raw := by
  by_contra hraw
  rw [read_of_not_isSetting hset hraw] at h
  cases h

theorem toggle_of_read (h : read lookup setting default = .error e) :
    ∃ raw, lookup setting = some raw ∧ ¬ IsSetting raw ∧
      e = .configuration (.toggle setting raw) := by
  cases hset : lookup setting with
  | none =>
      rw [read_of_unset hset] at h
      cases h
  | some raw =>
      by_cases hraw : IsSetting raw
      · obtain ⟨i, hi, hrange⟩ := hraw
        rw [read_of_denotes hset hi hrange] at h
        cases h
      · rw [read_of_not_isSetting hset hraw] at h
        exact ⟨raw, rfl, hraw, by cases h; rfl⟩

/-- The default decides if nothing is set, and only then. -/
theorem read_eq_default_iff :
    (∀ default, read lookup setting default = .ok default) ↔ lookup setting = none := by
  refine ⟨fun h => ?_, fun h default => read_of_unset h⟩
  by_contra hset
  obtain ⟨raw, hraw⟩ := Option.ne_none_iff_exists'.mp hset
  obtain ⟨i, hi, hrange⟩ := isSetting_of_read (h true) hraw
  have hread := h (!(i != 0))
  rw [read_of_denotes hraw hi hrange] at hread
  cases hzero : i != 0 <;> simp [hzero] at hread

/-! ## All variables -/

theorem ofLookup_eq_ok_iff : ofLookup lookup = .ok t ↔
    ∀ s, read lookup s.setting (isOn {} s) = .ok (t.isOn s) := by
  simp only [ofLookup, Failure.bind_eq_ok]
  constructor
  · rintro ⟨_, hverbose, _, hdelete, _, hsource, _, hparallel, heq⟩ s
    cases heq
    cases s
    · exact hverbose
    · exact hdelete
    · exact hsource
    · exact hparallel
  · intro h
    exact ⟨_, h .verbose, _, h .deleteTemps, _, h .sourceToSource, _, h .parallel, rfl⟩

theorem first_of_ofLookup (h : ofLookup lookup = .error e) :
    ∃ before s after, Switch.all = before ++ s :: after ∧
      (∀ u ∈ before, ∃ b, read lookup u.setting (isOn {} u) = .ok b) ∧
      read lookup s.setting (isOn {} s) = .error e := by
  simp only [ofLookup, Failure.bind_eq_error] at h
  rcases h with h | ⟨v, hv, h | ⟨d, hd, h | ⟨s, hs, h | ⟨p, hp, h⟩⟩⟩⟩
  · exact ⟨[], .verbose, _, rfl, by simp, h⟩
  · refine ⟨[.verbose], .deleteTemps, _, rfl, ?_, h⟩
    exact List.forall_mem_singleton.mpr ⟨v, hv⟩
  · refine ⟨[.verbose, .deleteTemps], .sourceToSource, _, rfl, ?_, h⟩
    exact List.forall_mem_cons.mpr ⟨⟨v, hv⟩, List.forall_mem_singleton.mpr ⟨d, hd⟩⟩
  · refine ⟨[.verbose, .deleteTemps, .sourceToSource], .parallel, _, rfl, ?_, h⟩
    exact List.forall_mem_cons.mpr ⟨⟨v, hv⟩, List.forall_mem_cons.mpr ⟨⟨d, hd⟩,
      List.forall_mem_singleton.mpr ⟨s, hs⟩⟩⟩
  · cases h

theorem message_toggle (setting raw : String) :
    (Failure.configuration (.toggle setting raw)).message =
      "configuration error: " ++ setting ++ " must be an integer, got '" ++ raw ++ "'" := by
  have hcause : (Misconfiguration.toggle setting raw).message =
      setting ++ " must be an integer, got '" ++ raw ++ "'" := rfl
  have hmessage : (Failure.configuration (.toggle setting raw)).message =
      "configuration error: " ++ (Misconfiguration.toggle setting raw).message := rfl
  rw [hmessage, hcause]
  simp only [← String.append_assoc]

/-- The toggles can be read exactly if every variable that is set denotes a 64-bit integer. A toggle
is on if that is not zero, and its default decides exactly if its variable is not set. Otherwise the
first variable that is at fault is reported with the text that it holds. -/
theorem ofLookup_reads_integers (lookup : String → Option String) :
    ((∃ t, ofLookup lookup = .ok t) ↔
      ∀ s : Switch, ∀ raw, lookup s.setting = some raw →
        ∃ i, Text.Denotes raw i ∧ -2 ^ 63 ≤ i ∧ i ≤ 2 ^ 63 - 1) ∧
    (∀ t, ofLookup lookup = .ok t → ∀ s : Switch,
      (lookup s.setting = none → t.isOn s = isOn {} s) ∧
      ∀ raw i, lookup s.setting = some raw → Text.Denotes raw i →
        (t.isOn s = true ↔ i ≠ 0)) ∧
    (∀ s : Switch, (∀ default, read lookup s.setting default = .ok default) ↔
      lookup s.setting = none) ∧
    ∀ e, ofLookup lookup = .error e → ∃ before s after raw,
      Switch.all = before ++ s :: after ∧
      (∀ u ∈ before, ∀ raw, lookup u.setting = some raw → IsSetting raw) ∧
      lookup s.setting = some raw ∧ ¬ IsSetting raw ∧
      e = .configuration (.toggle s.setting raw) ∧
      e.message = "configuration error: " ++ s.setting ++ " must be an integer, got '" ++ raw ++
        "'" := by
  refine ⟨⟨fun ⟨t, ht⟩ s raw hraw => ?_, fun hall => ?_⟩, fun t ht s => ⟨fun hunset => ?_, ?_⟩,
    fun s => read_eq_default_iff, fun e he => ?_⟩
  · exact isSetting_of_read (ofLookup_eq_ok_iff.mp ht s) hraw
  · cases hread : ofLookup lookup with
    | ok t => exact ⟨t, rfl⟩
    | error e =>
        obtain ⟨_, s, _, _, _, hs⟩ := first_of_ofLookup hread
        obtain ⟨raw, hset, hraw, _⟩ := toggle_of_read hs
        exact absurd (hall s raw hset) hraw
  · have hread := ofLookup_eq_ok_iff.mp ht s
    rw [read_of_unset hunset] at hread
    exact (Except.ok.inj hread).symm
  · intro raw i hset hi
    have hread := ofLookup_eq_ok_iff.mp ht s
    obtain ⟨j, hj, hrange⟩ := isSetting_of_read hread hset
    rw [read_of_denotes hset hj hrange] at hread
    rw [← Except.ok.inj hread, hi.unique hj]
    exact bne_iff_ne
  · obtain ⟨before, s, after, hsplit, hbefore, hs⟩ := first_of_ofLookup he
    obtain ⟨raw, hset, hraw, rfl⟩ := toggle_of_read hs
    refine ⟨before, s, after, raw, hsplit, fun u hu raw' hset' => ?_, hset, hraw, rfl,
      message_toggle _ _⟩
    obtain ⟨b, hb⟩ := hbefore u hu
    exact isSetting_of_read hb hset'

/-- The ends of the range, leading zeros and blanks outside of ASCII; one more than the range holds
is reported although a later variable holds no number at all. -/
theorem ofLookup_reads_integers_sample :
    let env (name : String) := List.lookup name [("SSTMAC_VERBOSE", "\u3000+007\n"),
      ("SSTMAC_DELETE_TEMPS", "-9223372036854775808"), ("SSTMAC_PARALLEL", " -000 ")]
    let bad (name : String) := List.lookup name [("SSTMAC_SRC2SRC", "9223372036854775808"),
      ("SSTMAC_PARALLEL", "1_0")]
    (∃ t, ofLookup env = .ok t ∧ (t.isOn .verbose = true ↔ (7 : Int) ≠ 0) ∧
      (t.isOn .parallel = true ↔ (0 : Int) ≠ 0) ∧ t.isOn .sourceToSource = true) ∧
    ∃ e, ofLookup bad = .error e ∧ ∃ before s after raw,
      Switch.all = before ++ s :: after ∧
      (∀ u ∈ before, ∀ raw, bad u.setting = some raw → IsSetting raw) ∧
      bad s.setting = some raw ∧ ¬ IsSetting raw ∧
      e = .configuration (.toggle s.setting raw) ∧
      e.message = "configuration error: " ++ s.setting ++ " must be an integer, got '" ++ raw ++
        "'" := by
  intro env bad
  have hok : ofLookup env = .ok ⟨true, true, true, false⟩ := by decide
  have hseven : Text.Denotes "\u3000+007\n" 7 := (Text.int64?_eq_some_iff.mp (by decide)).1
  have hzero : Text.Denotes " -000 " 0 := (Text.int64?_eq_some_iff.mp (by decide)).1
  have hbad : ofLookup bad =
      .error (.configuration (.toggle "SSTMAC_SRC2SRC" "9223372036854775808")) := by
    decide
  obtain ⟨_, hon, _, _⟩ := ofLookup_reads_integers env
  refine ⟨⟨_, hok, ?_, ?_, ?_⟩, _, hbad, (ofLookup_reads_integers bad).2.2.2 _ hbad⟩
  · exact (hon _ hok .verbose).2 _ 7 rfl hseven
  · exact (hon _ hok .parallel).2 _ 0 rfl hzero
  · exact (hon _ hok .sourceToSource).1 rfl

end Toggles

end Deglobal
