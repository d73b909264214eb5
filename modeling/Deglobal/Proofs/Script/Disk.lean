import Deglobal.Proofs.Artifact.Apart
import Deglobal.Proofs.Script.Ensures
import Deglobal.Proofs.Script.FailStop

/-! # The files a run works on

What is known of the files behind a host is a view of its state: for each
location whether there is a directory or a file, and for a file which command
wrote it last. A task is a command with the files it is meant to write. The laws
say of a host that its commands write nothing else, that those which succeed
write all of it, and that a removal removes what is no directory. `Within` is the
frame: what lies outside a region stays as it is.
-/

namespace Deglobal

inductive Origin where
  | given
  /-- A command wrote it last, and ended so. -/
  | written (c : Command) (o : Outcome)
  deriving DecidableEq, Inhabited

inductive Entry where
  | directory
  | file (origin : Origin)
  deriving DecidableEq, Inhabited

abbrev Disk := Location → Option Entry

/-- A command and the files it is meant to write. -/
abbrev Task := Command × List Path

variable {σ : Type}

/-! ## Laws -/

/-- The files change by removals and by the tasks among the commands, which write or remove their
own files and make no directories; one that fails may have written some of them. -/
structure Orderly (disk : σ → Disk) (h : Host σ) (tasks : List Task) : Prop where
  hear : ∀ e s, disk (h.hear e s) = disk s
  unlink : ∀ p s l, disk (h.unlink p s).2 l = disk s l ∨
    l = p.components ∧ disk (h.unlink p s).2 l = none
  exec : ∀ task ∈ tasks, ∀ s l, disk (h.exec task.1 s).2 l = disk s l ∨
    l ∈ Path.locations task.2 ∧ (disk (h.exec task.1 s).2 l = none ∨
      disk (h.exec task.1 s).2 l = some (.file (.written task.1 (h.exec task.1 s).1)))

/-- A task that succeeds has written all its files. -/
def Delivers (disk : σ → Disk) (h : Host σ) (tasks : List Task) : Prop :=
  ∀ task ∈ tasks, ∀ s, (h.exec task.1 s).1 = .exited 0 → ∀ p ∈ task.2,
    disk (h.exec task.1 s).2 p.components = some (.file (.written task.1 (.exited 0)))

/-- Whatever is no directory can be removed. -/
def Removes (disk : σ → Disk) (h : Host σ) : Prop :=
  ∀ p s, disk s p.components ≠ some .directory → disk (h.unlink p s).2 p.components = none

/-- A host whose state is the disk. Commands end as `answer` says; one that fails has come no
further than the first of its products. -/
def Host.onDisk (products : Command → List Path) (answer : Command → Outcome) : Host Disk where
  exec c d :=
    let written := if answer c = .exited 0 then products c else (products c).take 1
    (answer c, fun l =>
      if l ∈ Path.locations written then some (.file (.written c (answer c))) else d l)
  unlink p d :=
    match d p.components with
    | none => (.absent, d)
    | some .directory => (.refused (.code 21), d)
    | some (.file _) => (.removed, fun l => if l = p.components then none else d l)

section OnDisk

variable {products : Command → List Path} {answer : Command → Outcome} {tasks : List Task}

theorem orderly_onDisk (h : ∀ task ∈ tasks, products task.1 = task.2) :
    Orderly (fun d => d) (Host.onDisk products answer) tasks where
  hear := fun _ _ => rfl
  unlink := by
    intro p d l
    simp only [Host.onDisk]
    cases d p.components with
    | none => exact Or.inl rfl
    | some entry =>
        cases entry with
        | directory => exact Or.inl rfl
        | file origin =>
            by_cases hl : l = p.components
            · exact Or.inr ⟨hl, if_pos hl⟩
            · exact Or.inl (if_neg hl)
  exec := by
    intro task htask d l
    simp only [Host.onDisk, h task htask]
    by_cases hmem : l ∈ Path.locations (if answer task.1 = .exited 0 then task.2
      else task.2.take 1)
    · refine Or.inr ⟨?_, Or.inr (if_pos hmem)⟩
      split at hmem
      · exact hmem
      · exact Path.locations_subset (List.take_subset 1 task.2) hmem
    · exact Or.inl (if_neg hmem)

theorem delivers_onDisk (h : ∀ task ∈ tasks, products task.1 = task.2) :
    Delivers (fun d => d) (Host.onDisk products answer) tasks := by
  intro task htask d hok p hp
  have hanswer : answer task.1 = .exited 0 := hok
  simp only [Host.onDisk, h task htask, hanswer, if_true]
  exact if_pos (Path.mem_locations hp)

theorem removes_onDisk : Removes (fun d => d) (Host.onDisk products answer) := by
  intro p d hd
  simp only [Host.onDisk] at hd ⊢
  cases hentry : d p.components with
  | none => exact hentry
  | some entry =>
      cases entry with
      | directory => exact absurd hentry hd
      | file origin => exact if_pos rfl

end OnDisk

/-! ## Frames -/

/-- From one moment to another nothing has changed outside a region, and no directory was made. -/
structure Within (disk : σ → Disk) (region : List Location) (m m' : Moment σ) : Prop where
  same : ∀ l, l ∉ region → disk m'.now l = disk m.now l
  directory : ∀ l, disk m'.now l = some .directory → disk m.now l = some .directory

namespace Within

variable {disk : σ → Disk} {region : List Location} {m m' m'' : Moment σ}

theorem refl (m : Moment σ) : Within disk region m m := ⟨fun _ _ => rfl, fun _ h => h⟩

theorem trans (hfirst : Within disk region m m') (hsecond : Within disk region m' m'') :
    Within disk region m m'' where
  same := fun l hl => (hsecond.same l hl).trans (hfirst.same l hl)
  directory := fun l hl => hfirst.directory l (hsecond.directory l hl)

theorem mono {wider : List Location} (hw : Within disk region m m') (hsub : region ⊆ wider) :
    Within disk wider m m' := ⟨fun l hl => hw.same l fun hmem => hl (hsub hmem), hw.directory⟩

end Within

structure Shrinks (disk : σ → Disk) (m m' : Moment σ) : Prop where
  issued : m'.issued = m.issued
  gone : ∀ l, disk m'.now l = disk m.now l ∨ disk m'.now l = none

/-- From one moment to another what lies outside a region changed only by tasks that were issued in
between. -/
def ChangedByTasks (disk : σ → Disk) (tasks : List Task) (region : List Location)
    (m m' : Moment σ) : Prop :=
  ∃ new, m'.issued = m.issued ++ new ∧ ∀ l, l ∉ region → disk m'.now l = disk m.now l ∨
    ∃ task ∈ tasks, l ∈ Path.locations task.2 ∧ ∃ o, (task.1, o) ∈ new

namespace ChangedByTasks

variable {disk : σ → Disk} {tasks : List Task} {region : List Location} {m m' m'' : Moment σ}

theorem of_within (hissued : m'.issued = m.issued) (hw : Within disk region m m') :
    ChangedByTasks disk tasks region m m' :=
  ⟨[], by rw [hissued, List.append_nil], fun l hl => Or.inl (hw.same l hl)⟩

theorem trans (hfirst : ChangedByTasks disk tasks region m m')
    (hsecond : ChangedByTasks disk tasks region m' m'') :
    ChangedByTasks disk tasks region m m'' := by
  obtain ⟨new, hissued, hnew⟩ := hfirst
  obtain ⟨new', hissued', hnew'⟩ := hsecond
  refine ⟨new ++ new', by rw [hissued', hissued, List.append_assoc], fun l hl => ?_⟩
  rcases hnew' l hl with hsame | ⟨task, htask, hl', o, ho⟩
  · rcases hnew l hl with hsame' | ⟨task, htask, hl', o, ho⟩
    · exact Or.inl (hsame.trans hsame')
    · exact Or.inr ⟨task, htask, hl', o, List.mem_append_left _ ho⟩
  · exact Or.inr ⟨task, htask, hl', o, List.mem_append_right _ ho⟩

end ChangedByTasks

def Gone (disk : σ → Disk) (s : σ) (files : List Path) : Prop :=
  ∀ p ∈ files, disk s p.components = none

/-- There is no such file, or all is there as it was in state `s₀`. -/
def Restored (disk : σ → Disk) (s₀ s : σ) (p : Path) : Prop :=
  disk s p.components = none ∨ disk s p.components = disk s₀ p.components

def NoNewDirectory (disk : σ → Disk) (s₀ s : σ) : Prop :=
  ∀ l, disk s l = some .directory → disk s₀ l = some .directory

def Clear (disk : σ → Disk) (s : σ) (files : List Path) : Prop :=
  ∀ p ∈ files, disk s p.components ≠ some .directory

section Gone

variable {disk : σ → Disk} {region : List Location} {m m' : Moment σ} {files others : List Path}

theorem Gone.keep (hg : Gone disk m.now files) (hw : Within disk region m m')
    (hout : ∀ p ∈ files, p.components ∉ region) : Gone disk m'.now files :=
  fun p hp => (hw.same _ (hout p hp)).trans (hg p hp)

theorem Gone.shrink (hg : Gone disk m.now files) (hs : Shrinks disk m m') :
    Gone disk m'.now files :=
  fun p hp => (hs.gone p.components).elim (fun hsame => hsame.trans (hg p hp)) id

theorem Gone.append {s : σ} (hg : Gone disk s files) (hg' : Gone disk s others) :
    Gone disk s (files ++ others) :=
  fun p hp => (List.mem_append.mp hp).elim (hg p) (hg' p)

theorem Gone.subset {s : σ} (hg : Gone disk s others) (hsub : files ⊆ others) :
    Gone disk s files := fun p hp => hg p (hsub hp)

theorem Clear.keep (hc : Clear disk m.now files) (hw : Within disk region m m') :
    Clear disk m'.now files := fun p hp hdir => hc p hp (hw.directory _ hdir)

theorem Clear.shrink (hc : Clear disk m.now files) (hs : Shrinks disk m m') :
    Clear disk m'.now files := by
  intro p hp hdir
  rcases hs.gone p.components with hsame | hnone
  · exact hc p hp (hsame ▸ hdir)
  · cases hnone.symm.trans hdir

theorem Clear.subset {s : σ} (hc : Clear disk s others) (hsub : files ⊆ others) :
    Clear disk s files := fun p hp => hc p (hsub hp)

theorem Restored.keep {s₀ : σ} {p : Path} (hr : Restored disk s₀ m.now p)
    (hw : Within disk region m m') (hout : p.components ∉ region) : Restored disk s₀ m'.now p := by
  unfold Restored
  rwa [hw.same _ hout]

theorem Restored.shrink {s₀ : σ} {p : Path} (hr : Restored disk s₀ m.now p)
    (hs : Shrinks disk m m') : Restored disk s₀ m'.now p := by
  rcases hs.gone p.components with hsame | hnone
  · unfold Restored
    rwa [hsame]
  · exact Or.inl hnone

theorem NoNewDirectory.keep {s₀ : σ} (hd : NoNewDirectory disk s₀ m.now)
    (hw : Within disk region m m') : NoNewDirectory disk s₀ m'.now :=
  fun l hl => hd l (hw.directory l hl)

end Gone

section Laws

variable {disk : σ → Disk} {h : Host σ} {tasks : List Task}

theorem Orderly.subset {others : List Task} (horderly : Orderly disk h tasks)
    (hsub : others ⊆ tasks) : Orderly disk h others :=
  { horderly with exec := fun task htask => horderly.exec task (hsub htask) }

theorem Orderly.discarded (horderly : Orderly disk h tasks) (p : Path) (m : Moment σ)
    (l : Location) : disk (m.discarded h p).now l = disk m.now l ∨
      l = p.components ∧ disk (m.discarded h p).now l = none := by
  simp only [Moment.discarded, horderly.hear]
  exact horderly.unlink p m.now l

theorem Orderly.ran (horderly : Orderly disk h tasks) {task : Task} (htask : task ∈ tasks)
    (m : Moment σ) (l : Location) : disk (m.ran h task.1).now l = disk m.now l ∨
      l ∈ Path.locations task.2 ∧ (disk (m.ran h task.1).now l = none ∨
        disk (m.ran h task.1).now l =
          some (.file (.written task.1 (h.exec task.1 m.now).1))) := by
  simp only [Moment.ran, horderly.hear]
  exact horderly.exec task htask m.now l

theorem Orderly.within_discarded (horderly : Orderly disk h tasks) {region : List Location}
    {p : Path} (hp : p.components ∈ region) (m : Moment σ) :
    Within disk region m (m.discarded h p) := by
  refine ⟨fun l hl => ?_, fun l hl => ?_⟩
  · rcases horderly.discarded p m l with hsame | ⟨rfl, _⟩
    · exact hsame
    · exact absurd hp hl
  · rcases horderly.discarded p m l with hsame | ⟨_, hnone⟩
    · rwa [hsame] at hl
    · cases hnone.symm.trans hl

theorem Orderly.within_ran (horderly : Orderly disk h tasks) {region : List Location} {task : Task}
    (htask : task ∈ tasks) (hregion : Path.locations task.2 ⊆ region) (m : Moment σ) :
    Within disk region m (m.ran h task.1) := by
  refine ⟨fun l hl => ?_, fun l hl => ?_⟩
  · rcases horderly.ran htask m l with hsame | ⟨hmem, _⟩
    · exact hsame
    · exact absurd (hregion hmem) hl
  · rcases horderly.ran htask m l with hsame | ⟨_, hnone | hfile⟩
    · rwa [hsame] at hl
    · cases hnone.symm.trans hl
    · cases hfile.symm.trans hl

theorem Orderly.within_heard (horderly : Orderly disk h tasks) {region : List Location}
    (e : Event) (m : Moment σ) : Within disk region m (m.heard h e) := by
  have hheard : disk (m.heard h e).now = disk m.now := horderly.hear e m.now
  exact ⟨fun l _ => congrFun hheard l, fun l hl => by rwa [hheard] at hl⟩

theorem Clear.heard {files : List Path} {m : Moment σ} {e : Event}
    (hc : Clear disk m.now files) (horderly : Orderly disk h tasks) :
    Clear disk (m.heard h e).now files :=
  hc.keep (show Within disk [] m (m.heard h e) from horderly.within_heard e m)

theorem NoNewDirectory.heard {s₀ : σ} {m : Moment σ} {e : Event}
    (hd : NoNewDirectory disk s₀ m.now) (horderly : Orderly disk h tasks) :
    NoNewDirectory disk s₀ (m.heard h e).now :=
  hd.keep (show Within disk [] m (m.heard h e) from horderly.within_heard e m)

end Laws

namespace Script

variable {α : Type} {disk : σ → Disk} {h : Host σ} {tasks : List Task}

/-- A script that issues only tasks of a region and discards only files of it stays within it. -/
theorem Always.within (horderly : Orderly disk h tasks) {each : Command → σ → Prop}
    {region : List Location} {P : Command → Prop} {Q : Path → Prop} {R : Except Failure α → Prop}
    (heach : ∀ c s, P c → each c s)
    (hP : ∀ c, P c → ∃ files, (c, files) ∈ tasks ∧ Path.locations files ⊆ region)
    (hQ : ∀ p, Q p → p.components ∈ region) {x : Script α} (hx : x.Always P Q R) (m : Moment σ) :
    x.Ensures h each (fun result m' => R result ∧ Within disk region m m') m := by
  refine hx.ensures heach Within.refl (fun _ _ _ => Within.trans) (fun c m hc => ?_)
    (fun p m hp => horderly.within_discarded (hQ p hp) m)
    (fun e m => horderly.within_heard e m) m
  obtain ⟨files, htask, hregion⟩ := hP c hc
  exact horderly.within_ran htask hregion m

theorem within_discardAll (horderly : Orderly disk h tasks) {each : Command → σ → Prop}
    (files : List Path) (m : Moment σ) :
    (discardAll files).Ensures h each
      (fun result m' => result = .ok () ∧ Within disk (Path.locations files) m m') m := by
  have halways : (discardAll files).Always (fun _ => False) (· ∈ files) (· = .ok ()) :=
    always_discardAll fun _ h => h
  exact halways.within horderly (fun _ _ hc => hc.elim) (fun _ hc => hc.elim)
    (fun p hp => Path.mem_locations hp) m

theorem within_check (horderly : Orderly disk h tasks) {task : Task} (htask : task ∈ tasks)
    (m : Moment σ) : (check task.1).Ensures h (fun _ _ => True)
      (fun _ m' => Within disk (Path.locations task.2) m m') m := by
  have halways : (check task.1).Always (· = task.1) (fun _ => False) fun _ => True :=
    always_check rfl
  have hregion : ∀ c, c = task.1 → ∃ files, (c, files) ∈ tasks ∧
      Path.locations files ⊆ Path.locations task.2 := by
    rintro c rfl
    exact ⟨task.2, htask, List.Subset.refl _⟩
  exact (halways.within horderly (fun _ _ _ => trivial) hregion (fun _ hp => hp.elim) m).mono
    fun _ _ hend => hend.2

/-- A task that is checked writes its own files, and all of them if it succeeds. -/
theorem ensures_check {each : Command → σ → Prop} (horderly : Orderly disk h tasks)
    (hdelivers : Delivers disk h tasks) {task : Task} (htask : task ∈ tasks)
    (hprogram : task.1.isEmpty = false) {m : Moment σ} (hready : each task.1 m.now) :
    (check task.1).Ensures h each (fun result m' =>
      Within disk (Path.locations task.2) m m' ∧ (result = .ok () → ∀ p ∈ task.2,
        disk m'.now p.components = some (.file (.written task.1 (.exited 0))))) m := by
  rw [check_of_program hprogram]
  refine ⟨hready, horderly.within_ran htask (fun _ hl => hl) m, fun hok p hp => ?_⟩
  have hanswer : (h.exec task.1 m.now).1 = .exited 0 := Outcome.result_eq_ok.mp hok
  simp only [Moment.ran, horderly.hear]
  exact hdelivers task htask m.now hanswer p hp

theorem ensures_check_failed (c : Command) (m : Moment σ) :
    (check c).Ensures h (fun _ _ => True) (fun result m' => ∀ e, result = .error e →
      ∃ o, o ≠ .exited 0 ∧ m'.issued = m.issued ++ [(c, o)]) m := by
  cases hempty : c.isEmpty with
  | true =>
      rw [check_of_empty hempty]
      exact fun _ h => by cases h
  | false =>
      rw [check_of_program hempty]
      refine ⟨trivial, fun e herror => ⟨_, fun hok => ?_, rfl⟩⟩
      rw [Outcome.result_eq_ok.mpr hok] at herror
      cases herror

theorem Always.changedByTasks (horderly : Orderly disk h tasks) {region : List Location}
    {P : Command → Prop} {Q : Path → Prop} {R : Except Failure α → Prop}
    (hP : ∀ c, P c → ∃ files, (c, files) ∈ tasks) (hQ : ∀ p, Q p → p.components ∈ region)
    {x : Script α} (hx : x.Always P Q R) (m : Moment σ) :
    x.Ensures h (fun _ _ => True)
      (fun result m' => R result ∧ ChangedByTasks disk tasks region m m') m := by
  refine hx.ensures (fun _ _ _ => trivial) (fun m => ChangedByTasks.of_within rfl (Within.refl m))
    (fun _ _ _ => ChangedByTasks.trans) (fun c m hc => ?_)
    (fun p m hp => .of_within rfl (horderly.within_discarded (hQ p hp) m))
    (fun e m => .of_within rfl (horderly.within_heard e m)) m
  obtain ⟨files, htask⟩ := hP c hc
  refine ⟨[(c, (h.exec c m.now).1)], rfl, fun l _ => ?_⟩
  rcases horderly.ran htask m l with hsame | ⟨hl, _⟩
  · exact Or.inl hsame
  · exact Or.inr ⟨_, htask, hl, _, List.mem_cons_self⟩

theorem shrinks_discardAll (horderly : Orderly disk h tasks) (hremoves : Removes disk h)
    (files : List Path) (m : Moment σ) :
    (discardAll files).Ensures h (fun _ _ => True) (fun result m' => result = .ok () ∧
      Shrinks disk m m' ∧ ∀ p ∈ files, disk m.now p.components ≠ some .directory →
        disk m'.now p.components = none) m := by
  induction files generalizing m with
  | nil => exact ⟨rfl, ⟨rfl, fun _ => Or.inl rfl⟩, fun _ h => absurd h List.not_mem_nil⟩
  | cons p rest ih =>
      have hshrinks : Shrinks disk m (m.discarded h p) :=
        ⟨rfl, fun l => (horderly.discarded p m l).imp id And.right⟩
      refine (ih (m.discarded h p)).mono fun result m' hend =>
        ⟨hend.1, ⟨hend.2.1.issued, fun l => ?_⟩, fun q hq hdir => ?_⟩
      · exact (hend.2.1.gone l).elim (fun hsame => hsame ▸ hshrinks.gone l) Or.inr
      · rcases List.mem_cons.mp hq with rfl | hq
        · have hgone : disk (m.discarded h q).now q.components = none := by
            simp only [Moment.discarded, horderly.hear]
            exact hremoves q m.now hdir
          exact (hend.2.1.gone q.components).elim (fun hsame => hsame.trans hgone) id
        · refine hend.2.2 q hq fun hdir' => ?_
          rcases hshrinks.gone q.components with hsame | hnone
          · exact hdir (hsame ▸ hdir')
          · cases hnone.symm.trans hdir'

/-- What is discarded is gone, or is a directory that has been there from the start. -/
theorem restored_discardAll (horderly : Orderly disk h tasks) (hremoves : Removes disk h) {s₀ : σ}
    (files : List Path) {m : Moment σ} (hmade : NoNewDirectory disk s₀ m.now) :
    (discardAll files).Ensures h (fun _ _ => True) (fun result m' => result = .ok () ∧
      (∀ p ∈ files, Restored disk s₀ m'.now p) ∧ Shrinks disk m m') m := by
  refine (shrinks_discardAll horderly hremoves files m).mono fun _ m' hend =>
    ⟨hend.1, fun p hp => ?_, hend.2.1⟩
  by_cases hdir : disk m.now p.components = some .directory
  · refine (hend.2.1.gone p.components).elim (fun hsame => Or.inr ?_) Or.inl
    rw [hsame, hdir, hmade _ hdir]
  · exact Or.inl (hend.2.2 p hp hdir)

/-- What is discarded is gone as far as there were no directories, and stays so while the rest is
discarded. -/
theorem gone_discardAll (horderly : Orderly disk h tasks) (hremoves : Removes disk h)
    {files part : List Path} (hpart : part ⊆ files) {m : Moment σ}
    (hclear : Clear disk m.now part) :
    (discardAll files).Ensures h (fun _ _ => True) (fun result m' => result = .ok () ∧
      Gone disk m'.now part ∧ Shrinks disk m m') m :=
  (shrinks_discardAll horderly hremoves files m).mono fun _ _ hend =>
    ⟨hend.1, fun p hp => hend.2.2 p (hpart hp) (hclear p hp), hend.2.1⟩

end Script

end Deglobal
