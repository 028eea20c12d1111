import Mathlib.Logic.Function.Basic
import Pipitor.Foundation.Runs

/-!
# Instances of the program

Any number of `pipitor run` on one manifest. Each locks the file that it has opened, makes the control socket if
nothing is there in its place, and removes whatever is there when it ends, if it has made one; the lock goes last.
One that is killed removes nothing. The file may be replaced by another while it is locked.

`instances_exclusive` says what the lock is good for, and `ctl_reaches_iff` when `pipitor ctl` finds its instance.
-/

namespace Pipitor.App

/-- How far an instance has come with the file that it has opened. -/
inductive Stage
  | absent
  | opened (file : ℕ)
  | locked (file : ℕ)
  /-- `guard` says whether there is a `RmGuard`. -/
  | running (file : ℕ) (guard : Bool)
  /-- The runtime is gone. -/
  | leaving (file : ℕ)
  | ended
deriving DecidableEq

/-- The file of which the instance holds the lock. -/
def Stage.held : Stage → Option ℕ
  | .locked file | .running file _ | .leaving file => some file
  | _ => none

/-- The file that the instance has opened. -/
def Stage.file : Stage → Option ℕ
  | .opened file => some file
  | stage => stage.held

/-- `file` is the one at the path of the manifest, `lock` says who holds which, and `socket` is the instance that has
made what is at `ipc_path`. -/
structure Instances where
  file : ℕ
  stage : ℕ → Stage
  lock : ℕ → Option ℕ
  socket : Option ℕ

namespace Instances

inductive Event
  /-- Another file is put in the place of the manifest. -/
  | replace
  /-- Somebody else removes the socket. -/
  | unlink
  | start (i : ℕ)
  | lock (i : ℕ)
  /-- `possible` unless something else than what is at the path is in the way. -/
  | bind (i : ℕ) (possible : Bool)
  /-- `block_on` returns. -/
  | leave (i : ℕ)
  /-- `main` returns. -/
  | exit (i : ℕ)
  | kill (i : ℕ)

def empty : Instances := ⟨0, fun _ => .absent, fun _ => none, none⟩

def set (s : Instances) (i : ℕ) (stage : Stage) : Instances := { s with stage := Function.update s.stage i stage }

/-- The file is closed, and with it the lock is gone. -/
def release (s : Instances) (i file : ℕ) : Instances :=
  { s.set i .ended with lock := Function.update s.lock file none }

def step (s : Instances) : Event → Instances
  | .replace => { s with file := s.file + 1 }
  | .unlink => { s with socket := none }
  | .start i => match s.stage i with
    | .absent => s.set i (.opened s.file)
    | _ => s
  | .lock i => match s.stage i with
    | .opened file => match s.lock file with
      | some _ => s.set i .ended
      | none => { s.set i (.locked file) with lock := Function.update s.lock file (some i) }
    | _ => s
  | .bind i possible => match s.stage i with
    | .locked file =>
      if possible ∧ s.socket = none then { s.set i (.running file true) with socket := some i }
      else s.set i (.running file false)
    | _ => s
  | .leave i => match s.stage i with
    | .running file true => { s.set i (.leaving file) with socket := none }
    | .running file false => s.set i (.leaving file)
    | _ => s
  | .exit i => match s.stage i with
    | .locked file | .leaving file => s.release i file
    | _ => s
  | .kill i => match (s.stage i).held with
    | some file => s.release i file
    | none => match s.stage i with
      | .opened _ => s.set i .ended
      | _ => s

/-- The instance is between its lock and its end. -/
def AtWork (s : Instances) (i : ℕ) : Prop := ∃ file, (s.stage i).held = some file

/-- A program that connects to the socket comes to the instance. -/
def Reaches (s : Instances) (i : ℕ) : Prop := s.socket = some i ∧ ∃ file, s.stage i = .running file true

/-- An instance with a control socket is killed. -/
def Crashes (m : Instances × Event) : Prop := ∃ i file, m.2 = .kill i ∧ m.1.stage i = .running file true

/-! ### What a step does -/

/-- What becomes of the instances by a step. -/
inductive Effect (s : Instances) (e : Event) : Instances → Prop
  | idle : Effect s e s
  | replaced (event : e = .replace) : Effect s e { s with file := s.file + 1 }
  | unlinked (event : e = .unlink) : Effect s e { s with socket := none }
  | opened {i : ℕ} (before : s.stage i = .absent) : Effect s e (s.set i (.opened s.file))
  /-- The lock is held by another instance, or this one is killed before. -/
  | refused {i file : ℕ} (before : s.stage i = .opened file) : Effect s e (s.set i .ended)
  | locked {i file : ℕ} (before : s.stage i = .opened file) (free : s.lock file = none) :
      Effect s e { s.set i (.locked file) with lock := Function.update s.lock file (some i) }
  | bound {i file : ℕ} (before : s.stage i = .locked file) (free : s.socket = none) :
      Effect s e { s.set i (.running file true) with socket := some i }
  | unbound {i file : ℕ} (before : s.stage i = .locked file) {possible : Bool} (event : e = .bind i possible)
      (taken : ¬ (possible ∧ s.socket = none)) : Effect s e (s.set i (.running file false))
  | removed {i file : ℕ} (before : s.stage i = .running file true) :
      Effect s e { s.set i (.leaving file) with socket := none }
  | left {i file : ℕ} (before : s.stage i = .running file false) : Effect s e (s.set i (.leaving file))
  | released {i file : ℕ} (before : (s.stage i).held = some file)
      (guard : ∀ file, s.stage i = .running file true → Crashes (s, e)) : Effect s e (s.release i file)

theorem step_effect (s : Instances) (e : Event) : Effect s e (s.step e) := by
  cases e with
  | replace => exact .replaced rfl
  | unlink => exact .unlinked rfl
  | start i =>
    dsimp only [step]
    split
    · rename_i h
      exact .opened h
    · exact .idle
  | lock i =>
    dsimp only [step]
    split
    · rename_i file h
      split
      · exact .refused h
      · rename_i hfree
        exact .locked h hfree
    · exact .idle
  | bind i possible =>
    dsimp only [step]
    split
    · rename_i file h
      split
      · rename_i hfree
        exact .bound h hfree.2
      · rename_i htaken
        exact .unbound h rfl htaken
    · exact .idle
  | leave i =>
    dsimp only [step]
    split
    · rename_i file h
      exact .removed h
    · rename_i file h
      exact .left h
    · exact .idle
  | exit i =>
    dsimp only [step]
    split
    · rename_i file h
      refine .released (by rw [h]; rfl) fun file' h' => ?_
      rw [h] at h'
      cases h'
    · rename_i file h
      refine .released (by rw [h]; rfl) fun file' h' => ?_
      rw [h] at h'
      cases h'
    · exact .idle
  | kill i =>
    dsimp only [step]
    split
    · rename_i file h
      exact .released h fun file' h' => ⟨i, file', rfl, h'⟩
    · split
      · rename_i file h
        exact .refused h
      · exact .idle

/-! ### The lock -/

section Lock

variable {s s' : Instances} {e : Event} {i j file : ℕ} {t : Stage}

@[simp] theorem stage_set_self : (s.set i t).stage i = t := Function.update_self _ _ _

@[simp] theorem stage_set_of_ne (h : j ≠ i) : (s.set i t).stage j = s.stage j := Function.update_of_ne h _ _

/-- Who is at work with a file holds its lock. -/
def Locks (s : Instances) : Prop := ∀ i file, (s.stage i).held = some file ↔ s.lock file = some i

theorem Locks.eq (h : s.Locks) (hi : (s.stage i).held = some file) (hj : (s.stage j).held = some file) : i = j :=
  Option.some.inj (((h i file).mp hi).symm.trans ((h j file).mp hj))

theorem Locks.set (h : s.Locks) (hheld : t.held = (s.stage i).held) : (s.set i t).Locks := by
  intro j file
  by_cases hij : j = i
  · subst hij
    rw [stage_set_self, hheld]
    exact h j file
  · rw [stage_set_of_ne hij]
    exact h j file

theorem Locks.locked (h : s.Locks) (hbefore : s.stage i = .opened file) (hfree : s.lock file = none) :
    Locks { s.set i (.locked file) with lock := Function.update s.lock file (some i) } := by
  intro j file'
  show ((s.set i (.locked file)).stage j).held = some file' ↔ Function.update s.lock file (some i) file' = some j
  by_cases hij : j = i
  · subst hij
    rw [stage_set_self]
    by_cases hfile : file' = file
    · subst hfile
      rw [Function.update_self]
      exact ⟨fun _ => rfl, fun _ => rfl⟩
    · rw [Function.update_of_ne hfile, ← h j file', hbefore]
      refine ⟨fun h => absurd (Option.some.inj h).symm hfile, fun h => ?_⟩
      cases h
  · rw [stage_set_of_ne hij, h j file']
    by_cases hfile : file' = file
    · subst hfile
      rw [Function.update_self, hfree]
      refine ⟨fun h => ?_, fun h => absurd (Option.some.inj h).symm hij⟩
      cases h
    · rw [Function.update_of_ne hfile]

theorem Locks.release (h : s.Locks) (hheld : (s.stage i).held = some file) : (s.release i file).Locks := by
  intro j file'
  show ((s.set i .ended).stage j).held = some file' ↔ Function.update s.lock file none file' = some j
  by_cases hij : j = i
  · subst hij
    rw [stage_set_self]
    constructor
    · intro h
      cases h
    intro hlock
    by_cases hfile : file' = file
    · rw [hfile, Function.update_self] at hlock
      cases hlock
    · rw [Function.update_of_ne hfile, ← h j file', hheld] at hlock
      exact absurd (Option.some.inj hlock).symm hfile
  · rw [stage_set_of_ne hij]
    by_cases hfile : file' = file
    · rw [hfile, Function.update_self]
      refine ⟨fun hj => absurd (h.eq hj hheld) hij, fun h => ?_⟩
      cases h
    · rw [Function.update_of_ne hfile]
      exact h j file'

theorem Locks.effect (h : s.Locks) (heffect : Effect s e s') : s'.Locks := by
  cases heffect with
  | idle => exact h
  | replaced => exact h
  | unlinked => exact h
  | opened before => exact h.set (by rw [before]; rfl)
  | refused before => exact h.set (by rw [before]; rfl)
  | locked before free => exact h.locked before free
  | bound before => exact h.set (t := .running _ true) (by rw [before]; rfl)
  | unbound before => exact h.set (by rw [before]; rfl)
  | removed before => exact h.set (t := .leaving _) (by rw [before]; rfl)
  | left before => exact h.set (by rw [before]; rfl)
  | released before => exact h.release before

end Lock

/-! ### The file and the socket -/

section Socket

variable {s s' : Instances} {e : Event} {i j file : ℕ} {ms : List (Instances × Event)}

/-- The instances have opened the file that is there. -/
def Current (s : Instances) : Prop := ∀ i file, (s.stage i).file = some file → file = s.file

/-- Who has a guard has made what is there. -/
def Guards (s : Instances) : Prop := ∀ i file, s.stage i = .running file true → s.socket = some i

theorem Current.set {t : Stage} (h : s.Current) (hfile : ∀ file, t.file = some file → file = s.file) :
    (s.set i t).Current := by
  intro j file
  by_cases hij : j = i
  · subst hij
    rw [stage_set_self]
    exact hfile file
  · rw [stage_set_of_ne hij]
    exact h j file

theorem Current.effect (h : s.Current) (he : e ≠ .replace) (heffect : Effect s e s') : s'.Current := by
  have hkeep : ∀ {i file t}, (s.stage i).file = some file → (∀ file', t.file = some file' → file' = file) →
      (s.set i t).Current := by
    intro i file t hbefore hstage
    exact h.set fun file' hfile' => (hstage file' hfile').trans (h i file hbefore)
  cases heffect with
  | idle => exact h
  | replaced event => exact absurd event he
  | unlinked => exact h
  | opened => exact h.set fun file hfile => (Option.some.inj hfile).symm
  | refused => exact h.set fun file hfile => by cases hfile
  | @locked i file before => exact hkeep (by rw [before]; rfl) fun file' hfile' => (Option.some.inj hfile').symm
  | @bound i file before =>
    exact hkeep (t := .running file true) (by rw [before]; rfl) fun file' hfile' => (Option.some.inj hfile').symm
  | @unbound i file before => exact hkeep (by rw [before]; rfl) fun file' hfile' => (Option.some.inj hfile').symm
  | @removed i file before =>
    exact hkeep (t := .leaving file) (by rw [before]; rfl) fun file' hfile' => (Option.some.inj hfile').symm
  | @left i file before => exact hkeep (by rw [before]; rfl) fun file' hfile' => (Option.some.inj hfile').symm
  | released => exact h.set (t := .ended) fun file hfile => by cases hfile

theorem Guards.set {t : Stage} (h : s.Guards) (hstage : ∀ file, t ≠ .running file true) :
    (s.set i t).Guards := by
  intro j file hrunning
  by_cases hij : j = i
  · subst hij
    rw [stage_set_self] at hrunning
    exact absurd hrunning (hstage file)
  · rw [stage_set_of_ne hij] at hrunning
    exact h j file hrunning

theorem Guards.effect (h : s.Guards) (he : e ≠ .unlink) (heffect : Effect s e s') : s'.Guards := by
  cases heffect with
  | idle => exact h
  | replaced => exact h
  | unlinked event => exact absurd event he
  | opened => exact h.set fun _ h => by cases h
  | refused => exact h.set fun _ h => by cases h
  | locked => exact h.set (t := .locked _) fun _ h => by cases h
  | @bound i file before free =>
    intro j file' hrunning
    by_cases hij : j = i
    · subst hij
      rfl
    · have hj : s.socket = some j := h j file' ((stage_set_of_ne hij).symm.trans hrunning)
      rw [free] at hj
      cases hj
  | unbound => exact h.set fun _ h => by cases h
  | @removed i file before =>
    intro j file' hrunning
    by_cases hij : j = i
    · subst hij
      have hleaving : (s.set j (.leaving file)).stage j = .running file' true := hrunning
      rw [stage_set_self] at hleaving
      cases hleaving
    · have hj : s.socket = some j := h j file' ((stage_set_of_ne hij).symm.trans hrunning)
      exact absurd (Option.some.inj (hj.symm.trans (h i file before))) hij
  | left => exact h.set fun _ h => by cases h
  | released => exact h.set (t := .ended) fun _ h => by cases h

/-- An instance with a control socket has been killed. -/
def Crashed (ms : List (Instances × Event)) : Prop := ∃ m ∈ ms, Crashes m

/-- What is at the path has been left there by a crash, or its maker is there. -/
structure Left (s : Instances) (ms : List (Instances × Event)) : Prop where
  made : ∀ i, s.socket = some i → (∃ file, s.stage i = .running file true) ∨ s.stage i = .ended ∧ Crashed ms
  lost : Crashed ms → ∃ i, s.socket = some i ∧ s.stage i = .ended
  unbound : ∀ i file, s.stage i = .running file false → Crashed ms

/-- Nobody interferes. -/
def Plain (e : Event) : Prop := e ≠ .replace ∧ e ≠ .unlink ∧ ∀ i, e ≠ .bind i false

theorem crashed_append_iff {m : Instances × Event} : Crashed (ms ++ [m]) ↔ Crashed ms ∨ Crashes m := by
  unfold Crashed
  simp only [List.mem_append, List.mem_singleton, or_and_right, exists_or, exists_eq_left]

theorem Left.socket_ne (h : s.Left ms) {t : Stage} (hbefore : s.stage i = t) (hguard : ∀ file, t ≠ .running file true)
    (hended : t ≠ .ended) : s.socket ≠ some i := by
  subst hbefore
  intro hsocket
  rcases h.made i hsocket with ⟨file, hrunning⟩ | ⟨hend, -⟩
  · exact hguard file hrunning
  · exact hended hend

theorem Left.set (h : s.Left ms) (hsocket : s.socket ≠ some i) {stage : Stage}
    (hstage : ∀ file, stage = .running file false → Crashed ms) : (s.set i stage).Left ms where
  made j hj := by
    have hij : j ≠ i := by
      rintro rfl
      exact hsocket hj
    rw [stage_set_of_ne hij]
    exact h.made j hj
  lost hcrashed := by
    obtain ⟨j, hj, hended⟩ := h.lost hcrashed
    have hij : j ≠ i := by
      rintro rfl
      exact hsocket hj
    exact ⟨j, hj, (stage_set_of_ne hij).trans hended⟩
  unbound j file hrunning := by
    by_cases hij : j = i
    · subst hij
      rw [stage_set_self] at hrunning
      exact hstage file hrunning
    · rw [stage_set_of_ne hij] at hrunning
      exact h.unbound j file hrunning

theorem left_of_crashes (hguards : s.Guards) (hbefore : s.stage i = .running file true) :
    (s.release i file).Left (ms ++ [(s, .kill i)]) := by
  have hsocket : s.socket = some i := hguards i file hbefore
  have hcrashed : Crashed (ms ++ [(s, .kill i)]) := crashed_append_iff.mpr (.inr ⟨i, file, rfl, hbefore⟩)
  refine ⟨fun j hj => ?_, fun _ => ⟨i, hsocket, stage_set_self⟩, fun _ _ _ => hcrashed⟩
  obtain rfl : i = j := Option.some.inj (hsocket.symm.trans hj)
  exact .inr ⟨stage_set_self, hcrashed⟩

theorem Left.effect (h : s.Left ms) (hlocks : s.Locks) (hcurrent : s.Current) (hguards : s.Guards) (he : Plain e)
    (hcrash : ¬ Crashes (s, e)) (heffect : Effect s e s') : s'.Left ms := by
  cases heffect with
  | idle => exact h
  | replaced event => exact absurd event he.1
  | unlinked event => exact absurd event he.2.1
  | opened before => exact h.set (h.socket_ne before nofun nofun) fun _ h => by cases h
  | refused before => exact h.set (h.socket_ne before nofun nofun) fun _ h => by cases h
  | @locked i file before =>
    have hset : (s.set i (.locked file)).Left ms :=
      h.set (h.socket_ne before nofun nofun) fun _ h => by cases h
    exact ⟨hset.made, hset.lost, hset.unbound⟩
  | @bound i file before free =>
    refine ⟨fun j hj => ?_, fun hcrashed => ?_, fun j file' hrunning => ?_⟩
    · obtain rfl : i = j := Option.some.inj hj
      exact .inl ⟨file, stage_set_self⟩
    · obtain ⟨j, hj, -⟩ := h.lost hcrashed
      rw [free] at hj
      cases hj
    · by_cases hij : j = i
      · subst hij
        have hbound : (s.set j (.running file true)).stage j = .running file' false := hrunning
        rw [stage_set_self] at hbound
        cases hbound
      · exact h.unbound j file' ((stage_set_of_ne hij).symm.trans hrunning)
  | @unbound i file before possible event taken =>
    have hcrashed : Crashed ms := by
      cases possible with
      | false => exact absurd event (he.2.2 i)
      | true =>
        obtain ⟨j, hj⟩ := Option.ne_none_iff_exists'.mp fun hnone => taken ⟨rfl, hnone⟩
        rcases h.made j hj with ⟨file', hrunning⟩ | ⟨-, hcrashed⟩
        · -- The maker would hold the lock of the same file.
          have hfile : file = s.file := hcurrent i file (by rw [before]; rfl)
          have hfile' : file' = s.file := hcurrent j file' (by rw [hrunning]; rfl)
          subst hfile hfile'
          have hij : i = j := hlocks.eq (by rw [before]; rfl) (by rw [hrunning]; rfl)
          subst hij
          rw [before] at hrunning
          cases hrunning
        · exact hcrashed
    exact h.set (h.socket_ne before nofun nofun) fun _ _ => hcrashed
  | @removed i file before =>
    have hsocket : s.socket = some i := hguards i file before
    refine ⟨fun j hj => ?_, fun hcrashed => ?_, fun j file' hrunning => ?_⟩
    · cases hj
    · obtain ⟨j, hj, hended⟩ := h.lost hcrashed
      obtain rfl : i = j := Option.some.inj (hsocket.symm.trans hj)
      rw [before] at hended
      cases hended
    · by_cases hij : j = i
      · subst hij
        have hleaving : (s.set j (.leaving file)).stage j = .running file' false := hrunning
        rw [stage_set_self] at hleaving
        cases hleaving
      · exact h.unbound j file' ((stage_set_of_ne hij).symm.trans hrunning)
  | left before => exact h.set (h.socket_ne before nofun nofun) fun _ h => by cases h
  | @released i file before guard =>
    have hset : (s.set i .ended).Left ms := by
      refine h.set (h.socket_ne rfl (fun file' hrunning => hcrash (guard file' hrunning)) ?_) fun _ h => by cases h
      intro hended
      rw [hended] at before
      cases before
    exact ⟨hset.made, hset.lost, hset.unbound⟩

/-- All that a run keeps with which nobody interferes. -/
structure Kept (s : Instances) (ms : List (Instances × Event)) : Prop where
  locks : s.Locks
  current : s.Current
  guards : s.Guards
  left : s.Left ms

theorem Kept.step (h : s.Kept ms) (he : Plain e) : (s.step e).Kept (ms ++ [(s, e)]) := by
  have heffect := step_effect s e
  refine ⟨h.locks.effect heffect, h.current.effect he.1 heffect, h.guards.effect he.2.1 heffect, ?_⟩
  by_cases hcrash : Crashes (s, e)
  · obtain ⟨i, file, hkill, hbefore⟩ := hcrash
    dsimp only at hkill hbefore
    subst hkill
    have hstep : s.step (.kill i) = s.release i file := by
      dsimp only [Instances.step]
      rw [hbefore]
      rfl
    rw [hstep]
    exact left_of_crashes h.guards hbefore
  · have hleft := h.left.effect h.locks h.current h.guards he hcrash heffect
    have hiff : Crashed (ms ++ [(s, e)]) ↔ Crashed ms := by
      rw [crashed_append_iff]
      exact or_iff_left hcrash
    exact ⟨fun i hi => (hleft.made i hi).imp_right fun hend => ⟨hend.1, hiff.mpr hend.2⟩,
      fun hcrashed => hleft.lost (hiff.mp hcrashed), fun i file hrunning => hiff.mpr (hleft.unbound i file hrunning)⟩

end Socket

/-! ### Over a run -/

theorem locks_empty : empty.Locks := by
  refine fun i file => ⟨fun h => ?_, fun h => ?_⟩
  · cases h
  · cases h

theorem file_of_held {stage : Stage} {file : ℕ} (h : stage.held = some file) : stage.file = some file := by
  cases stage with
  | opened => cases h
  | _ => exact h

/-- **One instance for a file.** In every run, of any number of instances that may be killed at any time: no two are at
work with one file; unless the manifest is replaced no two are at work at all; and unless somebody else removes a socket
what an instance removes at its end is what it has made. -/
theorem instances_exclusive (run : List Event) :
    (∀ i j file, ((Runs.final step empty run).stage i).held = some file →
      ((Runs.final step empty run).stage j).held = some file → i = j) ∧
    (.replace ∉ run → ∀ i j, (Runs.final step empty run).AtWork i → (Runs.final step empty run).AtWork j → i = j) ∧
    (.unlink ∉ run → ∀ i file, (Runs.final step empty run).stage i = .running file true →
      (Runs.final step empty run).socket = some i) := by
  have hlocks : (Runs.final step empty run).Locks := by
    refine Runs.final_induction (I := Locks) (fun s e h => h.effect (step_effect s e)) ?_ run
    exact locks_empty
  refine ⟨fun i j file hi hj => hlocks.eq hi hj, fun hreplace i j hi hj => ?_, fun hunlink => ?_⟩
  · have hcurrent : (Runs.final step empty run).Current := by
      refine Runs.always_of_moves (I := Current) (C := fun _ e => e ≠ .replace)
        (fun s e h he => h.effect he (step_effect s e)) ?_ ?_ _ (Runs.final_mem_states step empty run)
      · intro i file hfile
        cases hfile
      · rintro m hm hevent
        exact hreplace (hevent ▸ Runs.mem_of_mem_moves hm)
    obtain ⟨file, hi⟩ := hi
    obtain ⟨file', hj⟩ := hj
    have hfile := hcurrent i file (file_of_held hi)
    have hfile' := hcurrent j file' (file_of_held hj)
    rw [hfile] at hi
    rw [hfile'] at hj
    exact hlocks.eq hi hj
  · refine Runs.always_of_moves (I := Guards) (C := fun _ e => e ≠ .unlink)
      (fun s e h he => h.effect he (step_effect s e)) ?_ ?_ _ (Runs.final_mem_states step empty run)
    · intro i file hrunning
      cases hrunning
    · rintro m hm hevent
      exact hunlink (hevent ▸ Runs.mem_of_mem_moves hm)

theorem kept_run {run : List Event} (hplain : ∀ e ∈ run, Plain e) :
    (Runs.final step empty run).Kept (Runs.moves step empty run) := by
  refine Runs.final_moves_induction (P := fun s ms => (∀ m ∈ ms, Plain m.2) → Kept s ms) ?_ ?_ run ?_
  · intro s ms e h hms
    rw [List.forall_mem_append] at hms
    exact (h hms.1).step (hms.2 (s, e) (List.mem_singleton_self _))
  · intro _
    refine ⟨locks_empty, fun _ _ h => ?_, fun _ _ h => ?_, ⟨fun _ h => ?_, fun h => ?_, fun _ _ h => ?_⟩⟩
    · cases h
    · cases h
    · cases h
    · obtain ⟨m, hm, -⟩ := h
      cases hm
    · cases h
  · exact fun m hm => hplain m.2 (Runs.mem_of_mem_moves hm)

/-- **After a crash there is no control socket.** As long as nobody interferes, `pipitor ctl` comes to the instance that
runs if and only if no instance with a control socket has been killed before, however long ago. -/
theorem ctl_reaches_iff {run : List Event} (hplain : ∀ e ∈ run, Plain e) {i file : ℕ} {guard : Bool}
    (hrunning : (Runs.final step empty run).stage i = .running file guard) :
    (Runs.final step empty run).Reaches i ↔ ∀ m ∈ Runs.moves step empty run, ¬ Crashes m := by
  have hkept := kept_run hplain
  constructor
  · rintro ⟨hsocket, file', hguard⟩ m hm hcrash
    obtain ⟨j, hj, hended⟩ := hkept.left.lost ⟨m, hm, hcrash⟩
    obtain rfl : i = j := Option.some.inj (hsocket.symm.trans hj)
    rw [hguard] at hended
    cases hended
  · intro hcalm
    cases guard with
    | true => exact ⟨hkept.guards i file hrunning, file, hrunning⟩
    | false =>
      obtain ⟨m, hm, hcrash⟩ := hkept.left.unbound i file hrunning
      exact absurd hcrash (hcalm m hm)

/-! ### Two instances, one after the other -/

def killedRun : List Event := [.start 0, .lock 0, .bind 0 true, .kill 0, .start 1, .lock 1, .bind 1 true]

/-- Instance 1 runs, but without a control socket. -/
theorem ctl_reaches_iff_killed : ¬ (Runs.final step empty killedRun).Reaches 1 := by
  have hplain : ∀ e ∈ killedRun, Plain e := by simp [killedRun, Plain]
  intro hreaches
  exact (ctl_reaches_iff hplain (show _ = Stage.running 0 false from rfl)).mp hreaches
    (Runs.final step empty [.start 0, .lock 0, .bind 0 true], .kill 0) (by simp [killedRun, Runs.moves, Runs.final])
    ⟨0, 0, rfl, rfl⟩

/-- A second instance does not get to work. -/
theorem instances_exclusive_second :
    ¬ (Runs.final step empty [.start 0, .lock 0, .start 1, .lock 1, .bind 0 true, .bind 1 true]).AtWork 1 := by
  intro hwork
  have heq := (instances_exclusive [.start 0, .lock 0, .start 1, .lock 1, .bind 0 true, .bind 1 true]).2.1 (by simp) 0 1
    ⟨0, rfl⟩ hwork
  cases heq

end Instances

end Pipitor.App
