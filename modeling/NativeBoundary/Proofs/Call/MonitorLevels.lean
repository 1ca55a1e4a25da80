import NativeBoundary.Proofs.Call.HeldMonitors
import NativeBoundary.Proofs.Call.MonitorBalance

/-!
# Levels of monitors, notes of them, and calls that lock them

The levels that a thread has of a monitor are set against two lists that name monitors by way of
objects: the notes of its native code, and the frames of its calls.  Later heaps read both lists in
the same way, so only an enter or an exit changes the balance.
-/

set_option autoImplicit false

namespace NativeBoundary

namespace Heap

variable {h h' : Heap} {t t' : ThreadId} {i j : MonitorId}

def levels (t : ThreadId) (i : MonitorId) (h : Heap) : Nat :=
  if (h.monitorAt i).owner = some t then (h.monitorAt i).recursion else 0

theorem levels_quiet (quiet : Quiet h h') (t : ThreadId) (i : MonitorId) :
    h'.levels t i = h.levels t i := by
  unfold levels
  rw [quiet.monitors]

theorem levels_locked (sound : Sound h) (locked : Locked t j h h') (t' : ThreadId) (i : MonitorId) :
    h'.levels t' i = h.levels t' i + if t' = t ∧ j = i then 1 else 0 := by
  unfold levels
  by_cases same : j = i
  · subst same
    obtain ⟨free, owner, recursion⟩ := Monitor.of_tryEnter (sound.monitorAt j) locked.entered
    have level : (h.monitorAt j).Level := sound.monitorAt j
    rw [owner, recursion]
    by_cases own : t' = t
    · subst own
      rcases free with none | mine
      · simp [none, level.1 none]
      · simp [mine]
    · have apart : t ≠ t' := fun equal => own equal.symm
      rcases free with none | mine
      · simp [none, own, apart]
      · simp [mine, own, apart]
  · rw [locked.others i fun equal => same equal.symm]
    simp [same]

theorem levels_unlocked (unlocked : Unlocked t j h h') (t' : ThreadId) (i : MonitorId) :
    h'.levels t' i + (if t' = t ∧ j = i then 1 else 0) = h.levels t' i := by
  unfold levels
  by_cases same : j = i
  · subst same
    obtain ⟨owner, recursion, after⟩ := Monitor.of_exit unlocked.exited
    rw [owner, after]
    by_cases own : t' = t
    · subst own
      by_cases last : (h'.monitorAt j).recursion = 0
      · simp [last, recursion]
      · simp [last, recursion]
    · have apart : t ≠ t' := fun equal => own equal.symm
      by_cases last : (h'.monitorAt j).recursion = 0
      · simp [last, own, apart]
      · simp [last, own, apart]
  · rw [unlocked.others i fun equal => same equal.symm]
    simp [same]

def noted (i : MonitorId) (h : Heap) (notes : List ObjectId) : Nat :=
  notes.countP fun o => h.monitorId? o = some i

def lockOf? (h : Heap) (frame : Frame) : Option MonitorId :=
  if frame.method.isSynchronized then h.lockMonitor? frame.method frame.receiver else none

def locking (i : MonitorId) (h : Heap) (frames : List Frame) : Nat :=
  frames.countP fun frame => h.lockOf? frame = some i

theorem locking_cons (i : MonitorId) (h : Heap) (frame : Frame) (frames : List Frame) :
    h.locking i (frame :: frames) =
      h.locking i frames + if h.lockOf? frame = some i then 1 else 0 := by
  rw [locking, List.countP_cons]
  simp [locking]

/-- What is noted, and what calls have locked, are monitors of the heap. -/
structure Known (h : Heap) (notes : List ObjectId) (frames : List Frame) : Prop where
  notes : ∀ o ∈ notes, ∃ i, h.monitorId? o = some i
  locks : ∀ frame ∈ frames, frame.method.isSynchronized = true →
    ∃ i, h.lockMonitor? frame.method frame.receiver = some i

variable {notes : List ObjectId} {frames : List Frame}

theorem lockOf?_of_leads (sound : Sound h) (leads : Leads h h') {frame : Frame}
    (known : frame.method.isSynchronized = true →
      ∃ i, h.lockMonitor? frame.method frame.receiver = some i) :
    h'.lockOf? frame = h.lockOf? frame := by
  unfold lockOf?
  by_cases locks : frame.method.isSynchronized = true
  · obtain ⟨i, found⟩ := known locks
    rw [if_pos locks, if_pos locks, found, lockMonitor?_of_leads sound leads found]
  · rw [if_neg locks, if_neg locks]

namespace Known

variable (known : Known h notes frames)
include known

theorem noted_of_leads (leads : Leads h h') (i : MonitorId) :
    h'.noted i notes = h.noted i notes := by
  refine List.countP_congr fun o member => ?_
  obtain ⟨j, found⟩ := known.notes o member
  rw [found, (Leads.extends leads).monitorId? found]

theorem locking_of_leads (sound : Sound h) (leads : Leads h h') (i : MonitorId) :
    h'.locking i frames = h.locking i frames := by
  refine List.countP_congr fun frame member => ?_
  rw [lockOf?_of_leads sound leads (known.locks frame member)]

theorem of_leads (sound : Sound h) (leads : Leads h h') : Known h' notes frames where
  notes o member := by
    obtain ⟨i, found⟩ := known.notes o member
    exact ⟨i, (Leads.extends leads).monitorId? found⟩
  locks frame member isSynchronized := by
    obtain ⟨i, found⟩ := known.locks frame member isSynchronized
    exact ⟨i, lockMonitor?_of_leads sound leads found⟩

end Known

/-- What the end of a call does to the monitors: it exits the one that its frame stands for, unless
that is not the thread's any more. -/
def Releases (t : ThreadId) (frame : Frame) (h h' : Heap) : Prop :=
  match h.lockOf? frame with
  | some j => Unlocked t j h h' ∨ (h.monitorAt j).owner ≠ some t ∧ Quiet h h'
  | none => Quiet h h'

theorem Releases.leads {frame : Frame} (releases : Releases t frame h h') : Leads h h' := by
  unfold Releases at releases
  split at releases
  · obtain unlocked | ⟨-, quiet⟩ := releases
    · exact unlocked.leads
    · exact quiet.leads
  · exact releases.leads

theorem Releases.others {frame : Frame} (releases : Releases t frame h h') (other : t' ≠ t)
    (i : MonitorId) : h'.levels t' i = h.levels t' i := by
  unfold Releases at releases
  split at releases
  · obtain unlocked | ⟨-, quiet⟩ := releases
    · simpa [other] using levels_unlocked unlocked t' i
    · exact levels_quiet quiet t' i
  · exact levels_quiet releases t' i

theorem Releases.backed {frame : Frame} {extra : Nat} (sound : Sound h)
    (known : Known h notes (frame :: frames)) (releases : Releases t frame h h')
    (before : h.noted i notes + h.locking i (frame :: frames) ≤ h.levels t i + extra) :
    h'.noted i notes + h'.locking i frames ≤ h'.levels t i + extra := by
  have rest : Known h notes frames :=
    ⟨known.notes, fun other member => known.locks other (List.mem_cons_of_mem _ member)⟩
  rw [rest.noted_of_leads releases.leads, rest.locking_of_leads sound releases.leads]
  rw [locking_cons] at before
  unfold Releases at releases
  split at releases
  · next j locks =>
    rw [locks] at before
    -- The frame that goes stood for one lock of `j`, which pays for the level that goes with it.  A
    -- thread that does not own `j` has no level of it to lose.
    obtain unlocked | ⟨foreign, quiet⟩ := releases
    · have less := levels_unlocked unlocked t i
      simp only [true_and] at less
      simp only [Option.some.injEq] at before
      omega
    · have none : h.levels t j = 0 := if_neg foreign
      rw [levels_quiet quiet]
      by_cases here : j = i
      · subst here
        omega
      · omega
  · rw [levels_quiet releases]
    omega

theorem noted_eraseLast {o : ObjectId} (found : h.monitorId? o = some j) (i : MonitorId)
    (some : h.noted j notes ≠ 0) :
    h.noted i (Thread.eraseLast (h.sameMonitor o) notes) + (if j = i then 1 else 0) =
      h.noted i notes := by
  have member : ∃ p ∈ notes.reverse, h.sameMonitor o p = true := by
    obtain ⟨p, member, same⟩ := List.countP_pos_iff.1 (Nat.pos_of_ne_zero some)
    refine ⟨p, List.mem_reverse.2 member, ?_⟩
    rw [decide_eq_true_eq] at same
    rw [sameMonitor, found, same, decide_eq_true rfl]
  obtain ⟨p, member, same⟩ := member
  obtain ⟨q, after, before, -, sameMonitor, split, erased⟩ := List.exists_of_eraseP member same
  have monitor : h.monitorId? q = Option.some j := by
    rw [← found]
    exact (of_decide_eq_true sameMonitor).symm
  have whole : h.noted i notes = h.noted i notes.reverse := by
    rw [noted, noted, List.countP_reverse]
  rw [whole, noted, Thread.eraseLast, List.countP_reverse, erased, noted, split]
  by_cases here : j = i
  · simp [here, monitor]
    omega
  · simp [here, monitor]

end Heap

end NativeBoundary
