import NativeBoundary.Proofs.Call.Lasting
import NativeBoundary.Proofs.Interleaving.Alone

/-!
# Calls among the interleavings

Whatever a call of a native method does to the machine, at its thresholds, in its body and in the
calls in the body, is one errand of the calling thread after the other.  So a call that returns is a
run of that one thread among the interleavings, whatever pauses there are, and leaves the same
machine.
-/

set_option autoImplicit false

namespace NativeBoundary

def Move.IsOf (t : ThreadId) : Move → Prop
  | .start other _ | .advance other => other = t
  | .attach _ | .request _ | .proceed _ | .collect _ _ => False

namespace Concurrent

/-- By moves of one thread, which has nothing more to do then. -/
structure Alone (t : ThreadId) (s s' : Concurrent) : Prop where
  moves : ∃ moves : List Move, (∀ move ∈ moves, move.IsOf t) ∧ s.run moves = some s'
  idle : s'.remaining t = []
  others : ∀ other, other ≠ t → s'.remaining other = s.remaining other
  pauses : s'.pauses = s.pauses

/-- A machine that one thread arrives at alone.  The thread is attached, and no pause waits for the
lock. -/
structure Reaches (t : ThreadId) (s : Concurrent) (m : Machine) : Prop where
  alone : ∃ s', Alone t s s' ∧ s'.machine = m
  attached : ∃ thread, m.thread? t = some thread
  nobody : m.lock.parked = 0

variable {s s' : Concurrent} {m m' : Machine} {t : ThreadId} {thread : Thread} {o : ObjectId}

/-! ## What a thread that stays attached leaves as it is -/

theorem atom_stays {first : Atom} {more : List Atom} (stays : first ≠ .dismiss)
    (attached : m.thread? t = some thread) (done : atom m t first = some (m', more)) :
    m'.lock.parked = m.lock.parked ∧ (∃ thread, m'.thread? t = some thread) ∧
      .dismiss ∉ more := by
  cases does_of_atom done with
  | store state | keep unasked | release =>
    exact ⟨rfl, ⟨_, attached_updateThread attached _ fun _ => rfl⟩, by simp⟩
  | claim granted | count | enter o monitor granted | got o monitor granted =>
    exact ⟨rfl, ⟨thread, attached⟩, by simp⟩
  | giveBack asked | stepAside o monitor refused holds | waitOn o monitor refused free =>
    exact ⟨rfl, ⟨thread, attached⟩, by simp [acquiring]⟩
  | serve service left m' run =>
    obtain ⟨lock, -, change, alike, threads⟩ := served_of_serve run
    have now : m'.thread? t = some (change thread) := by
      rw [← attached_updateThread attached change fun thread => (alike thread).id]
      simp only [Machine.thread?, threads]
    exact ⟨congrArg MutatorLock.parked lock, ⟨_, now⟩, by simp⟩
  | dismiss => exact absurd rfl stays

theorem Finishes.stays {steps : List Atom} (finishes : Finishes t m steps m')
    (stays : .dismiss ∉ steps) (attached : m.thread? t = some thread) :
    m'.lock.parked = m.lock.parked ∧ ∃ thread, m'.thread? t = some thread := by
  induction finishes generalizing thread with
  | rest m => exact ⟨rfl, thread, attached⟩
  | step done later ih =>
    rw [List.mem_cons, not_or] at stays
    obtain ⟨parked, ⟨_, now⟩, none⟩ := atom_stays (Ne.symm stays.1) attached done
    obtain ⟨parked', still⟩ := ih (by simp [none, stays.2]) now
    exact ⟨parked'.trans parked, still⟩

theorem dismiss_notMem_stepsOf {errand : Errand} {steps : List Atom} (stays : errand ≠ .detach)
    (planned : stepsOf thread errand = some steps) : .dismiss ∉ steps := by
  cases errand with
  | detach => exact absurd rfl stays
  | toNative | toManaged | checkSuspend =>
    simp only [stepsOf] at planned
    split at planned <;> cases planned <;> simp [acquiring]
  | enterMonitor o | nativeEnter o | serve service =>
    cases planned
    simp

/-! ## One errand after the other -/

namespace Reaches

theorem here (attached : s.machine.thread? t = some thread) (idle : s.remaining t = [])
    (nobody : s.machine.lock.parked = 0) : Reaches t s s.machine where
  alone := ⟨s, ⟨⟨[], by simp, rfl⟩, idle, fun _ _ => rfl, rfl⟩, rfl⟩
  attached := ⟨thread, attached⟩
  nobody := nobody

theorem errand (reaches : Reaches t s m) (errand : Errand) (stays : errand ≠ .detach)
    (run : errand.operation t m = .ok () m') : Reaches t s m' := by
  obtain ⟨⟨s', ⟨⟨moves, own, ran⟩, idle, others, pauses⟩, rfl⟩, ⟨thread, attached⟩, nobody⟩ :=
    reaches
  obtain ⟨steps, planned, finishes⟩ := (finishes_errand attached nobody).2 run
  obtain ⟨parked, still⟩ :=
    finishes.stays (dismiss_notMem_stepsOf stays planned) attached
  obtain ⟨count, further⟩ := run_of_finishes finishes s'
  refine ⟨⟨(s'.withMachine m').plan t [], ⟨?_, remaining_plan _ _ _, ?_, pauses⟩, rfl⟩, still,
    parked.trans nobody⟩
  · refine ⟨moves ++ .start t errand :: List.replicate count (.advance t), ?_, ?_⟩
    · intro move member
      rcases List.mem_append.1 member with member | member
      · exact own move member
      · rcases List.mem_cons.1 member with rfl | member
        · rfl
        · obtain rfl := List.eq_of_mem_replicate member
          rfl
    · rw [run_append, ran, Option.bind_some, run_cons (start_of_idle attached idle planned)]
      exact further
  · intro other different
    rw [remaining_plan_of_ne different]
    exact others other different

theorem serve (reaches : Reaches t s m) (service : Service)
    (finishes : Finishes t m [.serve service] m') : Reaches t s m' :=
  reaches.errand (.serve service) nofun (finishes_service.1 finishes)

end Reaches

/-! ## Calls -/

theorem keeps_reaches (s : Concurrent) (deed : Deed ObjectId Throwable) :
    (Machine.host t).Keeps (Reaches t s) deed := by
  refine .of_does fun m m' reaches does => ?_
  cases deed with
  | toNative => exact reaches.errand .toNative nofun does
  | toManaged => exact reaches.errand .toManaged nofun does
  | checkSuspend => exact reaches.errand .checkSuspend nofun does
  | takePending =>
    obtain rfl := does
    exact reaches.serve .clearPending ((finishes_whole rfl).2 ⟨(), rfl⟩)
  | setPending exception =>
    obtain rfl := does
    exact reaches.serve (.throw exception) ((finishes_whole rfl).2 ⟨(), rfl⟩)
  | setScopeBase mark =>
    obtain rfl := does
    exact reaches.serve (.setScopeBase mark) ((finishes_whole rfl).2 ⟨(), rfl⟩)
  | setScopeTop mark =>
    obtain rfl := does
    exact reaches.serve (.setScopeTop mark) ((finishes_whole rfl).2 ⟨(), rfl⟩)
  | pushHandle o =>
    obtain rfl := does
    exact reaches.serve (.pushHandle o) ((finishes_whole rfl).2 ⟨(), rfl⟩)
  | popHandle =>
    obtain rfl := does
    exact reaches.serve .popHandle ((finishes_whole rfl).2 ⟨(), rfl⟩)
  | enterMonitor o =>
    obtain ⟨_, run⟩ := does
    exact reaches.errand (.enterMonitor o) nofun (Machine.host_enterMonitor_eq_ok.1 run).2.2
  | exitMonitor o =>
    obtain ⟨_, run⟩ := does
    exact reaches.serve (.exitMonitor o) ((finishes_whole rfl).2 ⟨_, run⟩)
  | lockObject method =>
    obtain ⟨found, run⟩ := does
    have outcome := Machine.lockObject_eq_ok.1 run
    split at outcome
    · obtain ⟨-, rfl⟩ := outcome
      exact reaches.serve (.heap (.classObject method.className))
        ((finishes_whole rfl).2 ⟨(), rfl⟩)
    · obtain ⟨-, rfl⟩ := outcome
      exact reaches
  | checkResult method result =>
    exact reaches.serve (.checkResult method result) ((finishes_whole rfl).2 ⟨(), does⟩)
  | currentCopy o =>
    obtain ⟨_, run⟩ := does
    exact reaches.serve (.currentCopy o) ((finishes_whole rfl).2 ⟨_, run⟩)
  | _ =>
    obtain rfl := does
    exact reaches

theorem reaches_of_does {first : Instruction} (reaches : Reaches t s m)
    (does : first.Does t m m') : Reaches t s m' := by
  cases first with
  | call method receiver body registers => exact does.elim
  | newObject className =>
    obtain ⟨handle, added⟩ := does
    have run : Machine.newObject t className m = .ok handle m' :=
      Act.bind_eq_ok.2 ⟨_, _, rfl, added⟩
    exact reaches.errand (.serve (.newObject className)) nofun (Act.drop_eq_ok.2 ⟨handle, run⟩)
  | newLocal o =>
    obtain ⟨handle, added⟩ := does
    exact reaches.serve (.addLocal o) ((finishes_whole rfl).2 ⟨handle, added⟩)
  | throw exception =>
    obtain rfl := does
    exact reaches.serve (.throw exception) ((finishes_whole rfl).2 ⟨(), rfl⟩)
  | enterMonitor o => exact reaches.errand (.nativeEnter o) nofun does
  | exitMonitor o => exact reaches.serve (.nativeExit o) (finishes_nativeExit.2 does)
  | heap step =>
    obtain rfl := does
    exact reaches.serve (.heap step) ((finishes_whole rfl).2 ⟨(), rfl⟩)
  | toManaged => exact reaches.errand .toManaged nofun does
  | toNative => exact reaches.errand .toNative nofun does

theorem lasts_reaches (s : Concurrent) : Machine.Lasts t (Reaches t s) where
  deed := keeps_reaches s
  pushed frame _ reaches := reaches.serve (.pushFrame frame.method frame.receiver)
    ((finishes_whole rfl).2 ⟨(), rfl⟩)
  popped _ reaches := reaches.serve .popFrame ((finishes_whole rfl).2 ⟨(), rfl⟩)
  plain _ _ _ := reaches_of_does

end Concurrent

namespace Call

open Concurrent (Alone Reaches lasts_reaches)

variable {b : Boundary} {t : ThreadId} {w w' : MachineWorld} {s : Concurrent} {thread : Thread}

/-- A body that returns is a run of its thread alone, whatever the calls in it. -/
theorem performAll_alone {body : List Instruction} {u : Unit}
    (attached : s.machine.thread? t = some thread) (idle : s.remaining t = [])
    (nobody : s.machine.lock.parked = 0) (same : w.state = s.machine)
    (run : performAll b t body w = .ok u w') :
    ∃ s', Alone t s s' ∧ s'.machine = w'.state :=
  (performAll_lasts (lasts_reaches s) body run (same ▸ .here attached idle nobody)).alone

/-- A call that returns is a run of its thread alone. -/
theorem invoke_alone {method : Method} {receiver : Option ObjectId} {body : List Instruction}
    {registers : Registers} {result : CallResult ObjectId}
    (attached : s.machine.thread? t = some thread) (idle : s.remaining t = [])
    (nobody : s.machine.lock.parked = 0) (same : w.state = s.machine)
    (run : invoke b t method receiver body registers w = .ok result w') :
    ∃ s', Alone t s s' ∧ s'.machine = w'.state :=
  (invoke_lasts (lasts_reaches s) run (same ▸ .here attached idle nobody)).alone

end Call

end NativeBoundary
