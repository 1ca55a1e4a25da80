import Mathlib.Data.List.Nodup
import NativeBoundary.Proofs.Call.Lasting
import NativeBoundary.Proofs.Machine.Balance

/-!
# Shares through histories

A history is a list of operations of any number of threads, each of them carried out to its end
before the next, but for a thread that has to wait for a monitor: that one is in the middle of its
operation until the waiting is joined.  The roll of a history says who is attached after it and who
of them waits; it is written from the operations alone.  Whatever the history, a thread that does
not wait has a share exactly while it is managed, and the lock counts the shares.
-/

set_option autoImplicit false

namespace NativeBoundary

/-! ## Operations -/

/-- One operation.  A call can be a single operation, or the two that it begins and ends with, for
other threads to do something while its body runs. -/
inductive Operation where
  | attach (name : String)
  | detach (t : ThreadId)
  | toNative (t : ThreadId)
  | toManaged (t : ThreadId)
  | checkSuspend (t : ThreadId)
  | cross (t : ThreadId) (passage : Passage ObjectId Handle ScopeMark Method Registers)
  | invoke (t : ThreadId) (method : Method) (receiver : Option ObjectId)
      (body : List Instruction) (registers : Registers)
  | enter (t : ThreadId) (method : Method) (receiver : Option ObjectId)
  | leave (t : ThreadId) (method : Method) (saved : ScopeMark) (registers : Registers)
  /-- An instruction of the native code between the two. -/
  | native (t : ThreadId) (instruction : Instruction)
  | enterMonitor (t : ThreadId) (object : ObjectId)
  | exitMonitor (t : ThreadId) (object : ObjectId)
  | requestPause (reason : PauseReason)
  | beginPause (reason : PauseReason)
  | endPause
  | contend (object : ObjectId)
  | joinWaiting
  | heap (step : HeapStep)

namespace Operation

def actor? : Operation → Option ThreadId
  | detach t | toNative t | toManaged t | checkSuspend t | cross t _ | invoke t _ _ _ _
  | enter t _ _ | leave t _ _ _ | native t _ | enterMonitor t _ | exitMonitor t _ => some t
  | attach _ | requestPause _ | beginPause _ | endPause | contend _ | joinWaiting | heap _ => none

def isSingle : Operation → Bool
  | toNative _ | toManaged _ | checkSuspend _ | cross _ _ => true
  | _ => false

def perform (b : Boundary) : Operation → Call Unit
  | attach name => do
    let _ ← Call.machine (Machine.attach name)
  | detach t => Call.machine (Machine.detach t)
  | toNative t => Call.machine (Machine.toNative t)
  | toManaged t => Call.machine (Machine.toManaged t)
  | checkSuspend t => Call.machine (Machine.checkSuspend t)
  | cross t passage => do
    let _ ← passage.run (Machine.host t) b
  | invoke t method receiver body registers => do
    let _ ← Call.invoke b t method receiver body registers
  | enter t method receiver => do
    let _ ← Call.enter b t method receiver
  | leave t method saved registers => do
    let _ ← Call.leave b t method saved registers
  | native t instruction => Call.perform b t instruction
  | enterMonitor t o => Call.machine (Machine.enterMonitor t o)
  | exitMonitor t o => do
    let _ ← Call.machine (Machine.exitMonitor t o)
  | requestPause reason => Call.machine (modify (Machine.requestPause reason))
  | beginPause reason => Call.machine (Machine.beginPause reason)
  | endPause => Call.machine (modify Machine.endPause)
  | contend o => Call.machine (Machine.contend o)
  | joinWaiting => do
    let _ ← Call.machine Machine.joinWaiting
  | heap step => Call.machine (Machine.changeHeap fun h => h.step step)

def performAll (b : Boundary) : List Operation → Call Unit
  | [] => pure ()
  | first :: rest => do
    first.perform b
    performAll b rest

end Operation

/-! ## The roll of a history -/

namespace Roll

def after (r : Roll) : Operation → Roll
  | .attach _ => { r with attached := r.attached ++ [⟨r.next⟩], next := r.next + 1 }
  | .detach t => { r with attached := r.attached.filter fun other => other ≠ t }
  | .contend _ =>
    { attached := r.attached ++ [⟨r.next⟩]
      waiting := r.waiting ++ [⟨r.next⟩]
      next := r.next + 1 }
  | .joinWaiting =>
    { r with attached := r.attached.filter fun t => t ∉ r.waiting, waiting := [] }
  | _ => r

def Admits (r : Roll) (operation : Operation) : Prop :=
  ∀ t ∈ operation.actor?, r.Present t

instance (r : Roll) (operation : Operation) : Decidable (r.Admits operation) :=
  inferInstanceAs (Decidable (∀ t ∈ operation.actor?, r.Present t))

def AdmitsAll (r : Roll) : List Operation → Prop
  | [] => True
  | first :: rest => r.Admits first ∧ (r.after first).AdmitsAll rest

instance decidableAdmitsAll : (r : Roll) → (history : List Operation) →
    Decidable (r.AdmitsAll history)
  | _, [] => isTrue trivial
  | r, first :: rest =>
    have := decidableAdmitsAll (r.after first) rest
    inferInstanceAs (Decidable (r.Admits first ∧ (r.after first).AdmitsAll rest))

end Roll

/-! ## One operation -/

section Histories

open Crossing (state_of_run)

variable {t : ThreadId} {r : Roll} {b : Boundary} {w w' : MachineWorld} {u : Unit}

theorem Machine.tallies_updateThread {m : Machine} {change : Thread → Thread}
    (tallies : m.ledger.Tallies r)
    (unseen : ∀ thread, (change thread).standing = thread.standing) :
    (m.updateThread t change).ledger.Tallies r := by
  rwa [ledger_updateThread_of_same change unseen]

theorem Machine.lasts_tallies (present : r.Present t) :
    Machine.Lasts t fun m => m.ledger.Tallies r where
  deed := host_keeps_tallies present
  pushed frame m tallies := tallies_updateThread tallies fun _ => rfl
  popped m tallies := tallies_updateThread tallies fun _ => rfl
  plain first m m' tallies does := by
    cases first with
    | call method receiver body registers => exact does.elim
    | newObject className =>
      obtain ⟨handle, adding⟩ := does
      rw [← (addLocal_eq_ok.1 adding).2]
      exact tallies_updateThread (m := { m with heap := (m.heap.allocate className).2 }) tallies
        fun _ => rfl
    | newLocal o =>
      obtain ⟨handle, adding⟩ := does
      rw [← (addLocal_eq_ok.1 adding).2]
      exact tallies_updateThread tallies fun _ => rfl
    | throw exception =>
      rw [← does]
      exact tallies_updateThread tallies fun _ => rfl
    | heap step =>
      rw [← does]
      exact tallies
    | enterMonitor o => exact ledger_of_nativeEnter does ▸ tallies
    | exitMonitor o => exact ledger_of_nativeExitOrThrow does ▸ tallies
    | toManaged => exact tallies_of_toManaged tallies present does
    | toNative => exact tallies_of_toNative tallies present does

/-- An operation that is admitted and carried out leaves the ledger in order. -/
theorem Operation.tallies_of_perform {operation : Operation} (tallies : w.state.ledger.Tallies r)
    (admitted : r.Admits operation) (run : operation.perform b w = .ok u w') :
    w'.state.ledger.Tallies (r.after operation) := by
  have numbered : w.state.nextThread = r.next := tallies.next
  cases operation with
  | attach name =>
    obtain ⟨t, attached⟩ := Act.drop_eq_ok.1 run
    obtain ⟨rfl, arrival, balanced⟩ :=
      Machine.balanced_of_attach tallies.balanced (state_of_run attached)
    rw [numbered] at balanced
    refine ⟨balanced, ?_, ?_⟩
    · exact (congrArg Ledger.waiting arrival).trans tallies.waiting
    · exact (congrArg Ledger.next arrival).trans (congrArg (· + 1) tallies.next)
  | detach t =>
    obtain ⟨named, here⟩ := admitted t rfl
    have gone := Machine.ledger_of_detach (state_of_run run)
    refine ⟨Machine.balanced_of_detach tallies.balanced named here (state_of_run run), ?_, ?_⟩
    · exact (congrArg Ledger.waiting gone).trans tallies.waiting
    · exact (congrArg Ledger.next gone).trans tallies.next
  | toNative t => exact Machine.tallies_of_toNative tallies (admitted t rfl) (state_of_run run)
  | toManaged t => exact Machine.tallies_of_toManaged tallies (admitted t rfl) (state_of_run run)
  | checkSuspend t =>
    have same :=
      Machine.ledger_of_suspended tallies.balanced (admitted t rfl).1 (state_of_run run)
    exact same ▸ tallies
  | cross t passage =>
    obtain ⟨_, crossed⟩ := Act.drop_eq_ok.1 run
    exact (passage.run_keeps b (Machine.host_keeps_tallies (admitted t rfl))).of_ok crossed tallies
  | invoke t method receiver body registers =>
    obtain ⟨_, invoked⟩ := Act.drop_eq_ok.1 run
    exact Call.invoke_lasts (Machine.lasts_tallies (admitted t rfl)) invoked tallies
  | enter t method receiver =>
    obtain ⟨_, entered⟩ := Act.drop_eq_ok.1 run
    exact Call.enter_lasts (Machine.lasts_tallies (admitted t rfl)) entered tallies
  | leave t method saved registers =>
    obtain ⟨_, left⟩ := Act.drop_eq_ok.1 run
    exact Call.leave_lasts (Machine.lasts_tallies (admitted t rfl)) left tallies
  | native t instruction =>
    exact Call.perform_lasts (Machine.lasts_tallies (admitted t rfl)) run tallies
  | enterMonitor t o => exact Machine.ledger_of_enterMonitor (state_of_run run) ▸ tallies
  | exitMonitor t o =>
    obtain ⟨_, exited⟩ := Act.drop_eq_ok.1 run
    exact Machine.ledger_of_exitMonitor (state_of_run exited) ▸ tallies
  | requestPause reason =>
    have asked := Act.modify_eq_ok.1 (state_of_run run)
    rw [← asked]
    exact (Machine.ledger_requestPause reason).symm ▸ tallies
  | beginPause reason => exact Machine.ledger_of_beginPause (state_of_run run) ▸ tallies
  | endPause =>
    have ended := Act.modify_eq_ok.1 (state_of_run run)
    rw [← ended]
    exact Machine.ledger_endPause.symm ▸ tallies
  | contend o =>
    obtain ⟨balanced, waiting, next⟩ :=
      Machine.balanced_of_contend tallies.balanced (state_of_run run)
    rw [numbered] at balanced waiting
    refine ⟨balanced, ?_, next.trans (congrArg (· + 1) tallies.next)⟩
    exact waiting.trans (congrArg (· ++ _) tallies.waiting)
  | joinWaiting =>
    obtain ⟨_, joined⟩ := Act.drop_eq_ok.1 run
    obtain ⟨balanced, waiting, next⟩ :=
      Machine.balanced_of_joinWaiting (tallies.waiting.symm ▸ tallies.balanced)
        (state_of_run joined)
    rw [tallies.waiting] at balanced
    exact ⟨balanced, waiting, next.trans tallies.next⟩
  | heap step =>
    have stepped : Machine.changeHeap (fun h => h.step step) w.state = .ok u w'.state :=
      state_of_run run
    rw [← Act.modify_eq_ok.1 stepped]
    exact tallies

/-- Where a single operation is stopped for a thread in the wrong place, the ledger is the same as
before. -/
theorem Operation.ledger_of_stopped {operation : Operation} {why : Halt}
    (tallies : w.state.ledger.Tallies r) (single : operation.isSingle = true)
    (admitted : r.Admits operation) (stopped : operation.perform b w = .error why w')
    (misplaced : why.isMisplaced = true) : w'.state.ledger = w.state.ledger := by
  have machine {action : Act Machine Unit} (stopped : Call.machine action w = .error why w') :
      action w.state = .error why w'.state := by
    unfold Call.machine Crossing.run at stopped
    cases result : action w.state with
    | ok a m =>
      rw [result] at stopped
      cases stopped
    | error other m =>
      rw [result] at stopped
      cases stopped
      rfl
  cases operation with
  | toNative t =>
    obtain ⟨named, here⟩ := admitted t rfl
    exact Machine.toNative_stops tallies.balanced named here (machine stopped)
  | toManaged t => rw [Machine.toManaged_stops (machine stopped)]
  | checkSuspend t =>
    rw [Machine.checkSuspend_stops (machine stopped)] at misplaced
    cases misplaced
  | cross t passage =>
    obtain ⟨named, here⟩ := admitted t rfl
    have spares := passage.run_spares b (Machine.host_guards tallies.balanced named here)
    cases crossing : passage.run (Machine.host t) b w with
    | ok a crossed => cases (Act.bind_of_ok crossing).symm.trans stopped
    | error other crossed =>
      cases (Act.bind_of_error crossing).symm.trans stopped
      exact spares.of_error rfl crossing misplaced
  | _ => cases single

/-! ## Histories -/

theorem Operation.tallies_of_performAll (history : List Operation) :
    ∀ {r : Roll} {w w' : MachineWorld}, w.state.ledger.Tallies r → r.AdmitsAll history →
      performAll b history w = .ok u w' → w'.state.ledger.Tallies (history.foldl Roll.after r) := by
  induction history with
  | nil =>
    intro r w w' tallies _ run
    obtain ⟨-, rfl⟩ := Act.pure_eq_ok.1 run
    exact tallies
  | cons first rest ih =>
    intro r w w' tallies admitted run
    obtain ⟨_, between, performed, run⟩ := Act.bind_eq_ok.1 run
    exact ih (tallies_of_perform tallies admitted.1 performed) admitted.2 run

theorem Ledger.tallies_fresh (heap : Heap) (registry : Registry) :
    ({ heap, registry } : Machine).ledger.Tallies {} where
  balanced := ⟨rfl, .nil, nofun, .nil, nofun, nofun, rfl⟩
  waiting := rfl
  next := rfl

/-- After every history from a fresh machine, and so after each of its operations, the threads on
the roll are attached and no others, all that do not wait have a share exactly while they are
managed, and the lock counts the shares, which are as many as there are managed threads that do not
wait.  And where a single change of state, or a single use of the boundary, is stopped for a thread
in the wrong place, it has changed nothing of this. -/
theorem share_exactly_while_managed (history : List Operation) {heap : Heap} {registry : Registry}
    {w₀ : MachineWorld} (fresh : w₀.state = { heap, registry })
    (admitted : Roll.AdmitsAll {} history) (run : Operation.performAll b history w₀ = .ok u w) :
    let roll := history.foldl Roll.after {}
    w.state.threads.map Thread.id = roll.attached ∧ roll.attached.Nodup ∧
      (∀ thread ∈ w.state.threads, thread.id ∉ roll.waiting →
        (thread.holdsShare = true ↔ thread.state = .managed)) ∧
      w.state.lock.claims = w.state.threads.countP Thread.holdsShare ∧
      w.state.countInState .managed = w.state.lock.claims + roll.waiting.length ∧
      ∀ (operation : Operation) (why : Halt) (w' : MachineWorld), operation.isSingle = true →
        roll.Admits operation → operation.perform b w = .error why w' →
        why.isMisplaced = true → w'.state.ledger = w.state.ledger := by
  intro roll
  have tallies : w.state.ledger.Tallies roll :=
    Operation.tallies_of_performAll history (fresh ▸ Ledger.tallies_fresh heap registry) admitted
      run
  have balanced := tallies.balanced
  refine ⟨?_, balanced.distinct, ?_, ?_, ?_, ?_⟩
  · have listed := balanced.listed
    rwa [Machine.ledger, List.map_map] at listed
  · intro thread attached here
    exact (balanced.fits thread.standing (List.mem_map_of_mem attached)).2 here
  · have counted := balanced.claims
    rwa [Machine.ledger, List.countP_map] at counted
  · have counted := balanced.countP_managed
    rwa [Machine.ledger, List.countP_map] at counted
  · intro operation why w' single present stopped misplaced
    exact Operation.ledger_of_stopped tallies single present stopped misplaced

/-- A thread locks an object that a further one waits for, and a second thread goes to native code.
A pause takes its turn in a suspend check of the first, which then calls native code. -/
def whileOneWaits : List Operation :=
  [ .attach "main", .attach "second", .heap (.allocate "Lock"), .cross ⟨1⟩ (.lock ⟨0⟩),
    .contend ⟨0⟩, .toNative ⟨2⟩, .requestPause .garbageCollection, .checkSuspend ⟨1⟩,
    .invoke ⟨1⟩ { className := "Lock", name := "touch", shorty := "V", tier := .normal } none
      [.enterMonitor ⟨0⟩, .exitMonitor ⟨0⟩] {} ]

def nobodyWaits : List Operation :=
  whileOneWaits ++ [.cross ⟨1⟩ (.unlock ⟨0⟩), .joinWaiting, .detach ⟨2⟩]

theorem share_exactly_while_managed_one_waits :
    (∃ w, Operation.performAll {} whileOneWaits { state := {} } = .ok () w ∧
      w.state.lock.pauses = 1 ∧ w.state.lock.claims = 1 ∧ w.state.countInState .managed = 2 ∧
      ∃ w', (Operation.cross ⟨2⟩ (.beginNormal none false)).perform {} w =
        .error (.defect .startOutsideManaged) w' ∧ w'.state.ledger = w.state.ledger) ∧
    ∃ w, Operation.performAll {} nobodyWaits { state := {} } = .ok () w ∧
      w.state.threads.map Thread.id = [⟨1⟩] ∧
      w.state.countInState .managed = w.state.lock.claims := by
  constructor
  · have outcome : (Operation.performAll {} whileOneWaits).returns { state := {} } = true := by
      decide +kernel
    obtain ⟨_, w, run⟩ := Act.exists_of_returns outcome
    obtain ⟨-, -, -, -, managed, spared⟩ :=
      share_exactly_while_managed whileOneWaits rfl (by decide) run
    have counts : (Act.stateOf (Operation.performAll {} whileOneWaits { state := {} })).state.lock =
        { claims := 1, pauses := 1, suspendChecks := 1 } := by
      decide +kernel
    have halted : ((Operation.cross ⟨2⟩ (.beginNormal none false)).perform {}).halt?
        (Act.stateOf (Operation.performAll {} whileOneWaits { state := {} })) =
          some (.defect .startOutsideManaged) := by
      decide +kernel
    rw [run] at counts halted
    obtain ⟨w', stopped⟩ := Act.error_of_halt? halted
    refine ⟨w, run, ?_, ?_, ?_, w', stopped, ?_⟩
    · exact congrArg MutatorLock.pauses counts
    · exact congrArg MutatorLock.claims counts
    · rw [managed, show w.state.lock.claims = 1 from congrArg MutatorLock.claims counts]
      decide
    · exact spared _ _ w' rfl (by decide) stopped rfl
  · have outcome : (Operation.performAll {} nobodyWaits).returns { state := {} } = true := by
      decide +kernel
    obtain ⟨_, w, run⟩ := Act.exists_of_returns outcome
    obtain ⟨attached, -, -, -, managed, -⟩ :=
      share_exactly_while_managed nobodyWaits rfl (by decide) run
    have roll : nobodyWaits.foldl Roll.after {} = { attached := [⟨1⟩], next := 4 } := by decide
    rw [roll] at attached managed
    exact ⟨w, run, attached, managed⟩

end Histories

end NativeBoundary
