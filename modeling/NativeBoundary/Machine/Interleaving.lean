import NativeBoundary.Machine.NativeCode

/-!
# Interleavings

The same machine with all threads and all pauses at work at once.  A thread that sets out to do
something is given a list of atomic steps; a pause goes from one phase to the next.  At every
moment any thread or any pause may take its next step, if nothing keeps it waiting: a share is
granted unless a pause has reserved the lock, a pause gets the lock when no share is out, and a
monitor is given to a waiting thread when nobody owns it.

Calls of native methods are not spelt out: what happens at their thresholds and in their bodies is
one errand after the other, and a thread may run errands in any order.
-/

set_option autoImplicit false

namespace NativeBoundary

/-- What the runtime does for a thread in one go, whether the thread has a share or not.  Some
services leave a further one to be done. -/
inductive Service where
  | heap (step : HeapStep)
  /-- Allocates an instance of a class, and leaves a local reference to be added. -/
  | newObject (className : String)
  /-- Gets the class object of a method, and leaves the method to be entered in the registry. -/
  | register (method : Method)
  | enlist (method : Method) (root : ObjectId)
  | currentCopy (object : ObjectId)
  | checkResult (method : Method) (result : Option ObjectId)
  | addLocal (object : ObjectId)
  | setScopeTop (mark : ScopeMark)
  | setScopeBase (mark : ScopeMark)
  | pushHandle (object : ObjectId)
  | popHandle
  | pushFrame (method : Method) (receiver : Option ObjectId)
  | popFrame
  | throw (exception : Throwable)
  | clearPending
  | exitMonitor (object : ObjectId)
  /-- Exits a monitor on behalf of native code, and leaves the note of it to be struck out, or the
  misuse to be thrown. -/
  | nativeExit (object : ObjectId)
  /-- Notes a monitor that native code has entered. -/
  | note (object : ObjectId)
  | strike (object : ObjectId)
  deriving DecidableEq

namespace Machine

def whole {α : Type} (action : Act Machine α) : Act Machine (List Service) := do
  let _ ← action
  pure []

/-- Renders a service, and gives what is left to be done. -/
def serve (t : ThreadId) : Service → Act Machine (List Service)
  | .heap step => whole (changeHeap fun h => h.step step)
  | .newObject className => do
    let o ← onHeap fun h => h.allocate className
    pure [.addLocal o]
  | .register method => do
    let root ← onHeap fun h => h.classObject method.className
    pure [.enlist method root]
  | .enlist method root => whole (enlist method root)
  | .currentCopy o => whole (currentCopy o)
  | .checkResult method result => whole (checkResult method result)
  | .addLocal o => whole (addLocal t o)
  | .setScopeTop mark => whole (modify ((host t).setScopeTop mark))
  | .setScopeBase mark => whole (modify ((host t).setScopeBase mark))
  | .pushHandle o => whole (modify ((host t).pushHandle o))
  | .popHandle => whole (modify fun m => ((host t).popHandle m).2)
  | .pushFrame method receiver => whole (pushFrame t method receiver)
  | .popFrame => whole (popFrame t)
  | .throw exception => whole (throwing t exception)
  | .clearPending => whole (modify (host t).clearPending)
  | .exitMonitor o => whole (exitMonitor t o)
  | .nativeExit o => do
    let exited ← exitMonitor t o
    pure [match exited with
      | .ok () => .strike o
      | .error exception => .throw exception]
  | .note o => whole (modify (updateThread t fun thread =>
      { thread with nativeMonitors := thread.nativeMonitors ++ [o] }))
  | .strike o => whole (modify fun m => m.updateThread t fun thread =>
      { thread with
        nativeMonitors := Thread.eraseLast (m.heap.sameMonitor o) thread.nativeMonitors })

end Machine

inductive Atom where
  | store (state : ThreadState)
  /-- Takes a share of the lock. -/
  | claim
  /-- Keeps the share, or gives it back to try again if the thread is asked to suspend. -/
  | keep
  /-- Gives the share back. -/
  | release
  /-- Counts a suspend check. -/
  | count
  /-- Enters a monitor at once, or sets out to wait for it without a share. -/
  | tryEnter (object : ObjectId)
  /-- Gets a monitor that was waited for. -/
  | wait (object : ObjectId)
  | serve (service : Service)
  /-- Leaves the list of attached threads. -/
  | dismiss
  deriving DecidableEq

inductive Errand where
  | toNative
  | toManaged
  | checkSuspend
  | enterMonitor (object : ObjectId)
  /-- Enters a monitor on behalf of native code. -/
  | nativeEnter (object : ObjectId)
  | serve (service : Service)
  | detach
  deriving DecidableEq

inductive PausePhase where
  /-- Reason and pending flag are set. -/
  | announced
  /-- Every suspend request is set. -/
  | raised
  /-- No further share is granted. -/
  | reserved
  | running
  /-- The pause is counted, and every suspend request is cleared. -/
  | lowered
  /-- Reason and pending flag are cleared. -/
  | retracted
  deriving DecidableEq

structure PauseRequest where
  reason : PauseReason
  phase : PausePhase
  deriving DecidableEq

/-- A machine with everything that is under way. -/
structure Concurrent where
  machine : Machine := {}
  /-- What threads still have to do of what they set out to do. -/
  agenda : List (ThreadId × List Atom) := []
  /-- The pauses that have not come to their end. -/
  pauses : List PauseRequest := []

inductive Move where
  /-- A thread sets out to attach. -/
  | attach (name : String)
  /-- A thread with nothing to do sets out to do something. -/
  | start (thread : ThreadId) (errand : Errand)
  /-- A thread takes its next step. -/
  | advance (thread : ThreadId)
  | request (reason : PauseReason)
  /-- A pause takes its next step. -/
  | proceed (index : Nat)
  /-- The body of a pause that runs has the heap do something. -/
  | collect (index : Nat) (step : HeapStep)
  deriving DecidableEq

namespace Concurrent

def remaining (s : Concurrent) (t : ThreadId) : List Atom :=
  (s.agenda.lookup t).getD []

def plan (t : ThreadId) (steps : List Atom) (s : Concurrent) : Concurrent :=
  { s with agenda := (t, steps) :: s.agenda.filter fun (thread, _) => thread ≠ t }

def withMachine (s : Concurrent) (machine : Machine) : Concurrent :=
  { s with machine }

def acquiring : List Atom := [.claim, .keep]

/-- The steps of an errand, decided by what the thread sees when it sets out.  An errand that the
thread's state does not allow has none. -/
def stepsOf (thread : Thread) : Errand → Option (List Atom)
  | .toNative => if thread.holdsShare then some [.store .native, .release] else none
  | .toManaged =>
    if thread.holdsShare then none else some (acquiring ++ [.store .managed])
  | .checkSuspend =>
    if thread.suspendRequested ∧ thread.holdsShare then some (.count :: .release :: acquiring)
    else some []
  | .enterMonitor o => some [.tryEnter o]
  | .nativeEnter o => some [.tryEnter o, .serve (.note o)]
  | .serve service => some [.serve service]
  | .detach =>
    some ((if thread.holdsShare then [.release] else []) ++ [.store .native, .dismiss])

/-- Gives a share back, whatever pauses are waiting for. -/
def dropShare (t : ThreadId) (m : Machine) : Machine :=
  (m.noteShare t false).onLock MutatorLock.unclaim

/-- An atomic step of a thread: the machine afterwards, and the steps that come before the
remaining ones.  There is none while the thread has to wait. -/
def atom (m : Machine) (t : ThreadId) : Atom → Option (Machine × List Atom)
  | .store state => some (m.updateThread t fun thread => { thread with state }, [])
  | .claim => if m.lock.grants then some (m.onLock MutatorLock.claim, []) else none
  | .keep =>
    if (m.thread t).suspendRequested then some (m.onLock MutatorLock.unclaim, acquiring)
    else some (m.noteShare t true, [])
  | .release => some (dropShare t m, [])
  | .count => some (m.onLock MutatorLock.countCheck, [])
  | .tryEnter o =>
    match (m.heap.monitor o).tryEnter t with
    | .error _ => none
    | .ok (true, monitor) =>
      some ({ m with enters := m.enters + 1, heap := m.heap.setMonitor o monitor }, [])
    | .ok (false, _) =>
      some ({ m with enters := m.enters + 1, contended := m.contended + 1 },
        if (m.thread t).holdsShare then .release :: .wait o :: acquiring else [.wait o])
  | .wait o =>
    match (m.heap.monitor o).tryEnter t with
    | .ok (true, monitor) => some ({ m with heap := m.heap.setMonitor o monitor }, [])
    | _ => none
  | .serve service =>
    match Machine.serve t service m with
    | .ok left m => some (m, left.map .serve)
    | .error _ _ => none
  | .dismiss => some (m.dismiss t, [])

/-- The next phase of a pause, none at its end, and the machine then; nothing while the pause has
to wait. -/
def phase (m : Machine) : PausePhase → Option (Machine × Option PausePhase)
  | .announced => some (m.requestSuspend true, some .raised)
  | .raised =>
    if m.lock.grants then some (m.onLock MutatorLock.park, some .reserved) else none
  | .reserved =>
    if m.lock.claims = 0 then
      some ((m.onLock MutatorLock.unpark).onLock MutatorLock.seize, some .running)
    else none
  | .running => some ((m.onLock MutatorLock.count).requestSuspend false, some .lowered)
  | .lowered => some (m.onLock MutatorLock.retract, some .retracted)
  | .retracted => some (m.onLock MutatorLock.free, none)

/-- What follows from a move, if it is possible. -/
def step (s : Concurrent) : Move → Option Concurrent
  | .attach name =>
    let (t, machine) := s.machine.enrol name
    some ((s.withMachine machine).plan t (acquiring ++ [.store .managed]))
  | .start t errand => do
    let thread ← s.machine.thread? t
    guard (s.remaining t).isEmpty
    pure (s.plan t (← stepsOf thread errand))
  | .advance t =>
    match s.remaining t with
    | [] => none
    | first :: rest => do
      let (machine, more) ← atom s.machine t first
      pure ((s.withMachine machine).plan t (more ++ rest))
  | .request reason =>
    some { s with
      machine := s.machine.onLock (MutatorLock.announce reason)
      pauses := s.pauses ++ [{ reason, phase := .announced }] }
  | .proceed index => do
    let request ← s.pauses[index]?
    let (machine, next) ← phase s.machine request.phase
    pure { s with
      machine
      pauses := match next with
        | some phase => s.pauses.set index { request with phase }
        | none => s.pauses.eraseIdx index }
  | .collect index step => do
    let request ← s.pauses[index]?
    guard (request.phase = .running)
    pure (s.withMachine { s.machine with heap := s.machine.heap.step step })

def run (s : Concurrent) : List Move → Option Concurrent
  | [] => some s
  | first :: rest => do (← s.step first).run rest

def Reachable (heap : Heap) (s : Concurrent) : Prop :=
  ∃ moves, ({ machine := { heap } } : Concurrent).run moves = some s

end Concurrent

end NativeBoundary
