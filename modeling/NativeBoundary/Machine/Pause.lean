import NativeBoundary.Machine.Basic

/-!
# Pauses, shares and attached threads

A thread takes a share of the mutator lock before it is managed and gives it back after it has
become native; a pause has to wait until no share is out.
-/

set_option autoImplicit false

namespace NativeBoundary.Machine

/-! ## Pauses -/

/-- The end of a pause: it is counted, every suspend request is cleared, the announcement is taken
back, and the lock is given back. -/
def concludePause (m : Machine) : Machine :=
  m.onLock MutatorLock.count
    |>.requestSuspend false
    |>.onLock MutatorLock.retract
    |>.onLock MutatorLock.free

def runParked : Nat → Machine → Machine
  | 0, m => m
  | count + 1, m => runParked count (m.onLock MutatorLock.unpark).concludePause

/-- Runs the parked pauses if nothing is in their way. -/
def settle (m : Machine) : Machine :=
  if m.lock.claims = 0 && !m.lock.paused then m.runParked m.lock.parked else m

def announcePause (reason : PauseReason) (m : Machine) : Machine :=
  (m.onLock (MutatorLock.announce reason)).requestSuspend true

/-- Asks for a pause with nothing to do in it, and does not wait for it. -/
def requestPause (reason : PauseReason) (m : Machine) : Machine :=
  (m.announcePause reason).onLock MutatorLock.park |>.settle

def beginPause (reason : PauseReason) : Act Machine Unit := do
  modify (announcePause reason)
  let m ← get
  if m.lock.claims = 0 ∧ m.lock.grants then set (m.onLock MutatorLock.seize)
  else throw .deadlock

def endPause (m : Machine) : Machine :=
  m.concludePause.settle

/-! ## Shares of the mutator lock -/

def noteShare (t : ThreadId) (holds : Bool) : Machine → Machine :=
  updateThread t fun thread => { thread with holdsShare := holds }

/-- Takes a share, stepping aside for a pause. -/
def acquireShare (t : ThreadId) : Act Machine Unit := do
  let m ← get
  if (m.thread t).holdsShare then throw (.defect .shareAlreadyHeld)
  if !m.lock.grants || (m.thread t).suspendRequested then throw .deadlock
  set ((m.onLock MutatorLock.claim).noteShare t true)

def releaseShare (t : ThreadId) : Act Machine Unit := do
  let m ← get
  if !(m.thread t).holdsShare then throw (.defect .shareNotHeld)
  set ((m.noteShare t false).onLock MutatorLock.unclaim).settle

def setState (t : ThreadId) (state : ThreadState) : Act Machine Unit :=
  modify (updateThread t fun thread => { thread with state })

def toNative (t : ThreadId) : Act Machine Unit := do
  setState t .native
  releaseShare t

def toManaged (t : ThreadId) : Act Machine Unit := do
  acquireShare t
  setState t .managed

def blocking {α : Type} (t : ThreadId) (action : Act Machine α) : Act Machine α := do
  if ((← get).thread t).holdsShare then
    releaseShare t
    let a ← action
    acquireShare t
    pure a
  else action

/-- Gives the share back and takes it again, if the thread has one and is asked to suspend. -/
def checkSuspend (t : ThreadId) : Act Machine Unit := do
  let thread := (← get).thread t
  if thread.suspendRequested ∧ thread.holdsShare then
    modify (onLock MutatorLock.countCheck)
    releaseShare t
    acquireShare t

/-! ## Attaching and detaching -/

def enrol (name : String) (m : Machine) : ThreadId × Machine :=
  let t : ThreadId := ⟨m.nextThread⟩
  (t, { m with nextThread := m.nextThread + 1, threads := m.threads ++ [{ id := t, name }] })

def dismiss (t : ThreadId) (m : Machine) : Machine :=
  { m with threads := m.threads.filter fun thread => thread.id ≠ t }

def attach (name : String) : Act Machine ThreadId := do
  let t ← modifyGet (enrol name)
  toManaged t
  pure t

def detach (t : ThreadId) : Act Machine Unit := do
  if ((← get).thread t).holdsShare then releaseShare t
  setState t .native
  modify (dismiss t)

end NativeBoundary.Machine
