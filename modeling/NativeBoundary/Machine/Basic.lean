import NativeBoundary.Machine.Safepoint

/-!
# The machine

A small managed runtime: a heap, monitors, the methods that are registered, a mutator lock, and
attached threads.  Its operations are run one after the other, each to its end, on behalf of the
threads; a wait that only another operation could end is a deadlock.  Pauses that are asked for
while there are claims are parked, and complete as soon as the last claim is given back.
-/

set_option autoImplicit false

namespace NativeBoundary

structure Registry where
  /-- Methods by their qualified names. -/
  methods : List (String × Method) := []
  /-- Class objects as they were when their methods were registered, by qualified name. -/
  roots : List (String × ObjectId) := []
  /-- How many reference results have been verified. -/
  checkedResults : Nat := 0

def Registry.put {α : Type} (key : String) (value : α) (l : List (String × α)) :
    List (String × α) :=
  (key, value) :: l.filter fun (name, _) => name ≠ key

/-- A small managed runtime. -/
structure Machine where
  heap : Heap := {}
  registry : Registry := {}
  lock : MutatorLock := {}
  /-- Attached threads, in the order of attaching. -/
  threads : List Thread := []
  /-- Number of the next thread to attach. -/
  nextThread : Nat := 1
  /-- How many monitor enters there have been. -/
  enters : Nat := 0
  /-- How many of them had to wait. -/
  contended : Nat := 0
  /-- Threads that wait for the monitor of an object, the longest waiting first. -/
  waiting : List (ThreadId × ObjectId) := []

namespace Machine

/-! ## Threads -/

def thread? (m : Machine) (t : ThreadId) : Option Thread :=
  m.threads.find? fun thread => thread.id = t

/-- A thread; one that is not attached has nothing. -/
def thread (m : Machine) (t : ThreadId) : Thread :=
  (m.thread? t).getD { id := t, name := "" }

def updateThread (t : ThreadId) (change : Thread → Thread) (m : Machine) : Machine :=
  { m with threads := m.threads.map fun thread =>
      if thread.id = t then change thread else thread }

theorem thread?_updateThread (t : ThreadId) (change : Thread → Thread) (m : Machine)
    (keeps : ∀ thread, (change thread).id = thread.id) :
    (m.updateThread t change).thread? t = (m.thread? t).map change := by
  simp only [thread?, updateThread]
  induction m.threads with
  | nil => rfl
  | cons first rest ih =>
    by_cases found : first.id = t
    · simp [found, keeps]
    · simp [found, ih]

theorem thread?_updateThread_of_ne (t other : ThreadId) (change : Thread → Thread) (m : Machine)
    (keeps : ∀ thread, (change thread).id = thread.id) (different : other ≠ t) :
    (m.updateThread t change).thread? other = m.thread? other := by
  simp only [thread?, updateThread]
  induction m.threads with
  | nil => rfl
  | cons first rest ih =>
    by_cases found : first.id = t
    · simp [found, keeps, ih, different.symm]
    · simp [found, List.find?_cons, ih]

def requestSuspend (requested : Bool) (m : Machine) : Machine :=
  { m with threads := m.threads.map fun thread => { thread with suspendRequested := requested } }

def countInState (m : Machine) (state : ThreadState) : Nat :=
  m.threads.countP fun thread => thread.state = state

def onLock (change : MutatorLock → MutatorLock) (m : Machine) : Machine :=
  { m with lock := change m.lock }

end Machine

end NativeBoundary
