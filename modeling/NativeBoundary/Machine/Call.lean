import NativeBoundary.Machine.Objects
import NativeBoundary.Crossing.EntryPoints

/-!
# Calls of native methods on the machine

The machine as the host of one of its threads, and the call of a native method as generic
callers do it: push the frame, refresh the class of a static method, cross, run the native body,
cross back, pop the frame.
-/

set_option autoImplicit false

namespace NativeBoundary

namespace Machine

def host (t : ThreadId) : Host Machine ObjectId Throwable where
  state m := (m.thread t).state
  toNative := toNative t
  toManaged := toManaged t
  suspendRequested m := (m.thread t).suspendRequested
  checkSuspend := checkSuspend t
  holdsShare m := (m.thread t).holdsShare
  pending m := (m.thread t).pending
  clearPending := updateThread t fun thread => { thread with pending := none }
  setPending exception := updateThread t fun thread => { thread with pending := some exception }
  scopeBase m := (m.thread t).base
  setScopeBase mark := updateThread t fun thread => { thread with base := mark }
  scopeTop m := (m.thread t).locals.top
  setScopeTop mark := updateThread t fun thread =>
    { thread with locals := thread.locals.truncate mark }
  decode handle m := (m.thread t).locals.get? handle
  heldMonitors m := (m.thread t).nativeMonitors.length
  pushHandle o := updateThread t fun thread => { thread with handles := thread.handles ++ [o] }
  popHandle m :=
    ((m.thread t).handles.getLast?,
      m.updateThread t fun thread => { thread with handles := thread.handles.dropLast })
  handleDepth m := (m.thread t).handles.length
  env _ := UInt64.ofNat t.number
  executing m := (m.thread t).executing
  enterMonitor o := do
    if ((← get).thread t).holdsShare then
      enterMonitor t o
      pure (.ok ())
    else throw (.defect .enterWithoutShare)
  exitMonitor := exitMonitor t
  lockObject := lockObject t
  checkResult := checkResult
  usesReadBarrier m := m.heap.readBarrier
  marksProveCurrent m := m.heap.marksProveCurrent
  isMarked o m := m.heap.isMarked o
  currentCopy := currentCopy
  describe exception := exception.text

end Machine

abbrev MachineWorld := World Machine ObjectId Throwable

abbrev Call := Crossing Machine ObjectId Throwable

namespace Call

variable (b : Boundary) (t : ThreadId)

def machine {α : Type} (action : Act Machine α) : Call α := Crossing.run action

/-- The class that a static method's body is given: the one kept at registration, or the class
object by name, refreshed where roots are read through a barrier. -/
def declaringClass (method : Method) : Call (Option ObjectId) := do
  if method.isStatic then
    let kept := (← get).state.root? method
    let found ← match kept with
      | some o => pure o
      | none => machine (Machine.onHeap fun h => h.classObject method.className)
    if (← get).state.heap.readBarrier then
      some <$> Crossing.refreshClass (Machine.host t) found
    else pure (some found)
  else pure none

/-- What a native body finds when it starts: the class of a static method, and the mark that closes
its scope. -/
structure Started where
  declaringClass : Option ObjectId
  saved : ScopeMark

def enter (method : Method) (receiver : Option ObjectId) : Call Started := do
  machine (Machine.pushFrame t method receiver)
  let declaringClass ← declaringClass t method
  let saved ← Crossing.beginMethod (Machine.host t) b method
  pure { declaringClass, saved }

def leave (method : Method) (saved : ScopeMark) (registers : Registers) :
    Call (CallResult ObjectId) := do
  let result ← Crossing.endMethod (Machine.host t) b method saved registers
  machine (Machine.popFrame t)
  pure result

end Call

end NativeBoundary
