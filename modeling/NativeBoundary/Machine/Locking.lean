import NativeBoundary.Machine.Pause

/-!
# Threads and monitors

Entering a monitor that another thread holds means waiting for it without a share.  Threads that
wait get their monitors when the waiting is joined, the longest waiting first.
-/

set_option autoImplicit false

namespace NativeBoundary.Machine

/-! ## Monitors -/

def tryEnter (t : ThreadId) (o : ObjectId) : Act Machine Bool := do
  let m ← get
  match (m.heap.monitor o).tryEnter t with
  | .error defect => throw (.defect defect)
  | .ok (entered, monitor) =>
    set { m with heap := m.heap.setMonitor o monitor }
    pure entered

/-- Waits for the monitor of an object; without other threads it has to be free or the thread's own
already. -/
def enterWaiting (t : ThreadId) (o : ObjectId) : Act Machine Unit := do
  if !(← tryEnter t o) then throw .deadlock

/-- Enters the monitor of an object, without a share while waiting for it. -/
def enterMonitor (t : ThreadId) (o : ObjectId) : Act Machine Unit := do
  modify fun m => { m with enters := m.enters + 1 }
  if !(← tryEnter t o) then
    modify fun m => { m with contended := m.contended + 1 }
    blocking t (enterWaiting t o)

def exitRaw (t : ThreadId) (o : ObjectId) : Act Machine (Except MonitorMisuse Unit) := do
  let m ← get
  match (m.heap.monitor o).exit t with
  | .error defect => throw (.defect defect)
  | .ok (.error misuse) => pure (.error misuse)
  | .ok (.ok monitor) =>
    set { m with heap := m.heap.setMonitor o monitor }
    pure (.ok ())

/-- Exits the monitor of an object; a misuse is an exception. -/
def exitMonitor (t : ThreadId) (o : ObjectId) : Act Machine (Except Throwable Unit) := do
  match ← exitRaw t o with
  | .ok () => pure (.ok ())
  | .error misuse => pure (.error (.illegalMonitorState misuse.message))

/-- Enters a monitor on behalf of native code, and notes it. -/
def nativeEnter (t : ThreadId) (o : ObjectId) : Act Machine Unit := do
  enterMonitor t o
  modify (updateThread t fun thread =>
    { thread with nativeMonitors := thread.nativeMonitors ++ [o] })

/-- Exits a monitor on behalf of native code; the last note of that monitor is struck out. -/
def nativeExit (t : ThreadId) (o : ObjectId) : Act Machine (Except Throwable Unit) := do
  match ← exitMonitor t o with
  | .error exception => pure (.error exception)
  | .ok () =>
    modify fun m => m.updateThread t (fun thread =>
      { thread with
        nativeMonitors := Thread.eraseLast (m.heap.sameMonitor o) thread.nativeMonitors })
    pure (.ok ())

/-- A further thread attaches and waits for a monitor that another thread holds. -/
def contend (o : ObjectId) : Act Machine Unit := do
  let t ← attach "waiter"
  modify fun m => { m with enters := m.enters + 1 }
  if ← tryEnter t o then throw .deadlock
  modify fun m => { m with contended := m.contended + 1 }
  releaseShare t
  modify fun m => { m with waiting := m.waiting ++ [(t, o)] }

/-- The longest waiting thread gets its monitor, exits it and detaches.  Says whether it had the
monitor and its share, and exited without an exception. -/
def finishWaiting (t : ThreadId) (o : ObjectId) : Act Machine Bool := do
  enterWaiting t o
  acquireShare t
  let m ← get
  let held := (m.heap.monitor o).published = some t && (m.thread t).holdsShare
  let exited ← exitMonitor t o
  detach t
  pure (held && exited.isOk)

def joinWaiting : Act Machine (List Bool) := do
  let waiting := (← get).waiting
  let finished ← waiting.mapM fun (t, o) => finishWaiting t o
  modify fun m => { m with waiting := [] }
  pure finished

end NativeBoundary.Machine
