import NativeBoundary.Crossing.World

/-!
# The steps of a crossing

Scopes of local references, tier checks, the way to native code and back, the monitor of a
synchronized call, the observer, the tracer, and the current copy of a class.  The order of these
steps is what an entry point is.
-/

set_option autoImplicit false

namespace NativeBoundary

structure Boundary where
  settings : Settings := {}
  observed : Bool := false

namespace Crossing

variable {σ O X : Type} (host : Host σ O X) (b : Boundary)

/-! ## Scopes of local references -/

def openScope : Crossing σ O X ScopeMark := do
  let saved ← look host.scopeBase
  let top ← look host.scopeTop
  record host (.setScopeBase top)
  change (host.setScopeBase top)
  pure saved

/-- Verifies what native code promised about its scope: every monitor exited, and no reference
below the base of the scope forgotten. -/
def checkScope : Crossing σ O X Unit := do
  let held ← look host.heldMonitors
  if held ≠ 0 then fault (.monitorsHeld held)
  let base ← look host.scopeBase
  let top ← look host.scopeTop
  if top.position < base.position then fault (.scopeUnderflow top.position base.position)

def closeScope (checked : Bool) (saved : ScopeMark) : Crossing σ O X Unit := do
  if checked then checkScope host
  let base ← look host.scopeBase
  record host (.setScopeTop base)
  change (host.setScopeTop base)
  record host (.setScopeBase saved)
  change (host.setScopeBase saved)

/-! ## Tiers -/

/-- An entry point for one tier stops on a method of another.  A thread that cannot name its
method is not checked. -/
def verifyTier (tier : Tier) : Crossing σ O X Unit := do
  match ← look host.executing with
  | none => pure ()
  | some m =>
    if m.tier = tier then pure () else fault (.tierMismatch m.qualifiedName tier m.tier)

def checkTier (tier : Tier) : Crossing σ O X Unit :=
  if b.settings.verifyTiers then verifyTier host tier else pure ()

def checkSynchronizedTier (m : Method) : Crossing σ O X Unit :=
  if b.settings.verifyTiers ∧ m.isSynchronized ∧ m.tier ≠ .normal then
    fault (.synchronizedTier m.qualifiedName m.tier)
  else pure ()

/-! ## To native code and back -/

def leaveManaged : Crossing σ O X Unit := do
  require ((← look host.state) = .managed) .startOutsideManaged
  record host .toNative
  run host.toNative

def returnToManaged : Crossing σ O X Unit := do
  require ((← look host.state) = .native) .endOutsideNative
  record host .toManaged
  run host.toManaged

def honourSuspend : Crossing σ O X Unit := do
  if ← look host.suspendRequested then
    require (← look host.holdsShare) .suspendWithoutShare
    record host .checkSuspend
    run host.checkSuspend

def wayIn : Tier → Crossing σ O X Unit
  | .normal => leaveManaged host
  | .fast | .critical => pure ()

def wayOut : Tier → Crossing σ O X Unit
  | .normal => returnToManaged host
  | .fast => honourSuspend host
  | .critical => pure ()

/-! ## The monitor of a synchronized call -/

/-- Enters the monitor of a synchronized call.  A failure is left pending. -/
def lock (object : O) : Crossing σ O X Unit := do
  record host (.enterMonitor object)
  match ← run (host.enterMonitor object) with
  | .ok () => pure ()
  | .error exception =>
    record host (.setPending exception)
    change (host.setPending exception)

/-- Exits the monitor of a synchronized call.  A pending exception is put aside meanwhile; if the
exit raises another one, there is no single exception to report. -/
def unlock (object : O) : Crossing σ O X Unit := do
  record host .takePending
  let saved ← look host.pending
  change host.clearPending
  record host (.exitMonitor object)
  match ← run (host.exitMonitor object), saved with
  | .ok (), none => pure ()
  | .ok (), some first =>
    record host (.setPending first)
    change (host.setPending first)
  | .error second, none =>
    record host (.setPending second)
    change (host.setPending second)
  | .error second, some first =>
    fault (.doubleFault (host.describe first) (host.describe second))

def lockObject (m : Method) : Crossing σ O X O := do
  record host (.lockObject m)
  match ← run (host.lockObject m) with
  | some object => pure object
  | none => fault (.noLockObject m.qualifiedName)

/-! ## The observer -/

/-- Asks the observer, if one is attached, whether it wants a report.  It may answer differently
each time. -/
def askObserver : Crossing σ O X Bool := do
  if b.observed then
    let answer := (← get).willReport 0
    record host (.asked answer)
    modify fun w => { w with willReport := fun n => w.willReport (n + 1) }
    pure answer
  else pure false

def reportBegin : Crossing σ O X Unit := do
  if ← askObserver host b then record host (.begun (← look host.env))

def reportEnd : Crossing σ O X Unit := do
  if ← askObserver host b then record host (.ending (← look host.env))

/-! ## The tracer -/

def announce : List TraceEvent → Crossing σ O X Unit
  | [] => pure ()
  | event :: rest => do
    record host (.traced event)
    announce rest

def traceEntry (thread : UInt64) : Crossing σ O X Unit := do
  let m ← look host.executing
  announce host (b.settings.trace.eventsOfEntry m thread)
  modify fun w => { w with tracing := b.settings.trace.flagAfterEntry m w.tracing }

def traceExit : Crossing σ O X Unit := do
  let m ← look host.executing
  announce host (b.settings.trace.eventsOfExit m)
  modify fun w => { w with tracing := b.settings.trace.flagAfterExit m w.tracing }

/-! ## Classes and protected objects -/

/-- The current copy of a class that may have been moved.  Where a set mark bit proves a reference
current, a marked class is taken as it is. -/
def refreshClass (object : O) : Crossing σ O X O := do
  require (← look host.usesReadBarrier) .barrierWithoutSupport
  let marked ←
    if ← look host.marksProveCurrent then do
      record host (.isMarked object)
      look (host.isMarked object)
    else pure false
  if marked then pure object
  else
    record host (.currentCopy object)
    run (host.currentCopy object)

/-- Runs an action with an object, if there is one, protected in the handle scope, and gives its
value at the end. -/
def protecting (slot : Option O) (action : Crossing σ O X Unit) : Crossing σ O X (Option O) := do
  match slot with
  | none =>
    action
    pure none
  | some object =>
    record host (.pushHandle object)
    change (host.pushHandle object)
    action
    record host .popHandle
    let (top, popped) ← look host.popHandle
    change fun _ => popped
    pure (some (top.getD object))

end Crossing

end NativeBoundary
