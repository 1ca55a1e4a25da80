import NativeBoundary.Fault

/-!
# Reentrant monitors

A monitor belongs to at most one thread, which may enter it again and has to exit it as often.
The owner is also published beside the guarded state, for readers that do not take the guard.
-/

set_option autoImplicit false

namespace NativeBoundary

/-- A thread that is or was attached; they are numbered from one. -/
structure ThreadId where
  number : Nat
  deriving DecidableEq

def ThreadId.text (t : ThreadId) : String :=
  "ThreadId(" ++ toString t.number ++ ")"

structure Monitor where
  /-- The thread that owns the monitor. -/
  owner : Option ThreadId := none
  /-- How many more enters than exits the owner has done. -/
  recursion : Nat := 0
  /-- The owner as readers without the guard see it. -/
  published : Option ThreadId := none
  deriving DecidableEq

structure MonitorMisuse where
  thread : ThreadId
  owner : Option ThreadId
  deriving DecidableEq

def MonitorMisuse.message (e : MonitorMisuse) : String :=
  let owner := match e.owner with
    | none => "None"
    | some t => "Some(" ++ t.text ++ ")"
  "Thread " ++ e.thread.text ++ " exited a monitor owned by " ++ owner

namespace Monitor

/-- One more than the greatest number of levels that a monitor can count. -/
def levelLimit : Nat := UInt32.size

/-- Enters the monitor if it is free or owned by the thread already, and says whether it did. -/
def tryEnter (thread : ThreadId) (m : Monitor) : Except Defect (Bool × Monitor) :=
  match m.owner with
  | none => .ok (true, { owner := some thread, recursion := 1, published := some thread })
  | some owner =>
    if owner = thread then
      if m.recursion + 1 < levelLimit then .ok (true, { m with recursion := m.recursion + 1 })
      else .error .recursionOverflow
    else .ok (false, m)

def exit (thread : ThreadId) (m : Monitor) : Except Defect (Except MonitorMisuse Monitor) :=
  if m.owner = some thread then
    match m.recursion with
    | 0 => .error .recursionUnderflow
    | 1 => .ok (.ok { owner := none, recursion := 0, published := none })
    | level + 1 => .ok (.ok { m with recursion := level })
  else .ok (.error { thread, owner := m.owner })

end Monitor

end NativeBoundary
