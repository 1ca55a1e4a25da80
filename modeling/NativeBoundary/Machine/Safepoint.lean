import NativeBoundary.Machine.Thread

/-!
# The mutator lock

Threads in managed code share the lock; a pause takes it for itself alone.  A pause that is asked
for while there are claims is *parked* on the lock.  The lock is fair: no new claim is granted
while a pause is parked or running.
-/

set_option autoImplicit false

namespace NativeBoundary

inductive PauseReason where
  | garbageCollection
  | debug
  deriving DecidableEq

def PauseReason.name : PauseReason → String
  | garbageCollection => "GarbageCollection"
  | debug => "Debug"

structure MutatorLock where
  /-- How many shares are out. -/
  claims : Nat := 0
  /-- Whether a pause has the lock. -/
  paused : Bool := false
  /-- How many pauses wait for the lock. -/
  parked : Nat := 0
  /-- Whether a pause is announced. -/
  pending : Bool := false
  /-- Why the last announced pause was asked for. -/
  reason : Option PauseReason := none
  /-- How many pauses have been completed. -/
  pauses : Nat := 0
  /-- How many suspend checks gave a share back. -/
  suspendChecks : Nat := 0
  deriving DecidableEq

namespace MutatorLock

def grants (l : MutatorLock) : Bool :=
  !l.paused && l.parked = 0

def claim (l : MutatorLock) : MutatorLock :=
  { l with claims := l.claims + 1 }

def unclaim (l : MutatorLock) : MutatorLock :=
  { l with claims := l.claims - 1 }

def announce (reason : PauseReason) (l : MutatorLock) : MutatorLock :=
  { l with reason := some reason, pending := true }

def park (l : MutatorLock) : MutatorLock :=
  { l with parked := l.parked + 1 }

def unpark (l : MutatorLock) : MutatorLock :=
  { l with parked := l.parked - 1 }

def seize (l : MutatorLock) : MutatorLock :=
  { l with paused := true }

def count (l : MutatorLock) : MutatorLock :=
  { l with pauses := l.pauses + 1 }

def retract (l : MutatorLock) : MutatorLock :=
  { l with pending := false, reason := none }

def free (l : MutatorLock) : MutatorLock :=
  { l with paused := false }

def countCheck (l : MutatorLock) : MutatorLock :=
  { l with suspendChecks := l.suspendChecks + 1 }

def text (l : MutatorLock) : String :=
  "MutatorLock \x7b pause_pending: " ++ (if l.pending then "true" else "false")
    ++ ", shared_claims: " ++ toString l.claims ++ " \x7d"

end MutatorLock

end NativeBoundary
