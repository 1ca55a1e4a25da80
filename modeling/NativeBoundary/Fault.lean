import NativeBoundary.Method
import NativeBoundary.Text.Quoted

/-!
# What stops a call

Three kinds of stop are told apart.  A *fault* is a broken promise of native code or of the method
metadata; it is reported and ends the process.  A *defect* is a misuse of the boundary by the
host around it.  A *deadlock* is a wait that nothing in the run can end.
-/

set_option autoImplicit false

namespace NativeBoundary

/-- A broken promise of native code or of the method metadata. -/
inductive Fault where
  /-- An entry point for one tier ran on behalf of a method of another. -/
  | tierMismatch (method : String) (expected actual : Tier)
  /-- A method is synchronized although it is not of the normal tier. -/
  | synchronizedTier (method : String) (tier : Tier)
  /-- A synchronized method has no object to lock. -/
  | noLockObject (method : String)
  /-- A critical method is declared to return a reference. -/
  | criticalReference (method : String)
  /-- The return type character is not in the alphabet. -/
  | unknownReturn (character : Char)
  /-- The reference table has sunk below the base of the scope being closed. -/
  | scopeUnderflow (top base : UInt32)
  /-- Native code returned with monitors it entered and did not exit. -/
  | monitorsHeld (count : Nat)
  /-- A reference result failed verification. -/
  | badReference (method reason : String)
  /-- Releasing the monitor raised an exception while another was pending. -/
  | doubleFault (first second : String)
  deriving DecidableEq

def Fault.message : Fault → String
  | tierMismatch method expected actual =>
    "Tier mismatch for " ++ method ++ ": entry point expects " ++ expected.title
      ++ ", method is " ++ actual.title
  | synchronizedTier method tier =>
    "Synchronized native method " ++ method ++ " must be Normal tier, found " ++ tier.title
  | noLockObject method =>
    "No synchronization target for synchronized native method " ++ method
  | criticalReference method =>
    "Critical native method " ++ method ++ " cannot return a reference"
  | unknownReturn character =>
    "Unexpected return shorty character " ++ Text.quoteChar character
  | scopeUnderflow top base =>
    "Local reference scope depth mismatch: segment " ++ toString top.toNat
      ++ " below scope base " ++ toString base.toNat
  | monitorsHeld count =>
    "Native code returned while still holding " ++ toString count ++ " monitor(s)"
  | badReference method reason =>
    "Invalid reference result from " ++ method ++ ": " ++ reason
  | doubleFault first second =>
    "Synchronized native code returning with an exception:\n" ++ first
      ++ "\nEncountered second exception during implicit MonitorExit:\n" ++ second

/-- A misuse of the boundary by the host around it. -/
inductive Defect where
  /-- A normal call started on a thread that was not in managed code. -/
  | startOutsideManaged
  /-- A normal call ended on a thread that was not in native code. -/
  | endOutsideNative
  /-- A suspend request was to be honoured by a thread without a share of the mutator lock. -/
  | suspendWithoutShare
  /-- A thread took a share of the mutator lock that it already had. -/
  | shareAlreadyHeld
  /-- A thread gave up a share of the mutator lock that it did not have. -/
  | shareNotHeld
  /-- A monitor was entered for a call by a thread without a share of the mutator lock. -/
  | enterWithoutShare
  /-- The class barrier ran on a collector that has no read barriers. -/
  | barrierWithoutSupport
  /-- A monitor was entered more often than its counter can hold. -/
  | recursionOverflow
  /-- A monitor was exited more often than it was entered. -/
  | recursionUnderflow
  deriving DecidableEq

/-- Why a run stopped before its end. -/
inductive Halt where
  | fault (fault : Fault)
  | defect (defect : Defect)
  | deadlock
  deriving DecidableEq

end NativeBoundary
