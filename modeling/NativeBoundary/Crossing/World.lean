import NativeBoundary.Crossing.Host
import NativeBoundary.Crossing.Tracer

/-!
# The world that a crossing acts on

A crossing acts on the state of a host and keeps a journal.  Each entry of the journal is one
thing that the boundary did to the outside (a call to the host that changes something or looks
an object up, a word to the observer, an announcement of the tracer) together with what the
calling thread looked like at that moment.
-/

set_option autoImplicit false

namespace NativeBoundary

/-- One thing that the boundary did to the outside. -/
inductive Deed (O X : Type) where
  | toNative
  | toManaged
  | checkSuspend
  | takePending
  | setPending (exception : X)
  | setScopeBase (mark : ScopeMark)
  | setScopeTop (mark : ScopeMark)
  | decode (handle : Handle)
  | pushHandle (object : O)
  | popHandle
  | enterMonitor (object : O)
  | exitMonitor (object : O)
  | lockObject (method : Method)
  | checkResult (method : Method) (result : Option O)
  | isMarked (object : O)
  | currentCopy (object : O)
  /-- The observer was asked whether it wants a report, and answered. -/
  | asked (answer : Bool)
  /-- The observer was told that a call has begun. -/
  | begun (env : UInt64)
  /-- The observer was told that a call is ending. -/
  | ending (env : UInt64)
  | traced (event : TraceEvent)
  deriving DecidableEq

/-- A deed, and the calling thread at the moment before it. -/
structure Entry (O X : Type) where
  deed : Deed O X
  state : ThreadState
  holdsShare : Bool
  pending : Option X
  handleDepth : Nat
  deriving DecidableEq

/-- What a crossing acts on. -/
structure World (σ O X : Type) where
  state : σ
  /-- What the observer answers when it is next asked, what the time after that, and so on. -/
  willReport : Nat → Bool := fun _ => true
  tracing : Bool := false
  journal : List (Entry O X) := []

abbrev Crossing (σ O X : Type) := Act (World σ O X)

namespace Crossing

variable {σ O X α : Type}

def look (view : σ → α) : Crossing σ O X α := fun w => .ok (view w.state) w

def change (update : σ → σ) : Crossing σ O X Unit := fun w =>
  .ok () { w with state := update w.state }

def run (action : Act σ α) : Crossing σ O X α := fun w =>
  match action w.state with
  | .ok a s => .ok a { w with state := s }
  | .error why s => .error why { w with state := s }

def halt (why : Halt) : Crossing σ O X α := fun w => .error why w

def fault (why : Fault) : Crossing σ O X α := halt (.fault why)

def require (condition : Bool) (otherwise : Defect) : Crossing σ O X Unit :=
  if condition then pure () else halt (.defect otherwise)

def record (host : Host σ O X) (deed : Deed O X) : Crossing σ O X Unit := fun w =>
  .ok () { w with
    journal := w.journal ++ [{
      deed
      state := host.state w.state
      holdsShare := host.holdsShare w.state
      pending := host.pending w.state
      handleDepth := host.handleDepth w.state }] }

end Crossing

end NativeBoundary
