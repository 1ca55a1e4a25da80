import NativeBoundary.Machine.Call
import NativeBoundary.Machine.HeapStep

/-!
# Native code

The body of a native method as data.  A body is a list of instructions with every operand given
outright: whatever a body computes and however it branches, one run of it carries out one such
list.  Calls nest to any depth.
-/

set_option autoImplicit false

namespace NativeBoundary

inductive Instruction where
  /-- Allocates an instance of a class, with a local reference to it. -/
  | newObject (className : String)
  /-- Adds a local reference. -/
  | newLocal (object : ObjectId)
  /-- Makes an exception the pending one. -/
  | throw (exception : Throwable)
  | enterMonitor (object : ObjectId)
  /-- Exits a monitor; a misuse is left pending. -/
  | exitMonitor (object : ObjectId)
  /-- Has the collector change the heap. -/
  | heap (step : HeapStep)
  /-- Comes back to managed code, as a normal call from a normal body needs it. -/
  | toManaged
  /-- Goes to native code again. -/
  | toNative
  /-- Calls a native method whose body leaves the given registers. -/
  | call (method : Method) (receiver : Option ObjectId) (body : List Instruction)
      (registers : Registers)

namespace Call

variable (b : Boundary) (t : ThreadId)

mutual

def perform : Instruction → Call Unit
  | .newObject className => do
    let _ ← machine (Machine.newObject t className)
  | .newLocal o => do
    let _ ← machine (Machine.addLocal t o)
  | .throw exception => machine (Machine.throwing t exception)
  | .enterMonitor o => machine (Machine.nativeEnter t o)
  | .exitMonitor o => machine (Machine.nativeExitOrThrow t o)
  | .heap step => machine (Machine.changeHeap fun h => h.step step)
  | .toManaged => machine (Machine.toManaged t)
  | .toNative => machine (Machine.toNative t)
  | .call method receiver body registers => do
    let started ← enter b t method receiver
    performAll body
    let _ ← leave b t method started.saved registers

def performAll : List Instruction → Call Unit
  | [] => pure ()
  | first :: rest => do
    perform first
    performAll rest

end

def invoke (method : Method) (receiver : Option ObjectId) (body : List Instruction)
    (registers : Registers) : Call (CallResult ObjectId) := do
  let started ← enter b t method receiver
  performAll b t body
  leave b t method started.saved registers

def onFreshMachine (method : Method) (registers : Registers) :
    Except Halt (CallResult ObjectId) :=
  let action : Call (CallResult ObjectId) := do
    let t ← machine (Machine.attach "main")
    invoke b t method none [] registers
  match action { state := {} } with
  | .ok result _ => .ok result
  | .error why _ => .error why

end Call

end NativeBoundary
