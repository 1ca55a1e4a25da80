import NativeBoundary.Crossing.Host
import NativeBoundary.Machine.Heap

/-!
# Attached threads

A thread has a part that everyone sees (its state, and whether it is asked to suspend) and a part
of its own: its share of the mutator lock, the pending exception, local references with the base of
the innermost scope, protected objects, the monitors that its native code has entered, and the
stack of native methods.
-/

set_option autoImplicit false

namespace NativeBoundary

structure Throwable where
  className : String
  message : String
  deriving DecidableEq

def Throwable.text (e : Throwable) : String :=
  if e.message = "" then e.className else e.className ++ ": " ++ e.message

def Throwable.illegalMonitorState (message : String) : Throwable :=
  { className := "java.lang.IllegalMonitorStateException", message }

structure Frame where
  method : Method
  receiver : Option ObjectId
  deriving DecidableEq

structure Thread where
  id : ThreadId
  name : String
  state : ThreadState := .native
  suspendRequested : Bool := false
  holdsShare : Bool := false
  pending : Option Throwable := none
  locals : LocalTable ObjectId := {}
  base : ScopeMark := .bottom
  /-- Protected objects, the last one at the end. -/
  handles : List ObjectId := []
  /-- Objects whose monitors native code has entered and not exited, the last one at the end. -/
  nativeMonitors : List ObjectId := []
  /-- Native methods being executed, the innermost first. -/
  frames : List Frame := []
  deriving DecidableEq

namespace Thread

def executing (t : Thread) : Option Method :=
  t.frames.head?.map fun frame => frame.method

def receiver (t : Thread) : Option ObjectId :=
  t.frames.head?.bind fun frame => frame.receiver

/-- The objects that a thread keeps reachable: local references, protected objects, and the
receivers on its stack, the outermost first. -/
def roots (t : Thread) : List ObjectId :=
  t.locals.entries ++ t.handles ++ t.frames.reverse.filterMap fun frame => frame.receiver

def eraseLast {α : Type} (accepts : α → Bool) (l : List α) : List α :=
  (l.reverse.eraseP accepts).reverse

def text (t : Thread) : String :=
  "ManagedThread \x7b id: " ++ t.id.text ++ ", name: " ++ Text.quoteText t.name
    ++ ", state: " ++ t.state.name ++ " \x7d"

end Thread

end NativeBoundary
