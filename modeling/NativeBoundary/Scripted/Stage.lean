import NativeBoundary.Crossing.EntryPoints
import NativeBoundary.Crossing.Log

/-!
# A host that follows a script

Here the host is a stage with one thread on it.  Objects and exceptions are names, and what a
real host would find out by itself (whether a monitor can be entered, what a verification does
to the protected objects, which objects have moved) is written on the stage beforehand.
-/

set_option autoImplicit false

namespace NativeBoundary.Scripted

inductive OnCheck where
  | leave
  /-- Replaces the last protected object, if there is one. -/
  | replaceTop (object : String)
  /-- Forgets all protected objects. -/
  | clear
  deriving DecidableEq

structure Stage where
  state : ThreadState := .managed
  holdsShare : Bool := true
  suspendRequested : Bool := false
  pending : Option String := none
  locals : LocalTable String := {}
  base : ScopeMark := .bottom
  /-- Protected objects, the last one at the end. -/
  handles : List String := []
  heldMonitors : Nat := 0
  env : UInt64 := 1
  executing : Option Method := none
  /-- The exception that the next monitor enter fails with. -/
  enterFailure : Option String := none
  /-- The exception that the next monitor exit fails with. -/
  exitFailure : Option String := none
  lockObject : Option String := some "class"
  onCheck : OnCheck := .leave
  readBarrier : Bool := true
  marksProveCurrent : Bool := true
  marked : List String := []
  /-- Objects that have moved, with their copies. -/
  moved : List (String × String) := []

namespace Stage

def check (s : Stage) : Stage :=
  match s.onCheck with
  | .leave => s
  | .replaceTop object =>
    if s.handles.isEmpty then s else { s with handles := s.handles.dropLast ++ [object] }
  | .clear => { s with handles := [] }

/-- An enter or exit of a monitor, which fails with a written exception once. -/
def useMonitor (failure : Stage → Option String) (spent : Stage → Stage) :
    Act Stage (Except String Unit) := do
  match failure (← get) with
  | none => pure (.ok ())
  | some exception =>
    modify spent
    pure (.error exception)

def host : Host Stage String String where
  state s := s.state
  toNative := modify fun s => { s with holdsShare := false, state := .native }
  toManaged := modify fun s => { s with holdsShare := true, state := .managed }
  suspendRequested s := s.suspendRequested
  checkSuspend := modify fun s => { s with suspendRequested := false }
  holdsShare s := s.holdsShare
  pending s := s.pending
  clearPending s := { s with pending := none }
  setPending exception s := { s with pending := some exception }
  scopeBase s := s.base
  setScopeBase mark s := { s with base := mark }
  scopeTop s := s.locals.top
  setScopeTop mark s := { s with locals := s.locals.truncate mark }
  decode handle s := s.locals.get? handle
  heldMonitors s := s.heldMonitors
  pushHandle object s := { s with handles := s.handles ++ [object] }
  popHandle s := (s.handles.getLast?, { s with handles := s.handles.dropLast })
  handleDepth s := s.handles.length
  env s := s.env
  executing s := s.executing
  enterMonitor _ :=
    useMonitor (fun s => s.enterFailure) fun s => { s with enterFailure := none }
  exitMonitor _ :=
    useMonitor (fun s => s.exitFailure) fun s => { s with exitFailure := none }
  lockObject _ := do pure (← get).lockObject
  checkResult _ _ := modify check
  usesReadBarrier s := s.readBarrier
  marksProveCurrent s := s.marksProveCurrent
  isMarked object s := s.marked.contains object
  currentCopy object := do pure (((← get).moved.lookup object).getD object)
  describe exception := exception

end Stage

def line (entry : Entry String String) : String :=
  match entry.deed with
  | .toNative => "to_native"
  | .toManaged => "to_managed"
  | .checkSuspend => "check_suspend"
  | .takePending => "take_exc"
  | .setPending exception => "set_exc:" ++ exception
  | .setScopeBase mark => "cookie=" ++ toString mark.position.toNat
  | .setScopeTop mark => "segment=" ++ toString mark.position.toNat
  | .decode handle => "decode:" ++ hexWord handle.word
  | .pushHandle object => "push_handle:" ++ object
  | .popHandle => "pop_handle"
  | .enterMonitor object => "enter:" ++ object
  | .exitMonitor object => "exit:" ++ object
  | .lockObject m => "target:" ++ m.qualifiedName
  | .checkResult m result =>
    "check_ref:" ++ m.qualifiedName ++ ":" ++ result.getD "null" ++ ":depth="
      ++ toString entry.handleDepth
  | .isMarked object => "is_marked:" ++ object
  | .currentCopy object => "barrier:" ++ object
  | deed => deed.reportLine?.getD ""

end NativeBoundary.Scripted
