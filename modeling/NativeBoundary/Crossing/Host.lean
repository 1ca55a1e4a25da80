import NativeBoundary.Settings.Basic

/-!
# The host on the other side of the boundary

The boundary owns no collector, monitors, threads or method tables.  It asks for them through a
`Host`: the operations of one calling thread and of the services that the thread shares, over
some state.  Operations that can only look are functions of the state; operations that can stop
the run are actions.
-/

set_option autoImplicit false

namespace NativeBoundary

/-- An action on a state that may stop the run.  A stopped run keeps the state it stopped in. -/
abbrev Act (σ : Type) := EStateM Halt σ

inductive ThreadState where
  /-- In managed code, with a share of the mutator lock. -/
  | managed
  /-- In native code, without a share; a pause does not wait for it. -/
  | native
  deriving DecidableEq

def ThreadState.name : ThreadState → String
  | managed => "Managed"
  | native => "Native"

/-- What the boundary asks of its host on behalf of one calling thread.  `O` are the references to
objects, `X` the exceptions. -/
structure Host (σ O X : Type) where
  /-- Where the thread is. -/
  state : σ → ThreadState
  /-- Gives up the share of the mutator lock and goes to native code. -/
  toNative : Act σ Unit
  /-- Takes a share of the mutator lock, waiting for a pause to end, and goes to managed code. -/
  toManaged : Act σ Unit
  /-- Whether a pause has asked the thread to suspend. -/
  suspendRequested : σ → Bool
  /-- Honours a suspend request, waiting for the pause to end. -/
  checkSuspend : Act σ Unit
  /-- Whether the thread has a share of the mutator lock. -/
  holdsShare : σ → Bool
  /-- The exception pending on the thread. -/
  pending : σ → Option X
  /-- Forgets the pending exception. -/
  clearPending : σ → σ
  /-- Makes an exception the pending one. -/
  setPending : X → σ → σ
  /-- Base of the innermost scope of local references. -/
  scopeBase : σ → ScopeMark
  setScopeBase : ScopeMark → σ → σ
  /-- Top of the table of local references. -/
  scopeTop : σ → ScopeMark
  /-- Lowers the top, forgetting the references above it. -/
  setScopeTop : ScopeMark → σ → σ
  /-- The object of a handle, if the handle is live. -/
  decode : Handle → σ → Option O
  /-- How many monitors native code has entered and not exited. -/
  heldMonitors : σ → Nat
  /-- Protects an object in the handle scope. -/
  pushHandle : O → σ → σ
  /-- Ends the protection of the last protected object and gives its present value. -/
  popHandle : σ → Option O × σ
  /-- How many objects are protected. -/
  handleDepth : σ → Nat
  /-- The environment handle that observers are given. -/
  env : σ → UInt64
  /-- The native method on top of the managed stack, if known. -/
  executing : σ → Option Method
  /-- Enters a monitor, waiting if another thread holds it. -/
  enterMonitor : O → Act σ (Except X Unit)
  /-- Exits a monitor. -/
  exitMonitor : O → Act σ (Except X Unit)
  /-- The object that a synchronized call of a method locks. -/
  lockObject : Method → Act σ (Option O)
  /-- Verifies a reference result of a method; a rejected result stops the run. -/
  checkResult : Method → Option O → Act σ Unit
  /-- Whether roots are read through a barrier. -/
  usesReadBarrier : σ → Bool
  /-- Whether a set mark bit proves a reference current. -/
  marksProveCurrent : σ → Bool
  /-- The mark bit of an object. -/
  isMarked : O → σ → Bool
  /-- The current copy of an object that may have been moved. -/
  currentCopy : O → Act σ O
  /-- The text of an exception inside diagnostics. -/
  describe : X → String

end NativeBoundary
