import NativeBoundary.Proofs.Machine.Returns
import NativeBoundary.Proofs.Crossing.Passes
import NativeBoundary.Machine.Call

/-!
# A thread's own part

What a thread has to itself: its state and share, its stack of native methods, its local references
with the base of the innermost scope, its protected objects and the monitors its native code holds.
The suspend request is left out, because a pause of any other thread sets it, and so is the pending
exception.  For every operation that returns it is said what becomes of the part of the thread that
carries it out.
-/

set_option autoImplicit false

namespace NativeBoundary

/-- A thread's own part: the thread with its suspend request and its pending exception wiped. -/
def Thread.own (thread : Thread) : Thread :=
  { thread with pending := none, suspendRequested := false }

namespace Machine

/-- A thread is attached and has a given own part. -/
def Stands (t : ThreadId) (own : Thread) (m : Machine) : Prop :=
  (m.thread? t).map Thread.own = some own

variable {t : ThreadId} {own : Thread} {m m' : Machine}

namespace Stands

theorem thread_own (stands : Stands t own m) : (m.thread t).own = own := by
  unfold Stands at stands
  obtain ⟨found, attached, rfl⟩ := Option.map_eq_some_iff.1 stands
  rw [thread, attached]
  rfl

theorem of_holdsShare (holds : (m.thread t).holdsShare = true) :
    Stands t (m.thread t).own m := by
  unfold Stands thread at *
  cases attached : m.thread? t with
  | none => simp [attached] at holds
  | some found => rfl

theorem view {α : Type} (stands : Stands t own m) (view : Thread → α)
    (blind : ∀ thread, view thread.own = view thread) : view (m.thread t) = view own := by
  rw [← stands.thread_own]
  exact (blind _).symm

theorem holdsShare (stands : Stands t own m) : (m.thread t).holdsShare = own.holdsShare :=
  stands.view Thread.holdsShare fun _ => rfl

theorem thread_updateThread (stands : Stands t own m) (change : Thread → Thread)
    (keeps : ∀ thread, (change thread).id = thread.id) :
    (m.updateThread t change).thread t = change (m.thread t) := by
  unfold Stands at stands
  obtain ⟨found, attached, -⟩ := Option.map_eq_some_iff.1 stands
  unfold thread
  rw [thread?_updateThread t change m keeps, attached]
  rfl

/-! ## Changes of the machine -/

theorem updateThread (stands : Stands t own m) (change : Thread → Thread)
    (keeps : ∀ thread, (change thread).id = thread.id) (own' : Thread)
    (becomes : ∀ thread, thread.own = own → (change thread).own = own') :
    Stands t own' (m.updateThread t change) := by
  unfold Stands at *
  obtain ⟨found, attached, same⟩ := Option.map_eq_some_iff.1 stands
  rw [thread?_updateThread t change m keeps, attached]
  simp [becomes found same]

theorem updateOwn (stands : Stands t own m) (change : Thread → Thread)
    (keeps : ∀ thread, (change thread).id = thread.id)
    (commutes : ∀ thread, (change thread).own = change thread.own) :
    Stands t (change own) (m.updateThread t change) := by
  refine stands.updateThread change keeps _ ?_
  rintro thread rfl
  exact commutes thread

theorem requestSuspend (stands : Stands t own m) (requested : Bool) :
    Stands t own (m.requestSuspend requested) := by
  unfold Stands at *
  obtain ⟨found, attached, rfl⟩ := Option.map_eq_some_iff.1 stands
  have kept : (m.requestSuspend requested).thread? t =
      some { found with suspendRequested := requested } := by
    unfold thread? Machine.requestSuspend at *
    rw [List.find?_map]
    simp only [Function.comp_def, attached, Option.map_some]
  rw [kept]
  rfl

theorem onLock (stands : Stands t own m) (change : MutatorLock → MutatorLock) :
    Stands t own (m.onLock change) :=
  stands

theorem onHeap (stands : Stands t own m) (heap : Heap) : Stands t own { m with heap } :=
  stands

theorem runParked (stands : Stands t own m) (count : Nat) :
    Stands t own (m.runParked count) := by
  induction count generalizing m with
  | zero => exact stands
  | succ count ih => exact ih (((stands.onLock _).onLock _).requestSuspend false)

theorem settle (stands : Stands t own m) : Stands t own m.settle := by
  unfold Machine.settle
  split
  · exact stands.runParked _
  · exact stands

/-! ## Shares and states -/

theorem noteShare (stands : Stands t own m) (holds : Bool) :
    Stands t { own with holdsShare := holds } (m.noteShare t holds) :=
  stands.updateOwn (fun thread => { thread with holdsShare := holds }) (fun _ => rfl) fun _ => rfl

theorem storeState (stands : Stands t own m) (state : ThreadState) :
    Stands t { own with state } (m.updateThread t fun thread => { thread with state }) :=
  stands.updateOwn (fun thread => { thread with state }) (fun _ => rfl) fun _ => rfl

theorem releaseShare {u : Unit} (stands : Stands t own m)
    (run : releaseShare t m = .ok u m') :
    own.holdsShare = true ∧ Stands t { own with holdsShare := false } m' := by
  obtain ⟨holds, rfl⟩ := releaseShare_eq_ok.1 run
  exact ⟨stands.holdsShare.symm.trans holds, ((stands.noteShare false).onLock _).settle⟩

theorem acquireShare {u : Unit} (stands : Stands t own m)
    (run : acquireShare t m = .ok u m') :
    own.holdsShare = false ∧ Stands t { own with holdsShare := true } m' := by
  obtain ⟨free, -, -, rfl⟩ := acquireShare_eq_ok.1 run
  exact ⟨stands.holdsShare.symm.trans free, (stands.onLock _).noteShare true⟩

theorem toNative {u : Unit} (stands : Stands t own m) (run : toNative t m = .ok u m') :
    own.holdsShare = true ∧ Stands t { own with state := .native, holdsShare := false } m' :=
  (stands.storeState .native).releaseShare (toNative_eq_ok.1 run)

theorem toManaged {u : Unit} (stands : Stands t own m) (run : toManaged t m = .ok u m') :
    own.holdsShare = false ∧ Stands t { own with state := .managed, holdsShare := true } m' := by
  obtain ⟨between, acquired, rfl⟩ := toManaged_eq_ok.1 run
  obtain ⟨free, stands⟩ := stands.acquireShare acquired
  exact ⟨free, stands.storeState .managed⟩

/-- A suspend check gives the share back and takes it again. -/
theorem checkSuspend {u : Unit} (stands : Stands t own m)
    (run : checkSuspend t m = .ok u m') : Stands t own m' := by
  unfold Machine.checkSuspend at run
  rw [Act.get_bind] at run
  split at run
  · rw [Act.modify_bind] at run
    obtain ⟨_, released, release, acquire⟩ := Act.bind_eq_ok.1 run
    obtain ⟨holds, stands⟩ := (stands.onLock _).releaseShare release
    obtain ⟨-, stands⟩ := stands.acquireShare acquire
    rw [← holds] at stands
    exact stands
  · obtain ⟨-, rfl⟩ := Act.pure_eq_ok.1 run
    exact stands

/-! ## Monitors -/

theorem enterMonitor {o : ObjectId} {u : Unit} (stands : Stands t own m)
    (run : enterMonitor t o m = .ok u m') : Stands t own m' := by
  obtain ⟨monitor, -, rfl⟩ := enterMonitor_eq_ok.1 run
  exact stands

theorem exitMonitor {o : ObjectId} {exited : Except Throwable Unit} (stands : Stands t own m)
    (run : exitMonitor t o m = .ok exited m') : Stands t own m' := by
  obtain ⟨_, -, -, rfl⟩ | ⟨_, -, -, rfl⟩ := exitMonitor_eq_ok.1 run
  · exact stands
  · exact stands

theorem nativeEnter {o : ObjectId} {u : Unit} (stands : Stands t own m)
    (run : nativeEnter t o m = .ok u m') :
    Stands t { own with nativeMonitors := own.nativeMonitors ++ [o] } m' := by
  obtain ⟨between, entered, rfl⟩ := nativeEnter_eq_ok.1 run
  exact (stands.enterMonitor entered).updateOwn
    (fun thread => { thread with nativeMonitors := thread.nativeMonitors ++ [o] })
    (fun _ => rfl) fun _ => rfl

/-! ## The pending exception -/

theorem setPending (stands : Stands t own m) (pending : Option Throwable) :
    Stands t own (m.updateThread t fun thread => { thread with pending }) := by
  refine stands.updateThread (fun thread => { thread with pending }) (fun _ => rfl) _ ?_
  rintro thread rfl
  rfl

theorem nativeExitOrThrow {o : ObjectId} {u : Unit} (stands : Stands t own m)
    (run : nativeExitOrThrow t o m = .ok u m') :
    ∃ nativeMonitors, Stands t { own with nativeMonitors } m' := by
  obtain ⟨between, ⟨exit, rfl⟩ | ⟨exception, exit, rfl⟩⟩ := nativeExitOrThrow_of_ok run
  · refine ⟨Thread.eraseLast (between.heap.sameMonitor o) own.nativeMonitors, ?_⟩
    exact (stands.exitMonitor exit).updateOwn (fun thread => { thread with
      nativeMonitors := Thread.eraseLast (between.heap.sameMonitor o) thread.nativeMonitors })
      (fun _ => rfl) fun _ => rfl
  · exact ⟨own.nativeMonitors, (stands.exitMonitor exit).setPending (some exception)⟩

/-! ## Objects and methods -/

theorem lockObject {method : Method} {found : Option ObjectId} (stands : Stands t own m)
    (run : lockObject t method m = .ok found m') : Stands t own m' := by
  have outcome := lockObject_eq_ok.1 run
  split at outcome
  · obtain ⟨-, rfl⟩ := outcome
    exact stands
  · obtain ⟨-, rfl⟩ := outcome
    exact stands

theorem checkResult {method : Method} {result : Option ObjectId} {u : Unit}
    (stands : Stands t own m) (run : checkResult method result m = .ok u m') :
    Stands t own m' := by
  obtain rfl := checkResult_of_ok run
  exact stands

theorem currentCopy {o current : ObjectId} (stands : Stands t own m)
    (run : currentCopy o m = .ok current m') : Stands t own m' := by
  obtain rfl := currentCopy_of_ok run
  exact stands

/-! ## Scopes and protected objects -/

theorem setScopeBase (stands : Stands t own m) (mark : ScopeMark) :
    Stands t { own with base := mark } ((host t).setScopeBase mark m) :=
  stands.updateOwn (fun thread => { thread with base := mark }) (fun _ => rfl) fun _ => rfl

theorem setScopeTop (stands : Stands t own m) (mark : ScopeMark) :
    Stands t { own with locals := own.locals.truncate mark } ((host t).setScopeTop mark m) :=
  stands.updateOwn (fun thread => { thread with locals := thread.locals.truncate mark })
    (fun _ => rfl) fun _ => rfl

theorem pushHandle (stands : Stands t own m) (o : ObjectId) :
    Stands t { own with handles := own.handles ++ [o] } ((host t).pushHandle o m) :=
  stands.updateOwn (fun thread => { thread with handles := thread.handles ++ [o] })
    (fun _ => rfl) fun _ => rfl

theorem popHandle (stands : Stands t own m) :
    Stands t { own with handles := own.handles.dropLast } ((host t).popHandle m).2 :=
  stands.updateOwn (fun thread => { thread with handles := thread.handles.dropLast })
    (fun _ => rfl) fun _ => rfl

end Stands

end Machine

/-! ## The deeds of the boundary -/

def Deed.isOwn {O X : Type} : Deed O X → Bool
  | .toNative | .toManaged | .setScopeBase _ | .setScopeTop _ | .pushHandle _ | .popHandle => true
  | _ => false

def Deed.usesHandles {O X : Type} : Deed O X → Bool
  | .pushHandle _ | .popHandle | .checkResult _ _ => true
  | _ => false

def Deed.leads {O X : Type} (state : ThreadState) : Deed O X → ThreadState
  | .toNative => .native
  | .toManaged => .managed
  | _ => state

namespace Machine

variable {t : ThreadId} {own : Thread} {m m' : Machine}

/-- A synchronized call needs a share, and its monitor is never entered with an exception. -/
theorem host_enterMonitor_eq_ok {o : ObjectId} {entered : Except Throwable Unit} :
    (host t).enterMonitor o m = .ok entered m' ↔
      (m.thread t).holdsShare = true ∧ entered = .ok () ∧ enterMonitor t o m = .ok () m' := by
  simp only [host, Act.get_bind]
  cases (m.thread t).holdsShare with
  | false => simp [Act.throw_ne_ok]
  | true =>
    simp only [if_true, true_and]
    rw [Act.bind_eq_ok]
    constructor
    · rintro ⟨_, between, run, rest⟩
      obtain ⟨rfl, rfl⟩ := Act.pure_eq_ok.1 rest
      exact ⟨rfl, run⟩
    · rintro ⟨rfl, run⟩
      exact ⟨(), m', run, rfl⟩

theorem host_keeps_own (deed : Deed ObjectId Throwable) (others : deed.isOwn = false) :
    (host t).Keeps (Stands t own) deed := by
  refine .of_does fun m m' stands does => ?_
  cases deed with
  | toNative | toManaged | setScopeBase _ | setScopeTop _ | pushHandle _ | popHandle =>
    simp [Deed.isOwn] at others
  | checkSuspend => exact stands.checkSuspend does
  | takePending =>
    obtain rfl := does
    exact stands.setPending none
  | setPending exception =>
    obtain rfl := does
    exact stands.setPending (some exception)
  | enterMonitor o =>
    obtain ⟨_, run⟩ := does
    exact stands.enterMonitor (host_enterMonitor_eq_ok.1 run).2.2
  | exitMonitor o =>
    obtain ⟨_, run⟩ := does
    exact stands.exitMonitor run
  | lockObject method =>
    obtain ⟨_, run⟩ := does
    exact stands.lockObject run
  | checkResult method result => exact stands.checkResult does
  | currentCopy o =>
    obtain ⟨_, run⟩ := does
    exact stands.currentCopy run
  | decode _ | isMarked _ | asked _ | begun _ | ending _ | traced _ =>
    obtain rfl := does
    exact stands

theorem executing_of_top {method : Method} {receiver : Option ObjectId} {outer : List Frame}
    (top : own.frames = { method, receiver } :: outer) (stands : Stands t own m) :
    (host t).executing m = some method := by
  have seen : (m.thread t).executing = own.executing := stands.view Thread.executing fun _ => rfl
  exact seen.trans (by rw [Thread.executing, top]; rfl)

/-- No deed touches the stack of native methods, only the ways to native code and back change where
the thread is, and only the deeds about the handle scope which objects are protected. -/
theorem stands_of_does {deed : Deed ObjectId Throwable} (stands : Stands t own m)
    (does : (host t).Does deed m m') :
    ∃ own', Stands t own' m' ∧ own'.frames = own.frames ∧ own'.state = deed.leads own.state ∧
      (deed.usesHandles = false → own'.handles = own.handles) := by
  cases deed with
  | toNative => exact ⟨_, (stands.toNative does).2, rfl, rfl, fun _ => rfl⟩
  | toManaged => exact ⟨_, (stands.toManaged does).2, rfl, rfl, fun _ => rfl⟩
  | setScopeBase mark =>
    obtain rfl := does
    exact ⟨_, stands.setScopeBase mark, rfl, rfl, fun _ => rfl⟩
  | setScopeTop mark =>
    obtain rfl := does
    exact ⟨_, stands.setScopeTop mark, rfl, rfl, fun _ => rfl⟩
  | pushHandle o =>
    obtain rfl := does
    exact ⟨_, stands.pushHandle o, rfl, rfl, by simp [Deed.usesHandles]⟩
  | popHandle =>
    obtain rfl := does
    exact ⟨_, stands.popHandle, rfl, rfl, by simp [Deed.usesHandles]⟩
  | _ =>
    have kept : Stands t own m' := (host_keeps_own _ rfl m [] stands trivial).2 m' does
    exact ⟨own, kept, rfl, rfl, fun _ => rfl⟩

end Machine

end NativeBoundary
