import NativeBoundary.Proofs.Crossing.PendingSlot
import NativeBoundary.Proofs.Machine.OwnPart

/-!
# What is seen of a thread

Most of what a thread does shows neither in some part of its own record nor in the record of any
other thread.  A pause that completes meanwhile clears the suspend requests of all, so a look that
includes those is not spoken of here.
-/

set_option autoImplicit false

namespace NativeBoundary.Machine

variable {α : Type} {see : Thread → α} {t t' : ThreadId} {m m' : Machine} {u : Unit}

def seen? (see : Thread → α) (t : ThreadId) (m : Machine) : Option α :=
  (m.thread? t).map see

theorem see_thread (same : m'.seen? see t = m.seen? see t) :
    see (m'.thread t) = see (m.thread t) := by
  unfold seen? at same
  unfold thread
  cases before : m.thread? t <;> cases after : m'.thread? t <;> simp_all

/-- A look at `t'` to which the ways of `t` to native code and back, and the scopes and protected
objects of `t`, are hidden. -/
structure Hides (see : Thread → α) (t' t : ThreadId) : Prop where
  suspend : ∀ thread requested, see { thread with suspendRequested := requested } = see thread
  ways : t' = t → ∀ thread state holdsShare, see { thread with state, holdsShare } = see thread
  scopes : t' = t → ∀ thread base locals handles,
    see { thread with base, locals, handles } = see thread

theorem seen?_updateThread (change : Thread → Thread)
    (keeps : ∀ thread, (change thread).id = thread.id)
    (hidden : t' = t → ∀ thread, see (change thread) = see thread) :
    (m.updateThread t change).seen? see t' = m.seen? see t' := by
  unfold seen?
  by_cases same : t' = t
  · subst same
    rw [thread?_updateThread t' change m keeps, Option.map_map]
    congr 1
    exact funext (hidden rfl)
  · rw [thread?_updateThread_of_ne t t' change m keeps same]

namespace Hides

variable (hides : Hides see t' t)
include hides

theorem requestSuspend (m : Machine) (requested : Bool) :
    (m.requestSuspend requested).seen? see t' = m.seen? see t' := by
  unfold seen? thread? Machine.requestSuspend
  rw [List.find?_map]
  simp only [Function.comp_def, Option.map_map, hides.suspend]

theorem runParked (count : Nat) (m : Machine) :
    (m.runParked count).seen? see t' = m.seen? see t' := by
  induction count generalizing m with
  | zero => rfl
  | succ count ih =>
    exact (ih _).trans (hides.requestSuspend ((m.onLock _).onLock _) false)

theorem settle (m : Machine) : m.settle.seen? see t' = m.seen? see t' := by
  unfold Machine.settle
  split
  · exact hides.runParked _ m
  · rfl

theorem releaseShare (run : releaseShare t m = .ok u m') : m'.seen? see t' = m.seen? see t' := by
  obtain ⟨-, rfl⟩ := releaseShare_eq_ok.1 run
  rw [hides.settle]
  exact seen?_updateThread (fun thread => { thread with holdsShare := false }) (fun _ => rfl)
    fun same thread => hides.ways same thread thread.state false

theorem acquireShare (run : acquireShare t m = .ok u m') : m'.seen? see t' = m.seen? see t' := by
  obtain ⟨-, -, -, rfl⟩ := acquireShare_eq_ok.1 run
  exact seen?_updateThread (m := m.onLock _) (fun thread => { thread with holdsShare := true })
    (fun _ => rfl) fun same thread => hides.ways same thread thread.state true

theorem storeState (m : Machine) (state : ThreadState) :
    (m.updateThread t fun thread => { thread with state }).seen? see t' = m.seen? see t' :=
  seen?_updateThread (fun thread => { thread with state }) (fun _ => rfl)
    fun same thread => hides.ways same thread state thread.holdsShare

theorem toNative (run : toNative t m = .ok u m') : m'.seen? see t' = m.seen? see t' :=
  (hides.releaseShare (toNative_eq_ok.1 run)).trans (hides.storeState m .native)

theorem toManaged (run : toManaged t m = .ok u m') : m'.seen? see t' = m.seen? see t' := by
  obtain ⟨between, acquired, rfl⟩ := toManaged_eq_ok.1 run
  rw [hides.storeState between .managed]
  exact hides.acquireShare acquired

theorem checkSuspend (run : checkSuspend t m = .ok u m') : m'.seen? see t' = m.seen? see t' := by
  unfold Machine.checkSuspend at run
  rw [Act.get_bind] at run
  split at run
  · rw [Act.modify_bind] at run
    obtain ⟨_, released, release, acquire⟩ := Act.bind_eq_ok.1 run
    have kept := hides.releaseShare release
    exact (hides.acquireShare acquire).trans kept
  · obtain ⟨-, rfl⟩ := Act.pure_eq_ok.1 run
    rfl

/-- Of what the boundary does to a thread, at most what it writes to the slot of the pending
exception is seen. -/
theorem of_does {deed : Deed ObjectId Throwable} (others : t' = t → deed.writesSlot = false)
    (does : (host t).Does deed m m') : m'.seen? see t' = m.seen? see t' := by
  cases deed with
  | takePending =>
    obtain rfl := does
    exact seen?_updateThread (fun thread => { thread with pending := none }) (fun _ => rfl)
      fun same => absurd (others same) (by simp [Deed.writesSlot])
  | setPending exception =>
    obtain rfl := does
    exact seen?_updateThread (fun thread => { thread with pending := some exception })
      (fun _ => rfl) fun same => absurd (others same) (by simp [Deed.writesSlot])
  | toNative => exact hides.toNative does
  | toManaged => exact hides.toManaged does
  | checkSuspend => exact hides.checkSuspend does
  | setScopeBase mark =>
    obtain rfl := does
    exact seen?_updateThread (fun thread => { thread with base := mark }) (fun _ => rfl)
      fun same thread => hides.scopes same thread mark thread.locals thread.handles
  | setScopeTop mark =>
    obtain rfl := does
    exact seen?_updateThread (fun thread => { thread with locals := thread.locals.truncate mark })
      (fun _ => rfl) fun same thread =>
        hides.scopes same thread thread.base (thread.locals.truncate mark) thread.handles
  | pushHandle o =>
    obtain rfl := does
    exact seen?_updateThread (fun thread => { thread with handles := thread.handles ++ [o] })
      (fun _ => rfl) fun same thread =>
        hides.scopes same thread thread.base thread.locals (thread.handles ++ [o])
  | popHandle =>
    obtain rfl := does
    exact seen?_updateThread (fun thread => { thread with handles := thread.handles.dropLast })
      (fun _ => rfl) fun same thread =>
        hides.scopes same thread thread.base thread.locals thread.handles.dropLast
  | enterMonitor o =>
    obtain ⟨_, run⟩ := does
    obtain ⟨_, -, rfl⟩ := enterMonitor_eq_ok.1 (host_enterMonitor_eq_ok.1 run).2.2
    rfl
  | exitMonitor o =>
    obtain ⟨_, run⟩ := does
    obtain ⟨_, -, -, rfl⟩ | ⟨_, -, -, rfl⟩ := exitMonitor_eq_ok.1 run
    · rfl
    · rfl
  | lockObject method =>
    obtain ⟨_, run⟩ := does
    have outcome := lockObject_eq_ok.1 run
    split at outcome
    · rw [← outcome.2]
      rfl
    · rw [outcome.2]
  | checkResult method result =>
    obtain rfl := checkResult_of_ok does
    rfl
  | currentCopy o =>
    obtain ⟨_, run⟩ := does
    obtain rfl := currentCopy_of_ok run
    rfl
  | decode _ | isMarked _ | asked _ | begun _ | ending _ | traced _ =>
    obtain rfl := does
    rfl

end Hides

theorem hides_executing (t' t : ThreadId) : Hides Thread.executing t' t where
  suspend _ _ := rfl
  ways _ _ _ _ := rfl
  scopes _ _ _ _ _ := rfl

theorem host_keeps_executing (t : ThreadId) (method : Option Method)
    (deed : Deed ObjectId Throwable) :
    (host t).Keeps (fun m => (host t).executing m = method) deed := by
  refine .of_does fun m m' before does => ?_
  refine Eq.trans ?_ before
  change (m'.thread t).executing = (m.thread t).executing
  refine see_thread ?_
  cases deed with
  | takePending =>
    obtain rfl := does
    exact seen?_updateThread _ (fun _ => rfl) fun _ _ => rfl
  | setPending exception =>
    obtain rfl := does
    exact seen?_updateThread _ (fun _ => rfl) fun _ _ => rfl
  | _ => exact (hides_executing t t).of_does (fun _ => rfl) does

end NativeBoundary.Machine
