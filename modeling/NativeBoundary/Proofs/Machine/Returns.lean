import NativeBoundary.Proofs.Outcome
import NativeBoundary.Machine.Objects

/-!
# Operations of the machine that return

Each operation of the machine that can stop the run is said here to return exactly under a stated
condition, and what it leaves then is given outright.  A wait that nothing ends never returns: a
monitor is entered at once or not at all.
-/

set_option autoImplicit false

namespace NativeBoundary

namespace Heap

theorem setMonitor_monitor (h : Heap) (o : ObjectId) : h.setMonitor o (h.monitor o) = h := by
  unfold setMonitor monitor
  cases h.monitorId? o with
  | none => rfl
  | some i =>
    simp only [Option.bind_some]
    by_cases inside : i.index < h.monitors.length
    · simp [inside]
    · rw [List.set_eq_of_length_le (Nat.not_lt.1 inside)]

end Heap

theorem Monitor.tryEnter_refused {t : ThreadId} {monitor after : Monitor}
    (refused : monitor.tryEnter t = .ok (false, after)) : after = monitor := by
  unfold tryEnter at refused
  split at refused
  · simp at refused
  · split at refused
    · split at refused <;> simp at refused
    · simpa using refused.symm

namespace Machine

variable {t : ThreadId} {o : ObjectId} {m m' : Machine}

/-! ## Objects -/

theorem onHeap_eq_ok {operation : Heap → ObjectId × Heap} :
    onHeap operation m = .ok o m' ↔
      (operation m.heap).1 = o ∧ { m with heap := (operation m.heap).2 } = m' := by
  unfold onHeap
  rw [Act.modifyGet_eq_ok, Prod.mk.injEq]

theorem addLocal_eq_ok {handle : Handle} :
    addLocal t o m = .ok handle m' ↔
      ((m.thread t).locals.add o).1 = handle ∧
        (m.updateThread t fun thread =>
          { thread with locals := ((m.thread t).locals.add o).2 }) = m' := by
  unfold addLocal
  rw [Act.modifyGet_eq_ok, Prod.mk.injEq]

/-- A lookup of the object that a call locks is at most a first use of a class. -/
theorem lockObject_eq_ok {method : Method} {found : Option ObjectId} :
    lockObject t method m = .ok found m' ↔
      if method.isStatic then
        found = some (m.heap.classObject method.className).1 ∧
          { m with heap := (m.heap.classObject method.className).2 } = m'
      else found = (m.thread t).receiver ∧ m = m' := by
  unfold lockObject
  cases method.isStatic with
  | false => simp [Act.get_bind, Act.pure_eq_ok, @eq_comm _ found]
  | true =>
    simp only [if_true]
    rw [Act.map_eq_ok]
    constructor
    · rintro ⟨o, named, rfl⟩
      obtain ⟨rfl, after⟩ := onHeap_eq_ok.1 named
      exact ⟨rfl, after⟩
    · rintro ⟨rfl, after⟩
      exact ⟨_, onHeap_eq_ok.2 ⟨rfl, after⟩, rfl⟩

theorem checkResult_of_ok {method : Method} {result : Option ObjectId} {u : Unit}
    (run : checkResult method result m = .ok u m') :
    { m with registry :=
        { m.registry with checkedResults := m.registry.checkedResults + 1 } } = m' := by
  unfold checkResult at run
  rw [Act.modify_bind, Act.get_bind] at run
  generalize result.bind _ = rejected at run
  cases rejected with
  | none => exact (Act.pure_eq_ok.1 run).2
  | some reason => exact absurd run Act.throw_ne_ok

theorem currentCopy_of_ok {current : ObjectId} (run : currentCopy o m = .ok current m') :
    { m with heap := { m.heap with barrierCalls := m.heap.barrierCalls + 1 } } = m' := by
  unfold currentCopy changeHeap at run
  rw [Act.modify_bind, Act.get_bind] at run
  generalize Heap.currentCopy? _ o = copy at run
  cases copy with
  | none => exact absurd run Act.throw_ne_ok
  | some _ => exact (Act.pure_eq_ok.1 run).2

/-! ## Pauses -/

def bare (m : Machine) : Machine :=
  { m with lock := {}, threads := [] }

theorem bare_runParked (count : Nat) : (runParked count m).bare = m.bare := by
  induction count generalizing m with
  | zero => rfl
  | succ count ih => exact ih

theorem bare_settle : m.settle.bare = m.bare := by
  unfold settle
  split
  · exact bare_runParked _
  · rfl

theorem heap_of_bare (same : m'.bare = m.bare) : m'.heap = m.heap := by
  have heaps := congrArg Machine.heap same
  exact heaps

@[simp]
theorem heap_settle : m.settle.heap = m.heap :=
  heap_of_bare bare_settle

/-! ## Shares -/

theorem releaseShare_eq_ok {u : Unit} :
    releaseShare t m = .ok u m' ↔
      (m.thread t).holdsShare = true ∧
        ((m.noteShare t false).onLock MutatorLock.unclaim).settle = m' := by
  unfold releaseShare
  rw [Act.get_bind]
  cases holds : (m.thread t).holdsShare with
  | true => simp [Act.set_eq_ok]
  | false => simp [Act.bind_eq_ok, Act.throw_ne_ok]

theorem acquireShare_eq_ok {u : Unit} :
    acquireShare t m = .ok u m' ↔
      (m.thread t).holdsShare = false ∧ m.lock.grants = true ∧
        (m.thread t).suspendRequested = false ∧
        (m.onLock MutatorLock.claim).noteShare t true = m' := by
  unfold acquireShare
  rw [Act.get_bind]
  cases holds : (m.thread t).holdsShare with
  | true => simp [Act.bind_eq_ok, Act.throw_ne_ok]
  | false =>
    cases grants : m.lock.grants with
    | false => simp [Act.bind_eq_ok, Act.throw_ne_ok]
    | true =>
      cases suspend : (m.thread t).suspendRequested with
      | true => simp [Act.bind_eq_ok, Act.throw_ne_ok]
      | false => simp [Act.set_eq_ok]

theorem toNative_eq_ok {u : Unit} :
    toNative t m = .ok u m' ↔
      releaseShare t (m.updateThread t fun thread => { thread with state := .native }) =
        .ok () m' := by
  unfold toNative setState
  rw [Act.modify_bind]

theorem toManaged_eq_ok {u : Unit} :
    toManaged t m = .ok u m' ↔
      ∃ between, acquireShare t m = .ok () between ∧
        (between.updateThread t fun thread => { thread with state := .managed }) = m' := by
  unfold toManaged setState
  constructor
  · intro run
    obtain ⟨_, between, acquired, stored⟩ := Act.bind_eq_ok.1 run
    exact ⟨between, acquired, Act.modify_eq_ok.1 stored⟩
  · rintro ⟨between, acquired, rfl⟩
    exact Act.bind_eq_ok.2 ⟨(), between, acquired, rfl⟩

theorem bare_of_releaseShare {u : Unit} (run : releaseShare t m = .ok u m') :
    m'.bare = m.bare := by
  obtain ⟨-, rfl⟩ := releaseShare_eq_ok.1 run
  exact bare_settle

theorem bare_of_acquireShare {u : Unit} (run : acquireShare t m = .ok u m') :
    m'.bare = m.bare := by
  obtain ⟨-, -, -, rfl⟩ := acquireShare_eq_ok.1 run
  rfl

theorem bare_of_toNative {u : Unit} (run : toNative t m = .ok u m') : m'.bare = m.bare := by
  have released := bare_of_releaseShare (toNative_eq_ok.1 run)
  exact released

theorem bare_of_toManaged {u : Unit} (run : toManaged t m = .ok u m') : m'.bare = m.bare := by
  obtain ⟨between, acquire, rfl⟩ := toManaged_eq_ok.1 run
  have acquired := bare_of_acquireShare acquire
  exact acquired

theorem bare_of_checkSuspend {u : Unit} (run : checkSuspend t m = .ok u m') :
    m'.bare = m.bare := by
  unfold checkSuspend at run
  rw [Act.get_bind] at run
  split at run
  · rw [Act.modify_bind] at run
    obtain ⟨_, between, release, acquire⟩ := Act.bind_eq_ok.1 run
    have released := bare_of_releaseShare release
    have acquired := bare_of_acquireShare acquire
    exact acquired.trans released
  · obtain ⟨-, rfl⟩ := Act.pure_eq_ok.1 run
    rfl

theorem heap_of_toNative {u : Unit} (run : toNative t m = .ok u m') : m'.heap = m.heap :=
  heap_of_bare (bare_of_toNative run)

theorem heap_of_toManaged {u : Unit} (run : toManaged t m = .ok u m') : m'.heap = m.heap :=
  heap_of_bare (bare_of_toManaged run)

theorem heap_of_checkSuspend {u : Unit} (run : checkSuspend t m = .ok u m') :
    m'.heap = m.heap :=
  heap_of_bare (bare_of_checkSuspend run)

/-! ## Monitors -/

theorem tryEnter_eq_ok {entered : Bool} :
    tryEnter t o m = .ok entered m' ↔
      ∃ monitor, (m.heap.monitor o).tryEnter t = .ok (entered, monitor) ∧
        { m with heap := m.heap.setMonitor o monitor } = m' := by
  unfold tryEnter
  rw [Act.get_bind]
  cases result : (m.heap.monitor o).tryEnter t with
  | error defect => simp [Act.throw_ne_ok]
  | ok outcome =>
    obtain ⟨granted, monitor⟩ := outcome
    simp only [Act.bind_eq_ok, Act.set_eq_ok, Act.pure_eq_ok, Except.ok.injEq, Prod.mk.injEq]
    constructor
    · rintro ⟨_, _, rfl, rfl, rfl⟩
      exact ⟨monitor, ⟨rfl, rfl⟩, rfl⟩
    · rintro ⟨_, ⟨rfl, rfl⟩, rfl⟩
      exact ⟨⟨⟩, _, rfl, rfl, rfl⟩

theorem enterWaiting_ne_ok {monitor : Monitor} {u : Unit}
    (refused : (m.heap.monitor o).tryEnter t = .ok (false, monitor)) :
    enterWaiting t o m ≠ .ok u m' := by
  intro run
  obtain ⟨entered, between, tried, rest⟩ := Act.bind_eq_ok.1 run
  obtain ⟨_, again, rfl⟩ := tryEnter_eq_ok.1 tried
  have notEntered : entered = false := by
    rw [refused] at again
    simp only [Except.ok.injEq, Prod.mk.injEq] at again
    exact again.1.symm
  subst notEntered
  exact Act.throw_ne_ok rest

/-- A monitor that is refused is not got by waiting either: nothing happens meanwhile that could
free it. -/
theorem blocking_enterWaiting_ne_ok {monitor : Monitor} {u : Unit}
    (refused : (m.heap.monitor o).tryEnter t = .ok (false, monitor)) :
    blocking t (enterWaiting t o) m ≠ .ok u m' := by
  intro run
  unfold blocking at run
  rw [Act.get_bind] at run
  split at run
  · obtain ⟨_, released, release, run⟩ := Act.bind_eq_ok.1 run
    obtain ⟨_, _, waited, -⟩ := Act.bind_eq_ok.1 run
    obtain ⟨-, rfl⟩ := releaseShare_eq_ok.1 release
    have sameHeap : (((m.noteShare t false).onLock MutatorLock.unclaim).settle).heap = m.heap :=
      heap_settle
    rw [← sameHeap] at refused
    exact enterWaiting_ne_ok refused waited
  · exact enterWaiting_ne_ok refused run

theorem enterMonitor_eq_ok {u : Unit} :
    enterMonitor t o m = .ok u m' ↔
      ∃ monitor, (m.heap.monitor o).tryEnter t = .ok (true, monitor) ∧
        { m with enters := m.enters + 1, heap := m.heap.setMonitor o monitor } = m' := by
  unfold enterMonitor
  rw [Act.modify_bind]
  constructor
  · intro run
    obtain ⟨entered, between, tried, rest⟩ := Act.bind_eq_ok.1 run
    obtain ⟨monitor, granted, rfl⟩ := tryEnter_eq_ok.1 tried
    cases entered with
    | true =>
      obtain ⟨-, rfl⟩ := Act.pure_eq_ok.1 rest
      exact ⟨monitor, granted, rfl⟩
    | false =>
      simp only [Bool.not_false, if_true, Act.modify_bind] at rest
      have same := Monitor.tryEnter_refused granted
      subst same
      rw [Heap.setMonitor_monitor] at rest
      exact absurd rest (blocking_enterWaiting_ne_ok granted)
  · rintro ⟨monitor, granted, rfl⟩
    exact Act.bind_eq_ok.2 ⟨true, _, tryEnter_eq_ok.2 ⟨monitor, granted, rfl⟩, rfl⟩

theorem exitRaw_eq_ok {exited : Except MonitorMisuse Unit} :
    exitRaw t o m = .ok exited m' ↔
      (∃ monitor, (m.heap.monitor o).exit t = .ok (.ok monitor) ∧ exited = .ok () ∧
        { m with heap := m.heap.setMonitor o monitor } = m') ∨
      ∃ misuse, (m.heap.monitor o).exit t = .ok (.error misuse) ∧ exited = .error misuse ∧
        m = m' := by
  unfold exitRaw
  rw [Act.get_bind]
  cases result : (m.heap.monitor o).exit t with
  | error defect => simp [Act.throw_ne_ok]
  | ok outcome =>
    cases outcome with
    | ok monitor =>
      rw [Act.bind_eq_ok]
      simp [Act.set_eq_ok, Act.pure_eq_ok, @eq_comm _ exited]
    | error misuse => simp [Act.pure_eq_ok, @eq_comm _ exited]

theorem exitMonitor_eq_ok {exited : Except Throwable Unit} :
    exitMonitor t o m = .ok exited m' ↔
      (∃ monitor, (m.heap.monitor o).exit t = .ok (.ok monitor) ∧ exited = .ok () ∧
        { m with heap := m.heap.setMonitor o monitor } = m') ∨
      ∃ misuse, (m.heap.monitor o).exit t = .ok (.error misuse) ∧
        exited = .error (.illegalMonitorState misuse.message) ∧ m = m' := by
  unfold exitMonitor
  constructor
  · intro run
    obtain ⟨result, between, exit, rest⟩ := Act.bind_eq_ok.1 run
    obtain ⟨monitor, given, rfl, rfl⟩ | ⟨misuse, refused, rfl, rfl⟩ := exitRaw_eq_ok.1 exit
    · obtain ⟨rfl, rfl⟩ := Act.pure_eq_ok.1 rest
      exact .inl ⟨monitor, given, rfl, rfl⟩
    · obtain ⟨rfl, rfl⟩ := Act.pure_eq_ok.1 rest
      exact .inr ⟨misuse, refused, rfl, rfl⟩
  · rintro (⟨monitor, given, rfl, rfl⟩ | ⟨misuse, refused, rfl, rfl⟩)
    · exact Act.bind_eq_ok.2 ⟨.ok (), _, exitRaw_eq_ok.2 (.inl ⟨monitor, given, rfl, rfl⟩), rfl⟩
    · exact Act.bind_eq_ok.2
        ⟨.error misuse, _, exitRaw_eq_ok.2 (.inr ⟨misuse, refused, rfl, rfl⟩), rfl⟩

theorem nativeEnter_eq_ok {u : Unit} :
    nativeEnter t o m = .ok u m' ↔
      ∃ between, enterMonitor t o m = .ok () between ∧
        (between.updateThread t fun thread =>
          { thread with nativeMonitors := thread.nativeMonitors ++ [o] }) = m' := by
  unfold nativeEnter
  constructor
  · intro run
    obtain ⟨_, between, entered, noted⟩ := Act.bind_eq_ok.1 run
    exact ⟨between, entered, Act.modify_eq_ok.1 noted⟩
  · rintro ⟨between, entered, rfl⟩
    exact Act.bind_eq_ok.2 ⟨(), between, entered, rfl⟩

/-- Native code that exits a monitor strikes out its note of it, or gets the misuse pending. -/
theorem nativeExitOrThrow_of_ok {u : Unit} (run : nativeExitOrThrow t o m = .ok u m') :
    ∃ between,
      (exitMonitor t o m = .ok (.ok ()) between ∧
        (between.updateThread t fun thread => { thread with
          nativeMonitors :=
            Thread.eraseLast (between.heap.sameMonitor o) thread.nativeMonitors }) = m') ∨
      ∃ exception, exitMonitor t o m = .ok (.error exception) between ∧
        (between.updateThread t fun thread => { thread with pending := some exception }) = m' := by
  obtain ⟨exited, after, exit, rest⟩ := Act.bind_eq_ok.1 run
  obtain ⟨result, between, exitRun, noted⟩ := Act.bind_eq_ok.1 exit
  refine ⟨between, ?_⟩
  cases result with
  | error exception =>
    obtain ⟨rfl, rfl⟩ := Act.pure_eq_ok.1 noted
    exact .inr ⟨exception, exitRun, Act.modify_eq_ok.1 rest⟩
  | ok _ =>
    obtain ⟨_, _, struck, done⟩ := Act.bind_eq_ok.1 noted
    obtain ⟨rfl, rfl⟩ := Act.pure_eq_ok.1 done
    obtain ⟨-, rfl⟩ := Act.pure_eq_ok.1 rest
    exact .inl ⟨exitRun, Act.modify_eq_ok.1 struck⟩

end Machine

end NativeBoundary
