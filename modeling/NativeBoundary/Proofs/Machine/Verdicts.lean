import NativeBoundary.Proofs.Crossing.Faults
import NativeBoundary.Proofs.Machine.HeapHistory
import NativeBoundary.Proofs.Machine.Seen

/-!
# What stops the operations of the machine

The slot of a thread's exception is written to by the boundary and by native code alone.  For each
operation of the machine at the thresholds of a call it is said what it leaves of the thread, of its
exception and of the heap, and by what it can be stopped: a wait that nothing ends, a misuse that is
named, or a fault that is given outright.
-/

set_option autoImplicit false

namespace NativeBoundary

namespace Machine

variable {t : ThreadId} {o : ObjectId} {m m' : Machine} {u : Unit} {why : Halt}

/-! ## The slot of an exception -/

theorem hides_pending (t' t : ThreadId) : Hides Thread.pending t' t where
  suspend _ _ := rfl
  ways _ _ _ _ := rfl
  scopes _ _ _ _ _ := rfl

theorem host_slotted (t : ThreadId) : (host t).Slotted fun m => ∃ own, Stands t own m where
  clearPending m here := by
    obtain ⟨own, stands⟩ := here
    have cleared := stands.thread_updateThread (fun thread => { thread with pending := none })
      fun _ => rfl
    exact ⟨⟨own, stands.setPending none⟩, congrArg Thread.pending cleared⟩
  setPending exception m here := by
    obtain ⟨own, stands⟩ := here
    have set := stands.thread_updateThread
      (fun thread => { thread with pending := some exception }) fun _ => rfl
    exact ⟨⟨own, stands.setPending (some exception)⟩, congrArg Thread.pending set⟩
  otherwise deed m m' here others does := by
    obtain ⟨own, stands⟩ := here
    obtain ⟨own', stands', -⟩ := stands_of_does stands does
    refine ⟨⟨own', stands'⟩, ?_⟩
    exact see_thread ((hides_pending t t).of_does (fun _ => others) does)

/-! ## What a machine shows of a thread -/

/-- A thread stands with its own part and with what is pending on it, over a heap of which something
is known. -/
structure Shows (t : ThreadId) (own : Thread) (pending : Option Throwable) (known : Heap → Prop)
    (m : Machine) : Prop where
  stands : Stands t own m
  pending : (m.thread t).pending = pending
  heap : known m.heap

variable {own own' : Thread} {pending : Option Throwable} {known : Heap → Prop} {h : Heap}
  {others : Halt → Prop}

theorem Shows.of_does {deed : Deed ObjectId Throwable} (shows : Shows t own pending known m)
    (others : deed.writesSlot = false) (does : (host t).Does deed m m') (stands : Stands t own' m')
    (heap : m'.heap = m.heap) : Shows t own' pending known m' where
  stands := stands
  pending :=
    ((host_slotted t).otherwise deed m m' ⟨own, shows.stands⟩ others does).2.trans shows.pending
  heap := heap ▸ shows.heap

theorem Shows.clearPending (shows : Shows t own pending known m) :
    Shows t own none known ((host t).clearPending m) :=
  ⟨shows.stands.setPending none,
    ((host_slotted t).clearPending m ⟨own, shows.stands⟩).2, shows.heap⟩

theorem Shows.setPending (shows : Shows t own pending known m) (exception : Throwable) :
    Shows t own (some exception) known ((host t).setPending exception m) :=
  ⟨shows.stands.setPending (some exception),
    ((host_slotted t).setPending exception m ⟨own, shows.stands⟩).2, shows.heap⟩

/-! ## The ways to native code and back -/

theorem toNative_verdict (holds : own.holdsShare = true) :
    Act.Verdict others (Stands t own) (toNative t) none fun _ =>
      Stands t { own with state := .native, holdsShare := false } := by
  refine .of_returns fun m stands => ?_
  have run : toNative t m = .ok () _ :=
    toNative_eq_ok.2 (releaseShare_eq_ok.2
      ⟨(stands.storeState .native).holdsShare.trans holds, rfl⟩)
  exact ⟨(), _, run, (stands.toNative run).2⟩

theorem acquireShare_deadlocks (free : (m.thread t).holdsShare = false)
    (stopped : acquireShare t m = .error why m') : why = .deadlock := by
  unfold acquireShare at stopped
  rw [Act.get_bind, free] at stopped
  simp only [Bool.false_eq_true, if_false] at stopped
  split at stopped
  · cases stopped
    rfl
  · cases stopped

theorem releaseShare_returns (holds : (m.thread t).holdsShare = true) :
    ∃ m', releaseShare t m = .ok () m' ∧ (m'.thread t).holdsShare = false := by
  have run : releaseShare t m = .ok () _ := releaseShare_eq_ok.2 ⟨holds, rfl⟩
  exact ⟨_, run, ((Stands.of_holdsShare holds).releaseShare run).2.holdsShare⟩

theorem toManaged_stops (stopped : toManaged t m = .error why m') : m' = m := by
  unfold toManaged at stopped
  cases acquiring : acquireShare t m with
  | ok _ acquired => cases (Act.bind_of_ok acquiring).symm.trans stopped
  | error other acquired =>
    cases (Act.bind_of_error acquiring).symm.trans stopped
    unfold acquireShare at acquiring
    rw [Act.get_bind] at acquiring
    split at acquiring
    · cases acquiring
      rfl
    · split at acquiring <;> cases acquiring
      rfl

theorem checkSuspend_stops (stopped : checkSuspend t m = .error why m') : why = .deadlock := by
  unfold checkSuspend at stopped
  rw [Act.get_bind] at stopped
  split at stopped
  · next asked =>
    rw [Act.modify_bind] at stopped
    obtain ⟨released, releasing, free⟩ :=
      releaseShare_returns (m := m.onLock MutatorLock.countCheck) asked.2
    rw [Act.bind_of_ok releasing] at stopped
    exact acquireShare_deadlocks free stopped
  · cases stopped

theorem toManaged_verdict (free : own.holdsShare = false) :
    Act.Verdict (· = .deadlock) (Shows t own pending known) (toManaged t) none fun _ =>
      Shows t { own with state := .managed, holdsShare := true } pending known := by
  refine .of_runs (fun m _ m' shows run => ?_) fun m why m' shows stopped => ?_
  · have does : (host t).Does .toManaged m m' := run
    exact ⟨rfl, shows.of_does rfl does (shows.stands.toManaged run).2 (heap_of_toManaged run)⟩
  · left
    have notHeld := shows.stands.holdsShare.trans free
    cases acquired : acquireShare t m with
    | ok _ between =>
      have stored := (Act.bind_of_ok acquired).symm.trans stopped
      cases stored
    | error other between =>
      cases (Act.bind_of_error acquired).symm.trans stopped
      exact acquireShare_deadlocks notHeld acquired

theorem checkSuspend_verdict :
    Act.Verdict (· = .deadlock) (Shows t own pending known) (checkSuspend t) none fun _ =>
      Shows t own pending known := by
  refine .of_runs (fun m _ m' shows run => ?_) fun m why m' shows stopped => ?_
  · have does : (host t).Does .checkSuspend m m' := run
    exact ⟨rfl, shows.of_does rfl does (shows.stands.checkSuspend run) (heap_of_checkSuspend run)⟩
  · exact .inl (checkSuspend_stops stopped)

/-! ## Monitors -/

theorem tryEnter_stops (stopped : tryEnter t o m = .error why m') :
    why = .defect .recursionOverflow := by
  unfold tryEnter at stopped
  rw [Act.get_bind] at stopped
  cases tried : (m.heap.monitor o).tryEnter t with
  | ok outcome =>
    rw [tried] at stopped
    cases stopped
  | error defect =>
    rw [tried] at stopped
    cases stopped
    unfold Monitor.tryEnter at tried
    split at tried
    · cases tried
    · split at tried
      · split at tried <;> cases tried
        rfl
      · cases tried

theorem enterWaiting_stops (stopped : enterWaiting t o m = .error why m') :
    why = .defect .recursionOverflow ∨ why = .deadlock := by
  unfold enterWaiting at stopped
  cases trying : tryEnter t o m with
  | error other tried =>
    cases (Act.bind_of_error trying).symm.trans stopped
    exact .inl (tryEnter_stops trying)
  | ok entered tried =>
    have rest := (Act.bind_of_ok trying).symm.trans stopped
    cases entered with
    | true => cases rest
    | false =>
      cases rest
      exact .inr rfl

theorem tryEnter_faultless (t : ThreadId) (o : ObjectId) : Act.Faultless (tryEnter t o) := by
  intro m why m' stopped
  rw [tryEnter_stops stopped]
  rfl

theorem enterWaiting_faultless (t : ThreadId) (o : ObjectId) :
    Act.Faultless (enterWaiting t o) := by
  intro m why m' stopped
  rcases enterWaiting_stops stopped with rfl | rfl <;> rfl

theorem releaseShare_faultless (t : ThreadId) : Act.Faultless (releaseShare t) := by
  intro m why m' stopped
  cases holds : (m.thread t).holdsShare with
  | true =>
    have run : releaseShare t m = .ok () _ := releaseShare_eq_ok.2 ⟨holds, rfl⟩
    cases run.symm.trans stopped
  | false =>
    unfold releaseShare at stopped
    rw [Act.get_bind, holds] at stopped
    cases stopped
    rfl

theorem acquireShare_faultless (t : ThreadId) : Act.Faultless (acquireShare t) := by
  intro m why m' stopped
  cases holds : (m.thread t).holdsShare with
  | false =>
    obtain rfl := acquireShare_deadlocks holds stopped
    rfl
  | true =>
    unfold acquireShare at stopped
    rw [Act.get_bind, holds] at stopped
    cases stopped
    rfl

theorem blocking_faultless {α : Type} (t : ThreadId) {action : Act Machine α}
    (inner : Act.Faultless action) : Act.Faultless (blocking t action) := by
  intro m why m' stopped
  unfold blocking at stopped
  rw [Act.get_bind] at stopped
  split at stopped
  · refine Act.Faultless.bind (releaseShare_faultless t) (fun _ => ?_) m why m' stopped
    exact .bind inner fun a => .bind (acquireShare_faultless t) fun _ =>
      .of_returns fun m => ⟨a, m, rfl⟩
  · exact inner m why m' stopped

theorem enterMonitor_faultless (t : ThreadId) (o : ObjectId) :
    Act.Faultless (enterMonitor t o) := by
  refine .bind (.of_returns fun m => ⟨(), _, rfl⟩) fun _ =>
    .bind (tryEnter_faultless t o) fun entered => ?_
  cases entered with
  | true => exact .of_returns fun m => ⟨(), m, rfl⟩
  | false =>
    exact .bind (.of_returns fun m => ⟨(), _, rfl⟩) fun _ =>
      blocking_faultless t (enterWaiting_faultless t o)

/-- A thread that has a share gives it back for its wait, and so can take it again. -/
theorem blocking_stops (holds : (m.thread t).holdsShare = true)
    (stopped : blocking t (enterWaiting t o) m = .error why m') :
    why = .defect .recursionOverflow ∨ why = .deadlock := by
  unfold blocking at stopped
  rw [Act.get_bind, if_pos holds] at stopped
  obtain ⟨released, releasing, free⟩ := releaseShare_returns holds
  rw [Act.bind_of_ok releasing] at stopped
  cases waiting : enterWaiting t o released with
  | error other waited =>
    cases (Act.bind_of_error waiting).symm.trans stopped
    exact enterWaiting_stops waiting
  | ok _ waited =>
    have rest := (Act.bind_of_ok waiting).symm.trans stopped
    obtain ⟨entered, tried, trying, granted⟩ := Act.bind_eq_ok.1 waiting
    cases entered with
    | false => exact absurd granted Act.throw_ne_ok
    | true =>
      obtain ⟨-, rfl⟩ := Act.pure_eq_ok.1 granted
      obtain ⟨monitor, -, rfl⟩ := tryEnter_eq_ok.1 trying
      cases acquiring : acquireShare t
          { released with heap := released.heap.setMonitor o monitor } with
      | ok _ acquired => cases (Act.bind_of_ok acquiring).symm.trans rest
      | error other acquired =>
        cases (Act.bind_of_error acquiring).symm.trans rest
        exact .inr (acquireShare_deadlocks (by exact free) acquiring)

theorem enterMonitor_stops (holds : (m.thread t).holdsShare = true)
    (stopped : enterMonitor t o m = .error why m') :
    why = .defect .recursionOverflow ∨ why = .deadlock := by
  unfold enterMonitor at stopped
  rw [Act.modify_bind] at stopped
  cases trying : tryEnter t o { m with enters := m.enters + 1 } with
  | error other tried =>
    cases (Act.bind_of_error trying).symm.trans stopped
    exact .inl (tryEnter_stops trying)
  | ok entered tried =>
    have rest := (Act.bind_of_ok trying).symm.trans stopped
    obtain ⟨monitor, -, rfl⟩ := tryEnter_eq_ok.1 trying
    cases entered with
    | true => cases rest
    | false =>
      simp only [Bool.not_false, if_true, Act.modify_bind] at rest
      exact blocking_stops (by exact holds) rest

theorem exitMonitor_stops (stopped : exitMonitor t o m = .error why m') :
    why = .defect .recursionUnderflow := by
  unfold exitMonitor at stopped
  cases exiting : exitRaw t o m with
  | ok exited after =>
    have rest := (Act.bind_of_ok exiting).symm.trans stopped
    cases exited <;> cases rest
  | error other after =>
    cases (Act.bind_of_error exiting).symm.trans stopped
    unfold exitRaw at exiting
    rw [Act.get_bind] at exiting
    cases exited : (m.heap.monitor o).exit t with
    | ok outcome =>
      rw [exited] at exiting
      cases outcome <;> cases exiting
    | error defect =>
      rw [exited] at exiting
      cases exiting
      unfold Monitor.exit at exited
      split at exited
      · split at exited <;> cases exited
        rfl
      · cases exited

theorem host_enterMonitor_verdict (passing : ∀ why : Halt, why.isFault = false → others why)
    (o : ObjectId) :
    Act.Verdict others (Stands t own) ((host t).enterMonitor o) none fun entered m =>
      entered = .ok () ∧ Stands t own m := by
  refine .of_runs (fun m entered m' stands run => ?_) fun m why m' _ stopped => ?_
  · obtain ⟨-, entered, entering⟩ := host_enterMonitor_eq_ok.1 run
    exact ⟨rfl, entered, stands.enterMonitor entering⟩
  · refine .inl (passing why ?_)
    simp only [host, Act.get_bind] at stopped
    split at stopped
    · refine Act.Faultless.bind (enterMonitor_faultless t o) (fun _ => ?_) m why m' stopped
      exact .of_returns fun m => ⟨_, m, rfl⟩
    · cases stopped
      rfl

def exitFailure? (t : ThreadId) (h : Heap) (o : ObjectId) : Option Throwable :=
  let owner := (h.monitor o).owner
  if owner = some t then none
  else some (.illegalMonitorState (MonitorMisuse.message { thread := t, owner }))

theorem exitMonitor_verdict (sound : h.Sound) (o : ObjectId) :
    Act.Verdict others (Shows t own pending (· = h)) (exitMonitor t o) none fun exited m =>
      exited = (exitFailure? t h o).elim (.ok ()) .error ∧
        Shows t own pending (fun later => later.copies = h.copies) m := by
  refine .of_returns fun m shows => ?_
  obtain rfl := shows.heap
  unfold exitFailure?
  by_cases owned : (m.heap.monitor o).owner = some t
  · obtain ⟨after, given⟩ := Monitor.exit_of_owner (sound.monitor o) owned
    have run : exitMonitor t o m = .ok (.ok ()) _ :=
      exitMonitor_eq_ok.2 (.inl ⟨after, given, rfl, rfl⟩)
    refine ⟨_, _, run, by simp [owned], shows.stands.exitMonitor run, ?_, ?_⟩
    · exact shows.pending
    · unfold Heap.setMonitor
      cases m.heap.monitorId? o <;> rfl
  · have refused : (m.heap.monitor o).exit t =
        .ok (.error { thread := t, owner := (m.heap.monitor o).owner }) := by
      unfold Monitor.exit
      rw [if_neg owned]
    refine ⟨_, m, exitMonitor_eq_ok.2 (.inr ⟨_, refused, rfl, rfl⟩), by simp [owned], ?_⟩
    exact ⟨shows.stands, shows.pending, rfl⟩

/-! ## Results -/

theorem currentCopy_stops (stopped : currentCopy o m = .error why m') : why = .deadlock := by
  unfold currentCopy changeHeap at stopped
  rw [Act.modify_bind, Act.get_bind] at stopped
  generalize Heap.currentCopy? _ o = copy at stopped
  cases copy with
  | some _ => cases stopped
  | none =>
    cases stopped
    rfl

theorem rejection?_of_copies (same : m.heap.copies = m'.heap.copies) (method : Method) :
    m.rejection? method = m'.rejection? method := by
  have seen : m.heap.copy? = m'.heap.copy? := by
    funext o
    rw [Heap.copy?, same, Heap.copy?]
  funext o
  unfold rejection? Heap.text Heap.isAlive Heap.className
  rw [seen]

theorem checkResult_verdict {m₀ : Machine} (method : Method) (result : Option ObjectId) :
    Act.Verdict others (fun m => m.heap.copies = m₀.heap.copies) (checkResult method result)
      ((result.bind (m₀.rejection? method)).map (.badReference method.qualifiedName))
      fun _ _ => True := by
  intro m same
  rw [← rejection?_of_copies same]
  unfold checkResult
  rw [Act.modify_bind, Act.get_bind]
  generalize decided : result.bind _ = rejected
  have before : result.bind (m.rejection? method) = rejected := decided
  rw [before]
  cases rejected with
  | none => exact ⟨rfl, trivial⟩
  | some reason => exact .inr rfl

end Machine

end NativeBoundary
