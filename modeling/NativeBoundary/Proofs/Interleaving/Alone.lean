import NativeBoundary.Proofs.Interleaving.Steps

/-!
# Threads and pauses left to themselves

The machine carries out an operation in one go; among the interleavings it is an errand, taken step
by step.  Where nobody else moves the two agree: the steps of the errand come to their end exactly
where the operation returns, and leave the same machine.  The phases of a pause that nothing is in
the way of come to the end of a pause in the same way.
-/

set_option autoImplicit false

namespace NativeBoundary

def Service.operation (t : ThreadId) : Service → Act Machine Unit
  | .newObject className => do
    let _ ← Machine.newObject t className
  | .register method => Machine.register method
  | .nativeExit o => Machine.nativeExitOrThrow t o
  | service => do
    let _ ← Machine.serve t service

def Errand.operation (t : ThreadId) : Errand → Act Machine Unit
  | .toNative => Machine.toNative t
  | .toManaged => Machine.toManaged t
  | .checkSuspend => Machine.checkSuspend t
  | .enterMonitor o => Machine.enterMonitor t o
  | .nativeEnter o => Machine.nativeEnter t o
  | .serve service => service.operation t
  | .detach => Machine.detach t

namespace Concurrent

/-- The steps of a thread, taken with nobody in between, come to their end and leave a machine. -/
inductive Finishes (t : ThreadId) : Machine → List Atom → Machine → Prop where
  | rest (m : Machine) : Finishes t m [] m
  | step {m between m' : Machine} {first : Atom} {more rest : List Atom}
      (done : atom m t first = some (between, more))
      (later : Finishes t between (more ++ rest) m') : Finishes t m (first :: rest) m'

variable {s s' : Concurrent} {m m' : Machine} {t : ThreadId} {thread : Thread} {o : ObjectId}
  {first : Atom} {rest steps : List Atom} {service : Service}

/-! ## Steps with nobody in between -/

@[simp]
theorem finishes_nil : Finishes t m [] m' ↔ m = m' := by
  constructor
  · intro finishes
    cases finishes
    rfl
  · rintro rfl
    exact .rest m

theorem finishes_cons : Finishes t m (first :: rest) m' ↔
    ∃ between more, atom m t first = some (between, more) ∧
      Finishes t between (more ++ rest) m' := by
  constructor
  · intro finishes
    cases finishes with
    | step done later => exact ⟨_, _, done, later⟩
  · rintro ⟨_, _, done, later⟩
    exact .step done later

theorem finishes_cons_of_done {between : Machine} (done : atom m t first = some (between, [])) :
    Finishes t m (first :: rest) m' ↔ Finishes t between rest m' := by
  simp [finishes_cons, done]

@[simp]
theorem finishes_store {state : ThreadState} : Finishes t m (.store state :: rest) m' ↔
    Finishes t (m.updateThread t fun thread => { thread with state }) rest m' :=
  finishes_cons_of_done rfl

@[simp]
theorem finishes_release :
    Finishes t m (.release :: rest) m' ↔ Finishes t (dropShare t m) rest m' :=
  finishes_cons_of_done rfl

@[simp]
theorem finishes_count : Finishes t m (.count :: rest) m' ↔
    Finishes t (m.onLock MutatorLock.countCheck) rest m' :=
  finishes_cons_of_done rfl

@[simp]
theorem finishes_dismiss :
    Finishes t m (.dismiss :: rest) m' ↔ Finishes t (m.dismiss t) rest m' :=
  finishes_cons_of_done rfl

theorem not_finishes_of_wait (waits : atom m t first = none) :
    ¬ Finishes t m (first :: rest) m' := by
  simp [finishes_cons, waits]

theorem plan_plan (s : Concurrent) (t : ThreadId) (steps steps' : List Atom) :
    (s.plan t steps).plan t steps' = s.plan t steps' := by
  simp [plan]

theorem advance_plan {between : Machine} {more : List Atom}
    (done : atom m t first = some (between, more)) :
    ((s.withMachine m).plan t (first :: rest)).step (.advance t) =
      some ((s.withMachine between).plan t (more ++ rest)) := by
  have taken : ((s.withMachine m).plan t (first :: rest)).step (.advance t) =
      some ((((s.withMachine m).plan t (first :: rest)).withMachine between).plan t
        (more ++ rest)) := by
    have here : ((s.withMachine m).plan t (first :: rest)).machine = m := rfl
    simp [Concurrent.step, here, done]
  rw [taken]
  exact congrArg some (plan_plan (s.withMachine between) t (first :: rest) (more ++ rest))

/-- Steps that come to their end are a run of one thread, which leaves the others and the pauses as
they are. -/
theorem run_of_finishes (finishes : Finishes t m steps m') (s : Concurrent) :
    ∃ count, ((s.withMachine m).plan t steps).run (List.replicate count (.advance t)) =
      some ((s.withMachine m').plan t []) := by
  induction finishes with
  | rest m => exact ⟨0, rfl⟩
  | step done later ih =>
    obtain ⟨count, ran⟩ := ih
    refine ⟨count + 1, ?_⟩
    rw [List.replicate_succ, run, advance_plan done]
    exact ran

theorem finishes_of_run {count : Nat}
    (ran : s.run (List.replicate count (.advance t)) = some s') (idle : s'.remaining t = []) :
    Finishes t s.machine (s.remaining t) s'.machine := by
  induction count generalizing s with
  | zero =>
    obtain rfl := Option.some.inj ran
    rw [idle]
    exact .rest s.machine
  | succ count ih =>
    rw [List.replicate_succ, run] at ran
    obtain ⟨between, stepped, ran⟩ := Option.bind_eq_some_iff.1 ran
    obtain ⟨first, rest, m, more, planned, done, rfl⟩ := of_advance stepped
    have later := ih ran
    rw [remaining_plan] at later
    rw [planned]
    exact .step done later

/-! ## Threads and the lock -/

theorem attached_updateThread (attached : m.thread? t = some thread) (change : Thread → Thread)
    (number : ∀ thread, (change thread).id = thread.id) :
    (m.updateThread t change).thread? t = some (change thread) := by
  rw [Machine.thread?_updateThread t change m number, attached, Option.map_some]

theorem thread_of_attached (attached : m.thread? t = some thread) : m.thread t = thread := by
  rw [Machine.thread, attached, Option.getD_some]

/-- With no pause waiting for the lock, giving a share back sets nothing going. -/
theorem settle_of_parked (nobody : m.lock.parked = 0) : m.settle = m := by
  unfold Machine.settle
  rw [nobody]
  split <;> rfl

theorem releaseShare_alone (nobody : m.lock.parked = 0) {u : Unit} :
    Machine.releaseShare t m = .ok u m' ↔
      (m.thread t).holdsShare = true ∧ dropShare t m = m' := by
  rw [Machine.releaseShare_eq_ok]
  have still : (dropShare t m).settle = dropShare t m := settle_of_parked nobody
  rw [show (m.noteShare t false).onLock MutatorLock.unclaim = dropShare t m from rfl, still]

/-- A thread that is asked to suspend takes a share and gives it back for ever. -/
theorem not_finishes_acquiring (asked : (m.thread t).suspendRequested = true) :
    ¬ Finishes t m (acquiring ++ rest) m' ∧ ¬ Finishes t m (.keep :: rest) m' := by
  have never {m m' : Machine} {steps : List Atom} (finishes : Finishes t m steps m') :
      (m.thread t).suspendRequested = true →
        steps ≠ acquiring ++ rest ∧ steps ≠ .keep :: rest := by
    induction finishes with
    | rest m => exact fun _ => ⟨nofun, nofun⟩
    | step done later ih =>
      intro asked
      refine ⟨?_, ?_⟩
      · intro same
        obtain ⟨rfl, rfl⟩ := List.cons.inj same
        cases does_of_atom done with
        | claim granted => exact (ih asked).2 rfl
      · intro same
        obtain ⟨rfl, rfl⟩ := List.cons.inj same
        cases does_of_atom done with
        | giveBack _ => exact (ih asked).1 rfl
        | keep unasked => exact absurd asked (by simp [unasked])
  exact ⟨fun finishes => (never finishes asked).1 rfl,
    fun finishes => (never finishes asked).2 rfl⟩

theorem finishes_acquiring (free : (m.thread t).holdsShare = false) :
    Finishes t m (acquiring ++ rest) m' ↔
      ∃ between, Machine.acquireShare t m = .ok () between ∧ Finishes t between rest m' := by
  cases asked : (m.thread t).suspendRequested with
  | true => simp [Machine.acquireShare_eq_ok, asked, (not_finishes_acquiring asked).1]
  | false =>
    cases grants : m.lock.grants with
    | false =>
      have waits : atom m t .claim = none := by simp [atom, grants]
      simp [acquiring, Machine.acquireShare_eq_ok, grants, not_finishes_of_wait waits]
    | true =>
      have claimed : atom m t .claim = some (m.onLock MutatorLock.claim, []) := by
        simp [atom, grants]
      have kept : atom (m.onLock MutatorLock.claim) t .keep =
          some ((m.onLock MutatorLock.claim).noteShare t true, []) := by
        have same : (m.onLock MutatorLock.claim).thread t = m.thread t := rfl
        simp [atom, same, asked]
      simp [acquiring, Machine.acquireShare_eq_ok, free, grants, asked,
        finishes_cons_of_done claimed, finishes_cons_of_done kept]

/-! ## Services -/

theorem atom_serve {left : List Service} {between : Machine}
    (run : Machine.serve t service m = .ok left between) :
    atom m t (.serve service) = some (between, left.map .serve) := by
  simp [atom, run]

theorem finishes_serve : Finishes t m (.serve service :: rest) m' ↔
    ∃ left between, Machine.serve t service m = .ok left between ∧
      Finishes t between (left.map .serve ++ rest) m' := by
  rw [finishes_cons]
  constructor
  · rintro ⟨between, more, done, later⟩
    cases does_of_atom done with
    | serve _ left _ run => exact ⟨left, between, run, later⟩
  · rintro ⟨left, between, run, later⟩
    exact ⟨between, left.map .serve, atom_serve run, later⟩

theorem finishes_leaving {α : Type} {action : Act Machine α} {left : α → List Service}
    (serves : Machine.serve t service = action >>= fun a => pure (left a)) :
    Finishes t m (.serve service :: rest) m' ↔
      ∃ a between, action m = .ok a between ∧
        Finishes t between ((left a).map .serve ++ rest) m' := by
  rw [finishes_serve, serves]
  constructor
  · rintro ⟨_, between, run, later⟩
    obtain ⟨a, _, done, given⟩ := Act.bind_eq_ok.1 run
    obtain ⟨rfl, rfl⟩ := Act.pure_eq_ok.1 given
    exact ⟨a, _, done, later⟩
  · rintro ⟨a, between, done, later⟩
    exact ⟨left a, between, Act.bind_eq_ok.2 ⟨a, between, done, rfl⟩, later⟩

/-- A service that leaves nothing to be done is done at once. -/
theorem finishes_whole {α : Type} {action : Act Machine α}
    (serves : Machine.serve t service = Machine.whole action) :
    Finishes t m [.serve service] m' ↔ ∃ a, action m = .ok a m' := by
  rw [finishes_leaving serves]
  constructor
  · rintro ⟨a, between, done, later⟩
    obtain rfl := finishes_nil.1 later
    exact ⟨a, done⟩
  · rintro ⟨a, done⟩
    exact ⟨a, m', done, .rest m'⟩

theorem nativeExitOrThrow_of_exit {exited : Except Throwable Unit} {between : Machine}
    (exit : Machine.exitMonitor t o m = .ok exited between) :
    Machine.nativeExitOrThrow t o m = .ok () (match exited with
      | .ok () => between.updateThread t fun thread => { thread with
          nativeMonitors := Thread.eraseLast (between.heap.sameMonitor o) thread.nativeMonitors }
      | .error exception => between.updateThread t fun thread =>
          { thread with pending := some exception }) := by
  cases exited with
  | ok _ =>
    refine Act.bind_eq_ok.2 ⟨.ok (), _, Act.bind_eq_ok.2 ⟨.ok (), between, exit, rfl⟩, rfl⟩
  | error exception =>
    refine Act.bind_eq_ok.2 ⟨.error exception, between, ?_, rfl⟩
    exact Act.bind_eq_ok.2 ⟨.error exception, between, exit, rfl⟩

theorem finishes_nativeExit :
    Finishes t m [.serve (.nativeExit o)] m' ↔ Machine.nativeExitOrThrow t o m = .ok () m' := by
  rw [finishes_leaving rfl]
  constructor
  · rintro ⟨exited, between, exit, later⟩
    rw [nativeExitOrThrow_of_exit exit]
    cases exited with
    | ok _ | error _ =>
      obtain ⟨_, after⟩ := (finishes_whole rfl).1 later
      obtain rfl := Act.modify_eq_ok.1 after
      rfl
  · intro run
    obtain ⟨between, ⟨exit, rfl⟩ | ⟨exception, exit, rfl⟩⟩ := Machine.nativeExitOrThrow_of_ok run
    · exact ⟨_, between, exit, (finishes_whole rfl).2 ⟨(), rfl⟩⟩
    · exact ⟨_, between, exit, (finishes_whole rfl).2 ⟨(), rfl⟩⟩

theorem finishes_service :
    Finishes t m [.serve service] m' ↔ service.operation t m = .ok () m' := by
  cases service with
  | newObject className =>
    rw [finishes_leaving rfl, Service.operation, Act.drop_eq_ok]
    constructor
    · rintro ⟨o, between, given, later⟩
      obtain ⟨handle, added⟩ := (finishes_whole rfl).1 later
      exact ⟨handle, Act.bind_eq_ok.2 ⟨o, between, given, added⟩⟩
    · rintro ⟨handle, run⟩
      obtain ⟨o, between, given, added⟩ := Act.bind_eq_ok.1 run
      exact ⟨o, between, given, (finishes_whole rfl).2 ⟨handle, added⟩⟩
  | register method =>
    rw [finishes_leaving rfl, Service.operation]
    constructor
    · rintro ⟨root, between, given, later⟩
      obtain ⟨_, entered⟩ := (finishes_whole rfl).1 later
      exact Act.bind_eq_ok.2 ⟨root, between, given, entered⟩
    · intro run
      obtain ⟨root, between, given, entered⟩ := Act.bind_eq_ok.1 run
      exact ⟨root, between, given, (finishes_whole rfl).2 ⟨(), entered⟩⟩
  | nativeExit o => exact finishes_nativeExit
  | _ =>
    rw [finishes_whole rfl, Service.operation, Act.drop_eq_ok]
    · exact ⟨fun ⟨a, done⟩ => ⟨[], whole_eq_ok.2 ⟨rfl, a, done⟩⟩,
        fun ⟨_, run⟩ => (whole_eq_ok.1 run).2⟩
    all_goals nofun

/-! ## Errands -/

theorem finishes_toNative (attached : m.thread? t = some thread) (nobody : m.lock.parked = 0) :
    thread.holdsShare = true ∧ Finishes t m [.store .native, .release] m' ↔
      Machine.toNative t m = .ok () m' := by
  have now := thread_of_attached
    (attached_updateThread attached (fun thread => { thread with state := .native }) fun _ => rfl)
  rw [Machine.toNative_eq_ok, finishes_store, finishes_release, finishes_nil]
  refine Iff.trans ?_ (releaseShare_alone
    (m := m.updateThread t fun thread => { thread with state := .native }) nobody).symm
  rw [now]

theorem finishes_toManaged (free : (m.thread t).holdsShare = false) :
    Finishes t m (acquiring ++ [.store .managed]) m' ↔ Machine.toManaged t m = .ok () m' := by
  rw [Machine.toManaged_eq_ok, finishes_acquiring free]
  simp only [finishes_store, finishes_nil]

theorem finishes_released (attached : m.thread? t = some thread)
    (holds : thread.holdsShare = true) (nobody : m.lock.parked = 0) :
    Finishes t m (.release :: acquiring) m' ↔
      ∃ (u : Unit) (between : Machine), Machine.releaseShare t m = .ok u between ∧
        Machine.acquireShare t between = .ok () m' := by
  have free : ((dropShare t m).thread t).holdsShare = false := by
    have now := thread_of_attached
      (attached_updateThread attached (fun thread => { thread with holdsShare := false })
        fun _ => rfl)
    exact congrArg Thread.holdsShare now
  rw [finishes_release, ← List.append_nil acquiring, finishes_acquiring free]
  simp [releaseShare_alone nobody, thread_of_attached attached, holds]

theorem finishes_checkSuspend (attached : m.thread? t = some thread)
    (nobody : m.lock.parked = 0) :
    Finishes t m (if thread.suspendRequested ∧ thread.holdsShare then
        .count :: .release :: acquiring else []) m' ↔ Machine.checkSuspend t m = .ok () m' := by
  rw [Machine.checkSuspend, Act.get_bind, thread_of_attached attached]
  split
  · next asked =>
    rw [Act.modify_bind, finishes_count, Act.bind_eq_ok]
    exact finishes_released (m := m.onLock MutatorLock.countCheck) attached asked.2 nobody
  · simp [Act.pure_eq_ok]

theorem finishes_tryEnter :
    Finishes t m (.tryEnter o :: rest) m' ↔
      ∃ between, Machine.enterMonitor t o m = .ok () between ∧ Finishes t between rest m' := by
  simp only [Machine.enterMonitor_eq_ok]
  cases tried : (m.heap.monitor o).tryEnter t with
  | error defect =>
    have waits : atom m t (.tryEnter o) = none := by simp [atom, tried]
    simp [not_finishes_of_wait waits]
  | ok outcome =>
    obtain ⟨granted, monitor⟩ := outcome
    cases granted with
    | true =>
      have entered : atom m t (.tryEnter o) =
          some ({ m with enters := m.enters + 1, heap := m.heap.setMonitor o monitor }, []) := by
        simp [atom, tried]
      simp [finishes_cons_of_done entered]
    | false =>
      -- Nothing happens meanwhile that could free the monitor.
      have inVain {m₁ : Machine} {more : List Atom}
          (waiting : Finishes t m₁ (.wait o :: more) m') : m₁.heap ≠ m.heap := by
        intro heap
        have waits : atom m₁ t (.wait o) = none := by simp [atom, heap, tried]
        exact not_finishes_of_wait waits waiting
      have refused : ¬ Finishes t m (.tryEnter o :: rest) m' := by
        rw [finishes_cons]
        rintro ⟨between, more, done, later⟩
        simp only [atom, tried, Option.some.injEq, Prod.mk.injEq] at done
        obtain ⟨rfl, rfl⟩ := done
        split at later
        · exact inVain (finishes_release.1 later) rfl
        · exact inVain later rfl
      simp [refused]

theorem finishes_nativeEnter :
    Finishes t m [.tryEnter o, .serve (.note o)] m' ↔ Machine.nativeEnter t o m = .ok () m' := by
  rw [finishes_tryEnter, Machine.nativeEnter_eq_ok]
  constructor
  · rintro ⟨between, entered, later⟩
    obtain ⟨_, noted⟩ := (finishes_whole rfl).1 later
    exact ⟨between, entered, Act.modify_eq_ok.1 noted⟩
  · rintro ⟨between, entered, rfl⟩
    exact ⟨between, entered, (finishes_whole rfl).2 ⟨(), rfl⟩⟩

theorem finishes_detach (attached : m.thread? t = some thread) (nobody : m.lock.parked = 0) :
    Finishes t m ((if thread.holdsShare then [.release] else []) ++ [.store .native, .dismiss])
      m' ↔ Machine.detach t m = .ok () m' := by
  rw [Machine.detach, Act.get_bind, thread_of_attached attached]
  cases holds : thread.holdsShare with
  | true =>
    have released := (releaseShare_alone (t := t) (u := ()) nobody).2
      ⟨(thread_of_attached attached).symm ▸ holds, rfl⟩
    rw [if_pos rfl, if_pos rfl, Act.bind_of_ok released]
    simp [Machine.setState, Act.modify_bind, Act.modify_eq_ok]
  | false => simp [Machine.setState, Act.modify_bind, Act.modify_eq_ok]

/-- A thread that sets out to do something, while nobody else moves and no pause waits for the lock,
comes to the end of it exactly where the machine's own operation returns, and with the same machine.
-/
theorem finishes_errand {errand : Errand} (attached : m.thread? t = some thread)
    (nobody : m.lock.parked = 0) :
    (∃ steps, stepsOf thread errand = some steps ∧ Finishes t m steps m') ↔
      errand.operation t m = .ok () m' := by
  cases errand with
  | toNative => simp [stepsOf, Errand.operation, ← finishes_toNative attached nobody]
  | toManaged =>
    have own := thread_of_attached attached
    cases holds : thread.holdsShare with
    | true => simp [stepsOf, Errand.operation, Machine.toManaged_eq_ok,
        Machine.acquireShare_eq_ok, own, holds]
    | false =>
      rw [Errand.operation, ← finishes_toManaged (own ▸ holds)]
      simp [stepsOf, holds]
  | checkSuspend =>
    rw [Errand.operation, ← finishes_checkSuspend attached nobody, stepsOf]
    split <;> simp
  | enterMonitor o => simp [stepsOf, Errand.operation, finishes_tryEnter]
  | nativeEnter o => simp [stepsOf, Errand.operation, finishes_nativeEnter]
  | serve service => simp [stepsOf, Errand.operation, finishes_service]
  | detach => simp [stepsOf, Errand.operation, ← finishes_detach attached nobody]

/-! ## Runs of one thread -/

/-- An errand left to itself is the machine's own operation. -/
theorem errand_alone {errand : Errand} (attached : s.machine.thread? t = some thread)
    (idle : s.remaining t = []) (nobody : s.machine.lock.parked = 0) :
    (∃ count s', s.run (.start t errand :: List.replicate count (.advance t)) = some s' ∧
        s'.remaining t = [] ∧ s'.machine = m') ↔
      errand.operation t s.machine = .ok () m' := by
  rw [← finishes_errand attached nobody]
  constructor
  · rintro ⟨count, s', ran, rested, rfl⟩
    obtain ⟨started, stepped, ran⟩ := Option.bind_eq_some_iff.1 ran
    obtain ⟨thread', steps, found, -, planned, rfl⟩ := of_start stepped
    obtain rfl := Option.some.inj (attached.symm.trans found)
    have finishes := finishes_of_run ran rested
    rw [remaining_plan] at finishes
    exact ⟨steps, planned, finishes⟩
  · rintro ⟨steps, planned, finishes⟩
    obtain ⟨count, ran⟩ := run_of_finishes finishes s
    refine ⟨count, (s.withMachine m').plan t [], ?_, remaining_plan _ _ _, rfl⟩
    rw [run, start_of_idle attached idle planned]
    exact ran

/-- A thread that attaches while nobody else moves does so as the machine attaches one. -/
theorem attach_alone {name : String} (fresh : m.thread? ⟨m.nextThread⟩ = none) :
    Machine.attach name m = .ok t m' ↔
      t = ⟨m.nextThread⟩ ∧ Finishes t (m.enrol name).2 (acquiring ++ [.store .managed]) m' := by
  have found : (m.enrol name).2.thread? ⟨m.nextThread⟩ =
      some { id := ⟨m.nextThread⟩, name } := by
    unfold Machine.thread? Machine.enrol at *
    simp [List.find?_append, fresh]
  have free := congrArg Thread.holdsShare (thread_of_attached found)
  rw [Machine.attach, Act.bind_eq_ok]
  constructor
  · rintro ⟨given, _, enrolled, run⟩
    obtain ⟨_, _, arrived, run⟩ := Act.bind_eq_ok.1 run
    obtain ⟨rfl, rfl⟩ := Act.pure_eq_ok.1 run
    cases enrolled
    exact ⟨rfl, (finishes_toManaged free).2 arrived⟩
  · rintro ⟨rfl, finishes⟩
    have arrived := (finishes_toManaged free).1 finishes
    exact ⟨⟨m.nextThread⟩, _, rfl, Act.bind_eq_ok.2 ⟨(), m', arrived, rfl⟩⟩

/-! ## Pauses that nothing is in the way of -/

variable {earlier later : List PauseRequest} {reason : PauseReason}

theorem phase_raised (grants : m.lock.grants) :
    phase m .raised = some (m.onLock MutatorLock.park, some .reserved) :=
  if_pos grants

theorem phase_reserved (free : m.lock.claims = 0) :
    phase m .reserved =
      some ((m.onLock MutatorLock.unpark).onLock MutatorLock.seize, some .running) :=
  if_pos free

theorem run_proceed {now : PausePhase} {next : Option PausePhase}
    (going : phase m now = some (m', next)) (moves : List Move) :
    (s.atPhase m earlier later (some { reason, phase := now })).run
        (.proceed earlier.length :: moves) =
      (s.atPhase m' earlier later (next.map fun phase => { reason, phase })).run moves := by
  refine run_cons ?_
  cases next with
  | none => simp [Concurrent.step, atPhase, going, List.eraseIdx_append]
  | some phase => simp [Concurrent.step, atPhase, going]

/-- A pause that is asked for while the lock is neither taken nor reserved gets as far as to reserve
it. -/
theorem run_request (grants : s.machine.lock.grants) (moves : List Move) :
    s.run (.request reason :: .proceed s.pauses.length :: .proceed s.pauses.length :: moves) =
      (s.atPhase ((s.machine.announcePause reason).onLock MutatorLock.park) s.pauses []
        (some { reason, phase := .reserved })).run moves := by
  have announced : s.step (.request reason) =
      some (s.atPhase (s.machine.onLock (MutatorLock.announce reason)) s.pauses []
        (some { reason, phase := .announced })) := by
    simp [Concurrent.step, atPhase]
  rw [run_cons announced]
  refine (run_proceed rfl _).trans ?_
  exact run_proceed (m := s.machine.announcePause reason) (phase_raised grants) moves

/-- While shares are out, that is all. -/
theorem requestPause_waits (busy : s.machine.lock.claims ≠ 0) (grants : s.machine.lock.grants) :
    s.run (.request reason :: List.replicate 2 (.proceed s.pauses.length)) =
      some (s.atPhase (s.machine.requestPause reason) s.pauses []
        (some { reason, phase := .reserved })) := by
  have waits : s.machine.requestPause reason =
      (s.machine.announcePause reason).onLock MutatorLock.park := by
    have taken : ((s.machine.announcePause reason).onLock MutatorLock.park).lock.claims ≠ 0 := busy
    simp [Machine.requestPause, Machine.settle, taken]
  rw [waits]
  exact run_request grants []

theorem beginPause_alone (began : Machine.beginPause reason s.machine = .ok () m') :
    s.run (.request reason :: List.replicate 3 (.proceed s.pauses.length)) =
      some (s.atPhase m' s.pauses [] (some { reason, phase := .running })) := by
  rw [Machine.beginPause, Act.modify_bind, Act.get_bind] at began
  split at began
  · next free =>
    obtain rfl := Act.set_eq_ok.1 began
    refine (run_request free.2 _).trans ?_
    exact run_proceed (m := (s.machine.announcePause reason).onLock MutatorLock.park)
      (phase_reserved free.1) []
  · cases began

theorem endPause_of_parked (nobody : m.lock.parked = 0) : m.endPause = m.concludePause :=
  settle_of_parked nobody

theorem endPause_alone (nobody : m.lock.parked = 0) :
    (s.atPhase m earlier later (some { reason, phase := .running })).run
        (List.replicate 3 (.proceed earlier.length)) =
      some (s.atPhase m.endPause earlier later none) := by
  have lowers : phase m .running =
      some ((m.onLock MutatorLock.count).requestSuspend false, some .lowered) := rfl
  have frees : phase (((m.onLock MutatorLock.count).requestSuspend false).onLock
      MutatorLock.retract) .retracted = some (m.concludePause, none) := rfl
  rw [endPause_of_parked nobody]
  refine (run_proceed lowers _).trans ?_
  refine (run_proceed rfl _).trans ?_
  exact run_proceed frees []

theorem settle_alone (free : m.lock.claims = 0) (unpaused : m.lock.paused = false)
    (one : m.lock.parked = 1) :
    (s.atPhase m earlier later (some { reason, phase := .reserved })).run
        (List.replicate 4 (.proceed earlier.length)) =
      some (s.atPhase m.settle earlier later none) := by
  have nobody : ((m.onLock MutatorLock.unpark).onLock MutatorLock.seize).lock.parked = 0 := by
    change m.lock.parked - 1 = 0
    rw [one]
  have settles : m.settle = ((m.onLock MutatorLock.unpark).onLock MutatorLock.seize).endPause := by
    rw [endPause_of_parked nobody, Machine.settle, free, unpaused, one]
    rfl
  rw [settles]
  refine (run_proceed (phase_reserved free) _).trans ?_
  exact endPause_alone nobody

/-- A pause with nothing to do in it that gets the lock at once. -/
theorem requestPause_alone (free : s.machine.lock.claims = 0) (grants : s.machine.lock.grants) :
    s.run (.request reason :: List.replicate 6 (.proceed s.pauses.length)) =
      some (s.withMachine (s.machine.requestPause reason)) := by
  obtain ⟨unpaused, nobody⟩ := Bool.and_eq_true_iff.1 grants
  have notPaused : s.machine.lock.paused = false := by simpa using unpaused
  have one : s.machine.lock.parked + 1 = 1 := congrArg (· + 1) (of_decide_eq_true nobody)
  refine (run_request grants _).trans ?_
  refine (settle_alone (m := (s.machine.announcePause reason).onLock MutatorLock.park)
    free notPaused one).trans ?_
  simp [atPhase, withMachine, Machine.requestPause]

end Concurrent

end NativeBoundary
