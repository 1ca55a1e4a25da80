import NativeBoundary.Machine.Interleaving
import NativeBoundary.Proofs.Machine.Returns
import NativeBoundary.Proofs.Machine.Threads

/-!
# What a step can do

`Does` lists what the next step of a thread can make of the machine, and `does_of_atom` says that
there is nothing else.  Of that, a pause could notice what becomes of the mutator lock, of the
thread itself and of the steps it still has to take: that is `Takes`.
-/

set_option autoImplicit false

namespace NativeBoundary

/-- Two records of a thread that others cannot tell apart, and that agree on the share. -/
structure Thread.Alike (a b : Thread) : Prop where
  id : a.id = b.id
  state : a.state = b.state
  suspendRequested : a.suspendRequested = b.suspendRequested
  holdsShare : a.holdsShare = b.holdsShare

namespace Concurrent

/-- What one step makes of the lock, of the thread that takes it, and of what the thread still has
to do.  A thread that leaves the list of attached threads is no more. -/
inductive Takes (lock : MutatorLock) (thread : Thread) :
    List Atom → MutatorLock → Option Thread → List Atom → Prop where
  | store (state : ThreadState) (rest : List Atom) :
      Takes lock thread (.store state :: rest) lock (some { thread with state }) rest
  | claim (rest : List Atom) (granted : lock.grants = true) :
      Takes lock thread (.claim :: rest) lock.claim (some thread) rest
  | giveBack (rest : List Atom) (asked : thread.suspendRequested = true) :
      Takes lock thread (.keep :: rest) lock.unclaim (some thread) (.claim :: .keep :: rest)
  | keep (rest : List Atom) (unasked : thread.suspendRequested = false) :
      Takes lock thread (.keep :: rest) lock (some { thread with holdsShare := true }) rest
  | release (rest : List Atom) :
      Takes lock thread (.release :: rest) lock.unclaim
        (some { thread with holdsShare := false }) rest
  | count (rest : List Atom) :
      Takes lock thread (.count :: rest) lock.countCheck (some thread) rest
  | dismiss (rest : List Atom) : Takes lock thread (.dismiss :: rest) lock none rest
  | enter (o : ObjectId) (rest : List Atom) :
      Takes lock thread (.tryEnter o :: rest) lock (some thread) rest
  /-- A monitor is refused to a thread with a share. -/
  | stepAside (o : ObjectId) (rest : List Atom) (holds : thread.holdsShare = true) :
      Takes lock thread (.tryEnter o :: rest) lock (some thread)
        (.release :: .wait o :: .claim :: .keep :: rest)
  /-- A monitor is refused to a thread without a share. -/
  | waitOn (o : ObjectId) (rest : List Atom) (free : thread.holdsShare = false) :
      Takes lock thread (.tryEnter o :: rest) lock (some thread) (.wait o :: rest)
  | got (o : ObjectId) (rest : List Atom) :
      Takes lock thread (.wait o :: rest) lock (some thread) rest
  | serve (service : Service) (left : List Service) (rest : List Atom) (after : Thread)
      (alike : after.Alike thread) :
      Takes lock thread (.serve service :: rest) lock (some after) (left.map .serve ++ rest)

variable {s s' : Concurrent} {m m' : Machine} {t : ThreadId} {thread : Thread}
  {before after : List Thread}

/-! ## Plans -/

@[simp]
theorem remaining_plan (s : Concurrent) (t : ThreadId) (steps : List Atom) :
    (s.plan t steps).remaining t = steps := by
  simp [remaining, plan]

theorem remaining_plan_of_ne {other : ThreadId} (different : other ≠ t) (steps : List Atom) :
    (s.plan t steps).remaining other = s.remaining other := by
  have unequal : (other == t) = false := beq_false_of_ne different
  simp only [remaining, plan, List.lookup_cons, unequal]
  congr 1
  induction s.agenda with
  | nil => rfl
  | cons entry rest ih =>
    obtain ⟨owner, owned⟩ := entry
    by_cases kept : owner = t
    · have skipped : (other == owner) = false := by simpa [kept] using unequal
      simp [kept, List.lookup_cons, ← ih, unequal]
    · by_cases found : other = owner
      · simp [kept, found]
      · simp [kept, List.lookup_cons, ← ih]

@[simp]
theorem remaining_withMachine (s : Concurrent) (m : Machine) (t : ThreadId) :
    (s.withMachine m).remaining t = s.remaining t := rfl

/-! ## Steps of a thread -/

theorem whole_eq_ok {α : Type} {action : Act Machine α} {left : List Service} :
    Machine.whole action m = .ok left m' ↔ left = [] ∧ ∃ a, action m = .ok a m' := by
  constructor
  · intro run
    obtain ⟨a, between, done, run⟩ := Act.bind_eq_ok.1 run
    obtain ⟨rfl, rfl⟩ := Act.pure_eq_ok.1 run
    exact ⟨rfl, a, done⟩
  · rintro ⟨rfl, a, done⟩
    exact Act.bind_eq_ok.2 ⟨a, m', done, rfl⟩

/-- A machine that differs from another one in its heap, its registry and the part of one thread
that is the thread's own. -/
structure Served (t : ThreadId) (m m' : Machine) : Prop where
  lock : m'.lock = m.lock
  next : m'.nextThread = m.nextThread
  threads : ∃ change : Thread → Thread, (∀ thread, (change thread).Alike thread) ∧
    m'.threads = (m.updateThread t change).threads

theorem Served.of_threads (lock : m'.lock = m.lock) (next : m'.nextThread = m.nextThread)
    (threads : m'.threads = m.threads) : Served t m m' := by
  refine ⟨lock, next, id, fun _ => ⟨rfl, rfl, rfl, rfl⟩, ?_⟩
  rw [threads, Machine.updateThread]
  simp

theorem Served.of_change (change : Thread → Thread)
    (alike : ∀ thread, (change thread).Alike thread) : Served t m (m.updateThread t change) :=
  ⟨rfl, rfl, change, alike, rfl⟩

theorem served_of_exitMonitor {o : ObjectId} {exited : Except Throwable Unit}
    (run : Machine.exitMonitor t o m = .ok exited m') : Served t m m' := by
  obtain ⟨_, -, -, rfl⟩ | ⟨_, -, -, rfl⟩ := Machine.exitMonitor_eq_ok.1 run
  · exact .of_threads rfl rfl rfl
  · exact .of_threads rfl rfl rfl

/-- A service leaves alone what others can tell of the thread, and what pauses go by. -/
theorem served_of_serve {service : Service} {left : List Service}
    (run : Machine.serve t service m = .ok left m') : Served t m m' := by
  cases service with
  | newObject className | register method =>
    obtain ⟨o, between, given, run⟩ := Act.bind_eq_ok.1 run
    obtain ⟨-, rfl⟩ := Machine.onHeap_eq_ok.1 given
    obtain ⟨-, rfl⟩ := Act.pure_eq_ok.1 run
    exact .of_threads rfl rfl rfl
  | nativeExit o =>
    obtain ⟨exited, between, exit, run⟩ := Act.bind_eq_ok.1 run
    obtain ⟨-, rfl⟩ := Act.pure_eq_ok.1 run
    exact served_of_exitMonitor exit
  | heap step | enlist method root =>
    obtain ⟨-, _, changed⟩ := whole_eq_ok.1 run
    obtain rfl := Act.modify_eq_ok.1 changed
    exact .of_threads rfl rfl rfl
  | currentCopy o =>
    obtain ⟨-, _, found⟩ := whole_eq_ok.1 run
    obtain rfl := Machine.currentCopy_of_ok found
    exact .of_threads rfl rfl rfl
  | checkResult method result =>
    obtain ⟨-, _, checked⟩ := whole_eq_ok.1 run
    obtain rfl := Machine.checkResult_of_ok checked
    exact .of_threads rfl rfl rfl
  | addLocal o =>
    obtain ⟨-, _, added⟩ := whole_eq_ok.1 run
    obtain ⟨-, rfl⟩ := Machine.addLocal_eq_ok.1 added
    exact .of_change _ fun _ => ⟨rfl, rfl, rfl, rfl⟩
  | exitMonitor o =>
    obtain ⟨-, _, exit⟩ := whole_eq_ok.1 run
    exact served_of_exitMonitor exit
  | _ =>
    obtain ⟨-, _, changed⟩ := whole_eq_ok.1 run
    obtain rfl := Act.modify_eq_ok.1 changed
    exact .of_change _ fun _ => ⟨rfl, rfl, rfl, rfl⟩

/-- What an atomic step makes of the machine, and the steps that it puts before the remaining ones.
-/
inductive Does (m : Machine) (t : ThreadId) : Atom → Machine → List Atom → Prop where
  | store (state : ThreadState) :
      Does m t (.store state) (m.updateThread t fun thread => { thread with state }) []
  | claim (granted : m.lock.grants = true) : Does m t .claim (m.onLock MutatorLock.claim) []
  | giveBack (asked : (m.thread t).suspendRequested = true) :
      Does m t .keep (m.onLock MutatorLock.unclaim) acquiring
  | keep (unasked : (m.thread t).suspendRequested = false) :
      Does m t .keep (m.noteShare t true) []
  | release : Does m t .release (dropShare t m) []
  | count : Does m t .count (m.onLock MutatorLock.countCheck) []
  | enter (o : ObjectId) (monitor : Monitor)
      (granted : (m.heap.monitor o).tryEnter t = .ok (true, monitor)) :
      Does m t (.tryEnter o)
        { m with enters := m.enters + 1, heap := m.heap.setMonitor o monitor } []
  /-- A monitor is refused to a thread with a share. -/
  | stepAside (o : ObjectId) (monitor : Monitor)
      (refused : (m.heap.monitor o).tryEnter t = .ok (false, monitor))
      (holds : (m.thread t).holdsShare = true) :
      Does m t (.tryEnter o) { m with enters := m.enters + 1, contended := m.contended + 1 }
        (.release :: .wait o :: acquiring)
  /-- A monitor is refused to a thread without a share. -/
  | waitOn (o : ObjectId) (monitor : Monitor)
      (refused : (m.heap.monitor o).tryEnter t = .ok (false, monitor))
      (free : (m.thread t).holdsShare = false) :
      Does m t (.tryEnter o) { m with enters := m.enters + 1, contended := m.contended + 1 }
        [.wait o]
  | got (o : ObjectId) (monitor : Monitor)
      (granted : (m.heap.monitor o).tryEnter t = .ok (true, monitor)) :
      Does m t (.wait o) { m with heap := m.heap.setMonitor o monitor } []
  | serve (service : Service) (left : List Service) (m' : Machine)
      (run : Machine.serve t service m = .ok left m') :
      Does m t (.serve service) m' (left.map .serve)
  | dismiss : Does m t .dismiss (m.dismiss t) []

theorem does_of_atom {first : Atom} {more : List Atom}
    (done : atom m t first = some (m', more)) : Does m t first m' more := by
  cases first with
  | store state =>
    cases done
    exact .store state
  | claim =>
    simp only [atom] at done
    split at done
    · next granted =>
      cases done
      exact .claim granted
    · cases done
  | keep =>
    simp only [atom] at done
    split at done
    · next asked =>
      cases done
      exact .giveBack asked
    · next unasked =>
      cases done
      exact .keep (by simpa using unasked)
  | release =>
    cases done
    exact .release
  | count =>
    cases done
    exact .count
  | dismiss =>
    cases done
    exact .dismiss
  | tryEnter o =>
    simp only [atom] at done
    split at done
    · cases done
    · next monitor granted =>
      cases done
      exact .enter o monitor granted
    · next monitor refused =>
      cases done
      split
      · next holds => exact .stepAside o monitor refused holds
      · next free => exact .waitOn o monitor refused (by simpa using free)
  | wait o =>
    simp only [atom] at done
    split at done
    · next monitor granted =>
      cases done
      exact .got o monitor granted
    · cases done
  | serve service =>
    simp only [atom] at done
    split at done
    · next left final run =>
      cases done
      exact .serve service left m' run
    · cases done

/-- An atom is done on behalf of a thread: what becomes of the thread and of the lock. -/
theorem atom_takes (among : m.Among t before thread after) {first : Atom} {more : List Atom}
    (done : atom m t first = some (m', more)) (rest : List Atom) :
    m'.nextThread = m.nextThread ∧
      ∃ left : Option Thread, m'.threads = before ++ left.toList ++ after ∧
        Takes m.lock thread (first :: rest) m'.lock left (more ++ rest) := by
  have unchanged : m.threads = before ++ (some thread).toList ++ after := by
    simp [among.threads]
  have own := among.thread
  cases does_of_atom done with
  | store state =>
    have changed := among.updateThread (fun thread => { thread with state }) rfl
    exact ⟨rfl, some { thread with state }, by simp [changed.threads], .store state rest⟩
  | claim granted => exact ⟨rfl, some thread, unchanged, .claim rest granted⟩
  | giveBack asked => exact ⟨rfl, some thread, unchanged, .giveBack rest (own ▸ asked)⟩
  | keep unasked =>
    have changed := among.updateThread (fun thread => { thread with holdsShare := true }) rfl
    exact ⟨rfl, some { thread with holdsShare := true },
      by simp [Machine.noteShare, changed.threads], .keep rest (own ▸ unasked)⟩
  | release =>
    have changed := among.updateThread (fun thread => { thread with holdsShare := false }) rfl
    exact ⟨rfl, some { thread with holdsShare := false },
      by simp [dropShare, Machine.noteShare, Machine.onLock, changed.threads], .release rest⟩
  | count => exact ⟨rfl, some thread, unchanged, .count rest⟩
  | enter o monitor granted => exact ⟨rfl, some thread, unchanged, .enter o rest⟩
  | stepAside o monitor refused holds =>
    exact ⟨rfl, some thread, unchanged, .stepAside o rest (own ▸ holds)⟩
  | waitOn o monitor refused free =>
    exact ⟨rfl, some thread, unchanged, .waitOn o rest (own ▸ free)⟩
  | got o monitor granted => exact ⟨rfl, some thread, unchanged, .got o rest⟩
  | serve service left m' run =>
    obtain ⟨lock, next, change, alike, threads⟩ := served_of_serve run
    have changed := among.updateThread change (alike thread).id
    refine ⟨next, some (change thread), by simp [threads, changed.threads], ?_⟩
    rw [lock]
    exact .serve service left rest _ (alike thread)
  | dismiss => exact ⟨rfl, none, by simp [among.dismiss], .dismiss rest⟩

/-! ## Moves -/

theorem of_start {errand : Errand} (stepped : s.step (.start t errand) = some s') :
    ∃ thread steps, s.machine.thread? t = some thread ∧ s.remaining t = [] ∧
      stepsOf thread errand = some steps ∧ s' = s.plan t steps := by
  rw [step] at stepped
  obtain ⟨thread, attached, stepped⟩ := Option.bind_eq_some_iff.1 stepped
  obtain ⟨_, idle, stepped⟩ := Option.bind_eq_some_iff.1 stepped
  obtain ⟨steps, planned, same⟩ := Option.bind_eq_some_iff.1 stepped
  have nothing : s.remaining t = [] := by
    by_contra busy
    unfold guard at idle
    rw [if_neg (by simpa using busy)] at idle
    cases idle
  exact ⟨thread, steps, attached, nothing, planned, (Option.some.inj same).symm⟩

theorem start_of_idle {errand : Errand} {steps : List Atom}
    (attached : s.machine.thread? t = some thread) (idle : s.remaining t = [])
    (planned : stepsOf thread errand = some steps) :
    s.step (.start t errand) = some (s.plan t steps) := by
  rw [step, attached, idle]
  change (stepsOf thread errand).bind (fun steps => some (s.plan t steps)) = _
  rw [planned, Option.bind_some]

theorem of_advance (stepped : s.step (.advance t) = some s') :
    ∃ first rest m more, s.remaining t = first :: rest ∧ atom s.machine t first = some (m, more) ∧
      s' = (s.withMachine m).plan t (more ++ rest) := by
  simp only [step] at stepped
  split at stepped
  · cases stepped
  · next first rest planned =>
    simp only [Option.bind_eq_bind, Option.bind_eq_some_iff, Option.pure_def] at stepped
    obtain ⟨⟨m, more⟩, done, same⟩ := stepped
    exact ⟨first, rest, m, more, planned, done, (Option.some.inj same).symm⟩

theorem of_collect {index : Nat} {step : HeapStep}
    (stepped : s.step (.collect index step) = some s') :
    ∃ request, s.pauses[index]? = some request ∧ request.phase = .running ∧
      s' = s.withMachine { s.machine with heap := s.machine.heap.step step } := by
  obtain ⟨request, found, stepped⟩ := Option.bind_eq_some_iff.1 stepped
  obtain ⟨_, running, same⟩ := Option.bind_eq_some_iff.1 stepped
  refine ⟨request, found, ?_, (Option.some.inj same).symm⟩
  by_contra other
  unfold guard at running
  rw [if_neg other] at running
  cases running

def atPhase (s : Concurrent) (m : Machine) (earlier later : List PauseRequest)
    (request : Option PauseRequest) : Concurrent :=
  { s with machine := m, pauses := earlier ++ request.toList ++ later }

theorem of_proceed {index : Nat} (stepped : s.step (.proceed index) = some s') :
    ∃ earlier request later m next, s.pauses[index]? = some request ∧
      s.pauses = earlier ++ request :: later ∧
      phase s.machine request.phase = some (m, next) ∧
      s' = s.atPhase m earlier later (next.map fun phase => { request with phase }) := by
  simp only [step, Option.bind_eq_bind, Option.bind_eq_some_iff, Option.pure_def] at stepped
  obtain ⟨request, found, ⟨m, next⟩, going, same⟩ := stepped
  obtain ⟨inside, at_index⟩ := List.getElem?_eq_some_iff.1 found
  have place : s.pauses = s.pauses.take index ++ request :: s.pauses.drop (index + 1) := by
    rw [← at_index, List.getElem_cons_drop, List.take_append_drop]
  refine ⟨_, request, _, m, next, found, place, going, ?_⟩
  rw [← Option.some.inj same]
  cases next with
  | none => simp [atPhase, List.eraseIdx_eq_take_drop_succ]
  | some phase => simp [atPhase, List.set_eq_take_append_cons_drop, inside]

/-- A pause changes the lock, but not how many claims there are, and at most sets or clears the
suspend requests. -/
theorem phase_changes {now : PausePhase} {next : Option PausePhase}
    (going : phase m now = some (m', next)) :
    ∃ change : MutatorLock → MutatorLock, (∀ lock, (change lock).claims = lock.claims) ∧
      (m' = m.onLock change ∨ ∃ requested, m' = (m.onLock change).requestSuspend requested) := by
  cases now with
  | announced =>
    cases going
    exact ⟨id, fun _ => rfl, .inr ⟨true, rfl⟩⟩
  | raised =>
    simp only [phase] at going
    split at going
    · cases going
      exact ⟨MutatorLock.park, fun _ => rfl, .inl rfl⟩
    · cases going
  | reserved =>
    simp only [phase] at going
    split at going
    · cases going
      exact ⟨fun lock => lock.unpark.seize, fun _ => rfl, .inl rfl⟩
    · cases going
  | running =>
    cases going
    exact ⟨MutatorLock.count, fun _ => rfl, .inr ⟨false, rfl⟩⟩
  | lowered =>
    cases going
    exact ⟨MutatorLock.retract, fun _ => rfl, .inl rfl⟩
  | retracted =>
    cases going
    exact ⟨MutatorLock.free, fun _ => rfl, .inl rfl⟩

/-! ## Runs -/

theorem run_cons {move : Move} {moves : List Move} (stepped : s.step move = some s') :
    s.run (move :: moves) = s'.run moves := by
  rw [run, stepped]
  rfl

theorem run_append (s : Concurrent) (moves more : List Move) :
    s.run (moves ++ more) = (s.run moves).bind fun s => s.run more := by
  induction moves generalizing s with
  | nil => rfl
  | cons first rest ih =>
    simp only [List.cons_append, run, Option.bind_eq_bind, Option.bind_assoc, ih]

end Concurrent

end NativeBoundary
