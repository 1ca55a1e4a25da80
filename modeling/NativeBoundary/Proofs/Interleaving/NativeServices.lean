import NativeBoundary.Proofs.Interleaving.Pauses
import NativeBoundary.Proofs.Machine.HeapHistory

/-!
# Native code while a pause runs

A pause holds the lock, so nobody gets a share from it, and a thread that is on its way back to
managed code waits.  But native code is not held off.  What it asks of the heap and of its own table
of local references, and what happens at the thresholds of a call that crosses without a share,
goes through at once, with the effect it always has.
-/

set_option autoImplicit false

namespace NativeBoundary

/-! ## What services do -/

namespace Service

def alters : Service → Bool
  | .heap _ | .newObject _ | .register _ | .addLocal _ | .setScopeTop _ => true
  | _ => false

def onHeap (h : Heap) : Service → Heap
  | .heap step => h.step step
  | .newObject className => (h.allocate className).2
  | .register method => (h.classObject method.className).2
  | _ => h

def onTable (table : LocalTable ObjectId) : Service → LocalTable ObjectId
  | .addLocal o => (table.add o).2
  | .setScopeTop mark => table.truncate mark
  | _ => table

end Service

namespace Machine

def table? (m : Machine) (t : ThreadId) : Option (LocalTable ObjectId) :=
  (m.thread? t).map Thread.locals

/-- The copies and the maps of the heap stay, and so do the local references of every thread that
stays attached. -/
structure Untouched (m m' : Machine) : Prop where
  copies : m'.heap.copies = m.heap.copies
  objects : m'.heap.objects = m.heap.objects
  classes : m'.heap.classes = m.heap.classes
  tables : ∀ t old new, m.table? t = some old → m'.table? t = some new → new = old

/-- What a service that alters something makes of the heap, of the table of the thread that asks
for it, and of the tables of others. -/
structure Altered (service : Service) (t : ThreadId) (m m' : Machine) : Prop where
  heap : m'.heap = service.onHeap m.heap
  own : m'.table? t = (m.table? t).map fun table => service.onTable table
  others : ∀ other, other ≠ t → m'.table? other = m.table? other

variable {m m' : Machine} {t : ThreadId} {o : ObjectId} {service : Service} {left : List Service}

/-! ## Tables of local references -/

theorem table?_of_threads (threads : m'.threads = m.threads) : m'.table? = m.table? := by
  funext t
  rw [table?, thread?, threads]
  rfl

theorem table?_map (change : Thread → Thread)
    (keeps : ∀ thread, (change thread).id = thread.id ∧ (change thread).locals = thread.locals)
    (threads : m'.threads = m.threads.map change) : m'.table? = m.table? := by
  funext t
  unfold table? thread?
  have found : (fun thread : Thread => decide (thread.id = t)) ∘ change =
      fun thread => decide (thread.id = t) := by
    funext thread
    rw [Function.comp_apply, (keeps thread).1]
  rw [threads, List.find?_map, found, Option.map_map]
  congr 1
  funext thread
  exact (keeps thread).2

theorem table?_updateThread (change : Thread → Thread)
    (keeps : ∀ thread, (change thread).id = thread.id ∧ (change thread).locals = thread.locals) :
    (m.updateThread t change).table? = m.table? := by
  refine table?_map (fun thread => if thread.id = t then change thread else thread) ?_ rfl
  intro thread
  split
  · exact keeps thread
  · exact ⟨rfl, rfl⟩

theorem table?_requestSuspend (requested : Bool) : (m.requestSuspend requested).table? = m.table? :=
  table?_map (fun thread => { thread with suspendRequested := requested }) (fun _ => ⟨rfl, rfl⟩) rfl

theorem table?_dismiss (other : ThreadId) :
    (m.dismiss t).table? other = if other = t then none else m.table? other := by
  unfold table? thread? dismiss
  rw [List.find?_filter]
  split
  · next same =>
    rw [List.find?_eq_none.2 (by simp [same]), Option.map_none]
  · next different =>
    congr 2
    funext thread
    by_cases named : thread.id = other <;> simp [named, different]

theorem table?_enrol {name : String} {old : LocalTable ObjectId}
    (attached : m.table? t = some old) :
    (m.enrol name).2.table? t = some old := by
  obtain ⟨thread, found, rfl⟩ := Option.map_eq_some_iff.1 attached
  have kept : (m.enrol name).2.thread? t = some thread := by
    unfold thread? enrol at *
    rw [List.find?_append, found, Option.some_or]
  rw [table?, kept, Option.map_some]

/-! ## Changes that touch nothing -/

namespace Untouched

theorem of_tables (copies : m'.heap.copies = m.heap.copies)
    (objects : m'.heap.objects = m.heap.objects) (classes : m'.heap.classes = m.heap.classes)
    (tables : m'.table? = m.table?) : m.Untouched m' := by
  refine ⟨copies, objects, classes, fun t old new before after => ?_⟩
  rw [tables, before] at after
  exact (Option.some.inj after).symm

theorem updateThread (t : ThreadId) (change : Thread → Thread)
    (keeps : ∀ thread, (change thread).id = thread.id ∧ (change thread).locals = thread.locals) :
    m.Untouched (m.updateThread t change) :=
  of_tables rfl rfl rfl (table?_updateThread change keeps)

theorem refl (m : Machine) : m.Untouched m :=
  of_tables rfl rfl rfl rfl

theorem onLock (m : Machine) (change : MutatorLock → MutatorLock) :
    m.Untouched (m.onLock change) :=
  of_tables rfl rfl rfl rfl

theorem of_setMonitor {monitor : Monitor} (heap : m'.heap = m.heap.setMonitor o monitor)
    (threads : m'.threads = m.threads) : m.Untouched m' := by
  refine of_tables ?_ ?_ ?_ ?_
  · rw [heap, Heap.copies_setMonitor]
  · rw [heap, Heap.objects_setMonitor]
  · rw [heap, Heap.classes_setMonitor]
  · exact table?_of_threads threads

theorem dismiss (m : Machine) (t : ThreadId) : m.Untouched (m.dismiss t) := by
  refine ⟨rfl, rfl, rfl, fun other old new before after => ?_⟩
  rw [table?_dismiss] at after
  split at after
  · cases after
  · rw [before] at after
    exact (Option.some.inj after).symm

theorem enrol (m : Machine) (name : String) : m.Untouched (m.enrol name).2 := by
  refine ⟨rfl, rfl, rfl, fun t old new before after => ?_⟩
  rw [table?_enrol before] at after
  exact (Option.some.inj after).symm

theorem of_exitMonitor {exited : Except Throwable Unit}
    (run : exitMonitor t o m = .ok exited m') : m.Untouched m' := by
  obtain ⟨_, -, -, rfl⟩ | ⟨_, -, -, rfl⟩ := exitMonitor_eq_ok.1 run
  · exact .of_setMonitor rfl rfl
  · exact .refl m

end Untouched

open Concurrent (whole_eq_ok)

theorem serve_untouched (plain : service.alters = false)
    (run : serve t service m = .ok left m') : m.Untouched m' := by
  cases service with
  | heap _ | newObject _ | register _ | addLocal _ | setScopeTop _ => cases plain
  | enlist method root =>
    obtain ⟨-, _, changed⟩ := whole_eq_ok.1 run
    obtain rfl := Act.modify_eq_ok.1 changed
    exact .of_tables rfl rfl rfl rfl
  | currentCopy o =>
    obtain ⟨-, _, found⟩ := whole_eq_ok.1 run
    obtain rfl := currentCopy_of_ok found
    exact .of_tables rfl rfl rfl rfl
  | checkResult method result =>
    obtain ⟨-, _, checked⟩ := whole_eq_ok.1 run
    obtain rfl := checkResult_of_ok checked
    exact .of_tables rfl rfl rfl rfl
  | exitMonitor o =>
    obtain ⟨-, _, exit⟩ := whole_eq_ok.1 run
    exact .of_exitMonitor exit
  | nativeExit o =>
    obtain ⟨exited, between, exit, run⟩ := Act.bind_eq_ok.1 run
    obtain ⟨-, rfl⟩ := Act.pure_eq_ok.1 run
    exact .of_exitMonitor exit
  | _ =>
    obtain ⟨-, _, changed⟩ := whole_eq_ok.1 run
    obtain rfl := Act.modify_eq_ok.1 changed
    exact .updateThread t _ fun _ => ⟨rfl, rfl⟩

/-! ## Changes that alter something -/

namespace Altered

theorem of_heap (tables : ∀ table, service.onTable table = table)
    (heap : m'.heap = service.onHeap m.heap) (threads : m'.threads = m.threads) :
    Altered service t m m' := by
  have same := table?_of_threads threads
  refine ⟨heap, ?_, fun other _ => congrFun same other⟩
  rw [same, funext tables]
  exact Option.map_id'.symm

theorem of_table (keeps : service.onHeap m.heap = m.heap) (change : Thread → Thread)
    (number : ∀ thread, (change thread).id = thread.id)
    (locals : ∀ thread, m.thread? t = some thread →
      (change thread).locals = service.onTable thread.locals) :
    Altered service t m (m.updateThread t change) where
  heap := keeps.symm
  own := by
    rw [table?, table?, thread?_updateThread t change m number]
    cases found : m.thread? t with
    | none => rfl
    | some thread => simp only [Option.map_some, locals thread found]
  others := by
    intro other different
    rw [table?, thread?_updateThread_of_ne t other change m number different, table?]

end Altered

/-- A service that alters something goes through whatever the machine is. -/
theorem serve_alters (m : Machine) (t : ThreadId) (alters : service.alters = true) :
    ∃ left m', serve t service m = .ok left m' ∧ Altered service t m m' := by
  cases service with
  | heap step => exact ⟨_, _, rfl, .of_heap (fun _ => rfl) rfl rfl⟩
  | newObject className => exact ⟨_, _, rfl, .of_heap (fun _ => rfl) rfl rfl⟩
  | register method => exact ⟨_, _, rfl, .of_heap (fun _ => rfl) rfl rfl⟩
  | addLocal o =>
    refine ⟨_, _, rfl, .of_table rfl _ (fun _ => rfl) fun thread found => ?_⟩
    rw [Machine.thread, found, Option.getD_some]
    rfl
  | setScopeTop mark => exact ⟨_, _, rfl, .of_table rfl _ (fun _ => rfl) fun _ _ => rfl⟩
  | _ => cases alters

end Machine

/-! ## Steps of threads and of pauses -/

def Atom.alters : Atom → Bool
  | .serve service => service.alters
  | _ => false

namespace Concurrent

open Machine (Untouched Altered)

variable {s s' : Concurrent} {m m' : Machine} {t : ThreadId} {service : Service}

theorem atom_untouched {first : Atom} {more : List Atom} (plain : first.alters = false)
    (done : atom m t first = some (m', more)) : m.Untouched m' := by
  cases does_of_atom done with
  | store state => exact .updateThread t _ fun _ => ⟨rfl, rfl⟩
  | claim granted => exact .onLock m MutatorLock.claim
  | giveBack asked => exact .onLock m MutatorLock.unclaim
  | keep unasked => exact .updateThread t _ fun _ => ⟨rfl, rfl⟩
  | release =>
    have kept := Machine.table?_updateThread (m := m) (t := t)
      (fun thread => { thread with holdsShare := false }) fun _ => ⟨rfl, rfl⟩
    exact .of_tables rfl rfl rfl kept
  | count => exact .onLock m MutatorLock.countCheck
  | enter o monitor granted | got o monitor granted => exact .of_setMonitor rfl rfl
  | stepAside o monitor refused holds | waitOn o monitor refused free =>
    exact .of_tables rfl rfl rfl rfl
  | serve service left m' run => exact Machine.serve_untouched plain run
  | dismiss => exact .dismiss m t

theorem phase_untouched {now : PausePhase} {next : Option PausePhase}
    (going : phase m now = some (m', next)) : m.Untouched m' := by
  obtain ⟨change, -, rfl | ⟨requested, rfl⟩⟩ := phase_changes going
  · exact .onLock m change
  · exact .of_tables rfl rfl rfl (Machine.table?_requestSuspend (m := m.onLock change) requested)

/-- Every move but a service that alters something, and what the body of a pause does, leaves the
heap and the references alone. -/
theorem step_untouched {move : Move} (stepped : s.step move = some s')
    (noBody : ∀ index step, move ≠ .collect index step)
    (plain : ∀ t first rest, move = .advance t → s.remaining t = first :: rest →
      first.alters = false) : s.machine.Untouched s'.machine := by
  cases move with
  | attach name =>
    obtain rfl := Option.some.inj stepped
    exact .enrol s.machine name
  | start t errand =>
    obtain ⟨_, _, _, _, _, rfl⟩ := of_start stepped
    exact .refl s.machine
  | advance t =>
    obtain ⟨first, rest, m, more, planned, done, rfl⟩ := of_advance stepped
    exact atom_untouched (plain t first rest rfl planned) done
  | request reason =>
    obtain rfl := Option.some.inj stepped
    exact .onLock s.machine (MutatorLock.announce reason)
  | proceed index =>
    obtain ⟨_, _, _, _, _, -, -, going, rfl⟩ := of_proceed stepped
    exact phase_untouched going
  | collect index step => exact absurd rfl (noBody index step)

/-- A thread whose next step is a service that alters something takes it, whatever else is under way.
-/
theorem advance_alters {rest : List Atom} (planned : s.remaining t = .serve service :: rest)
    (alters : service.alters = true) :
    ∃ s', s.step (.advance t) = some s' ∧ s'.pauses = s.pauses ∧
      Altered service t s.machine s'.machine := by
  obtain ⟨left, m', run, altered⟩ := Machine.serve_alters s.machine t alters
  have taken : s.step (.advance t) =
      some ((s.withMachine m').plan t (left.map .serve ++ rest)) := by
    simp [step, planned, atom, run]
  exact ⟨_, taken, rfl, altered⟩

/-! ## While a pause runs -/

/-- A thread that asks for a share while a pause runs has to wait. -/
theorem Governed.claim_waits {ended : Nat} (governed : s.Governed ended)
    (running : ∃ request ∈ s.pauses, request.phase = .running) {rest : List Atom}
    (planned : s.remaining t = .claim :: rest) : s.step (.advance t) = none := by
  have refused : s.machine.lock.grants = false := by
    simp [MutatorLock.grants, governed.paused_of_running running]
  simp [Concurrent.step, planned, atom, refused]

/-- Without a claim, only a thread in native code is about to be served. -/
theorem Orderly.native_of_serve (orderly : s.Orderly) {thread : Thread} {rest : List Atom}
    (attached : thread ∈ s.machine.threads) (free : s.machine.lock.claims = 0)
    (planned : s.remaining thread.id = .serve service :: rest) :
    thread.state = .native ∧ thread.holdsShare = false := by
  have nothing := orderly.hold_eq_nothing free attached
  have coherent := orderly.coherent thread attached
  have noShare := thread.holdsShare_eq (s.remaining thread.id)
  unfold Thread.IsCoherent at coherent
  rw [nothing] at noShare
  rw [nothing, planned] at coherent
  -- A thread that is about to be served is managed exactly if it has a share, and it has none.
  have unmanaged : thread.state ≠ .managed := fun managed => nomatch coherent.2.1.2 managed
  refine ⟨?_, noShare⟩
  cases known : thread.state with
  | native => rfl
  | managed => exact absurd known unmanaged

/-- A move of a thread that is about to have something altered while nobody has a claim. -/
theorem Orderly.altered_of_advance (orderly : s.Orderly) (free : s.machine.lock.claims = 0)
    (stepped : s.step (.advance t) = some s') {rest : List Atom}
    (planned : s.remaining t = .serve service :: rest) (alters : service.alters = true) :
    ∃ thread ∈ s.machine.threads, thread.id = t ∧ thread.state = .native ∧
      thread.holdsShare = false ∧ Altered service t s.machine s'.machine := by
  obtain ⟨thread, member, rfl, -⟩ := orderly.attached planned
  obtain ⟨native, noShare⟩ := orderly.native_of_serve member free planned
  obtain ⟨_, taken, -, altered⟩ := advance_alters planned alters
  rw [stepped] at taken
  obtain rfl := Option.some.inj taken
  exact ⟨thread, member, rfl, native, noShare, altered⟩

/-- While a pause runs, a thread that wants a share waits.  No move changes the copies or the maps
of the heap, or the local references of a thread that stays attached, but for two: the body of the
pause changes the heap, or a thread in native code has a service alter the heap or its own table.
And such a service goes through at once, for every thread that has come to it and for every thread
that is at rest. -/
theorem only_pause_and_native_code_alter (heap : Heap) (s : Concurrent)
    (reachable : Reachable heap s) (running : ∃ request ∈ s.pauses, request.phase = .running) :
    (∀ t rest, s.remaining t = .claim :: rest → s.step (.advance t) = none) ∧
      (∀ move s', s.step move = some s' → s.machine.Untouched s'.machine ∨
        (∃ index step, move = .collect index step ∧ s'.machine.heap = s.machine.heap.step step ∧
          s'.machine.threads = s.machine.threads) ∨
        ∃ thread ∈ s.machine.threads, ∃ service rest, move = .advance thread.id ∧
          s.remaining thread.id = .serve service :: rest ∧ service.alters = true ∧
          thread.state = .native ∧ thread.holdsShare = false ∧
          Altered service thread.id s.machine s'.machine) ∧
      ∀ thread ∈ s.machine.threads, ∀ service : Service, service.alters = true →
        (∀ rest, s.remaining thread.id = .serve service :: rest →
          ∃ s', s.step (.advance thread.id) = some s' ∧ s'.pauses = s.pauses ∧
            Altered service thread.id s.machine s'.machine) ∧
        (s.remaining thread.id = [] →
          ∃ s', s.run [.start thread.id (.serve service), .advance thread.id] = some s' ∧
            s'.pauses = s.pauses ∧ Altered service thread.id s.machine s'.machine) := by
  obtain ⟨moves, ran⟩ := reachable
  have orderly := (orderly_fresh heap).run ran
  have governed := (governed_fresh heap).run (orderly_fresh heap) ran
  refine ⟨fun t rest planned => governed.claim_waits running planned, ?_, ?_⟩
  · intro move s' stepped
    by_cases body : ∃ index step, move = .collect index step
    · obtain ⟨index, step, rfl⟩ := body
      obtain ⟨_, -, -, rfl⟩ := of_collect stepped
      exact .inr (.inl ⟨index, step, rfl, rfl, rfl⟩)
    · by_cases altering : ∃ t service rest, move = .advance t ∧
          s.remaining t = .serve service :: rest ∧ service.alters = true
      · obtain ⟨t, service, rest, rfl, planned, alters⟩ := altering
        obtain ⟨thread, member, rfl, native, noShare, altered⟩ :=
          orderly.altered_of_advance (governed.claims_eq_zero running) stepped planned alters
        exact .inr (.inr
          ⟨thread, member, service, rest, rfl, planned, alters, native, noShare, altered⟩)
      · refine .inl (step_untouched stepped (fun index step same => body ⟨index, step, same⟩)
          fun t first rest same planned => ?_)
        cases first with
        | serve service =>
          by_contra alters
          exact altering ⟨t, service, rest, same, planned, by simpa [Atom.alters] using alters⟩
        | _ => rfl
  · intro thread member service alters
    refine ⟨fun rest planned => advance_alters planned alters, fun idle => ?_⟩
    obtain ⟨before, after, among⟩ := orderly.numbered.among member
    have started : s.step (.start thread.id (.serve service)) =
        some (s.plan thread.id [.serve service]) := start_of_idle among.thread? idle rfl
    obtain ⟨s', taken, pauses, altered⟩ :=
      advance_alters (remaining_plan s thread.id [.serve service]) alters
    exact ⟨s', by simp [run, started, taken], pauses, altered⟩

/-- Two threads go to native code, a pause runs, and the second thread wants to come back. -/
def comingBack : List Move :=
  [ .attach "main", .advance ⟨1⟩, .advance ⟨1⟩, .advance ⟨1⟩,
    .attach "second", .advance ⟨2⟩, .advance ⟨2⟩, .advance ⟨2⟩,
    .start ⟨1⟩ .toNative, .advance ⟨1⟩, .advance ⟨1⟩,
    .start ⟨2⟩ .toNative, .advance ⟨2⟩, .advance ⟨2⟩,
    .request .garbageCollection, .proceed 0, .proceed 0, .proceed 0, .start ⟨2⟩ .toManaged ]

/-- The second thread waits, and the first one allocates. -/
theorem only_pause_and_native_code_alter_coming_back :
    ∃ s, Reachable {} s ∧ s.step (.advance ⟨2⟩) = none ∧
      ∃ s', s.run [.start ⟨1⟩ (.serve (.newObject "A")), .advance ⟨1⟩] = some s' ∧
        s'.pauses = s.pauses ∧ s'.machine.heap = (s.machine.heap.allocate "A").2 := by
  have outcome : ((({} : Concurrent).run comingBack).any fun s =>
      (∃ request ∈ s.pauses, request.phase = .running) ∧
        s.remaining ⟨2⟩ = [.claim, .keep, .store .managed] ∧ s.remaining ⟨1⟩ = [] ∧
          ∃ thread ∈ s.machine.threads, thread.id = ⟨1⟩) = true := by
    decide
  obtain ⟨s, ran, facts⟩ := (Option.any_eq_true _ _).1 outcome
  obtain ⟨running, back, idle, thread, member, first⟩ := of_decide_eq_true facts
  obtain ⟨waits, -, goesThrough⟩ :=
    only_pause_and_native_code_alter {} s ⟨comingBack, ran⟩ running
  have altering := (goesThrough thread member (.newObject "A") rfl).2 (first ▸ idle)
  rw [first] at altering
  obtain ⟨s', adds, pauses, altered⟩ := altering
  exact ⟨s, ⟨comingBack, ran⟩, waits _ _ back, s', adds, pauses, altered.heap⟩

/-- A thread in native code can allocate while a pause runs. -/
theorem native_thread_allocates_while_paused :
    ¬ ∀ heap s, Reachable heap s → (∃ request ∈ s.pauses, request.phase = .running) →
      ∀ thread ∈ s.machine.threads, thread.state = .native →
        ∀ s', s.step (.advance thread.id) = some s' → s.machine.Untouched s'.machine := by
  intro always
  have outcome : ((({} : Concurrent).run
      (comingBack ++ [.start ⟨1⟩ (.serve (.newObject "A"))])).any fun s =>
      (∃ request ∈ s.pauses, request.phase = .running) ∧
        ∃ thread ∈ s.machine.threads, thread.state = .native ∧
          (s.step (.advance thread.id)).any fun s' =>
            s'.machine.heap.objects ≠ s.machine.heap.objects) = true := by
    decide
  obtain ⟨s, ran, facts⟩ := (Option.any_eq_true _ _).1 outcome
  obtain ⟨running, thread, member, native, changed⟩ := of_decide_eq_true facts
  obtain ⟨s', stepped, changed⟩ := (Option.any_eq_true _ _).1 changed
  have untouched := always {} s ⟨_, ran⟩ running thread member native s' stepped
  exact of_decide_eq_true changed untouched.objects

end Concurrent

end NativeBoundary
