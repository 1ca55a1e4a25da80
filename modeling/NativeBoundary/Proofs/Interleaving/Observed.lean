import NativeBoundary.Proofs.Interleaving.Pauses

/-!
# What a pause sees of the threads

The state of a thread is stored before its share is given back on the way to native code, and after
it is taken on the way to managed code.  A thread that only steps aside, for a pause or for a
monitor that it has to wait for, gives its share back and takes it again without storing anything,
and so does one that detaches until it is almost gone.  A pause that runs meanwhile sees such a
thread as managed; it sees no other thread so.
-/

set_option autoImplicit false

namespace NativeBoundary

/-- What a managed thread without a claim is about to do. -/
inductive Aside : List Atom → Prop where
  /-- To take its share back. -/
  | returning (rest : List Atom) : Aside (.claim :: .keep :: rest)
  /-- To get a monitor, and then to take its share back. -/
  | waiting (o : ObjectId) (rest : List Atom) : Aside (.wait o :: .claim :: .keep :: rest)
  /-- To go for good. -/
  | detaching (rest : List Atom) : Aside (.store .native :: rest)

theorem Coherent.starts_with_keep {state : ThreadState} {steps : List Atom}
    (coherent : Coherent state .tentative steps) : ∃ rest, steps = .keep :: rest := by
  have keep := coherent.tentative_iff.1 rfl
  cases steps with
  | nil => cases keep
  | cons first rest =>
    obtain rfl := Option.some.inj keep
    exact ⟨rest, rfl⟩

theorem Coherent.aside {steps : List Atom} (coherent : Coherent .managed .nothing steps) :
    Aside steps := by
  cases steps with
  | nil => exact absurd (coherent.2.2 rfl) nofun
  | cons first rest =>
    cases first with
    | claim =>
      obtain ⟨-, coherent⟩ := coherent
      obtain ⟨later, rfl⟩ := coherent.starts_with_keep
      exact .returning later
    | wait o =>
      obtain ⟨-, claims, coherent⟩ := coherent
      have first := claims rfl
      cases rest with
      | nil => cases first
      | cons second rest =>
        obtain rfl := Option.some.inj first
        obtain ⟨-, coherent⟩ := coherent
        obtain ⟨later, rfl⟩ := coherent.starts_with_keep
        exact .waiting o later
    | store next =>
      obtain ⟨-, managed, -⟩ := coherent
      cases next with
      | native => exact .detaching rest
      | managed => exact absurd (managed rfl) nofun
    | keep | release => exact absurd coherent.1 nofun
    | dismiss => exact absurd coherent.2.1 nofun
    | count | tryEnter _ | serve _ => exact absurd (coherent.2.1.2 rfl) nofun

namespace Concurrent

/-- While a pause runs, no thread has a share, and the threads that it sees in managed code are
those that have stepped aside or are about to be gone. -/
theorem seen_managed_only_aside (heap : Heap) (s : Concurrent) (reachable : Reachable heap s)
    (running : ∃ request ∈ s.pauses, request.phase = .running) (thread : Thread)
    (attached : thread ∈ s.machine.threads) :
    thread.holdsShare = false ∧
      (thread.state = .managed → Aside (s.remaining thread.id)) := by
  obtain ⟨moves, ran⟩ := reachable
  have orderly := (orderly_fresh heap).run ran
  have governed := (governed_fresh heap).run (orderly_fresh heap) ran
  have nothing := orderly.hold_eq_nothing (governed.claims_eq_zero running) attached
  refine ⟨?_, fun managed => ?_⟩
  · rw [thread.holdsShare_eq (s.remaining thread.id), nothing]
    rfl
  · have coherent := orderly.coherent thread attached
    unfold Thread.IsCoherent at coherent
    rw [nothing, managed] at coherent
    exact coherent.aside

def oneObject : Heap :=
  (({} : Heap).allocate "Lock").2

/-- A thread enters a monitor, another one waits for it, the first goes to native code, and a pause
runs. -/
def waitingForMonitor : List Move :=
  [ .attach "main", .advance ⟨1⟩, .advance ⟨1⟩, .advance ⟨1⟩,
    .start ⟨1⟩ (.enterMonitor ⟨0⟩), .advance ⟨1⟩,
    .attach "waiter", .advance ⟨2⟩, .advance ⟨2⟩, .advance ⟨2⟩,
    .start ⟨2⟩ (.enterMonitor ⟨0⟩), .advance ⟨2⟩, .advance ⟨2⟩,
    .start ⟨1⟩ .toNative, .advance ⟨1⟩, .advance ⟨1⟩,
    .request .garbageCollection, .proceed 0, .proceed 0, .proceed 0 ]

theorem waitingForMonitor_pauses :
    ∃ s, Reachable oneObject s ∧ (∃ request ∈ s.pauses, request.phase = .running) ∧
      ∃ thread ∈ s.machine.threads, thread.state = .managed := by
  have outcome : ((({ machine := { heap := oneObject } } : Concurrent).run waitingForMonitor).any
      fun s => (∃ request ∈ s.pauses, request.phase = .running) ∧
        ∃ thread ∈ s.machine.threads, thread.state = .managed) = true := by decide
  obtain ⟨s, ran, facts⟩ := (Option.any_eq_true _ _).1 outcome
  exact ⟨s, ⟨waitingForMonitor, ran⟩, of_decide_eq_true facts⟩

theorem seen_managed_only_aside_waiter :
    ∃ s, Reachable oneObject s ∧ ∃ thread ∈ s.machine.threads,
      thread.state = .managed ∧ thread.holdsShare = false ∧ Aside (s.remaining thread.id) := by
  obtain ⟨s, reachable, running, thread, attached, managed⟩ := waitingForMonitor_pauses
  obtain ⟨free, aside⟩ :=
    seen_managed_only_aside oneObject s reachable running thread attached
  exact ⟨s, reachable, thread, attached, managed, free, aside managed⟩

/-- A pause can see a thread in managed code that has no share. -/
theorem waiting_thread_seen_managed :
    ¬ ∀ heap s, Reachable heap s → (∃ request ∈ s.pauses, request.phase = .running) →
      ∀ thread ∈ s.machine.threads, thread.state ≠ .managed := by
  intro never
  obtain ⟨s, reachable, running, thread, attached, managed⟩ := waitingForMonitor_pauses
  exact never oneObject s reachable running thread attached managed

end Concurrent

end NativeBoundary
