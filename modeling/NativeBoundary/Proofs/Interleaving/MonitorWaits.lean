import NativeBoundary.Proofs.Interleaving.Observed

/-!
# Waiting for a monitor, and for a pause

Two kinds of lock meet in a thread that enters a monitor.  Before it waits for the monitor it gives
its share of the mutator lock back, and it takes a share again only when it has the monitor.  So the
claims that a pause waits for are claims of threads that do not wait for a monitor; and an enter
that has come to its end has changed neither the state nor the share of the thread.
-/

set_option autoImplicit false

namespace NativeBoundary

def Errand.entered? : Errand → Option ObjectId
  | .enterMonitor o | .nativeEnter o => some o
  | _ => none

def Atom.keepsState : Atom → Bool
  | .store _ | .dismiss => false
  | _ => true

namespace Concurrent

variable {s s' : Concurrent} {t : ThreadId} {ended : Nat}

/-! ## Who waits for what -/

def waits (s : Concurrent) (t : ThreadId) : Bool :=
  match s.remaining t with
  | .wait _ :: _ => true
  | _ => false

theorem Orderly.hold_of_waits (orderly : s.Orderly) {thread : Thread}
    (attached : thread ∈ s.machine.threads) (waiting : s.waits thread.id = true) :
    thread.hold (s.remaining thread.id) = .nothing := by
  have coherent := orderly.coherent thread attached
  unfold waits at waiting
  unfold Thread.IsCoherent at coherent
  split at waiting
  · next planned =>
    rw [planned] at coherent ⊢
    exact coherent.1
  · cases waiting

theorem claims_filter {threads : List Thread} (counts : Thread → Bool)
    (nobody : ∀ thread ∈ threads, counts thread = false →
      thread.hold (s.remaining thread.id) = .nothing) :
    s.claims threads = s.claims (threads.filter counts) := by
  unfold Concurrent.claims
  induction threads with
  | nil => rfl
  | cons first rest ih =>
    have others := ih fun thread member => nobody thread (List.mem_cons_of_mem _ member)
    rw [List.map_cons, List.sum_cons, others]
    cases counted : counts first with
    | true => simp [counted]
    | false => simp [counted, nobody first (by simp) counted, Hold.claims]

theorem Orderly.claims_of_others (orderly : s.Orderly) :
    s.machine.lock.claims =
      s.claims (s.machine.threads.filter fun thread => s.waits thread.id = false) := by
  rw [orderly.claims]
  exact claims_filter _ fun thread attached waiting =>
    orderly.hold_of_waits attached (by simpa using waiting)

theorem Governed.held_up (governed : s.Governed ended) {index : Nat} {request : PauseRequest}
    (found : s.pauses[index]? = some request) (stuck : s.step (.proceed index) = none) :
    (request.phase = .raised ∧
        ∃ other ∈ s.pauses, other.phase = .reserved ∨ other.phase.hasLock = true) ∨
      request.phase = .reserved ∧ s.machine.lock.claims ≠ 0 := by
  have stopped : phase s.machine request.phase = none := by
    simp only [Concurrent.step, found, Option.bind_eq_bind, Option.bind_some] at stuck
    cases going : phase s.machine request.phase with
    | none => rfl
    | some next => simp [going] at stuck
  cases now : request.phase with
  | announced | running | lowered | retracted => simp [now, phase] at stopped
  | raised =>
    refine .inl ⟨rfl, ?_⟩
    have refused : s.machine.lock.paused = true ∨ s.machine.lock.parked ≠ 0 := by
      simp only [now, phase] at stopped
      split at stopped
      · cases stopped
      · next refused =>
        cases paused : s.machine.lock.paused with
        | true => exact .inl rfl
        | false => exact .inr (by simpa [MutatorLock.grants, paused] using refused)
    rcases refused with paused | parked
    · have positive : 0 < s.pauses.countP fun request => request.phase.hasLock := by
        simp [← governed.paused, paused]
      obtain ⟨other, member, hasLock⟩ := List.countP_pos_iff.1 positive
      exact ⟨other, member, .inr hasLock⟩
    · rw [governed.parked] at parked
      obtain ⟨other, member, reserved⟩ := List.countP_pos_iff.1 (Nat.pos_of_ne_zero parked)
      exact ⟨other, member, .inl (of_decide_eq_true reserved)⟩
  | reserved =>
    refine .inr ⟨rfl, fun free => ?_⟩
    simp [now, phase, free] at stopped

/-! ## The course of an enter -/

/-- A thread is attached and in the given state, and has only steps before it that leave it so. -/
structure Entering (s : Concurrent) (t : ThreadId) (state : ThreadState) : Prop where
  attached : ∃ thread ∈ s.machine.threads, thread.id = t ∧ thread.state = state
  steps : ∀ atom ∈ s.remaining t, atom.keepsState = true

theorem Takes.entering {lock lock' : MutatorLock} {thread : Thread} {left : Option Thread}
    {steps steps' : List Atom} (takes : Takes lock thread steps lock' left steps')
    (entering : ∀ atom ∈ steps, atom.keepsState = true) :
    (∃ after, left = some after ∧ after.id = thread.id ∧ after.state = thread.state) ∧
      ∀ atom ∈ steps', atom.keepsState = true := by
  cases takes with
  | store state rest => exact absurd (entering (.store state) (by simp)) nofun
  | dismiss rest => exact absurd (entering .dismiss (by simp)) nofun
  | claim _ _ | keep _ _ | release _ | count _ | enter _ _ | got _ _ =>
    exact ⟨⟨_, rfl, rfl, rfl⟩, (List.forall_mem_cons.1 entering).2⟩
  | serve service left rest after alike =>
    refine ⟨⟨after, rfl, alike.id, alike.state⟩, List.forall_mem_append.2 ⟨?_, ?_⟩⟩
    · simp [Atom.keepsState]
    · exact (List.forall_mem_cons.1 entering).2
  | giveBack _ _ | stepAside _ _ _ | waitOn _ _ _ =>
    exact ⟨⟨_, rfl, rfl, rfl⟩, by simpa [Atom.keepsState] using entering⟩

theorem Requests.mem {m m' : Machine} (requests : Requests m m') {thread : Thread}
    (attached : thread ∈ m.threads) :
    ∃ after ∈ m'.threads, after.id = thread.id ∧ after.state = thread.state := by
  obtain ⟨⟨change, threads, alike⟩, -, -⟩ := requests
  obtain ⟨_, same⟩ := alike thread
  exact ⟨change thread, threads ▸ List.mem_map_of_mem attached, by rw [same], by rw [same]⟩

namespace Entering

variable {state : ThreadState}

theorem of_requests (entering : s.Entering t state) (agenda : s'.agenda = s.agenda)
    (requests : Requests s.machine s'.machine) : s'.Entering t state where
  attached := by
    obtain ⟨thread, member, rfl, rfl⟩ := entering.attached
    exact requests.mem member
  steps := by
    rw [remaining, agenda]
    exact entering.steps

theorem advance (entering : s.Entering t state) (orderly : s.Orderly) {u : ThreadId}
    (stepped : s.step (.advance u) = some s') : s'.Entering t state := by
  obtain ⟨first, rest, m, more, planned, done, rfl⟩ := of_advance stepped
  obtain ⟨thread, member, rfl, before, after, among⟩ := orderly.attached planned
  obtain ⟨-, left, threads, takes⟩ := atom_takes among done rest
  by_cases own : t = thread.id
  · subst own
    obtain ⟨other, attached, named, same⟩ := entering.attached
    have here : other = thread := by
      rw [among.threads] at attached
      by_contra different
      refine among.others other ?_ named
      simp only [List.mem_append, List.mem_cons] at attached ⊢
      tauto
    obtain ⟨⟨left, rfl, id, kept⟩, steps⟩ := takes.entering (planned ▸ entering.steps)
    refine ⟨⟨left, ?_, id, kept.trans (here ▸ same)⟩, by rwa [remaining_plan]⟩
    change left ∈ m.threads
    simp [threads]
  · obtain ⟨other, attached, rfl, same⟩ := entering.attached
    refine ⟨⟨other, ?_, rfl, same⟩, ?_⟩
    · change other ∈ m.threads
      have elsewhere : other ≠ thread := fun same => own (same ▸ rfl)
      rw [among.threads] at attached
      simp only [List.mem_append, List.mem_cons] at attached
      rw [threads]
      simp only [List.mem_append]
      tauto
    · rw [remaining_plan_of_ne own, remaining_withMachine]
      exact entering.steps

theorem step (entering : s.Entering t state) (orderly : s.Orderly) {move : Move}
    (others : ∀ errand, move ≠ .start t errand) (stepped : s.step move = some s') :
    s'.Entering t state := by
  cases move with
  | attach name =>
    obtain rfl := Option.some.inj stepped
    obtain ⟨thread, member, rfl, same⟩ := entering.attached
    have older := Machine.thread?_eq_none_iff.1 orderly.numbered.fresh thread member
    refine ⟨⟨thread, List.mem_append_left _ member, rfl, same⟩, ?_⟩
    rw [remaining_plan_of_ne older, remaining_withMachine]
    exact entering.steps
  | start u errand =>
    obtain ⟨_, steps, -, -, -, rfl⟩ := of_start stepped
    have elsewhere : t ≠ u := fun same => others errand (same ▸ rfl)
    exact ⟨entering.attached, by simpa only [remaining_plan_of_ne elsewhere] using entering.steps⟩
  | advance u => exact entering.advance orderly stepped
  | request reason =>
    obtain rfl := Option.some.inj stepped
    exact entering.of_requests rfl (.of_onLock s.machine (MutatorLock.announce reason) rfl)
  | proceed index =>
    obtain ⟨_, _, _, _, _, -, -, going, rfl⟩ := of_proceed stepped
    exact entering.of_requests rfl (phase_requests going)
  | collect index step =>
    obtain ⟨_, -, -, rfl⟩ := of_collect stepped
    exact entering.of_requests rfl (.of_heap s.machine (s.machine.heap.step step))

theorem run (entering : s.Entering t state) (orderly : s.Orderly) {moves : List Move}
    (others : ∀ errand, .start t errand ∉ moves) (ran : s.run moves = some s') :
    s'.Entering t state := by
  induction moves generalizing s with
  | nil =>
    obtain rfl := Option.some.inj ran
    exact entering
  | cons first rest ih =>
    obtain ⟨between, stepped, ran⟩ := Option.bind_eq_some_iff.1 ran
    have next := entering.step orderly
      (fun errand same => others errand (same ▸ List.mem_cons_self)) stepped
    exact ih next (orderly.step stepped)
      (fun errand member => others errand (List.mem_cons_of_mem _ member)) ran

end Entering

theorem entering_of_start {errand : Errand} {o : ObjectId} (enters : errand.entered? = some o)
    (stepped : s.step (.start t errand) = some s') :
    ∃ thread ∈ s.machine.threads, thread.id = t ∧ s.remaining t = [] ∧
      s'.Entering t thread.state := by
  obtain ⟨thread, steps, attached, idle, planned, rfl⟩ := of_start stepped
  obtain ⟨member, named⟩ := Machine.mem_of_thread? attached
  refine ⟨thread, member, named, idle, ⟨thread, member, named, rfl⟩, ?_⟩
  rw [remaining_plan]
  cases errand with
  | enterMonitor _ | nativeEnter _ =>
    cases planned
    simp [Atom.keepsState]
  | _ => cases enters

/-! ## The two locks together -/

/-- In every interleaving, a thread that waits for a monitor has no share.  A pause that cannot go on
waits for another pause, or for claims all of which belong to threads that do not wait for a monitor.
And from when a thread sets out to enter a monitor until it sets out to do something else, it stays
in its state; when it is through, it has a share exactly if it had one. -/
theorem monitor_waits_leave_shares (heap : Heap) (s : Concurrent) (reachable : Reachable heap s) :
    (∀ thread ∈ s.machine.threads, s.waits thread.id = true → thread.holdsShare = false) ∧
      (∀ index request, s.pauses[index]? = some request → s.step (.proceed index) = none →
        (request.phase = .raised ∧
            ∃ other ∈ s.pauses, other.phase = .reserved ∨ other.phase.hasLock = true) ∨
          request.phase = .reserved ∧ s.machine.lock.claims ≠ 0 ∧
            s.machine.lock.claims =
              s.claims (s.machine.threads.filter fun thread => s.waits thread.id = false)) ∧
      ∀ t errand o s₁, errand.entered? = some o → s.step (.start t errand) = some s₁ →
        ∃ before ∈ s.machine.threads, before.id = t ∧
          ∀ moves s₂, (∀ other, .start t other ∉ moves) → s₁.run moves = some s₂ →
            ∃ after ∈ s₂.machine.threads, after.id = t ∧ after.state = before.state ∧
              (s₂.remaining t = [] → after.holdsShare = before.holdsShare) := by
  obtain ⟨moves, ran⟩ := reachable
  have orderly := (orderly_fresh heap).run ran
  have governed := (governed_fresh heap).run (orderly_fresh heap) ran
  refine ⟨fun thread attached waiting => ?_, fun index request found stuck => ?_, ?_⟩
  · rw [thread.holdsShare_eq (s.remaining thread.id), orderly.hold_of_waits attached waiting]
    rfl
  · exact (governed.held_up found stuck).imp_right fun ⟨reserved, claimed⟩ =>
      ⟨reserved, claimed, orderly.claims_of_others⟩
  · intro t errand o s₁ enters started
    obtain ⟨before, member, rfl, idle, entering⟩ := entering_of_start enters started
    refine ⟨before, member, rfl, fun moves s₂ others ran => ?_⟩
    have next := orderly.step started
    obtain ⟨after, attached, named, same⟩ := (entering.run next others ran).attached
    refine ⟨after, attached, named, same, fun through => ?_⟩
    -- At rest, before and after, the thread has a share exactly if it is managed.
    have start := orderly.coherent before member
    have finish := (next.run ran).coherent after attached
    rw [idle] at start
    rw [named, through] at finish
    rw [Bool.eq_iff_iff, finish.at_rest, start.at_rest, same]

def contended : List Move :=
  waitingForMonitor.take 10

/-- The second thread waits until the first one exits, and then takes its share back. -/
def handover : List Move :=
  [ .advance ⟨2⟩, .advance ⟨2⟩, .start ⟨1⟩ (.serve (.exitMonitor ⟨0⟩)), .advance ⟨1⟩,
    .advance ⟨2⟩, .advance ⟨2⟩, .advance ⟨2⟩ ]

/-- The second thread waits, and a pause is held up by the share of the first one. -/
def heldUp : List Move :=
  waitingForMonitor.take 13 ++ [.request .garbageCollection, .proceed 0, .proceed 0]

theorem monitor_waits_leave_shares_contended :
    (∃ s, Reachable oneObject s ∧ s.step (.proceed 0) = none ∧
      (∃ thread ∈ s.machine.threads, s.waits thread.id = true ∧ thread.holdsShare = false) ∧
      s.machine.lock.claims =
        s.claims (s.machine.threads.filter fun thread => s.waits thread.id = false)) ∧
    ∃ s s₁ s₂, Reachable oneObject s ∧ s.step (.start ⟨2⟩ (.enterMonitor ⟨0⟩)) = some s₁ ∧
      s₁.run handover = some s₂ ∧ s₂.remaining ⟨2⟩ = [] ∧
      ∃ before ∈ s.machine.threads, ∃ after ∈ s₂.machine.threads, before.id = ⟨2⟩ ∧
        after.id = ⟨2⟩ ∧ after.state = before.state ∧ after.holdsShare = before.holdsShare := by
  constructor
  · have outcome : ((({ machine := { heap := oneObject } } : Concurrent).run heldUp).any
        fun s => (∃ thread ∈ s.machine.threads, s.waits thread.id = true) ∧
          s.pauses[0]? = some { reason := .garbageCollection, phase := .reserved } ∧
            (s.step (.proceed 0)).isNone) = true := by decide
    obtain ⟨s, ran, facts⟩ := (Option.any_eq_true _ _).1 outcome
    obtain ⟨⟨thread, attached, waiting⟩, found, stuck⟩ := of_decide_eq_true facts
    have stuck : s.step (.proceed 0) = none := Option.isNone_iff_eq_none.1 stuck
    obtain ⟨free, stops, -⟩ := monitor_waits_leave_shares oneObject s ⟨heldUp, ran⟩
    refine ⟨s, ⟨_, ran⟩, stuck, ⟨thread, attached, waiting, free thread attached waiting⟩, ?_⟩
    rcases stops 0 _ found stuck with ⟨raised, -⟩ | ⟨-, -, others⟩
    · cases raised
    · exact others
  · have outcome : ((({ machine := { heap := oneObject } } : Concurrent).run contended).any
        fun s => (s.step (.start ⟨2⟩ (.enterMonitor ⟨0⟩))).any fun s₁ =>
          (s₁.run handover).any fun s₂ => s₂.remaining ⟨2⟩ = []) = true := by decide
    obtain ⟨s, ran, outcome⟩ := (Option.any_eq_true _ _).1 outcome
    obtain ⟨s₁, started, outcome⟩ := (Option.any_eq_true _ _).1 outcome
    obtain ⟨s₂, handed, through⟩ := (Option.any_eq_true _ _).1 outcome
    have through : s₂.remaining ⟨2⟩ = [] := of_decide_eq_true through
    obtain ⟨before, member, named, enter⟩ :=
      (monitor_waits_leave_shares oneObject s ⟨contended, ran⟩).2.2 _ _ _ s₁ rfl started
    obtain ⟨after, attached, same, state, share⟩ := enter handover s₂ (by simp [handover]) handed
    exact ⟨s, s₁, s₂, ⟨_, ran⟩, started, handed, through, before, member, after, attached, named,
      same, state, share through⟩

end Concurrent

end NativeBoundary
