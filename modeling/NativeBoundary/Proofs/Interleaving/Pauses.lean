import NativeBoundary.Proofs.Interleaving.Shares

/-!
# Pauses that overlap

Any number of pauses may be under way at once.  At most one of them has reserved the lock or has it,
so at most one runs, and none runs while there is a claim.  The suspend requests, the pending flag
and the reason are shared by all pauses; whoever raised them last is not the one who clears them
last, but nothing stays set once every pause has come to its end.
-/

set_option autoImplicit false

namespace NativeBoundary

def PausePhase.hasLock : PausePhase → Bool
  | running | lowered | retracted => true
  | announced | raised | reserved => false

def PausePhase.isRaised : PausePhase → Bool
  | raised | reserved | running => true
  | announced | lowered | retracted => false

def PausePhase.isCounted : PausePhase → Bool
  | lowered | retracted => true
  | announced | raised | reserved | running => false

namespace Concurrent

def endsPause (s : Concurrent) : Move → Bool
  | .proceed index => s.pauses[index]?.any fun request => request.phase = .retracted
  | _ => false

def completed (s : Concurrent) : List Move → Nat
  | [] => 0
  | first :: rest =>
    (s.endsPause first).toNat + (s.step first).elim 0 fun next => next.completed rest

/-- The lock and the suspend requests agree with the phases of the pauses under way, after so many
pauses that have come to their end. -/
structure Governed (ended : Nat) (s : Concurrent) : Prop where
  parked : s.machine.lock.parked = s.pauses.countP fun request => request.phase = .reserved
  paused : s.machine.lock.paused.toNat = s.pauses.countP fun request => request.phase.hasLock
  sole : s.machine.lock.parked + s.machine.lock.paused.toNat ≤ 1
  alone : s.machine.lock.paused = true → s.machine.lock.claims = 0
  asked : ∀ thread ∈ s.machine.threads, thread.suspendRequested = true →
    ∃ request ∈ s.pauses, request.phase.isRaised = true
  announced : s.machine.lock.pending = true ∨ s.machine.lock.reason ≠ none →
    ∃ request ∈ s.pauses, request.phase ≠ .retracted
  counted : s.machine.lock.pauses =
    ended + s.pauses.countP fun request => request.phase.isCounted

variable {s s' : Concurrent} {ended : Nat}

theorem governed_fresh (heap : Heap) : Governed 0 { machine := { heap } } where
  parked := rfl
  paused := rfl
  sole := Nat.zero_le 1
  alone _ := rfl
  asked := nofun
  announced := by simp
  counted := rfl

/-! ## Steps of threads -/

/-- What the pauses go by is left alone by a thread: it takes claims only where they are granted. -/
theorem Takes.lock {lock lock' : MutatorLock} {thread : Thread} {left : Option Thread}
    {steps steps' : List Atom} (takes : Takes lock thread steps lock' left steps') :
    (∃ claims suspendChecks, lock' = { lock with claims, suspendChecks } ∧
        (claims ≤ lock.claims ∨ lock.grants = true)) ∧
      ∀ after, left = some after → after.suspendRequested = thread.suspendRequested := by
  cases takes with
  | claim rest granted => exact ⟨⟨_, _, rfl, .inr granted⟩, by simp⟩
  | giveBack rest asked => exact ⟨⟨_, _, rfl, .inl (Nat.sub_le _ _)⟩, by simp⟩
  | release rest => exact ⟨⟨_, _, rfl, .inl (Nat.sub_le _ _)⟩, by simp⟩
  | serve service left rest after alike =>
    refine ⟨⟨_, _, rfl, .inl (Nat.le_refl _)⟩, ?_⟩
    intro other same
    obtain rfl := Option.some.inj same
    exact alike.suspendRequested
  | store _ _ | keep _ _ | count _ | dismiss _ | enter _ _ | stepAside _ _ _ | waitOn _ _ _
  | got _ _ => exact ⟨⟨_, _, rfl, .inl (Nat.le_refl _)⟩, by simp⟩

/-- A move that leaves the pauses where they are, asks nobody to suspend and takes claims only where
they are granted. -/
theorem Governed.of_claims (governed : s.Governed ended) (pauses : s'.pauses = s.pauses)
    {claims suspendChecks : Nat}
    (lock : s'.machine.lock = { s.machine.lock with claims, suspendChecks })
    (granted : claims ≤ s.machine.lock.claims ∨ s.machine.lock.grants = true)
    (asked : ∀ thread ∈ s'.machine.threads, thread.suspendRequested = true →
      ∃ old ∈ s.machine.threads, old.suspendRequested = true) : s'.Governed ended where
  parked := by
    rw [lock, pauses]
    exact governed.parked
  paused := by
    rw [lock, pauses]
    exact governed.paused
  sole := by
    rw [lock]
    exact governed.sole
  alone := by
    rw [lock]
    intro paused
    rcases granted with fewer | granted
    · exact Nat.le_zero.1 (governed.alone paused ▸ fewer)
    · simp only [MutatorLock.grants, Bool.and_eq_true, Bool.not_eq_true'] at granted
      exact absurd granted.1 (by simp [show s.machine.lock.paused = true from paused])
  asked := by
    intro thread attached flagged
    obtain ⟨old, member, flagged⟩ := asked thread attached flagged
    rw [pauses]
    exact governed.asked old member flagged
  announced := by
    rw [lock, pauses]
    exact governed.announced
  counted := by
    rw [lock, pauses]
    exact governed.counted

theorem Governed.advance (governed : s.Governed ended) (orderly : s.Orderly) {t : ThreadId}
    (stepped : s.step (.advance t) = some s') : s'.Governed ended := by
  obtain ⟨first, rest, m, more, planned, done, rfl⟩ := of_advance stepped
  obtain ⟨thread, member, rfl, before, after, among⟩ := orderly.attached planned
  obtain ⟨-, left, threads, takes⟩ := atom_takes among done rest
  obtain ⟨⟨claims, suspendChecks, lock, granted⟩, same⟩ := takes.lock
  refine governed.of_claims rfl lock granted ?_
  intro other attached flagged
  have place : other ∈ before ++ left.toList ++ after := threads ▸ attached
  rw [among.threads]
  simp only [List.mem_append, Option.mem_toList] at place
  rcases place with (earlier | here) | later
  · exact ⟨other, by simp [earlier], flagged⟩
  · exact ⟨thread, by simp, same other here ▸ flagged⟩
  · exact ⟨other, by simp [later], flagged⟩

/-! ## Steps of pauses -/

section Phases

variable {earlier later : List PauseRequest} {reason : PauseReason}

theorem mem_elsewhere {request now : PauseRequest} (member : request ∈ earlier ++ now :: later)
    (different : request ≠ now) (next : Option PauseRequest) :
    request ∈ earlier ++ next.toList ++ later := by
  rcases List.mem_append.1 member with member | member
  · simp [member]
  · rcases List.mem_cons.1 member with same | member
    · exact absurd same different
    · simp [member]

theorem Governed.raise (governed : s.Governed ended)
    (place : s.pauses = earlier ++ { reason, phase := .announced } :: later) :
    (s.atPhase (s.machine.requestSuspend true) earlier later
      (some { reason, phase := .raised })).Governed ended := by
  have here : ({ reason, phase := .raised } : PauseRequest) ∈
      earlier ++ (some { reason, phase := PausePhase.raised }).toList ++ later := by simp
  obtain ⟨parked, paused, sole, alone, -, -, counted⟩ := governed
  rw [place] at parked paused counted
  refine ⟨?_, ?_, sole, alone, fun _ _ _ => ⟨_, here, rfl⟩, fun _ => ⟨_, here, nofun⟩, ?_⟩
  · simpa [atPhase, Machine.requestSuspend] using parked
  · simpa [atPhase, Machine.requestSuspend, PausePhase.hasLock] using paused
  · simpa [atPhase, Machine.requestSuspend, PausePhase.isCounted] using counted

theorem Governed.reserve (governed : s.Governed ended)
    (place : s.pauses = earlier ++ { reason, phase := .raised } :: later)
    (granted : s.machine.lock.grants = true) :
    (s.atPhase (s.machine.onLock MutatorLock.park) earlier later
      (some { reason, phase := .reserved })).Governed ended := by
  have here : ({ reason, phase := .reserved } : PauseRequest) ∈
      earlier ++ (some { reason, phase := PausePhase.reserved }).toList ++ later := by simp
  obtain ⟨parked, paused, -, alone, -, -, counted⟩ := governed
  simp only [MutatorLock.grants, Bool.and_eq_true, Bool.not_eq_true', decide_eq_true_eq] at granted
  rw [place] at parked paused counted
  refine ⟨?_, ?_, ?_, alone, fun _ _ _ => ⟨_, here, rfl⟩, fun _ => ⟨_, here, nofun⟩, ?_⟩
  · simp [atPhase, Machine.onLock, MutatorLock.park] at parked ⊢
    omega
  · simpa [atPhase, Machine.onLock, MutatorLock.park, PausePhase.hasLock] using paused
  · simp [atPhase, Machine.onLock, MutatorLock.park, granted]
  · simpa [atPhase, Machine.onLock, MutatorLock.park, PausePhase.isCounted] using counted

theorem Governed.seize (governed : s.Governed ended)
    (place : s.pauses = earlier ++ { reason, phase := .reserved } :: later)
    (free : s.machine.lock.claims = 0) :
    (s.atPhase ((s.machine.onLock MutatorLock.unpark).onLock MutatorLock.seize) earlier later
      (some { reason, phase := .running })).Governed ended := by
  have here : ({ reason, phase := .running } : PauseRequest) ∈
      earlier ++ (some { reason, phase := PausePhase.running }).toList ++ later := by simp
  obtain ⟨parked, paused, sole, -, -, -, counted⟩ := governed
  rw [place] at parked paused counted
  simp only [List.countP_append, List.countP_cons] at parked paused
  refine ⟨?_, ?_, ?_, fun _ => free, fun _ _ _ => ⟨_, here, rfl⟩, fun _ => ⟨_, here, nofun⟩, ?_⟩
  · simp [atPhase, Machine.onLock, MutatorLock.unpark, MutatorLock.seize] at parked ⊢
    omega
  · simp [atPhase, Machine.onLock, MutatorLock.unpark, MutatorLock.seize, PausePhase.hasLock]
      at parked paused ⊢
    omega
  · simp [atPhase, Machine.onLock, MutatorLock.unpark, MutatorLock.seize] at parked ⊢
    omega
  · simpa [atPhase, Machine.onLock, MutatorLock.unpark, MutatorLock.seize, PausePhase.isCounted]
      using counted

theorem Governed.lower (governed : s.Governed ended)
    (place : s.pauses = earlier ++ { reason, phase := .running } :: later) :
    (s.atPhase ((s.machine.onLock MutatorLock.count).requestSuspend false) earlier later
      (some { reason, phase := .lowered })).Governed ended := by
  have here : ({ reason, phase := .lowered } : PauseRequest) ∈
      earlier ++ (some { reason, phase := PausePhase.lowered }).toList ++ later := by simp
  obtain ⟨parked, paused, sole, alone, -, -, counted⟩ := governed
  rw [place] at parked paused counted
  refine ⟨?_, ?_, sole, alone, ?_, fun _ => ⟨_, here, nofun⟩, ?_⟩
  · simpa [atPhase, Machine.requestSuspend, Machine.onLock, MutatorLock.count] using parked
  · simpa [atPhase, Machine.requestSuspend, Machine.onLock, MutatorLock.count, PausePhase.hasLock]
      using paused
  · intro thread attached flagged
    obtain ⟨_, -, rfl⟩ := List.mem_map.1 attached
    cases flagged
  · simp [atPhase, Machine.requestSuspend, Machine.onLock, MutatorLock.count, PausePhase.isCounted]
      at counted ⊢
    omega

theorem Governed.retract (governed : s.Governed ended)
    (place : s.pauses = earlier ++ { reason, phase := .lowered } :: later) :
    (s.atPhase (s.machine.onLock MutatorLock.retract) earlier later
      (some { reason, phase := .retracted })).Governed ended := by
  obtain ⟨parked, paused, sole, alone, asked, -, counted⟩ := governed
  rw [place] at parked paused asked counted
  refine ⟨?_, ?_, sole, alone, ?_, ?_, ?_⟩
  · simpa [atPhase, Machine.onLock, MutatorLock.retract] using parked
  · simpa [atPhase, Machine.onLock, MutatorLock.retract, PausePhase.hasLock] using paused
  · intro thread attached flagged
    obtain ⟨request, member, raised⟩ := asked thread attached flagged
    refine ⟨request, mem_elsewhere member ?_ _, raised⟩
    rintro rfl
    cases raised
  · simp [atPhase, Machine.onLock, MutatorLock.retract]
  · simpa [atPhase, Machine.onLock, MutatorLock.retract, PausePhase.isCounted] using counted

theorem Governed.free (governed : s.Governed ended)
    (place : s.pauses = earlier ++ { reason, phase := .retracted } :: later) :
    (s.atPhase (s.machine.onLock MutatorLock.free) earlier later none).Governed (ended + 1) := by
  obtain ⟨parked, paused, sole, -, asked, announced, counted⟩ := governed
  rw [place] at parked paused asked announced counted
  refine ⟨?_, ?_, ?_, ?_, ?_, ?_, ?_⟩
  · simpa [atPhase, Machine.onLock, MutatorLock.free] using parked
  · simp [atPhase, Machine.onLock, MutatorLock.free, PausePhase.hasLock] at paused ⊢
    omega
  · simp only [atPhase, Machine.onLock, MutatorLock.free, Bool.toNat_false]
    omega
  · intro paused
    cases paused
  · intro thread attached flagged
    obtain ⟨request, member, raised⟩ := asked thread attached flagged
    refine ⟨request, mem_elsewhere member ?_ _, raised⟩
    rintro rfl
    cases raised
  · intro pending
    obtain ⟨request, member, unfinished⟩ := announced pending
    refine ⟨request, mem_elsewhere member ?_ _, unfinished⟩
    rintro rfl
    exact unfinished rfl
  · simp [atPhase, Machine.onLock, MutatorLock.free, PausePhase.isCounted] at counted ⊢
    omega

end Phases

theorem Governed.proceed (governed : s.Governed ended) {index : Nat}
    (stepped : s.step (.proceed index) = some s') :
    s'.Governed (ended + (s.endsPause (.proceed index)).toNat) := by
  obtain ⟨earlier, ⟨reason, now⟩, later, m, next, found, place, going, rfl⟩ := of_proceed stepped
  have ends : s.endsPause (.proceed index) = decide (now = .retracted) := by
    simp [endsPause, found]
  rw [ends]
  cases now with
  | announced =>
    cases going
    exact governed.raise place
  | raised =>
    simp only [phase] at going
    split at going
    · next granted =>
      cases going
      exact governed.reserve place granted
    · cases going
  | reserved =>
    simp only [phase] at going
    split at going
    · next free =>
      cases going
      exact governed.seize place free
    · cases going
  | running =>
    cases going
    exact governed.lower place
  | lowered =>
    cases going
    exact governed.retract place
  | retracted =>
    cases going
    exact governed.free place

theorem Governed.request (governed : s.Governed ended) {reason : PauseReason}
    (stepped : s.step (.request reason) = some s') : s'.Governed ended := by
  obtain rfl := Option.some.inj stepped
  obtain ⟨parked, paused, sole, alone, asked, -, counted⟩ := governed
  refine ⟨?_, ?_, sole, alone, ?_, fun _ => ⟨{ reason, phase := .announced }, by simp, nofun⟩, ?_⟩
  · simpa [Machine.onLock, MutatorLock.announce] using parked
  · simpa [Machine.onLock, MutatorLock.announce, PausePhase.hasLock] using paused
  · intro thread attached flagged
    obtain ⟨request, member, raised⟩ := asked thread attached flagged
    exact ⟨request, List.mem_append_left _ member, raised⟩
  · simpa [Machine.onLock, MutatorLock.announce, PausePhase.isCounted] using counted

theorem Governed.step (governed : s.Governed ended) (orderly : s.Orderly) {move : Move}
    (stepped : s.step move = some s') : s'.Governed (ended + (s.endsPause move).toNat) := by
  cases move with
  | attach name =>
    obtain rfl := Option.some.inj stepped
    refine governed.of_claims rfl rfl (.inl (Nat.le_refl _)) ?_
    intro thread attached flagged
    rcases List.mem_append.1 attached with attached | attached
    · exact ⟨thread, attached, flagged⟩
    · obtain rfl := List.mem_singleton.1 attached
      cases flagged
  | start t errand =>
    obtain ⟨_, _, _, _, _, rfl⟩ := of_start stepped
    exact governed.of_claims rfl rfl (.inl (Nat.le_refl _))
      fun thread attached flagged => ⟨thread, attached, flagged⟩
  | advance t => exact governed.advance orderly stepped
  | request reason => exact governed.request stepped
  | proceed index => exact governed.proceed stepped
  | collect index step =>
    obtain ⟨_, -, -, rfl⟩ := of_collect stepped
    exact governed.of_claims rfl rfl (.inl (Nat.le_refl _))
      fun thread attached flagged => ⟨thread, attached, flagged⟩

theorem Governed.run (governed : s.Governed ended) (orderly : s.Orderly) {moves : List Move}
    (ran : s.run moves = some s') : s'.Governed (ended + s.completed moves) := by
  induction moves generalizing s ended with
  | nil =>
    obtain rfl := Option.some.inj ran
    exact governed
  | cons first rest ih =>
    obtain ⟨between, stepped, ran⟩ := Option.bind_eq_some_iff.1 ran
    have later := ih (governed.step orderly stepped) (orderly.step stepped) ran
    rw [Nat.add_assoc] at later
    simpa [completed, stepped] using later

/-! ## Between pauses, and while one runs -/

theorem Governed.paused_of_running (governed : s.Governed ended)
    (running : ∃ request ∈ s.pauses, request.phase = .running) : s.machine.lock.paused = true := by
  obtain ⟨request, member, running⟩ := running
  have positive : 0 < s.pauses.countP fun request => request.phase.hasLock :=
    List.countP_pos_iff.2 ⟨request, member, by simp [running, PausePhase.hasLock]⟩
  rw [← governed.paused] at positive
  cases paused : s.machine.lock.paused with
  | true => rfl
  | false => simp [paused] at positive

/-- While a pause runs, nobody has a claim. -/
theorem Governed.claims_eq_zero (governed : s.Governed ended)
    (running : ∃ request ∈ s.pauses, request.phase = .running) : s.machine.lock.claims = 0 :=
  governed.alone (governed.paused_of_running running)

theorem Orderly.hold_eq_nothing (orderly : s.Orderly) (free : s.machine.lock.claims = 0)
    {thread : Thread} (attached : thread ∈ s.machine.threads) :
    thread.hold (s.remaining thread.id) = .nothing := by
  have counted := orderly.counted attached
  rw [free] at counted
  generalize thread.hold (s.remaining thread.id) = hold at counted
  cases hold with
  | nothing => rfl
  | tentative | share => simp [Hold.claims] at counted

/-- Whatever threads and pauses do from a fresh machine on: once no pause is under way, nothing of
one is left and each is counted; at most one pause runs at a time, and none while there is a
share. -/
theorem pauses_leave_nothing (heap : Heap) (moves : List Move) (s : Concurrent)
    (ran : ({ machine := { heap } } : Concurrent).run moves = some s) :
    (s.pauses = [] →
      s.machine.lock.pending = false ∧ s.machine.lock.reason = none ∧
        (∀ thread ∈ s.machine.threads, thread.suspendRequested = false) ∧
        s.machine.lock.pauses = ({ machine := { heap } } : Concurrent).completed moves) ∧
      (s.pauses.countP fun request => request.phase = .running) ≤ 1 ∧
      ((∃ request ∈ s.pauses, request.phase = .running) →
        ∀ thread ∈ s.machine.threads, thread.holdsShare = false) := by
  have orderly := (orderly_fresh heap).run ran
  have governed := (governed_fresh heap).run (orderly_fresh heap) ran
  refine ⟨?_, ?_, ?_⟩
  · intro none
    have unannounced : ¬(s.machine.lock.pending = true ∨ s.machine.lock.reason ≠ .none) := by
      intro pending
      obtain ⟨request, member, -⟩ := governed.announced pending
      simp [none] at member
    have counted := governed.counted
    simp only [not_or, Bool.not_eq_true, not_not] at unannounced
    refine ⟨unannounced.1, unannounced.2, ?_, by simpa [none] using counted⟩
    intro thread attached
    by_contra flagged
    obtain ⟨request, member, -⟩ := governed.asked thread attached (by simpa using flagged)
    simp [none] at member
  · have sole := governed.sole
    rw [governed.paused] at sole
    refine le_trans (List.countP_mono_left fun request _ running => ?_)
      (Nat.le_trans (Nat.le_add_left _ _) sole)
    simp only [decide_eq_true_eq] at running
    simp [running, PausePhase.hasLock]
  · intro running thread attached
    have nothing := orderly.hold_eq_nothing (governed.claims_eq_zero running) attached
    rw [thread.holdsShare_eq (s.remaining thread.id), nothing]
    rfl

/-- Two pauses at once: the one that was asked for last runs first and lowers what both have raised,
and a thread that attached after the raising gets a share before the other runs. -/
def overlapping : List Move :=
  [ .attach "main", .advance ⟨1⟩, .advance ⟨1⟩, .advance ⟨1⟩,
    .request .garbageCollection, .request .debug, .proceed 0, .proceed 1, .proceed 1,
    .attach "late", .start ⟨1⟩ .checkSuspend, .advance ⟨1⟩, .advance ⟨1⟩,
    .proceed 1, .proceed 1, .proceed 1, .proceed 1,
    .advance ⟨2⟩, .advance ⟨2⟩, .proceed 0, .advance ⟨2⟩, .start ⟨2⟩ .toNative, .advance ⟨2⟩,
    .advance ⟨2⟩, .proceed 0, .proceed 0, .proceed 0, .proceed 0, .advance ⟨1⟩, .advance ⟨1⟩ ]

theorem pauses_leave_nothing_overlapping :
    (∃ s, ({} : Concurrent).run overlapping = some s ∧ s.pauses = [] ∧
      s.machine.lock.pending = false ∧ s.machine.lock.pauses = 2) ∧
    ∃ s, ({} : Concurrent).run (overlapping.take 25) = some s ∧ s.machine.threads.length = 2 ∧
      ∀ thread ∈ s.machine.threads, thread.holdsShare = false := by
  constructor
  · have outcome : ((({} : Concurrent).run overlapping).any fun s => s.pauses = []) = true := by
      decide
    obtain ⟨s, ran, ended⟩ := (Option.any_eq_true _ _).1 outcome
    obtain ⟨pending, -, -, counted⟩ :=
      (pauses_leave_nothing {} overlapping s ran).1 (of_decide_eq_true ended)
    exact ⟨s, ran, of_decide_eq_true ended, pending, counted.trans (by decide)⟩
  · have outcome : ((({} : Concurrent).run (overlapping.take 25)).any fun s =>
        (∃ request ∈ s.pauses, request.phase = .running) ∧
          s.machine.threads.length = 2) = true := by
      decide
    obtain ⟨s, ran, facts⟩ := (Option.any_eq_true _ _).1 outcome
    obtain ⟨running, two⟩ := of_decide_eq_true facts
    exact ⟨s, ran, two, (pauses_leave_nothing {} _ s ran).2.2 running⟩

end Concurrent

end NativeBoundary
