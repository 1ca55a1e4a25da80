import Mathlib.Algebra.GroupWithZero.Nat
import Mathlib.Algebra.Order.BigOperators.Group.List
import Mathlib.Algebra.Order.Group.Nat
import NativeBoundary.Proofs.Interleaving.Steps

/-!
# Who has a claim

Between taking a claim and keeping it as a share, a thread has a claim that it may still have to
give back.  The steps that a thread has before it are read from the front, as if they were carried
out: each must find the hold on the lock that it needs, and at the end the thread must have a share
exactly if it is managed.  That is kept by every move, and with it the lock counts the claims.
-/

set_option autoImplicit false

namespace NativeBoundary

inductive Hold where
  | nothing
  /-- A claim that is not yet known to be kept. -/
  | tentative
  | share
  deriving DecidableEq

def Hold.claims : Hold → Nat
  | nothing => 0
  | tentative | share => 1

/-- A thread is about to keep a claim exactly while it has a tentative one. -/
def Thread.hold (thread : Thread) (steps : List Atom) : Hold :=
  if thread.holdsShare then .share
  else if steps.head? = some .keep then .tentative
  else .nothing

/-- A thread in the given state and with the given hold can take the given steps, is managed only
with a share whenever it enters that state, and at the end has a share exactly if it is managed. -/
def Coherent (state : ThreadState) : Hold → List Atom → Prop
  | hold, [] => hold ≠ .tentative ∧ (hold = .share ↔ state = .managed)
  | hold, .claim :: rest => hold = .nothing ∧ Coherent state .tentative rest
  | hold, .keep :: rest => hold = .tentative ∧ Coherent state .share rest
  | hold, .release :: rest => hold = .share ∧ Coherent state .nothing rest
  | hold, .store next :: rest =>
    hold ≠ .tentative ∧ (next = .managed → hold = .share) ∧ Coherent next hold rest
  | hold, .dismiss :: rest => hold = .nothing ∧ state = .native ∧ rest = []
  | hold, .wait _ :: rest =>
    hold = .nothing ∧ (state = .managed → rest.head? = some .claim) ∧ Coherent state .nothing rest
  | hold, .count :: rest | hold, .tryEnter _ :: rest | hold, .serve _ :: rest =>
    hold ≠ .tentative ∧ (hold = .share ↔ state = .managed) ∧ Coherent state hold rest

variable {state : ThreadState} {hold : Hold} {steps : List Atom} {thread : Thread}

/-- A hold is tentative exactly if the next step is to keep it. -/
theorem Coherent.tentative_iff (coherent : Coherent state hold steps) :
    hold = .tentative ↔ steps.head? = some .keep := by
  cases steps with
  | nil => simpa using coherent.1
  | cons first rest =>
    cases first with
    | keep => simpa using coherent.1
    | claim | release | dismiss | wait _ => simp [coherent.1]
    | store _ | count | tryEnter _ | serve _ => simpa using coherent.1

/-- Services that a service leaves to be done are as coherent as it was. -/
theorem Coherent.serving {service : Service} (left : List Service) {rest : List Atom}
    (coherent : Coherent state hold (.serve service :: rest)) :
    Coherent state hold (left.map .serve ++ rest) := by
  obtain ⟨settled, aligned, coherent⟩ := coherent
  induction left with
  | nil => exact coherent
  | cons first more ih => exact ⟨settled, aligned, ih⟩

theorem Coherent.hold_eq (coherent : Coherent state hold steps)
    (same : thread.holdsShare = decide (hold = .share)) : thread.hold steps = hold := by
  have tentative := coherent.tentative_iff
  unfold Thread.hold
  cases hold with
  | share => simp [same]
  | tentative => simp [same, tentative.1 rfl]
  | nothing =>
    have other : steps.head? ≠ some .keep := fun keep => nomatch tentative.2 keep
    simp [same, other]

theorem Thread.holdsShare_eq (thread : Thread) (steps : List Atom) :
    thread.holdsShare = decide (thread.hold steps = .share) := by
  unfold Thread.hold
  cases thread.holdsShare with
  | true => rfl
  | false => by_cases keep : steps.head? = some .keep <;> simp [keep]

def Thread.IsCoherent (thread : Thread) (steps : List Atom) : Prop :=
  Coherent thread.state (thread.hold steps) steps

/-! ## Setting out -/

theorem Thread.IsCoherent.at_rest (coherent : thread.IsCoherent []) :
    thread.holdsShare = true ↔ thread.state = .managed := by
  have aligned := coherent.2
  rw [← aligned, thread.holdsShare_eq []]
  simp

namespace Concurrent

/-- Whatever a thread at rest sets out to do, the steps are coherent with the hold it has. -/
theorem coherent_stepsOf (coherent : thread.IsCoherent []) {errand : Errand}
    (planned : stepsOf thread errand = some steps) :
    Coherent thread.state (thread.hold []) steps := by
  have aligned := coherent.at_rest
  cases holds : thread.holdsShare with
  | true =>
    have managed : thread.state = .managed := aligned.1 holds
    have share : thread.hold [] = .share := by simp [Thread.hold, holds]
    rw [share, managed]
    cases errand with
    | toManaged => simp [stepsOf, holds] at planned
    | checkSuspend =>
      simp only [stepsOf, holds, and_true] at planned
      split at planned
      · cases planned
        simp [Coherent, acquiring]
      · cases planned
        simp [Coherent]
    | toNative | detach =>
      simp only [stepsOf, holds, if_true] at planned
      cases planned
      simp [Coherent]
    | enterMonitor _ | nativeEnter _ | serve _ =>
      cases planned
      simp [Coherent]
  | false =>
    have native : thread.state = .native := by
      cases known : thread.state with
      | native => rfl
      | managed => simp [aligned.2 known] at holds
    have nothing : thread.hold [] = .nothing := by simp [Thread.hold, holds]
    rw [nothing, native]
    cases errand with
    | toNative => simp [stepsOf, holds] at planned
    | toManaged =>
      simp only [stepsOf, holds, Bool.false_eq_true, if_false] at planned
      cases planned
      simp [Coherent, acquiring]
    | checkSuspend | detach =>
      simp only [stepsOf, holds, Bool.false_eq_true, and_false, if_false] at planned
      cases planned
      simp [Coherent]
    | enterMonitor _ | nativeEnter _ | serve _ =>
      cases planned
      simp [Coherent]

theorem isCoherent_attaching (t : ThreadId) (name : String) :
    Thread.IsCoherent { id := t, name } (acquiring ++ [.store .managed]) := by
  simp [Thread.IsCoherent, Thread.hold, Coherent, acquiring]

/-! ## One step -/

def claimsOf (left : Option Thread) (steps : List Atom) : Nat :=
  left.elim 0 fun thread => (thread.hold steps).claims

/-- What a step leaves of the thread that took it: coherent steps, and as many claims more or less
as the lock has. -/
structure Accounts (lock : MutatorLock) (thread : Thread) (steps : List Atom) (lock' : MutatorLock)
    (left : Option Thread) (steps' : List Atom) : Prop where
  gone : left = none → steps' = []
  stays : ∀ after, left = some after → after.id = thread.id ∧ after.IsCoherent steps'
  claims : lock'.claims + (thread.hold steps).claims = lock.claims + claimsOf left steps'

theorem Accounts.of_hold {lock lock' : MutatorLock} {after : Thread} {steps' : List Atom}
    (hold : Hold) (id : after.id = thread.id) (coherent : Coherent after.state hold steps')
    (same : after.holdsShare = decide (hold = .share))
    (claims : lock'.claims + (thread.hold steps).claims = lock.claims + hold.claims) :
    Accounts lock thread steps lock' (some after) steps' := by
  have holds := coherent.hold_eq same
  refine ⟨nofun, ?_, ?_⟩
  · intro other stays
    obtain rfl := Option.some.inj stays
    refine ⟨id, ?_⟩
    unfold Thread.IsCoherent
    rw [holds]
    exact coherent
  · simp only [claimsOf, Option.elim_some, holds]
    exact claims

/-- The steps after coherent steps are coherent. -/
theorem Takes.accounts {lock lock' : MutatorLock} {left : Option Thread} {steps' : List Atom}
    (takes : Takes lock thread steps lock' left steps') (coherent : thread.IsCoherent steps)
    (counted : (thread.hold steps).claims ≤ lock.claims) :
    Accounts lock thread steps lock' left steps' := by
  have same := thread.holdsShare_eq steps
  unfold Thread.IsCoherent at coherent
  generalize known : thread.hold steps = hold at coherent same counted
  cases takes with
  | store next rest =>
    obtain ⟨-, -, coherent⟩ := coherent
    exact .of_hold hold rfl coherent same (by rw [known])
  | claim rest granted =>
    obtain ⟨rfl, coherent⟩ := coherent
    exact .of_hold .tentative rfl coherent same (by simp [known, MutatorLock.claim, Hold.claims])
  | giveBack rest asked =>
    obtain ⟨rfl, coherent⟩ := coherent
    refine .of_hold .nothing rfl ⟨rfl, rfl, coherent⟩ same ?_
    simp only [Hold.claims] at counted
    simp only [known, MutatorLock.unclaim, Hold.claims]
    omega
  | keep rest unasked =>
    obtain ⟨rfl, coherent⟩ := coherent
    exact .of_hold .share rfl coherent rfl (by simp [known, Hold.claims])
  | release rest =>
    obtain ⟨rfl, coherent⟩ := coherent
    refine .of_hold .nothing rfl coherent rfl ?_
    simp only [Hold.claims] at counted
    simp only [known, MutatorLock.unclaim, Hold.claims]
    omega
  | dismiss rest =>
    obtain ⟨rfl, -, rfl⟩ := coherent
    exact ⟨fun _ => rfl, nofun, by simp [known, claimsOf, Hold.claims]⟩
  | count rest | enter o rest =>
    exact .of_hold hold rfl coherent.2.2 same (by simp [known, MutatorLock.countCheck])
  | got o rest =>
    obtain ⟨rfl, -, coherent⟩ := coherent
    exact .of_hold .nothing rfl coherent same (by rw [known])
  | serve service left rest after alike =>
    have coherent : Coherent after.state hold (left.map .serve ++ rest) :=
      alike.state ▸ coherent.serving left
    exact .of_hold hold alike.id coherent (alike.holdsShare.trans same) (by rw [known])
  | stepAside o rest holds =>
    obtain ⟨-, -, coherent⟩ := coherent
    have share : hold = .share := by simpa [holds] using same
    subst share
    refine .of_hold .share rfl ?_ same (by rw [known])
    exact ⟨rfl, rfl, fun _ => rfl, rfl, rfl, coherent⟩
  | waitOn o rest free =>
    obtain ⟨settled, aligned, coherent⟩ := coherent
    have nothing : hold = .nothing := by
      cases hold with
      | nothing => rfl
      | tentative => exact absurd rfl settled
      | share => simp [free] at same
    subst nothing
    refine .of_hold .nothing rfl ⟨rfl, ?_, coherent⟩ same (by rw [known])
    intro managed
    exact nomatch aligned.2 managed

/-! ## All threads -/

def claims (s : Concurrent) (threads : List Thread) : Nat :=
  (threads.map fun thread => (thread.hold (s.remaining thread.id)).claims).sum

/-- Every attached thread is about to do coherent steps, nobody else is about to do anything, and
the lock counts the claims that the threads have. -/
structure Orderly (s : Concurrent) : Prop where
  numbered : s.machine.Numbered
  absent : ∀ t, s.machine.thread? t = none → s.remaining t = []
  coherent : ∀ thread ∈ s.machine.threads, thread.IsCoherent (s.remaining thread.id)
  claims : s.machine.lock.claims = s.claims s.machine.threads

variable {s s' : Concurrent} {t : ThreadId}

/-- A thread that has a step to take is attached. -/
theorem Orderly.attached (orderly : s.Orderly) {first : Atom} {rest : List Atom}
    (planned : s.remaining t = first :: rest) :
    ∃ thread ∈ s.machine.threads, thread.id = t ∧
      ∃ before after, s.machine.Among thread.id before thread after := by
  cases found : s.machine.thread? t with
  | none =>
    rw [orderly.absent t found] at planned
    cases planned
  | some thread =>
    obtain ⟨member, named⟩ := Machine.mem_of_thread? found
    exact ⟨thread, member, named, orderly.numbered.among member⟩

/-- With new steps for one thread, the others have the claims that they had. -/
theorem claims_congr {threads : List Thread}
    (same : ∀ thread ∈ threads, s'.remaining thread.id = s.remaining thread.id) :
    s'.claims threads = s.claims threads := by
  unfold Concurrent.claims
  congr 1
  refine List.map_congr_left fun thread member => ?_
  rw [same thread member]

/-- The claims of a thread that may be gone, among those of the others. -/
theorem claims_among (before after : List Thread) (left : Option Thread) {steps : List Atom}
    (planned : ∀ thread, left = some thread → s.remaining thread.id = steps) :
    s.claims (before ++ left.toList ++ after) =
      s.claims before + claimsOf left steps + s.claims after := by
  unfold Concurrent.claims
  rw [List.map_append, List.map_append, List.sum_append, List.sum_append]
  cases left with
  | none => rfl
  | some thread => simp [claimsOf, planned thread rfl]

/-- A thread has no more claims than the lock counts. -/
theorem Orderly.counted (orderly : s.Orderly) {thread : Thread}
    (attached : thread ∈ s.machine.threads) :
    (thread.hold (s.remaining thread.id)).claims ≤ s.machine.lock.claims := by
  rw [orderly.claims]
  exact List.le_sum_of_mem (List.mem_map_of_mem attached)

/-- One thread among the others has taken a step, and the others have not. -/
theorem Orderly.replace (orderly : s.Orderly) {thread : Thread} {before after : List Thread}
    {left : Option Thread} (among : s.machine.Among thread.id before thread after)
    (threads : s'.machine.threads = before ++ left.toList ++ after)
    (next : s'.machine.nextThread = s.machine.nextThread)
    (others : ∀ other, other ≠ thread.id → s'.remaining other = s.remaining other)
    (accounts : Accounts s.machine.lock thread (s.remaining thread.id) s'.machine.lock left
      (s'.remaining thread.id)) : s'.Orderly where
  numbered := by
    refine orderly.numbered.of_sublist ?_ next
    rw [threads, among.threads]
    cases left with
    | none => simp
    | some after => simp [(accounts.stays after rfl).1]
  absent := by
    intro t absent
    rw [Machine.thread?_eq_none_iff, threads] at absent
    by_cases own : t = thread.id
    · subst own
      refine accounts.gone ?_
      cases left with
      | none => rfl
      | some after => exact absurd (accounts.stays after rfl).1 (absent after (by simp))
    · rw [others t own]
      refine orderly.absent t (Machine.thread?_eq_none_iff.2 ?_)
      intro other member
      rw [among.threads] at member
      rcases List.mem_append.1 member with member | member
      · exact absent other (by simp [member])
      · rcases List.mem_cons.1 member with rfl | member
        · exact fun same => own same.symm
        · exact absent other (by simp [member])
  coherent := by
    intro other member
    rw [threads, List.append_assoc, List.mem_append, List.mem_append] at member
    have unchanged : other ∈ before ++ after → other.IsCoherent (s'.remaining other.id) := by
      intro member
      rw [others other.id (among.others other member)]
      refine orderly.coherent other ?_
      rw [among.threads]
      rcases List.mem_append.1 member with member | member <;> simp [member]
    rcases member with member | member | member
    · exact unchanged (List.mem_append_left _ member)
    · obtain ⟨id, coherent⟩ := accounts.stays other (by simpa using member)
      rw [id]
      exact coherent
    · exact unchanged (List.mem_append_right _ member)
  claims := by
    have same : ∀ part : List Thread, part ⊆ before ++ after → s'.claims part = s.claims part :=
      fun part inside => claims_congr fun other member =>
        others other.id (among.others other (inside member))
    have total := orderly.claims
    have split : s.machine.threads = before ++ (some thread).toList ++ after := by
      simp [among.threads]
    rw [split, claims_among before after (some thread) fun other known => by
      rw [← Option.some.inj known]] at total
    rw [threads, claims_among before after left fun other known => by
      rw [(accounts.stays other known).1], same before (by simp), same after (by simp)]
    have balance := accounts.claims
    simp only [claimsOf, Option.elim_some] at total balance ⊢
    omega

theorem Orderly.advance (orderly : s.Orderly) (stepped : s.step (.advance t) = some s') :
    s'.Orderly := by
  obtain ⟨first, rest, m, more, planned, done, rfl⟩ := of_advance stepped
  obtain ⟨thread, member, rfl, before, after, among⟩ := orderly.attached planned
  obtain ⟨next, left, threads, takes⟩ := atom_takes among done rest
  refine orderly.replace among threads next
    (fun other different => remaining_plan_of_ne different (more ++ rest)) ?_
  have own := orderly.coherent thread member
  have counted := orderly.counted member
  rw [remaining_plan]
  rw [planned] at own counted ⊢
  exact takes.accounts own counted

theorem Orderly.start (orderly : s.Orderly) {errand : Errand}
    (stepped : s.step (.start t errand) = some s') : s'.Orderly := by
  obtain ⟨thread, steps, attached, idle, planned, rfl⟩ := of_start stepped
  obtain ⟨member, rfl⟩ := Machine.mem_of_thread? attached
  obtain ⟨before, after, among⟩ := orderly.numbered.among member
  have threads : (s.plan thread.id steps).machine.threads =
      before ++ (some thread).toList ++ after := by
    simp [plan, among.threads]
  refine orderly.replace among threads rfl
    (fun other different => remaining_plan_of_ne different steps) ?_
  have own := orderly.coherent thread member
  rw [idle] at own
  rw [remaining_plan, idle]
  exact .of_hold (thread.hold []) rfl (coherent_stepsOf own planned) (thread.holdsShare_eq [])
    rfl

theorem Orderly.attach (orderly : s.Orderly) {name : String}
    (stepped : s.step (.attach name) = some s') : s'.Orderly := by
  let newcomer : Thread := { id := ⟨s.machine.nextThread⟩, name }
  have numbered := orderly.numbered.enrol name
  have free := Machine.thread?_eq_none_iff.1 orderly.numbered.fresh
  obtain ⟨machine, threads, planned, others⟩ :
      s'.machine = (s.machine.enrol name).2 ∧
        s'.machine.threads = s.machine.threads ++ [newcomer] ∧
        s'.remaining newcomer.id = acquiring ++ [.store .managed] ∧
        ∀ other, other ≠ newcomer.id → s'.remaining other = s.remaining other := by
    obtain rfl := Option.some.inj stepped
    exact ⟨rfl, rfl, remaining_plan _ _ _, fun other different => remaining_plan_of_ne different _⟩
  refine ⟨machine ▸ numbered, ?_, ?_, ?_⟩
  · intro t absent
    rw [Machine.thread?_eq_none_iff, threads] at absent
    have different : t ≠ newcomer.id := fun same => absent newcomer (by simp) same.symm
    rw [others t different]
    exact orderly.absent t (Machine.thread?_eq_none_iff.2 fun thread member =>
      absent thread (List.mem_append_left _ member))
  · intro thread member
    rw [threads] at member
    rcases List.mem_append.1 member with member | member
    · rw [others thread.id (free thread member)]
      exact orderly.coherent thread member
    · obtain rfl := List.mem_singleton.1 member
      rw [planned]
      exact isCoherent_attaching _ _
  · have same : s'.claims s.machine.threads = s.claims s.machine.threads :=
      claims_congr fun thread member => others thread.id (free thread member)
    have lock : s'.machine.lock = s.machine.lock := by
      rw [machine]
      rfl
    have tail := claims_among (s := s') s.machine.threads [] (some newcomer)
      fun other known => by rw [← Option.some.inj known]
    simp only [Option.toList_some, List.append_nil, planned] at tail
    rw [lock, threads, tail, same, orderly.claims]
    simp [claimsOf, Concurrent.claims, Thread.hold, newcomer, acquiring, Hold.claims]

/-- A machine with suspend requests set or cleared, and with another lock that counts as many
claims. -/
structure Requests (m m' : Machine) : Prop where
  threads : ∃ change : Thread → Thread, m'.threads = m.threads.map change ∧
    ∀ thread, ∃ requested, change thread = { thread with suspendRequested := requested }
  next : m'.nextThread = m.nextThread
  claims : m'.lock.claims = m.lock.claims

theorem Requests.of_onLock (m : Machine) (change : MutatorLock → MutatorLock)
    (claims : (change m.lock).claims = m.lock.claims) : Requests m (m.onLock change) :=
  ⟨⟨id, (List.map_id _).symm, fun thread => ⟨thread.suspendRequested, rfl⟩⟩, rfl, claims⟩

theorem Requests.of_heap (m : Machine) (heap : Heap) : Requests m { m with heap } :=
  ⟨⟨id, (List.map_id _).symm, fun thread => ⟨thread.suspendRequested, rfl⟩⟩, rfl, rfl⟩

theorem phase_requests {m m' : Machine} {now : PausePhase} {next : Option PausePhase}
    (going : phase m now = some (m', next)) : Requests m m' := by
  obtain ⟨change, claims, rfl | ⟨requested, rfl⟩⟩ := phase_changes going
  · exact .of_onLock m change (claims m.lock)
  · exact ⟨⟨_, rfl, fun _ => ⟨requested, rfl⟩⟩, rfl, claims m.lock⟩

/-- A step that at most sets or clears suspend requests is none of the threads' own. -/
theorem Orderly.of_requests (orderly : s.Orderly) (agenda : s'.agenda = s.agenda)
    (requests : Requests s.machine s'.machine) : s'.Orderly := by
  obtain ⟨⟨change, threads, alike⟩, next, claims⟩ := requests
  have remaining : s'.remaining = s.remaining := by
    funext t
    rw [Concurrent.remaining, Concurrent.remaining, agenda]
  have id : ∀ thread, (change thread).id = thread.id := by
    intro thread
    obtain ⟨_, same⟩ := alike thread
    rw [same]
  have hold : ∀ thread steps, (change thread).hold steps = thread.hold steps := by
    intro thread steps
    obtain ⟨_, same⟩ := alike thread
    rw [same]
    rfl
  have ids : s'.machine.threads.map Thread.id = s.machine.threads.map Thread.id := by
    rw [threads, List.map_map]
    exact List.map_congr_left fun thread _ => id thread
  refine ⟨orderly.numbered.of_sublist (ids ▸ List.Sublist.refl _) next, ?_, ?_, ?_⟩
  · intro t absent
    rw [remaining]
    refine orderly.absent t (Machine.thread?_eq_none_iff.2 fun thread member => ?_)
    rw [← id thread]
    refine Machine.thread?_eq_none_iff.1 absent (change thread) ?_
    rw [threads]
    exact List.mem_map_of_mem member
  · intro thread member
    rw [threads] at member
    obtain ⟨old, attached, rfl⟩ := List.mem_map.1 member
    rw [remaining, id old]
    have coherent := orderly.coherent old attached
    obtain ⟨_, same⟩ := alike old
    rw [same]
    exact coherent
  · rw [claims, orderly.claims, threads]
    unfold Concurrent.claims
    rw [List.map_map]
    congr 1
    refine List.map_congr_left fun thread _ => ?_
    simp only [Function.comp_apply, remaining, id, hold]

theorem Orderly.step (orderly : s.Orderly) {move : Move} (stepped : s.step move = some s') :
    s'.Orderly := by
  cases move with
  | attach name => exact orderly.attach stepped
  | start t errand => exact orderly.start stepped
  | advance t => exact orderly.advance stepped
  | request reason =>
    obtain rfl := Option.some.inj stepped
    exact orderly.of_requests rfl (.of_onLock s.machine (MutatorLock.announce reason) rfl)
  | proceed index =>
    obtain ⟨_, _, _, _, _, -, -, going, rfl⟩ := of_proceed stepped
    exact orderly.of_requests rfl (phase_requests going)
  | collect index step =>
    obtain ⟨_, -, -, rfl⟩ := of_collect stepped
    exact orderly.of_requests rfl (.of_heap s.machine (s.machine.heap.step step))

theorem orderly_fresh (heap : Heap) : Orderly { machine := { heap } } where
  numbered := ⟨List.nodup_nil, nofun⟩
  absent _ _ := rfl
  coherent := nofun
  claims := rfl

theorem Orderly.run (orderly : s.Orderly) {moves : List Move} (ran : s.run moves = some s') :
    s'.Orderly := by
  induction moves generalizing s with
  | nil =>
    obtain rfl := Option.some.inj ran
    exact orderly
  | cons first rest ih =>
    obtain ⟨between, stepped, ran⟩ := Option.bind_eq_some_iff.1 ran
    exact ih (orderly.step stepped) ran

end Concurrent

end NativeBoundary
