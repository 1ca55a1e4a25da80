import NativeBoundary.Proofs.Machine.OwnPart
import NativeBoundary.Proofs.Machine.Threads
import NativeBoundary.Proofs.Crossing.Misplaced

/-!
# The ledger of shares

The state of a thread, its share and the count of claims are three things that are kept apart.  The
ledger of a machine is all of them at once, for every attached thread; most operations leave it
alone, and the others go over one line of it.  It balances if every thread has a share exactly while
it is managed, threads excepted that are away waiting for a monitor, and if the lock counts the
shares.
-/

set_option autoImplicit false

namespace NativeBoundary

structure Standing where
  id : ThreadId
  state : ThreadState
  holdsShare : Bool
  deriving DecidableEq

def Thread.standing (thread : Thread) : Standing where
  id := thread.id
  state := thread.state
  holdsShare := thread.holdsShare

/-- Which threads are attached and how they stand, and how many claims the lock counts. -/
structure Ledger where
  standings : List Standing
  claims : Nat
  /-- The number of the next thread. -/
  next : Nat
  /-- Threads that wait for a monitor, the longest waiting first. -/
  waiting : List ThreadId
  deriving DecidableEq

def Machine.ledger (m : Machine) : Ledger where
  standings := m.threads.map Thread.standing
  claims := m.lock.claims
  next := m.nextThread
  waiting := m.waiting.map Prod.fst

namespace Ledger

def amend (t : ThreadId) (change : Standing → Standing) (claims : Nat) (l : Ledger) : Ledger :=
  { l with standings := l.standings.map fun s => if s.id = t then change s else s, claims }

def release (t : ThreadId) (l : Ledger) : Ledger :=
  l.amend t (fun s => { s with holdsShare := false }) (l.claims - 1)

def acquire (t : ThreadId) (l : Ledger) : Ledger :=
  l.amend t (fun s => { s with holdsShare := true }) (l.claims + 1)

def leave (t : ThreadId) (l : Ledger) : Ledger :=
  l.amend t (fun s => { s with state := .native, holdsShare := false }) (l.claims - 1)

def arrive (t : ThreadId) (l : Ledger) : Ledger :=
  l.amend t (fun s => { s with state := .managed, holdsShare := true }) (l.claims + 1)

def enrol (l : Ledger) : Ledger :=
  { l with
    standings := l.standings ++ [{ id := ⟨l.next⟩, state := .native, holdsShare := false }]
    next := l.next + 1 }

def dismiss (t : ThreadId) (l : Ledger) : Ledger :=
  { l with standings := l.standings.filter fun s => s.id ≠ t }

end Ledger

/-! ## Balance -/

/-- A line as it should be: a share exactly while managed, unless the thread is away. -/
def Standing.Fits (away : List ThreadId) (s : Standing) : Prop :=
  (s.id ∈ away → s.state = .managed ∧ s.holdsShare = false) ∧
    (s.id ∉ away → (s.holdsShare = true ↔ s.state = .managed))

/-- The threads on the roll are attached and nobody else is, those that are away have given up their
shares without leaving managed code, all others have one exactly while they are managed, and the
shares are counted. -/
structure Ledger.Balanced (roll away : List ThreadId) (l : Ledger) : Prop where
  listed : l.standings.map Standing.id = roll
  distinct : roll.Nodup
  below : ∀ t ∈ roll, t.number < l.next
  once : away.Nodup
  attached : ∀ t ∈ away, t ∈ roll
  fits : ∀ s ∈ l.standings, s.Fits away
  claims : l.claims = l.standings.countP Standing.holdsShare

namespace Ledger

variable {l : Ledger} {t : ThreadId} {old : Standing} {roll away away' : List ThreadId}

theorem amend_amend (change after : Standing → Standing) (claims claims' : Nat)
    (keeps : ∀ s, (change s).id = s.id) :
    (l.amend t change claims).amend t after claims' =
      l.amend t (fun s => after (change s)) claims' := by
  simp only [amend, List.map_map, Ledger.mk.injEq, and_true]
  refine List.map_congr_left fun s _ => ?_
  by_cases named : s.id = t
  · simp [named, keeps]
  · simp [named]

theorem amend_of_same {change : Standing → Standing}
    (same : ∀ s ∈ l.standings, s.id = t → change s = s) : l.amend t change l.claims = l := by
  have lines : (l.standings.map fun s => if s.id = t then change s else s) = l.standings := by
    conv_rhs => rw [← List.map_id l.standings]
    refine List.map_congr_left fun s member => ?_
    split
    · next named => exact same s member named
    · rfl
  unfold amend
  rw [lines]

theorem dismiss_amend (change : Standing → Standing) (claims : Nat)
    (keeps : ∀ s, (change s).id = s.id) :
    (l.amend t change claims).dismiss t = { l.dismiss t with claims } := by
  simp only [amend, dismiss, Ledger.mk.injEq, and_true]
  induction l.standings with
  | nil => rfl
  | cons first rest ih =>
    by_cases named : first.id = t
    · simpa [named, keeps] using ih
    · simpa [named] using ih

namespace Balanced

theorem exists_line (balanced : l.Balanced roll away) (named : t ∈ roll) :
    ∃ old ∈ l.standings, old.id = t := by
  rw [← balanced.listed] at named
  exact List.mem_map.1 named

theorem among (balanced : l.Balanced roll away) (line : old ∈ l.standings) :
    ∃ before after, l.standings = before ++ old :: after ∧
      ∀ other ∈ before ++ after, other.id ≠ old.id :=
  exists_among (balanced.listed ▸ balanced.distinct) line

theorem eq_of_id (balanced : l.Balanced roll away) {s : Standing} (line : old ∈ l.standings)
    (member : s ∈ l.standings) (same : s.id = old.id) : s = old := by
  obtain ⟨before, after, split, apart⟩ := balanced.among line
  have other (elsewhere : s ∈ before ++ after) : s = old := absurd same (apart s elsewhere)
  rw [split] at member
  rcases List.mem_append.1 member with earlier | later
  · exact other (List.mem_append_left _ earlier)
  · rcases List.mem_cons.1 later with this | later
    · exact this
    · exact other (List.mem_append_right _ later)

theorem claims_pos (balanced : l.Balanced roll away) (line : old ∈ l.standings)
    (holds : old.holdsShare = true) : 0 < l.claims := by
  rw [balanced.claims]
  exact List.countP_pos_iff.2 ⟨old, line, holds⟩

/-- One line is gone over.  The others fit as before, because nobody else comes or goes. -/
theorem amend (balanced : l.Balanced roll away) (line : old ∈ l.standings)
    (change : Standing → Standing) (claims : Nat) (id : (change old).id = old.id)
    (counted : claims + old.holdsShare.toNat = l.claims + (change old).holdsShare.toNat)
    (fits : (change old).Fits away') (once : away'.Nodup)
    (others : ∀ t, t ≠ old.id → (t ∈ away' ↔ t ∈ away)) :
    Balanced roll away' (l.amend old.id change claims) := by
  obtain ⟨before, after, split, apart⟩ := balanced.among line
  have lines : (l.amend old.id change claims).standings = before ++ change old :: after := by
    rw [Ledger.amend, split]
    exact map_among apart change
  have same := balanced.listed
  have total := balanced.claims
  rw [split] at same total
  refine ⟨?_, balanced.distinct, balanced.below, once, ?_, ?_, ?_⟩
  · rw [← same]
    simp [lines, id]
  · intro t member
    by_cases own : t = old.id
    · rw [own, ← same]
      simp
    · exact balanced.attached t ((others t own).1 member)
  · intro s member
    have place : s ∈ before ++ change old :: after := lines ▸ member
    have elsewhere : s ∈ before ++ after → s.Fits away' := by
      intro member
      have unchanged := balanced.fits s (by
        rw [split]
        rcases List.mem_append.1 member with member | member <;> simp [member])
      unfold Standing.Fits at unchanged ⊢
      rwa [others s.id (apart s member)]
    rcases List.mem_append.1 place with earlier | later
    · exact elsewhere (List.mem_append_left _ earlier)
    · rcases List.mem_cons.1 later with rfl | later
      · exact fits
      · exact elsewhere (List.mem_append_right _ later)
  · have tally (s : Standing) : (if s.holdsShare = true then 1 else 0) = s.holdsShare.toNat := by
      cases s.holdsShare <;> rfl
    rw [lines, List.countP_append, List.countP_cons, tally]
    rw [List.countP_append, List.countP_cons, tally] at total
    simp only [Ledger.amend]
    omega

theorem leave (balanced : l.Balanced roll away) (line : old ∈ l.standings) (here : old.id ∉ away)
    (holds : old.holdsShare = true) : Balanced roll away (l.leave old.id) := by
  have positive := balanced.claims_pos line holds
  refine balanced.amend line _ _ rfl ?_ ⟨fun absent => absurd absent here, fun _ => by simp⟩
    balanced.once fun _ _ => Iff.rfl
  simp only [holds, Bool.toNat_true, Bool.toNat_false]
  omega

theorem arrive (balanced : l.Balanced roll away) (line : old ∈ l.standings) (here : old.id ∉ away)
    (free : old.holdsShare = false) : Balanced roll away (l.arrive old.id) := by
  refine balanced.amend line _ _ rfl ?_ ⟨fun absent => absurd absent here, fun _ => by simp⟩
    balanced.once fun _ _ => Iff.rfl
  simp [free]

theorem stepAside (balanced : l.Balanced roll away) (line : old ∈ l.standings)
    (here : old.id ∉ away) (holds : old.holdsShare = true) :
    Balanced roll (away ++ [old.id]) (l.release old.id) := by
  have positive := balanced.claims_pos line holds
  have managed := ((balanced.fits old line).2 here).1 holds
  refine balanced.amend line _ _ rfl ?_ ⟨fun _ => ⟨managed, rfl⟩, fun absent => ?_⟩ ?_ ?_
  · simp only [holds, Bool.toNat_true, Bool.toNat_false]
    omega
  · exact absurd (List.mem_append_right _ (List.mem_singleton_self _)) absent
  · refine List.nodup_append.2 ⟨balanced.once, by simp, ?_⟩
    intro t member t' last same
    rw [List.mem_singleton.1 last] at same
    exact here (same ▸ member)
  · intro t different
    simp [different]

theorem comeBack {rest : List ThreadId} (balanced : l.Balanced roll (old.id :: rest))
    (line : old ∈ l.standings) : Balanced roll rest (l.acquire old.id) := by
  obtain ⟨managed, free⟩ := (balanced.fits old line).1 List.mem_cons_self
  have once := List.nodup_cons.1 balanced.once
  refine balanced.amend line _ _ rfl ?_ ⟨fun absent => absurd absent once.1, fun _ => ?_⟩ once.2 ?_
  · simp [free]
  · simp [managed]
  · intro t different
    simp [different]

/-- A share that is given back and taken again leaves no trace. -/
theorem acquire_release (balanced : l.Balanced roll away) (line : old ∈ l.standings)
    (holds : old.holdsShare = true) : (l.release old.id).acquire old.id = l := by
  have positive := balanced.claims_pos line holds
  obtain ⟨before, after, split, apart⟩ := balanced.among line
  unfold Ledger.acquire Ledger.release
  rw [amend_amend]
  · unfold Ledger.amend
    rw [split, map_among apart]
    obtain ⟨standings, claims, next, waiting⟩ := l
    obtain ⟨id, state, holdsShare⟩ := old
    simp only at holds split positive
    simp only [split, holds, Ledger.mk.injEq, true_and, and_true]
    exact Nat.sub_add_cancel positive
  · exact fun _ => rfl

theorem enrol (balanced : l.Balanced roll away) :
    Balanced (roll ++ [⟨l.next⟩]) away l.enrol := by
  have fresh : (⟨l.next⟩ : ThreadId) ∉ roll := fun member =>
    Nat.lt_irrefl _ (balanced.below _ member)
  refine ⟨?_, ?_, ?_, balanced.once, ?_, ?_, ?_⟩
  · simp [Ledger.enrol, balanced.listed]
  · refine List.nodup_append.2 ⟨balanced.distinct, by simp, ?_⟩
    intro t member t' last same
    rw [List.mem_singleton.1 last] at same
    exact fresh (same ▸ member)
  · intro t member
    rcases List.mem_append.1 member with member | last
    · exact Nat.lt_succ_of_lt (balanced.below t member)
    · rw [List.mem_singleton.1 last]
      exact Nat.lt_succ_self _
  · intro t member
    exact List.mem_append_left _ (balanced.attached t member)
  · intro s member
    rcases List.mem_append.1 member with member | last
    · exact balanced.fits s member
    · rw [List.mem_singleton.1 last]
      exact ⟨fun absent => absurd (balanced.attached _ absent) fresh, fun _ => by simp⟩
  · simp [Ledger.enrol, balanced.claims]

theorem dismiss (balanced : l.Balanced roll away) (line : old ∈ l.standings)
    (here : old.id ∉ away) {claims : Nat} (counted : claims + old.holdsShare.toNat = l.claims) :
    Balanced (roll.filter fun t => t ≠ old.id) away { l.dismiss old.id with claims } := by
  obtain ⟨before, after, split, apart⟩ := balanced.among line
  have lines : (l.dismiss old.id).standings = before ++ after := by
    rw [Ledger.dismiss, split]
    exact filter_among apart
  have total := balanced.claims
  rw [split] at total
  refine ⟨?_, balanced.distinct.filter _, ?_, balanced.once, ?_, ?_, ?_⟩
  · change (l.dismiss old.id).standings.map Standing.id = _
    rw [← balanced.listed, Ledger.dismiss, List.filter_map]
    rfl
  · intro t member
    exact balanced.below t (List.mem_of_mem_filter member)
  · intro t member
    refine List.mem_filter.2 ⟨balanced.attached t member, ?_⟩
    have different : t ≠ old.id := fun same => here (same ▸ member)
    simpa using different
  · intro s member
    exact balanced.fits s (List.mem_of_mem_filter member)
  · have tally (s : Standing) : (if s.holdsShare = true then 1 else 0) = s.holdsShare.toNat := by
      cases s.holdsShare <;> rfl
    change claims = (l.dismiss old.id).standings.countP Standing.holdsShare
    rw [lines, List.countP_append]
    rw [List.countP_append, List.countP_cons, tally] at total
    omega

/-- A thread is managed with a share, or while it is away. -/
theorem countP_managed (balanced : l.Balanced roll away) :
    l.standings.countP (fun s => s.state = .managed) = l.claims + away.length := by
  have absent : away.length = l.standings.countP fun s => s.id ∈ away := by
    have same : (roll.filter fun t => t ∈ away).Perm away := by
      refine (List.perm_ext_iff_of_nodup (balanced.distinct.filter _) balanced.once).2 fun t => ?_
      simpa using balanced.attached t
    rw [← same.length_eq, ← List.countP_eq_length_filter, ← balanced.listed, List.countP_map]
    rfl
  have split (lines : List Standing) (fits : ∀ s ∈ lines, s.Fits away) :
      lines.countP (fun s => s.state = .managed) =
        lines.countP Standing.holdsShare + lines.countP fun s => s.id ∈ away := by
    induction lines with
    | nil => rfl
    | cons first rest ih =>
      have others := ih fun s member => fits s (List.mem_cons_of_mem _ member)
      obtain ⟨whenAway, whenHere⟩ := fits first List.mem_cons_self
      simp only [List.countP_cons, others, decide_eq_true_eq]
      by_cases absent : first.id ∈ away
      · rw [if_pos (whenAway absent).1, if_neg (by simp [(whenAway absent).2]), if_pos absent]
        omega
      · simp only [whenHere absent, if_neg absent]
        omega
  rw [split l.standings balanced.fits, balanced.claims, absent]

end Balanced

end Ledger

/-! ## What the operations do to the ledger -/

namespace Machine

variable {t : ThreadId} {m m' : Machine}

theorem ledger_updateThread (change : Thread → Thread) (seen : Standing → Standing)
    (shows : ∀ thread, (change thread).standing = seen thread.standing) :
    (m.updateThread t change).ledger = m.ledger.amend t seen m.ledger.claims := by
  unfold ledger updateThread Ledger.amend
  simp only [List.map_map, Ledger.mk.injEq, and_true]
  refine List.map_congr_left fun thread _ => ?_
  change (if thread.id = t then change thread else thread).standing =
    if thread.id = t then seen thread.standing else thread.standing
  split
  · exact shows thread
  · rfl

theorem ledger_updateThread_of_same (change : Thread → Thread)
    (same : ∀ thread, (change thread).standing = thread.standing) :
    (m.updateThread t change).ledger = m.ledger := by
  rw [ledger_updateThread change id same]
  simp [Ledger.amend]

theorem ledger_requestSuspend (requested : Bool) :
    (m.requestSuspend requested).ledger = m.ledger := by
  simp [ledger, requestSuspend, Function.comp_def, Thread.standing]

theorem ledger_runParked (count : Nat) : (m.runParked count).ledger = m.ledger := by
  induction count generalizing m with
  | zero => rfl
  | succ count ih =>
    rw [runParked, ih]
    exact ledger_requestSuspend false

theorem ledger_settle : m.settle.ledger = m.ledger := by
  unfold settle
  split
  · exact ledger_runParked _
  · rfl

theorem ledger_requestPause (reason : PauseReason) : (m.requestPause reason).ledger = m.ledger := by
  rw [requestPause, ledger_settle]
  exact ledger_requestSuspend true

theorem ledger_of_beginPause {reason : PauseReason} {u : Unit}
    (run : beginPause reason m = .ok u m') : m'.ledger = m.ledger := by
  unfold beginPause at run
  rw [Act.modify_bind, Act.get_bind] at run
  split at run
  · obtain rfl := Act.set_eq_ok.1 run
    exact ledger_requestSuspend true
  · exact absurd run Act.throw_ne_ok

theorem ledger_endPause : m.endPause.ledger = m.ledger := by
  rw [endPause, ledger_settle]
  exact ledger_requestSuspend false

/-! ### Shares and states -/

theorem ledger_noteShare (holds : Bool) :
    (m.noteShare t holds).ledger =
      m.ledger.amend t (fun s => { s with holdsShare := holds }) m.ledger.claims :=
  ledger_updateThread _ _ fun _ => rfl

theorem ledger_storeState (state : ThreadState) :
    (m.updateThread t fun thread => { thread with state }).ledger =
      m.ledger.amend t (fun s => { s with state }) m.ledger.claims :=
  ledger_updateThread _ _ fun _ => rfl

theorem ledger_of_releaseShare {u : Unit} (run : releaseShare t m = .ok u m') :
    m'.ledger = m.ledger.release t := by
  obtain ⟨-, rfl⟩ := releaseShare_eq_ok.1 run
  rw [ledger_settle]
  exact congrArg (fun l : Ledger => { l with claims := m.lock.claims - 1 }) (ledger_noteShare false)

theorem ledger_of_acquireShare {u : Unit} (run : acquireShare t m = .ok u m') :
    m'.ledger = m.ledger.acquire t := by
  obtain ⟨-, -, -, rfl⟩ := acquireShare_eq_ok.1 run
  rw [ledger_noteShare]
  rfl

theorem ledger_of_toNative {u : Unit} (run : toNative t m = .ok u m') :
    m'.ledger = m.ledger.leave t := by
  rw [ledger_of_releaseShare (toNative_eq_ok.1 run), ledger_storeState, Ledger.release,
    Ledger.amend_amend]
  · rfl
  · exact fun _ => rfl

theorem ledger_of_toManaged {u : Unit} (run : toManaged t m = .ok u m') :
    m'.ledger = m.ledger.arrive t := by
  obtain ⟨between, acquired, rfl⟩ := toManaged_eq_ok.1 run
  rw [ledger_storeState, ledger_of_acquireShare acquired, Ledger.acquire, Ledger.amend_amend]
  · rfl
  · exact fun _ => rfl

theorem ledger_of_checkSuspend {u : Unit} (run : checkSuspend t m = .ok u m') :
    m'.ledger = m.ledger ∨
      (m.thread t).holdsShare = true ∧ m'.ledger = (m.ledger.release t).acquire t := by
  unfold checkSuspend at run
  rw [Act.get_bind] at run
  split at run
  · next asked =>
    rw [Act.modify_bind] at run
    obtain ⟨_, released, release, acquire⟩ := Act.bind_eq_ok.1 run
    rw [ledger_of_acquireShare acquire, ledger_of_releaseShare release]
    exact .inr ⟨asked.2, rfl⟩
  · obtain ⟨-, rfl⟩ := Act.pure_eq_ok.1 run
    exact .inl rfl

theorem ledger_enrol (name : String) : (m.enrol name).2.ledger = m.ledger.enrol := by
  simp [ledger, enrol, Ledger.enrol, Thread.standing]

theorem ledger_dismiss : (m.dismiss t).ledger = m.ledger.dismiss t := by
  unfold ledger dismiss Ledger.dismiss
  simp only [List.filter_map, Ledger.mk.injEq, and_true]
  rfl

/-! ### Operations that leave the ledger alone -/

theorem ledger_of_enterMonitor {o : ObjectId} {u : Unit} (run : enterMonitor t o m = .ok u m') :
    m'.ledger = m.ledger := by
  obtain ⟨_, -, rfl⟩ := enterMonitor_eq_ok.1 run
  rfl

theorem ledger_of_exitMonitor {o : ObjectId} {exited : Except Throwable Unit}
    (run : exitMonitor t o m = .ok exited m') : m'.ledger = m.ledger := by
  obtain ⟨_, -, -, rfl⟩ | ⟨_, -, -, rfl⟩ := exitMonitor_eq_ok.1 run
  · rfl
  · rfl

theorem ledger_of_nativeEnter {o : ObjectId} {u : Unit} (run : nativeEnter t o m = .ok u m') :
    m'.ledger = m.ledger := by
  obtain ⟨between, entered, rfl⟩ := nativeEnter_eq_ok.1 run
  refine (ledger_updateThread_of_same _ ?_).trans (ledger_of_enterMonitor entered)
  exact fun _ => rfl

theorem ledger_of_nativeExitOrThrow {o : ObjectId} {u : Unit}
    (run : nativeExitOrThrow t o m = .ok u m') : m'.ledger = m.ledger := by
  obtain ⟨between, ⟨exit, rfl⟩ | ⟨exception, exit, rfl⟩⟩ := nativeExitOrThrow_of_ok run
  · refine (ledger_updateThread_of_same _ ?_).trans (ledger_of_exitMonitor exit)
    exact fun _ => rfl
  · refine (ledger_updateThread_of_same _ ?_).trans (ledger_of_exitMonitor exit)
    exact fun _ => rfl

/-- All deeds of the boundary but the ways to native code and back, and a suspend check, leave the
ledger alone. -/
theorem ledger_of_does {deed : Deed ObjectId Throwable} (stays : deed ≠ .toNative)
    (returns : deed ≠ .toManaged) (unasked : deed ≠ .checkSuspend)
    (does : (host t).Does deed m m') : m'.ledger = m.ledger := by
  have same (change : Thread → Thread) (same : ∀ thread, (change thread).standing = thread.standing)
      (changed : m.updateThread t change = m') : m'.ledger = m.ledger :=
    changed ▸ ledger_updateThread_of_same change same
  cases deed with
  | toNative => exact absurd rfl stays
  | toManaged => exact absurd rfl returns
  | checkSuspend => exact absurd rfl unasked
  | takePending | setPending _ | setScopeBase _ | setScopeTop _ | pushHandle _ | popHandle =>
    exact same _ (fun _ => by rfl) does
  | enterMonitor o =>
    obtain ⟨_, run⟩ := does
    exact ledger_of_enterMonitor (host_enterMonitor_eq_ok.1 run).2.2
  | exitMonitor o =>
    obtain ⟨_, run⟩ := does
    exact ledger_of_exitMonitor run
  | lockObject method =>
    obtain ⟨_, run⟩ := does
    have outcome := lockObject_eq_ok.1 run
    split at outcome
    · rw [← outcome.2]
      rfl
    · rw [outcome.2]
  | checkResult method result =>
    obtain rfl := checkResult_of_ok does
    rfl
  | currentCopy o =>
    obtain ⟨_, run⟩ := does
    obtain rfl := currentCopy_of_ok run
    rfl
  | decode _ | isMarked _ | asked _ | begun _ | ending _ | traced _ =>
    obtain rfl := does
    rfl

end Machine

end NativeBoundary
