import NativeBoundary.Proofs.Machine.Ledger
import NativeBoundary.Proofs.Machine.Verdicts

/-!
# The operations keep the ledger balanced

What an attached thread does that is not away keeps the ledger balanced, and so do attaching,
detaching and waiting for a monitor, with the roll changed as it has to be.  Where the boundary is
stopped for a thread in the wrong place, the ledger has not changed.
-/

set_option autoImplicit false

namespace NativeBoundary

/-- Who is attached, who of them waits for a monitor, and the number of the next one to attach. -/
structure Roll where
  attached : List ThreadId := []
  waiting : List ThreadId := []
  next : Nat := 1
  deriving DecidableEq

/-- A thread can act while it is attached and does not wait. -/
def Roll.Present (r : Roll) (t : ThreadId) : Prop :=
  t ∈ r.attached ∧ t ∉ r.waiting

instance (r : Roll) (t : ThreadId) : Decidable (r.Present t) :=
  inferInstanceAs (Decidable (_ ∧ _))

structure Ledger.Tallies (r : Roll) (l : Ledger) : Prop where
  balanced : l.Balanced r.attached r.waiting
  waiting : l.waiting = r.waiting
  next : l.next = r.next

namespace Machine

variable {t : ThreadId} {m m' : Machine} {roll away : List ThreadId} {l : Ledger} {u : Unit}

theorem stands_of_named (balanced : m.ledger.Balanced roll away) (named : t ∈ roll) :
    Stands t (m.thread t).own m ∧ (m.thread t).standing ∈ m.ledger.standings ∧
      (m.thread t).standing.id = t := by
  obtain ⟨old, line, rfl⟩ := balanced.exists_line named
  obtain ⟨attached, member, rfl⟩ := List.mem_map.1 line
  have found : (m.thread? attached.id).isSome = true :=
    List.find?_isSome.2 ⟨attached, member, by simp⟩
  obtain ⟨thread, found⟩ := Option.isSome_iff_exists.1 found
  obtain ⟨member, id⟩ := mem_of_thread? found
  have same : m.thread attached.standing.id = thread := by
    rw [Machine.thread, show m.thread? attached.standing.id = some thread from found]
    rfl
  rw [same]
  refine ⟨?_, List.mem_map_of_mem member, id⟩
  unfold Stands
  rw [show m.thread? attached.standing.id = some thread from found]
  rfl

/-- A thread that is not away has a share exactly while it is managed. -/
theorem holdsShare_iff_managed (balanced : m.ledger.Balanced roll away) (named : t ∈ roll)
    (here : t ∉ away) : (m.thread t).holdsShare = true ↔ (m.thread t).state = .managed := by
  obtain ⟨-, line, id⟩ := stands_of_named balanced named
  exact (balanced.fits _ line).2 (by rwa [id])

/-! ## Shares -/

theorem balanced_of_toNative (balanced : m.ledger.Balanced roll away) (named : t ∈ roll)
    (here : t ∉ away) (run : toNative t m = .ok u m') : m'.ledger.Balanced roll away := by
  obtain ⟨stands, line, id⟩ := stands_of_named balanced named
  have left := balanced.leave line (by rwa [id]) (stands.toNative run).1
  rwa [id, ← ledger_of_toNative run] at left

theorem balanced_of_toManaged (balanced : m.ledger.Balanced roll away) (named : t ∈ roll)
    (here : t ∉ away) (run : toManaged t m = .ok u m') : m'.ledger.Balanced roll away := by
  obtain ⟨stands, line, id⟩ := stands_of_named balanced named
  have arrived := balanced.arrive line (by rwa [id]) (stands.toManaged run).1
  rwa [id, ← ledger_of_toManaged run] at arrived

/-- A suspend check leaves no trace in the ledger. -/
theorem ledger_of_suspended (balanced : m.ledger.Balanced roll away) (named : t ∈ roll)
    (run : checkSuspend t m = .ok u m') : m'.ledger = m.ledger := by
  obtain ⟨-, line, id⟩ := stands_of_named balanced named
  rcases ledger_of_checkSuspend run with same | ⟨holds, same⟩
  · exact same
  · have back := balanced.acquire_release line holds
    rw [id] at back
    exact same.trans back

theorem balanced_of_releaseShare (balanced : m.ledger.Balanced roll away) (named : t ∈ roll)
    (here : t ∉ away) (run : releaseShare t m = .ok u m') :
    m'.ledger.Balanced roll (away ++ [t]) := by
  obtain ⟨-, line, id⟩ := stands_of_named balanced named
  have aside := balanced.stepAside line (by rwa [id]) (releaseShare_eq_ok.1 run).1
  rwa [id, ← ledger_of_releaseShare run] at aside

theorem balanced_of_acquireShare (balanced : m.ledger.Balanced roll (t :: away))
    (run : acquireShare t m = .ok u m') : m'.ledger.Balanced roll away := by
  obtain ⟨-, line, id⟩ := stands_of_named balanced (balanced.attached t List.mem_cons_self)
  have back := Ledger.Balanced.comeBack (by rwa [id]) line
  rwa [id, ← ledger_of_acquireShare run] at back

/-! ## Attaching and detaching -/

theorem balanced_of_attach {name : String} (balanced : m.ledger.Balanced roll away)
    (run : attach name m = .ok t m') :
    t = ⟨m.nextThread⟩ ∧ m'.ledger = m.ledger.enrol.arrive t ∧
      m'.ledger.Balanced (roll ++ [t]) away := by
  unfold attach at run
  obtain ⟨_, enrolled, enrolling, run⟩ := Act.bind_eq_ok.1 run
  obtain ⟨_, arrived, arriving, run⟩ := Act.bind_eq_ok.1 run
  obtain ⟨rfl, rfl⟩ := Act.pure_eq_ok.1 run
  obtain ⟨rfl, rfl⟩ := Prod.mk.inj (Act.modifyGet_eq_ok.1 enrolling)
  have further := balanced.enrol
  rw [← ledger_enrol name] at further
  have here : (⟨m.nextThread⟩ : ThreadId) ∉ away := fun absent =>
    Nat.lt_irrefl _ (balanced.below _ (balanced.attached _ absent))
  refine ⟨rfl, ?_, balanced_of_toManaged further (by simp) here arriving⟩
  rw [ledger_of_toManaged arriving, ← ledger_enrol name]
  rfl

theorem ledger_of_detach (run : detach t m = .ok u m') :
    m'.ledger =
      { m.ledger.dismiss t with
        claims := m.ledger.claims - (m.thread t).holdsShare.toNat } := by
  have dismissed (m : Machine) :
      ((m.updateThread t fun thread => { thread with state := .native }).dismiss t).ledger =
        m.ledger.dismiss t := by
    rw [ledger_dismiss, ledger_storeState, Ledger.dismiss_amend]
    · rfl
    · exact fun _ => rfl
  unfold detach setState at run
  rw [Act.get_bind] at run
  split at run
  · next holds =>
    obtain ⟨_, released, releasing, run⟩ := Act.bind_eq_ok.1 run
    obtain ⟨_, stored, storing, run⟩ := Act.bind_eq_ok.1 run
    obtain rfl := Act.modify_eq_ok.1 storing
    obtain rfl := Act.modify_eq_ok.1 run
    rw [dismissed, ledger_of_releaseShare releasing, Ledger.release, Ledger.dismiss_amend, holds]
    · rfl
    · exact fun _ => rfl
  · next free =>
    obtain ⟨_, stored, storing, run⟩ := Act.bind_eq_ok.1 run
    obtain rfl := Act.modify_eq_ok.1 storing
    obtain rfl := Act.modify_eq_ok.1 run
    rw [dismissed, Bool.eq_false_iff.2 free]
    rfl

theorem balanced_of_detach (balanced : m.ledger.Balanced roll away) (named : t ∈ roll)
    (here : t ∉ away) (run : detach t m = .ok u m') :
    m'.ledger.Balanced (roll.filter fun other => other ≠ t) away := by
  obtain ⟨-, line, id⟩ := stands_of_named balanced named
  have counted : m.ledger.claims - (m.thread t).holdsShare.toNat +
      (m.thread t).standing.holdsShare.toNat = m.ledger.claims := by
    change _ + (m.thread t).holdsShare.toNat = _
    cases holds : (m.thread t).holdsShare with
    | true => exact Nat.sub_add_cancel (balanced.claims_pos line holds)
    | false => rfl
  have gone := balanced.dismiss line (by rwa [id]) counted
  rwa [id, ← ledger_of_detach run] at gone

/-! ## Waiting for a monitor -/

theorem ledger_of_tryEnter {o : ObjectId} {entered : Bool} (run : tryEnter t o m = .ok entered m') :
    m'.ledger = m.ledger := by
  obtain ⟨_, -, rfl⟩ := tryEnter_eq_ok.1 run
  rfl

theorem balanced_of_contend {o : ObjectId} (balanced : m.ledger.Balanced roll away)
    (run : contend o m = .ok u m') :
    m'.ledger.Balanced (roll ++ [⟨m.nextThread⟩]) (away ++ [⟨m.nextThread⟩]) ∧
      m'.ledger.waiting = m.ledger.waiting ++ [⟨m.nextThread⟩] ∧
      m'.ledger.next = m.ledger.next + 1 := by
  unfold contend at run
  obtain ⟨t, arrived, attaching, run⟩ := Act.bind_eq_ok.1 run
  rw [Act.modify_bind] at run
  obtain ⟨entered, tried, trying, run⟩ := Act.bind_eq_ok.1 run
  cases entered with
  | true => exact absurd run Act.throw_ne_ok
  | false =>
    simp only [Bool.false_eq_true, if_false, Act.modify_bind] at run
    obtain ⟨_, released, releasing, run⟩ := Act.bind_eq_ok.1 run
    obtain rfl := Act.modify_eq_ok.1 run
    obtain ⟨rfl, arrival, attached⟩ := balanced_of_attach balanced attaching
    have same : tried.ledger = arrived.ledger :=
      ledger_of_tryEnter (m := { arrived with enters := arrived.enters + 1 }) trying
    have here : (⟨m.nextThread⟩ : ThreadId) ∉ away := fun absent =>
      Nat.lt_irrefl _ (balanced.below _ (balanced.attached _ absent))
    have aside := balanced_of_releaseShare (m := { tried with contended := tried.contended + 1 })
      (same ▸ attached) (by simp) here releasing
    have given : released.ledger = tried.ledger.release ⟨m.nextThread⟩ :=
      ledger_of_releaseShare (m := { tried with contended := tried.contended + 1 }) releasing
    rw [same, arrival] at given
    refine ⟨{ aside with }, ?_, congrArg Ledger.next given⟩
    have waiting := congrArg Ledger.waiting given
    change (released.waiting ++ [_]).map Prod.fst = _
    rw [List.map_append]
    exact congrArg (· ++ _) waiting

theorem balanced_of_finishWaiting {o : ObjectId} {held : Bool}
    (balanced : m.ledger.Balanced roll (t :: away)) (run : finishWaiting t o m = .ok held m') :
    m'.ledger.Balanced (roll.filter fun other => other ≠ t) away ∧
      m'.ledger.waiting = m.ledger.waiting ∧ m'.ledger.next = m.ledger.next := by
  unfold finishWaiting enterWaiting at run
  obtain ⟨_, entered, entering, run⟩ := Act.bind_eq_ok.1 run
  obtain ⟨granted, tried, trying, entering⟩ := Act.bind_eq_ok.1 entering
  cases granted with
  | false => exact absurd entering Act.throw_ne_ok
  | true =>
    obtain ⟨-, rfl⟩ := Act.pure_eq_ok.1 entering
    obtain ⟨_, acquired, acquiring, run⟩ := Act.bind_eq_ok.1 run
    rw [Act.get_bind] at run
    obtain ⟨_, exited, exiting, run⟩ := Act.bind_eq_ok.1 run
    obtain ⟨_, detached, detaching, run⟩ := Act.bind_eq_ok.1 run
    obtain ⟨-, rfl⟩ := Act.pure_eq_ok.1 run
    have same := ledger_of_tryEnter trying
    have named := balanced.attached t List.mem_cons_self
    have here := (List.nodup_cons.1 balanced.once).1
    have back := balanced_of_acquireShare (same ▸ balanced) acquiring
    have left := ledger_of_exitMonitor exiting
    have taken := ledger_of_acquireShare acquiring
    refine ⟨balanced_of_detach (left ▸ back) named here detaching, ?_⟩
    rw [ledger_of_detach detaching, left, taken, same]
    exact ⟨rfl, rfl⟩

theorem balanced_of_joinWaiting {finished : List Bool}
    (balanced : m.ledger.Balanced roll m.ledger.waiting) (run : joinWaiting m = .ok finished m') :
    m'.ledger.Balanced (roll.filter fun t => t ∉ m.ledger.waiting) [] ∧
      m'.ledger.waiting = [] ∧ m'.ledger.next = m.ledger.next := by
  -- One thread after the other leaves the roll and is no longer away.
  have finishing (queue : List (ThreadId × ObjectId)) : ∀ {roll : List ThreadId}
      {m m' : Machine} {finished : List Bool}, m.ledger.Balanced roll (queue.map Prod.fst) →
      (queue.mapM fun (t, o) => finishWaiting t o) m = .ok finished m' →
      m'.ledger.Balanced (roll.filter fun t => t ∉ queue.map Prod.fst) [] ∧
        m'.ledger.next = m.ledger.next := by
    induction queue with
    | nil =>
      intro roll m m' finished balanced run
      rw [List.mapM_nil] at run
      obtain ⟨-, rfl⟩ := Act.pure_eq_ok.1 run
      exact ⟨by simpa using balanced, rfl⟩
    | cons first rest ih =>
      intro roll m m' finished balanced run
      obtain ⟨t, o⟩ := first
      rw [List.mapM_cons] at run
      obtain ⟨_, between, first, run⟩ := Act.bind_eq_ok.1 run
      obtain ⟨_, last, others, run⟩ := Act.bind_eq_ok.1 run
      obtain ⟨-, rfl⟩ := Act.pure_eq_ok.1 run
      obtain ⟨after, -, next⟩ := balanced_of_finishWaiting balanced first
      obtain ⟨joined, next'⟩ := ih after others
      refine ⟨?_, next'.trans next⟩
      rw [List.filter_filter] at joined
      simpa only [List.map_cons, List.mem_cons, not_or, ne_eq, Bool.decide_and, Bool.and_comm]
        using joined
  unfold joinWaiting at run
  rw [Act.get_bind] at run
  obtain ⟨_, last, joining, run⟩ := Act.bind_eq_ok.1 run
  obtain ⟨_, cleared, clearing, run⟩ := Act.bind_eq_ok.1 run
  obtain rfl := Act.modify_eq_ok.1 clearing
  obtain ⟨-, rfl⟩ := Act.pure_eq_ok.1 run
  obtain ⟨joined, next⟩ := finishing m.waiting balanced joining
  exact ⟨{ joined with }, rfl, next⟩

/-! ## The boundary -/

section Boundary

variable {r : Roll}

theorem tallies_of_toNative (tallies : m.ledger.Tallies r) (present : r.Present t)
    (run : toNative t m = .ok u m') : m'.ledger.Tallies r := by
  refine ⟨balanced_of_toNative tallies.balanced present.1 present.2 run, ?_, ?_⟩
  · exact (congrArg Ledger.waiting (ledger_of_toNative run)).trans tallies.waiting
  · exact (congrArg Ledger.next (ledger_of_toNative run)).trans tallies.next

theorem tallies_of_toManaged (tallies : m.ledger.Tallies r) (present : r.Present t)
    (run : toManaged t m = .ok u m') : m'.ledger.Tallies r := by
  refine ⟨balanced_of_toManaged tallies.balanced present.1 present.2 run, ?_, ?_⟩
  · exact (congrArg Ledger.waiting (ledger_of_toManaged run)).trans tallies.waiting
  · exact (congrArg Ledger.next (ledger_of_toManaged run)).trans tallies.next

/-- Every deed of a thread that is present keeps the ledger in order. -/
theorem host_keeps_tallies (present : r.Present t) (deed : Deed ObjectId Throwable) :
    (host t).Keeps (fun m => m.ledger.Tallies r) deed := by
  refine .of_does fun m m' tallies does => ?_
  cases deed with
  | toNative => exact tallies_of_toNative tallies present does
  | toManaged => exact tallies_of_toManaged tallies present does
  | checkSuspend => exact ledger_of_suspended tallies.balanced present.1 does ▸ tallies
  | _ =>
    have same := ledger_of_does (by simp) (by simp) (by simp) does
    exact same ▸ tallies

end Boundary

/-! ## What stops a thread -/

theorem toNative_stops {why : Halt} (balanced : m.ledger.Balanced roll away) (named : t ∈ roll)
    (here : t ∉ away) (stopped : toNative t m = .error why m') : m'.ledger = m.ledger := by
  obtain ⟨stands, line, id⟩ := stands_of_named balanced named
  have stored := (stands.storeState .native).holdsShare
  unfold toNative setState at stopped
  rw [Act.modify_bind] at stopped
  cases holds : (m.thread t).holdsShare with
  | true =>
    obtain ⟨_, releasing, -⟩ := releaseShare_returns (stored.trans holds)
    cases releasing.symm.trans stopped
  | false =>
    unfold releaseShare at stopped
    rw [Act.get_bind, stored.trans holds] at stopped
    cases stopped
    rw [ledger_storeState]
    refine Ledger.amend_of_same fun s member found => ?_
    obtain rfl := balanced.eq_of_id line member (found.trans id.symm)
    have native : (m.thread t).state = .native := by
      cases state : (m.thread t).state with
      | native => rfl
      | managed =>
        have held := (holdsShare_iff_managed balanced named here).2 state
        cases held.symm.trans holds
    change { (m.thread t).standing with state := .native } = (m.thread t).standing
    rw [← native]
    rfl

/-- While a thread is present, the boundary finds it where it should be or changes nothing. -/
theorem host_guards (balanced : l.Balanced roll away) (named : t ∈ roll) (here : t ∉ away) :
    (host t).Guards fun m => m.ledger = l where
  quiet deed away home := by
    refine .of_does fun m m' same does => ?_
    by_cases checkSuspend : deed = .checkSuspend
    · subst checkSuspend
      exact (ledger_of_suspended (same ▸ balanced) named does).trans same
    · exact (ledger_of_does away home checkSuspend does).trans same
  toNative m why m' same managed stopped misplaced := by
    subst same
    exact toNative_stops balanced named here stopped
  toManaged m why m' same stopped misplaced := by
    rw [toManaged_stops stopped, same]
  checkSuspend m why m' same _ stopped misplaced := by
    rw [checkSuspend_stops stopped] at misplaced
    cases misplaced
  enterMonitor o m why m' same stopped misplaced := by
    simp only [host, Act.get_bind] at stopped
    split at stopped
    · next holds =>
      cases entering : enterMonitor t o m with
      | ok _ entered => cases (Act.bind_of_ok entering).symm.trans stopped
      | error other entered =>
        cases (Act.bind_of_error entering).symm.trans stopped
        rcases enterMonitor_stops holds entering with rfl | rfl <;> cases misplaced
    · cases stopped
      exact same
  exitMonitor o m why halted := by
    obtain ⟨_, stopped⟩ := Act.error_of_halt? halted
    rw [exitMonitor_stops stopped]
    rfl
  lockObject method m why halted := by
    obtain ⟨_, stopped⟩ := Act.error_of_halt? halted
    cases isStatic : method.isStatic <;> simp only [host, lockObject, isStatic] at stopped <;>
      cases stopped
  checkResult method result m why halted := by
    have verdict : Act.Verdict (fun _ => False) (fun later => later.heap.copies = m.heap.copies)
        (checkResult method result) _ fun _ _ => True :=
      checkResult_verdict method result
    rcases verdict.of_halt? rfl halted with other | fault
    · exact other.elim
    · obtain ⟨fault, -, rfl⟩ := Option.map_eq_some_iff.1 fault
      rfl
  currentCopy o m why halted := by
    obtain ⟨_, stopped⟩ := Act.error_of_halt? halted
    rw [currentCopy_stops stopped]
    rfl

end Machine

end NativeBoundary
