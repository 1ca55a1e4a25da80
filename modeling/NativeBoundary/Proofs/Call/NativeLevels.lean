import NativeBoundary.Proofs.Call.Lasting
import NativeBoundary.Proofs.Call.MonitorLevels
import NativeBoundary.Proofs.Machine.Seen
import NativeBoundary.Proofs.Machine.Threads

/-!
# The levels that are noted for native code

Synchronized calls and native code share the levels of a monitor, and only native code notes the
levels it enters.  Where native code gives back a level that it has no note of, it takes one of an
enclosing synchronized call, and the end of that call then takes one that is still noted.  So a
thread can have more notes of a monitor than levels of it, but not by more than the levels that it
has overdrawn in this way.
-/

set_option autoImplicit false

namespace NativeBoundary

/-! ## The accounts of the other threads -/

def Thread.account (thread : Thread) : List ObjectId × List Frame :=
  (thread.nativeMonitors, thread.frames)

namespace Machine

variable {t t' : ThreadId} {m m' : Machine}

theorem hides_account (apart : t' ≠ t) : Hides Thread.account t' t where
  suspend _ _ := rfl
  ways same := absurd same apart
  scopes same := absurd same apart

theorem account_of_idle (idle : ∀ thread ∈ m.threads, thread.account = ([], [])) (t : ThreadId) :
    (m.thread t).account = ([], []) := by
  unfold thread
  cases attached : m.thread? t with
  | none => rfl
  | some found => exact idle found (mem_of_thread? attached).1

theorem account_updateThread (apart : t' ≠ t) {change : Thread → Thread}
    (keeps : ∀ thread, (change thread).id = thread.id) :
    (m.updateThread t change).seen? Thread.account t' = m.seen? Thread.account t' :=
  seen?_updateThread change keeps fun same => absurd same apart

theorem account_of_performs {first : Instruction} (apart : t' ≠ t) (does : first.Does t m m') :
    m'.seen? Thread.account t' = m.seen? Thread.account t' := by
  cases first with
  | call method receiver body registers => exact does.elim
  | newObject className | newLocal o =>
    obtain ⟨handle, added⟩ := does
    obtain ⟨-, rfl⟩ := addLocal_eq_ok.1 added
    exact account_updateThread apart (fun _ => rfl)
  | throw exception =>
    rw [← does]
    exact account_updateThread apart (fun _ => rfl)
  | enterMonitor o =>
    obtain ⟨between, entered, rfl⟩ := nativeEnter_eq_ok.1 does
    obtain ⟨monitor, -, rfl⟩ := enterMonitor_eq_ok.1 entered
    exact account_updateThread apart fun thread => rfl
  | exitMonitor o =>
    have exited {result : Except Throwable Unit} {between : Machine}
        (run : exitMonitor t o m = .ok result between) :
        between.seen? Thread.account t' = m.seen? Thread.account t' := by
      obtain ⟨_, -, -, rfl⟩ | ⟨_, -, -, rfl⟩ := exitMonitor_eq_ok.1 run
      · rfl
      · rfl
    obtain ⟨between, ⟨exit, rfl⟩ | ⟨exception, exit, rfl⟩⟩ := nativeExitOrThrow_of_ok does
    · exact (account_updateThread apart (by exact fun _ => rfl)).trans (exited exit)
    · exact (account_updateThread apart (by exact fun _ => rfl)).trans (exited exit)
  | heap step =>
    rw [← does]
    rfl
  | toManaged => exact (hides_account apart).toManaged does
  | toNative => exact (hides_account apart).toNative does

/-- A thread does not touch the account of another. -/
theorem lasts_account (apart : t' ≠ t) (account : Option (List ObjectId × List Frame)) :
    Lasts t fun m => m.seen? Thread.account t' = account where
  deed deed := .of_does fun m m' before does =>
    ((hides_account apart).of_does (fun same => absurd same apart) does).trans before
  pushed frame m before := (account_updateThread apart (by exact fun _ => rfl)).trans before
  popped m before := (account_updateThread apart (by exact fun _ => rfl)).trans before
  plain first m m' before does := (account_of_performs apart does).trans before

end Machine

/-- The reference that native code is about to use, where that has to be one of the heap. -/
def Moment.operand? (moment : Moment) : Option ObjectId :=
  match moment.next with
  | some (.enterMonitor o) => some o
  | some (.call _ receiver _ _) => receiver
  | _ => none

def Operands (moments : List Moment) : Prop :=
  ∀ moment ∈ moments, ∀ o ∈ moment.operand?, (moment.world.state.heap.monitorId? o).isSome = true

namespace Call

open Machine (Stands)
open Heap (Leads Quiet Locked Unlocked Known)

variable {b : Boundary} {t : ThreadId} {own : Thread} {w w' : MachineWorld} {m m' : Machine}
  {method : Method} {receiver : Option ObjectId} {overdrawn : List (ThreadId × MonitorId)}

/-! ## Notes are backed by levels -/

/-- Each note of a monitor, and each call under way that has locked it, is backed by a level of the
thread or by one that it has overdrawn. -/
structure Backed (overdrawn : List (ThreadId × MonitorId)) (m : Machine) : Prop where
  sound : m.heap.Sound
  known : ∀ t, Known m.heap (m.thread t).nativeMonitors (m.thread t).frames
  backed : ∀ t i,
    m.heap.noted i (m.thread t).nativeMonitors + m.heap.locking i (m.thread t).frames ≤
      m.heap.levels t i + overdrawn.count (t, i)

/-- What a step of one thread has to see to. -/
theorem Backed.step {more : List (ThreadId × MonitorId)} {notes : List ObjectId}
    {frames : List Frame} (backed : Backed overdrawn m) (leads : Leads m.heap m'.heap)
    (apart : ∀ t', t' ≠ t → m'.seen? Thread.account t' = m.seen? Thread.account t')
    (others : ∀ t', t' ≠ t → ∀ i, m'.heap.levels t' i = m.heap.levels t' i)
    (account : (m'.thread t).account = (notes, frames)) (known : Known m'.heap notes frames)
    (own : ∀ i, m'.heap.noted i notes + m'.heap.locking i frames ≤
      m'.heap.levels t i + overdrawn.count (t, i) + more.count (t, i)) :
    Backed (overdrawn ++ more) m' := by
  have nowNotes : (m'.thread t).nativeMonitors = notes := congrArg Prod.fst account
  have nowFrames : (m'.thread t).frames = frames := congrArg Prod.snd account
  have same (t' : ThreadId) (other : t' ≠ t) :
      (m'.thread t').nativeMonitors = (m.thread t').nativeMonitors ∧
        (m'.thread t').frames = (m.thread t').frames := by
    have account := Machine.see_thread (apart t' other)
    exact ⟨congrArg Prod.fst account, congrArg Prod.snd account⟩
  refine ⟨Leads.sound leads backed.sound, fun t' => ?_, fun t' i => ?_⟩
  · by_cases here : t' = t
    · rw [here, nowNotes, nowFrames]
      exact known
    · obtain ⟨notes, frames⟩ := same t' here
      rw [notes, frames]
      exact (backed.known t').of_leads backed.sound leads
  · rw [List.count_append]
    by_cases here : t' = t
    · have bound := own i
      rw [here, nowNotes, nowFrames]
      omega
    · obtain ⟨notes, frames⟩ := same t' here
      have before := backed.backed t' i
      rw [notes, frames, others t' here, (backed.known t').noted_of_leads leads,
        (backed.known t').locking_of_leads backed.sound leads]
      omega

theorem Backed.quietly (backed : Backed overdrawn m) (quiet : Quiet m.heap m'.heap)
    (apart : ∀ t', t' ≠ t → m'.seen? Thread.account t' = m.seen? Thread.account t')
    (account : (m'.thread t).account = (m.thread t).account) : Backed (overdrawn ++ []) m' := by
  have known := backed.known t
  refine backed.step quiet.leads apart (fun t' _ => Heap.levels_quiet quiet t') account
    (known.of_leads backed.sound quiet.leads) fun i => ?_
  have before := backed.backed t i
  rw [known.noted_of_leads quiet.leads, known.locking_of_leads backed.sound quiet.leads,
    Heap.levels_quiet quiet]
  omega

/-- The level of a monitor that an instruction gives back without a note of it. -/
def overdraft (t : ThreadId) (m : Machine) : Instruction → List (ThreadId × MonitorId)
  | .exitMonitor o =>
    match m.heap.monitorId? o with
    | some i =>
      if (m.heap.monitorAt i).owner = some t ∧ m.heap.noted i (m.thread t).nativeMonitors = 0
      then [(t, i)] else []
    | none => []
  | _ => []

theorem account_performed {first : Instruction} (plain : first.isCall = false)
    (stands : Stands t own w.state) {u : Unit} (run : perform b t first w = .ok u w') :
    (w'.state.thread t).account =
      (Moment.noted t (w.state.thread t).nativeMonitors ⟨w, some first⟩,
        (w.state.thread t).frames) := by
  obtain ⟨own₁, stands₁, noted⟩ := plain_notes plain stands run
  obtain ⟨own₂, stands₂, still⟩ := plain_frames plain stands run
  rw [stands.view Thread.nativeMonitors fun _ => rfl, stands.view Thread.frames fun _ => rfl,
    ← noted, ← still, ← stands₁.view Thread.nativeMonitors fun _ => rfl,
    ← stands₂.view Thread.frames fun _ => rfl]
  rfl

section Instructions

variable (backed : Backed overdrawn w.state) (stands : Stands t own w.state) {u : Unit}
include backed stands

theorem Backed.enterMonitor {o : ObjectId} {j : MonitorId}
    (monitor : w.state.heap.monitorId? o = some j)
    (run : perform b t (.enterMonitor o) w = .ok u w') : Backed (overdrawn ++ []) w'.state := by
  have known := backed.known t
  obtain ⟨j', again, locked⟩ | ⟨missing, -⟩ := enterMonitor_monitors backed.sound run
  · obtain rfl := Option.some.inj (monitor.symm.trans again)
    have leads := locked.leads
    have found := (Leads.extends leads).monitorId? monitor
    have later := known.of_leads backed.sound leads
    have levels := Heap.levels_locked backed.sound locked
    refine backed.step leads
      (fun t' other => Machine.account_of_performs other (perform_does rfl run))
      (fun t' other i => by simp [levels, other]) (account_performed rfl stands run)
      ⟨fun p member => ?_, later.locks⟩ fun i => ?_
    · rcases List.mem_append.1 member with old | new
      · exact later.notes p old
      · rw [List.mem_singleton.1 new]
        exact ⟨j, found⟩
    · have more : w'.state.heap.noted i ((w.state.thread t).nativeMonitors ++ [o]) =
          w.state.heap.noted i (w.state.thread t).nativeMonitors + if j = i then 1 else 0 := by
        rw [← known.noted_of_leads leads, Heap.noted, List.countP_append]
        simp [found, Heap.noted]
      have before := backed.backed t i
      simp only [Moment.noted, more, known.locking_of_leads backed.sound leads, levels, true_and]
      omega
  · rw [monitor] at missing
    cases missing

theorem Backed.exitMonitor {o : ObjectId}
    (run : perform b t (.exitMonitor o) w = .ok u w') :
    Backed (overdrawn ++ overdraft t w.state (.exitMonitor o)) w'.state := by
  have known := backed.known t
  have apart (t' : ThreadId) (other : t' ≠ t) :=
    Machine.account_of_performs other (perform_does rfl run)
  have account := account_performed rfl stands run
  simp only [Moment.noted] at account
  obtain ⟨j, monitor, unlocked⟩ | ⟨others, quiet⟩ := exitMonitor_monitors backed.sound run
  · have leads := unlocked.leads
    have levels := Heap.levels_unlocked unlocked
    have owned := (Monitor.of_exit unlocked.exited).1
    rw [Heap.monitor_eq_monitorAt monitor, if_pos owned] at account
    have kept : Known w.state.heap
        (Thread.eraseLast (w.state.heap.sameMonitor o) (w.state.thread t).nativeMonitors)
        (w.state.thread t).frames :=
      ⟨fun p member => known.notes p ((Thread.eraseLast_sublist _ _).subset member), known.locks⟩
    refine backed.step leads apart (fun t' other i => by simpa [other] using levels t' i) account
      (kept.of_leads backed.sound leads) fun i => ?_
    rw [kept.noted_of_leads leads, kept.locking_of_leads backed.sound leads]
    have before := backed.backed t i
    have less := levels t i
    simp only [true_and] at less
    -- An exit strikes a note of the monitor if there is one.  If there is none, the level that goes
    -- is that of a synchronized call, whose frame still counts it.
    by_cases none : w.state.heap.noted j (w.state.thread t).nativeMonitors = 0
    · have unnoted :
          ¬(w.state.thread t).nativeMonitors.any (w.state.heap.sameMonitor o) = true := by
        have absent : ∀ p ∈ (w.state.thread t).nativeMonitors,
            w.state.heap.monitorId? p ≠ some j := by simpa [Heap.noted] using none
        simpa [Heap.sameMonitor, monitor] using fun p member => (absent p member).symm
      have taken : overdraft t w.state (.exitMonitor o) = [(t, j)] := by
        simp [overdraft, monitor, owned, none]
      rw [Thread.eraseLast_of_none _ unnoted, taken]
      by_cases here : j = i
      · subst here
        simp at less ⊢
        omega
      · simp [here] at less
        omega
    · have erased := Heap.noted_eraseLast monitor i none
      omega
  · have foreign : (w.state.heap.monitor o).owner ≠ some t := by
      cases monitor : w.state.heap.monitorId? o with
      | none => simp [Heap.monitor, monitor]
      | some j =>
        rw [Heap.monitor_eq_monitorAt monitor]
        exact others j monitor
    have none : overdraft t w.state (.exitMonitor o) = [] := by
      cases monitor : w.state.heap.monitorId? o with
      | none => simp only [overdraft, monitor]
      | some j =>
        simp only [overdraft, monitor]
        exact if_neg fun both => others j monitor both.1
    rw [if_neg foreign] at account
    rw [none]
    exact backed.quietly quiet apart account

theorem Backed.perform {first : Instruction} (plain : first.isCall = false)
    (operand : ∀ o, first = .enterMonitor o → ∃ j, w.state.heap.monitorId? o = some j)
    (run : perform b t first w = .ok u w') :
    Backed (overdrawn ++ overdraft t w.state first) w'.state := by
  by_cases enters : ∃ o, first = .enterMonitor o
  · obtain ⟨o, rfl⟩ := enters
    obtain ⟨j, monitor⟩ := operand o rfl
    exact backed.enterMonitor stands monitor run
  by_cases exits : ∃ o, first = .exitMonitor o
  · obtain ⟨o, rfl⟩ := exits
    exact backed.exitMonitor stands run
  · have none : overdraft t w.state first = [] := by
      cases first <;> first | rfl | exact absurd ⟨_, rfl⟩ exits
    have account := account_performed plain stands run
    have same : Moment.noted t (w.state.thread t).nativeMonitors ⟨w, some first⟩ =
        (w.state.thread t).nativeMonitors := by
      cases first <;> first | rfl | exact absurd ⟨_, rfl⟩ exits | exact absurd ⟨_, rfl⟩ enters
    rw [same] at account
    rw [none]
    exact backed.quietly
      (plain_quiet plain (fun o equal => enters ⟨o, equal⟩) (fun o equal => exits ⟨o, equal⟩) run)
      (fun t' other => Machine.account_of_performs other (perform_does plain run)) account

end Instructions

/-! ## The two thresholds -/

/-- A call that begins locks the monitor that its frame stands for. -/
theorem Backed.enter (backed : Backed overdrawn w.state) (stands : Stands t own w.state)
    (operand : ∀ o, receiver = some o → ∃ j, w.state.heap.monitorId? o = some j)
    {entry : Started} (run : enter b t method receiver w = .ok entry w') :
    Backed overdrawn w'.state := by
  rw [← List.append_nil overdrawn]
  have known := backed.known t
  obtain ⟨-, -, stands'⟩ := enter_own stands run
  have apart := fun t' (other : t' ≠ t) =>
    enter_lasts (Machine.lasts_account other (w.state.seen? Thread.account t')) run rfl
  have account : (w'.state.thread t).account = ((w.state.thread t).nativeMonitors,
      { method, receiver } :: (w.state.thread t).frames) := by
    rw [Thread.account, stands'.view Thread.nativeMonitors fun _ => rfl, nativeMonitors_entered,
      stands'.view Thread.frames fun _ => rfl, Thread.frames_entered,
      ← stands.view Thread.nativeMonitors fun _ => rfl, ← stands.view Thread.frames fun _ => rfl]
  have monitors := enter_monitors backed.sound stands operand run
  cases isSynchronized : method.isSynchronized with
  | true =>
    simp only [isSynchronized, if_true] at monitors
    obtain ⟨j, locks, -, locked⟩ := monitors
    have later := known.of_leads backed.sound locked.leads
    have levels := Heap.levels_locked backed.sound locked
    refine backed.step locked.leads apart (fun t' other i => by simp [levels, other]) account
      ⟨later.notes, fun frame member synchronized => ?_⟩ fun i => ?_
    · rcases List.mem_cons.1 member with rfl | old
      · exact ⟨j, locks⟩
      · exact later.locks frame old synchronized
    · have before := backed.backed t i
      have more : w'.state.heap.locking i ({ method, receiver } :: (w.state.thread t).frames) =
          w.state.heap.locking i (w.state.thread t).frames + if j = i then 1 else 0 := by
        rw [← known.locking_of_leads backed.sound locked.leads, Heap.locking_cons]
        simp [Heap.lockOf?, isSynchronized, locks]
      rw [known.noted_of_leads locked.leads, more, levels]
      simp only [true_and]
      omega
  | false =>
    have quiet : Quiet w.state.heap w'.state.heap := by simpa [isSynchronized] using monitors
    have later := known.of_leads backed.sound quiet.leads
    refine backed.step quiet.leads apart (fun t' _ => Heap.levels_quiet quiet t') account
      ⟨later.notes, fun frame member synchronized => ?_⟩ fun i => ?_
    · rcases List.mem_cons.1 member with rfl | old
      · rw [isSynchronized] at synchronized
        cases synchronized
      · exact later.locks frame old synchronized
    · have before := backed.backed t i
      have none : w'.state.heap.lockOf? { method, receiver } = none := by
        simp [Heap.lockOf?, isSynchronized]
      rw [known.noted_of_leads quiet.leads, Heap.locking_cons, none,
        known.locking_of_leads backed.sound quiet.leads, Heap.levels_quiet quiet]
      simp only [reduceCtorEq, if_false]
      omega

section Leaving

variable {saved : ScopeMark} {registers : Registers} {outer : List Frame}
  (sound : w.state.heap.Sound) (stands : Stands t own w.state)
  (top : own.frames = { method, receiver } :: outer)
  (known : method.isSynchronized = true → ∃ j, w.state.heap.lockMonitor? method receiver = some j)
include sound stands top known

theorem leave_releases {result : CallResult ObjectId}
    (run : leave b t method saved registers w = .ok result w') :
    Heap.Releases t { method, receiver } w.state.heap w'.state.heap := by
  have monitors := leave_monitors sound stands top run
  unfold Heap.Releases Heap.lockOf?
  cases isSynchronized : method.isSynchronized with
  | false => simpa [isSynchronized] using monitors
  | true =>
    obtain ⟨j, locks⟩ := known isSynchronized
    simp only [isSynchronized, if_true, locks] at monitors ⊢
    exact monitors j rfl

theorem unlocked_releases {finished unlocked : MachineWorld} {u v : Unit}
    (finishing : Crossing.finishTier (Machine.host t) b method.tier w = .ok u finished)
    (unlocking : Crossing.unlockFor (Machine.host t) b method finished = .ok v unlocked) :
    Heap.Releases t { method, receiver } w.state.heap unlocked.state.heap := by
  have first := finishTier_quiet finishing
  unfold Heap.Releases Heap.lockOf?
  cases isSynchronized : method.isSynchronized with
  | false =>
    rw [Crossing.unlockFor, isSynchronized] at unlocking
    obtain ⟨-, rfl⟩ := Act.pure_eq_ok.1 unlocking
    exact first
  | true =>
    obtain ⟨j, locks⟩ := known isSynchronized
    have still : (own.returned method.tier).frames = { method, receiver } :: outer := by
      rw [Thread.frames_returned, top]
    simp only [if_true, locks]
    obtain unlocked | ⟨foreign, quiet⟩ := Crossing.unlockFor_unlocks isSynchronized
      (Leads.sound first.leads sound) (Crossing.finishTier_own stands finishing) still
      (Heap.lockMonitor?_of_leads sound first.leads locks) unlocking
    · exact .inl (first.unlocked unlocked)
    · rw [first.monitors] at foreign
      exact .inr ⟨foreign, first.trans quiet⟩

end Leaving

theorem Backed.leave {saved : ScopeMark} {registers : Registers} {result : CallResult ObjectId}
    {outer : List Frame} (backed : Backed overdrawn w.state) (stands : Stands t own w.state)
    (top : own.frames = { method, receiver } :: outer)
    (run : leave b t method saved registers w = .ok result w') :
    Backed overdrawn w'.state := by
  rw [← List.append_nil overdrawn]
  have known := backed.known t
  have frames : (w.state.thread t).frames = { method, receiver } :: outer := by
    rw [stands.view Thread.frames fun _ => rfl, top]
  rw [frames] at known
  have releases := leave_releases backed.sound stands top (known.locks _ List.mem_cons_self) run
  have stands' := leave_own stands run
  have account : (w'.state.thread t).account = ((w.state.thread t).nativeMonitors, outer) := by
    rw [Thread.account, stands'.view Thread.nativeMonitors fun _ => rfl, nativeMonitors_left,
      stands'.view Thread.frames fun _ => rfl, Thread.frames_left, top,
      ← stands.view Thread.nativeMonitors fun _ => rfl]
    rfl
  have later := known.of_leads backed.sound releases.leads
  refine backed.step releases.leads (fun t' other => ?_) (fun t' other => releases.others other)
    account ⟨later.notes, fun frame member => later.locks frame (List.mem_cons_of_mem _ member)⟩
    fun i => ?_
  · exact leave_lasts (Machine.lasts_account other (w.state.seen? Thread.account t')) run rfl
  · have before := backed.backed t i
    rw [frames] at before
    exact releases.backed backed.sound known before

/-! ## Runs -/

/-- The worlds that threads can bring about by calls of native methods and the instructions of their
bodies, one step after the other and mixed in any order, with the levels overdrawn on the way. -/
inductive Reached (b : Boundary) : MachineWorld → List (ThreadId × MonitorId) → Prop
  | start {w : MachineWorld} (history : w.state.heap.Reachable)
      (idle : ∀ thread ∈ w.state.threads, thread.account = ([], [])) : Reached b w []
  | enter {w w' : MachineWorld} {overdrawn : List (ThreadId × MonitorId)} {t : ThreadId}
      {thread : Thread} {method : Method} {receiver : Option ObjectId} {entry : Started}
      (before : Reached b w overdrawn) (attached : w.state.thread? t = some thread)
      (operand : ∀ o, receiver = some o → ∃ j, w.state.heap.monitorId? o = some j)
      (run : enter b t method receiver w = .ok entry w') : Reached b w' overdrawn
  | native {w w' : MachineWorld} {overdrawn : List (ThreadId × MonitorId)} {t : ThreadId}
      {thread : Thread} {first : Instruction} (before : Reached b w overdrawn)
      (attached : w.state.thread? t = some thread) (plain : first.isCall = false)
      (operand : ∀ o, first = .enterMonitor o → ∃ j, w.state.heap.monitorId? o = some j)
      (run : perform b t first w = .ok () w') :
      Reached b w' (overdrawn ++ overdraft t w.state first)
  | leave {w w' : MachineWorld} {overdrawn : List (ThreadId × MonitorId)} {t : ThreadId}
      {thread : Thread} {method : Method} {receiver : Option ObjectId} {outer : List Frame}
      {saved : ScopeMark} {registers : Registers} {result : CallResult ObjectId}
      (before : Reached b w overdrawn) (attached : w.state.thread? t = some thread)
      (top : thread.frames = { method, receiver } :: outer)
      (run : leave b t method saved registers w = .ok result w') : Reached b w' overdrawn

theorem backed_of_reached (reached : Reached b w overdrawn) : Backed overdrawn w.state := by
  have stands {t : ThreadId} {thread : Thread} {w : MachineWorld}
      (attached : w.state.thread? t = some thread) : Stands t thread.own w.state := by
    simp [Stands, attached]
  induction reached with
  | start history idle =>
    have none (t : ThreadId) := Prod.mk.inj (Machine.account_of_idle idle t)
    refine ⟨history.sound, fun t => ⟨?_, ?_⟩, fun t i => ?_⟩
    · simp [none t]
    · simp [none t]
    · simp [none t, Heap.noted, Heap.locking]
  | enter before attached operand run ih => exact ih.enter (stands attached) operand run
  | native before attached plain operand run ih =>
    exact ih.perform (stands attached) plain operand run
  | leave before attached top run ih => exact ih.leave (stands attached) top run

/-- A whole body is such a run, and so are the calls in it, to any depth. -/
theorem Reached.performAll (body : List Instruction) :
    ∀ {w w' : MachineWorld} {overdrawn : List (ThreadId × MonitorId)} {own : Thread} {u : Unit},
      Reached b w overdrawn → Stands t own w.state → Operands (course b t body w) →
      performAll b t body w = .ok u w' →
      ∃ own' more, Stands t own' w'.state ∧ own'.frames = own.frames ∧
        Reached b w' (overdrawn ++ more) := by
  induction body using Instruction.bodyInduction with
  | nil =>
    intro w w' overdrawn own u reached stands _ run
    simp only [Call.performAll] at run
    obtain ⟨-, rfl⟩ := Act.pure_eq_ok.1 run
    exact ⟨own, [], stands, rfl, by simpa using reached⟩
  | plain first rest plain ih =>
    intro w w' overdrawn own u reached stands operands run
    simp only [Call.performAll] at run
    obtain ⟨_, between, doing, run⟩ := Act.bind_eq_ok.1 run
    obtain ⟨thread, attached, -⟩ := Option.map_eq_some_iff.1 stands
    obtain ⟨own₁, stands₁, frames₁⟩ := plain_frames plain stands doing
    have here := operands _ (moment_mem_course first rest)
    have next := reached.native attached plain
      (fun o entering => Option.isSome_iff_exists.1 (here o (by rw [entering]; rfl))) doing
    obtain ⟨own₂, more, stands₂, frames₂, after⟩ := ih next stands₁
      (fun moment member => operands moment (course_rest_subset doing member)) run
    exact ⟨own₂, _, stands₂, frames₂.trans frames₁, by rw [← List.append_assoc]; exact after⟩
  | call method receiver body registers rest inner ih =>
    intro w w' overdrawn own u reached stands operands run
    simp only [Call.performAll] at run
    obtain ⟨_, between, doing, run⟩ := Act.bind_eq_ok.1 run
    obtain ⟨result, invoked⟩ := perform_call doing
    obtain ⟨entry, started, entering, invoked⟩ := Act.bind_eq_ok.1 invoked
    obtain ⟨_, ended, performed, leaving⟩ := Act.bind_eq_ok.1 invoked
    obtain ⟨thread, attached, -⟩ := Option.map_eq_some_iff.1 stands
    have here := operands _ (moment_mem_course (.call method receiver body registers) rest)
    have next := reached.enter attached
      (fun o named => Option.isSome_iff_exists.1 (here o named)) entering
    obtain ⟨own₁, more₁, stands₁, frames₁, atEnd⟩ := inner next (enter_own stands entering).2.2
      (fun moment member => operands moment (momentsOf_subset_course _ rest
        (by rw [momentsOf_call entering]; exact member))) performed
    rw [Thread.frames_entered] at frames₁
    obtain ⟨thread₁, attached₁, rfl⟩ := Option.map_eq_some_iff.1 stands₁
    have left := leave_own stands₁ leaving
    obtain ⟨own₂, more₂, stands₂, frames₂, after⟩ := ih (atEnd.leave attached₁ frames₁ leaving) left
      (fun moment member => operands moment (course_rest_subset doing member)) run
    refine ⟨own₂, _, stands₂, ?_, by rw [← List.append_assoc]; exact after⟩
    rw [frames₂, Thread.frames_left, frames₁, List.tail_cons]

/-- A thread has at most as many notes of a monitor as it has levels of it, and as it has overdrawn.
So it is when the end of a call reports held monitors, and a thread that has overdrawn nothing owns
each monitor that is counted there. -/
theorem notes_backed_by_levels
    (b : Boundary) (w : MachineWorld) (overdrawn : List (ThreadId × MonitorId))
    (reached : Reached b w overdrawn) :
    (∀ t i, w.state.heap.noted i (w.state.thread t).nativeMonitors ≤
        w.state.heap.levels t i + overdrawn.count (t, i)) ∧
      ∀ t thread method receiver outer saved registers count stopped,
        w.state.thread? t = some thread → thread.frames = { method, receiver } :: outer →
        leave b t method saved registers w = .error (.fault (.monitorsHeld count)) stopped →
          count = (stopped.state.thread t).nativeMonitors.length ∧ count ≠ 0 ∧
            (∀ i, stopped.state.heap.noted i (stopped.state.thread t).nativeMonitors ≤
              stopped.state.heap.levels t i + overdrawn.count (t, i)) ∧
            ((∀ i, (t, i) ∉ overdrawn) → ∀ o ∈ (stopped.state.thread t).nativeMonitors,
              (stopped.state.heap.monitor o).owner = some t) := by
  have backed := backed_of_reached reached
  refine ⟨fun t i => (Nat.le_add_right _ _).trans (backed.backed t i), ?_⟩
  intro t thread method receiver outer saved registers count stopped attached top stopping
  have stands : Stands t thread.own w.state := by simp [Stands, attached]
  obtain ⟨finished, unlocked, finishing, unlocking, same, -, -, counted, some⟩ :=
    leave_held stopping rfl
  have notes := unlocked_notes stands finishing unlocking
  have now : w.state.thread t = thread := by rw [Machine.thread, attached, Option.getD_some]
  have known := backed.known t
  rw [now, top] at known
  -- The scope is closed after the monitor of the call is released, so the level of that is gone
  -- when the notes are counted.
  have releases := unlocked_releases backed.sound stands top (known.locks _ List.mem_cons_self)
    finishing unlocking
  have bound (i : MonitorId) : unlocked.state.heap.noted i thread.nativeMonitors ≤
      unlocked.state.heap.levels t i + overdrawn.count (t, i) := by
    have before := backed.backed t i
    rw [now, top] at before
    exact (Nat.le_add_right _ _).trans (releases.backed backed.sound known before)
  rw [same]
  refine ⟨counted, some, fun i => by rw [notes]; exact bound i, fun none o member => ?_⟩
  rw [notes] at member
  obtain ⟨i, found⟩ := (known.of_leads backed.sound releases.leads).notes o member
  have noted : 0 < unlocked.state.heap.noted i thread.nativeMonitors :=
    List.countP_pos_iff.2 ⟨o, member, by rw [found, decide_eq_true rfl]⟩
  have level := bound i
  rw [List.count_eq_zero.2 (none i)] at level
  rw [Heap.monitor_eq_monitorAt found]
  by_contra foreign
  have zero : unlocked.state.heap.levels t i = 0 := if_neg foreign
  omega

def turnMethod : Method where
  className := "Point"
  name := "turn"
  shorty := "V"
  tier := .normal
  isSynchronized := true
  isStatic := false

/-- A body that gives back the level of its call before it enters the monitor itself. -/
def swappingBody : List Instruction :=
  [.exitMonitor ⟨0⟩, .enterMonitor ⟨0⟩]

theorem reached_onManagedThread (b : Boundary) : Reached b onManagedThread [] :=
  .start ⟨true, true, .single (.step _ (.allocate "Point"))⟩ (by decide)

def turning : MachineWorld :=
  Act.stateOf (enter checkedBoundary ⟨1⟩ turnMethod (some ⟨0⟩) onManagedThread)

def released : MachineWorld :=
  Act.stateOf (perform checkedBoundary ⟨1⟩ (.exitMonitor ⟨0⟩) turning)

def swapped : MachineWorld :=
  Act.stateOf (perform checkedBoundary ⟨1⟩ (.enterMonitor ⟨0⟩) released)

/-- A thread that has overdrawn one level is reported with one note and without a level. -/
theorem notes_backed_by_levels_overdrawn :
    ∃ stopped, Reached checkedBoundary swapped [(⟨1⟩, ⟨0⟩)] ∧
      leave checkedBoundary ⟨1⟩ turnMethod .bottom {} swapped =
        .error (.fault (.monitorsHeld 1)) stopped ∧
      (stopped.state.thread ⟨1⟩).nativeMonitors.length = 1 ∧
      stopped.state.heap.noted ⟨0⟩ (stopped.state.thread ⟨1⟩).nativeMonitors ≤
        stopped.state.heap.levels ⟨1⟩ ⟨0⟩ + 1 := by
  obtain ⟨entry, entering⟩ : ∃ entry, enter checkedBoundary ⟨1⟩ turnMethod (some ⟨0⟩)
      onManagedThread = .ok entry turning := Act.eq_ok_stateOf (by decide +kernel)
  obtain ⟨_, exiting⟩ : ∃ u, perform checkedBoundary ⟨1⟩ (.exitMonitor ⟨0⟩) turning =
      .ok u released := Act.eq_ok_stateOf (by decide +kernel)
  obtain ⟨_, again⟩ : ∃ u, perform checkedBoundary ⟨1⟩ (.enterMonitor ⟨0⟩) released =
      .ok u swapped := Act.eq_ok_stateOf (by decide +kernel)
  have attached (w : MachineWorld) (there : (w.state.thread? ⟨1⟩).isSome = true) :
      w.state.thread? ⟨1⟩ = some (w.state.thread ⟨1⟩) := by
    obtain ⟨thread, found⟩ := Option.isSome_iff_exists.1 there
    rw [Machine.thread, found, Option.getD_some]
  have drawn : overdraft ⟨1⟩ turning.state (.exitMonitor ⟨0⟩) = [(⟨1⟩, ⟨0⟩)] := by decide +kernel
  have entered := (reached_onManagedThread checkedBoundary).enter
    (attached onManagedThread (by decide +kernel))
    (fun o named => ⟨⟨0⟩, by rw [← Option.some.inj named]; decide +kernel⟩) entering
  have exited := entered.native (attached turning (by decide +kernel)) rfl
    (fun o named => by cases named) exiting
  rw [drawn] at exited
  have reached := exited.native (attached released (by decide +kernel)) rfl
    (fun o named => ⟨⟨0⟩, by rw [← Instruction.enterMonitor.inj named]; decide +kernel⟩) again
  have halted : (leave checkedBoundary ⟨1⟩ turnMethod .bottom {}).halt? swapped =
      some (.fault (.monitorsHeld 1)) := by decide +kernel
  obtain ⟨stopped, stopping⟩ := Act.error_of_halt? halted
  obtain ⟨-, reported⟩ := notes_backed_by_levels checkedBoundary swapped _ reached
  obtain ⟨counted, -, bound, -⟩ := reported ⟨1⟩ (swapped.state.thread ⟨1⟩) turnMethod (some ⟨0⟩) []
    .bottom {} 1 stopped (attached swapped (by decide +kernel)) (by decide +kernel) stopping
  exact ⟨stopped, reached, stopping, counted.symm, bound ⟨0⟩⟩

/-- It is not so that a thread never has more notes of a monitor than levels of it. -/
theorem notes_without_levels :
    ¬∀ b w overdrawn, Reached b w overdrawn → ∀ t i,
      w.state.heap.noted i (w.state.thread t).nativeMonitors ≤ w.state.heap.levels t i := by
  intro claim
  obtain ⟨entry, entering⟩ := Act.eq_ok_stateOf
    (x := enter {} ⟨1⟩ turnMethod (some ⟨0⟩)) (s := onManagedThread) (by decide +kernel)
  obtain ⟨_, performed⟩ := Act.eq_ok_stateOf (x := performAll {} ⟨1⟩ swappingBody)
    (s := Act.stateOf (enter {} ⟨1⟩ turnMethod (some ⟨0⟩) onManagedThread)) (by decide +kernel)
  obtain ⟨result, leaving⟩ := Act.eq_ok_stateOf (x := leave {} ⟨1⟩ turnMethod .bottom {})
    (s := Act.stateOf (performAll {} ⟨1⟩ swappingBody
      (Act.stateOf (enter {} ⟨1⟩ turnMethod (some ⟨0⟩) onManagedThread)))) (by decide +kernel)
  have stands : Stands ⟨1⟩ (onManagedThread.state.thread ⟨1⟩).own onManagedThread.state := rfl
  have entered := (reached_onManagedThread {}).enter (t := ⟨1⟩) rfl
    (fun o named => ⟨⟨0⟩, by rw [← Option.some.inj named]; decide +kernel⟩) entering
  obtain ⟨own, more, standsEnded, frames, ended⟩ := entered.performAll swappingBody
    (enter_own stands entering).2.2 (by unfold Operands; decide +kernel) performed
  obtain ⟨thread, attached, rfl⟩ := Option.map_eq_some_iff.1 standsEnded
  rw [Thread.frames_entered] at frames
  exact absurd (claim _ _ _ (ended.leave attached frames leaving) ⟨1⟩ ⟨0⟩) (by decide +kernel)

end Call

end NativeBoundary
