import NativeBoundary.Proofs.Call.Restored
import NativeBoundary.Proofs.Crossing.HeldCheck
import NativeBoundary.Proofs.Machine.HeapHistory
import NativeBoundary.Proofs.Machine.Verdicts

/-!
# The monitors that are reported as held

A thread keeps one list of the monitors that its native code has entered, with a note for each
level, and an exit strikes out the last note of its monitor.  The end of a scope looks at the whole
list.  So the report at the end of a call counts the levels that the call itself has left, and with
them whatever is still noted of the calls around it.
-/

set_option autoImplicit false

namespace NativeBoundary

theorem Monitor.not_owner_of_misuse {t : ThreadId} {monitor : Monitor} {misuse : MonitorMisuse}
    (refused : monitor.exit t = .ok (.error misuse)) : monitor.owner ≠ some t := by
  intro own
  unfold exit at refused
  rw [if_pos own] at refused
  split at refused <;> simp at refused

theorem Heap.sameMonitor_setMonitor (h : Heap) (o : ObjectId) (monitor : Monitor) :
    (h.setMonitor o monitor).sameMonitor = h.sameMonitor := by
  have ids (p : ObjectId) : (h.setMonitor o monitor).monitorId? p = h.monitorId? p := by
    simp only [monitorId?, copy?, copies_setMonitor]
  funext p q
  exact decide_eq_decide.2 (by rw [ids, ids])

/-! ## Notes -/

namespace Thread

variable {α : Type} (accepts : α → Bool)

theorem eraseLast_sublist (l : List α) : (eraseLast accepts l).Sublist l := by
  have sub := (List.eraseP_sublist (p := accepts) (l := l.reverse)).reverse
  rwa [List.reverse_reverse] at sub

/-- The last accepted element is in the second part of a list, if there is one there. -/
theorem eraseLast_append (l r : List α) :
    eraseLast accepts (l ++ r) =
      if r.any accepts then l ++ eraseLast accepts r else eraseLast accepts l ++ r := by
  unfold eraseLast
  rw [List.reverse_append, List.eraseP_append, List.any_reverse]
  split <;> simp

theorem eraseLast_of_none {l : List α} (none : ¬l.any accepts = true) :
    eraseLast accepts l = l := by
  have passed : ∀ a ∈ l.reverse, ¬accepts a = true := by simpa using none
  rw [eraseLast, List.eraseP_of_forall_not passed, List.reverse_reverse]

end Thread

/-- What becomes of the notes of a thread at a moment of its native code. -/
def Moment.noted (t : ThreadId) (notes : List ObjectId) (moment : Moment) : List ObjectId :=
  match moment.next with
  | some (.enterMonitor o) => notes ++ [o]
  | some (.exitMonitor o) =>
    if (moment.world.state.heap.monitor o).owner = some t then
      Thread.eraseLast (moment.world.state.heap.sameMonitor o) notes
    else notes
  | _ => notes

/-- The levels that native code has entered and not exited in the course of some moments. -/
def unexited (t : ThreadId) (moments : List Moment) : List ObjectId :=
  moments.foldl (Moment.noted t) []

/-- Each moment leaves of the older notes a part, and makes of the later ones what it makes of them
by themselves. -/
theorem Moment.noted_append (t : ThreadId) (moment : Moment) (older notes : List ObjectId) :
    ∃ kept, kept.Sublist older ∧
      moment.noted t (older ++ notes) = kept ++ moment.noted t notes := by
  unfold noted
  split
  · exact ⟨older, .refl _, List.append_assoc _ _ _⟩
  · next o _ =>
    by_cases own : (moment.world.state.heap.monitor o).owner = some t
    · rw [if_pos own, if_pos own, Thread.eraseLast_append]
      by_cases later : notes.any (moment.world.state.heap.sameMonitor o) = true
      · exact ⟨older, .refl _, if_pos later⟩
      · rw [if_neg later, Thread.eraseLast_of_none _ later]
        exact ⟨_, Thread.eraseLast_sublist _ older, rfl⟩
    · rw [if_neg own, if_neg own]
      exact ⟨older, .refl _, rfl⟩
  · exact ⟨older, .refl _, rfl⟩

theorem noted_split (t : ThreadId) (moments : List Moment) :
    ∀ older notes : List ObjectId, ∃ kept, kept.Sublist older ∧
      moments.foldl (Moment.noted t) (older ++ notes) =
        kept ++ moments.foldl (Moment.noted t) notes := by
  -- Of the older notes less is left with each moment, so they vary along with the later ones.
  induction moments with
  | nil =>
    intro older notes
    exact ⟨older, .refl _, rfl⟩
  | cons moment rest ih =>
    intro older notes
    obtain ⟨kept, part, now⟩ := moment.noted_append t older notes
    obtain ⟨kept', part', after⟩ := ih kept (moment.noted t notes)
    refine ⟨kept', part'.trans part, ?_⟩
    rw [List.foldl_cons, List.foldl_cons, now, after]

namespace Call

open Machine (Stands)

variable {b : Boundary} {t : ThreadId} {own : Thread} {w w' : MachineWorld}

theorem nativeMonitors_entered (method : Method) (receiver : Option ObjectId) :
    (own.entered method receiver).nativeMonitors = own.nativeMonitors := by
  unfold Thread.entered Thread.within
  cases method.tier <;> rfl

theorem nativeMonitors_left (method : Method) (saved : ScopeMark) :
    (own.left method saved).nativeMonitors = own.nativeMonitors := by
  unfold Thread.left
  split <;> simp [Thread.unscoped]

theorem addLocal_notes {o : ObjectId} {handle : Handle} {m m' : Machine} (stands : Stands t own m)
    (run : Machine.addLocal t o m = .ok handle m') :
    ∃ own', Stands t own' m' ∧ own'.nativeMonitors = own.nativeMonitors := by
  obtain ⟨-, rfl⟩ := Machine.addLocal_eq_ok.1 run
  exact ⟨_, stands.updateOwn (fun thread =>
    { thread with locals := ((m.thread t).locals.add o).2 }) (fun _ => rfl) fun _ => rfl, rfl⟩

theorem exitMonitor_notes {o : ObjectId} {m m' : Machine} {u : Unit} (stands : Stands t own m)
    (run : Machine.nativeExitOrThrow t o m = .ok u m') :
    ∃ own', Stands t own' m' ∧ own'.nativeMonitors =
      if (m.heap.monitor o).owner = some t then
        Thread.eraseLast (m.heap.sameMonitor o) own.nativeMonitors
      else own.nativeMonitors := by
  obtain ⟨between, ⟨exit, rfl⟩ | ⟨exception, exit, rfl⟩⟩ := Machine.nativeExitOrThrow_of_ok run
  · obtain ⟨monitor, exited, -, rfl⟩ | ⟨_, _, refused, _⟩ := Machine.exitMonitor_eq_ok.1 exit
    · rw [if_pos (Monitor.of_exit exited).1, ← Heap.sameMonitor_setMonitor m.heap o monitor]
      refine ⟨_, (stands.onHeap _).updateOwn (fun thread => { thread with
        nativeMonitors := Thread.eraseLast _ thread.nativeMonitors })
        (fun _ => rfl) fun _ => rfl, rfl⟩
    · cases refused
  · obtain ⟨_, _, entered, _⟩ | ⟨misuse, refused, -, rfl⟩ := Machine.exitMonitor_eq_ok.1 exit
    · cases entered
    · rw [if_neg (Monitor.not_owner_of_misuse refused)]
      exact ⟨own, stands.setPending (some exception), rfl⟩

theorem plain_notes {first : Instruction} (plain : first.isCall = false)
    (stands : Stands t own w.state) {u : Unit} (run : perform b t first w = .ok u w') :
    ∃ own', Stands t own' w'.state ∧
      own'.nativeMonitors = Moment.noted t own.nativeMonitors ⟨w, some first⟩ := by
  have does := perform_does plain run
  cases first with
  | call method receiver body registers => exact does.elim
  | newObject className =>
    obtain ⟨handle, added⟩ := does
    exact addLocal_notes (stands.onHeap _) added
  | newLocal o =>
    obtain ⟨handle, added⟩ := does
    exact addLocal_notes stands added
  | throw exception =>
    refine ⟨own, ?_, rfl⟩
    rw [← does]
    exact stands.setPending (some exception)
  | enterMonitor o => exact ⟨_, stands.nativeEnter does, rfl⟩
  | exitMonitor o => exact exitMonitor_notes stands does
  | heap step =>
    refine ⟨own, ?_, rfl⟩
    rw [← does]
    exact stands.onHeap _
  | toManaged => exact ⟨_, (stands.toManaged does).2, rfl⟩
  | toNative => exact ⟨_, (stands.toNative does).2, rfl⟩

theorem performAll_notes (body : List Instruction) :
    ∀ {own : Thread} {w w' : MachineWorld} {u : Unit}, Stands t own w.state →
      performAll b t body w = .ok u w' →
      ∃ own', Stands t own' w'.state ∧
        own'.nativeMonitors = (course b t body w).foldl (Moment.noted t) own.nativeMonitors := by
  induction body using Instruction.bodyInduction with
  | nil =>
    intro own w w' u stands run
    simp only [performAll] at run
    obtain ⟨-, rfl⟩ := Act.pure_eq_ok.1 run
    exact ⟨own, stands, by simp [course, Moment.noted]⟩
  | plain first rest plain ih =>
    intro own w w' u stands run
    simp only [performAll] at run
    obtain ⟨_, between, doing, run⟩ := Act.bind_eq_ok.1 run
    obtain ⟨own₁, stands₁, now⟩ := plain_notes plain stands doing
    obtain ⟨own', stands', after⟩ := ih stands₁ run
    refine ⟨own', stands', ?_⟩
    have none : momentsOf b t first w = [] := by
      cases first <;> first | rfl | simp [Instruction.isCall] at plain
    rw [after, now, course_cons, none, doing]
    simp
  | call method receiver body registers rest inner ih =>
    intro own w w' u stands run
    simp only [performAll] at run
    obtain ⟨_, between, doing, run⟩ := Act.bind_eq_ok.1 run
    obtain ⟨result, invoked⟩ := perform_call doing
    obtain ⟨entry, started, entering, invoked⟩ := Act.bind_eq_ok.1 invoked
    obtain ⟨_, ended, performed, leaving⟩ := Act.bind_eq_ok.1 invoked
    obtain ⟨own₁, stands₁, within⟩ := inner (enter_own stands entering).2.2 performed
    obtain ⟨own', stands', after⟩ := ih (leave_own stands₁ leaving) run
    refine ⟨own', stands', ?_⟩
    -- Neither threshold touches a note: those of the inner body are what the rest starts from.
    rw [after, nativeMonitors_left, within, nativeMonitors_entered, course_cons,
      momentsOf_call entering, doing]
    simp [Moment.noted]

/-! ## The report -/

theorem host_heldFree (t : ThreadId) : (Machine.host t).HeldFree where
  toManaged m why halted := by
    obtain ⟨_, stopped⟩ := Act.error_of_halt? halted
    have faultless : Act.Faultless (Machine.toManaged t) :=
      .bind (Machine.acquireShare_faultless t) fun _ => .of_returns fun m => ⟨(), _, rfl⟩
    have other := faultless _ _ _ stopped
    cases why with
    | fault _ => cases other
    | _ => rfl
  checkSuspend m why halted := by
    obtain ⟨_, stopped⟩ := Act.error_of_halt? halted
    rw [Machine.checkSuspend_stops stopped]
    rfl
  exitMonitor o m why halted := by
    obtain ⟨_, stopped⟩ := Act.error_of_halt? halted
    rw [Machine.exitMonitor_stops stopped]
    rfl
  lockObject method m why halted := by
    obtain ⟨_, stopped⟩ := Act.error_of_halt? halted
    cases isStatic : method.isStatic <;>
      simp only [Machine.host, Machine.lockObject, isStatic] at stopped <;> cases stopped
  checkResult method result m why halted := by
    obtain ⟨_, stopped⟩ := Act.error_of_halt? halted
    simp only [Machine.host, Machine.checkResult, Act.modify_bind, Act.get_bind] at stopped
    generalize result.bind _ = rejected at stopped
    cases rejected with
    | none => cases stopped
    | some reason =>
      cases stopped
      rfl

theorem leave_held {method : Method} {saved : ScopeMark} {registers : Registers} {why : Halt}
    {count : Nat} (stopped : leave b t method saved registers w = .error why w')
    (held : why.held? = some count) :
    ∃ finished unlocked : MachineWorld,
      Crossing.finishTier (Machine.host t) b method.tier w = .ok () finished ∧
      Crossing.unlockFor (Machine.host t) b method finished = .ok () unlocked ∧
      w'.state = unlocked.state ∧ b.settings.checked = true ∧ method.tier.opensScope = true ∧
      count = (unlocked.state.thread t).nativeMonitors.length ∧ count ≠ 0 := by
  have free := host_heldFree t
  rcases Act.bind_eq_error.1 stopped with ending | ⟨_, _, -, rest⟩
  · rw [Crossing.endMethod_eq] at ending
    obtain ⟨_, finished, finishing, rest⟩ :=
      Crossing.HeldFree.stopped_later (Crossing.finishTier_heldFree b free _) ending held
    obtain ⟨_, unlocked, unlocking, delivering⟩ :=
      Crossing.HeldFree.stopped_later (Crossing.unlockFor_heldFree b free method) rest held
    obtain ⟨checked, opens, same, counted, some⟩ := Crossing.deliver_held b free delivering held
    exact ⟨finished, unlocked, finishing, unlocking, same, checked, opens, counted, some⟩
  · obtain popping | ⟨_, _, -, returning⟩ := Act.bind_eq_error.1 rest
    · cases popping
    · cases returning

theorem unlocked_notes {method : Method} {finished unlocked : MachineWorld} {u v : Unit}
    (stands : Stands t own w.state)
    (finishing : Crossing.finishTier (Machine.host t) b method.tier w = .ok u finished)
    (unlocking : Crossing.unlockFor (Machine.host t) b method finished = .ok v unlocked) :
    (unlocked.state.thread t).nativeMonitors = own.nativeMonitors := by
  have back := Crossing.finishTier_own stands finishing
  have keeps : Crossing.Keeps (Stands t (own.returned method.tier))
      (Crossing.unlockFor (Machine.host t) b method) :=
    Crossing.unlockFor_passes b method (fun _ _ met => met) (Machine.host_keeps_own _ rfl)
      (Machine.host_keeps_own _ rfl) (fun _ => Machine.host_keeps_own _ rfl)
      fun _ => Machine.host_keeps_own _ rfl
  have after := keeps.of_ok unlocking back
  rw [after.view Thread.nativeMonitors fun _ => rfl, Thread.nativeMonitors_returned]

theorem leave_unheld {method : Method} {saved : ScopeMark} {registers : Registers}
    {result : CallResult ObjectId} (stands : Stands t own w.state)
    (checked : b.settings.checked = true) (opens : method.tier.opensScope = true)
    (run : leave b t method saved registers w = .ok result w') : own.nativeMonitors = [] := by
  obtain ⟨_, ended, ending, -⟩ := Act.bind_eq_ok.1 run
  rw [Crossing.endMethod_eq] at ending
  obtain ⟨_, finished, finishing, rest⟩ := Act.bind_eq_ok.1 ending
  obtain ⟨_, unlocked, unlocking, delivering⟩ := Act.bind_eq_ok.1 rest
  have none : (unlocked.state.thread t).nativeMonitors.length = 0 :=
    Crossing.deliver_unheld b checked opens delivering
  rw [unlocked_notes stands finishing unlocking] at none
  exact List.eq_nil_of_length_eq_zero none

/-- The notes at the end of a body are a part of those at the start of the call, and the levels that
the call has entered and not exited.  The end of the call reports them all together, where there is
one of either kind, in checked mode and for a call with a scope, and returns there only if there is
none. -/
theorem held_monitors_reported_with_enclosing
    (b : Boundary) (t : ThreadId) (method : Method) (receiver : Option ObjectId)
    (body : List Instruction) (registers : Registers) (w started ended : MachineWorld)
    (entry : Started) (thread : Thread) (attached : w.state.thread? t = some thread)
    (entering : enter b t method receiver w = .ok entry started)
    (performed : performAll b t body started = .ok () ended) :
    ∃ enclosing, enclosing.Sublist thread.nativeMonitors ∧
      (ended.state.thread t).nativeMonitors =
        enclosing ++ unexited t (course b t body started) ∧
      (∀ count stopped, leave b t method entry.saved registers ended =
          .error (.fault (.monitorsHeld count)) stopped →
        b.settings.checked = true ∧ method.tier.opensScope = true ∧
          count = enclosing.length + (unexited t (course b t body started)).length ∧
          count ≠ 0) ∧
      (∀ result w', leave b t method entry.saved registers ended = .ok result w' →
        b.settings.checked = true → method.tier.opensScope = true →
          enclosing = [] ∧ unexited t (course b t body started) = []) := by
  have stands : Stands t thread.own w.state := by simp [Stands, attached]
  obtain ⟨-, -, standsStarted⟩ := enter_own stands entering
  obtain ⟨inner, standsEnded, notes⟩ := performAll_notes body standsStarted performed
  obtain ⟨enclosing, part, split⟩ :=
    noted_split t (course b t body started) thread.nativeMonitors []
  have atEnd : inner.nativeMonitors =
      enclosing ++ unexited t (course b t body started) := by
    unfold unexited
    rw [notes, nativeMonitors_entered, ← split, List.append_nil]
    rfl
  refine ⟨enclosing, part, ?_, ?_, ?_⟩
  · rw [standsEnded.view Thread.nativeMonitors fun _ => rfl, atEnd]
  · intro count stopped stopping
    obtain ⟨_, _, finishing, unlocking, -, checked, opens, counted, some⟩ :=
      leave_held stopping rfl
    rw [unlocked_notes standsEnded finishing unlocking, atEnd, List.length_append] at counted
    exact ⟨checked, opens, counted, some⟩
  · intro result w' returned checked opens
    have none := leave_unheld standsEnded checked opens returned
    rw [atEnd] at none
    exact List.append_eq_nil_iff.1 none

def checkedBoundary : Boundary where
  settings := { checked := true }

def drawMethod : Method where
  className := "Point"
  name := "draw"
  shorty := "V"
  tier := .normal

def logMethod : Method where
  className := "Point"
  name := "log"
  shorty := "V"
  tier := .normal

def enteringBody : List Instruction :=
  [.enterMonitor ⟨0⟩, .toManaged]

def drawing : MachineWorld :=
  Act.stateOf (enter checkedBoundary ⟨1⟩ drawMethod none onManagedThread)

def holding : MachineWorld :=
  Act.stateOf (performAll checkedBoundary ⟨1⟩ enteringBody drawing)

/-- A call that uses no monitor is stopped for the one that its caller holds. -/
theorem held_monitors_reported_with_enclosing_nested :
    ∃ entry started ended stopped enclosing,
      enter checkedBoundary ⟨1⟩ logMethod none holding = .ok entry started ∧
      performAll checkedBoundary ⟨1⟩ [] started = .ok () ended ∧
      leave checkedBoundary ⟨1⟩ logMethod entry.saved {} ended =
        .error (.fault (.monitorsHeld 1)) stopped ∧
      (ended.state.thread ⟨1⟩).nativeMonitors = enclosing ∧ enclosing.length = 1 := by
  obtain ⟨entry, started, entering⟩ := Act.exists_of_returns
    (x := enter checkedBoundary ⟨1⟩ logMethod none) (s := holding) (by decide +kernel)
  have stopping : (invoke checkedBoundary ⟨1⟩ logMethod none [] {}).halt? holding =
      some (.fault (.monitorsHeld 1)) := by decide +kernel
  have performed : performAll checkedBoundary ⟨1⟩ [] started = .ok () started := by
    rw [performAll]
    rfl
  unfold invoke at stopping
  rw [Act.halt?_bind_of_ok entering, Act.halt?_bind_of_ok performed] at stopping
  obtain ⟨stopped, stopping⟩ := Act.error_of_halt? stopping
  obtain ⟨enclosing, -, notes, reported, -⟩ := held_monitors_reported_with_enclosing checkedBoundary
    ⟨1⟩ logMethod none [] {} holding started started entry (holding.state.thread ⟨1⟩)
    (by decide +kernel) entering performed
  obtain ⟨-, -, counted, -⟩ := reported 1 stopped stopping
  have none : unexited ⟨1⟩ (course checkedBoundary ⟨1⟩ [] started) = [] := by
    simp [course, unexited, Moment.noted]
  rw [none, List.append_nil] at notes
  rw [none] at counted
  exact ⟨entry, started, started, stopped, enclosing, entering, performed, stopping, notes,
    counted.symm⟩

/-- It is not so that a call that leaves no level of its own is never stopped for held monitors. -/
theorem enclosing_monitor_reported :
    ¬∀ (b : Boundary) (t : ThreadId) (outer : Method) (before : List Instruction)
        (entry : Started) (w₀ started w : MachineWorld) (method : Method)
        (receiver : Option ObjectId) (body : List Instruction) (registers : Registers),
        b.settings.checked = true → enter b t outer none w₀ = .ok entry started →
          performAll b t before started = .ok () w →
          unexited t (momentsOf b t (.call method receiver body registers) w) = [] →
          ∀ count stopped, invoke b t method receiver body registers w ≠
            .error (.fault (.monitorsHeld count)) stopped := by
  intro claim
  obtain ⟨entry, entering⟩ := Act.eq_ok_stateOf
    (x := enter checkedBoundary ⟨1⟩ drawMethod none) (s := onManagedThread) (by decide +kernel)
  obtain ⟨_, performed⟩ := Act.eq_ok_stateOf
    (x := performAll checkedBoundary ⟨1⟩ enteringBody) (s := drawing) (by decide +kernel)
  have stopping : (invoke checkedBoundary ⟨1⟩ logMethod none [] {}).halt? holding =
      some (.fault (.monitorsHeld 1)) := by decide +kernel
  obtain ⟨stopped, stopping⟩ := Act.error_of_halt? stopping
  exact claim checkedBoundary ⟨1⟩ drawMethod enteringBody entry onManagedThread drawing holding
    logMethod none [] {} rfl entering performed (by decide +kernel) 1 stopped stopping

end Call

end NativeBoundary
