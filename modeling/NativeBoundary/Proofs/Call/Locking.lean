import NativeBoundary.Proofs.Call.Threshold
import NativeBoundary.Proofs.Machine.HeapHistory

/-!
# The monitor of a call

The beginning of a synchronized call enters one monitor and touches no other; the end of it looks
the object up again, perhaps finds another copy of it, and so exits the same monitor.  Everything
else at the two thresholds leaves all monitors alone.
-/

set_option autoImplicit false

namespace NativeBoundary

namespace Heap

variable {h h' h'' : Heap} {t : ThreadId} {o : ObjectId} {i : MonitorId}

/-- A history in which no monitor is entered or exited. -/
structure Quiet (h h' : Heap) : Prop where
  leads : Leads h h'
  monitors : ∀ i, h'.monitorAt i = h.monitorAt i

theorem Quiet.refl (h : Heap) : Quiet h h :=
  ⟨.refl, fun _ => rfl⟩

theorem Quiet.trans (first : Quiet h h') (second : Quiet h' h'') : Quiet h h'' :=
  ⟨first.leads.trans second.leads, fun i => (second.monitors i).trans (first.monitors i)⟩

theorem quiet_step (h : Heap) (step : HeapStep) : Quiet h (h.step step) :=
  ⟨.single (.step h step), (shaped_step h step).monitorAt⟩

theorem quiet_barrier (h : Heap) : Quiet h { h with barrierCalls := h.barrierCalls + 1 } :=
  ⟨.single (.barrier h), fun _ => rfl⟩

/-- A history in which a thread enters a monitor once, and no other monitor is used. -/
structure Locked (t : ThreadId) (i : MonitorId) (h h' : Heap) : Prop where
  leads : Leads h h'
  entered : (h.monitorAt i).tryEnter t = .ok (true, h'.monitorAt i)
  others : ∀ j, j ≠ i → h'.monitorAt j = h.monitorAt j

/-- A history in which a thread exits a monitor once, and no other monitor is used. -/
structure Unlocked (t : ThreadId) (i : MonitorId) (h h' : Heap) : Prop where
  leads : Leads h h'
  exited : (h.monitorAt i).exit t = .ok (.ok (h'.monitorAt i))
  others : ∀ j, j ≠ i → h'.monitorAt j = h.monitorAt j

theorem Locked.quiet (locked : Locked t i h h') (quiet : Quiet h' h'') : Locked t i h h'' where
  leads := locked.leads.trans quiet.leads
  entered := by rw [quiet.monitors]; exact locked.entered
  others j apart := (quiet.monitors j).trans (locked.others j apart)

theorem Quiet.locked (quiet : Quiet h h') (locked : Locked t i h' h'') : Locked t i h h'' where
  leads := quiet.leads.trans locked.leads
  entered := by rw [← quiet.monitors]; exact locked.entered
  others j apart := (locked.others j apart).trans (quiet.monitors j)

theorem Unlocked.quiet (unlocked : Unlocked t i h h') (quiet : Quiet h' h'') :
    Unlocked t i h h'' where
  leads := unlocked.leads.trans quiet.leads
  exited := by rw [quiet.monitors]; exact unlocked.exited
  others j apart := (quiet.monitors j).trans (unlocked.others j apart)

theorem Quiet.unlocked (quiet : Quiet h h') (unlocked : Unlocked t i h' h'') :
    Unlocked t i h h'' where
  leads := quiet.leads.trans unlocked.leads
  exited := by rw [← quiet.monitors]; exact unlocked.exited
  others j apart := (unlocked.others j apart).trans (quiet.monitors j)

theorem locked_setMonitor (sound : Sound h) (found : h.monitorId? o = some i) {monitor : Monitor}
    (entered : (h.monitor o).tryEnter t = .ok (true, monitor)) :
    Locked t i h (h.setMonitor o monitor) := by
  have inside := sound.monitorId_inside found
  refine ⟨.single (.enter h t o monitor entered), ?_, fun j apart => ?_⟩
  · rw [monitorAt_setMonitor found inside, if_pos rfl, ← monitor_eq_monitorAt found]
    exact entered
  · rw [monitorAt_setMonitor found inside, if_neg apart]

theorem unlocked_setMonitor (sound : Sound h) (found : h.monitorId? o = some i)
    {monitor : Monitor} (exited : (h.monitor o).exit t = .ok (.ok monitor)) :
    Unlocked t i h (h.setMonitor o monitor) := by
  have inside := sound.monitorId_inside found
  refine ⟨.single (.exit h t o monitor exited), ?_, fun j apart => ?_⟩
  · rw [monitorAt_setMonitor found inside, if_pos rfl, ← monitor_eq_monitorAt found]
    exact exited
  · rw [monitorAt_setMonitor found inside, if_neg apart]

/-! ## The monitor that a call locks -/

/-- The monitor of a synchronized call: that of the class object of a static method, and that of the
receiver otherwise. -/
def lockMonitor? (h : Heap) (method : Method) (receiver : Option ObjectId) : Option MonitorId :=
  if method.isStatic then (h.classes.lookup method.className).bind h.monitorId?
  else receiver.bind h.monitorId?

/-- A call locks the same monitor at any later time, through whatever copy. -/
theorem lockMonitor?_of_leads {method : Method} {receiver : Option ObjectId}
    (sound : Sound h) (leads : Leads h h')
    (found : h.lockMonitor? method receiver = some i) :
    h'.lockMonitor? method receiver = some i := by
  have extended := Leads.extends leads
  unfold lockMonitor? at *
  cases isStatic : method.isStatic with
  | false =>
    simp only [isStatic, Bool.false_eq_true, if_false] at found ⊢
    obtain ⟨o, rfl, monitor⟩ := Option.bind_eq_some_iff.1 found
    exact extended.monitorId? monitor
  | true =>
    simp only [isStatic, if_true] at found ⊢
    obtain ⟨o, named, monitor⟩ := Option.bind_eq_some_iff.1 found
    obtain ⟨j, face⟩ := sound.table method.className o named
    rw [monitorId?_of_face? face] at monitor
    obtain rfl := Option.some.inj monitor
    -- The copy in the table now has the face of every copy of the class, the old one included.
    obtain ⟨later, again, same⟩ :=
      (Leads.sound leads sound).shared o _ (extended.face? face) rfl
    rw [again, Option.bind_some, monitorId?_of_face? same]

/-- The object that a synchronized call locks: the class object of a static method, made on first
use, and the receiver otherwise. -/
def lockTarget? (h : Heap) (method : Method) (receiver : Option ObjectId) : Option ObjectId :=
  if method.isStatic then some (h.classObject method.className).1 else receiver

theorem lockTarget?_of_lockMonitor? {method : Method} {receiver : Option ObjectId}
    (found : h.lockMonitor? method receiver = some i) :
    ∃ o, h.lockTarget? method receiver = some o := by
  unfold lockMonitor? at found
  unfold lockTarget?
  cases isStatic : method.isStatic with
  | true => exact ⟨_, rfl⟩
  | false =>
    simp only [isStatic, Bool.false_eq_true, if_false] at found ⊢
    obtain ⟨o, named, -⟩ := Option.bind_eq_some_iff.1 found
    exact ⟨o, named⟩

theorem lockTarget?_classObject (h : Heap) (method : Method) (receiver : Option ObjectId) :
    (h.classObject method.className).2.lockTarget? method receiver =
      h.lockTarget? method receiver := by
  unfold lockTarget?
  cases method.isStatic with
  | false => rfl
  | true =>
    simp only [if_true]
    rw [classObject_of_lookup (h.lookup_classObject method.className)]

/-- The first use of a class makes its monitor, and no other object has another monitor after it. -/
theorem monitor_classObject (h : Heap) (className : String) (o : ObjectId) :
    (h.classObject className).2.monitor o = h.monitor o := by
  unfold classObject
  cases named : h.classes.lookup className with
  | some entry => rfl
  | none =>
    have fresh : (h.monitors[h.monitors.length]?).getD {} = ({} : Monitor) := by simp
    simp only [create, add, setClass, copies_enlist, monitors_enlist, monitor, monitorId?, copy?]
    rw [List.getElem?_append]
    by_cases old : o.index < h.copies.length
    · rw [if_pos old]
      cases found : h.copies[o.index]? with
      | none => rfl
      | some copy => exact getD_append_new h.monitors copy.monitor.index
    · rw [if_neg old, List.getElem?_eq_none (Nat.not_lt.1 old)]
      cases o.index - h.copies.length with
      | zero => exact (getD_append_new h.monitors h.monitors.length).trans fresh
      | succ _ => rfl

theorem lockTarget?_barrier (h : Heap) (method : Method) (receiver : Option ObjectId) :
    { h with barrierCalls := h.barrierCalls + 1 }.lockTarget? method receiver =
      h.lockTarget? method receiver := by
  unfold lockTarget? classObject
  simp only
  cases h.classes.lookup method.className <;> rfl

end Heap

def Deed.isMonitorUse {O X : Type} : Deed O X → Bool
  | .enterMonitor _ | .exitMonitor _ => true
  | _ => false

variable {t : ThreadId}

theorem Machine.host_keeps_quiet (h : Heap) (deed : Deed ObjectId Throwable)
    (others : deed.isMonitorUse = false) :
    (Machine.host t).Keeps (fun m => Heap.Quiet h m.heap) deed := by
  refine .of_does fun m m' quiet does => ?_
  have same (kept : m'.heap = m.heap) : Heap.Quiet h m'.heap := by rwa [kept]
  cases deed with
  | enterMonitor _ | exitMonitor _ => simp [Deed.isMonitorUse] at others
  | toNative => exact same (heap_of_toNative does)
  | toManaged => exact same (heap_of_toManaged does)
  | checkSuspend => exact same (heap_of_checkSuspend does)
  | lockObject method =>
    obtain ⟨_, run⟩ := does
    have outcome := lockObject_eq_ok.1 run
    split at outcome
    · obtain ⟨-, rfl⟩ := outcome
      exact quiet.trans (Heap.quiet_step _ (.classObject method.className))
    · obtain ⟨-, rfl⟩ := outcome
      exact quiet
  | checkResult method result =>
    obtain rfl := checkResult_of_ok does
    exact quiet
  | currentCopy o =>
    obtain ⟨_, run⟩ := does
    obtain rfl := currentCopy_of_ok run
    exact quiet.trans (Heap.quiet_barrier _)
  | takePending | setPending _ | setScopeBase _ | setScopeTop _ | pushHandle _ | popHandle =>
    obtain rfl := does
    exact quiet
  | decode _ | isMarked _ | asked _ | begun _ | ending _ | traced _ =>
    obtain rfl := does
    exact quiet

/-- Looking for the object to lock does not change which one it is. -/
theorem Machine.lockObject_keeps_target (method : Method) (receiver target : Option ObjectId) :
    (Machine.host t).Keeps (fun m => m.heap.lockTarget? method receiver = target)
      (.lockObject method) := by
  refine .of_does fun m m' before does => ?_
  obtain ⟨_, run⟩ := does
  have outcome := lockObject_eq_ok.1 run
  split at outcome
  · obtain ⟨-, rfl⟩ := outcome
    exact (m.heap.lockTarget?_classObject method receiver).trans before
  · obtain ⟨-, rfl⟩ := outcome
    exact before

namespace Crossing

open Machine (Stands host host_keeps_quiet host_keeps_own)
open Heap (Quiet Locked Unlocked)

variable {b : Boundary} {own : Thread} {w w' : MachineWorld} {method : Method}
  {receiver : Option ObjectId} {outer : List Frame} {i : MonitorId}

theorem quiet_of_keeps {α : Type} {c : Call α} {a : α}
    (keeps : ∀ h, Keeps (fun m : Machine => Quiet h m.heap) c) (run : c w = .ok a w') :
    Quiet w.state.heap w'.state.heap :=
  (keeps w.state.heap).of_ok run (.refl _)

theorem lockObject_finds {o : ObjectId} (stands : Stands t own w.state)
    (top : own.frames = { method, receiver } :: outer)
    (run : lockObject (host t) method w = .ok o w') :
    if method.isStatic then w'.state.heap.classes.lookup method.className = some o
    else receiver = some o := by
  have found := Machine.lockObject_eq_ok.1 (lockObject_of_ok run)
  cases isStatic : method.isStatic with
  | false =>
    simp only [isStatic, Bool.false_eq_true, if_false] at found ⊢
    have named : (w.state.thread t).receiver = receiver := by
      rw [stands.view Thread.receiver fun _ => rfl, Thread.receiver, top]
      rfl
    rw [← named, ← found.1]
  | true =>
    simp only [isStatic, if_true] at found ⊢
    obtain ⟨object, after⟩ := found
    rw [← after, Option.some.inj object]
    simp only [Heap.classObject]
    cases named : w.state.heap.classes.lookup method.className with
    | some entry => exact named
    | none =>
      simp only
      rw [Heap.lookup_setClass, if_pos rfl]

theorem lockObject_target {o : ObjectId} (stands : Stands t own w.state)
    (top : own.frames = { method, receiver } :: outer)
    (run : lockObject (host t) method w = .ok o w') :
    w.state.heap.lockTarget? method receiver = some o := by
  have kept := Keeps.of_ok
    (lockObject_passes method (Machine.lockObject_keeps_target method receiver _)) run rfl
  have found := lockObject_finds stands top run
  rw [← kept]
  unfold Heap.lockTarget? Heap.classObject
  split at found
  · next isStatic => simp [isStatic, found]
  · next isInstance => simp [isInstance, found]

theorem lockObject_monitor {o : ObjectId} (stands : Stands t own w.state)
    (top : own.frames = { method, receiver } :: outer)
    (run : lockObject (host t) method w = .ok o w') :
    w'.state.heap.lockMonitor? method receiver = w'.state.heap.monitorId? o := by
  have found := lockObject_finds stands top run
  unfold Heap.lockMonitor?
  split at found
  · next isStatic => simp [isStatic, found]
  · next isInstance => simp [isInstance, found]

theorem lockObject_quiet {o : ObjectId} (run : lockObject (host t) method w = .ok o w') :
    Quiet w.state.heap w'.state.heap :=
  quiet_of_keeps (fun h => lockObject_passes method (host_keeps_quiet h _ rfl)) run

theorem lockObject_keeps_monitor {o : ObjectId} (run : lockObject (host t) method w = .ok o w')
    (p : ObjectId) : w'.state.heap.monitor p = w.state.heap.monitor p := by
  have found := Machine.lockObject_eq_ok.1 (lockObject_of_ok run)
  split at found
  · rw [← found.2]
    exact w.state.heap.monitor_classObject method.className p
  · rw [found.2]

theorem lockFor_locks (isSynchronized : method.isSynchronized = true)
    (sound : w.state.heap.Sound) (stands : Stands t own w.state)
    (top : own.frames = { method, receiver } :: outer)
    (known : ∀ o, receiver = some o → ∃ i, w.state.heap.monitorId? o = some i)
    {u : Unit} (run : lockFor (host t) method w = .ok u w') :
    ∃ i, w'.state.heap.lockMonitor? method receiver = some i ∧
      (∃ target, w.state.heap.lockTarget? method receiver = some target ∧
        w'.state.heap.monitorId? target = some i ∧
        w.state.heap.monitor target = w.state.heap.monitorAt i) ∧
      Locked t i w.state.heap w'.state.heap := by
  rw [lockFor, isSynchronized] at run
  obtain ⟨o, w₁, resolved, locked⟩ := Act.bind_eq_ok.1 run
  have quiet := lockObject_quiet resolved
  have sound₁ := Heap.Leads.sound quiet.leads sound
  have monitor : ∃ i, w₁.state.heap.monitorId? o = some i := by
    have found := lockObject_finds stands top resolved
    split at found
    · obtain ⟨i, face⟩ := sound₁.table _ _ found
      exact ⟨i, Heap.monitorId?_of_face? face⟩
    · obtain ⟨i, before⟩ := known o found
      exact ⟨i, (Heap.Leads.extends quiet.leads).monitorId? before⟩
  obtain ⟨i, monitor⟩ := monitor
  have entering : (host t).enterMonitor o w₁.state = .ok (.ok ()) w'.state := by
    obtain entered | ⟨exception, s, failed⟩ := lock_of_ok locked
    · exact entered
    · have never := (Machine.host_enterMonitor_eq_ok.1 failed).2.1
      simp at never
  obtain ⟨state, entered, after⟩ :=
    Machine.enterMonitor_eq_ok.1 (Machine.host_enterMonitor_eq_ok.1 entering).2.2
  have lockedHere : Locked t i w₁.state.heap w'.state.heap := by
    rw [← after]
    exact Heap.locked_setMonitor sound₁ monitor entered
  refine ⟨i, ?_, ⟨o, lockObject_target stands top resolved, ?_, ?_⟩, quiet.locked lockedHere⟩
  · refine Heap.lockMonitor?_of_leads sound₁ lockedHere.leads ?_
    rw [lockObject_monitor stands top resolved, monitor]
  · exact (Heap.Leads.extends lockedHere.leads).monitorId? monitor
  · rw [← quiet.monitors, ← Heap.monitor_eq_monitorAt monitor]
    exact (lockObject_keeps_monitor resolved o).symm

/-- The end of a synchronized call exits the monitor of the call, unless that is not the thread's
any more. -/
theorem unlockFor_unlocks (isSynchronized : method.isSynchronized = true)
    (sound : w.state.heap.Sound) (stands : Stands t own w.state)
    (top : own.frames = { method, receiver } :: outer)
    (known : w.state.heap.lockMonitor? method receiver = some i)
    {u : Unit} (run : unlockFor (host t) b method w = .ok u w') :
    Unlocked t i w.state.heap w'.state.heap ∨
      (w.state.heap.monitorAt i).owner ≠ some t ∧ Quiet w.state.heap w'.state.heap := by
  rw [unlockFor, isSynchronized] at run
  obtain ⟨_, w₁, checked, run⟩ := Act.bind_eq_ok.1 run
  have quiet₁ : Quiet w.state.heap w₁.state.heap :=
    quiet_of_keeps (fun h => checkSynchronizedTier_passes b method) checked
  replace stands := Keeps.of_ok (checkSynchronizedTier_passes b method) checked stands
  obtain ⟨o, w₂, resolved, unlocked⟩ := Act.bind_eq_ok.1 run
  have quiet := quiet₁.trans (lockObject_quiet resolved)
  have monitor : w₂.state.heap.monitorId? o = some i := by
    rw [← lockObject_monitor stands top resolved]
    exact Heap.lockMonitor?_of_leads sound quiet.leads known
  have sound₂ := Heap.Leads.sound quiet.leads sound
  obtain ⟨exited, s, exit, after⟩ := unlock_of_ok unlocked
  have heap : w'.state.heap = s.heap := by
    obtain after | ⟨exception, after⟩ := after
    · rw [after]
    · rw [after]
      rfl
  rw [heap]
  obtain ⟨state, given, -, rfl⟩ | ⟨misuse, refused, -, rfl⟩ := Machine.exitMonitor_eq_ok.1 exit
  · left
    exact quiet.unlocked (Heap.unlocked_setMonitor sound₂ monitor given)
  · right
    refine ⟨?_, quiet⟩
    intro owned
    rw [← quiet.monitors] at owned
    obtain ⟨state, given⟩ := Monitor.exit_of_owner (sound₂.monitorAt i) owned
    have refused : (w₂.state.heap.monitor o).exit t = .ok (.error misuse) := refused
    rw [Heap.monitor_eq_monitorAt monitor, given] at refused
    simp at refused

theorem lockObject_returns {o : ObjectId} (stands : Stands t own w.state)
    (top : own.frames = { method, receiver } :: outer)
    (locks : w.state.heap.lockTarget? method receiver = some o) :
    ∃ w₁, lockObject (host t) method w = .ok o w₁ ∧
      w₁.state.thread t = w.state.thread t := by
  unfold Heap.lockTarget? at locks
  cases isStatic : method.isStatic with
  | true =>
    simp only [isStatic, if_true] at locks
    have found : (host t).lockObject method w.state =
        .ok (some o)
          { w.state with heap := (w.state.heap.classObject method.className).2 } := by
      refine Machine.lockObject_eq_ok.2 ?_
      rw [if_pos isStatic]
      exact ⟨locks.symm, rfl⟩
    exact ⟨_, lockObject_of_found found, rfl⟩
  | false =>
    simp only [isStatic, Bool.false_eq_true, if_false] at locks
    have named : (w.state.thread t).receiver = some o := by
      rw [stands.view Thread.receiver fun _ => rfl, Thread.receiver, top]
      exact locks
    have found : (host t).lockObject method w.state = .ok (some o) w.state := by
      refine Machine.lockObject_eq_ok.2 ?_
      rw [if_neg (by simp [isStatic]), named]
      exact ⟨rfl, rfl⟩
    exact ⟨_, lockObject_of_found found, rfl⟩

theorem lockFor_returns {o : ObjectId} (isSynchronized : method.isSynchronized = true)
    (stands : Stands t own w.state) (share : own.holdsShare = true)
    (top : own.frames = { method, receiver } :: outer)
    (locks : w.state.heap.lockTarget? method receiver = some o)
    (available : (w.state.heap.monitor o).Available t) :
    ∃ w', lockFor (host t) method w = .ok () w' := by
  obtain ⟨w₁, resolved, sameThread⟩ := lockObject_returns stands top locks
  have holds : (w₁.state.thread t).holdsShare = true := by
    rw [sameThread, stands.view Thread.holdsShare fun _ => rfl, share]
  rw [← lockObject_keeps_monitor resolved] at available
  obtain ⟨monitor, entered⟩ := Monitor.tryEnter_of_available available
  have entering : (host t).enterMonitor o w₁.state = .ok (.ok ()) _ :=
    Machine.host_enterMonitor_eq_ok.2
      ⟨holds, rfl, Machine.enterMonitor_eq_ok.2 ⟨monitor, entered, rfl⟩⟩
  obtain ⟨w', locked⟩ := lock_of_entered entering
  refine ⟨w', ?_⟩
  rw [lockFor, isSynchronized]
  exact Act.bind_eq_ok.2 ⟨o, w₁, resolved, locked⟩

/-- An exit that the monitor grants returns, and what was pending before is pending after it. -/
theorem unlock_returns {o : ObjectId} {state : Monitor} (stands : Stands t own w.state)
    (given : (w.state.heap.monitor o).exit t = .ok (.ok state)) :
    ∃ w', unlock (host t) o w = .ok () w' ∧
      (w'.state.thread t).pending = (w.state.thread t).pending := by
  have exit : (host t).exitMonitor o ((host t).clearPending w.state) = .ok (.ok ()) _ :=
    Machine.exitMonitor_eq_ok.2 (.inl ⟨state, given, rfl, rfl⟩)
  obtain ⟨w', unlocked, after⟩ := unlock_of_exit exit
  refine ⟨w', unlocked, ?_⟩
  have standsExit := (stands.setPending none).onHeap
    (((host t).clearPending w.state).heap.setMonitor o state)
  have cleared := stands.thread_updateThread (fun thread => { thread with pending := none })
    fun _ => rfl
  rw [after]
  cases pending : (host t).pending w.state with
  | none => exact (congrArg Thread.pending cleared).trans pending.symm
  | some exception =>
    have restored := standsExit.thread_updateThread
      (fun thread => { thread with pending := some exception }) fun _ => rfl
    exact (congrArg Thread.pending restored).trans pending.symm

/-- As long as the thread owns the monitor of the call, the end of the call can unlock it, and
raises nothing. -/
theorem unlockFor_returns (isSynchronized : method.isSynchronized = true)
    (allowed : ¬(b.settings.verifyTiers ∧ method.isSynchronized ∧ method.tier ≠ .normal))
    (sound : w.state.heap.Sound) (stands : Stands t own w.state)
    (top : own.frames = { method, receiver } :: outer)
    (known : w.state.heap.lockMonitor? method receiver = some i)
    (owned : (w.state.heap.monitorAt i).owner = some t) :
    ∃ w', unlockFor (host t) b method w = .ok () w' ∧
      (w'.state.thread t).pending = (w.state.thread t).pending := by
  obtain ⟨o, locks⟩ := Heap.lockTarget?_of_lockMonitor? known
  obtain ⟨w₁, resolved, sameThread⟩ := lockObject_returns stands top locks
  have quiet := lockObject_quiet resolved
  have sound₁ := Heap.Leads.sound quiet.leads sound
  have stands₁ := Keeps.of_ok (lockObject_passes method (host_keeps_own _ rfl)) resolved stands
  have monitor : w₁.state.heap.monitorId? o = some i := by
    rw [← lockObject_monitor stands top resolved]
    exact Heap.lockMonitor?_of_leads sound quiet.leads known
  have owned₁ : (w₁.state.heap.monitor o).owner = some t := by
    rw [Heap.monitor_eq_monitorAt monitor, quiet.monitors]
    exact owned
  obtain ⟨state, given⟩ := Monitor.exit_of_owner (sound₁.monitor o) owned₁
  obtain ⟨w', unlocked, pending⟩ := unlock_returns stands₁ given
  refine ⟨w', ?_, by rw [pending, sameThread]⟩
  rw [unlockFor, isSynchronized]
  exact Act.bind_eq_ok.2 ⟨(), w, (checkSynchronizedTier_eq_ok b).2 ⟨allowed, rfl⟩,
    Act.bind_eq_ok.2 ⟨o, w₁, resolved, unlocked⟩⟩

end Crossing

namespace Call

open Machine (Stands host_keeps_quiet)
open Heap (Quiet Locked Unlocked)
open Crossing (quiet_of_keeps)

variable {b : Boundary} {own : Thread} {w w' : MachineWorld} {method : Method}
  {receiver : Option ObjectId} {i : MonitorId}

/-! ## Calls -/

theorem heap_of_updateThread {change : Thread → Thread} {u : Unit}
    (run : machine (modify (Machine.updateThread t change)) w = .ok u w') :
    w'.state.heap = w.state.heap := by
  obtain ⟨s, changed, rfl⟩ := Crossing.run_eq_ok.1 run
  obtain rfl := Act.modify_eq_ok.1 changed
  rfl

theorem declaringClass_quiet {found : Option ObjectId}
    (run : declaringClass t method w = .ok found w') : Quiet w.state.heap w'.state.heap :=
  quiet_of_keeps (fun h => declaringClass_keeps
    (fun _ quiet => quiet.trans (Heap.quiet_step _ (.classObject method.className)))
    (fun _ => host_keeps_quiet h _ rfl) fun _ => host_keeps_quiet h _ rfl) run

/-- What neither a class object made on first use nor a count of barriers changes is not changed by
the refresh of a class. -/
theorem declaringClass_keeps_view {α : Type} (view : Heap → α)
    (made : ∀ h : Heap, view (h.classObject method.className).2 = view h)
    (counted : ∀ h : Heap, view { h with barrierCalls := h.barrierCalls + 1 } = view h)
    {found : Option ObjectId} (run : declaringClass t method w = .ok found w') :
    view w'.state.heap = view w.state.heap := by
  have keeps : Crossing.Keeps (fun m : Machine => view m.heap = view w.state.heap)
      (declaringClass t method) := by
    refine declaringClass_keeps (fun m same => ?_) (fun o => ?_) fun o => ?_
    · exact (made m.heap).trans same
    · refine .of_does fun m m' same does => ?_
      obtain rfl := does
      exact same
    · refine .of_does fun m m' same does => ?_
      obtain ⟨_, run⟩ := does
      obtain rfl := Machine.currentCopy_of_ok run
      exact (counted m.heap).trans same
  exact keeps.of_ok run rfl

theorem beginTier_quiet {tier : Tier} {saved : ScopeMark}
    (run : Crossing.beginTier (Machine.host t) b tier w = .ok saved w') :
    Quiet w.state.heap w'.state.heap := by
  refine quiet_of_keeps (fun h => ?_) run
  have notes := (Machine.host t).keeps_note fun m => Quiet h m.heap
  exact Crossing.beginTier_passes b tier notes notes (fun _ => host_keeps_quiet h _ rfl)
    (fun _ => host_keeps_quiet h _ rfl) fun _ _ _ met => met

theorem finishTier_quiet {tier : Tier} {u : Unit}
    (run : Crossing.finishTier (Machine.host t) b tier w = .ok u w') :
    Quiet w.state.heap w'.state.heap := by
  refine quiet_of_keeps (fun h => ?_) run
  have notes := (Machine.host t).keeps_note fun m => Quiet h m.heap
  exact Crossing.finishTier_passes b tier notes (fun _ => host_keeps_quiet h _ rfl)
    (fun _ => host_keeps_quiet h _ rfl) fun _ _ _ met => met

theorem deliver_quiet {saved : ScopeMark} {registers : Registers} {result : CallResult ObjectId}
    (run : Crossing.deliver (Machine.host t) b method saved registers w = .ok result w') :
    Quiet w.state.heap w'.state.heap := by
  refine quiet_of_keeps (fun h => ?_) run
  have quiet (deed : Deed ObjectId Throwable) (others : deed.isMonitorUse = false) :=
    host_keeps_quiet (t := t) h deed others
  let protecting (_ : ObjectId) : Assertion Machine ObjectId Throwable :=
    fun m _ => Quiet h m.heap
  exact Crossing.deliver_passes b saved (fun _ _ met => met) (fun _ => quiet _ rfl)
    (fun _ => quiet _ rfl) (fun _ => quiet _ rfl) (fun _ _ met => met)
    (Q := protecting) (R := protecting)
    (fun _ => quiet _ rfl) (fun _ _ => quiet _ rfl) (fun _ _ _ => quiet _ rfl)
    (fun _ => quiet _ rfl) method registers ((Machine.host t).keeps_note _) fun _ _ met => met

/-- The frame of a call and the class of a static method leave every monitor as it is, and so they
do with the object that the call locks. -/
theorem prepared {u : Unit} {found : Option ObjectId} {w₁ w₂ : MachineWorld}
    (stands : Stands t own w.state)
    (pushed : machine (Machine.pushFrame t method receiver) w = .ok u w₁)
    (ready : declaringClass t method w₁ = .ok found w₂) :
    Stands t { own with frames := { method, receiver } :: own.frames } w₂.state ∧
      Quiet w.state.heap w₂.state.heap ∧
      w₂.state.heap.lockTarget? method receiver = w.state.heap.lockTarget? method receiver ∧
      ∀ o, w₂.state.heap.monitor o = w.state.heap.monitor o := by
  rw [← heap_of_updateThread pushed]
  refine ⟨declaringClass_own (pushFrame_own stands pushed) ready, declaringClass_quiet ready,
    declaringClass_keeps_view (fun h => h.lockTarget? method receiver)
      (fun h => h.lockTarget?_classObject method receiver)
      (fun h => h.lockTarget?_barrier method receiver) ready, fun o => ?_⟩
  exact declaringClass_keeps_view (fun h => h.monitor o)
    (fun h => h.monitor_classObject method.className o) (fun _ => rfl) ready

theorem enter_monitors {entry : Started} (sound : w.state.heap.Sound)
    (stands : Stands t own w.state)
    (known : ∀ o, receiver = some o → ∃ i, w.state.heap.monitorId? o = some i)
    (run : enter b t method receiver w = .ok entry w') :
    if method.isSynchronized then
      ∃ i, w'.state.heap.lockMonitor? method receiver = some i ∧
        (∃ target, w.state.heap.lockTarget? method receiver = some target ∧
          w'.state.heap.monitorId? target = some i ∧
          w.state.heap.monitor target = w.state.heap.monitorAt i) ∧
        Locked t i w.state.heap w'.state.heap
    else Quiet w.state.heap w'.state.heap := by
  obtain ⟨_, w₁, pushed, run⟩ := Act.bind_eq_ok.1 run
  obtain ⟨_, w₂, found, run⟩ := Act.bind_eq_ok.1 run
  obtain ⟨stands, quiet, target, unused⟩ := prepared stands pushed found
  obtain ⟨mark, w₃, begun, run⟩ := Act.bind_eq_ok.1 run
  obtain ⟨-, rfl⟩ := Act.pure_eq_ok.1 run
  rw [Crossing.beginMethod_eq] at begun
  obtain ⟨_, w₄, checked, begun⟩ := Act.bind_eq_ok.1 begun
  obtain ⟨-, rfl⟩ := (Crossing.checkSynchronizedTier_eq_ok b).1 checked
  obtain ⟨_, w₅, locked, begun⟩ := Act.bind_eq_ok.1 begun
  have last := beginTier_quiet begun
  cases isSynchronized : method.isSynchronized with
  | false =>
    rw [Crossing.lockFor, isSynchronized] at locked
    obtain ⟨-, rfl⟩ := Act.pure_eq_ok.1 locked
    simpa using quiet.trans last
  | true =>
    have sound₂ := Heap.Leads.sound quiet.leads sound
    have known₂ : ∀ o, receiver = some o → ∃ i, w₂.state.heap.monitorId? o = some i := by
      intro o named
      obtain ⟨i, before⟩ := known o named
      exact ⟨i, (Heap.Leads.extends quiet.leads).monitorId? before⟩
    obtain ⟨i, monitor, ⟨o, located, monitorOf, before⟩, locking⟩ :=
      Crossing.lockFor_locks isSynchronized sound₂ stands rfl known₂ locked
    have sound₅ := Heap.Leads.sound locking.leads sound₂
    rw [target] at located
    simp only [if_true]
    refine ⟨i, Heap.lockMonitor?_of_leads sound₅ last.leads monitor,
      ⟨o, located, (Heap.Leads.extends last.leads).monitorId? monitorOf, ?_⟩,
      (quiet.locked locking).quiet last⟩
    rw [← unused, before, quiet.monitors]

theorem enter_allowed {entry : Started} (run : enter b t method receiver w = .ok entry w') :
    ¬(b.settings.verifyTiers ∧ method.isSynchronized ∧ method.tier ≠ .normal) := by
  obtain ⟨_, w₁, pushed, run⟩ := Act.bind_eq_ok.1 run
  obtain ⟨_, w₂, found, run⟩ := Act.bind_eq_ok.1 run
  obtain ⟨mark, w₃, begun, run⟩ := Act.bind_eq_ok.1 run
  rw [Crossing.beginMethod_eq] at begun
  obtain ⟨_, w₄, checked, begun⟩ := Act.bind_eq_ok.1 begun
  exact ((Crossing.checkSynchronizedTier_eq_ok b).1 checked).1

/-- What the end of a call does to the monitors: it exits that of a synchronized call, unless that
is not the thread's any more. -/
theorem leave_monitors {saved : ScopeMark} {registers : Registers}
    {result : CallResult ObjectId} {outer : List Frame} (sound : w.state.heap.Sound)
    (stands : Stands t own w.state) (top : own.frames = { method, receiver } :: outer)
    (run : leave b t method saved registers w = .ok result w') :
    if method.isSynchronized then
      ∀ i, w.state.heap.lockMonitor? method receiver = some i →
        Unlocked t i w.state.heap w'.state.heap ∨
          (w.state.heap.monitorAt i).owner ≠ some t ∧ Quiet w.state.heap w'.state.heap
    else Quiet w.state.heap w'.state.heap := by
  obtain ⟨_, w₁, ended, run⟩ := Act.bind_eq_ok.1 run
  obtain ⟨_, w₂, popped, run⟩ := Act.bind_eq_ok.1 run
  obtain ⟨-, rfl⟩ := Act.pure_eq_ok.1 run
  rw [heap_of_updateThread popped]
  rw [Crossing.endMethod_eq] at ended
  obtain ⟨_, w₃, finished, ended⟩ := Act.bind_eq_ok.1 ended
  replace stands := Crossing.finishTier_own stands finished
  have first := finishTier_quiet finished
  obtain ⟨_, w₄, unlocked, ended⟩ := Act.bind_eq_ok.1 ended
  have last := deliver_quiet ended
  cases isSynchronized : method.isSynchronized with
  | false =>
    rw [Crossing.unlockFor, isSynchronized] at unlocked
    obtain ⟨-, rfl⟩ := Act.pure_eq_ok.1 unlocked
    simpa using first.trans last
  | true =>
    simp only [if_true]
    intro i known
    have sound₃ := Heap.Leads.sound first.leads sound
    have top₃ : (own.returned method.tier).frames = { method, receiver } :: outer := by
      rw [Thread.frames_returned, top]
    have known₃ := Heap.lockMonitor?_of_leads sound first.leads known
    obtain unlocking | ⟨notOwned, quiet⟩ :=
      Crossing.unlockFor_unlocks isSynchronized sound₃ stands top₃ known₃ unlocked
    · exact .inl ((first.unlocked unlocking).quiet last)
    · rw [first.monitors] at notOwned
      exact .inr ⟨notOwned, (first.trans quiet).trans last⟩

end Call

end NativeBoundary
