import Mathlib.Data.List.Infix
import NativeBoundary.Proofs.Call.Locking
import NativeBoundary.Proofs.Call.Restored

/-!
# The balance of a monitor over a synchronized call

Native code may enter and exit the monitor of the call that it is in, and call other synchronized
methods, of the same object too.  As long as it has not exited the monitor more often than entered
it, the level that the call itself took stays: at each moment the thread owns the monitor with the
level of the start, one more for the call, and those that native code and nested calls have on top.
-/

set_option autoImplicit false

namespace NativeBoundary

/-! ## Enters and exits of native code -/

namespace Moment

def enters (target : ObjectId) (moment : Moment) : Bool :=
  match moment.next with
  | some (.enterMonitor o) => moment.world.state.heap.sameMonitor o target
  | _ => false

def exits (target : ObjectId) (moment : Moment) : Bool :=
  match moment.next with
  | some (.exitMonitor o) => moment.world.state.heap.sameMonitor o target
  | _ => false

def receiver? (moment : Moment) : Option ObjectId :=
  match moment.next with
  | some (.call _ receiver _ _) => receiver
  | _ => none

end Moment

/-- Through the first of some moments, however many of them, native code does not bring a level down
below a floor. -/
def Floored (target : ObjectId) (floor level : Nat) (moments : List Moment) : Prop :=
  ∀ first, first <+: moments →
    floor + first.countP (Moment.exits target) ≤ level + first.countP (Moment.enters target)

def Received (moments : List Moment) : Prop :=
  ∀ moment ∈ moments, ∀ o ∈ moment.receiver?,
    (moment.world.state.heap.copy? o).isSome = true

theorem Received.monitorId? {moments : List Moment} {moment : Moment} {o : ObjectId}
    (received : Received moments) (member : moment ∈ moments)
    (named : moment.receiver? = some o) : ∃ i, moment.world.state.heap.monitorId? o = some i := by
  obtain ⟨copy, found⟩ := Option.isSome_iff_exists.1 (received moment member o named)
  exact ⟨copy.monitor, by rw [Heap.monitorId?, found]; rfl⟩

namespace Floored

variable {target : ObjectId} {floor level level' : Nat} {first rest : List Moment}

theorem floor_le (floored : Floored target floor level rest) : floor ≤ level := by
  simpa using floored [] (List.nil_prefix)

theorem append_left (floored : Floored target floor level (first ++ rest)) :
    Floored target floor level first :=
  fun part inside => floored part (inside.trans (List.prefix_append first rest))

theorem append_right (floored : Floored target floor level (first ++ rest))
    (moved : level' + first.countP (Moment.exits target) =
      level + first.countP (Moment.enters target)) :
    Floored target floor level' rest := by
  intro part inside
  have whole := floored (first ++ part) ((List.prefix_append_right_inj first).2 inside)
  rw [List.countP_append, List.countP_append] at whole
  omega

theorem of_cons {moment : Moment} (floored : Floored target floor level (moment :: rest))
    (noEnter : moment.enters target = false) (noExit : moment.exits target = false) :
    Floored target floor level rest := by
  rw [← List.singleton_append] at floored
  exact floored.append_right (by simp [noEnter, noExit])

theorem raise (floored : Floored target floor level rest) (more : Nat) :
    Floored target (floor + more) (level + more) rest := by
  intro part inside
  have before := floored part inside
  omega

end Floored

/-! ## One level of a monitor -/

namespace Heap

def Held (t : ThreadId) (i : MonitorId) (level : Nat) (h : Heap) : Prop :=
  (h.monitorAt i).owner = some t ∧ (h.monitorAt i).recursion = level

variable {t : ThreadId} {i j : MonitorId} {level : Nat} {h h' : Heap}

theorem Held.quiet (held : Held t i level h) (quiet : Quiet h h') : Held t i level h' := by
  unfold Held at *
  rw [quiet.monitors i]
  exact held

theorem Held.locked (sound : Sound h) (held : Held t i level h) (locked : Locked t j h h') :
    Held t i (if j = i then level + 1 else level) h' := by
  by_cases same : j = i
  · subst same
    obtain ⟨-, owner, recursion⟩ := Monitor.of_tryEnter (sound.monitorAt j) locked.entered
    rw [if_pos rfl]
    exact ⟨owner, by rw [recursion, held.2]⟩
  · rw [if_neg same]
    unfold Held at *
    rw [locked.others i fun equal => same equal.symm]
    exact held

/-- A monitor that the thread owns with more than one level is its own after an exit, too. -/
theorem Held.unlocked (held : Held t i level h) (unlocked : Unlocked t j h h')
    (more : j = i → 2 ≤ level) :
    Held t i (if j = i then level - 1 else level) h' := by
  by_cases same : j = i
  · subst same
    obtain ⟨-, recursion, owner⟩ := Monitor.of_exit unlocked.exited
    have before := held.2
    have enough := more rfl
    rw [if_pos rfl]
    refine ⟨?_, by omega⟩
    rw [owner, if_neg (by omega)]
  · rw [if_neg same]
    unfold Held at *
    rw [unlocked.others i fun equal => same equal.symm]
    exact held

end Heap

namespace Call

open Machine (Stands)
open Heap (Quiet Locked Unlocked Held)

variable {b : Boundary} {t : ThreadId} {own : Thread} {w w' : MachineWorld}
  {target : ObjectId} {i : MonitorId} {level : Nat}

/-! ## One instruction -/

theorem plain_quiet {first : Instruction} (plain : first.isCall = false)
    (notEnter : ∀ o, first ≠ .enterMonitor o) (notExit : ∀ o, first ≠ .exitMonitor o) {u : Unit}
    (run : perform b t first w = .ok u w') : Quiet w.state.heap w'.state.heap := by
  have does := perform_does plain run
  have same (kept : w'.state.heap = w.state.heap) : Quiet w.state.heap w'.state.heap := by
    rw [kept]
    exact .refl _
  cases first with
  | call method receiver body registers => exact does.elim
  | enterMonitor o => exact absurd rfl (notEnter o)
  | exitMonitor o => exact absurd rfl (notExit o)
  | newObject className =>
    obtain ⟨handle, added⟩ := does
    rw [← (Machine.addLocal_eq_ok.1 added).2]
    exact Heap.quiet_step _ (.allocate className)
  | newLocal o =>
    obtain ⟨handle, added⟩ := does
    exact same (by rw [← (Machine.addLocal_eq_ok.1 added).2]; rfl)
  | throw exception => exact same (by rw [← does]; rfl)
  | heap step =>
    rw [← does]
    exact Heap.quiet_step _ step
  | toManaged => exact same (Machine.heap_of_toManaged does)
  | toNative => exact same (Machine.heap_of_toNative does)

theorem enterMonitor_monitors {o : ObjectId} (sound : w.state.heap.Sound) {u : Unit}
    (run : perform b t (.enterMonitor o) w = .ok u w') :
    (∃ j, w.state.heap.monitorId? o = some j ∧ Locked t j w.state.heap w'.state.heap) ∨
      w.state.heap.monitorId? o = none ∧ Quiet w.state.heap w'.state.heap := by
  obtain ⟨between, entered, after⟩ := Machine.nativeEnter_eq_ok.1 (perform_does rfl run)
  obtain ⟨state, granted, rfl⟩ := Machine.enterMonitor_eq_ok.1 entered
  rw [← after]
  cases monitor : w.state.heap.monitorId? o with
  | some j => exact .inl ⟨j, rfl, Heap.locked_setMonitor sound monitor granted⟩
  | none =>
    have same : w.state.heap.setMonitor o state = w.state.heap :=
      Heap.setMonitor_of_no_copy monitor state
    exact .inr ⟨rfl, same.symm ▸ .refl _⟩

theorem exitMonitor_monitors {o : ObjectId} (sound : w.state.heap.Sound) {u : Unit}
    (run : perform b t (.exitMonitor o) w = .ok u w') :
    (∃ j, w.state.heap.monitorId? o = some j ∧ Unlocked t j w.state.heap w'.state.heap) ∨
      (∀ j, w.state.heap.monitorId? o = some j → (w.state.heap.monitorAt j).owner ≠ some t) ∧
        Quiet w.state.heap w'.state.heap := by
  have exited : ∃ result between, Machine.exitMonitor t o w.state = .ok result between ∧
      w'.state.heap = between.heap := by
    obtain ⟨between, ⟨exit, after⟩ | ⟨exception, exit, after⟩⟩ :=
      Machine.nativeExitOrThrow_of_ok (perform_does rfl run)
    · exact ⟨_, between, exit, by rw [← after]; rfl⟩
    · exact ⟨_, between, exit, by rw [← after]; rfl⟩
  obtain ⟨result, between, exit, heap⟩ := exited
  rw [heap]
  obtain ⟨state, given, -, rfl⟩ | ⟨misuse, refused, -, rfl⟩ := Machine.exitMonitor_eq_ok.1 exit
  · cases monitor : w.state.heap.monitorId? o with
    | some j => exact .inl ⟨j, rfl, Heap.unlocked_setMonitor sound monitor given⟩
    | none =>
      have same : w.state.heap.setMonitor o state = w.state.heap :=
        Heap.setMonitor_of_no_copy monitor state
      exact .inr ⟨by simp, same.symm ▸ .refl _⟩
  · refine .inr ⟨fun j monitor owned => ?_, .refl _⟩
    obtain ⟨state, given⟩ := Monitor.exit_of_owner (sound.monitorAt j) owned
    rw [Heap.monitor_eq_monitorAt monitor, given] at refused
    simp at refused

/-- A thread that owns a monitor still owns it after an instruction of native code, unless that
takes the last level. -/
theorem plain_held {first : Instruction} (plain : first.isCall = false)
    (sound : w.state.heap.Sound) (known : w.state.heap.monitorId? target = some i)
    (held : Held t i level w.state.heap)
    (more : [⟨w, some first⟩].countP (Moment.exits target) + 1 ≤ level) {u : Unit}
    (run : perform b t first w = .ok u w') :
    Heap.Leads w.state.heap w'.state.heap ∧
      ∃ level', Held t i level' w'.state.heap ∧
        level' + [⟨w, some first⟩].countP (Moment.exits target) =
          level + [⟨w, some first⟩].countP (Moment.enters target) := by
  by_cases enters : ∃ o, first = .enterMonitor o
  · obtain ⟨o, rfl⟩ := enters
    obtain ⟨j, monitor, locked⟩ | ⟨monitor, quiet⟩ := enterMonitor_monitors sound run
    · refine ⟨locked.leads, _, held.locked sound locked, ?_⟩
      by_cases same : j = i
      · simp [Moment.exits, Moment.enters, Heap.sameMonitor, monitor, known, same]
      · simp [Moment.exits, Moment.enters, Heap.sameMonitor, monitor, known, same]
    · refine ⟨quiet.leads, level, held.quiet quiet, ?_⟩
      simp [Moment.exits, Moment.enters, Heap.sameMonitor, monitor, known]
  by_cases exits : ∃ o, first = .exitMonitor o
  · obtain ⟨o, rfl⟩ := exits
    obtain ⟨j, monitor, unlocked⟩ | ⟨others, quiet⟩ := exitMonitor_monitors sound run
    · by_cases same : j = i
      · subst same
        have exiting : [⟨w, some (.exitMonitor o)⟩].countP (Moment.exits target) = 1 := by
          simp [Moment.exits, Heap.sameMonitor, monitor, known]
        have notEntering : [⟨w, some (.exitMonitor o)⟩].countP (Moment.enters target) = 0 := by
          simp [Moment.enters]
        rw [exiting] at more
        refine ⟨unlocked.leads, _, held.unlocked unlocked fun _ => more, ?_⟩
        rw [exiting, notEntering, if_pos rfl]
        omega
      · refine ⟨unlocked.leads, _, held.unlocked unlocked fun equal => absurd equal same, ?_⟩
        simp [Moment.exits, Moment.enters, Heap.sameMonitor, monitor, known, same]
    · refine ⟨quiet.leads, level, held.quiet quiet, ?_⟩
      have apart : w.state.heap.monitorId? o ≠ some i := fun monitor => others i monitor held.1
      simp [Moment.exits, Moment.enters, Heap.sameMonitor, known, apart]
  · have quiet := plain_quiet plain (fun o equal => enters ⟨o, equal⟩)
      (fun o equal => exits ⟨o, equal⟩) run
    refine ⟨quiet.leads, level, held.quiet quiet, ?_⟩
    cases first <;> simp_all [Moment.exits, Moment.enters]

/-! ## The two thresholds of a call -/

/-- What the end of a call takes away of the levels of a monitor, from any later moment of the same
call on. -/
def Takes (b : Boundary) (t : ThreadId) (i : MonitorId) (method : Method)
    (receiver : Option ObjectId) (k : Nat) (started : MachineWorld) : Prop :=
  ∀ (own : Thread) (outer : List Frame) (ended after : MachineWorld) (level : Nat)
    (saved : ScopeMark) (registers : Registers) (result : CallResult ObjectId),
    Heap.Leads started.state.heap ended.state.heap → Stands t own ended.state →
    own.frames = { method, receiver } :: outer → Held t i level ended.state.heap →
    k + 1 ≤ level → leave b t method saved registers ended = .ok result after →
    Heap.Leads ended.state.heap after.state.heap ∧
      ∃ level', Held t i level' after.state.heap ∧ level' + k = level

/-- A call takes at its end the levels that it has brought at its beginning. -/
theorem enter_brings {method : Method} {receiver : Option ObjectId} {entry : Started}
    {started : MachineWorld} (stands : Stands t own w.state) (sound : w.state.heap.Sound)
    (held : Held t i level w.state.heap)
    (receiverKnown : ∀ o, receiver = some o → ∃ j, w.state.heap.monitorId? o = some j)
    (entering : enter b t method receiver w = .ok entry started) :
    Heap.Leads w.state.heap started.state.heap ∧
      ∃ k, Held t i (level + k) started.state.heap ∧
        Takes b t i method receiver k started := by
  have monitors := enter_monitors sound stands receiverKnown entering
  cases isSynchronized : method.isSynchronized with
  | false =>
    have quiet : Quiet w.state.heap started.state.heap := by simpa [isSynchronized] using monitors
    refine ⟨quiet.leads, 0, held.quiet quiet, ?_⟩
    intro own outer ended after level saved registers result leads stands top held _ leaving
    have sound' := Heap.Leads.sound (quiet.leads.trans leads) sound
    have left := leave_monitors sound' stands top leaving
    have quiet' : Quiet ended.state.heap after.state.heap := by simpa [isSynchronized] using left
    exact ⟨quiet'.leads, level, held.quiet quiet', rfl⟩
  | true =>
    simp only [isSynchronized, if_true] at monitors
    obtain ⟨j, locks, -, locked⟩ := monitors
    have soundStarted := Heap.Leads.sound locked.leads sound
    refine ⟨locked.leads, if j = i then 1 else 0, ?_, ?_⟩
    · have after := held.locked sound locked
      by_cases same : j = i
      · simpa [same] using after
      · simpa [same] using after
    · intro own outer ended after level saved registers result leads stands top held more leaving
      have sound' := Heap.Leads.sound leads soundStarted
      have locks' := Heap.lockMonitor?_of_leads soundStarted leads locks
      have left := leave_monitors sound' stands top leaving
      simp only [isSynchronized, if_true] at left
      obtain unlocked | ⟨notOwned, quiet⟩ := left j locks'
      · by_cases same : j = i
        · rw [if_pos same] at more ⊢
          refine ⟨unlocked.leads, _, held.unlocked unlocked fun _ => more, ?_⟩
          rw [if_pos same]
          omega
        · rw [if_neg same] at more ⊢
          refine ⟨unlocked.leads, _, held.unlocked unlocked fun equal => absurd equal same, ?_⟩
          rw [if_neg same, Nat.add_zero]
      · have apart : j ≠ i := by
          intro equal
          rw [equal] at notOwned
          exact notOwned held.1
        exact ⟨quiet.leads, level, held.quiet quiet, by simp [apart]⟩

/-! ## Bodies -/

/-- What holds of an action with its moments, from every start at which the thread owns a monitor
with some levels, of which native code leaves a floor alone. -/
def Guarded {α : Type} (t : ThreadId) (moments : MachineWorld → List Moment) (action : Call α) :
    Prop :=
  ∀ (own : Thread) (w : MachineWorld) (target : ObjectId) (i : MonitorId) (floor level : Nat),
    Stands t own w.state → w.state.heap.Sound → w.state.heap.monitorId? target = some i →
    Held t i level w.state.heap → 1 ≤ floor →
    Received (moments w) → Floored target floor level (moments w) →
    (∀ moment ∈ moments w, moment.world.state.heap.monitorId? target = some i ∧
      ∃ n, floor ≤ n ∧ Held t i n moment.world.state.heap) ∧
      ∀ a w', action w = .ok a w' →
        (∃ own', Stands t own' w'.state ∧ own'.frames = own.frames) ∧
          Heap.Leads w.state.heap w'.state.heap ∧
          ∃ level', Held t i level' w'.state.heap ∧
            level' + (moments w).countP (Moment.exits target) =
              level + (moments w).countP (Moment.enters target)

theorem plain_guarded {first : Instruction} (plain : first.isCall = false) :
    Guarded t (fun w => [⟨w, some first⟩]) (perform b t first) := by
  intro own w target i floor level stands sound known held positive _ floored
  have above := floored.floor_le
  have whole : floor + [⟨w, some first⟩].countP (Moment.exits target) ≤
      level + [⟨w, some first⟩].countP (Moment.enters target) := floored _ List.prefix_rfl
  have notBoth : [⟨w, some first⟩].countP (Moment.exits target) = 0 ∨
      [⟨w, some first⟩].countP (Moment.enters target) = 0 := by
    cases first <;> simp [Moment.exits, Moment.enters]
  refine ⟨fun moment member => ?_, fun u w' run => ?_⟩
  · obtain rfl := List.mem_singleton.1 member
    exact ⟨known, level, above, held⟩
  · obtain ⟨leads, after⟩ := plain_held plain sound known held (by omega) run
    exact ⟨plain_frames plain stands run, leads, after⟩

/-- A nested call has its own level on top, if it locks the monitor, and takes it away at its end.
-/
theorem call_guarded {method : Method} {receiver : Option ObjectId} {body : List Instruction}
    {registers : Registers} (guarded : Guarded t (course b t body) (performAll b t body)) :
    Guarded t
      (fun w => ⟨w, some (.call method receiver body registers)⟩ ::
        momentsOf b t (.call method receiver body registers) w)
      (invoke b t method receiver body registers) := by
  intro own w target i floor level stands sound known held positive received floored
  have above := floored.floor_le
  have receiverKnown : ∀ o, receiver = some o → ∃ j, w.state.heap.monitorId? o = some j :=
    fun o named => received.monitorId? List.mem_cons_self named
  cases entering : enter b t method receiver w with
  | error why stopped =>
    refine ⟨fun moment member => ?_, fun result w' run => ?_⟩
    · simp only [momentsOf, entering, List.mem_singleton] at member
      rw [member]
      exact ⟨known, level, above, held⟩
    · have stopped := (Act.bind_of_error entering).symm.trans run
      cases stopped
  | ok entry started =>
    simp only [momentsOf_call entering] at received floored ⊢
    have noEnter : Moment.enters target ⟨w, some (.call method receiver body registers)⟩ = false :=
      rfl
    have noExit : Moment.exits target ⟨w, some (.call method receiver body registers)⟩ = false :=
      rfl
    have within := floored.of_cons noEnter noExit
    obtain ⟨-, -, standsStarted⟩ := enter_own stands entering
    obtain ⟨leads, k, heldStarted, takes⟩ :=
      enter_brings stands sound held receiverKnown entering
    obtain ⟨inside, whole⟩ := guarded _ started target i (floor + k) (level + k) standsStarted
      (Heap.Leads.sound leads sound) ((Heap.Leads.extends leads).monitorId? known) heldStarted
      (by omega) (fun moment member => received moment (List.mem_cons_of_mem _ member))
      (within.raise k)
    refine ⟨fun moment member => ?_, fun result w' run => ?_⟩
    · rcases List.mem_cons.1 member with rfl | later
      · exact ⟨known, level, above, held⟩
      · obtain ⟨still, n, higher, here⟩ := inside moment later
        exact ⟨still, n, by omega, here⟩
    · have inner := (Act.bind_of_ok entering).symm.trans run
      obtain ⟨_, ended, performed, leaving⟩ := Act.bind_eq_ok.1 inner
      obtain ⟨⟨inner, standsEnded, frames⟩, leads', level', heldEnded, balance⟩ :=
        whole _ ended performed
      have top : inner.frames = { method, receiver } :: own.frames := by
        rw [frames, Thread.frames_entered]
      have enough := within _ List.prefix_rfl
      obtain ⟨leads'', level'', heldAfter, taken⟩ :=
        takes inner own.frames ended w' level' _ registers result leads' standsEnded top heldEnded
          (by omega) leaving
      refine ⟨⟨_, leave_own standsEnded leaving, ?_⟩, (leads.trans leads').trans leads'', level'',
        heldAfter, ?_⟩
      · rw [Thread.frames_left, top, List.tail_cons]
      · rw [List.countP_cons_of_neg (by simp [noExit]),
          List.countP_cons_of_neg (by simp [noEnter])]
        omega

theorem cons_guarded {first : Instruction} {rest : List Instruction}
    (single : Guarded t (fun w => ⟨w, some first⟩ :: momentsOf b t first w) (perform b t first))
    (later : Guarded t (course b t rest) (performAll b t rest)) :
    Guarded t (course b t (first :: rest)) (performAll b t (first :: rest)) := by
  intro own w target i floor level stands sound known held positive received floored
  rw [course_cons] at received floored ⊢
  obtain ⟨here, done⟩ := single own w target i floor level stands sound known held positive
    (fun moment member => received moment (List.mem_append_left _ member)) floored.append_left
  cases doing : perform b t first w with
  | error why stopped =>
    simp only [List.append_nil]
    refine ⟨here, fun u w' run => ?_⟩
    simp only [performAll] at run
    rw [Act.bind_of_error doing] at run
    cases run
  | ok u between =>
    simp only [doing] at received floored ⊢
    obtain ⟨⟨own₁, stands₁, frames₁⟩, leads₁, level₁, held₁, balance₁⟩ := done u between doing
    simp only at balance₁
    obtain ⟨after, ended⟩ := later own₁ between target i floor level₁ stands₁
      (Heap.Leads.sound leads₁ sound) ((Heap.Leads.extends leads₁).monitorId? known) held₁ positive
      (fun moment member => received moment (List.mem_append_right _ member))
      (floored.append_right balance₁)
    refine ⟨fun moment member => ?_, fun u' w' run => ?_⟩
    · rcases List.mem_append.1 member with before | member
      · exact here moment before
      · exact after moment member
    · simp only [performAll] at run
      rw [Act.bind_of_ok doing] at run
      obtain ⟨⟨own', stands', frames'⟩, leads', level', held', balance'⟩ := ended u' w' run
      refine ⟨⟨own', stands', frames'.trans frames₁⟩, leads₁.trans leads', level', held', ?_⟩
      rw [List.countP_append, List.countP_append]
      omega

/-- Every body leaves the floor alone. -/
theorem performAll_guarded (body : List Instruction) :
    Guarded t (course b t body) (performAll b t body) := by
  induction body using Instruction.bodyInduction with
  | nil =>
    intro own w target i floor level stands sound known held positive received floored
    have above := floored.floor_le
    refine ⟨fun moment member => ?_, fun u w' run => ?_⟩
    · simp only [course, List.mem_singleton] at member
      rw [member]
      exact ⟨known, level, above, held⟩
    · simp only [performAll] at run
      obtain ⟨-, rfl⟩ := Act.pure_eq_ok.1 run
      exact ⟨⟨own, stands, rfl⟩, .refl, level, held, by simp [course, Moment.exits, Moment.enters]⟩
  | plain first rest plain ih =>
    refine cons_guarded ?_ ih
    have noMoments (w : MachineWorld) : momentsOf b t first w = [] := by
      cases first <;> simp_all [momentsOf, Instruction.isCall]
    simpa only [noMoments] using plain_guarded plain
  | call method receiver body registers rest guarded ih =>
    refine cons_guarded ?_ ih
    intro own w target i floor level stands sound known held positive received floored
    obtain ⟨here, done⟩ := call_guarded guarded own w target i floor level stands sound known held
      positive received floored
    refine ⟨here, fun u w' run => ?_⟩
    obtain ⟨result, invoked⟩ := perform_call run
    exact done result w' invoked

/-! ## Synchronized calls -/

/-- The machine at the start or the end of the body of a synchronized call: the frame of the call is
the innermost one, its object has a monitor, and the thread owns that with so many levels. -/
structure InBody (t : ThreadId) (method : Method) (receiver : Option ObjectId) (target : ObjectId)
    (i : MonitorId) (level : Nat) (m : Machine) : Prop where
  sound : m.heap.Sound
  stands : ∃ own outer, Stands t own m ∧ own.frames = { method, receiver } :: outer
  monitor : m.heap.lockMonitor? method receiver = some i
  monitorOf : m.heap.monitorId? target = some i
  held : Held t i level m.heap

section Synchronized

variable {method : Method} {receiver : Option ObjectId} {entry : Started}
  {started ended : MachineWorld} {body : List Instruction} {level : Nat}

/-- At the start of the body of a synchronized call the thread owns the monitor of the call, with
one level more than before. -/
theorem enter_inBody (isSynchronized : method.isSynchronized = true)
    (sound : w.state.heap.Sound) (stands : Stands t own w.state)
    (locks : w.state.heap.lockTarget? method receiver = some target)
    (known : ∀ o, receiver = some o → ∃ j, w.state.heap.monitorId? o = some j)
    (entering : enter b t method receiver w = .ok entry started) :
    ∃ i, InBody t method receiver target i ((w.state.heap.monitor target).recursion + 1)
        started.state ∧
      ((w.state.heap.monitor target).owner = none ∨
        (w.state.heap.monitor target).owner = some t) := by
  obtain ⟨-, -, standsStarted⟩ := enter_own stands entering
  have monitors := enter_monitors sound stands known entering
  simp only [isSynchronized, if_true] at monitors
  obtain ⟨i, monitor, ⟨o, located, monitorOf, before⟩, locked⟩ := monitors
  obtain rfl : o = target := Option.some.inj (located.symm.trans locks)
  obtain ⟨free, owner, recursion⟩ := Monitor.of_tryEnter (sound.monitorAt i) locked.entered
  rw [← before] at free recursion
  exact ⟨i,
    { sound := Heap.Leads.sound locked.leads sound
      stands := ⟨_, _, standsStarted, Thread.frames_entered ..⟩
      monitor
      monitorOf
      held := ⟨owner, recursion⟩ }, free⟩

namespace InBody

/-- The thread owns the monitor throughout a body whose native code leaves the level of the call
alone. -/
theorem during (inside : InBody t method receiver target i level started.state)
    (positive : 1 ≤ level) (received : Received (course b t body started))
    (covered : ∀ first, first <+: course b t body started →
      first.countP (Moment.exits target) ≤ first.countP (Moment.enters target)) :
    ∀ moment ∈ course b t body started,
      (moment.world.state.heap.monitor target).owner = some t ∧
        level ≤ (moment.world.state.heap.monitor target).recursion := by
  obtain ⟨own, outer, stands, -⟩ := inside.stands
  obtain ⟨here, -⟩ := performAll_guarded body own started target i level level stands inside.sound
    inside.monitorOf inside.held positive received
    fun first part => Nat.add_le_add_left (covered first part) level
  intro moment member
  obtain ⟨still, n, above, owned⟩ := here moment member
  rw [Heap.monitor_eq_monitorAt still]
  exact ⟨owned.1, by rw [owned.2]; exact above⟩

/-- A body that has exited the monitor as often as entered it ends with the level it began with. -/
theorem performed (inside : InBody t method receiver target i level started.state)
    (positive : 1 ≤ level) (received : Received (course b t body started))
    (covered : ∀ first, first <+: course b t body started →
      first.countP (Moment.exits target) ≤ first.countP (Moment.enters target)) {u : Unit}
    (run : performAll b t body started = .ok u ended)
    (balanced : (course b t body started).countP (Moment.exits target) =
      (course b t body started).countP (Moment.enters target)) :
    InBody t method receiver target i level ended.state := by
  obtain ⟨own, outer, stands, top⟩ := inside.stands
  obtain ⟨-, done⟩ := performAll_guarded body own started target i level level stands inside.sound
    inside.monitorOf inside.held positive received
    fun first part => Nat.add_le_add_left (covered first part) level
  obtain ⟨⟨own', stands', frames⟩, leads, level', held, balance⟩ := done u ended run
  have same : level' = level := by omega
  exact
    { sound := Heap.Leads.sound leads inside.sound
      stands := ⟨own', outer, stands', frames.trans top⟩
      monitor := Heap.lockMonitor?_of_leads inside.sound leads inside.monitor
      monitorOf := (Heap.Leads.extends leads).monitorId? inside.monitorOf
      held := same ▸ held }

/-- Back in managed code after the body, the monitor can be unlocked, and nothing is raised. -/
theorem unlockFor_returns (inside : InBody t method receiver target i level ended.state)
    (isSynchronized : method.isSynchronized = true)
    (allowed : ¬(b.settings.verifyTiers ∧ method.isSynchronized ∧ method.tier ≠ .normal))
    {u : Unit} {finished : MachineWorld}
    (finishing : Crossing.finishTier (Machine.host t) b method.tier ended = .ok u finished) :
    ∃ unlocked, Crossing.unlockFor (Machine.host t) b method finished = .ok () unlocked ∧
      (unlocked.state.thread t).pending = (finished.state.thread t).pending := by
  obtain ⟨own, outer, stands, top⟩ := inside.stands
  have quiet := finishTier_quiet finishing
  have still : (own.returned method.tier).frames = { method, receiver } :: outer := by
    rw [Thread.frames_returned, top]
  exact Crossing.unlockFor_returns isSynchronized allowed
    (Heap.Leads.sound quiet.leads inside.sound) (Crossing.finishTier_own stands finishing) still
    (Heap.lockMonitor?_of_leads inside.sound quiet.leads inside.monitor)
    (inside.held.quiet quiet).1

/-- The end of a call takes away the level that its beginning has brought, and leaves the monitor
as it was. -/
theorem leave_restores {before : Monitor}
    (inside : InBody t method receiver target i (before.recursion + 1) ended.state)
    (isSynchronized : method.isSynchronized = true) (counted : before.Level)
    (free : before.owner = none ∨ before.owner = some t) {saved : ScopeMark}
    {registers : Registers} {result : CallResult ObjectId}
    (leaving : leave b t method saved registers ended = .ok result w') :
    w'.state.heap.monitorId? target = some i ∧
      (w'.state.heap.monitorAt i).owner = before.owner ∧
      (w'.state.heap.monitorAt i).recursion = before.recursion := by
  obtain ⟨own, outer, stands, top⟩ := inside.stands
  have left := leave_monitors inside.sound stands top leaving
  simp only [isSynchronized, if_true] at left
  obtain unlocked | ⟨notOwned, -⟩ := left i inside.monitor
  · obtain ⟨-, recursion, owner⟩ := Monitor.of_exit unlocked.exited
    have same : (w'.state.heap.monitorAt i).recursion = before.recursion := by
      have here := inside.held.2
      omega
    refine ⟨(Heap.Leads.extends unlocked.leads).monitorId? inside.monitorOf, ?_, same⟩
    rw [owner, same]
    obtain none | own := free
    · rw [if_pos (counted.1 none), none]
    · have levels : before.recursion ≠ 0 := by
        intro zero
        rw [counted.2 zero] at own
        cases own
      rw [if_neg levels, own]
  · exact absurd inside.held.1 notOwned

end InBody

end Synchronized

/-- A synchronized call whose native code never exits the monitor of the call more often than it
entered it, and as often in the end: if the monitor is available it is entered; the thread owns it
at every moment of the body, with one level more than before at least; the unlock returns and
raises nothing; and after the call the monitor is, through every copy of the object, what it was
before. -/
theorem synchronized_invoke_keeps_monitor
    (b : Boundary) (t : ThreadId) (method : Method) (receiver : Option ObjectId)
    (body : List Instruction) (registers : Registers) (w : MachineWorld) (target : ObjectId)
    (history : w.state.heap.Reachable)
    (holdsShare : (w.state.thread t).holdsShare = true)
    (isSynchronized : method.isSynchronized = true)
    (locks : w.state.heap.lockTarget? method receiver = some target)
    (received : Received (course b t [.call method receiver body registers] w))
    (covered : ∀ first, first <+: momentsOf b t (.call method receiver body registers) w →
      first.countP (Moment.exits target) ≤ first.countP (Moment.enters target))
    (balanced : ∀ entry started u ended,
      enter b t method receiver w = .ok entry started →
      performAll b t body started = .ok u ended →
      (momentsOf b t (.call method receiver body registers) w).countP (Moment.exits target) =
        (momentsOf b t (.call method receiver body registers) w).countP (Moment.enters target)) :
    ((w.state.heap.monitor target).Available t →
      ∀ u pushed found ready, machine (Machine.pushFrame t method receiver) w = .ok u pushed →
        declaringClass t method pushed = .ok found ready →
        ∃ locked, Crossing.lockFor (Machine.host t) method ready = .ok () locked) ∧
      (∀ moment ∈ momentsOf b t (.call method receiver body registers) w,
        (moment.world.state.heap.monitor target).owner = some t ∧
          (w.state.heap.monitor target).recursion + 1 ≤
            (moment.world.state.heap.monitor target).recursion) ∧
      (∀ entry started u ended u' finished,
        enter b t method receiver w = .ok entry started →
        performAll b t body started = .ok u ended →
        Crossing.finishTier (Machine.host t) b method.tier ended = .ok u' finished →
        ∃ unlocked, Crossing.unlockFor (Machine.host t) b method finished = .ok () unlocked ∧
          (unlocked.state.thread t).pending = (finished.state.thread t).pending) ∧
      ∀ result w', invoke b t method receiver body registers w = .ok result w' →
        ∀ o, w'.state.heap.sameMonitor o target = true →
          (w'.state.heap.monitor o).owner = (w.state.heap.monitor target).owner ∧
            (w'.state.heap.monitor o).recursion = (w.state.heap.monitor target).recursion := by
  have stands := Stands.of_holdsShare holdsShare
  have sound := history.sound
  have known : ∀ o, receiver = some o → ∃ j, w.state.heap.monitorId? o = some j :=
    fun o named => received.monitorId? (moment_mem_course _ []) named
  constructor
  · intro available u pushed found ready pushing refreshing
    obtain ⟨standsReady, -, sameTarget, unchanged⟩ := prepared stands pushing refreshing
    rw [← unchanged] at available
    exact Crossing.lockFor_returns isSynchronized standsReady holdsShare rfl
      (sameTarget.trans locks) available
  cases entering : enter b t method receiver w with
  | error why stopped =>
    refine ⟨by simp [momentsOf, entering], by simp, fun result w' run => ?_⟩
    have stopped := (Act.bind_of_error entering).symm.trans run
    cases stopped
  | ok entry started =>
    have moments : momentsOf b t (.call method receiver body registers) w =
        course b t body started := momentsOf_call entering
    have inner : Received (course b t body started) := by
      rw [← moments]
      exact fun moment member => received moment (momentsOf_subset_course _ [] member)
    rw [moments] at covered balanced ⊢
    obtain ⟨i, inside, free⟩ := enter_inBody isSynchronized sound stands locks known entering
    have atEnd {u : Unit} {ended : MachineWorld}
        (performed : performAll b t body started = .ok u ended) :=
      inside.performed (Nat.le_add_left 1 _) inner covered performed
        (balanced entry started u ended entering performed)
    refine ⟨inside.during (Nat.le_add_left 1 _) inner covered, ?_, fun result w' run o copy => ?_⟩
    · intro _ _ u ended u' finished entered performed finishing
      cases entered
      exact (atEnd performed).unlockFor_returns isSynchronized (enter_allowed entering) finishing
    · obtain ⟨_, ended, performed, leaving⟩ :=
        Act.bind_eq_ok.1 ((Act.bind_of_ok entering).symm.trans run)
      obtain ⟨monitorOf, owner, recursion⟩ :=
        (atEnd performed).leave_restores isSynchronized (sound.monitor target) free leaving
      have same : w'.state.heap.monitorId? o = some i := (of_decide_eq_true copy).trans monitorOf
      rw [Heap.monitor_eq_monitorAt same]
      exact ⟨owner, recursion⟩

/-- A static method of a class whose class object nobody has used yet. -/
def lockedMethod : Method where
  className := "Point"
  name := "move"
  shorty := "V"
  tier := .normal
  isSynchronized := true

/-- A body that moves the class object, frees the copy that was locked, and takes further levels
through both copies. -/
def movingBody : List Instruction :=
  [ .enterMonitor ⟨1⟩,
    .heap (.relocate ⟨1⟩),
    .heap (.free ⟨1⟩),
    .toManaged,
    .call lockedMethod none [.enterMonitor ⟨2⟩, .exitMonitor ⟨1⟩] {},
    .toNative,
    .exitMonitor ⟨2⟩ ]

theorem synchronized_invoke_keeps_monitor_moving :
    ∃ result w', invoke {} ⟨1⟩ lockedMethod none movingBody {} onManagedThread = .ok result w' ∧
      (w'.state.heap.monitor ⟨2⟩).owner = none ∧ (w'.state.heap.monitor ⟨2⟩).recursion = 0 := by
  have returns :
      (invoke {} ⟨1⟩ lockedMethod none movingBody {}).returns onManagedThread = true := by
    decide +kernel
  obtain ⟨result, w', returned⟩ := Act.exists_of_returns returns
  have history : onManagedThread.state.heap.Reachable :=
    ⟨true, true, .single (.step _ (.allocate "Point"))⟩
  have covered : ∀ first ∈ (momentsOf {} ⟨1⟩ (.call lockedMethod none movingBody {})
      onManagedThread).inits,
      first.countP (Moment.exits ⟨1⟩) ≤ first.countP (Moment.enters ⟨1⟩) := by decide +kernel
  have kept := synchronized_invoke_keeps_monitor {} ⟨1⟩ lockedMethod none movingBody {}
    onManagedThread ⟨1⟩ history (by decide +kernel) rfl (by decide +kernel)
    (by unfold Received; decide +kernel)
    (fun first inside => covered first ((List.mem_inits _ _).2 inside))
    (fun _ _ _ _ _ _ => by decide +kernel)
  have moved : (Act.stateOf (invoke {} ⟨1⟩ lockedMethod none movingBody {} onManagedThread)
      ).state.heap.sameMonitor ⟨2⟩ ⟨1⟩ = true := by decide +kernel
  rw [returned] at moved
  obtain ⟨owner, recursion⟩ := kept.2.2.2 result w' returned ⟨2⟩ moved
  refine ⟨result, w', returned, ?_, ?_⟩
  · rw [owner]
    decide +kernel
  · rw [recursion]
    decide +kernel

end Call

end NativeBoundary
