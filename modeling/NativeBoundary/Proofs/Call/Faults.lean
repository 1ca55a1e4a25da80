import NativeBoundary.Proofs.Call.HeapCourse
import NativeBoundary.Proofs.Call.Restored
import NativeBoundary.Proofs.Machine.Forwarding
import NativeBoundary.Proofs.Machine.Verdicts

/-!
# The faults of a call on the machine

A call whose body comes to its end can be stopped before the body, by its method and receiver alone,
or after it, by what the body has left.  The machine at the end of the body decides which faults are
due then; the first of them in the order of the steps is the one that is reported.  That the entry
points meet a method of another tier, or a table that has sunk below the base of the scope, is ruled
out by the frame of the call and by the references that its body can only add to.
-/

set_option autoImplicit false

namespace NativeBoundary

/-- Whether a fault is that of an entry point that meets a method of another tier, or of a table
that has sunk below the base of the scope. -/
def Fault.isStray : Fault → Bool
  | .tierMismatch .. | .scopeUnderflow .. => true
  | _ => false

namespace Call

open Machine (Stands Shows host exitFailure? executing_of_top)
open Crossing (Verdict)

variable {b : Boundary} {t : ThreadId} {own : Thread} {method : Method}
  {receiver : Option ObjectId} {others : Halt → Prop}

/-! ## Faults that are due -/

def faultBefore? (b : Boundary) (method : Method) (receiver : Option ObjectId) : Option Fault :=
  (method.synchronizedTier? b.settings.verifyTiers).or (method.noLockObject? receiver)

def unlockFailure? (t : ThreadId) (method : Method) (receiver : Option ObjectId) (h : Heap) :
    Option Throwable :=
  if method.isSynchronized then (h.lockTarget? method receiver).bind (exitFailure? t h) else none

def doubleFault? (first second : Option Throwable) : Option Fault := do
  pure (.doubleFault (← first).text (← second).text)

def returned? (pending : Option Throwable) (locals : LocalTable ObjectId) (handle : Handle) :
    Option ObjectId :=
  if pending.isSome then none else locals.get? handle

def badReference? (b : Boundary) (method : Method) (m : Machine) (result : Option ObjectId) :
    Option Fault :=
  if b.settings.checked ∧ method.returnsReference then
    (result.bind (m.rejection? method)).map (.badReference method.qualifiedName)
  else none

def faultAfter? (b : Boundary) (t : ThreadId) (method : Method) (receiver : Option ObjectId)
    (registers : Registers) (m : Machine) : Option Fault :=
  let thread := m.thread t
  let failure := unlockFailure? t method receiver m.heap
  let result := returned? (thread.pending.or failure) thread.locals registers.handle
  (doubleFault? thread.pending failure).or <| method.unknownReturn?.or <|
    method.criticalReference?.or <|
      (method.monitorsHeld? b.settings.checked thread.nativeMonitors.length).or <|
        badReference? b method m result

/-! ## The beginning -/

def Prepared (t : ThreadId) (own : Thread) (m : Machine) : Prop :=
  Stands t own m ∧ m.heap.Forward

theorem declaringClass_verdict :
    Verdict others (Prepared t own) (declaringClass t method) none fun _ => Stands t own := by
  have found : Verdict others (Prepared t own) (knownClass method) none fun _ =>
      Prepared t own := by
    refine Verdict.world fun w met => ?_
    cases w.state.root? method with
    | some o =>
      refine .pure o ?_
      rintro _ rfl
      exact met
    | none =>
      refine Verdict.run (.of_returns ?_)
      rintro _ rfl
      exact ⟨_, _, Machine.onHeap_eq_ok.2 ⟨rfl, rfl⟩, met.1.onHeap _,
        Heap.forward_step met.2 (.classObject method.className)⟩
  have fresh (o : ObjectId) : Verdict others (Prepared t own) (refreshed t o) none fun _ =>
      Stands t own := by
    refine Verdict.world fun w met => ?_
    split
    · next barrier =>
      refine .map _ (Crossing.refreshClass_verdict ?_ (.of_returns ?_) ?_)
      · rintro _ rfl
        exact barrier
      · rintro _ rfl
        obtain ⟨current, m, run⟩ := Machine.currentCopy_returns met.2 o
        exact ⟨current, m, run, met.1.currentCopy run⟩
      · rintro _ rfl
        exact met.1
    · refine .pure _ ?_
      rintro _ rfl
      exact met.1
  rw [declaringClass_eq]
  exact .branch (fun _ => .next found fresh) fun _ => .pure _ fun _ met => met.1

/-- The object to lock is looked for before anything else; the beginning faults if the tier forbids
the lock, or if there is no such object. -/
theorem seekLock_verdict {outer : List Frame}
    (top : own.frames = { method, receiver } :: outer) :
    Verdict others (Stands t own) (Crossing.seekLock (host t) b method)
      (faultBefore? b method receiver) fun _ => Stands t own := by
  refine .bind (Crossing.checkSynchronizedTier_verdict b method) fun _ _ => ?_
  have sought : Act.Verdict others (Stands t own) ((host t).lockObject method) none fun found m =>
      found.isNone = (!method.isStatic && receiver.isNone) ∧ Stands t own m := by
    refine .of_returns fun m stands => ?_
    have named : (m.thread t).receiver = receiver := by
      rw [stands.view Thread.receiver fun _ => rfl, Thread.receiver, top]
      rfl
    cases isStatic : method.isStatic with
    | true =>
      have run : (host t).lockObject method m = .ok _ _ :=
        Machine.lockObject_eq_ok.2 (by rw [if_pos isStatic]; exact ⟨rfl, rfl⟩)
      exact ⟨_, _, run, rfl, stands.onHeap _⟩
    | false =>
      have run : (host t).lockObject method m = .ok _ _ :=
        Machine.lockObject_eq_ok.2 (by rw [if_neg (by simp [isStatic])]; exact ⟨rfl, rfl⟩)
      exact ⟨_, _, run, by simp [named], stands⟩
  unfold Method.noLockObject?
  cases isSynchronized : method.isSynchronized with
  | false => exact .stay none
  | true =>
    have located := Verdict.map some (Crossing.lockObject_verdict sought)
    simpa using located

/-- A thread that may differ from a given one in the base of its scope. -/
def StandsInScope (t : ThreadId) (own : Thread) (m : Machine) : Prop :=
  ∃ base, Stands t { own with base } m

/-- After its object is found, the beginning of a call from managed code is not stopped by a fault
any more. -/
theorem beginTier_verdict {outer : List Frame} (top : own.frames = { method, receiver } :: outer)
    (managed : own.state = .managed) (holds : own.holdsShare = true) :
    Verdict others (StandsInScope t own) (Crossing.beginTier (host t) b method.tier) none
      fun _ _ => True := by
  refine Crossing.beginTier_verdict b ?_ ?_ (fun _ => ?_) (fun _ => ?_) fun _ _ _ => trivial
  · rintro mark m ⟨base, stands⟩
    exact ⟨mark, stands.setScopeBase mark⟩
  · rintro m ⟨base, stands⟩
    have top : { own with base }.frames = { method, receiver } :: outer := top
    exact executing_of_top top stands
  · rintro m ⟨base, stands⟩
    exact (stands.view Thread.state fun _ => rfl).trans managed
  · rintro m ⟨base, stands⟩
    have gone : Act.Verdict others (Stands t { own with base }) (Machine.toNative t) none
        fun _ => Stands t { own with base, state := .native, holdsShare := false } :=
      Machine.toNative_verdict holds
    exact gone.weaken (fun _ met => met) (fun _ _ _ => trivial) m stands

/-- What else may stop the beginning of a call: a misuse or a wait, where no fault is due. -/
def Stuck (due? : Option Fault) (why : Halt) : Prop :=
  due? = none ∧ why.isFault = false

theorem beginMethod_verdict {outer : List Frame} (top : own.frames = { method, receiver } :: outer)
    (managed : own.state = .managed) (holds : own.holdsShare = true) :
    Verdict (Stuck (faultBefore? b method receiver)) (Stands t own)
      (Crossing.beginMethod (host t) b method) (faultBefore? b method receiver)
      fun _ _ => True := by
  rw [Crossing.beginMethod_eq_seekLock]
  refine .last (seekLock_verdict top) fun free target => ?_
  have locked : Verdict (Stuck (faultBefore? b method receiver)) (Stands t own)
      (target.forM (Crossing.lock (host t))) none fun _ => StandsInScope t own := by
    cases target with
    | none => exact .pure () fun _ stands => ⟨own.base, stands⟩
    | some object =>
      refine Crossing.lock_verdict (Act.Verdict.weaken
        (Machine.host_enterMonitor_verdict (fun _ other => ⟨free, other⟩) object)
        (fun _ met => met) ?_)
      rintro _ _ ⟨entered, stands⟩
      exact ⟨entered, own.base, stands⟩
  exact .next locked fun _ => beginTier_verdict top managed holds

/-- A call from managed code comes to its body unless there is a fault before it, or a wait or a
misuse in its lock. -/
theorem enter_verdict (managed : own.state = .managed) (holds : own.holdsShare = true) :
    Verdict (Stuck (faultBefore? b method receiver)) (Prepared t own)
      (enter b t method receiver) (faultBefore? b method receiver) fun _ _ => True := by
  have push : Verdict (Stuck (faultBefore? b method receiver)) (Prepared t own)
      (machine (Machine.pushFrame t method receiver)) none fun _ =>
        Prepared t { own with frames := { method, receiver } :: own.frames } := by
    refine Verdict.run (.of_returns fun m met => ⟨(), _, rfl, ?_, met.2⟩)
    exact met.1.updateOwn (fun thread =>
      { thread with frames := { method, receiver } :: thread.frames }) (fun _ => rfl) fun _ => rfl
  refine .next push fun _ => .next declaringClass_verdict fun _ => ?_
  exact .last (beginMethod_verdict rfl managed holds) fun _ _ => .pure _ fun _ _ => trivial

/-! ## The end -/

variable {pending : Option Throwable} {known : Heap → Prop} {h : Heap}

/-- What the end of a call finds: the frame of the call, the thread where the tier has taken it,
with a share exactly in managed code, and a scope that nothing has cut into. -/
structure AtEnd (method : Method) (receiver : Option ObjectId) (own : Thread) : Prop where
  top : ∃ outer, own.frames = { method, receiver } :: outer
  place : own.state = if method.tier = .normal then .native else .managed
  share : own.holdsShare = decide (own.state = .managed)
  deep : method.tier.opensScope = true → ¬own.locals.top.position < own.base.position

theorem finishTier_verdict (found : AtEnd method receiver own) :
    Verdict (· = .deadlock) (Shows t own pending known)
      (Crossing.finishTier (host t) b method.tier) none
      fun _ => Shows t (own.returned method.tier) pending known := by
  obtain ⟨outer, top⟩ := found.top
  refine Crossing.finishTier_verdict b (fun m shows => executing_of_top top shows.stands)
    (fun normal m shows => ?_) (fun normal => ?_) (fun fast m shows => ?_) (fun fast => ?_)
    fun other m shows => ?_
  · have place := found.place
    rw [if_pos normal] at place
    exact (shows.stands.view Thread.state fun _ => rfl).trans place
  · have free : own.holdsShare = false := by rw [found.share, found.place, if_pos normal]; rfl
    rw [normal]
    exact Machine.toManaged_verdict free
  · have holds : own.holdsShare = true := by
      rw [found.share, found.place, if_neg (by simp [fast])]
      rfl
    exact shows.stands.holdsShare.trans holds
  · rw [fast]
    exact Machine.checkSuspend_verdict
  · have same : own.returned method.tier = own := by
      cases tier : method.tier with
      | normal => exact absurd tier other
      | fast | critical => rfl
    rw [same]
    exact shows

def Unlocks (h : Heap) (method : Method) (receiver : Option ObjectId) : Option ObjectId → Prop
  | some o => method.isSynchronized = true ∧ h.Locates method receiver o
  | none => method.isSynchronized = false

theorem unlockFailure?_of_unlocks {target : Option ObjectId}
    (unlocks : Unlocks h method receiver target) :
    unlockFailure? t method receiver h = target.bind (exitFailure? t h) := by
  unfold unlockFailure?
  cases target with
  | none => rw [show method.isSynchronized = false from unlocks]; rfl
  | some o => rw [unlocks.1, if_pos rfl, unlocks.2.lockTarget?]

theorem lockObject_located {outer : List Frame}
    (top : own.frames = { method, receiver } :: outer) {o : ObjectId}
    (located : h.Locates method receiver o) :
    Act.Verdict others (Shows t own pending (· = h)) ((host t).lockObject method) none
      fun found m => found = some o ∧ Shows t own pending (· = h) m := by
  refine .of_returns fun m shows => ?_
  obtain rfl := shows.heap
  refine ⟨some o, m, Machine.lockObject_eq_ok.2 ?_, rfl, shows⟩
  unfold Heap.Locates at located
  split at located
  · next isStatic =>
    rw [if_pos isStatic, Heap.classObject, located]
    exact ⟨rfl, rfl⟩
  · next isInstance =>
    rw [if_neg isInstance, shows.stands.view Thread.receiver fun _ => rfl, Thread.receiver, top]
    exact ⟨located.symm, rfl⟩

/-- At the end of a call its object is found where it was found at the beginning. -/
theorem seekLock_finds {outer : List Frame} (top : own.frames = { method, receiver } :: outer)
    (allowed : method.synchronizedTier? b.settings.verifyTiers = none)
    {target : Option ObjectId} (unlocks : Unlocks h method receiver target) :
    Verdict others (Shows t own pending (· = h)) (Crossing.seekLock (host t) b method) none
      fun found m => found = target ∧ Shows t own pending (· = h) m := by
  have checked : Verdict others (Shows t own pending (· = h))
      (Crossing.checkSynchronizedTier b method : Call Unit) none
      fun _ => Shows t own pending (· = h) := by
    rw [← allowed]
    exact Crossing.checkSynchronizedTier_verdict b method
  refine .next checked fun _ => ?_
  cases target with
  | none =>
    rw [show method.isSynchronized = false from unlocks]
    exact .pure none fun m shows => ⟨rfl, shows⟩
  | some o =>
    rw [unlocks.1]
    have found : Act.Verdict others (Shows t own pending (· = h)) ((host t).lockObject method) none
        fun found m => found.isNone = false ∧ found = some o ∧ Shows t own pending (· = h) m :=
      Act.Verdict.weaken (lockObject_located top unlocks.2) (fun _ met => met) (by
        rintro _ m ⟨rfl, shows⟩
        exact ⟨rfl, rfl, shows⟩)
    exact .map some (Crossing.lockObject_verdict found)

theorem unlock_verdict (sound : h.Sound) (o : ObjectId) :
    Verdict others (Shows t own pending (· = h)) (Crossing.unlock (host t) o)
      (doubleFault? pending (exitFailure? t h o))
      fun _ => Shows t own (pending.or (exitFailure? t h o))
        fun later => later.copies = h.copies := by
  refine .next (Verdict.record _) fun _ => Verdict.seen (fun m shows => shows.pending) ?_
  refine .next (.change fun m shows => shows.clearPending) fun _ =>
    .next (Verdict.record _) fun _ =>
      .next (.run (Machine.exitMonitor_verdict sound o)) fun exited => .given ?_
  rintro rfl
  cases exitFailure? t h o with
  | none =>
    cases pending with
    | none => exact .stay ()
    | some first =>
      exact .next (Verdict.record _) fun _ => .change fun m shows => shows.setPending first
  | some second =>
    cases pending with
    | none => exact .next (Verdict.record _) fun _ => .change fun m shows => shows.setPending second
    | some first => exact .fault _

theorem deliver_verdict {m₀ : Machine} (registers : Registers) (saved : ScopeMark)
    (deep : method.tier.opensScope = true → ¬own.locals.top.position < own.base.position) :
    Verdict others (Shows t own pending fun later => later.copies = m₀.heap.copies)
      (Crossing.deliver (host t) b method saved registers)
      (method.unknownReturn?.or <| method.criticalReference?.or <|
        (method.monitorsHeld? b.settings.checked own.nativeMonitors.length).or <|
          badReference? b method m₀ (returned? pending own.locals registers.handle))
      fun _ _ => True := by
  refine Crossing.deliver_verdict b (fun m shows => ?_) (fun opens m shows => ?_)
    (fun m shows => ?_) ?_ ?_ (Machine.checkResult_verdict method _)
  · exact shows.stands.view (fun thread => thread.nativeMonitors.length) fun _ => rfl
  · have top : (host t).scopeTop m = own.locals.top :=
      shows.stands.view (fun thread => thread.locals.top) fun _ => rfl
    have base : (host t).scopeBase m = own.base := shows.stands.view Thread.base fun _ => rfl
    rw [top, base]
    exact deep opens
  · have locals : (m.thread t).locals = own.locals := shows.stands.view Thread.locals fun _ => rfl
    change (if (m.thread t).pending.isSome then none
      else (m.thread t).locals.get? registers.handle) = _
    rw [shows.pending, locals]
    rfl
  · exact fun m shows => shows.heap
  · exact fun _ _ same => same

/-- The end of a call reports the first fault that is due on the machine at the end of the body, and
is not stopped otherwise, unless it waits for ever. -/
theorem endMethod_verdict {m₀ : Machine} {saved : ScopeMark} (registers : Registers)
    (stands : Stands t own m₀) (found : AtEnd method receiver own) (sound : m₀.heap.Sound)
    (allowed : method.synchronizedTier? b.settings.verifyTiers = none)
    {target : Option ObjectId} (unlocks : Unlocks m₀.heap method receiver target) :
    Verdict (· = .deadlock) (Shows t own (m₀.thread t).pending (· = m₀.heap))
      (Crossing.endMethod (host t) b method saved registers)
      (faultAfter? b t method receiver registers m₀) fun _ _ => True := by
  obtain ⟨outer, top⟩ := found.top
  have topBack : (own.returned method.tier).frames = { method, receiver } :: outer := by
    rw [Thread.frames_returned, top]
  have unlocked : Verdict (· = .deadlock)
      (Shows t (own.returned method.tier) (m₀.thread t).pending (· = m₀.heap))
      (target.forM (Crossing.unlock (host t)))
      (doubleFault? (m₀.thread t).pending (unlockFailure? t method receiver m₀.heap))
      fun _ => Shows t (own.returned method.tier)
        ((m₀.thread t).pending.or (unlockFailure? t method receiver m₀.heap))
        fun later => later.copies = m₀.heap.copies := by
    rw [unlockFailure?_of_unlocks unlocks]
    cases target with
    | none =>
      have nothing : doubleFault? (m₀.thread t).pending none = none := by
        cases (m₀.thread t).pending <;> rfl
      rw [Option.bind_none, Option.or_none, nothing]
      exact .pure () fun m shows => ⟨shows.stands, shows.pending, congrArg Heap.copies shows.heap⟩
    | some o => exact unlock_verdict sound o
  have locals : (m₀.thread t).locals = own.locals := stands.view Thread.locals fun _ => rfl
  have monitors : (m₀.thread t).nativeMonitors = own.nativeMonitors :=
    stands.view Thread.nativeMonitors fun _ => rfl
  rw [Crossing.endMethod_eq_seekLock]
  refine .next (finishTier_verdict found) fun _ =>
    .next (seekLock_finds topBack allowed unlocks) fun sought => .given ?_
  rintro rfl
  unfold faultAfter?
  refine .bind unlocked fun _ _ => ?_
  -- The way back has left the table and the monitors as they were on `m₀`.
  rw [locals, monitors, ← own.locals_returned method.tier,
    ← own.nativeMonitors_returned method.tier]
  refine deliver_verdict registers saved fun opens => ?_
  rw [Thread.locals_returned, Thread.base_returned]
  exact found.deep opens

theorem leave_verdict {m₀ : Machine} {saved : ScopeMark} (registers : Registers)
    (stands : Stands t own m₀) (found : AtEnd method receiver own) (sound : m₀.heap.Sound)
    (allowed : method.synchronizedTier? b.settings.verifyTiers = none)
    {target : Option ObjectId} (unlocks : Unlocks m₀.heap method receiver target) :
    Verdict (· = .deadlock) (fun m => m = m₀) (leave b t method saved registers)
      (faultAfter? b t method receiver registers m₀) fun _ _ => True := by
  have pops : Verdict (· = .deadlock) (fun _ => True) (machine (Machine.popFrame t)) none
      fun _ _ => True :=
    Verdict.run (.of_returns fun _ _ => ⟨(), _, rfl, trivial⟩)
  refine .last (.weaken (endMethod_verdict registers stands found sound allowed unlocks) ?_
    fun _ _ met => met) fun _ result => .next pops fun _ => .pure result fun _ _ => trivial
  rintro _ rfl
  exact ⟨stands, rfl, rfl⟩

/-! ## The body -/

variable {w started ended : MachineWorld} {body : List Instruction}

theorem not_sunk {added : List ObjectId} {inner : Thread} (small : own.locals.size < UInt32.size)
    (room : inner.locals.size < UInt32.size) (base : inner.base = own.locals.top)
    (locals : inner.locals.entries = own.locals.entries ++ added) :
    ¬inner.locals.top.position < inner.base.position := by
  have above : inner.locals.size = own.locals.size + added.length := by
    rw [LocalTable.size, locals, List.length_append, LocalTable.size]
  rw [base, UInt32.lt_iff_toNat_lt, LocalTable.position_top _ small,
    LocalTable.position_top _ room]
  omega

/-- Where the body of a call from managed code comes to its end, the end of the call finds what it
needs. -/
theorem atEnd_of_performed {entry : Started} {u : Unit} (stands : Stands t own w.state)
    (managed : own.state = .managed) (holds : own.holdsShare = true)
    (bracketed : bracketedFrom false body = true) (small : own.locals.size < UInt32.size)
    (roomy : Roomy t (course b t body started))
    (entering : enter b t method receiver w = .ok entry started)
    (performed : performAll b t body started = .ok u ended) :
    ∃ inner, Stands t inner ended.state ∧ AtEnd method receiver inner := by
  obtain ⟨-, -, standsStarted⟩ := enter_own stands entering
  have amid : Thread.Amid false own := ⟨by rw [holds, managed]; rfl, by simp⟩
  obtain ⟨inner, standsEnded, grown, amidInner, still⟩ :=
    performAll_own body false _ started ended _ (amid_entered method receiver amid) standsStarted
      roomy bracketed performed
  have room : inner.locals.size < UInt32.size := by
    have here := roomy _ (end_mem_course body performed)
    rwa [standsEnded.view Thread.locals fun _ => rfl] at here
  refine ⟨inner, standsEnded, ⟨own.frames, ?_⟩, ?_, amidInner.share, fun opens => ?_⟩
  · rw [grown.frames, Thread.frames_entered]
  · rw [still]
    unfold Thread.rest Thread.entered Thread.within
    cases method.tier <;> simp [managed]
  · have locals := grown.locals
    rw [Thread.locals_entered] at locals
    exact not_sunk small room (grown.base.trans (own.base_entered method receiver opens)) locals

theorem unlocks_of_performed {entry : Started} {u : Unit} (sound : w.state.heap.Sound)
    (stands : Stands t own w.state)
    (entering : enter b t method receiver w = .ok entry started)
    (performed : performAll b t body started = .ok u ended) :
    ∃ target, Unlocks ended.state.heap method receiver target := by
  cases isSynchronized : method.isSynchronized with
  | false => exact ⟨none, isSynchronized⟩
  | true =>
    obtain ⟨o, located⟩ := locates_of_enter isSynchronized sound stands entering
    have soundStarted := Heap.Leads.sound (enter_leads entering) sound
    obtain ⟨later, located⟩ :=
      Heap.locates_of_leads soundStarted (performAll_leads body performed) located
    exact ⟨some later, isSynchronized, located⟩

/-! ## Faults that are ruled out -/

/-- No fault, or one that is not stray. -/
def Regular (fault? : Option Fault) : Prop :=
  ∀ fault, fault? = some fault → fault.isStray = false

theorem Regular.none : Regular none :=
  nofun

theorem Regular.some {fault : Fault} (regular : fault.isStray = false) : Regular (some fault) := by
  rintro _ ⟨⟩
  exact regular

theorem Regular.or {first rest : Option Fault} (before : Regular first) (after : Regular rest) :
    Regular (first.or rest) := by
  cases first with
  | none => exact after
  | some fault => exact before

theorem Regular.ite {condition : Prop} [Decidable condition] {first rest : Option Fault}
    (whenTrue : Regular first) (whenFalse : Regular rest) :
    Regular (if condition then first else rest) := by
  split
  · exact whenTrue
  · exact whenFalse

theorem regular_faultBefore? : Regular (faultBefore? b method receiver) :=
  .or (.ite (.some rfl) .none) (.ite (.some rfl) .none)

theorem regular_faultAfter? {registers : Registers} {m : Machine} :
    Regular (faultAfter? b t method receiver registers m) := by
  have meeting (first second : Option Throwable) : Regular (doubleFault? first second) := by
    cases first <;> cases second <;> first | exact .none | exact .some rfl
  have rejected (reason : Option String) :
      Regular (reason.map (.badReference method.qualifiedName)) := by
    cases reason with
    | none => exact .none
    | some text => exact .some rfl
  exact .or (meeting _ _) (.or (.ite .none (.some rfl)) (.or (.ite (.some rfl) .none)
    (.or (.ite (.some rfl) .none) (.ite (rejected _) .none))))

/-! ## Calls from managed code -/

section FromManagedCode

variable {registers : Registers} (history : w.state.heap.Reachable)
  (managed : (w.state.thread t).state = .managed)
  (holdsShare : (w.state.thread t).holdsShare = true)
include history managed holdsShare

theorem prepared_enter_verdict (b : Boundary) (method : Method) (receiver : Option ObjectId) :
    Prepared t (w.state.thread t).own w.state ∧
      Verdict (Stuck (faultBefore? b method receiver)) (Prepared t (w.state.thread t).own)
        (enter b t method receiver) (faultBefore? b method receiver) fun _ _ => True :=
  ⟨⟨Stands.of_holdsShare holdsShare, history.forward⟩, enter_verdict managed holdsShare⟩

/-- A call that does not come to its body is stopped by a fault exactly if one is due before it. -/
theorem halt?_of_stopped {why : Halt} {stopped : MachineWorld} (fault : Fault)
    (entering : enter b t method receiver w = .error why stopped) :
    (invoke b t method receiver body registers).halt? w = some (.fault fault) ↔
      faultBefore? b method receiver = some fault := by
  obtain ⟨met, begins⟩ := prepared_enter_verdict history managed holdsShare b method receiver
  have begun := Act.halt?_of_error entering
  have whole : (invoke b t method receiver body registers).halt? w =
      (enter b t method receiver).halt? w := by
    rw [begun]
    exact Act.halt?_bind_of_halt? begun
  rw [whole, begins.halt?_eq_fault met (fun _ stuck => stuck.2) fault]
  refine ⟨fun before => before.1, fun before => ⟨before, fun other _ stuck => ?_⟩⟩
  cases before.symm.trans stuck.1

/-- A call whose body comes to its end has no fault before it, and its end decides. -/
theorem halt?_of_performed {entry : Started} {u : Unit} (fault : Fault)
    (bracketed : bracketedFrom false body = true)
    (roomy : Roomy t (course b t [.call method receiver body registers] w))
    (entering : enter b t method receiver w = .ok entry started)
    (performed : performAll b t body started = .ok u ended) :
    faultBefore? b method receiver = none ∧
      ((invoke b t method receiver body registers).halt? w = some (.fault fault) ↔
        (leave b t method entry.saved registers).halt? ended ≠ some .deadlock ∧
          faultAfter? b t method receiver registers ended.state = some fault) := by
  obtain ⟨met, begins⟩ := prepared_enter_verdict history managed holdsShare b method receiver
  have free : faultBefore? b method receiver = none := (begins.of_ok met entering).1
  have whole : (invoke b t method receiver body registers).halt? w =
      (leave b t method entry.saved registers).halt? ended :=
    (Act.halt?_bind_of_ok entering).trans (Act.halt?_bind_of_ok performed)
  have inner : Roomy t (course b t body started) := by
    rw [← momentsOf_call entering]
    exact fun moment member => roomy moment (momentsOf_subset_course _ [] member)
  obtain ⟨own, standsEnded, found⟩ := atEnd_of_performed met.1 managed holdsShare bracketed
    (roomy _ (moment_mem_course _ [])) inner entering performed
  obtain ⟨target, unlocks⟩ := unlocks_of_performed history.sound met.1 entering performed
  have sound := Heap.Leads.sound
    ((enter_leads entering).trans (performAll_leads body performed)) history.sound
  have ends : Verdict (· = .deadlock) (fun m => m = ended.state)
      (leave b t method entry.saved registers)
      (faultAfter? b t method receiver registers ended.state) fun _ _ => True :=
    leave_verdict registers standsEnded found sound (Option.or_eq_none_iff.1 free).1 unlocks
  refine ⟨free, ?_⟩
  rw [whole, ends.halt?_eq_fault rfl (by rintro _ rfl; rfl) fault]
  constructor
  · rintro ⟨after, calm⟩
    exact ⟨fun waits => calm _ waits rfl, after⟩
  · rintro ⟨calm, after⟩
    refine ⟨after, ?_⟩
    rintro _ stopped rfl
    exact calm stopped

end FromManagedCode

def closeMethod : Method where
  className := "Stream"
  name := "close"
  shorty := "L"
  tier := .normal
  isSynchronized := true

def closingBody : List Instruction :=
  [.throw { className := "java.io.IOException", message := "closed" }, .exitMonitor ⟨1⟩]

end Call

end NativeBoundary
