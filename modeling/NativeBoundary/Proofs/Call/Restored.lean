import NativeBoundary.Proofs.Call.Course
import NativeBoundary.Proofs.Call.Threshold

/-!
# What a call leaves of the calling thread

The invariant of a body: the thread has the frames, the protected objects and the scope that it had
at the start, and the table of that moment is still the lower part of its table.  Each instruction
keeps it, a nested call included, whatever the call itself does above the table.  The end of a call
that opened a scope cuts the table off where the scope began, and so gives back the table before the
call.
-/

set_option autoImplicit false

namespace NativeBoundary

namespace Thread

/-- A thread that has added references on top of its table, and has the frames, the protected
objects and the scope of before. -/
structure Added (added : List ObjectId) (own own' : Thread) : Prop where
  frames : own'.frames = own.frames
  handles : own'.handles = own.handles
  base : own'.base = own.base
  locals : own'.locals.entries = own.locals.entries ++ added

theorem Added.nothing (own : Thread) : Added [] own own :=
  ⟨rfl, rfl, rfl, by simp⟩

theorem Added.trans {first second : List ObjectId} {own between own' : Thread}
    (before : Added first own between) (after : Added second between own') :
    Added (first ++ second) own own' where
  frames := after.frames.trans before.frames
  handles := after.handles.trans before.handles
  base := after.base.trans before.base
  locals := by rw [after.locals, before.locals, List.append_assoc]

/-- A thread in a body: it holds a share exactly in managed code, and where the body has come back
to managed code it is there. -/
structure Amid (inside : Bool) (own : Thread) : Prop where
  share : own.holdsShare = decide (own.state = .managed)
  managed : inside = true → own.state = .managed

def rest (inside : Bool) (own : Thread) : ThreadState :=
  if inside then .native else own.state

end Thread

namespace Call

open Machine (Stands)
open Thread (Added Amid)

variable {b : Boundary} {t : ThreadId} {own : Thread} {w w' : MachineWorld}

/-! ## One instruction -/

theorem addLocal_own {o : ObjectId} {handle : Handle} {m m' : Machine} (stands : Stands t own m)
    (run : Machine.addLocal t o m = .ok handle m') :
    ∃ own', Stands t own' m' ∧ Added [o] own own' ∧ own'.state = own.state ∧
      own'.holdsShare = own.holdsShare := by
  obtain ⟨-, rfl⟩ := Machine.addLocal_eq_ok.1 run
  have locals : (m.thread t).locals = own.locals :=
    stands.view Thread.locals fun _ => rfl
  refine ⟨{ own with locals := (own.locals.add o).2 }, ?_, ⟨rfl, rfl, rfl, rfl⟩, rfl, rfl⟩
  rw [← locals]
  exact stands.updateOwn (fun thread =>
    { thread with locals := ((m.thread t).locals.add o).2 }) (fun _ => rfl) fun _ => rfl

/-- Instructions other than calls and the ways to native code and back. -/
theorem plain_own {first : Instruction} (plain : first.isCall = false)
    (notBack : first ≠ .toManaged) (notAway : first ≠ .toNative) {u : Unit}
    (stands : Stands t own w.state) (run : perform b t first w = .ok u w') :
    ∃ own', Stands t own' w'.state ∧ Added (keptBy b t first w) own own' ∧
      own'.state = own.state ∧ own'.holdsShare = own.holdsShare := by
  have does := perform_does plain run
  cases first with
  | call method receiver body registers => exact does.elim
  | toManaged => exact absurd rfl notBack
  | toNative => exact absurd rfl notAway
  | newObject className =>
    obtain ⟨handle, added⟩ := does
    exact addLocal_own (stands.onHeap _) added
  | newLocal o =>
    obtain ⟨handle, added⟩ := does
    exact addLocal_own stands added
  | throw exception =>
    refine ⟨own, ?_, .nothing own, rfl, rfl⟩
    rw [← does]
    exact stands.setPending (some exception)
  | enterMonitor o =>
    exact ⟨_, stands.nativeEnter does, ⟨rfl, rfl, rfl, by simp [keptBy]⟩, rfl, rfl⟩
  | exitMonitor o =>
    obtain ⟨_, stands⟩ := stands.nativeExitOrThrow does
    exact ⟨_, stands, ⟨rfl, rfl, rfl, by simp [keptBy]⟩, rfl, rfl⟩
  | heap step =>
    refine ⟨own, ?_, .nothing own, rfl, rfl⟩
    rw [← does]
    exact stands.onHeap _

theorem plain_frames {first : Instruction} (plain : first.isCall = false) {u : Unit}
    (stands : Stands t own w.state) (run : perform b t first w = .ok u w') :
    ∃ own', Stands t own' w'.state ∧ own'.frames = own.frames := by
  by_cases back : first = .toManaged
  · subst back
    exact ⟨_, (stands.toManaged (perform_does plain run)).2, rfl⟩
  by_cases away : first = .toNative
  · subst away
    exact ⟨_, (stands.toNative (perform_does plain run)).2, rfl⟩
  · obtain ⟨own', stands', grown, -, -⟩ := plain_own plain back away stands run
    exact ⟨own', stands', grown.frames⟩

theorem plain_step {first : Instruction} {rest : List Instruction} {inside : Bool}
    (plain : first.isCall = false) (amid : Amid inside own) (stands : Stands t own w.state)
    (bracketed : bracketedFrom inside (first :: rest) = true) {u : Unit}
    (run : perform b t first w = .ok u w') :
    ∃ inside' own', Stands t own' w'.state ∧ Added (keptBy b t first w) own own' ∧
      Amid inside' own' ∧ bracketedFrom inside' rest = true ∧
      own'.rest inside' = own.rest inside := by
  by_cases back : first = .toManaged
  · subst back
    obtain ⟨free, stands⟩ := stands.toManaged (perform_does plain run)
    have bracketed : inside = false ∧ bracketedFrom true rest = true := by
      simpa [bracketedFrom] using bracketed
    have native : own.state = .native := by
      have away := amid.share.symm.trans free
      cases state : own.state with
      | managed => simp [state] at away
      | native => rfl
    refine ⟨true, _, stands, ⟨rfl, rfl, rfl, by simp [keptBy]⟩, ⟨rfl, fun _ => rfl⟩,
      bracketed.2, ?_⟩
    simp [Thread.rest, bracketed.1, native]
  by_cases away : first = .toNative
  · subst away
    obtain ⟨-, stands⟩ := stands.toNative (perform_does plain run)
    have bracketed : inside = true ∧ bracketedFrom false rest = true := by
      simpa [bracketedFrom] using bracketed
    refine ⟨false, _, stands, ⟨rfl, rfl, rfl, by simp [keptBy]⟩, ⟨rfl, by simp⟩,
      bracketed.2, ?_⟩
    simp [Thread.rest, bracketed.1]
  · obtain ⟨own', stands, grown, state, share⟩ := plain_own plain back away stands run
    rw [bracketedFrom_cons back away, Bool.and_eq_true] at bracketed
    refine ⟨inside, own', stands, grown, ⟨?_, fun back => ?_⟩, bracketed.2, ?_⟩
    · rw [share, state, amid.share]
    · rw [state, amid.managed back]
    · rw [Thread.rest, Thread.rest, state]

/-! ## One call -/

theorem keptBy_of_scope {method : Method} {receiver : Option ObjectId} {body : List Instruction}
    {registers : Registers} (opens : method.tier.opensScope = true) :
    keptBy b t (.call method receiver body registers) w = [] := by
  simp only [keptBy]
  cases enter b t method receiver w with
  | ok entry started => simp [opens]
  | error why stopped => rfl

theorem keptBy_of_critical {method : Method} {receiver : Option ObjectId}
    {body : List Instruction} {registers : Registers} {entry : Started} {started : MachineWorld}
    (critical : method.tier = .critical)
    (entering : enter b t method receiver w = .ok entry started) :
    keptBy b t (.call method receiver body registers) w = kept b t body started := by
  simp [keptBy, entering, critical, Tier.opensScope]

def Carries (b : Boundary) (t : ThreadId) (body : List Instruction) : Prop :=
  ∀ (inside : Bool) (own : Thread) (w w' : MachineWorld) (u : Unit),
    Amid inside own → Stands t own w.state → Roomy t (course b t body w) →
    bracketedFrom inside body = true → performAll b t body w = .ok u w' →
    ∃ own', Stands t own' w'.state ∧ Added (kept b t body w) own own' ∧ Amid false own' ∧
      own'.state = own.rest inside

/-- The body of a call starts where a bracketed body may start. -/
theorem amid_entered {inside : Bool} (method : Method) (receiver : Option ObjectId)
    (amid : Amid inside own) : Amid false (own.entered method receiver) := by
  refine ⟨?_, by simp⟩
  unfold Thread.entered Thread.within
  cases method.tier with
  | normal => rfl
  | fast | critical => exact amid.share

/-- What is below the scope of a call is what the end of the call leaves. -/
theorem added_left_of_scope {method : Method} {receiver : Option ObjectId}
    {added : List ObjectId} {inner : Thread} (opens : method.tier.opensScope = true)
    (small : own.locals.size < UInt32.size)
    (grown : Added added (own.entered method receiver) inner) :
    Added [] own (inner.left method own.base) := by
  refine ⟨?_, ?_, inner.base_left method own.base opens, ?_⟩
  · simp [grown.frames]
  · simp [grown.handles]
  · have whole : inner.locals = ⟨own.locals.entries ++ added⟩ := by
      rw [← own.locals_entered method receiver, ← grown.locals]
    have base : inner.base = own.locals.top :=
      grown.base.trans (own.base_entered method receiver opens)
    rw [inner.locals_left method own.base opens, base, whole,
      LocalTable.truncate_top_append _ _ small, List.append_nil]

/-- A critical call leaves what its body has added. -/
theorem added_left_of_critical {method : Method} {receiver : Option ObjectId}
    {added : List ObjectId} {inner : Thread} (critical : method.tier = .critical)
    (grown : Added added (own.entered method receiver) inner) :
    Added added own (inner.left method own.base) := by
  rw [Thread.entered_critical critical] at grown
  rw [Thread.left_critical critical]
  refine ⟨?_, grown.handles, grown.base, grown.locals⟩
  simp [grown.frames]

/-- After a call the thread is in the state in which it was before it. -/
theorem state_left {method : Method} {receiver : Option ObjectId} {saved : ScopeMark}
    {inner : Thread} {inside : Bool} (amid : Amid inside own)
    (normal : method.tier = .normal → own.state = .managed ∧ own.holdsShare = true)
    (amidInner : Amid false inner)
    (still : inner.state = (own.entered method receiver).state) :
    (inner.left method saved).state = own.state ∧
      (inner.left method saved).holdsShare = own.holdsShare := by
  cases tier : method.tier with
  | normal =>
    obtain ⟨managed, holds⟩ := normal tier
    simp [Thread.left, Thread.returned, Thread.unscoped, Tier.opensScope, tier, managed, holds]
  | fast | critical =>
    have same : inner.state = own.state := by
      simpa [Thread.entered, Thread.within, tier] using still
    have share : inner.holdsShare = own.holdsShare := by
      rw [amidInner.share, amid.share, same]
    simp [Thread.left, Thread.returned, Thread.unscoped, Tier.opensScope, tier, same, share]

theorem call_own {method : Method} {receiver : Option ObjectId} {body : List Instruction}
    {registers : Registers} {result : CallResult ObjectId} {inside : Bool}
    (carries : Carries b t body) (amid : Amid inside own) (stands : Stands t own w.state)
    (small : own.locals.size < UInt32.size)
    (roomy : Roomy t (momentsOf b t (.call method receiver body registers) w))
    (bracketed : bracketedFrom false body = true)
    (run : invoke b t method receiver body registers w = .ok result w') :
    ∃ own', Stands t own' w'.state ∧
      Added (keptBy b t (.call method receiver body registers) w) own own' ∧
      own'.state = own.state ∧ own'.holdsShare = own.holdsShare := by
  obtain ⟨entry, started, entering, run⟩ := Act.bind_eq_ok.1 run
  obtain ⟨_, ended, performed, leaving⟩ := Act.bind_eq_ok.1 run
  obtain ⟨saved, normal, standsStarted⟩ := enter_own stands entering
  rw [momentsOf_call entering] at roomy
  obtain ⟨inner, standsEnded, grown, amidInner, still⟩ :=
    carries false _ started ended _ (amid_entered method receiver amid) standsStarted roomy
      bracketed performed
  have standsLeft := leave_own standsEnded leaving
  rw [saved] at standsLeft
  refine ⟨inner.left method own.base, standsLeft, ?_, state_left amid normal amidInner still⟩
  cases tier : method.tier with
  | normal | fast =>
    have opens : method.tier.opensScope = true := by rw [tier, Tier.opensScope]
    rw [keptBy_of_scope opens]
    exact added_left_of_scope opens small grown
  | critical =>
    rw [keptBy_of_critical tier entering]
    exact added_left_of_critical tier grown

/-! ## Bodies -/

/-- Every body carries the invariant. -/
theorem performAll_own (body : List Instruction) : Carries b t body := by
  induction body using Instruction.bodyInduction with
  | nil =>
    intro inside own w w' u amid stands _ bracketed run
    simp only [performAll] at run
    obtain ⟨-, rfl⟩ := Act.pure_eq_ok.1 run
    have outside : inside = false := by simpa [bracketedFrom] using bracketed
    subst outside
    exact ⟨own, stands, .nothing own, amid, rfl⟩
  | plain first rest plain ih =>
    intro inside own w w' u amid stands roomy bracketed run
    simp only [performAll] at run
    obtain ⟨_, between, doing, run⟩ := Act.bind_eq_ok.1 run
    obtain ⟨inside', own₁, stands₁, grown₁, amid₁, bracketed₁, ends⟩ :=
      plain_step plain amid stands bracketed doing
    have roomy₁ : Roomy t (course b t rest between) :=
      fun moment member => roomy moment (course_rest_subset doing member)
    obtain ⟨own', stands', grown', amid', still⟩ :=
      ih inside' own₁ between w' u amid₁ stands₁ roomy₁ bracketed₁ run
    refine ⟨own', stands', ?_, amid', still.trans ends⟩
    simpa only [kept, doing] using grown₁.trans grown'
  | call method receiver body registers rest carries ih =>
    intro inside own w w' u amid stands roomy bracketed run
    simp only [performAll] at run
    obtain ⟨_, between, doing, run⟩ := Act.bind_eq_ok.1 run
    have brackets : bracketedFrom false body = true ∧ bracketedFrom inside rest = true := by
      simpa [bracketedFrom, Instruction.bracketed] using bracketed
    have small : own.locals.size < UInt32.size := by
      have here := roomy _ (moment_mem_course _ rest)
      rwa [stands.view Thread.locals fun _ => rfl] at here
    have roomyInner : Roomy t (momentsOf b t (.call method receiver body registers) w) :=
      fun moment member => roomy moment (momentsOf_subset_course _ rest member)
    have roomy₁ : Roomy t (course b t rest between) :=
      fun moment member => roomy moment (course_rest_subset doing member)
    obtain ⟨result, invoked⟩ := perform_call doing
    obtain ⟨own₁, stands₁, grown₁, state, share⟩ :=
      call_own carries amid stands small roomyInner brackets.1 invoked
    have amid₁ : Amid inside own₁ := by
      refine ⟨?_, fun back => state.trans (amid.managed back)⟩
      rw [share, state, amid.share]
    obtain ⟨own', stands', grown', amid', still⟩ :=
      ih inside own₁ between w' u amid₁ stands₁ roomy₁ brackets.2 run
    refine ⟨own', stands', ?_, amid', ?_⟩
    · simpa only [kept, doing] using grown₁.trans grown'
    · rw [still, Thread.rest, Thread.rest, state]

/-! ## Calls from managed code -/

/-- A call from managed code that returns leaves the thread in managed code with its share, and with
the stack, the protected objects and the scope of before.  Of the references that came up meanwhile
a call with a scope leaves none; a critical call leaves those that its body has added, itself and by
critical calls. -/
theorem invoke_restores_thread
    (b : Boundary) (t : ThreadId) (method : Method) (receiver : Option ObjectId)
    (body : List Instruction) (registers : Registers)
    (w w' : MachineWorld) (result : CallResult ObjectId)
    (managed : (w.state.thread t).state = .managed)
    (holdsShare : (w.state.thread t).holdsShare = true)
    (bracketed : bracketedFrom false body = true)
    (roomy : Roomy t (course b t [.call method receiver body registers] w))
    (returned : invoke b t method receiver body registers w = .ok result w') :
    (w'.state.thread t).state = .managed ∧
      (w'.state.thread t).holdsShare = true ∧
      (w'.state.thread t).frames = (w.state.thread t).frames ∧
      (w'.state.thread t).handles = (w.state.thread t).handles ∧
      (w'.state.thread t).base = (w.state.thread t).base ∧
      (method.tier.opensScope = true →
        (w'.state.thread t).locals = (w.state.thread t).locals) ∧
      (method.tier = .critical →
        ∃ entry started, enter b t method receiver w = .ok entry started ∧
          (w'.state.thread t).locals.entries =
            (w.state.thread t).locals.entries ++ kept b t body started) := by
  have stands := Stands.of_holdsShare holdsShare
  have amid : Amid false (w.state.thread t).own :=
    ⟨by simp [Thread.own, managed, holdsShare], by simp⟩
  have small := roomy _ (moment_mem_course _ [])
  have inner : Roomy t (momentsOf b t (.call method receiver body registers) w) :=
    fun moment member => roomy moment (momentsOf_subset_course _ [] member)
  obtain ⟨own', stands', grown, state, share⟩ :=
    call_own (performAll_own body) amid stands small inner bracketed returned
  have seen {α : Type} (view : Thread → α) (blind : ∀ thread, view thread.own = view thread) :
      view (w'.state.thread t) = view own' := stands'.view view blind
  refine ⟨?_, ?_, ?_, ?_, ?_, ?_, ?_⟩
  · rw [seen Thread.state fun _ => rfl, state]
    exact managed
  · rw [seen Thread.holdsShare fun _ => rfl, share]
    exact holdsShare
  · rw [seen Thread.frames fun _ => rfl, grown.frames]
    rfl
  · rw [seen Thread.handles fun _ => rfl, grown.handles]
    rfl
  · rw [seen Thread.base fun _ => rfl, grown.base]
    rfl
  · intro opens
    have locals := grown.locals
    rw [keptBy_of_scope opens, List.append_nil] at locals
    rw [seen Thread.locals fun _ => rfl]
    exact congrArg LocalTable.mk locals
  · intro critical
    obtain ⟨entry, started, entering, -⟩ := Act.bind_eq_ok.1 returned
    refine ⟨entry, started, entering, ?_⟩
    rw [seen Thread.locals fun _ => rfl, grown.locals, keptBy_of_critical critical entering]
    rfl

def onManagedThread : MachineWorld where
  state :=
    { heap :=
        { copies := [{ className := "Point", isClass := false, monitor := ⟨0⟩ }]
          monitors := [{}]
          objects := [(1, ⟨0⟩)] }
      lock := { claims := 1 }
      threads :=
        [{ id := ⟨1⟩, name := "main", state := .managed, holdsShare := true
           locals := { entries := [⟨0⟩] } }] }

/-- A body that calls, from native code, a fast method with a critical one inside, and, from managed
code, a normal method. -/
def nestingBody : List Instruction :=
  [ .newObject "Point",
    .call { className := "Point", name := "norm", shorty := "D", tier := .fast } none
      [ .newLocal ⟨0⟩,
        .call { className := "Point", name := "scale", shorty := "V", tier := .critical } none
          [.newLocal ⟨0⟩] {} ] {},
    .toManaged,
    .call { className := "Point", name := "log", shorty := "V", tier := .normal } none
      [.newLocal ⟨0⟩, .throw { className := "java.io.IOException", message := "closed" }] {},
    .toNative,
    .newLocal ⟨0⟩ ]

theorem invoke_restores_thread_nesting :
    ∃ result w',
      invoke {} ⟨1⟩ { className := "Point", name := "draw", shorty := "V", tier := .normal } none
          nestingBody {} onManagedThread = .ok result w' ∧
        (w'.state.thread ⟨1⟩).state = .managed ∧
        (w'.state.thread ⟨1⟩).locals = { entries := [⟨0⟩] } := by
  have returns : (invoke {} ⟨1⟩
      { className := "Point", name := "draw", shorty := "V", tier := .normal } none
      nestingBody {}).returns onManagedThread = true := by decide +kernel
  obtain ⟨result, w', returned⟩ := Act.exists_of_returns returns
  have restored := invoke_restores_thread {} ⟨1⟩ _ none nestingBody {} onManagedThread w' result
    (by decide +kernel) (by decide +kernel) (by decide +kernel)
    (by unfold Roomy; decide +kernel) returned
  obtain ⟨managed, -, -, -, -, locals, -⟩ := restored
  refine ⟨result, w', returned, managed, ?_⟩
  rw [locals rfl]
  decide +kernel

end Call

end NativeBoundary
