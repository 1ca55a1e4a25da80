import NativeBoundary.Proofs.Crossing.Returned
import NativeBoundary.Proofs.Machine.OwnPart

/-!
# The two thresholds of a call

What the beginning and the end of a call do to the own part of the calling thread, tier by tier.
Locks, traces, reports and checks do nothing to it; what is left is the frame, the scope, and the
way to native code and back.
-/

set_option autoImplicit false

namespace NativeBoundary

namespace Thread

def within (tier : Tier) (own : Thread) : Thread :=
  match tier with
  | .normal => { own with base := own.locals.top, state := .native, holdsShare := false }
  | .fast => { own with base := own.locals.top }
  | .critical => own

def entered (method : Method) (receiver : Option ObjectId) (own : Thread) : Thread :=
  within method.tier { own with frames := { method, receiver } :: own.frames }

/-- A thread back in the state that it had before a tier took it to native code. -/
def returned (tier : Tier) (own : Thread) : Thread :=
  match tier with
  | .normal => { own with state := .managed, holdsShare := true }
  | .fast | .critical => own

def unscoped (saved : ScopeMark) (own : Thread) : Thread :=
  { own with locals := own.locals.truncate own.base, base := saved }

def left (method : Method) (saved : ScopeMark) (own : Thread) : Thread :=
  let back := returned method.tier own
  let closed := if method.tier.opensScope then unscoped saved back else back
  { closed with frames := closed.frames.tail }

section Fields

variable (own : Thread) (tier : Tier) (method : Method) (receiver : Option ObjectId)
  (saved : ScopeMark)

@[simp]
theorem frames_entered :
    (own.entered method receiver).frames = { method, receiver } :: own.frames := by
  unfold entered within
  cases method.tier <;> rfl

@[simp]
theorem handles_entered : (own.entered method receiver).handles = own.handles := by
  unfold entered within
  cases method.tier <;> rfl

@[simp]
theorem locals_entered : (own.entered method receiver).locals = own.locals := by
  unfold entered within
  cases method.tier <;> rfl

theorem base_entered (opens : method.tier.opensScope = true) :
    (own.entered method receiver).base = own.locals.top := by
  unfold entered within
  cases tier : method.tier with
  | normal | fast => rfl
  | critical => simp [tier, Tier.opensScope] at opens

@[simp]
theorem frames_returned : (own.returned tier).frames = own.frames := by cases tier <;> rfl

@[simp]
theorem handles_returned : (own.returned tier).handles = own.handles := by cases tier <;> rfl

@[simp]
theorem base_returned : (own.returned tier).base = own.base := by cases tier <;> rfl

@[simp]
theorem locals_returned : (own.returned tier).locals = own.locals := by cases tier <;> rfl

@[simp]
theorem nativeMonitors_returned : (own.returned tier).nativeMonitors = own.nativeMonitors := by
  cases tier <;> rfl

@[simp]
theorem frames_left : (own.left method saved).frames = own.frames.tail := by
  unfold left
  split <;> simp [unscoped]

@[simp]
theorem handles_left : (own.left method saved).handles = own.handles := by
  unfold left
  split <;> simp [unscoped]

theorem base_left (opens : method.tier.opensScope = true) :
    (own.left method saved).base = saved := by
  simp [left, opens, unscoped]

theorem locals_left (opens : method.tier.opensScope = true) :
    (own.left method saved).locals = own.locals.truncate own.base := by
  simp [left, opens, unscoped]

end Fields

theorem left_critical {method : Method} (critical : method.tier = .critical) (saved : ScopeMark)
    (own : Thread) : own.left method saved = { own with frames := own.frames.tail } := by
  simp [left, returned, critical, Tier.opensScope]

theorem entered_critical {method : Method} (critical : method.tier = .critical)
    (receiver : Option ObjectId) (own : Thread) :
    own.entered method receiver = { own with frames := { method, receiver } :: own.frames } := by
  simp [entered, within, critical]

end Thread

variable {t : ThreadId} {own : Thread}

namespace Crossing

open Machine (Stands host host_keeps_own)

variable {b : Boundary} {w w' : MachineWorld}

/-! ## The beginning -/

theorem openScope_own {saved : ScopeMark} (stands : Stands t own w.state)
    (run : openScope (host t) w = .ok saved w') :
    saved = own.base ∧ Stands t { own with base := own.locals.top } w'.state := by
  obtain ⟨rfl, after⟩ := openScope_of_ok run
  have top : (host t).scopeTop w.state = own.locals.top :=
    stands.view (fun thread => thread.locals.top) fun _ => rfl
  rw [after, top]
  exact ⟨stands.view Thread.base fun _ => rfl, stands.setScopeBase _⟩

theorem leaveManaged_own {u : Unit} (stands : Stands t own w.state)
    (run : leaveManaged (host t) w = .ok u w') :
    own.state = .managed ∧ own.holdsShare = true ∧
      Stands t { own with state := .native, holdsShare := false } w'.state := by
  obtain ⟨managed, left⟩ := leaveManaged_of_ok run
  obtain ⟨holds, after⟩ := stands.toNative left
  exact ⟨(stands.view Thread.state fun _ => rfl).symm.trans managed, holds, after⟩

/-- A lock leaves the own part alone, whether or not it is had. -/
theorem lock_own {locked : Option ObjectId} {u : Unit} (stands : Stands t own w.state)
    (run : locked.forM (lock (host t)) w = .ok u w') : Stands t own w'.state := by
  cases locked with
  | none =>
    obtain ⟨-, rfl⟩ := Act.pure_eq_ok.1 run
    exact stands
  | some o =>
    have locking : Keeps (Stands t own) (lock (host t) o) :=
      lock_passes o (fun _ => host_keeps_own _ rfl) (host_keeps_own _ rfl)
    exact locking.of_ok run stands

theorem unlock_own {locked : Option ObjectId} {u : Unit} (stands : Stands t own w.state)
    (run : locked.forM (unlock (host t)) w = .ok u w') : Stands t own w'.state := by
  cases locked with
  | none =>
    obtain ⟨-, rfl⟩ := Act.pure_eq_ok.1 run
    exact stands
  | some o =>
    have unlocking : Keeps (Stands t own) (unlock (host t) o) :=
      unlock_passes o (fun _ => host_keeps_own _ rfl) (host_keeps_own _ rfl) (host_keeps_own _ rfl)
    exact unlocking.of_ok run stands

theorem beginNormal_own {locked : Option ObjectId} {reported : Bool} {saved : ScopeMark}
    (stands : Stands t own w.state)
    (run : beginNormal (host t) b locked reported w = .ok saved w') :
    saved = own.base ∧ own.state = .managed ∧ own.holdsShare = true ∧
      Stands t (own.within .normal) w'.state := by
  rw [beginNormal_eq] at run
  obtain ⟨_, w₀, locking, run⟩ := Act.bind_eq_ok.1 run
  replace stands := lock_own stands locking
  obtain ⟨mark, w₁, opened, run⟩ := Act.bind_eq_ok.1 run
  obtain ⟨base, stands⟩ := openScope_own stands opened
  obtain ⟨env, w₂, looked, run⟩ := Act.bind_eq_ok.1 run
  obtain ⟨-, rfl⟩ := look_eq_ok.1 looked
  obtain ⟨_, w₃, traced, run⟩ := Act.bind_eq_ok.1 run
  replace stands := Keeps.of_ok (traceEntry_passes b ((host t).keeps_note _) env) traced stands
  obtain ⟨_, w₄, checked, run⟩ := Act.bind_eq_ok.1 run
  replace stands := Keeps.of_ok (checkTier_passes b .normal) checked stands
  obtain ⟨_, w₅, gone, run⟩ := Act.bind_eq_ok.1 run
  obtain ⟨managed, holds, stands⟩ := leaveManaged_own stands gone
  obtain ⟨_, w₆, told, run⟩ := Act.bind_eq_ok.1 run
  replace stands := Keeps.of_ok (.onlyIf reported
    (reportBegin_passes b ((host t).keeps_note _)) fun _ _ met => met) told stands
  obtain ⟨rfl, rfl⟩ := Act.pure_eq_ok.1 run
  exact ⟨base, managed, holds, stands⟩

theorem beginTier_own {tier : Tier} {saved : ScopeMark} (stands : Stands t own w.state)
    (run : beginTier (host t) b tier w = .ok saved w') :
    saved = own.base ∧ (tier = .normal → own.state = .managed ∧ own.holdsShare = true) ∧
      Stands t (own.within tier) w'.state := by
  cases tier with
  | normal =>
    rw [beginTier] at run
    obtain ⟨base, managed, holds, stands⟩ := beginNormal_own stands run
    exact ⟨base, fun _ => ⟨managed, holds⟩, stands⟩
  | fast =>
    obtain ⟨mark, w₁, opened, run⟩ := Act.bind_eq_ok.1 run
    obtain ⟨base, stands⟩ := openScope_own stands opened
    obtain ⟨_, w₂, checked, run⟩ := Act.bind_eq_ok.1 run
    replace stands := Keeps.of_ok (checkTier_passes b .fast) checked stands
    obtain ⟨rfl, rfl⟩ := Act.pure_eq_ok.1 run
    exact ⟨base, fun normal => by simp at normal, stands⟩
  | critical =>
    obtain ⟨_, w₁, checked, run⟩ := Act.bind_eq_ok.1 run
    replace stands := Keeps.of_ok (checkTier_passes b .critical) checked stands
    obtain ⟨rfl, rfl⟩ := look_eq_ok.1 run
    exact ⟨stands.view Thread.base fun _ => rfl, fun normal => by simp at normal, stands⟩

theorem beginMethod_own {method : Method} {saved : ScopeMark} (stands : Stands t own w.state)
    (run : beginMethod (host t) b method w = .ok saved w') :
    saved = own.base ∧
      (method.tier = .normal → own.state = .managed ∧ own.holdsShare = true) ∧
      Stands t (own.within method.tier) w'.state := by
  rw [beginMethod_eq] at run
  obtain ⟨_, w₁, checked, run⟩ := Act.bind_eq_ok.1 run
  replace stands := Keeps.of_ok (checkSynchronizedTier_passes b method) checked stands
  obtain ⟨_, w₂, locked, run⟩ := Act.bind_eq_ok.1 run
  have locking : Keeps (Stands t own) (lockFor (host t) method) :=
    lockFor_passes method (fun _ _ met => met) (host_keeps_own _ rfl)
      (fun _ => host_keeps_own _ rfl) fun _ => host_keeps_own _ rfl
  exact beginTier_own (locking.of_ok locked stands) run

/-! ## The end -/

theorem returnToManaged_own {u : Unit} (stands : Stands t own w.state)
    (run : returnToManaged (host t) w = .ok u w') :
    Stands t (own.returned .normal) w'.state := by
  obtain ⟨-, back⟩ := returnToManaged_of_ok run
  exact (stands.toManaged back).2

theorem finishNormal_own {locked : Option ObjectId} {reported : Bool} {u : Unit}
    (stands : Stands t own w.state)
    (run : finishNormal (host t) b locked reported w = .ok u w') :
    Stands t (own.returned .normal) w'.state := by
  rw [finishNormal_eq] at run
  obtain ⟨_, w₁, told, run⟩ := Act.bind_eq_ok.1 run
  replace stands := Keeps.of_ok (.onlyIf reported
    (reportEnd_passes b ((host t).keeps_note _)) fun _ _ met => met) told stands
  obtain ⟨_, w₂, back, run⟩ := Act.bind_eq_ok.1 run
  obtain ⟨_, w₃, traced, back⟩ := Act.bind_eq_ok.1 back
  replace stands := Keeps.of_ok (traceExit_passes b ((host t).keeps_note _)) traced stands
  obtain ⟨_, w₄, checked, back⟩ := Act.bind_eq_ok.1 back
  replace stands := Keeps.of_ok (checkTier_passes b .normal) checked stands
  exact unlock_own (returnToManaged_own stands back) run

theorem finishTier_own {tier : Tier} {u : Unit} (stands : Stands t own w.state)
    (run : finishTier (host t) b tier w = .ok u w') : Stands t (own.returned tier) w'.state := by
  cases tier with
  | normal =>
    rw [finishTier] at run
    exact finishNormal_own stands run
  | fast =>
    obtain ⟨_, w₁, checked, run⟩ := Act.bind_eq_ok.1 run
    replace stands := Keeps.of_ok (checkTier_passes b .fast) checked stands
    exact Keeps.of_ok (honourSuspend_passes (host_keeps_own _ rfl) fun _ _ met => met) run stands
  | critical => exact Keeps.of_ok (checkTier_passes b .critical) run stands

theorem closeScope_own {checked : Bool} {saved : ScopeMark} {u : Unit}
    (stands : Stands t own w.state) (run : closeScope (host t) checked saved w = .ok u w') :
    Stands t (own.unscoped saved) w'.state := by
  rw [closeScope_eq] at run
  obtain ⟨_, w₁, kept, run⟩ := Act.bind_eq_ok.1 run
  replace stands := Keeps.of_ok (.onlyIf checked checkScope_passes fun _ _ met => met) kept stands
  have base : (host t).scopeBase w₁.state = own.base := stands.view Thread.base fun _ => rfl
  rw [dropScope_of_ok run, base]
  exact (stands.setScopeTop own.base).setScopeBase saved

theorem protecting_keeps_own {slot : Option ObjectId} {action : Call Unit}
    (acts : ∀ own, Keeps (Stands t own) action) :
    Keeps (Stands t own) (protecting (host t) slot action) := by
  let held (o : ObjectId) : Assertion Machine ObjectId Throwable :=
    fun m _ => Stands t { own with handles := own.handles ++ [o] } m
  refine protecting_passes (Q := held) (R := held) slot
    (fun o m j stands _ => ⟨trivial, ?_⟩) (acts own) (fun o => acts _)
    (fun o m j stands _ => ⟨trivial, ?_⟩)
  · rintro _ rfl
    exact stands.pushHandle o
  · rintro _ rfl
    simpa using stands.popHandle

theorem verifyResult_own {method : Option Method} {result object : Option ObjectId}
    (stands : Stands t own w.state)
    (run : verifyResult (host t) b method result w = .ok object w') :
    Stands t own w'.state := by
  have verifying : Keeps (Stands t own) (verifyResult (host t) b method result) := by
    refine .ite (.bind (.look _) fun executing => ?_) (.stay _)
    cases method <|> executing with
    | none => exact .stay _
    | some m =>
      exact protecting_keeps_own fun own => .bind (.record (host_keeps_own _ rfl)) fun _ =>
        .run (host_keeps_own _ rfl) fun _ _ _ done => done
  exact verifying.of_ok run stands

theorem referenceResult_own {handle : Handle} {saved : ScopeMark} {method : Option Method}
    {object : Option ObjectId} (stands : Stands t own w.state)
    (run : referenceResult (host t) b handle saved method w = .ok object w') :
    Stands t (own.unscoped saved) w'.state := by
  rw [referenceResult_eq] at run
  obtain ⟨_, w₁, decoded, run⟩ := Act.bind_eq_ok.1 run
  replace stands := Keeps.of_ok
    (lookUpResult_passes handle (host_keeps_own _ rfl) fun _ _ met => met) decoded stands
  obtain ⟨_, w₂, closed, run⟩ := Act.bind_eq_ok.1 run
  exact verifyResult_own (closeScope_own stands closed) run

theorem deliver_own {method : Method} {saved : ScopeMark} {registers : Registers}
    {result : CallResult ObjectId} (stands : Stands t own w.state)
    (run : deliver (host t) b method saved registers w = .ok result w') :
    Stands t (if method.tier.opensScope then own.unscoped saved else own) w'.state := by
  unfold deliver at run
  cases known : ReturnKind.ofByte method.returnByte with
  | error why =>
    simp only [known] at run
    exact absurd run halt_ne_ok
  | ok kind =>
    simp only [known] at run
    cases kind with
    | object =>
      cases tier : method.tier with
      | critical =>
        simp only [tier] at run
        exact absurd run halt_ne_ok
      | fast =>
        simp only [tier] at run
        obtain ⟨_, w₁, traced, run⟩ := Act.bind_eq_ok.1 run
        obtain ⟨_, run, -⟩ := Act.map_eq_ok.1 run
        replace stands :=
          Keeps.of_ok (traceExit_passes b ((host t).keeps_note _)) traced stands
        exact referenceResult_own stands run
      | normal =>
        simp only [tier] at run
        obtain ⟨_, run, -⟩ := Act.map_eq_ok.1 run
        exact referenceResult_own stands run
    | _ =>
      obtain ⟨_, w₁, closed, run⟩ := Act.bind_eq_ok.1 run
      obtain ⟨-, rfl⟩ := Act.pure_eq_ok.1 run
      cases opens : method.tier.opensScope with
      | false =>
        rw [opens] at closed
        obtain ⟨-, rfl⟩ := Act.pure_eq_ok.1 closed
        exact stands
      | true =>
        rw [opens] at closed
        exact closeScope_own stands closed

theorem endMethod_own {method : Method} {saved : ScopeMark} {registers : Registers}
    {result : CallResult ObjectId} (stands : Stands t own w.state)
    (run : endMethod (host t) b method saved registers w = .ok result w') :
    Stands t
      (if method.tier.opensScope then (own.returned method.tier).unscoped saved
        else own.returned method.tier) w'.state := by
  rw [endMethod_eq] at run
  obtain ⟨_, w₁, finished, run⟩ := Act.bind_eq_ok.1 run
  replace stands := finishTier_own stands finished
  obtain ⟨_, w₂, unlocked, run⟩ := Act.bind_eq_ok.1 run
  have unlocking : Keeps (Stands t (own.returned method.tier)) (unlockFor (host t) b method) :=
    unlockFor_passes b method (fun _ _ met => met) (host_keeps_own _ rfl) (host_keeps_own _ rfl)
      (fun _ => host_keeps_own _ rfl) fun _ => host_keeps_own _ rfl
  exact deliver_own (unlocking.of_ok unlocked stands) run

end Crossing

namespace Call

open Machine (Stands host host_keeps_own)

variable {b : Boundary} {w w' : MachineWorld} {method : Method}

/-! ## Frames -/

theorem pushFrame_own {receiver : Option ObjectId} {u : Unit} (stands : Stands t own w.state)
    (run : machine (Machine.pushFrame t method receiver) w = .ok u w') :
    Stands t { own with frames := { method, receiver } :: own.frames } w'.state := by
  obtain ⟨s, pushed, rfl⟩ := Crossing.run_eq_ok.1 run
  rw [← Act.modify_eq_ok.1 pushed]
  exact stands.updateOwn (fun thread =>
    { thread with frames := { method, receiver } :: thread.frames }) (fun _ => rfl) fun _ => rfl

theorem popFrame_own {u : Unit} (stands : Stands t own w.state)
    (run : machine (Machine.popFrame t) w = .ok u w') :
    Stands t { own with frames := own.frames.tail } w'.state := by
  obtain ⟨s, popped, rfl⟩ := Crossing.run_eq_ok.1 run
  rw [← Act.modify_eq_ok.1 popped]
  exact stands.updateOwn (fun thread => { thread with frames := thread.frames.tail })
    (fun _ => rfl) fun _ => rfl

/-! ## The class of a static method -/

def knownClass (method : Method) : Call ObjectId := do
  match (← get).state.root? method with
  | some o => pure o
  | none => machine (Machine.onHeap fun h => h.classObject method.className)

def refreshed (t : ThreadId) (found : ObjectId) : Call (Option ObjectId) := do
  if (← get).state.heap.readBarrier then
    some <$> Crossing.refreshClass (Machine.host t) found
  else pure (some found)

theorem declaringClass_eq (t : ThreadId) (method : Method) :
    declaringClass t method =
      if method.isStatic then knownClass method >>= refreshed t else pure none := by
  unfold declaringClass
  cases method.isStatic with
  | false => rfl
  | true =>
    funext w
    unfold knownClass
    simp only [if_true]
    rw [bind_assoc, Act.get_bind, Act.get_bind]
    cases w.state.root? method <;> rfl

/-- Finding the class of a static method is at most a first use of the class, and a look for its
current copy. -/
theorem declaringClass_keeps {P : Machine → Prop}
    (firstUse : ∀ m, P m → P { m with heap := (m.heap.classObject method.className).2 })
    (isMarked : ∀ o, (host t).Keeps P (.isMarked o))
    (currentCopy : ∀ o, (host t).Keeps P (.currentCopy o)) :
    Crossing.Keeps P (declaringClass t method) := by
  have world : Crossing.Keeps P (get : Call MachineWorld) := fun _ met => met
  have known : Crossing.Keeps P (knownClass method) := by
    refine .bind world fun w => ?_
    cases w.state.root? method with
    | some o => exact .stay o
    | none =>
      refine .action fun m o m' met named => ?_
      obtain ⟨-, rfl⟩ := Machine.onHeap_eq_ok.1 named
      exact firstUse m met
  rw [declaringClass_eq]
  refine .ite (.bind known fun o => .bind world fun w => ?_) (.stay _)
  exact .ite (.map _ (Crossing.refreshClass_passes o (isMarked o) (currentCopy o))) (.stay _)

theorem declaringClass_own {found : Option ObjectId} (stands : Stands t own w.state)
    (run : declaringClass t method w = .ok found w') : Stands t own w'.state :=
  (declaringClass_keeps (fun _ stands => stands) (fun _ => host_keeps_own _ rfl)
    fun _ => host_keeps_own _ rfl).of_ok run stands

/-! ## Calls -/

/-- At the start of a body there is a frame more, the scope of the call is open, and its mark is
the base of the scope around it. -/
theorem enter_own {receiver : Option ObjectId} {started : Started} (stands : Stands t own w.state)
    (run : enter b t method receiver w = .ok started w') :
    started.saved = own.base ∧
      (method.tier = .normal → own.state = .managed ∧ own.holdsShare = true) ∧
      Stands t (own.entered method receiver) w'.state := by
  obtain ⟨_, w₁, pushed, run⟩ := Act.bind_eq_ok.1 run
  replace stands := pushFrame_own stands pushed
  obtain ⟨_, w₂, found, run⟩ := Act.bind_eq_ok.1 run
  replace stands := declaringClass_own stands found
  obtain ⟨mark, w₃, begun, run⟩ := Act.bind_eq_ok.1 run
  obtain ⟨base, normal, stands⟩ := Crossing.beginMethod_own stands begun
  obtain ⟨rfl, rfl⟩ := Act.pure_eq_ok.1 run
  exact ⟨base, normal, stands⟩

theorem leave_own {saved : ScopeMark} {registers : Registers} {result : CallResult ObjectId}
    (stands : Stands t own w.state)
    (run : leave b t method saved registers w = .ok result w') :
    Stands t (own.left method saved) w'.state := by
  obtain ⟨_, w₁, ended, run⟩ := Act.bind_eq_ok.1 run
  obtain ⟨_, w₂, popped, run⟩ := Act.bind_eq_ok.1 run
  obtain ⟨-, rfl⟩ := Act.pure_eq_ok.1 run
  exact popFrame_own (Crossing.endMethod_own stands ended) popped

end Call

end NativeBoundary
