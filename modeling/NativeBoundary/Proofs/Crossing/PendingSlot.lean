import NativeBoundary.Proofs.Crossing.ManagedServices
import NativeBoundary.Proofs.Crossing.Returned
import NativeBoundary.Scripted.Stage

/-!
# The slot of the pending exception

A thread has one slot for the exception that is pending on it.  The boundary empties it around the
exit of a monitor and writes to it where a monitor cannot be entered or exited; on a host that
leaves the slot alone, nothing else changes it.  A beginning therefore leaves what was pending,
unless its own lock fails: the exception of the lock takes the slot, whatever was in it.
-/

set_option autoImplicit false

namespace NativeBoundary

variable {σ O X : Type}

/-! ## Hosts that leave the slot alone -/

def Deed.writesSlot : Deed O X → Bool
  | .takePending | .setPending _ => true
  | _ => false

def Deed.isLocking : Deed O X → Bool
  | .enterMonitor _ | .exitMonitor _ | .takePending | .setPending _ => true
  | _ => false

/-- A host on which the slot of a thread that is present holds what was written to it last, and is
written to by the boundary alone. -/
structure Host.Slotted (host : Host σ O X) (present : σ → Prop) : Prop where
  clearPending : ∀ s, present s →
    present (host.clearPending s) ∧ host.pending (host.clearPending s) = none
  setPending : ∀ exception s, present s →
    present (host.setPending exception s) ∧
      host.pending (host.setPending exception s) = some exception
  otherwise : ∀ deed s s', present s → deed.writesSlot = false → host.Does deed s s' →
    present s' ∧ host.pending s' = host.pending s

def Host.Pends (host : Host σ O X) (present : σ → Prop) (pending : Option X) (s : σ) : Prop :=
  present s ∧ host.pending s = pending

namespace Host.Slotted

variable {host : Host σ O X} {present : σ → Prop} (slotted : host.Slotted present)
include slotted

theorem pends_of_does {pending : Option X} {deed : Deed O X} {s s' : σ}
    (met : host.Pends present pending s) (others : deed.writesSlot = false)
    (does : host.Does deed s s') : host.Pends present pending s' := by
  obtain ⟨here, same⟩ := met
  obtain ⟨here', still⟩ := slotted.otherwise deed s s' here others does
  exact ⟨here', still.trans same⟩

theorem keeps (pending : Option X) (deed : Deed O X) (others : deed.isLocking = false) :
    host.Keeps (host.Pends present pending) deed := by
  refine .of_does fun s s' met does => slotted.pends_of_does met ?_ does
  cases deed <;> simp [Deed.isLocking] at others <;> rfl

end Host.Slotted

/-! ## The lock of a beginning -/

namespace Passage

variable (host : Host σ O X) (b : Boundary)

/-- A beginning up to its lock.  Gives the object to lock, if there is one. -/
def beforeLock : Passage O Handle ScopeMark Method Registers → Crossing σ O X (Option O)
  | beginNormal locked _ => pure locked
  | beginMethod m => Crossing.seekLock host b m
  | _ => pure none

def afterLock :
    Passage O Handle ScopeMark Method Registers → Crossing σ O X (PassageResult O)
  | beginNormal _ reported => .mark <$> Crossing.beginNormal host b none reported
  | beginMethod m => .mark <$> Crossing.beginTier host b m.tier
  | p => p.run host b

theorem run_eq_lock (p : Passage O Handle ScopeMark Method Registers) :
    p.run host b = (do
      let target ← p.beforeLock host b
      target.forM (Crossing.lock host)
      p.afterLock host b) := by
  cases p with
  | beginNormal locked reported =>
    simp only [run, beforeLock, afterLock, pure_bind]
    rw [Crossing.beginNormal_eq, Crossing.beginNormal_eq, map_bind]
    rfl
  | beginMethod m =>
    simp only [run, beforeLock, afterLock]
    rw [Crossing.beginMethod_eq_seekLock]
    simp only [map_bind]
  | _ => rfl

def lockFailure? (p : Passage O Handle ScopeMark Method Registers) (w : World σ O X) : Option X :=
  match p.beforeLock host b w with
  | .ok (some target) ready =>
    match host.enterMonitor target ready.state with
    | .ok (.error exception) _ => some exception
    | _ => none
  | _ => none

end Passage

namespace Crossing

variable {host : Host σ O X} (b : Boundary)

/-! ## What a beginning does around its lock -/

section Around

variable {sound : List (Entry O X) → Prop} {I : Assertion σ O X}
  (others : ∀ deed : Deed O X, deed.isLocking = false → host.Passes sound I deed I)
include others

theorem others_note (deed : Deed O X) (note : deed.isNote = true) :
    host.Passes sound I deed I := by
  refine others deed ?_
  cases deed <;> simp [Deed.isNote] at note <;> rfl

theorem beforeLock_passes (p : Passage O Handle ScopeMark Method Registers) :
    Passes sound I (p.beforeLock host b) I := by
  cases p with
  | beginMethod m => exact seekLock_passes b m (others _ rfl)
  | _ => exact .stay _

theorem afterLock_passes (p : Passage O Handle ScopeMark Method Registers)
    (begins : p.begins?.isSome = true) : Passes sound I (p.afterLock host b) I := by
  have notes := others_note others
  have begun (tier : Tier) : Passes sound I (beginTier host b tier) I :=
    beginTier_passes b tier notes notes (fun _ => others _ rfl) (fun _ => others _ rfl)
      fun _ _ _ met => met
  cases p with
  | beginNormal locked reported =>
    exact .map _ (beginNormal_passes b none reported notes notes (fun _ locked => nomatch locked)
      (fun locked => nomatch locked) (fun _ => others _ rfl) (others _ rfl))
  | beginFast => exact .map _ (begun .fast)
  | beginCritical => exact .bind (checkTier_passes b _) fun _ => .stay _
  | beginMethod m => exact .map _ (begun m.tier)
  | _ => simp [Passage.begins?] at begins

end Around

/-- A lock that fails leaves its own exception pending, and forgets the one of before. -/
theorem lock_pends {present : σ → Prop} (slotted : host.Slotted present) {pending : Option X}
    {w w' : World σ O X} {object : O} {u : Unit} (met : host.Pends present pending w.state)
    (run : lock host object w = .ok u w') :
    ∃ entered s, host.enterMonitor object w.state = .ok entered s ∧
      match entered with
      | .ok _ => host.Pends present pending w'.state
      | .error exception => host.Pends present (some exception) w'.state := by
  obtain ⟨_, noted, recorded, run⟩ := Act.bind_eq_ok.1 run
  obtain ⟨entered, after, entering, run⟩ := Act.bind_eq_ok.1 run
  obtain ⟨s, enter, rfl⟩ := run_eq_ok.1 entering
  rw [record_of_ok recorded] at enter
  have does : host.Does (.enterMonitor object) w.state s := ⟨entered, enter⟩
  have kept := slotted.pends_of_does met rfl does
  refine ⟨entered, s, enter, ?_⟩
  cases entered with
  | ok _ =>
    obtain ⟨-, rfl⟩ := Act.pure_eq_ok.1 run
    exact kept
  | error exception =>
    obtain ⟨_, noted', recorded, run⟩ := Act.bind_eq_ok.1 run
    obtain rfl := change_eq_ok.1 run
    rw [record_of_ok recorded]
    exact slotted.setPending exception s kept.1

theorem pending_of_begun {present : σ → Prop} (slotted : host.Slotted present)
    (p : Passage O Handle ScopeMark Method Registers) {w w' : World σ O X}
    {result : PassageResult O} (here : present w.state) (begins : p.begins?.isSome = true)
    (returned : p.run host b w = .ok result w') :
    host.pending w'.state = (p.lockFailure? host b w).or (host.pending w.state) := by
  rw [p.run_eq_lock] at returned
  obtain ⟨target, ready, sought, returned⟩ := Act.bind_eq_ok.1 returned
  obtain ⟨pends, -⟩ :=
    Passes.of_ok (beforeLock_passes b (slotted.keeps (host.pending w.state)) p) sought
      ⟨here, rfl⟩ trivial
  obtain ⟨_, locked, locking, returned⟩ := Act.bind_eq_ok.1 returned
  have after : host.Pends present ((p.lockFailure? host b w).or (host.pending w.state))
      locked.state := by
    unfold Passage.lockFailure?
    rw [sought]
    cases target with
    | none =>
      obtain ⟨-, rfl⟩ := Act.pure_eq_ok.1 locking
      exact pends
    | some object =>
      obtain ⟨entered, s, enter, outcome⟩ := lock_pends slotted pends locking
      simp only [enter]
      cases entered with
      | ok _ => exact outcome
      | error exception => exact outcome
  exact (Passes.of_ok (afterLock_passes b (slotted.keeps _) p begins) returned after trivial).1.2

end Crossing

/-- A beginning that returns leaves the exception pending with which its lock failed, and where the
lock did not fail the one that was pending before, if any.  So the exception of before is still
pending unless the lock failed with another one. -/
theorem begin_leaves_pending (host : Host σ O X) (b : Boundary) (present : σ → Prop)
    (slotted : host.Slotted present) (p : Passage O Handle ScopeMark Method Registers)
    (w w' : World σ O X) (result : PassageResult O) (here : present w.state)
    (begins : p.begins?.isSome = true) (returned : p.run host b w = .ok result w') :
    host.pending w'.state = (p.lockFailure? host b w).or (host.pending w.state) ∧
      ∀ first, host.pending w.state = some first →
        (host.pending w'.state = some first ↔
          ∀ second, p.lockFailure? host b w = some second → second = first) := by
  have left := Crossing.pending_of_begun b slotted p here begins returned
  refine ⟨left, fun first pending => ?_⟩
  rw [left, pending]
  cases p.lockFailure? host b w with
  | none => simp
  | some second => simp

/-! ## The stage -/

open Scripted (Stage)

theorem Scripted.Stage.pending_of_useMonitor {failure : Stage → Option String}
    {spent : Stage → Stage} (untouched : ∀ s, (spent s).pending = s.pending) {s s' : Stage}
    {outcome : Except String Unit} (run : Stage.useMonitor failure spent s = .ok outcome s') :
    s'.pending = s.pending := by
  unfold Stage.useMonitor at run
  rw [Act.get_bind] at run
  cases written : failure s with
  | none =>
    rw [written] at run
    obtain ⟨-, rfl⟩ := Act.pure_eq_ok.1 run
    rfl
  | some exception =>
    rw [written] at run
    obtain ⟨-, rfl⟩ := Act.pure_eq_ok.1 run
    exact untouched s

theorem Scripted.Stage.host_slotted : Stage.host.Slotted fun _ => True where
  clearPending _ _ := ⟨trivial, rfl⟩
  setPending _ _ _ := ⟨trivial, rfl⟩
  otherwise deed s s' _ others does := by
    refine ⟨trivial, ?_⟩
    cases deed with
    | takePending | setPending _ => simp [Deed.writesSlot] at others
    | toNative | toManaged | checkSuspend =>
      obtain rfl := Act.modify_eq_ok.1 does
      rfl
    | checkResult m result =>
      obtain rfl := Act.modify_eq_ok.1 does
      change s.check.pending = s.pending
      unfold Stage.check
      split
      · rfl
      · split <;> rfl
      · rfl
    | enterMonitor o | exitMonitor o =>
      obtain ⟨_, run⟩ := does
      refine pending_of_useMonitor ?_ run
      exact fun _ => rfl
    | lockObject m | currentCopy o =>
      obtain ⟨_, run⟩ := does
      rw [← (Act.pure_eq_ok.1 run).2]
    | setScopeBase _ | setScopeTop _ | pushHandle _ | popHandle | decode _ | isMarked _ | asked _
    | begun _ | ending _ | traced _ =>
      obtain rfl := does
      rfl

def beforeRefusedEnter : World Stage String String where
  state := { pending := some "old", enterFailure := some "new" }

def beginOnLock : Passage String Handle ScopeMark Method Registers :=
  .beginNormal (some "lock") false

theorem begin_leaves_pending_refused :
    ∃ result w', beginOnLock.run Stage.host {} beforeRefusedEnter = .ok result w' ∧
      w'.state.pending = some "new" := by
  obtain ⟨result, returned⟩ := Act.eq_ok_stateOf
    (x := beginOnLock.run Stage.host {}) (s := beforeRefusedEnter) (by decide +kernel)
  refine ⟨result, _, returned, ?_⟩
  have failure : beginOnLock.lockFailure? Stage.host {} beforeRefusedEnter = some "new" := by
    decide +kernel
  have left := (begin_leaves_pending Stage.host {} _ Stage.host_slotted beginOnLock _ _ _ trivial
    rfl returned).1
  rw [failure] at left
  exact left

/-- A beginning does not keep every exception that is pending. -/
theorem begin_drops_pending :
    ¬∀ (w w' : World Stage String String) (result : PassageResult String) (first : String),
      beginOnLock.run Stage.host {} w = .ok result w' → w.state.pending = some first →
        w'.state.pending = some first := by
  intro keeps
  obtain ⟨result, returned⟩ := Act.eq_ok_stateOf
    (x := beginOnLock.run Stage.host {}) (s := beforeRefusedEnter) (by decide +kernel)
  have kept := keeps _ _ result "old" returned rfl
  have dropped : (Act.stateOf (beginOnLock.run Stage.host {} beforeRefusedEnter)).state.pending =
      some "new" := by decide +kernel
  rw [dropped] at kept
  simp at kept

end NativeBoundary
