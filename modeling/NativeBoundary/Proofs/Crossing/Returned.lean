import NativeBoundary.Proofs.Outcome
import NativeBoundary.Proofs.Crossing.Parts

/-!
# Parts of an entry point that returned

What a part has done to the host, where it returned: the scope that is open, the way that was gone,
the object that was found, the monitor that was entered or exited.
-/

set_option autoImplicit false

namespace NativeBoundary.Crossing

variable {σ O X : Type} {host : Host σ O X} (b : Boundary)

/-! ## Scopes, and the ways to native code and back -/

variable {w w' : World σ O X}

theorem record_of_ok {deed : Deed O X} {u : Unit} (run : record host deed w = .ok u w') :
    w'.state = w.state := by
  simp only [record, EStateM.Result.ok.injEq, true_and] at run
  rw [← run]

theorem openScope_of_ok {saved : ScopeMark} (run : openScope host w = .ok saved w') :
    saved = host.scopeBase w.state ∧
      w'.state = host.setScopeBase (host.scopeTop w.state) w.state := by
  simp only [openScope, look, change, record, bind, EStateM.bind, pure, EStateM.pure,
    EStateM.Result.ok.injEq] at run
  obtain ⟨rfl, rfl⟩ := run
  exact ⟨rfl, rfl⟩

theorem dropScope_of_ok {saved : ScopeMark} {u : Unit}
    (run : dropScope host saved w = .ok u w') :
    w'.state = host.setScopeBase saved (host.setScopeTop (host.scopeBase w.state) w.state) := by
  simp only [dropScope, look, change, record, bind, EStateM.bind, EStateM.Result.ok.injEq,
    true_and] at run
  rw [← run]

theorem leaveManaged_of_ok {u : Unit} (run : leaveManaged host w = .ok u w') :
    host.state w.state = .managed ∧ host.toNative w.state = .ok () w'.state := by
  obtain ⟨_, _, looked, run⟩ := Act.bind_eq_ok.1 run
  obtain ⟨rfl, rfl⟩ := look_eq_ok.1 looked
  obtain ⟨_, _, required, run⟩ := Act.bind_eq_ok.1 run
  obtain ⟨managed, rfl⟩ := require_eq_ok.1 required
  obtain ⟨_, noted, recorded, run⟩ := Act.bind_eq_ok.1 run
  obtain ⟨s, done, rfl⟩ := run_eq_ok.1 run
  rw [record_of_ok recorded] at done
  exact ⟨of_decide_eq_true managed, done⟩

theorem returnToManaged_of_ok {u : Unit} (run : returnToManaged host w = .ok u w') :
    host.state w.state = .native ∧ host.toManaged w.state = .ok () w'.state := by
  obtain ⟨_, _, looked, run⟩ := Act.bind_eq_ok.1 run
  obtain ⟨rfl, rfl⟩ := look_eq_ok.1 looked
  obtain ⟨_, _, required, run⟩ := Act.bind_eq_ok.1 run
  obtain ⟨native, rfl⟩ := require_eq_ok.1 required
  obtain ⟨_, noted, recorded, run⟩ := Act.bind_eq_ok.1 run
  obtain ⟨s, done, rfl⟩ := run_eq_ok.1 run
  rw [record_of_ok recorded] at done
  exact ⟨of_decide_eq_true native, done⟩

/-! ## The monitor of a synchronized call -/

theorem checkSynchronizedTier_eq_ok {m : Method} {u : Unit} :
    (checkSynchronizedTier b m : Crossing σ O X Unit) w = .ok u w' ↔
      ¬(b.settings.verifyTiers ∧ m.isSynchronized ∧ m.tier ≠ .normal) ∧ w = w' := by
  unfold checkSynchronizedTier
  split
  · next forbidden => simp [forbidden, fault, halt]
  · next allowed => simp [allowed, Act.pure_eq_ok]

theorem lockObject_of_ok {m : Method} {object : O} (run : lockObject host m w = .ok object w') :
    host.lockObject m w.state = .ok (some object) w'.state := by
  obtain ⟨_, noted, recorded, run⟩ := Act.bind_eq_ok.1 run
  obtain ⟨found, after, looked, run⟩ := Act.bind_eq_ok.1 run
  obtain ⟨s, resolved, rfl⟩ := run_eq_ok.1 looked
  rw [record_of_ok recorded] at resolved
  cases found with
  | none => exact absurd run halt_ne_ok
  | some _ =>
    obtain ⟨rfl, rfl⟩ := Act.pure_eq_ok.1 run
    exact resolved

theorem lockObject_of_found {m : Method} {object : O} {s : σ}
    (found : host.lockObject m w.state = .ok (some object) s) :
    lockObject host m w =
      .ok object { w with
        state := s
        journal := w.journal ++ [host.entry (.lockObject m) w.state] } := by
  simp only [lockObject, record, run, bind, EStateM.bind, found]
  rfl

theorem lock_of_ok {object : O} {u : Unit} (run : lock host object w = .ok u w') :
    host.enterMonitor object w.state = .ok (.ok ()) w'.state ∨
      ∃ exception s, host.enterMonitor object w.state = .ok (.error exception) s := by
  obtain ⟨_, noted, recorded, run⟩ := Act.bind_eq_ok.1 run
  obtain ⟨result, after, entering, run⟩ := Act.bind_eq_ok.1 run
  obtain ⟨s, entered, rfl⟩ := run_eq_ok.1 entering
  rw [record_of_ok recorded] at entered
  cases result with
  | error exception => exact .inr ⟨exception, s, entered⟩
  | ok _ =>
    obtain ⟨-, rfl⟩ := Act.pure_eq_ok.1 run
    exact .inl entered

theorem lock_of_entered {object : O} {s : σ}
    (entered : host.enterMonitor object w.state = .ok (.ok ()) s) :
    ∃ w', lock host object w = .ok () w' := by
  simp only [lock, record, run, bind, EStateM.bind, entered]
  exact ⟨_, rfl⟩

/-- The exit of a monitor sees no pending exception, and leaves at most one. -/
theorem unlock_of_ok {object : O} {u : Unit} (run : unlock host object w = .ok u w') :
    ∃ exited s, host.exitMonitor object (host.clearPending w.state) = .ok exited s ∧
      (w'.state = s ∨ ∃ exception, w'.state = host.setPending exception s) := by
  obtain ⟨_, w₁, recorded, run⟩ := Act.bind_eq_ok.1 run
  obtain ⟨saved, w₂, looked, run⟩ := Act.bind_eq_ok.1 run
  obtain ⟨rfl, rfl⟩ := look_eq_ok.1 looked
  obtain ⟨_, w₃, cleared, run⟩ := Act.bind_eq_ok.1 run
  obtain rfl := change_eq_ok.1 cleared
  obtain ⟨_, w₄, noted, run⟩ := Act.bind_eq_ok.1 run
  obtain ⟨exited, w₅, exiting, run⟩ := Act.bind_eq_ok.1 run
  obtain ⟨s, exitRun, rfl⟩ := run_eq_ok.1 exiting
  rw [record_of_ok noted, record_of_ok recorded] at exitRun
  refine ⟨exited, s, exitRun, ?_⟩
  have restored (exception : X) (run : (do
      record host (.setPending exception)
      change (host.setPending exception) : Crossing σ O X Unit) { w₄ with state := s } =
        .ok u w') : w'.state = host.setPending exception s := by
    obtain ⟨_, w₆, noted, run⟩ := Act.bind_eq_ok.1 run
    obtain rfl := change_eq_ok.1 run
    rw [record_of_ok noted]
  cases exited with
  | ok _ =>
    cases pending : host.pending w₁.state with
    | none =>
      rw [pending] at run
      obtain ⟨-, rfl⟩ := Act.pure_eq_ok.1 run
      exact .inl rfl
    | some first =>
      rw [pending] at run
      exact .inr ⟨first, restored first run⟩
  | error second =>
    cases pending : host.pending w₁.state with
    | none =>
      rw [pending] at run
      exact .inr ⟨second, restored second run⟩
    | some first =>
      rw [pending] at run
      exact absurd run halt_ne_ok

/-- Where the exit succeeds, the exception that was pending is pending again, and there is no other.
-/
theorem unlock_of_exit {object : O} {s : σ}
    (exit : host.exitMonitor object (host.clearPending w.state) = .ok (.ok ()) s) :
    ∃ w', unlock host object w = .ok () w' ∧
      w'.state = match host.pending w.state with
        | none => s
        | some exception => host.setPending exception s := by
  simp only [unlock, record, look, change, run, bind, EStateM.bind, exit]
  cases host.pending w.state with
  | none => exact ⟨_, rfl, rfl⟩
  | some exception => exact ⟨_, rfl, rfl⟩

/-! ## Classes -/

/-- A marked class is taken as it is, where a set mark bit proves a reference current. -/
theorem refreshClass_of_marked {object : O} (uses : host.usesReadBarrier w.state = true)
    (proves : host.marksProveCurrent w.state = true)
    (marked : host.isMarked object w.state = true) :
    ∃ w', refreshClass host object w = .ok object w' := by
  simp only [refreshClass, require, look, record, bind, EStateM.bind, uses, proves, marked, if_true,
    pure, EStateM.pure]
  exact ⟨_, rfl⟩

theorem refreshClass_of_unmarked {object current : O} {s : σ}
    (uses : host.usesReadBarrier w.state = true)
    (unproven : (host.marksProveCurrent w.state && host.isMarked object w.state) = false)
    (found : host.currentCopy object w.state = .ok current s) :
    ∃ w', refreshClass host object w = .ok current w' := by
  cases proves : host.marksProveCurrent w.state with
  | false =>
    simp only [refreshClass, require, look, record, run, bind, EStateM.bind, uses, proves, found,
      if_true, Bool.false_eq_true, if_false, pure, EStateM.pure]
    exact ⟨_, rfl⟩
  | true =>
    have unmarked : host.isMarked object w.state = false := by simpa [proves] using unproven
    simp only [refreshClass, require, look, record, run, bind, EStateM.bind, uses, proves, unmarked,
      found, if_true, Bool.false_eq_true, if_false, pure, EStateM.pure]
    exact ⟨_, rfl⟩

/-! ## Protected objects -/

theorem protecting_of_ok {object : O} {action : Crossing σ O X Unit} {result : Option O}
    (run : protecting host (some object) action w = .ok result w') :
    ∃ w₁ w₂, w₁.state = host.pushHandle object w.state ∧ action w₁ = .ok () w₂ ∧
      result = some ((host.popHandle w₂.state).1.getD object) ∧
      w'.state = (host.popHandle w₂.state).2 := by
  obtain ⟨_, w₁, recorded, run⟩ := Act.bind_eq_ok.1 run
  obtain ⟨_, w₂, pushed, run⟩ := Act.bind_eq_ok.1 run
  obtain rfl := change_eq_ok.1 pushed
  obtain ⟨_, w₃, acted, run⟩ := Act.bind_eq_ok.1 run
  obtain ⟨_, w₄, noted, run⟩ := Act.bind_eq_ok.1 run
  obtain ⟨popped, w₅, looked, run⟩ := Act.bind_eq_ok.1 run
  obtain ⟨rfl, rfl⟩ := look_eq_ok.1 looked
  obtain ⟨_, w₆, changed, run⟩ := Act.bind_eq_ok.1 run
  obtain rfl := change_eq_ok.1 changed
  obtain ⟨rfl, rfl⟩ := Act.pure_eq_ok.1 run
  rw [record_of_ok noted]
  exact ⟨_, w₃, by rw [record_of_ok recorded], acted, rfl, rfl⟩

theorem protecting_none_of_ok {action : Crossing σ O X Unit} {result : Option O}
    (run : protecting host none action w = .ok result w') : result = none := by
  obtain ⟨_, w₁, acted, run⟩ := Act.bind_eq_ok.1 run
  exact (Act.pure_eq_ok.1 run).1.symm

end NativeBoundary.Crossing
