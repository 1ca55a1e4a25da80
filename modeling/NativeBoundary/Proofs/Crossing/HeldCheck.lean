import NativeBoundary.Proofs.Crossing.SynchronizedEnds

/-!
# The check for monitors that are still held

Only one place of the boundary reports held monitors: the end of a scope in checked mode.  It counts
what the host says at that moment, which is what the host said when the monitor of the call had been
released.
-/

set_option autoImplicit false

namespace NativeBoundary

variable {σ O X α β : Type}

def Halt.held? : Halt → Option Nat
  | .fault (.monitorsHeld count) => some count
  | _ => none

structure Host.HeldFree (host : Host σ O X) : Prop where
  toManaged : ∀ s why, host.toManaged.halt? s = some why → why.held? = none
  checkSuspend : ∀ s why, host.checkSuspend.halt? s = some why → why.held? = none
  exitMonitor : ∀ object s why, (host.exitMonitor object).halt? s = some why → why.held? = none
  lockObject : ∀ m s why, (host.lockObject m).halt? s = some why → why.held? = none
  checkResult : ∀ m result s why, (host.checkResult m result).halt? s = some why →
    why.held? = none

namespace Crossing

variable {host : Host σ O X} {b : Boundary} {w w' : World σ O X} {why : Halt} {count : Nat}

abbrev HeldFree (c : Crossing σ O X α) : Prop :=
  StopsFor (fun why => why.held? = none) c

namespace HeldFree

theorem of_error {c : Crossing σ O X α} (free : HeldFree c) (stopped : c w = .error why w') :
    why.held? = none := by
  rcases Act.Verdict.of_halt? free trivial (Act.halt?_of_error stopped) with other | fault
  · exact other
  · cases fault

theorem halt {other : Halt} (free : other.held? = none) :
    HeldFree (halt other : Crossing σ O X α) :=
  Verdict.halt free

theorem require (condition : Bool) (otherwise : Defect) :
    HeldFree (require condition otherwise : Crossing σ O X Unit) :=
  .branch (fun _ => .stay ()) fun _ => HeldFree.halt rfl

theorem run {action : Act σ α}
    (stops : ∀ s why, action.halt? s = some why → why.held? = none) :
    HeldFree (run action : Crossing σ O X α) := by
  refine Verdict.run fun s _ => ?_
  cases result : action s with
  | ok a s' => exact ⟨rfl, trivial⟩
  | error why s' => exact .inl (stops s why (Act.halt?_of_error result))

/-- In a sequence that reports held monitors, a first step that reports none has returned. -/
theorem stopped_later {c : Crossing σ O X α} {f : α → Crossing σ O X β} (free : HeldFree c)
    (stopped : (c >>= f) w = .error why w') (held : why.held? = some count) :
    ∃ a between, c w = .ok a between ∧ f a between = .error why w' := by
  rcases Act.bind_eq_error.1 stopped with early | later
  · rw [free.of_error early] at held
    cases held
  · exact later

end HeldFree

variable (b)

theorem checkTier_heldFree (tier : Tier) : HeldFree (checkTier host b tier) := by
  refine .branch (fun _ => Verdict.looks fun executing => ?_) fun _ => .stay ()
  cases executing with
  | none => exact .stay ()
  | some m => exact .branch (fun _ => .stay ()) fun _ => HeldFree.halt rfl

section Host

variable (free : host.HeldFree)
include free

theorem finishTier_heldFree (tier : Tier) : HeldFree (finishTier host b tier) := by
  cases tier with
  | normal =>
    unfold finishTier
    rw [finishNormal_eq]
    refine .next (.branch (fun _ => reportEnd_verdict b) fun _ => .stay ()) fun _ =>
      .next ?_ fun _ => .stay ()
    exact .next (traceExit_verdict b) fun _ => .next (checkTier_heldFree b _) fun _ =>
      Verdict.looks fun _ => .next (HeldFree.require _ _) fun _ =>
        .next (Verdict.record _) fun _ => HeldFree.run free.toManaged
  | fast =>
    refine .next (checkTier_heldFree b _) fun _ => Verdict.looks fun _ => .branch (fun _ => ?_)
      fun _ => .stay ()
    exact Verdict.looks fun _ => .next (HeldFree.require _ _) fun _ =>
      .next (Verdict.record _) fun _ => HeldFree.run free.checkSuspend
  | critical => exact checkTier_heldFree b _

theorem unlock_heldFree (object : O) : HeldFree (unlock host object) := by
  refine .next (Verdict.record _) fun _ => Verdict.looks fun saved =>
    .next (Verdict.change fun _ met => met) fun _ => .next (Verdict.record _) fun _ =>
      .next (HeldFree.run (free.exitMonitor object)) fun exited => ?_
  have pends (exception : X) : HeldFree (do
      Crossing.record host (.setPending exception)
      Crossing.change (host.setPending exception)) :=
    .next (Verdict.record _) fun _ => Verdict.change fun _ met => met
  cases exited with
  | ok _ =>
    cases saved with
    | none => exact .stay ()
    | some first => exact pends first
  | error second =>
    cases saved with
    | none => exact pends second
    | some first => exact HeldFree.halt rfl

theorem unlockFor_heldFree (m : Method) : HeldFree (unlockFor host b m) := by
  refine .branch (fun _ => ?_) fun _ => .stay ()
  refine .next (.branch (fun _ => HeldFree.halt rfl) fun _ => .stay ()) fun _ =>
    .next ?_ fun object => unlock_heldFree free object
  refine .next (Verdict.record _) fun _ => .next (HeldFree.run (free.lockObject m)) fun found => ?_
  cases found with
  | none => exact HeldFree.halt rfl
  | some object => exact .stay object

end Host

/-! ## The end of a scope -/

theorem checkScope_held (stopped : checkScope host w = .error why w')
    (held : why.held? = some count) :
    w' = w ∧ count = host.heldMonitors w.state ∧ count ≠ 0 := by
  unfold checkScope at stopped
  simp only [look, bind, EStateM.bind] at stopped
  by_cases none : host.heldMonitors w.state = 0
  · rw [if_neg (by simp [none])] at stopped
    simp only [EStateM.bind, look] at stopped
    split at stopped
    · cases stopped
      cases held
    · cases stopped
  · rw [if_pos none] at stopped
    cases stopped
    cases held
    exact ⟨rfl, rfl, none⟩

theorem checkScope_unheld {u : Unit} (checked : checkScope host w = .ok u w') :
    host.heldMonitors w.state = 0 := by
  refine Decidable.byContradiction fun some => ?_
  unfold checkScope at checked
  simp only [look, bind, EStateM.bind, if_pos some] at checked
  cases checked

/-- Held monitors are reported at the end of a scope before anything is made of it. -/
theorem closeScope_held {checked : Bool} {saved : ScopeMark}
    (stopped : closeScope host checked saved w = .error why w') (held : why.held? = some count) :
    checked = true ∧ w' = w ∧ count = host.heldMonitors w.state ∧ count ≠ 0 := by
  rw [closeScope_eq] at stopped
  rcases Act.bind_eq_error.1 stopped with inspected | ⟨_, _, -, dropped⟩
  · cases checked with
    | false => cases inspected
    | true => exact ⟨rfl, checkScope_held inspected held⟩
  · cases dropped

theorem closeScope_unheld {saved : ScopeMark} {u : Unit}
    (closed : closeScope host true saved w = .ok u w') : host.heldMonitors w.state = 0 := by
  rw [closeScope_eq] at closed
  obtain ⟨_, _, inspected, -⟩ := Act.bind_eq_ok.1 closed
  exact checkScope_unheld inspected

/-! ## The result -/

theorem lookUpResult_state {handle : Handle} {object : Option O}
    (run : lookUpResult host handle w = .ok object w') : w'.state = w.state := by
  have keeps : Keeps (fun s => s = w.state) (lookUpResult host handle) :=
    lookUpResult_passes handle (Host.Keeps.of_does fun _ _ met same => same ▸ met)
      fun _ _ met => met
  exact keeps.of_ok run rfl

theorem lookUpResult_heldFree (handle : Handle) : HeldFree (lookUpResult host handle) :=
  Verdict.looks fun _ => .branch (fun _ => .stay _)
    fun _ => .next (Verdict.record _) fun _ => Verdict.looked

section Host

variable (free : host.HeldFree)
include free

theorem verifyResult_heldFree (method : Option Method) (object : Option O) :
    HeldFree (verifyResult host b method object) :=
  verifyResult_stopsFor b free.checkResult method object

theorem referenceResult_held {handle : Handle} {saved : ScopeMark} {method : Option Method}
    (stopped : referenceResult host b handle saved method w = .error why w')
    (held : why.held? = some count) :
    b.settings.checked = true ∧ w'.state = w.state ∧ count = host.heldMonitors w.state ∧
      count ≠ 0 := by
  rw [referenceResult_eq] at stopped
  obtain ⟨_, found, looked, rest⟩ :=
    HeldFree.stopped_later (lookUpResult_heldFree handle) stopped held
  have same := lookUpResult_state looked
  rcases Act.bind_eq_error.1 rest with closing | ⟨_, _, -, verifying⟩
  · obtain ⟨checked, rfl, counted, some⟩ := closeScope_held closing held
    rw [← same]
    exact ⟨checked, rfl, counted, some⟩
  · rw [HeldFree.of_error (verifyResult_heldFree b free method _) verifying] at held
    cases held

omit free in
theorem referenceResult_unheld {handle : Handle} {saved : ScopeMark} {method : Option Method}
    {object : Option O} (checked : b.settings.checked = true)
    (run : referenceResult host b handle saved method w = .ok object w') :
    host.heldMonitors w.state = 0 := by
  rw [referenceResult_eq, checked] at run
  obtain ⟨_, found, looked, rest⟩ := Act.bind_eq_ok.1 run
  obtain ⟨_, _, closing, -⟩ := Act.bind_eq_ok.1 rest
  rw [← lookUpResult_state looked]
  exact closeScope_unheld closing

omit free in
theorem traceExit_state {u : Unit} (run : traceExit host b w = .ok u w') : w'.state = w.state :=
  Keeps.of_ok (P := fun s => s = w.state) (traceExit_passes b (host.keeps_note _)) run rfl

/-- What is delivered of a call is held back for monitors only in checked mode, only at the end of a
scope, and before the host has changed. -/
theorem deliver_held {m : Method} {saved : ScopeMark} {registers : Registers}
    (stopped : deliver host b m saved registers w = .error why w')
    (held : why.held? = some count) :
    b.settings.checked = true ∧ m.tier.opensScope = true ∧ w'.state = w.state ∧
      count = host.heldMonitors w.state ∧ count ≠ 0 := by
  unfold deliver at stopped
  cases known : ReturnKind.ofByte m.returnByte with
  | error unknown =>
    simp only [known] at stopped
    cases stopped
    unfold ReturnKind.ofByte at known
    split at known
    · cases known
    · cases known
      cases held
  | ok kind =>
    simp only [known] at stopped
    by_cases reference : kind = .object
    · subst reference
      cases tier : m.tier with
      | critical =>
        simp only [tier] at stopped
        cases stopped
        cases held
      | fast =>
        simp only [tier] at stopped
        obtain ⟨_, traced, tracing, rest⟩ :=
          HeldFree.stopped_later (traceExit_verdict b) stopped held
        obtain ⟨checked, same, counted, some⟩ :=
          referenceResult_held b free (Act.map_eq_error.1 rest) held
        rw [traceExit_state b tracing] at same counted
        exact ⟨checked, rfl, same, counted, some⟩
      | normal =>
        simp only [tier] at stopped
        obtain ⟨checked, same, counted, some⟩ :=
          referenceResult_held b free (Act.map_eq_error.1 stopped) held
        exact ⟨checked, rfl, same, counted, some⟩
    · have plain : (do
          onlyIf m.tier.opensScope (closeScope host b.settings.checked saved)
          pure (registers.result b.settings.floatReturn kind)) w =
            (EStateM.Result.error why w' : EStateM.Result Halt _ (CallResult O)) := by
        cases kind <;> first | exact absurd rfl reference | exact stopped
      rcases Act.bind_eq_error.1 plain with closing | ⟨_, _, -, returning⟩
      · cases opens : m.tier.opensScope with
        | false =>
          rw [opens] at closing
          cases closing
        | true =>
          rw [opens] at closing
          obtain ⟨checked, rfl, counted, some⟩ := closeScope_held closing held
          exact ⟨checked, rfl, rfl, counted, some⟩
      · cases returning

omit free in
theorem deliver_unheld {m : Method} {saved : ScopeMark} {registers : Registers}
    {result : CallResult O} (checked : b.settings.checked = true)
    (opens : m.tier.opensScope = true)
    (run : deliver host b m saved registers w = .ok result w') :
    host.heldMonitors w.state = 0 := by
  unfold deliver at run
  cases known : ReturnKind.ofByte m.returnByte with
  | error unknown =>
    simp only [known] at run
    exact absurd run halt_ne_ok
  | ok kind =>
    simp only [known] at run
    by_cases reference : kind = .object
    · subst reference
      cases tier : m.tier with
      | critical => simp [tier, Tier.opensScope] at opens
      | fast =>
        simp only [tier] at run
        obtain ⟨_, traced, tracing, rest⟩ := Act.bind_eq_ok.1 run
        obtain ⟨_, referring, -⟩ := Act.map_eq_ok.1 rest
        rw [← traceExit_state b tracing]
        exact referenceResult_unheld b checked referring
      | normal =>
        simp only [tier] at run
        obtain ⟨_, referring, -⟩ := Act.map_eq_ok.1 run
        exact referenceResult_unheld b checked referring
    · have plain : (do
          onlyIf m.tier.opensScope (closeScope host b.settings.checked saved)
          pure (registers.result b.settings.floatReturn kind)) w =
            (.ok result w' : EStateM.Result Halt _ (CallResult O)) := by
        cases kind <;> first | exact absurd rfl reference | exact run
      obtain ⟨_, _, closing, -⟩ := Act.bind_eq_ok.1 plain
      rw [opens, checked] at closing
      exact closeScope_unheld closing

end Host

end Crossing

end NativeBoundary
