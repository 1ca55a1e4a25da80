import NativeBoundary.Proofs.Crossing.Faults
import NativeBoundary.Proofs.Crossing.Views

/-!
# The flag of the tracer

All threads share one flag.  The beginning of a normal call of a traced method raises it; the end of
such a call lowers it, whichever other calls are under way, and so does the end of a fast call of a
traced method that returns a reference.  So the flag tells what the last of these turns was, not
whether a traced call is in progress.
-/

set_option autoImplicit false

namespace NativeBoundary

variable {σ O X α β τ : Type}

/-! ## What a part of an entry point makes of the flag -/

def Tier.tellsEnd (reference : Bool) : Tier → Bool
  | .normal => true
  | .fast => reference
  | .critical => false

theorem World.afar_tracing : World.Afar (World.tracing : World σ O X → Bool) where
  state _ _ := rfl
  entry _ _ _ := rfl

/-- A host whose deeds do not change which method its thread is executing. -/
def Host.Steady (host : Host σ O X) : Prop :=
  ∀ deed m, host.Keeps (fun s => host.executing s = m) deed

namespace Crossing

variable {host : Host σ O X} {b : Boundary} {m : Option Method} {turn : Bool → Bool}

theorem record_leaves_tracing (deed : Deed O X) : Leaves World.tracing (record host deed) := by
  intro w u w' run
  obtain rfl := (EStateM.Result.ok.inj run).2
  rfl

theorem leaveManaged_leaves_tracing : Leaves World.tracing (leaveManaged host) :=
  .bind (.look _) fun _ => .bind (.require _ _) fun _ =>
    .bind (record_leaves_tracing _) fun _ => .run World.afar_tracing _

theorem returnToManaged_leaves_tracing : Leaves World.tracing (returnToManaged host) :=
  .bind (.look _) fun _ => .bind (.require _ _) fun _ =>
    .bind (record_leaves_tracing _) fun _ => .run World.afar_tracing _

theorem report_leaves_tracing (tell : UInt64 → Deed O X) :
    Leaves World.tracing (do
      if ← askObserver host b then record host (tell (← look host.env)) :
        Crossing σ O X Unit) := by
  have asking : Leaves World.tracing (askObserver host b) := by
    intro w answer w' run
    unfold askObserver at run
    split at run
    · rw [Act.get_bind] at run
      obtain ⟨_, between, recorded, run⟩ := Act.bind_eq_ok.1 run
      rw [Act.modify_bind] at run
      obtain ⟨-, rfl⟩ := Act.pure_eq_ok.1 run
      have same := record_leaves_tracing _ _ _ _ recorded
      exact same
    · obtain ⟨-, rfl⟩ := Act.pure_eq_ok.1 run
      rfl
  exact .bind asking fun _ =>
    .ite (.bind (.look _) fun _ => record_leaves_tracing _) (.pure ())

/-- Where a thread is executing a given method, a crossing turns the flag. -/
def Turns (host : Host σ O X) (m : Option Method) (turn : Bool → Bool) (c : Crossing σ O X α) :
    Prop :=
  ∀ w a w', c w = .ok a w' → host.executing w.state = m → w'.tracing = turn w.tracing

namespace Turns

theorem idle {c : Crossing σ O X α} (leaves : Leaves World.tracing c) : Turns host m id c :=
  fun w a w' run _ => leaves w a w' run

theorem before {c : Crossing σ O X α} {f : α → Crossing σ O X β}
    (keeps : Keeps (fun s => host.executing s = m) c) (leaves : Leaves World.tracing c)
    (rest : ∀ a, Turns host m turn (f a)) : Turns host m turn (c >>= f) := by
  intro w a w' run executing
  obtain ⟨a₁, w₁, run₁, run₂⟩ := Act.bind_eq_ok.1 run
  rw [rest a₁ w₁ a w' run₂ (keeps.of_ok run₁ executing), leaves w a₁ w₁ run₁]

theorem after {c : Crossing σ O X α} {f : α → Crossing σ O X β} (first : Turns host m turn c)
    (rest : ∀ a, Leaves World.tracing (f a)) : Turns host m turn (c >>= f) := by
  intro w a w' run executing
  obtain ⟨a₁, w₁, run₁, run₂⟩ := Act.bind_eq_ok.1 run
  rw [rest a₁ w₁ a w' run₂, first w a₁ w₁ run₁ executing]

theorem map (f : α → β) {c : Crossing σ O X α} (inner : Turns host m turn c) :
    Turns host m turn (f <$> c) := by
  intro w a w' run executing
  obtain ⟨a₁, run₁, -⟩ := Act.map_eq_ok.1 run
  exact inner w a₁ w' run₁ executing

end Turns

theorem traceEntry_turns (thread : UInt64) :
    Turns host m (b.settings.trace.flagAfterEntry m) (traceEntry host b thread) := by
  intro w u w' run executing
  obtain ⟨_, _, looked, run⟩ := Act.bind_eq_ok.1 run
  obtain ⟨rfl, rfl⟩ := look_eq_ok.1 looked
  obtain ⟨_, between, announced, run⟩ := Act.bind_eq_ok.1 run
  obtain rfl := Act.modify_eq_ok.1 run
  rw [← executing, ← announce_leaves World.afar_tracing _ _ _ _ announced]

theorem traceExit_turns :
    Turns host m (b.settings.trace.flagAfterExit m) (traceExit host b) := by
  intro w u w' run executing
  obtain ⟨_, _, looked, run⟩ := Act.bind_eq_ok.1 run
  obtain ⟨rfl, rfl⟩ := look_eq_ok.1 looked
  obtain ⟨_, between, announced, run⟩ := Act.bind_eq_ok.1 run
  obtain rfl := Act.modify_eq_ok.1 run
  rw [← executing, ← announce_leaves World.afar_tracing _ _ _ _ announced]

/-! ## Beginnings and ends -/

theorem finishNormal_turns (locked : Option O) (reported : Bool) :
    Turns host m (b.settings.trace.flagAfterExit m) (finishNormal host b locked reported) := by
  have notes := host.keeps_note fun s => host.executing s = m
  have unlocking : Leaves World.tracing (locked.forM (unlock host)) := by
    cases locked with
    | none => exact .pure ()
    | some object => exact unlock_leaves World.afar_tracing object
  have back : Turns host m (b.settings.trace.flagAfterExit m) (comeBack host b) :=
    .after traceExit_turns fun _ => .bind (checkTier_leaves _) fun _ =>
      returnToManaged_leaves_tracing
  rw [finishNormal_eq]
  exact .before (.onlyIf _ (reportEnd_passes b notes) fun _ _ met => met)
    (.onlyIf _ (report_leaves_tracing _)) fun _ => .after back fun _ => unlocking

/-- The tracer is told of the end of a fast call only where a reference is returned. -/
theorem deliver_turns (method : Method) (saved : ScopeMark) (registers : Registers)
    (fast : method.tier = .fast) :
    Turns host m (if method.returnsReference then b.settings.trace.flagAfterExit m else id)
      (deliver host b method saved registers) := by
  have result : Leaves World.tracing
      (referenceResult host b registers.handle saved (some method)) :=
    referenceResult_leaves World.afar_tracing _ saved _
  have closing : Leaves World.tracing (closeScope host b.settings.checked saved) :=
    closeScope_leaves World.afar_tracing _ saved
  unfold deliver ReturnKind.ofByte
  cases known : ReturnKind.ofByte? method.returnByte with
  | none =>
    rw [if_neg (by simp [Method.returnsReference_iff, known])]
    exact .idle (.halt _)
  | some kind =>
    cases kind with
    | object =>
      rw [if_pos (Method.returnsReference_iff.2 known)]
      simp only [fast]
      exact .after traceExit_turns fun _ => .map _ result
    | _ =>
      rw [if_neg (by simp [Method.returnsReference_iff, known])]
      exact .idle (.bind (.onlyIf _ closing) fun _ => .pure _)

section Steady

variable (steady : host.Steady)
include steady

theorem beginNormal_turns (locked : Option O) (reported : Bool) :
    Turns host m (b.settings.trace.flagAfterEntry m) (beginNormal host b locked reported) := by
  have keeps (deed : Deed O X) := steady deed m
  have locking : Keeps (fun s => host.executing s = m) (locked.forM (lock host)) ∧
      Leaves World.tracing (locked.forM (lock host)) := by
    cases locked with
    | none => exact ⟨.stay (), .pure ()⟩
    | some object =>
      exact ⟨lock_passes object (fun _ => keeps _) (keeps _), lock_leaves World.afar_tracing object⟩
  rw [beginNormal_eq]
  refine .before locking.1 locking.2 fun _ =>
    .before (openScope_passes fun _ => keeps _) (openScope_leaves World.afar_tracing) fun _ =>
      .before (.look _) (.look _) fun _ => .after (traceEntry_turns _) fun _ => ?_
  exact .bind (checkTier_leaves _) fun _ => .bind leaveManaged_leaves_tracing fun _ =>
    .bind (.onlyIf _ (report_leaves_tracing _)) fun _ => .pure _

theorem beginMethod_turns (method : Method) :
    Turns host m (if method.tier = .normal then b.settings.trace.flagAfterEntry m else id)
      (beginMethod host b method) := by
  have keeps (deed : Deed O X) := steady deed m
  rw [beginMethod_eq]
  refine .before (checkSynchronizedTier_passes b method) (checkSynchronizedTier_leaves method)
    fun _ => .before (lockFor_passes method (fun _ _ met => met) (keeps _) (fun _ => keeps _)
      fun _ => keeps _) (lockFor_leaves World.afar_tracing method) fun _ => ?_
  cases tier : method.tier with
  | normal => exact beginNormal_turns steady none true
  | fast => exact .idle (beginFast_leaves World.afar_tracing)
  | critical => exact .idle (.bind (checkTier_leaves _) fun _ => .look _)

theorem endMethod_turns (method : Method) (saved : ScopeMark) (registers : Registers) :
    Turns host m
      (if method.tier.tellsEnd method.returnsReference then b.settings.trace.flagAfterExit m
        else id)
      (endMethod host b method saved registers) := by
  have keeps (deed : Deed O X) := steady deed m
  have unlocking := unlockFor_passes b method (fun _ _ met => met) (keeps _) (keeps _)
    (fun _ => keeps _) fun _ => keeps _
  have unlockingLeaves : Leaves World.tracing (unlockFor host b method) :=
    unlockFor_leaves World.afar_tracing method
  have delivering (other : method.tier ≠ .fast) :
      Leaves World.tracing (deliver host b method saved registers) :=
    deliver_leaves World.afar_tracing method saved registers fun fast => absurd fast other
  rw [endMethod_eq]
  cases tier : method.tier with
  | normal =>
    exact .after (finishNormal_turns none true) fun _ =>
      .bind unlockingLeaves fun _ => delivering (by simp [tier])
  | fast =>
    exact .before (finishFast_passes b (keeps _) fun _ _ met => met)
      (finishFast_leaves World.afar_tracing) fun _ => .before unlocking unlockingLeaves fun _ =>
        deliver_turns method saved registers tier
  | critical =>
    exact .idle (.bind (checkTier_leaves _) fun _ => .bind unlockingLeaves fun _ =>
      delivering (by simp [tier]))

end Steady

end Crossing

/-! ## Calls that are under way -/

/-- A beginning or an end of a call, with the method that its thread is executing. -/
inductive CallEvent (τ : Type) where
  | began (thread : τ) (tier : Tier) (method : Option Method)
  | ended (thread : τ) (tier : Tier) (method : Option Method) (reference : Bool)

def Passage.event? (thread : τ) (executing : Option Method) :
    Passage O Handle ScopeMark Method Registers → Option (CallEvent τ)
  | beginNormal _ _ => some (.began thread .normal executing)
  | beginFast => some (.began thread .fast executing)
  | beginCritical => some (.began thread .critical executing)
  | beginMethod m => some (.began thread m.tier executing)
  | endNormal _ _ _ => some (.ended thread .normal executing false)
  | endNormalReference _ _ _ _ => some (.ended thread .normal executing true)
  | endFast _ => some (.ended thread .fast executing false)
  | endFastReference _ _ => some (.ended thread .fast executing true)
  | endCritical => some (.ended thread .critical executing false)
  | endMethod m _ _ => some (.ended thread m.tier executing m.returnsReference)
  | _ => none

namespace CallEvent

variable (s : TraceSettings)

/-- Whether an event raises the flag: the beginning of a normal call of a traced method. -/
def raises : CallEvent τ → Bool
  | began _ tier m => tier = .normal && m.any s.traces
  | ended .. => false

/-- Whether an event lowers the flag: an end of which the tracer is told, of a traced method. -/
def lowers : CallEvent τ → Bool
  | began .. => false
  | ended _ tier m reference => tier.tellsEnd reference && m.any s.traces

def turn (event : CallEvent τ) (flag : Bool) : Bool :=
  (flag || event.raises s) && !event.lowers s

theorem turn_began (thread : τ) (tier : Tier) (m : Option Method) (flag : Bool) :
    (began thread tier m).turn s flag =
      (if tier = .normal then s.flagAfterEntry m else id) flag := by
  cases tier <;> simp [turn, raises, lowers, TraceSettings.flagAfterEntry]

theorem turn_ended (thread : τ) (tier : Tier) (m : Option Method) (reference flag : Bool) :
    (ended thread tier m reference).turn s flag =
      (if tier.tellsEnd reference then s.flagAfterExit m else id) flag := by
  cases told : tier.tellsEnd reference <;>
    simp [turn, raises, lowers, told, TraceSettings.flagAfterExit]

end CallEvent

/-- The use of an entry point turns the flag as the event does that it is, and is no event to the
flag if it neither begins nor ends a call. -/
theorem Passage.run_turns {host : Host σ O X} {b : Boundary} (steady : host.Steady)
    (p : Passage O Handle ScopeMark Method Registers) (thread : τ) {w w' : World σ O X}
    {result : PassageResult O} (run : p.run host b w = .ok result w') :
    w'.tracing = (p.event? thread (host.executing w.state)).elim w.tracing
      fun event => event.turn b.settings.trace w.tracing := by
  have turned {α : Type} {turn : Bool → Bool} {c : Crossing σ O X α} {a : α}
      (turns : Crossing.Turns host (host.executing w.state) turn c) (run : c w = .ok a w') :
      w'.tracing = turn w.tracing := turns w a w' run rfl
  have idle {α : Type} {c : Crossing σ O X α} {a : α}
      (leaves : Crossing.Leaves World.tracing c) (run : c w = .ok a w') :
      w'.tracing = w.tracing := leaves w a w' run
  have afar : World.Afar (World.tracing : World σ O X → Bool) := World.afar_tracing
  cases p with
  | beginNormal locked reported =>
    rw [event?, Option.elim_some, CallEvent.turn_began]
    exact turned (.map _ (Crossing.beginNormal_turns steady locked reported)) run
  | endNormal locked reported saved =>
    rw [event?, Option.elim_some, CallEvent.turn_ended]
    exact turned (.after (.after (Crossing.finishNormal_turns locked reported) fun _ =>
      Crossing.closeScope_leaves afar _ saved) fun _ => .pure _) run
  | endNormalReference locked reported handle saved =>
    rw [event?, Option.elim_some, CallEvent.turn_ended]
    exact turned (.map _ (.after (Crossing.finishNormal_turns locked reported) fun _ =>
      Crossing.referenceResult_leaves afar handle saved none)) run
  | beginFast =>
    rw [event?, Option.elim_some, CallEvent.turn_began]
    exact idle (.map _ (Crossing.beginFast_leaves afar)) run
  | endFast saved =>
    rw [event?, Option.elim_some, CallEvent.turn_ended]
    exact idle (.bind (.bind (Crossing.finishFast_leaves afar) fun _ =>
      Crossing.closeScope_leaves afar _ saved) fun _ => .pure _) run
  | endFastReference handle saved =>
    have fast := Crossing.finishFast_passes b
      (steady .checkSuspend (host.executing w.state)) fun _ _ met => met
    rw [event?, Option.elim_some, CallEvent.turn_ended]
    exact turned (.map _ (.before fast (Crossing.finishFast_leaves afar) fun _ =>
      .after Crossing.traceExit_turns fun _ =>
        Crossing.referenceResult_leaves afar handle saved none)) run
  | beginCritical =>
    rw [event?, Option.elim_some, CallEvent.turn_began]
    exact idle (.bind (Crossing.checkTier_leaves _) fun _ => .pure _) run
  | endCritical =>
    rw [event?, Option.elim_some, CallEvent.turn_ended]
    exact idle (.bind (Crossing.checkTier_leaves _) fun _ => .pure _) run
  | beginMethod m =>
    rw [event?, Option.elim_some, CallEvent.turn_began]
    exact turned (.map _ (Crossing.beginMethod_turns steady m)) run
  | endMethod m saved registers =>
    rw [event?, Option.elim_some, CallEvent.turn_ended]
    exact turned (.map _ (Crossing.endMethod_turns steady m saved registers)) run
  | openScope => exact idle (.map _ (Crossing.openScope_leaves afar)) run
  | closeScope checked saved =>
    exact idle (.bind (Crossing.closeScope_leaves afar checked saved) fun _ => .pure _) run
  | lock object => exact idle (.bind (Crossing.lock_leaves afar object) fun _ => .pure _) run
  | unlock object => exact idle (.bind (Crossing.unlock_leaves afar object) fun _ => .pure _) run
  | wayIn tier =>
    refine idle (.bind ?_ fun _ => .pure _) run
    cases tier with
    | normal => exact Crossing.leaveManaged_leaves_tracing
    | fast | critical => exact .pure _
  | wayOut tier =>
    refine idle (.bind ?_ fun _ => .pure _) run
    cases tier with
    | normal => exact Crossing.returnToManaged_leaves_tracing
    | fast => exact Crossing.honourSuspend_leaves afar
    | critical => exact .pure _
  | verifyTier tier => exact idle (.bind (Crossing.verifyTier_leaves tier) fun _ => .pure _) run
  | refreshClass object => exact idle (.map _ (Crossing.refreshClass_leaves afar object)) run
  | protect slot => exact idle (.map _ (Crossing.protecting_leaves afar slot (.pure ()))) run

end NativeBoundary
