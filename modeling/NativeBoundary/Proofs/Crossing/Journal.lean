import NativeBoundary.Proofs.Outcome
import NativeBoundary.Proofs.Crossing.Parts

/-!
# What a crossing writes

The journal is written at its end and never read.  Whatever was written before a crossing, it does
the same and writes the same entries after it; this is shown for each rule by which crossings are
put together, and so for each part and each use of the boundary.
-/

set_option autoImplicit false

namespace NativeBoundary

variable {σ O X : Type}

def World.after (earlier : List (Entry O X)) (w : World σ O X) : World σ O X :=
  { w with journal := earlier ++ w.journal }

namespace Crossing

variable {α β : Type}

/-- What was written before makes no difference to a crossing, which writes after it. -/
def Appends (c : Crossing σ O X α) : Prop :=
  ∀ earlier w, c (w.after earlier) = Act.mapState (World.after earlier) (c w)

namespace Appends

/-! ## Rules -/

theorem pure (a : α) : Appends (Pure.pure a : Crossing σ O X α) := fun _ _ => rfl

theorem bind {c : Crossing σ O X α} {f : α → Crossing σ O X β} (first : Appends c)
    (rest : ∀ a, Appends (f a)) : Appends (c >>= f) := by
  intro earlier w
  change EStateM.bind c f (w.after earlier) = Act.mapState _ (EStateM.bind c f w)
  have same := first earlier w
  cases result : c w with
  | ok a w' =>
    rw [result] at same
    simp only [EStateM.bind, same, result, Act.mapState]
    exact rest a earlier w'
  | error why w' =>
    rw [result] at same
    simp only [EStateM.bind, same, result, Act.mapState]

theorem map (f : α → β) {c : Crossing σ O X α} (inner : Appends c) : Appends (f <$> c) := by
  intro earlier w
  change EStateM.map f c (w.after earlier) = Act.mapState _ (EStateM.map f c w)
  have same := inner earlier w
  cases result : c w <;> simp only [EStateM.map, same, result, Act.mapState]

theorem ite {condition : Prop} [Decidable condition] {c d : Crossing σ O X α} (whenTrue : Appends c)
    (whenFalse : Appends d) : Appends (if condition then c else d) := by
  split
  · exact whenTrue
  · exact whenFalse

theorem onlyIf (condition : Bool) {c : Crossing σ O X Unit} (inner : Appends c) :
    Appends (onlyIf condition c) :=
  ite inner (.pure ())

theorem look (view : σ → α) : Appends (look view : Crossing σ O X α) := fun _ _ => rfl

theorem change (update : σ → σ) : Appends (change update : Crossing σ O X Unit) := fun _ _ => rfl

theorem halt (why : Halt) : Appends (halt why : Crossing σ O X α) := fun _ _ => rfl

theorem require (condition : Bool) (otherwise : Defect) :
    Appends (require condition otherwise : Crossing σ O X Unit) :=
  ite (.pure ()) (.halt _)

theorem run (action : Act σ α) : Appends (run action : Crossing σ O X α) := by
  intro earlier w
  have same : (w.after earlier).state = w.state := rfl
  unfold Crossing.run
  rw [same]
  cases action w.state <;> rfl

theorem record (host : Host σ O X) (deed : Deed O X) : Appends (record host deed) := by
  intro earlier w
  simp only [Crossing.record, World.after, Act.mapState, List.append_assoc]

theorem hear (update : (Nat → Bool) → Nat → Bool) :
    Appends (modify fun w => { w with willReport := update w.willReport } : Crossing σ O X Unit) :=
  fun _ _ => rfl

theorem trace (update : Bool → Bool) :
    Appends (modify fun w => { w with tracing := update w.tracing } : Crossing σ O X Unit) :=
  fun _ _ => rfl

end Appends

/-! ## Parts -/

variable (host : Host σ O X) (b : Boundary)

theorem announce_appends (events : List TraceEvent) : Appends (announce host events) := by
  induction events with
  | nil => exact .pure ()
  | cons event rest ih => exact .bind (.record host _) fun _ => ih

theorem traceEntry_appends (thread : UInt64) : Appends (traceEntry host b thread) :=
  .bind (.look _) fun _ => .bind (announce_appends host _) fun _ => .trace _

theorem traceExit_appends : Appends (traceExit host b) :=
  .bind (.look _) fun _ => .bind (announce_appends host _) fun _ => .trace _

theorem askObserver_appends : Appends (askObserver host b) := by
  refine .ite (fun earlier w => ?_) (.pure false)
  have rest : Appends (do
      Crossing.record host (.asked (w.willReport 0))
      modify fun w => { w with willReport := fun n => w.willReport (n + 1) }
      pure (w.willReport 0) : Crossing σ O X Bool) :=
    .bind (.record host _) fun _ =>
      .bind (.hear fun answers n => answers (n + 1)) fun _ => .pure _
  exact rest earlier w

theorem reportBegin_appends : Appends (reportBegin host b) :=
  .bind (askObserver_appends host b) fun _ =>
    .ite (.bind (.look _) fun _ => .record host _) (.pure ())

theorem reportEnd_appends : Appends (reportEnd host b) :=
  .bind (askObserver_appends host b) fun _ =>
    .ite (.bind (.look _) fun _ => .record host _) (.pure ())

theorem verifyTier_appends (tier : Tier) : Appends (verifyTier host tier) := by
  refine .bind (.look _) fun executing => ?_
  cases executing with
  | none => exact .pure ()
  | some m => exact .ite (.pure ()) (.halt _)

theorem checkTier_appends (tier : Tier) : Appends (checkTier host b tier) :=
  .ite (verifyTier_appends host tier) (.pure ())

theorem checkSynchronizedTier_appends (m : Method) :
    Appends (checkSynchronizedTier b m : Crossing σ O X Unit) :=
  .ite (.halt _) (.pure ())

theorem leaveManaged_appends : Appends (leaveManaged host) :=
  .bind (.look _) fun _ => .bind (.require _ _) fun _ => .bind (.record host _) fun _ => .run _

theorem returnToManaged_appends : Appends (returnToManaged host) :=
  .bind (.look _) fun _ => .bind (.require _ _) fun _ => .bind (.record host _) fun _ => .run _

theorem honourSuspend_appends : Appends (honourSuspend host) :=
  .bind (.look _) fun _ => .ite
    (.bind (.look _) fun _ => .bind (.require _ _) fun _ => .bind (.record host _) fun _ => .run _)
    (.pure ())

theorem openScope_appends : Appends (openScope host) :=
  .bind (.look _) fun _ => .bind (.look _) fun _ => .bind (.record host _) fun _ =>
    .bind (.change _) fun _ => .pure _

theorem checkScope_appends : Appends (checkScope host) := by
  refine .bind (.look _) fun held => ?_
  have rest : Appends (do
      let base ← Crossing.look host.scopeBase
      let top ← Crossing.look host.scopeTop
      if top.position < base.position then
        fault (.scopeUnderflow top.position base.position) : Crossing σ O X Unit) :=
    .bind (.look _) fun _ => .bind (.look _) fun _ => .ite (.halt _) (.pure ())
  exact .ite (.bind (.halt _) fun _ => rest) rest

theorem closeScope_appends (checked : Bool) (saved : ScopeMark) :
    Appends (closeScope host checked saved) := by
  rw [closeScope_eq]
  exact .bind (.onlyIf _ (checkScope_appends host)) fun _ => .bind (.look _) fun _ =>
    .bind (.record host _) fun _ => .bind (.change _) fun _ => .bind (.record host _) fun _ =>
      .change _

theorem makePending_appends (exception : X) :
    Appends (do
      Crossing.record host (.setPending exception)
      Crossing.change (host.setPending exception)) :=
  .bind (.record host _) fun _ => .change _

theorem lock_appends (object : O) : Appends (lock host object) := by
  refine .bind (.record host _) fun _ => .bind (.run _) fun entered => ?_
  cases entered with
  | ok _ => exact .pure ()
  | error exception => exact makePending_appends host exception

theorem unlock_appends (object : O) : Appends (unlock host object) := by
  refine .bind (.record host _) fun _ => .bind (.look _) fun saved => .bind (.change _) fun _ =>
    .bind (.record host _) fun _ => .bind (.run _) fun exited => ?_
  cases exited with
  | ok _ =>
    cases saved with
    | none => exact .pure ()
    | some first => exact makePending_appends host first
  | error second =>
    cases saved with
    | none => exact makePending_appends host second
    | some first => exact .halt _

theorem lockObject_appends (m : Method) : Appends (lockObject host m) := by
  refine .bind (.record host _) fun _ => .bind (.run _) fun found => ?_
  cases found with
  | none => exact .halt _
  | some object => exact .pure object

theorem protecting_appends (slot : Option O) {action : Crossing σ O X Unit}
    (inner : Appends action) : Appends (protecting host slot action) := by
  cases slot with
  | none => exact .bind inner fun _ => .pure _
  | some object =>
    exact .bind (.record host _) fun _ => .bind (.change _) fun _ => .bind inner fun _ =>
      .bind (.record host _) fun _ => .bind (.look _) fun _ => .bind (.change _) fun _ => .pure _

theorem refreshClass_appends (object : O) : Appends (refreshClass host object) := by
  have ask : Appends (do
      Crossing.record host (.currentCopy object)
      Crossing.run (host.currentCopy object)) :=
    .bind (.record host _) fun _ => .run _
  refine .bind (.look _) fun _ => .bind (.require _ _) fun _ => .bind (.look _) fun _ => ?_
  exact .ite
    (.bind (.record host _) fun _ => .bind (.look _) fun _ => .ite (.pure _) ask)
    (.bind (.pure _) fun _ => .ite (.pure _) ask)

theorem lookUpResult_appends (handle : Handle) : Appends (lookUpResult host handle) :=
  .bind (.look _) fun _ => .ite (.pure _) (.bind (.record host _) fun _ => .look _)

theorem verifyResult_appends (method : Option Method) (object : Option O) :
    Appends (verifyResult host b method object) := by
  refine .ite (.bind (.look _) fun executing => ?_) (.pure _)
  cases method <|> executing with
  | none => exact .pure _
  | some m => exact protecting_appends host object (.bind (.record host _) fun _ => .run _)

theorem referenceResult_appends (handle : Handle) (saved : ScopeMark) (method : Option Method) :
    Appends (referenceResult host b handle saved method) := by
  rw [referenceResult_eq]
  exact .bind (lookUpResult_appends host handle) fun _ =>
    .bind (closeScope_appends host _ saved) fun _ => verifyResult_appends host b method _

/-! ## Beginnings and ends -/

theorem beginNormal_appends (locked : Option O) (reported : Bool) :
    Appends (beginNormal host b locked reported) := by
  have locking : Appends (locked.forM (lock host)) := by
    cases locked with
    | none => exact .pure ()
    | some object => exact lock_appends host object
  rw [beginNormal_eq]
  exact .bind locking fun _ => .bind (openScope_appends host) fun _ => .bind (.look _) fun _ =>
    .bind (traceEntry_appends host b _) fun _ => .bind (checkTier_appends host b _) fun _ =>
      .bind (leaveManaged_appends host) fun _ =>
        .bind (.onlyIf _ (reportBegin_appends host b)) fun _ => .pure _

theorem beginFast_appends : Appends (beginFast host b) :=
  .bind (openScope_appends host) fun _ => .bind (checkTier_appends host b _) fun _ => .pure _

theorem finishNormal_appends (locked : Option O) (reported : Bool) :
    Appends (finishNormal host b locked reported) := by
  have unlocking : Appends (locked.forM (unlock host)) := by
    cases locked with
    | none => exact .pure ()
    | some object => exact unlock_appends host object
  have back : Appends (comeBack host b) :=
    .bind (traceExit_appends host b) fun _ => .bind (checkTier_appends host b _) fun _ =>
      returnToManaged_appends host
  rw [finishNormal_eq]
  exact .bind (.onlyIf _ (reportEnd_appends host b)) fun _ => .bind back fun _ => unlocking

theorem finishFast_appends : Appends (finishFast host b) :=
  .bind (checkTier_appends host b _) fun _ => honourSuspend_appends host

theorem beginTier_appends (tier : Tier) : Appends (beginTier host b tier) := by
  cases tier with
  | normal => exact beginNormal_appends host b none true
  | fast => exact beginFast_appends host b
  | critical => exact .bind (checkTier_appends host b _) fun _ => .look _

theorem finishTier_appends (tier : Tier) : Appends (finishTier host b tier) := by
  cases tier with
  | normal => exact finishNormal_appends host b none true
  | fast => exact finishFast_appends host b
  | critical => exact checkTier_appends host b _

theorem lockFor_appends (m : Method) : Appends (lockFor host m) :=
  .onlyIf _ (.bind (lockObject_appends host m) fun object => lock_appends host object)

theorem unlockFor_appends (m : Method) : Appends (unlockFor host b m) :=
  .onlyIf _ (.bind (checkSynchronizedTier_appends b m) fun _ =>
    .bind (lockObject_appends host m) fun object => unlock_appends host object)

theorem deliver_appends (m : Method) (saved : ScopeMark) (registers : Registers) :
    Appends (deliver host b m saved registers) := by
  have reference := referenceResult_appends host b registers.handle saved (some m)
  unfold deliver
  cases ReturnKind.ofByte m.returnByte with
  | error why => exact .halt _
  | ok kind =>
    cases kind with
    | object =>
      cases m.tier with
      | critical => exact .halt _
      | fast => exact .bind (traceExit_appends host b) fun _ => .map _ reference
      | normal => exact .map _ reference
    | _ => exact .bind (.onlyIf _ (closeScope_appends host _ saved)) fun _ => .pure _

theorem beginMethod_appends (m : Method) : Appends (beginMethod host b m) := by
  rw [beginMethod_eq]
  exact .bind (checkSynchronizedTier_appends b m) fun _ => .bind (lockFor_appends host m) fun _ =>
    beginTier_appends host b m.tier

theorem endMethod_appends (m : Method) (saved : ScopeMark) (registers : Registers) :
    Appends (endMethod host b m saved registers) := by
  rw [endMethod_eq]
  exact .bind (finishTier_appends host b m.tier) fun _ =>
    .bind (unlockFor_appends host b m) fun _ => deliver_appends host b m saved registers

end Crossing

open Crossing in
/-- Every use of the boundary writes after what was written before. -/
theorem Passage.run_appends (host : Host σ O X) (b : Boundary)
    (p : Passage O Handle ScopeMark Method Registers) : Appends (p.run host b) := by
  cases p with
  | beginNormal locked reported => exact .map _ (beginNormal_appends host b locked reported)
  | endNormal locked reported saved =>
    exact .bind (.bind (finishNormal_appends host b locked reported) fun _ =>
      closeScope_appends host _ saved) fun _ => .pure _
  | endNormalReference locked reported handle saved =>
    exact .map _ (.bind (finishNormal_appends host b locked reported) fun _ =>
      referenceResult_appends host b handle saved none)
  | beginFast => exact .map _ (beginFast_appends host b)
  | endFast saved =>
    exact .bind (.bind (finishFast_appends host b) fun _ => closeScope_appends host _ saved)
      fun _ => .pure _
  | endFastReference handle saved =>
    exact .map _ (.bind (finishFast_appends host b) fun _ =>
      .bind (traceExit_appends host b) fun _ => referenceResult_appends host b handle saved none)
  | beginCritical | endCritical => exact .bind (checkTier_appends host b _) fun _ => .pure _
  | beginMethod m => exact .map _ (beginMethod_appends host b m)
  | endMethod m saved registers => exact .map _ (endMethod_appends host b m saved registers)
  | openScope => exact .map _ (openScope_appends host)
  | closeScope checked saved => exact .bind (closeScope_appends host checked saved) fun _ => .pure _
  | lock object => exact .bind (lock_appends host object) fun _ => .pure _
  | unlock object => exact .bind (unlock_appends host object) fun _ => .pure _
  | wayIn tier =>
    refine .bind ?_ fun _ => .pure _
    cases tier with
    | normal => exact leaveManaged_appends host
    | fast | critical => exact .pure ()
  | wayOut tier =>
    refine .bind ?_ fun _ => .pure _
    cases tier with
    | normal => exact returnToManaged_appends host
    | fast => exact honourSuspend_appends host
    | critical => exact .pure ()
  | verifyTier tier => exact .bind (verifyTier_appends host tier) fun _ => .pure _
  | refreshClass object => exact .map _ (refreshClass_appends host object)
  | protect slot => exact .map _ (protecting_appends host slot (.pure ()))

/-- The entries of a crossing stand at the end of the journal, whatever stood there before. -/
theorem Crossing.Appends.journal {α : Type} {c : Crossing σ O X α} (appends : c.Appends)
    (w : World σ O X) :
    (Act.stateOf (c w)).journal =
      w.journal ++ (Act.stateOf (c { w with journal := [] })).journal := by
  have same := appends w.journal { w with journal := [] }
  have whole : World.after w.journal { w with journal := [] } = w := by
    simp only [World.after, List.append_nil]
  rw [whole] at same
  rw [same, Act.stateOf_mapState]
  rfl

end NativeBoundary
