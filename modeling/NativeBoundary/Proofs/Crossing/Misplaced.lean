import NativeBoundary.Proofs.Crossing.Ends
import NativeBoundary.Proofs.Crossing.SynchronizedEnds

/-!
# Uses of the boundary by a thread in the wrong place

A use of the boundary takes at most one way to native code or back.  If the thread is not where that
way starts, the run is stopped before anything is made of it; and once the way is behind it, nothing
that follows can find the thread in the wrong place.
-/

set_option autoImplicit false

namespace NativeBoundary

def Defect.isMisplaced : Defect → Bool
  | .startOutsideManaged | .endOutsideNative | .suspendWithoutShare | .shareAlreadyHeld
  | .shareNotHeld | .enterWithoutShare => true
  | .barrierWithoutSupport | .recursionOverflow | .recursionUnderflow => false

def Halt.isMisplaced : Halt → Bool
  | .defect misuse => misuse.isMisplaced
  | .fault _ | .deadlock => false

variable {σ O X : Type}

/-- What a host has to see to: `kept` holds wherever a thread in the wrong place is found, and all
but the ways to native code and back leave it alone. -/
structure Host.Guards (host : Host σ O X) (kept : σ → Prop) : Prop where
  quiet : ∀ deed, deed ≠ .toNative → deed ≠ .toManaged → host.Keeps kept deed
  toNative : ∀ s why s', kept s → host.state s = .managed → host.toNative s = .error why s' →
    why.isMisplaced = true → kept s'
  toManaged : ∀ s why s', kept s → host.toManaged s = .error why s' → why.isMisplaced = true →
    kept s'
  checkSuspend : ∀ s why s', kept s → host.holdsShare s = true →
    host.checkSuspend s = .error why s' → why.isMisplaced = true → kept s'
  enterMonitor : ∀ object s why s', kept s → host.enterMonitor object s = .error why s' →
    why.isMisplaced = true → kept s'
  exitMonitor : ∀ object s why, (host.exitMonitor object).halt? s = some why →
    why.isMisplaced = false
  lockObject : ∀ m s why, (host.lockObject m).halt? s = some why → why.isMisplaced = false
  checkResult : ∀ m result s why, (host.checkResult m result).halt? s = some why →
    why.isMisplaced = false
  currentCopy : ∀ object s why, (host.currentCopy object).halt? s = some why →
    why.isMisplaced = false

namespace Crossing

variable {α β : Type} {host : Host σ O X} {kept pre middle post : σ → Prop}

/-- Where a crossing is stopped for a thread in the wrong place, `kept` holds. -/
def Spares (kept pre : σ → Prop) (c : Crossing σ O X α) (post : σ → Prop) : Prop :=
  ∀ w, pre w.state →
    match c w with
    | .ok _ w' => post w'.state
    | .error why w' => why.isMisplaced = true → kept w'.state

abbrev WellPlaced (c : Crossing σ O X α) : Prop :=
  StopsFor (fun why => why.isMisplaced = false) c

namespace Spares

theorem pure (a : α) (holds : ∀ s, pre s → post s) :
    Spares kept pre (Pure.pure a : Crossing σ O X α) post :=
  fun w => holds w.state

theorem bind {c : Crossing σ O X α} {f : α → Crossing σ O X β} (first : Spares kept pre c middle)
    (rest : ∀ a, Spares kept middle (f a) post) : Spares kept pre (c >>= f) post := by
  intro w met
  have outcome := first w met
  cases result : c w with
  | ok a w' =>
    simp only [result] at outcome
    rw [Act.bind_of_ok result]
    exact rest a w' outcome
  | error why w' =>
    simp only [result] at outcome
    rw [Act.bind_of_error result]
    exact outcome

theorem map (f : α → β) {c : Crossing σ O X α} (inner : Spares kept pre c post) :
    Spares kept pre (f <$> c) post := by
  rw [map_eq_pure_bind]
  exact .bind inner fun _ => .pure _ fun _ met => met

theorem ite {condition : Prop} [Decidable condition] {c d : Crossing σ O X α}
    (whenTrue : Spares kept pre c post) (whenFalse : Spares kept pre d post) :
    Spares kept pre (if condition then c else d) post := by
  split
  · exact whenTrue
  · exact whenFalse

theorem looks {view : σ → α} {f : α → Crossing σ O X β}
    (rest : ∀ a, Spares kept pre (f a) post) : Spares kept pre (look view >>= f) post :=
  fun w met => rest (view w.state) w met

theorem sees {view : σ → α} {f : α → Crossing σ O X β}
    (rest : ∀ a, Spares kept (fun s => pre s ∧ view s = a) (f a) post) :
    Spares kept pre (look view >>= f) post :=
  fun w met => rest (view w.state) w ⟨met, rfl⟩

theorem record (deed : Deed O X) : Spares kept pre (record host deed) pre :=
  fun _ met => met

theorem require {condition : Bool} {otherwise : Defect} (holds : ∀ s, pre s → kept s) :
    Spares kept pre (require condition otherwise : Crossing σ O X Unit)
      fun s => pre s ∧ condition = true := by
  intro w met
  cases condition with
  | true => exact ⟨met, rfl⟩
  | false => exact fun _ => holds w.state met

theorem run {action : Act σ α}
    (stopped : ∀ s why s', pre s → action s = .error why s' → why.isMisplaced = true → kept s')
    (returned : ∀ s a s', pre s → action s = .ok a s' → post s') :
    Spares kept pre (run action : Crossing σ O X α) post := by
  intro w met
  unfold Crossing.run
  cases result : action w.state with
  | ok a s => exact returned w.state a s met result
  | error why s => exact stopped w.state why s met result

theorem of_wellPlaced {c : Crossing σ O X α} (wellPlaced : WellPlaced c) :
    Spares kept pre c fun _ => True := by
  intro w _
  have outcome := wellPlaced w trivial
  cases result : c w with
  | ok a w' => trivial
  | error why w' =>
    simp only [result] at outcome
    intro misplaced
    rcases outcome with other | fault
    · rw [misplaced] at other
      cases other
    · cases fault

theorem of_keeps {c : Crossing σ O X α} (wellPlaced : WellPlaced c) (keeps : Keeps pre c) :
    Spares kept pre c pre := by
  intro w met
  have spares : Spares kept pre c fun _ => True := of_wellPlaced wellPlaced
  have outcome := spares w met
  cases result : c w with
  | ok a w' => exact keeps.of_ok result met
  | error why w' =>
    simp only [result] at outcome
    exact outcome

theorem of_error {c : Crossing σ O X α} (spares : Spares kept pre c post) {w w' : World σ O X}
    {why : Halt} (met : pre w.state) (stopped : c w = .error why w')
    (misplaced : why.isMisplaced = true) : kept w'.state := by
  have outcome := spares w met
  simp only [stopped] at outcome
  exact outcome misplaced

end Spares

/-! ## Parts that find the thread wherever it is -/

namespace WellPlaced

theorem bind {c : Crossing σ O X α} {f : α → Crossing σ O X β} (first : WellPlaced c)
    (rest : ∀ a, WellPlaced (f a)) : WellPlaced (c >>= f) :=
  Verdict.next first rest

theorem pure (a : α) : WellPlaced (Pure.pure a : Crossing σ O X α) :=
  Verdict.stay a

theorem ite {condition : Prop} [Decidable condition] {c d : Crossing σ O X α}
    (whenTrue : WellPlaced c) (whenFalse : WellPlaced d) :
    WellPlaced (if condition then c else d) :=
  Verdict.branch (fun _ => whenTrue) fun _ => whenFalse

theorem looks {view : σ → α} {f : α → Crossing σ O X β} (rest : ∀ a, WellPlaced (f a)) :
    WellPlaced (look view >>= f) :=
  Verdict.looks rest

theorem record (deed : Deed O X) : WellPlaced (record host deed) :=
  Verdict.record deed

theorem change (update : σ → σ) : WellPlaced (change update : Crossing σ O X Unit) :=
  Verdict.change fun _ met => met

theorem fault (why : Fault) : WellPlaced (fault why : Crossing σ O X α) :=
  fun _ _ => .inl rfl

theorem run {action : Act σ α}
    (stops : ∀ s why, action.halt? s = some why → why.isMisplaced = false) :
    WellPlaced (run action : Crossing σ O X α) := by
  refine Verdict.run fun s _ => ?_
  cases result : action s with
  | ok a s' => exact ⟨rfl, trivial⟩
  | error why s' => exact .inl (stops s why (Act.halt?_of_error result))

end WellPlaced

variable (b : Boundary)

theorem openScope_wellPlaced : WellPlaced (openScope host) :=
  .looks fun _ => .looks fun _ => .bind (.record _) fun _ => .bind (.change _) fun _ => .pure _

theorem verifyTier_wellPlaced (tier : Tier) : WellPlaced (verifyTier host tier) := by
  refine .looks fun executing => ?_
  cases executing with
  | none => exact .pure ()
  | some m => exact .ite (.pure ()) (.fault _)

theorem checkTier_wellPlaced (tier : Tier) : WellPlaced (checkTier host b tier) :=
  .ite (verifyTier_wellPlaced tier) (.pure ())

theorem checkSynchronizedTier_wellPlaced (m : Method) :
    WellPlaced (checkSynchronizedTier b m : Crossing σ O X Unit) :=
  .ite (.fault _) (.pure ())

theorem makePending_wellPlaced (exception : X) :
    WellPlaced (do
      Crossing.record host (.setPending exception)
      Crossing.change (host.setPending exception)) :=
  .bind (.record _) fun _ => .change _

theorem closeScope_wellPlaced (checked : Bool) (saved : ScopeMark) :
    WellPlaced (closeScope host checked saved) :=
  closeScope_stopsFor (fun _ _ => rfl) checked saved

section Guarded

variable (guards : host.Guards kept)
include guards

theorem lockObject_wellPlaced (m : Method) : WellPlaced (lockObject host m) := by
  refine .bind (.record _) fun _ => .bind (.run (guards.lockObject m)) fun found => ?_
  cases found with
  | none => exact .fault _
  | some object => exact .pure _

theorem unlock_wellPlaced (object : O) : WellPlaced (unlock host object) := by
  refine .bind (.record _) fun _ => .looks fun saved => .bind (.change _) fun _ =>
    .bind (.record _) fun _ => .bind (.run (guards.exitMonitor object)) fun exited => ?_
  cases exited with
  | ok _ =>
    cases saved with
    | none => exact .pure ()
    | some first => exact makePending_wellPlaced first
  | error second =>
    cases saved with
    | none => exact makePending_wellPlaced second
    | some first => exact .fault _

theorem refreshClass_wellPlaced (object : O) : WellPlaced (refreshClass host object) := by
  have ask : WellPlaced (do
      Crossing.record host (.currentCopy object)
      Crossing.run (host.currentCopy object)) :=
    .bind (.record _) fun _ => .run (guards.currentCopy object)
  refine .looks fun uses => .bind ?_ fun _ => .looks fun proves => ?_
  · cases uses with
    | true => exact .pure ()
    | false => exact fun _ _ => .inl rfl
  · refine .ite (.bind (.record _) fun _ => ?_) (.bind (.pure _) fun _ => .ite (.pure _) ask)
    exact .looks fun _ => .ite (.pure _) ask

theorem referenceResult_wellPlaced (handle : Handle) (saved : ScopeMark)
    (method : Option Method) : WellPlaced (referenceResult host b handle saved method) :=
  referenceResult_stopsFor b (fun _ _ => rfl) guards.checkResult handle saved method

theorem deliver_wellPlaced (m : Method) (saved : ScopeMark) (registers : Registers) :
    WellPlaced (deliver host b m saved registers) :=
  deliver_stopsFor b (fun _ _ => rfl) guards.checkResult m saved registers

theorem unlockFor_wellPlaced (m : Method) : WellPlaced (unlockFor host b m) :=
  .ite (.bind (checkSynchronizedTier_wellPlaced b m) fun _ =>
    .bind (lockObject_wellPlaced guards m) fun object => unlock_wellPlaced guards object)
    (.pure ())

/-! ## Parts that need the thread in one place -/

theorem leaveManaged_spares : Spares kept kept (leaveManaged host) fun _ => True := by
  refine .sees fun state => .bind (.require fun _ met => met.1) fun _ => .bind (.record _)
    fun _ => .run ?_ fun _ _ _ _ _ => trivial
  rintro s why s' ⟨⟨met, rfl⟩, managed⟩ stopped
  exact guards.toNative s why s' met (of_decide_eq_true managed) stopped

theorem returnToManaged_spares : Spares kept kept (returnToManaged host) fun _ => True := by
  refine .looks fun state => .bind (.require fun _ met => met) fun _ => .bind (.record _)
    fun _ => .run ?_ fun _ _ _ _ _ => trivial
  rintro s why s' ⟨met, -⟩ stopped
  exact guards.toManaged s why s' met stopped

theorem honourSuspend_spares : Spares kept kept (honourSuspend host) fun _ => True := by
  refine .looks fun requested => .ite (.sees fun holds => ?_) (.pure () fun _ _ => trivial)
  refine .bind (.require fun _ met => met.1) fun _ => .bind (.record _)
    fun _ => .run ?_ fun _ _ _ _ _ => trivial
  rintro s why s' ⟨⟨met, rfl⟩, holds⟩ stopped
  exact guards.checkSuspend s why s' met holds stopped

theorem lock_spares (object : O) : Spares kept kept (lock host object) kept := by
  have entered : host.Keeps kept (.enterMonitor object) := guards.quiet _ (by simp) (by simp)
  have entering : Spares kept kept
      (run (host.enterMonitor object) : Crossing σ O X (Except X Unit)) kept :=
    .run (guards.enterMonitor object) fun s exited s' met run =>
      (entered s [] met trivial).2 s' ⟨exited, run⟩
  refine .bind (.record _) fun _ => .bind entering fun entered => ?_
  cases entered with
  | ok _ => exact .pure () fun _ met => met
  | error exception =>
    exact .of_keeps (makePending_wellPlaced exception)
      (makePending_passes (fun _ => guards.quiet _ (by simp) (by simp)) exception)

theorem lockFor_spares (m : Method) : Spares kept kept (lockFor host m) kept :=
  .ite (.bind (.of_keeps (lockObject_wellPlaced guards m)
      (lockObject_passes m (guards.quiet _ (by simp) (by simp)))) fun object =>
    lock_spares guards object) (.pure () fun _ met => met)

/-! ## Uses of the boundary -/

theorem beginNormal_spares (locked : Option O) (reported : Bool) :
    Spares kept kept (beginNormal host b locked reported) fun _ => True := by
  have notes := host.keeps_note kept
  have locking : Spares kept kept (locked.forM (lock host)) kept := by
    cases locked with
    | none => exact .pure () fun _ met => met
    | some object => exact lock_spares guards object
  have opening : Spares kept kept (openScope host) kept :=
    .of_keeps openScope_wellPlaced (openScope_passes fun _ => guards.quiet _ (by simp) (by simp))
  rw [beginNormal_eq]
  refine .bind locking fun _ => .bind opening fun saved => .looks fun thread =>
    .bind (.of_keeps (traceEntry_verdict b thread) (traceEntry_passes b notes thread)) fun _ =>
    .bind (.of_keeps (checkTier_wellPlaced b _) (checkTier_passes b _)) fun _ =>
    .bind (leaveManaged_spares guards) fun _ => .of_wellPlaced ?_
  exact .bind (.ite (reportBegin_verdict b) (.pure ())) fun _ => .pure saved

theorem comeBack_spares : Spares kept kept (comeBack host b) fun _ => True :=
  .bind (.of_keeps (traceExit_verdict b) (traceExit_passes b (host.keeps_note kept))) fun _ =>
    .bind (.of_keeps (checkTier_wellPlaced b _) (checkTier_passes b _)) fun _ =>
      returnToManaged_spares guards

theorem finishNormal_spares (locked : Option O) (reported : Bool) :
    Spares kept kept (finishNormal host b locked reported) fun _ => True := by
  have reporting : Spares kept kept (onlyIf reported (reportEnd host b)) kept :=
    .of_keeps (.ite (reportEnd_verdict b) (.pure ()))
      (.onlyIf _ (reportEnd_passes b (host.keeps_note kept)) fun _ _ met => met)
  have unlocking : WellPlaced (locked.forM (unlock host)) := by
    cases locked with
    | none => exact .pure ()
    | some object => exact unlock_wellPlaced guards object
  rw [finishNormal_eq]
  exact .bind reporting fun _ => .bind (comeBack_spares b guards) fun _ => .of_wellPlaced unlocking

theorem finishFast_spares : Spares kept kept (finishFast host b) fun _ => True :=
  .bind (.of_keeps (checkTier_wellPlaced b _) (checkTier_passes b _)) fun _ =>
    honourSuspend_spares guards

theorem beginMethod_spares (m : Method) :
    Spares kept kept (beginMethod host b m) fun _ => True := by
  rw [beginMethod_eq]
  refine .bind (.of_keeps (checkSynchronizedTier_wellPlaced b m)
    (checkSynchronizedTier_passes b m)) fun _ => .bind (lockFor_spares guards m) fun _ => ?_
  cases m.tier with
  | normal => exact beginNormal_spares b guards none true
  | fast =>
    exact .of_wellPlaced (.bind openScope_wellPlaced fun _ =>
      .bind (checkTier_wellPlaced b _) fun _ => .pure _)
  | critical =>
    exact .of_wellPlaced (.bind (checkTier_wellPlaced b _) fun _ => Verdict.looked)

theorem endMethod_spares (m : Method) (saved : ScopeMark) (registers : Registers) :
    Spares kept kept (endMethod host b m saved registers) fun _ => True := by
  have finishing : Spares kept kept (finishTier host b m.tier) fun _ => True := by
    cases m.tier with
    | normal => exact finishNormal_spares b guards none true
    | fast => exact finishFast_spares b guards
    | critical => exact .of_wellPlaced (checkTier_wellPlaced b _)
  rw [endMethod_eq]
  exact .bind finishing fun _ => .of_wellPlaced (.bind (unlockFor_wellPlaced b guards m)
    fun _ => deliver_wellPlaced b guards m saved registers)

end Guarded

end Crossing

namespace Passage

variable {host : Host σ O X} {kept : σ → Prop} (b : Boundary) (guards : host.Guards kept)
include guards

/-- Where a use of the boundary is stopped for a thread in the wrong place, nothing has been made of
it. -/
theorem run_spares (p : Passage O Handle ScopeMark Method Registers) :
    Crossing.Spares kept kept (p.run host b) fun _ => True := by
  have giving {c : Crossing σ O X Unit} (spares : Crossing.Spares kept kept c fun _ => True) :
      Crossing.Spares kept kept (do
        c
        pure .nothing : Crossing σ O X (PassageResult O)) fun _ => True :=
    .bind spares fun _ => .pure _ fun _ _ => trivial
  cases p with
  | beginNormal locked reported => exact .map _ (Crossing.beginNormal_spares b guards _ _)
  | endNormal locked reported saved =>
    exact giving (.bind (Crossing.finishNormal_spares b guards _ _) fun _ =>
      .of_wellPlaced (Crossing.closeScope_wellPlaced _ saved))
  | endNormalReference locked reported handle saved =>
    exact .map _ (.bind (Crossing.finishNormal_spares b guards _ _) fun _ =>
      .of_wellPlaced (Crossing.referenceResult_wellPlaced b guards handle saved none))
  | beginFast =>
    exact .map _ (.of_wellPlaced (.bind Crossing.openScope_wellPlaced fun _ =>
      .bind (Crossing.checkTier_wellPlaced b _) fun _ => .pure _))
  | endFast saved =>
    exact giving (.bind (Crossing.finishFast_spares b guards) fun _ =>
      .of_wellPlaced (Crossing.closeScope_wellPlaced _ saved))
  | endFastReference handle saved =>
    exact .map _ (.bind (Crossing.finishFast_spares b guards) fun _ =>
      .of_wellPlaced (.bind (Crossing.traceExit_verdict b) fun _ =>
        Crossing.referenceResult_wellPlaced b guards handle saved none))
  | beginCritical | endCritical =>
    exact giving (.of_wellPlaced (Crossing.checkTier_wellPlaced b _))
  | beginMethod m => exact .map _ (Crossing.beginMethod_spares b guards m)
  | endMethod m saved registers =>
    exact .map _ (Crossing.endMethod_spares b guards m saved registers)
  | openScope => exact .map _ (.of_wellPlaced Crossing.openScope_wellPlaced)
  | closeScope checked saved =>
    exact giving (.of_wellPlaced (Crossing.closeScope_wellPlaced checked saved))
  | lock object =>
    exact .bind (Crossing.lock_spares guards object) fun _ => .pure _ fun _ _ => trivial
  | unlock object => exact giving (.of_wellPlaced (Crossing.unlock_wellPlaced guards object))
  | wayIn tier =>
    refine giving ?_
    cases tier with
    | normal => exact Crossing.leaveManaged_spares guards
    | fast | critical => exact .pure () fun _ _ => trivial
  | wayOut tier =>
    refine giving ?_
    cases tier with
    | normal => exact Crossing.returnToManaged_spares guards
    | fast => exact Crossing.honourSuspend_spares guards
    | critical => exact .pure () fun _ _ => trivial
  | verifyTier tier => exact giving (.of_wellPlaced (Crossing.verifyTier_wellPlaced tier))
  | refreshClass object =>
    exact .map _ (.of_wellPlaced (Crossing.refreshClass_wellPlaced guards object))
  | protect slot =>
    refine .map _ (.of_wellPlaced ?_)
    cases slot with
    | none => exact .bind (.pure ()) fun _ => .pure _
    | some object =>
      exact .bind (.record _) fun _ => .bind (.change _) fun _ => .bind (.pure ()) fun _ =>
        .bind (.record _) fun _ => .looks fun _ => .bind (.change _) fun _ => .pure _

end Passage

end NativeBoundary
