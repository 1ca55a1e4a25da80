import NativeBoundary.Proofs.Outcome
import NativeBoundary.Proofs.Crossing.Parts

/-!
# What the parts of an entry point do to the host

Each deed of the boundary is noted in the journal and has an effect on the state of the host.  What
a deed makes of an assertion about both is stated once for the deed; each part of an entry point
then passes from one assertion to another by the deeds that it does, which are listed here for each
part.  A run that is stopped has a journal, too, and a property that every entry keeps is a property
of that journal.
-/

set_option autoImplicit false

namespace NativeBoundary

variable {σ O X : Type}

/-! ## Deeds -/

/-- The states that a deed can leave the host in, where it returns. -/
def Host.Does (host : Host σ O X) : Deed O X → σ → σ → Prop
  | .toNative, s, s' => host.toNative s = .ok () s'
  | .toManaged, s, s' => host.toManaged s = .ok () s'
  | .checkSuspend, s, s' => host.checkSuspend s = .ok () s'
  | .takePending, s, s' => host.clearPending s = s'
  | .setPending exception, s, s' => host.setPending exception s = s'
  | .setScopeBase mark, s, s' => host.setScopeBase mark s = s'
  | .setScopeTop mark, s, s' => host.setScopeTop mark s = s'
  | .pushHandle object, s, s' => host.pushHandle object s = s'
  | .popHandle, s, s' => (host.popHandle s).2 = s'
  | .enterMonitor object, s, s' => ∃ entered, host.enterMonitor object s = .ok entered s'
  | .exitMonitor object, s, s' => ∃ exited, host.exitMonitor object s = .ok exited s'
  | .lockObject m, s, s' => ∃ object, host.lockObject m s = .ok object s'
  | .checkResult m result, s, s' => host.checkResult m result s = .ok () s'
  | .currentCopy object, s, s' => ∃ current, host.currentCopy object s = .ok current s'
  | .decode _, s, s' | .isMarked _, s, s' | .asked _, s, s' | .begun _, s, s'
  | .ending _, s, s' | .traced _, s, s' => s = s'

def Deed.isNote : Deed O X → Bool
  | .asked _ | .begun _ | .ending _ | .traced _ => true
  | _ => false

abbrev Assertion (σ O X : Type) := σ → List (Entry O X) → Prop

/-- A deed keeps the journal sound and, where it returns, passes from one assertion to another. -/
def Host.Passes (host : Host σ O X) (sound : List (Entry O X) → Prop) (I : Assertion σ O X)
    (deed : Deed O X) (J : Assertion σ O X) : Prop :=
  ∀ s j, I s j → sound j →
    sound (j ++ [host.entry deed s]) ∧
      ∀ s', host.Does deed s s' → J s' (j ++ [host.entry deed s])

def Host.Keeps (host : Host σ O X) (P : σ → Prop) (deed : Deed O X) : Prop :=
  host.Passes (fun _ => True) (fun s _ => P s) deed fun s _ => P s

theorem Host.Keeps.of_does {host : Host σ O X} {P : σ → Prop} {deed : Deed O X}
    (keeps : ∀ s s', P s → host.Does deed s s' → P s') : host.Keeps P deed :=
  fun s _ met _ => ⟨trivial, fun s' does => keeps s s' met does⟩

theorem Host.keeps_note (host : Host σ O X) (P : σ → Prop) (deed : Deed O X)
    (note : deed.isNote = true) : host.Keeps P deed := by
  refine .of_does fun s s' met does => ?_
  cases deed with
  | asked _ | begun _ | ending _ | traced _ =>
    obtain rfl := does
    exact met
  | _ => simp [Deed.isNote] at note

namespace Crossing

variable {α β : Type} {host : Host σ O X} {sound : List (Entry O X) → Prop}
  {I J K : Assertion σ O X}

/-- A crossing keeps the journal sound and, where it returns, passes from one assertion to another.
-/
def Passes (sound : List (Entry O X) → Prop) (I : Assertion σ O X) (c : Crossing σ O X α)
    (J : Assertion σ O X) : Prop :=
  Act.Ensures (fun w => I w.state w.journal ∧ sound w.journal) c
    (fun _ w => J w.state w.journal ∧ sound w.journal) fun w => sound w.journal

def Keeps (P : σ → Prop) (c : Crossing σ O X α) : Prop :=
  Passes (fun _ => True) (fun s _ => P s) c fun s _ => P s

/-- What is known between the entry of a deed and its effect. -/
def Noted (host : Host σ O X) (sound : List (Entry O X) → Prop) (I : Assertion σ O X)
    (deed : Deed O X) : Assertion σ O X :=
  fun s j => ∃ before, j = before ++ [host.entry deed s] ∧ I s before ∧ sound before

theorem Passes.of_ok {c : Crossing σ O X α} {w w' : World σ O X} {a : α}
    (passes : Passes sound I c J) (run : c w = .ok a w') (met : I w.state w.journal)
    (before : sound w.journal) : J w'.state w'.journal ∧ sound w'.journal := by
  have outcome := passes w ⟨met, before⟩
  simp only [run] at outcome
  exact outcome

theorem Keeps.of_ok {P : σ → Prop} {c : Crossing σ O X α} (keeps : Keeps P c)
    {w w' : World σ O X} {a : α} (run : c w = .ok a w') (met : P w.state) : P w'.state :=
  (Passes.of_ok keeps run met trivial).1

namespace Passes

theorem pure (a : α) (weaker : ∀ s j, I s j → J s j) :
    Passes sound I (Pure.pure a : Crossing σ O X α) J :=
  Act.Ensures.pure a fun _ met => ⟨weaker _ _ met.1, met.2⟩

theorem stay (a : α) : Passes sound I (Pure.pure a : Crossing σ O X α) I :=
  .pure a fun _ _ met => met

theorem bind {c : Crossing σ O X α} {f : α → Crossing σ O X β} (first : Passes sound I c J)
    (rest : ∀ a, Passes sound J (f a) K) : Passes sound I (c >>= f) K :=
  Act.Ensures.bind first rest

theorem map (f : α → β) {c : Crossing σ O X α} (inner : Passes sound I c J) :
    Passes sound I (f <$> c) J :=
  Act.Ensures.map f inner

theorem weaken {I' : Assertion σ O X} {c : Crossing σ O X α} (inner : Passes sound I c J)
    (weaker : ∀ s j, I' s j → I s j) : Passes sound I' c J :=
  Act.Ensures.weaken inner (fun _ met => ⟨weaker _ _ met.1, met.2⟩) (fun _ _ met => met)
    fun _ met => met

theorem widen {c : Crossing σ O X α} (inner : Passes sound I c J)
    (wider : ∀ s j, J s j → K s j) : Passes sound I c K :=
  Act.Ensures.weaken inner (fun _ met => met) (fun _ _ met => ⟨wider _ _ met.1, met.2⟩)
    fun _ met => met

/-- The journal is sound however a crossing comes out. -/
theorem sound_journal {c : Crossing σ O X α} {w : World σ O X} (passes : Passes sound I c J)
    (met : I w.state w.journal) (before : sound w.journal) :
    sound (Act.stateOf (c w)).journal := by
  have outcome := passes w ⟨met, before⟩
  cases result : c w with
  | ok a w' =>
    simp only [result] at outcome
    exact outcome.2
  | error why w' =>
    simp only [result] at outcome
    exact outcome

theorem ite {condition : Prop} [Decidable condition] {c d : Crossing σ O X α}
    (whenTrue : Passes sound I c J) (whenFalse : Passes sound I d J) :
    Passes sound I (if condition then c else d) J := by
  split
  · exact whenTrue
  · exact whenFalse

theorem onlyIf (condition : Bool) {c : Crossing σ O X Unit} (inner : Passes sound I c J)
    (weaker : ∀ s j, I s j → J s j) : Passes sound I (onlyIf condition c) J :=
  ite inner (.pure () weaker)

theorem look (view : σ → α) : Passes sound I (look view : Crossing σ O X α) I :=
  fun _ met => met

theorem halt (why : Halt) : Passes sound I (halt why : Crossing σ O X α) J :=
  fun _ met => met.2

theorem require (condition : Bool) (otherwise : Defect) :
    Passes sound I (require condition otherwise : Crossing σ O X Unit) I :=
  ite (.stay ()) (halt _)

variable {deed : Deed O X}

theorem record (passes : host.Passes sound I deed J) :
    Passes sound I (record host deed) (Noted host sound I deed) :=
  fun w met => ⟨⟨w.journal, rfl, met⟩, (passes w.state w.journal met.1 met.2).1⟩

theorem note (passes : host.Passes sound I deed J) (idle : ∀ s, host.Does deed s s) :
    Passes sound I (Crossing.record host deed) J := by
  intro w met
  obtain ⟨journal, effect⟩ := passes w.state w.journal met.1 met.2
  exact ⟨effect w.state (idle w.state), journal⟩

theorem change {update : σ → σ} (passes : host.Passes sound I deed J)
    (does : ∀ s, host.Does deed s (update s)) :
    Passes sound (Noted host sound I deed) (change update) J := by
  rintro w ⟨⟨before, written, met⟩, journal⟩
  refine ⟨?_, journal⟩
  have after := (passes w.state before met.1 met.2).2 _ (does w.state)
  rw [← written] at after
  exact after

theorem run {action : Act σ α} (passes : host.Passes sound I deed J)
    (does : ∀ s a s', action s = .ok a s' → host.Does deed s s') :
    Passes sound (Noted host sound I deed) (run action) J := by
  rintro w ⟨⟨before, written, met⟩, journal⟩
  unfold Crossing.run
  cases result : action w.state with
  | ok a s =>
    refine ⟨?_, journal⟩
    have after := (passes w.state before met.1 met.2).2 s (does w.state a s result)
    rw [← written] at after
    exact after
  | error why s => exact journal

theorem action {P : σ → Prop} {action : Act σ α}
    (keeps : ∀ s a s', P s → action s = .ok a s' → P s') :
    Keeps P (Crossing.run action : Crossing σ O X α) := by
  intro w met
  unfold Crossing.run
  cases result : action w.state with
  | ok a s => exact ⟨keeps w.state a s met.1 result, trivial⟩
  | error why s => trivial

end Passes

variable (b : Boundary)

/-! ## Parts without deeds, and words to the observer and of the tracer -/

theorem verifyTier_passes (tier : Tier) : Passes sound I (verifyTier host tier) I := by
  refine .bind (.look _) fun executing => ?_
  cases executing with
  | none => exact .stay ()
  | some m => exact .ite (.stay ()) (.halt _)

theorem checkTier_passes (tier : Tier) : Passes sound I (checkTier host b tier) I :=
  .ite (verifyTier_passes tier) (.stay ())

theorem checkSynchronizedTier_passes (m : Method) :
    Passes sound I (checkSynchronizedTier b m : Crossing σ O X Unit) I :=
  .ite (.halt _) (.stay ())

theorem checkScope_passes : Passes sound I (checkScope host) I := by
  refine .bind (.look _) fun held => ?_
  have rest : Passes sound I (do
      let base ← Crossing.look host.scopeBase
      let top ← Crossing.look host.scopeTop
      if top.position < base.position then
        fault (.scopeUnderflow top.position base.position) : Crossing σ O X Unit) I :=
    .bind (.look _) fun _ => .bind (.look _) fun _ => .ite (.halt _) (.stay ())
  exact .ite (.bind (.halt _) fun _ => rest) rest

section Notes

variable (notes : ∀ deed : Deed O X, deed.isNote = true → host.Passes sound I deed I)
include notes

theorem announce_passes (events : List TraceEvent) : Passes sound I (announce host events) I := by
  induction events with
  | nil => exact .stay ()
  | cons event rest ih => exact .bind (.note (notes _ rfl) fun _ => rfl) fun _ => ih

theorem traceEntry_passes (thread : UInt64) : Passes sound I (traceEntry host b thread) I :=
  .bind (.look _) fun _ => .bind (announce_passes notes _) fun _ => fun _ met => met

theorem traceExit_passes : Passes sound I (traceExit host b) I :=
  .bind (.look _) fun _ => .bind (announce_passes notes _) fun _ => fun _ met => met

theorem askObserver_passes : Passes sound I (askObserver host b) I := by
  refine .ite (.bind (fun _ met => met) fun _ => ?_) (.stay _)
  exact .bind (.note (notes _ rfl) fun _ => rfl) fun _ => .bind (fun _ met => met) fun _ => .stay _

theorem reportBegin_passes : Passes sound I (reportBegin host b) I :=
  .bind (askObserver_passes b notes) fun _ =>
    .ite (.bind (.look _) fun _ => .note (notes _ rfl) fun _ => rfl) (.stay ())

theorem reportEnd_passes : Passes sound I (reportEnd host b) I :=
  .bind (askObserver_passes b notes) fun _ =>
    .ite (.bind (.look _) fun _ => .note (notes _ rfl) fun _ => rfl) (.stay ())

end Notes

/-! ## Parts with deeds -/

theorem leaveManaged_passes (toNative : host.Passes sound I .toNative J) :
    Passes sound I (leaveManaged host) J :=
  .bind (.look _) fun _ => .bind (.require _ _) fun _ => .bind (.record toNative) fun _ =>
    .run toNative fun _ _ _ done => done

theorem returnToManaged_passes (toManaged : host.Passes sound I .toManaged J) :
    Passes sound I (returnToManaged host) J :=
  .bind (.look _) fun _ => .bind (.require _ _) fun _ => .bind (.record toManaged) fun _ =>
    .run toManaged fun _ _ _ done => done

theorem honourSuspend_passes (checkSuspend : host.Passes sound I .checkSuspend J)
    (weaker : ∀ s j, I s j → J s j) : Passes sound I (honourSuspend host) J := by
  refine .bind (.look _) fun requested => ?_
  refine .ite (.bind (.look _) fun _ => .bind (.require _ _) fun _ => ?_) (.pure () weaker)
  exact .bind (.record checkSuspend) fun _ => .run checkSuspend fun _ _ _ done => done

theorem openScope_passes (setScopeBase : ∀ mark, host.Passes sound I (.setScopeBase mark) I) :
    Passes sound I (openScope host) I :=
  .bind (.look _) fun _ => .bind (.look _) fun mark => .bind (.record (setScopeBase mark)) fun _ =>
    .bind (.change (setScopeBase mark) fun _ => rfl) fun _ => .stay _

theorem closeScope_passes (setScopeTop : ∀ mark, host.Passes sound I (.setScopeTop mark) J)
    (setScopeBase : ∀ mark, host.Passes sound J (.setScopeBase mark) J) (checked : Bool)
    (saved : ScopeMark) : Passes sound I (closeScope host checked saved) J := by
  rw [closeScope_eq]
  refine .bind (.onlyIf _ checkScope_passes fun _ _ met => met) fun _ => ?_
  exact .bind (.look _) fun base => .bind (.record (setScopeTop base)) fun _ =>
    .bind (.change (setScopeTop base) fun _ => rfl) fun _ =>
      .bind (.record (setScopeBase saved)) fun _ => .change (setScopeBase saved) fun _ => rfl

theorem lookUpResult_passes (handle : Handle) (decode : host.Passes sound I (.decode handle) J)
    (weaker : ∀ s j, I s j → J s j) : Passes sound I (lookUpResult host handle) J :=
  .bind (.look _) fun _ => .ite (.pure _ weaker)
    (.bind (.note decode fun _ => rfl) fun _ => .look _)

theorem lockObject_passes (m : Method) (resolve : host.Passes sound I (.lockObject m) J) :
    Passes sound I (lockObject host m) J := by
  refine .bind (.record resolve) fun _ =>
    .bind (.run resolve fun _ r _ done => ⟨r, done⟩) fun found => ?_
  cases found with
  | none => exact .halt _
  | some object => exact .stay object

section Monitor

variable (object : O) (setPending : ∀ exception, host.Passes sound J (.setPending exception) J)
include setPending

theorem makePending_passes (exception : X) :
    Passes sound J (do
      record host (.setPending exception)
      change (host.setPending exception)) J :=
  .bind (.record (setPending exception)) fun _ => .change (setPending exception) fun _ => rfl

theorem lock_passes (enter : host.Passes sound I (.enterMonitor object) J) :
    Passes sound I (lock host object) J := by
  refine .bind (.record enter) fun _ =>
    .bind (.run enter fun _ r _ done => ⟨r, done⟩) fun result => ?_
  cases result with
  | ok _ => exact .stay ()
  | error exception => exact makePending_passes setPending exception

theorem unlock_passes (takePending : host.Passes sound I .takePending I)
    (exit : host.Passes sound I (.exitMonitor object) J) :
    Passes sound I (unlock host object) J := by
  refine .bind (.record takePending) fun _ => .bind (.look _) fun saved =>
    .bind (.change takePending fun _ => rfl) fun _ => .bind (.record exit) fun _ =>
      .bind (.run exit fun _ r _ done => ⟨r, done⟩) fun result => ?_
  cases result with
  | ok _ =>
    cases saved with
    | none => exact .stay ()
    | some first => exact makePending_passes setPending first
  | error second =>
    cases saved with
    | none => exact makePending_passes setPending second
    | some first => exact .halt _

end Monitor

theorem refreshClass_passes (object : O) (isMarked : host.Passes sound I (.isMarked object) I)
    (currentCopy : host.Passes sound I (.currentCopy object) I) :
    Passes sound I (refreshClass host object) I := by
  have ask : Passes sound I (do
      Crossing.record host (.currentCopy object)
      Crossing.run (host.currentCopy object)) I :=
    .bind (.record currentCopy) fun _ => .run currentCopy fun _ r _ done => ⟨r, done⟩
  refine .bind (.look _) fun _ => .bind (.require _ _) fun _ => .bind (.look _) fun proves => ?_
  refine .ite ?_ (.bind (.stay _) fun _ => .ite (.stay _) ask)
  exact .bind (.note isMarked fun _ => rfl) fun _ => .bind (.look _) fun _ => .ite (.stay _) ask

theorem protecting_passes {Q R : O → Assertion σ O X} (slot : Option O)
    {action : Crossing σ O X Unit}
    (push : ∀ object, host.Passes sound I (.pushHandle object) (Q object))
    (bare : Passes sound I action J)
    (inner : ∀ object, Passes sound (Q object) action (R object))
    (pop : ∀ object, host.Passes sound (R object) .popHandle J) :
    Passes sound I (protecting host slot action) J := by
  cases slot with
  | none => exact .bind bare fun _ => .stay _
  | some object =>
    refine .bind (.record (push object)) fun _ =>
      .bind (.change (push object) fun _ => rfl) fun _ => .bind (inner object) fun _ => ?_
    intro w met
    obtain ⟨journal, effect⟩ := pop object w.state w.journal met.1 met.2
    exact ⟨effect _ rfl, journal⟩

theorem verifyResult_passes {Q R : O → Assertion σ O X} (method : Option Method)
    (result : Option O)
    (weaker : ∀ s j, I s j → J s j)
    (push : ∀ object, host.Passes sound I (.pushHandle object) (Q object))
    (bare : ∀ m, host.Passes sound I (.checkResult m result) J)
    (inner : ∀ m object, host.Passes sound (Q object) (.checkResult m result) (R object))
    (pop : ∀ object, host.Passes sound (R object) .popHandle J) :
    Passes sound I (verifyResult host b method result) J := by
  refine .ite (.bind (.look _) fun executing => ?_) (.pure _ weaker)
  cases method <|> executing with
  | none => exact .pure _ weaker
  | some m =>
    refine protecting_passes result push ?_ (fun object => ?_) pop
    · exact .bind (.record (bare m)) fun _ => .run (bare m) fun _ _ _ done => done
    · exact .bind (.record (inner m object)) fun _ => .run (inner m object) fun _ _ _ done => done

/-! ## The lock of a call that is known by its method -/

theorem lockFor_passes (m : Method) (weaker : ∀ s j, I s j → J s j)
    (resolve : host.Passes sound I (.lockObject m) I)
    (enter : ∀ object, host.Passes sound I (.enterMonitor object) J)
    (setPending : ∀ exception, host.Passes sound J (.setPending exception) J) :
    Passes sound I (lockFor host m) J :=
  .onlyIf _ (.bind (lockObject_passes m resolve) fun object =>
    lock_passes object setPending (enter object)) weaker

theorem unlockFor_passes (m : Method) (weaker : ∀ s j, I s j → J s j)
    (resolve : host.Passes sound I (.lockObject m) I)
    (takePending : host.Passes sound I .takePending I)
    (exit : ∀ object, host.Passes sound I (.exitMonitor object) J)
    (setPending : ∀ exception, host.Passes sound J (.setPending exception) J) :
    Passes sound I (unlockFor host b m) J :=
  .onlyIf _ (.bind (checkSynchronizedTier_passes b m) fun _ =>
    .bind (lockObject_passes m resolve) fun object =>
      unlock_passes object setPending takePending (exit object)) weaker

theorem seekLock_passes (m : Method) (resolve : host.Passes sound I (.lockObject m) I) :
    Passes sound I (seekLock host b m) I :=
  .bind (checkSynchronizedTier_passes b m) fun _ =>
    .ite (.map _ (lockObject_passes m resolve)) (.stay _)

/-! ## Beginnings -/

theorem beginNormal_passes (locked : Option O) (reported : Bool)
    (notes : ∀ deed : Deed O X, deed.isNote = true → host.Passes sound I deed I)
    (notesThere : ∀ deed : Deed O X, deed.isNote = true → host.Passes sound J deed J)
    (enter : ∀ object, locked = some object → host.Passes sound I (.enterMonitor object) I)
    (setPending : locked.isSome → ∀ exception, host.Passes sound I (.setPending exception) I)
    (setScopeBase : ∀ mark, host.Passes sound I (.setScopeBase mark) I)
    (toNative : host.Passes sound I .toNative J) :
    Passes sound I (beginNormal host b locked reported) J := by
  have locking : Passes sound I (locked.forM (lock host)) I := by
    cases locked with
    | none => exact .stay ()
    | some object => exact lock_passes object (setPending rfl) (enter object rfl)
  rw [beginNormal_eq]
  exact .bind locking fun _ => .bind (openScope_passes setScopeBase) fun _ =>
    .bind (.look _) fun _ => .bind (traceEntry_passes b notes _) fun _ =>
      .bind (checkTier_passes b _) fun _ => .bind (leaveManaged_passes toNative) fun _ =>
        .bind (.onlyIf _ (reportBegin_passes b notesThere) fun _ _ met => met) fun _ => .stay _

theorem beginFast_passes (setScopeBase : ∀ mark, host.Passes sound I (.setScopeBase mark) I) :
    Passes sound I (beginFast host b) I :=
  .bind (openScope_passes setScopeBase) fun _ => .bind (checkTier_passes b _) fun _ => .stay _

/-- Only a normal call leaves where it begins. -/
theorem beginTier_passes (tier : Tier)
    (notes : ∀ deed : Deed O X, deed.isNote = true → host.Passes sound I deed I)
    (notesThere : ∀ deed : Deed O X, deed.isNote = true → host.Passes sound J deed J)
    (setScopeBase : ∀ mark, host.Passes sound I (.setScopeBase mark) I)
    (toNative : tier = .normal → host.Passes sound I .toNative J)
    (stays : tier ≠ .normal → ∀ s j, I s j → J s j) :
    Passes sound I (beginTier host b tier) J := by
  cases tier with
  | normal =>
    exact beginNormal_passes b none true notes notesThere (fun _ locked => nomatch locked)
      (fun locked => nomatch locked) setScopeBase (toNative rfl)
  | fast => exact .widen (beginFast_passes b setScopeBase) (stays (by simp))
  | critical =>
    exact .widen (.bind (checkTier_passes b _) fun _ => .look _) (stays (by simp))

/-! ## Ends -/

theorem finishNormal_passes (locked : Option O) (reported : Bool)
    (notes : ∀ deed : Deed O X, deed.isNote = true → host.Passes sound I deed I)
    (toManaged : host.Passes sound I .toManaged J)
    (weaker : ∀ s j, J s j → K s j)
    (takePending : locked.isSome → host.Passes sound J .takePending J)
    (exit : ∀ object, locked = some object → host.Passes sound J (.exitMonitor object) K)
    (setPending : locked.isSome → ∀ exception, host.Passes sound K (.setPending exception) K) :
    Passes sound I (finishNormal host b locked reported) K := by
  have unlocking : Passes sound J (locked.forM (unlock host)) K := by
    cases locked with
    | none => exact .pure () weaker
    | some object =>
      exact unlock_passes object (setPending rfl) (takePending rfl) (exit object rfl)
  have back : Passes sound I (comeBack host b) J :=
    .bind (traceExit_passes b notes) fun _ => .bind (checkTier_passes b _) fun _ =>
      returnToManaged_passes toManaged
  rw [finishNormal_eq]
  exact .bind (.onlyIf _ (reportEnd_passes b notes) fun _ _ met => met) fun _ =>
    .bind back fun _ => unlocking

theorem finishFast_passes (checkSuspend : host.Passes sound I .checkSuspend J)
    (weaker : ∀ s j, I s j → J s j) : Passes sound I (finishFast host b) J :=
  .bind (checkTier_passes b _) fun _ => honourSuspend_passes checkSuspend weaker

/-- Only a normal call comes back, and only a fast one honours a suspend request. -/
theorem finishTier_passes (tier : Tier)
    (notes : ∀ deed : Deed O X, deed.isNote = true → host.Passes sound I deed I)
    (toManaged : tier = .normal → host.Passes sound I .toManaged J)
    (checkSuspend : tier = .fast → host.Passes sound I .checkSuspend J)
    (stayed : tier ≠ .normal → ∀ s j, I s j → J s j) :
    Passes sound I (finishTier host b tier) J := by
  cases tier with
  | normal =>
    exact finishNormal_passes b none true notes (toManaged rfl) (fun _ _ met => met)
      (fun locked => nomatch locked) (fun _ locked => nomatch locked) fun locked => nomatch locked
  | fast => exact finishFast_passes b (checkSuspend rfl) (stayed (by simp))
  | critical => exact .widen (checkTier_passes b _) (stayed (by simp))

section Result

variable {L : Assertion σ O X} {Q R : O → Assertion σ O X} (saved : ScopeMark)
  (known : ∀ s j, I s j → J s j)
  (decode : ∀ handle, host.Passes sound I (.decode handle) J)
  (setScopeTop : ∀ mark, host.Passes sound J (.setScopeTop mark) K)
  (setScopeBase : ∀ mark, host.Passes sound K (.setScopeBase mark) K)
  (unchecked : ∀ s j, K s j → L s j)
  (push : ∀ object, host.Passes sound K (.pushHandle object) (Q object))
  (bare : ∀ m result, host.Passes sound K (.checkResult m result) L)
  (inner : ∀ m object result, host.Passes sound (Q object) (.checkResult m result) (R object))
  (pop : ∀ object, host.Passes sound (R object) .popHandle L)
include known decode setScopeTop setScopeBase unchecked push bare inner pop

theorem referenceResult_passes (handle : Handle) (method : Option Method) :
    Passes sound I (referenceResult host b handle saved method) L := by
  rw [referenceResult_eq]
  refine .bind (lookUpResult_passes handle (decode handle) known) fun object =>
    .bind (closeScope_passes setScopeTop setScopeBase _ saved) fun _ => ?_
  exact verifyResult_passes b method object unchecked push (fun m => bare m object)
    (fun m o => inner m o object) pop

theorem deliver_passes (m : Method) (registers : Registers)
    (notes : ∀ deed : Deed O X, deed.isNote = true → host.Passes sound I deed I)
    (unclosed : ∀ s j, J s j → K s j) :
    Passes sound I (deliver host b m saved registers) L := by
  have reference := referenceResult_passes b saved known decode setScopeTop setScopeBase unchecked
    push bare inner pop registers.handle (some m)
  have closing : Passes sound I (do
      Crossing.onlyIf m.tier.opensScope (closeScope host b.settings.checked saved)) L := by
    refine .widen (.weaken ?_ known) unchecked
    exact .onlyIf _ (closeScope_passes setScopeTop setScopeBase _ saved) unclosed
  unfold deliver
  cases ReturnKind.ofByte m.returnByte with
  | error why => exact .halt _
  | ok kind =>
    cases kind with
    | object =>
      cases m.tier with
      | critical => exact .halt _
      | fast => exact .bind (traceExit_passes b notes) fun _ => .map _ reference
      | normal => exact .map _ reference
    | _ => exact .bind closing fun _ => .stay _

end Result

end Crossing

end NativeBoundary
