import NativeBoundary.Crossing.EntryPoints

/-!
# The parts of an entry point

Entry points branch on whether a call is synchronized, reported or checked.  Here each of them is
written as a plain sequence of parts, some of which may have nothing to do; what holds of a part is
then stated once for every entry point that has it.
-/

set_option autoImplicit false

namespace NativeBoundary.Crossing

variable {σ O X : Type} (host : Host σ O X) (b : Boundary)

/-! ## Parts -/

def onlyIf (condition : Bool) (action : Crossing σ O X Unit) : Crossing σ O X Unit :=
  if condition then action else pure ()

def lockFor (m : Method) : Crossing σ O X Unit :=
  onlyIf m.isSynchronized do lock host (← lockObject host m)

def beginTier : Tier → Crossing σ O X ScopeMark
  | .normal => beginNormal host b none true
  | .fast => beginFast host b
  | .critical => do
    beginCritical host b
    look host.scopeBase

/-- What the tier of a method does at the end of a call, before anything is unlocked. -/
def finishTier : Tier → Crossing σ O X Unit
  | .normal => finishNormal host b none true
  | .fast => finishFast host b
  | .critical => endCritical host b

def seekLock (m : Method) : Crossing σ O X (Option O) := do
  checkSynchronizedTier b m
  if m.isSynchronized then some <$> lockObject host m else pure none

def unlockFor (m : Method) : Crossing σ O X Unit :=
  onlyIf m.isSynchronized do
    checkSynchronizedTier b m
    unlock host (← lockObject host m)

def deliver (m : Method) (saved : ScopeMark) (registers : Registers) :
    Crossing σ O X (CallResult O) :=
  match ReturnKind.ofByte m.returnByte with
  | .error why => fault why
  | .ok .object =>
    match m.tier with
    | .critical => fault (.criticalReference m.qualifiedName)
    | .fast => do
      traceExit host b
      .object <$> referenceResult host b registers.handle saved (some m)
    | .normal => .object <$> referenceResult host b registers.handle saved (some m)
  | .ok kind => do
    onlyIf m.tier.opensScope (closeScope host b.settings.checked saved)
    pure (registers.result b.settings.floatReturn kind)

def lookUpResult (handle : Handle) : Crossing σ O X (Option O) := do
  if (← look host.pending).isSome then pure none
  else do
    record host (.decode handle)
    look (host.decode handle)

def verifyAgainst (m : Method) (object : Option O) : Crossing σ O X Unit := do
  record host (.checkResult m object)
  run (host.checkResult m object)

def verifyResult (method : Option Method) (object : Option O) : Crossing σ O X (Option O) :=
  if b.settings.checked then do
    match method <|> (← look host.executing) with
    | none => pure object
    | some m => protecting host object (verifyAgainst host m object)
  else pure object

def dropScope (saved : ScopeMark) : Crossing σ O X Unit := do
  let base ← look host.scopeBase
  record host (.setScopeTop base)
  change (host.setScopeTop base)
  record host (.setScopeBase saved)
  change (host.setScopeBase saved)

/-! ## Entry points as sequences of parts -/

theorem closeScope_eq (checked : Bool) (saved : ScopeMark) :
    closeScope host checked saved = (do
      onlyIf checked (checkScope host)
      dropScope host saved) := by
  cases checked <;> rfl

theorem beginNormal_eq (locked : Option O) (reported : Bool) :
    beginNormal host b locked reported = (do
      locked.forM (lock host)
      let saved ← openScope host
      traceEntry host b (← look host.env)
      checkTier host b .normal
      leaveManaged host
      onlyIf reported (reportBegin host b)
      pure saved) := by
  cases locked <;> cases reported <;> rfl

theorem finishNormal_eq (locked : Option O) (reported : Bool) :
    finishNormal host b locked reported = (do
      onlyIf reported (reportEnd host b)
      comeBack host b
      locked.forM (unlock host)) := by
  cases locked <;> cases reported <;> rfl

theorem referenceResult_eq (handle : Handle) (saved : ScopeMark) (method : Option Method) :
    referenceResult host b handle saved method = (do
      let object ← lookUpResult host handle
      closeScope host b.settings.checked saved
      verifyResult host b method object) := by
  unfold referenceResult lookUpResult
  rw [bind_assoc]
  refine congrArg _ (funext fun pending => ?_)
  cases pending with
  | none => rfl
  | some exception => rfl

theorem beginMethod_eq (m : Method) :
    beginMethod host b m = (do
      checkSynchronizedTier b m
      lockFor host m
      beginTier host b m.tier) := by
  unfold beginMethod lockFor
  refine congrArg _ (funext fun _ => ?_)
  cases m.isSynchronized with
  | false => rfl
  | true => exact (bind_assoc _ _ _).symm

/-- The rest of an end of a call, from the unlock on. -/
theorem unlockFor_bind {α : Type} (m : Method) (rest : Crossing σ O X α) :
    (do
      unlockFor host b m
      rest) =
      if m.isSynchronized then do
        checkSynchronizedTier b m
        unlock host (← lockObject host m)
        rest
      else rest := by
  unfold unlockFor
  cases m.isSynchronized with
  | false => rfl
  | true => simp only [onlyIf, if_true, bind_assoc]

theorem endMethod_eq (m : Method) (saved : ScopeMark) (registers : Registers) :
    endMethod host b m saved registers = (do
      finishTier host b m.tier
      unlockFor host b m
      deliver host b m saved registers) := by
  rw [unlockFor_bind]
  unfold endMethod deliver
  cases m.tier <;> rfl

theorem seekLock_bind {α : Type} (m : Method) (use : O → Crossing σ O X Unit)
    (rest : Crossing σ O X α) :
    (do
      let target ← seekLock host b m
      target.forM use
      rest) = (do
      checkSynchronizedTier b m
      onlyIf m.isSynchronized do use (← lockObject host m)
      rest) := by
  unfold seekLock
  rw [bind_assoc]
  refine congrArg _ (funext fun _ => ?_)
  cases m.isSynchronized with
  | false => rfl
  | true => simp [onlyIf, Option.forM, bind_assoc]

theorem beginMethod_eq_seekLock (m : Method) :
    beginMethod host b m = (do
      let target ← seekLock host b m
      target.forM (lock host)
      beginTier host b m.tier) := by
  rw [seekLock_bind, beginMethod_eq]
  rfl

theorem endMethod_eq_seekLock (m : Method) (saved : ScopeMark) (registers : Registers) :
    endMethod host b m saved registers = (do
      finishTier host b m.tier
      let target ← seekLock host b m
      target.forM (unlock host)
      deliver host b m saved registers) := by
  rw [seekLock_bind, endMethod_eq]
  refine congrArg _ (funext fun _ => ?_)
  unfold unlockFor
  cases isSynchronized : m.isSynchronized with
  | false => simp [onlyIf, checkSynchronizedTier, isSynchronized]
  | true => simp [onlyIf, bind_assoc]

end NativeBoundary.Crossing
