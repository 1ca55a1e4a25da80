import NativeBoundary.Crossing.Steps

/-!
# Entry points

A call of a native method is a beginning and an end.  For a normal call,

    beginning: [lock] - open scope - to native code - [tell observer]
    end:       [tell observer] - to managed code - [unlock] - look up result - close scope - verify

A fast call stays in managed code and honours a suspend request at its end; a critical call does
nothing at all.  Compiled callers use the beginning and end that fit the method; callers that only
know which method it is use `beginMethod` and `endMethod`.
-/

set_option autoImplicit false

namespace NativeBoundary.Crossing

variable {σ O X : Type} (host : Host σ O X) (b : Boundary)

/-! ## Normal calls -/

/-- Beginning of a normal call.  `locked` is the object of a synchronized call; `reported` says
whether the observer is told. -/
def beginNormal (locked : Option O) (reported : Bool) : Crossing σ O X ScopeMark := do
  if let some object := locked then lock host object
  let saved ← openScope host
  traceEntry host b (← look host.env)
  checkTier host b .normal
  leaveManaged host
  if reported then reportBegin host b
  pure saved

def comeBack : Crossing σ O X Unit := do
  traceExit host b
  checkTier host b .normal
  returnToManaged host

/-- A reference result.  While an exception is pending the handle means nothing and is not looked
up.  In checked mode the result is verified against a method, the executing one if none is given,
while it is protected. -/
def referenceResult (handle : Handle) (saved : ScopeMark) (method : Option Method) :
    Crossing σ O X (Option O) := do
  let object ←
    if (← look host.pending).isSome then pure none
    else do
      record host (.decode handle)
      look (host.decode handle)
  closeScope host b.settings.checked saved
  if b.settings.checked then
    match method <|> (← look host.executing) with
    | none => pure object
    | some m => protecting host object do
      record host (.checkResult m object)
      run (host.checkResult m object)
  else pure object

def finishNormal (locked : Option O) (reported : Bool) : Crossing σ O X Unit := do
  if reported then reportEnd host b
  comeBack host b
  if let some object := locked then unlock host object

def endNormal (locked : Option O) (reported : Bool) (saved : ScopeMark) :
    Crossing σ O X Unit := do
  finishNormal host b locked reported
  closeScope host b.settings.checked saved

def endNormalReference (locked : Option O) (reported : Bool) (handle : Handle)
    (saved : ScopeMark) : Crossing σ O X (Option O) := do
  finishNormal host b locked reported
  referenceResult host b handle saved none

/-! ## Fast calls -/

def beginFast : Crossing σ O X ScopeMark := do
  let saved ← openScope host
  checkTier host b .fast
  pure saved

def finishFast : Crossing σ O X Unit := do
  checkTier host b .fast
  honourSuspend host

def endFast (saved : ScopeMark) : Crossing σ O X Unit := do
  finishFast host b
  closeScope host b.settings.checked saved

def endFastReference (handle : Handle) (saved : ScopeMark) : Crossing σ O X (Option O) := do
  finishFast host b
  traceExit host b
  referenceResult host b handle saved none

/-! ## Critical calls -/

def beginCritical : Crossing σ O X Unit :=
  checkTier host b .critical

def endCritical : Crossing σ O X Unit :=
  checkTier host b .critical

/-! ## Calls of a method that is only known by its description -/

/-- Beginning of a call of a method.  A synchronized method is locked before anything its tier
does.  A critical call opens no scope; its mark is that of the scope it runs in. -/
def beginMethod (m : Method) : Crossing σ O X ScopeMark := do
  checkSynchronizedTier b m
  if m.isSynchronized then lock host (← lockObject host m)
  match m.tier with
  | .normal => beginNormal host b none true
  | .fast => beginFast host b
  | .critical =>
    beginCritical host b
    look host.scopeBase

/-- End of a call of a method.  The thread is back in managed code before the object to unlock is
looked for, the monitor is released before the scope is closed, and so is the result looked up. -/
def endMethod (m : Method) (saved : ScopeMark) (registers : Registers) :
    Crossing σ O X (CallResult O) := do
  match m.tier with
  | .normal => finishNormal host b none true
  | .fast => finishFast host b
  | .critical => endCritical host b
  if m.isSynchronized then
    checkSynchronizedTier b m
    unlock host (← lockObject host m)
  match ReturnKind.ofByte m.returnByte with
  | .error why => fault why
  | .ok .object =>
    match m.tier with
    | .critical => fault (.criticalReference m.qualifiedName)
    | .fast =>
      traceExit host b
      .object <$> referenceResult host b registers.handle saved (some m)
    | .normal => .object <$> referenceResult host b registers.handle saved (some m)
  | .ok kind =>
    if m.tier.opensScope then closeScope host b.settings.checked saved
    pure (registers.result b.settings.floatReturn kind)

/-! ## All of them as data -/

end NativeBoundary.Crossing

namespace NativeBoundary

/-- One use of the boundary.  Objects, handles, marks, methods and registers may still be named by
whoever asks for it; `Passage.resolve` looks the names up. -/
inductive Passage (O H K M V : Type) where
  | beginNormal (locked : Option O) (reported : Bool)
  | endNormal (locked : Option O) (reported : Bool) (saved : K)
  | endNormalReference (locked : Option O) (reported : Bool) (handle : H) (saved : K)
  | beginFast
  | endFast (saved : K)
  | endFastReference (handle : H) (saved : K)
  | beginCritical
  | endCritical
  | beginMethod (method : M)
  | endMethod (method : M) (saved : K) (registers : V)
  | openScope
  | closeScope (checked : Bool) (saved : K)
  | lock (object : O)
  | unlock (object : O)
  | wayIn (tier : Tier)
  | wayOut (tier : Tier)
  | verifyTier (tier : Tier)
  | refreshClass (object : O)
  | protect (slot : Option O)

inductive PassageResult (O : Type) where
  | nothing
  | mark (mark : ScopeMark)
  | object (object : Option O)
  | result (result : CallResult O)

namespace Passage

def resolve {m : Type → Type} [Monad m] {O O' H H' K K' M M' V V' : Type}
    (object : O → m O') (handle : H → m H') (mark : K → m K') (method : M → m M')
    (registers : V → m V') : Passage O H K M V → m (Passage O' H' K' M' V')
  | beginNormal locked reported => do pure (beginNormal (← locked.mapM object) reported)
  | endNormal locked reported saved => do
    pure (endNormal (← locked.mapM object) reported (← mark saved))
  | endNormalReference locked reported h saved => do
    pure (endNormalReference (← locked.mapM object) reported (← handle h) (← mark saved))
  | beginFast => pure beginFast
  | endFast saved => do pure (endFast (← mark saved))
  | endFastReference h saved => do pure (endFastReference (← handle h) (← mark saved))
  | beginCritical => pure beginCritical
  | endCritical => pure endCritical
  | beginMethod m => do pure (beginMethod (← method m))
  | endMethod m saved v => do
    pure (endMethod (← method m) (← mark saved) (← registers v))
  | openScope => pure openScope
  | closeScope checked saved => do pure (closeScope checked (← mark saved))
  | lock o => do pure (lock (← object o))
  | unlock o => do pure (unlock (← object o))
  | wayIn tier => pure (wayIn tier)
  | wayOut tier => pure (wayOut tier)
  | verifyTier tier => pure (verifyTier tier)
  | refreshClass o => do pure (refreshClass (← object o))
  | protect slot => do pure (protect (← slot.mapM object))

variable {σ O X : Type} (host : Host σ O X) (b : Boundary)

def run : Passage O Handle ScopeMark Method Registers → Crossing σ O X (PassageResult O)
  | beginNormal locked reported => .mark <$> Crossing.beginNormal host b locked reported
  | endNormal locked reported saved => do
    Crossing.endNormal host b locked reported saved
    pure .nothing
  | endNormalReference locked reported handle saved =>
    .object <$> Crossing.endNormalReference host b locked reported handle saved
  | beginFast => .mark <$> Crossing.beginFast host b
  | endFast saved => do
    Crossing.endFast host b saved
    pure .nothing
  | endFastReference handle saved => .object <$> Crossing.endFastReference host b handle saved
  | beginCritical => do
    Crossing.beginCritical host b
    pure .nothing
  | endCritical => do
    Crossing.endCritical host b
    pure .nothing
  | beginMethod m => .mark <$> Crossing.beginMethod host b m
  | endMethod m saved registers => .result <$> Crossing.endMethod host b m saved registers
  | openScope => .mark <$> Crossing.openScope host
  | closeScope checked saved => do
    Crossing.closeScope host checked saved
    pure .nothing
  | lock object => do
    Crossing.lock host object
    pure .nothing
  | unlock object => do
    Crossing.unlock host object
    pure .nothing
  | wayIn tier => do
    Crossing.wayIn host tier
    pure .nothing
  | wayOut tier => do
    Crossing.wayOut host tier
    pure .nothing
  | verifyTier tier => do
    Crossing.verifyTier host tier
    pure .nothing
  | refreshClass object => (.object ∘ some) <$> Crossing.refreshClass host object
  | protect slot => .object <$> Crossing.protecting host slot (pure ())

end Passage

end NativeBoundary
