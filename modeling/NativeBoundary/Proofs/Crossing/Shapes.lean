import NativeBoundary.Proofs.Crossing.Ends
import NativeBoundary.Proofs.Crossing.Returned
import NativeBoundary.Proofs.Machine.Seen

/-!
# Calls that are known by their shape

A compiled caller knows the tier of a method, its return type and the object that a call of it
locks, and uses the beginning and the end that fit.  A caller that only knows the method finds all
of this out on the way.  The two come out alike: the search for the object to lock is all that
tells them apart.
-/

set_option autoImplicit false

namespace NativeBoundary

variable {σ O X : Type}

/-! ## The search for the object to lock -/

def Deed.isLookup : Deed O X → Bool
  | .lockObject _ => true
  | _ => false

def World.withoutLookups (w : World σ O X) : World σ O X :=
  { w with journal := w.journal.filter fun entry => !entry.deed.isLookup }

/-- The search finds the object that a call of a method locks, and leaves a state; for a method that
is not synchronized there is nothing to find. -/
inductive Host.Finds (host : Host σ O X) (m : Method) : σ → Option O → σ → Prop where
  | nothing {s : σ} (unsynchronized : m.isSynchronized = false) : Finds host m s none s
  | object {s s' : σ} {object : O} (synchronized : m.isSynchronized = true)
      (found : host.lockObject m s = .ok (some object) s') : Finds host m s (some object) s'

namespace Crossing

/-- Whether a search stands in the journal makes no difference to what follows. -/
theorem Appends.withoutLookups {α : Type} {c : Crossing σ O X α} (appends : c.Appends)
    (w : World σ O X) {entry : Entry O X} (lookup : entry.deed.isLookup = true) :
    Act.mapState World.withoutLookups (c { w with journal := w.journal ++ [entry] }) =
      Act.mapState World.withoutLookups (c w) := by
  have first := appends (w.journal ++ [entry]) { w with journal := [] }
  have second := appends w.journal { w with journal := [] }
  simp only [World.after, List.append_nil] at first second
  rw [first, second, Act.mapState_mapState, Act.mapState_mapState]
  refine congrArg (fun update => Act.mapState update _) (funext fun v => ?_)
  simp [World.after, World.withoutLookups, List.filter_append, lookup]

variable (host : Host σ O X) (b : Boundary)

/-! ## Beginnings and ends by shape -/

def beginShaped (tier : Tier) (locked : Option O) : Crossing σ O X ScopeMark :=
  match tier with
  | .normal => beginNormal host b locked true
  | .fast => beginFast host b
  | .critical => do
    beginCritical host b
    look host.scopeBase

def endShaped (tier : Tier) (kind : ReturnKind) (locked : Option O) (saved : ScopeMark)
    (registers : Registers) : Crossing σ O X (CallResult O) :=
  match tier, kind with
  | .normal, .object => .object <$> endNormalReference host b locked true registers.handle saved
  | .fast, .object => .object <$> endFastReference host b registers.handle saved
  | .normal, kind => do
    endNormal host b locked true saved
    pure (registers.result b.settings.floatReturn kind)
  | .fast, kind => do
    endFast host b saved
    pure (registers.result b.settings.floatReturn kind)
  | .critical, kind => do
    endCritical host b
    pure (registers.result b.settings.floatReturn kind)

/-- What is returned of a call of a known shape.  A reference is verified against a method, the
executing one if none is given. -/
def deliverShaped (tier : Tier) (kind : ReturnKind) (method : Option Method) (saved : ScopeMark)
    (registers : Registers) : Crossing σ O X (CallResult O) :=
  match tier, kind with
  | .normal, .object => .object <$> referenceResult host b registers.handle saved method
  | .fast, .object => do
    traceExit host b
    .object <$> referenceResult host b registers.handle saved method
  | tier, kind => do
    onlyIf tier.opensScope (closeScope host b.settings.checked saved)
    pure (registers.result b.settings.floatReturn kind)

variable {host b}

theorem checkSynchronizedTier_of_normal {m : Method}
    (normal : m.isSynchronized = true → m.tier = .normal) :
    (checkSynchronizedTier b m : Crossing σ O X Unit) = pure () := by
  unfold checkSynchronizedTier
  rw [if_neg]
  rintro ⟨-, synchronized, other⟩
  exact other (normal synchronized)

theorem deliver_eq_shaped {m : Method} {kind : ReturnKind}
    (known : ReturnKind.ofByte m.returnByte = .ok kind)
    (possible : ¬(m.tier = .critical ∧ kind = .object)) (saved : ScopeMark)
    (registers : Registers) :
    deliver host b m saved registers =
      deliverShaped host b m.tier kind (some m) saved registers := by
  unfold deliver
  rw [known]
  cases kind with
  | object =>
    cases tier : m.tier with
    | normal | fast => rfl
    | critical => exact absurd ⟨tier, rfl⟩ possible
  | _ => cases m.tier <;> rfl

theorem endShaped_eq {tier : Tier} {kind : ReturnKind} {locked : Option O}
    (normal : locked.isSome → tier = .normal) (saved : ScopeMark) (registers : Registers)
    (possible : ¬(tier = .critical ∧ kind = .object)) :
    endShaped host b tier kind locked saved registers = (do
      finishTier host b tier
      locked.forM (unlock host)
      deliverShaped host b tier kind none saved registers) := by
  cases tier with
  | normal =>
    have finish {α : Type} (rest : Crossing σ O X α) :
        (do
          finishNormal host b locked true
          rest) = (do
          finishNormal host b none true
          locked.forM (unlock host)
          rest) := by
      simp only [finishNormal_eq, bind_assoc]
      rfl
    cases kind with
    | object => exact (map_bind _ _ _).trans (finish _)
    | _ => exact (bind_assoc _ _ _).trans (finish _)
  | fast =>
    cases locked with
    | none =>
      cases kind with
      | object =>
        have traced : (CallResult.object <$> do
            traceExit host b
            referenceResult host b registers.handle saved none) =
            deliverShaped host b .fast .object none saved registers :=
          map_bind _ _ _
        exact (map_bind _ _ _).trans (congrArg _ (funext fun _ => traced))
      | _ => exact bind_assoc _ _ _
    | some object => exact absurd (normal rfl) (by simp)
  | critical =>
    cases locked with
    | none =>
      cases kind with
      | object => exact absurd ⟨rfl, rfl⟩ possible
      | _ => rfl
    | some object => exact absurd (normal rfl) (by simp)

/-! ## The executing method -/

section Executing

variable {m : Method} {w : World σ O X}
  (keeps : ∀ deed, host.Keeps (fun s => host.executing s = some m) deed)

/-- To verify against the executing method is to verify against the method that is given. -/
theorem verifyResult_executing (object : Option O) (executing : host.executing w.state = some m) :
    verifyResult host b none object w = verifyResult host b (some m) object w := by
  unfold verifyResult
  cases b.settings.checked with
  | false => rfl
  | true =>
    refine Act.bind_congr fun found w₁ looked => ?_
    obtain ⟨rfl, rfl⟩ := look_eq_ok.1 looked
    rw [executing]
    rfl

include keeps

theorem referenceResult_executing (handle : Handle) (saved : ScopeMark)
    (executing : host.executing w.state = some m) :
    referenceResult host b handle saved none w =
      referenceResult host b handle saved (some m) w := by
  rw [referenceResult_eq, referenceResult_eq]
  refine Act.bind_congr fun object w₁ found => Act.bind_congr fun _ w₂ closed => ?_
  have looked :=
    Keeps.of_ok (lookUpResult_passes handle (keeps _) fun _ _ met => met) found executing
  have after :=
    Keeps.of_ok (closeScope_passes (fun _ => keeps _) (fun _ => keeps _) _ saved) closed looked
  exact verifyResult_executing object after

theorem deliverShaped_executing (tier : Tier) (kind : ReturnKind) (saved : ScopeMark)
    (registers : Registers) (executing : host.executing w.state = some m) :
    deliverShaped host b tier kind none saved registers w =
      deliverShaped host b tier kind (some m) saved registers w := by
  have reference (w₁ : World σ O X) (executing₁ : host.executing w₁.state = some m) :
      (CallResult.object <$> referenceResult host b registers.handle saved none) w₁ =
        (CallResult.object <$> referenceResult host b registers.handle saved (some m)) w₁ := by
    change EStateM.map _ _ w₁ = EStateM.map _ _ w₁
    unfold EStateM.map
    rw [referenceResult_executing keeps registers.handle saved executing₁]
  cases kind with
  | object =>
    cases tier with
    | normal => exact reference w executing
    | fast =>
      refine Act.bind_congr fun _ w₁ traced => ?_
      have executing₁ := Keeps.of_ok (traceExit_passes b fun deed _ => keeps deed) traced executing
      exact reference w₁ executing₁
    | critical => rfl
  | _ => cases tier <;> rfl

end Executing

/-! ## The two ways to call a method -/

section Pair

variable {m : Method} {w : World σ O X} {locked : Option O}
  (normal : m.isSynchronized = true → m.tier = .normal)
include normal

theorem beginMethod_alike {s : σ} (finds : host.Finds m w.state locked s) :
    Act.mapState World.withoutLookups (beginMethod host b m w) =
      Act.mapState World.withoutLookups
        (beginShaped host b m.tier locked { w with state := s }) := by
  rw [beginMethod_eq, checkSynchronizedTier_of_normal normal, pure_bind]
  cases finds with
  | nothing unsynchronized =>
    have unlocked : lockFor host m = pure () := by simp [lockFor, onlyIf, unsynchronized]
    rw [unlocked, pure_bind]
    cases m.tier <;> rfl
  | @object _ object synchronized found =>
    have searched : (do
        lockFor host m
        beginTier host b m.tier) w = (do
        lock host object
        beginTier host b m.tier) { w with
          state := s
          journal := w.journal ++ [host.entry (.lockObject m) w.state] } := by
      rw [lockFor, synchronized]
      change ((lockObject host m >>= fun o => lock host o) >>= fun _ => _) w = _
      rw [bind_assoc]
      change EStateM.bind _ _ w = _
      simp only [EStateM.bind, lockObject_of_found found]
    have appends : Appends (do
        lock host object
        beginTier host b m.tier) :=
      .bind (lock_appends host object) fun _ => beginTier_appends host b m.tier
    have same := appends.withoutLookups { w with state := s }
      (show (host.entry (.lockObject m) w.state).deed.isLookup = true from rfl)
    rw [searched, same, normal synchronized]
    rfl

theorem endMethod_alike {kind : ReturnKind} (known : ReturnKind.ofByte m.returnByte = .ok kind)
    (possible : ¬(m.tier = .critical ∧ kind = .object)) (saved : ScopeMark) (registers : Registers)
    (keeps : ∀ deed, host.Keeps (fun s => host.executing s = some m) deed)
    (executing : host.executing w.state = some m) (takes : locked.isSome = m.isSynchronized)
    (finds : ∀ w', finishTier host b m.tier w = .ok () w' →
      host.Finds m w'.state locked w'.state) :
    Act.mapState World.withoutLookups (endMethod host b m saved registers w) =
      Act.mapState World.withoutLookups
        (endShaped host b m.tier kind locked saved registers w) := by
  have delivers (w₁ : World σ O X) (executing₁ : host.executing w₁.state = some m) :
      deliver host b m saved registers w₁ =
        deliverShaped host b m.tier kind none saved registers w₁ := by
    rw [deliver_eq_shaped known possible]
    exact (deliverShaped_executing keeps m.tier kind saved registers executing₁).symm
  have rules := Host.endRules_of_keeps keeps m.tier
  rw [endMethod_eq, endShaped_eq (fun given => normal (takes ▸ given)) saved registers possible]
  refine Act.mapState_bind_congr fun _ w₁ finished => ?_
  have executing₁ := Keeps.of_ok (EndRules.finishTier b rules) finished executing
  cases finds w₁ finished with
  | nothing unsynchronized =>
    have unlocked : unlockFor host b m = pure () := by simp [unlockFor, onlyIf, unsynchronized]
    rw [unlocked, pure_bind]
    exact congrArg _ (delivers w₁ executing₁)
  | @object _ object synchronized found =>
    have searched : (do
        unlockFor host b m
        deliver host b m saved registers) w₁ = (do
        unlock host object
        deliver host b m saved registers) { w₁ with
          journal := w₁.journal ++ [host.entry (.lockObject m) w₁.state] } := by
      rw [unlockFor, synchronized, checkSynchronizedTier_of_normal normal]
      change ((lockObject host m >>= fun o => unlock host o) >>= fun _ => _) w₁ = _
      rw [bind_assoc]
      change EStateM.bind _ _ w₁ = _
      simp only [EStateM.bind, lockObject_of_found found]
    have appends : Appends (do
        unlock host object
        deliver host b m saved registers) :=
      .bind (unlock_appends host object) fun _ => deliver_appends host b m saved registers
    have same := appends.withoutLookups w₁
      (show (host.entry (.lockObject m) w₁.state).deed.isLookup = true from rfl)
    rw [searched, same]
    refine Act.mapState_bind_congr fun _ w₂ unlocked => congrArg _ (delivers w₂ ?_)
    exact Keeps.of_ok (unlock_passes object (fun _ => keeps _) (keeps _) (keeps _)) unlocked
      executing₁

end Pair

end Crossing

open Crossing

/-- A method of a known return type that only locks in a normal call, and only returns references in
calls that open a scope, is called alike by its description and by its shape. -/
theorem method_pair_eq_shaped_pair (host : Host σ O X) (b : Boundary) (m : Method)
    (kind : ReturnKind) (known : ReturnKind.ofByte m.returnByte = .ok kind)
    (possible : ¬(m.tier = .critical ∧ kind = .object))
    (normal : m.isSynchronized = true → m.tier = .normal) :
    (∀ (w : World σ O X) locked s, host.Finds m w.state locked s →
      Act.mapState World.withoutLookups (beginMethod host b m w) =
        Act.mapState World.withoutLookups
          (beginShaped host b m.tier locked { w with state := s })) ∧
    ∀ (w : World σ O X) locked saved registers,
      (∀ deed, host.Keeps (fun s => host.executing s = some m) deed) →
      host.executing w.state = some m →
      locked.isSome = m.isSynchronized →
      (∀ w', finishTier host b m.tier w = .ok () w' → host.Finds m w'.state locked w'.state) →
      Act.mapState World.withoutLookups (endMethod host b m saved registers w) =
        Act.mapState World.withoutLookups
          (endShaped host b m.tier kind locked saved registers w) := by
  constructor
  · intro w locked s finds
    exact beginMethod_alike normal finds
  · intro w locked saved registers keeps executing takes finds
    exact endMethod_alike normal known possible saved registers keeps executing takes finds

def fetch : Method where
  className := "Box"
  name := "fetch"
  shorty := "L"
  tier := .normal
  isSynchronized := true
  isStatic := false

def executingFetch : MachineWorld where
  state :=
    { heap :=
        { copies := [{ className := "Box", isClass := false, monitor := ⟨0⟩ }]
          monitors := [{}]
          objects := [(1, ⟨0⟩)] }
      lock := { claims := 1 }
      threads :=
        [{ id := ⟨1⟩, name := "main", state := .managed, holdsShare := true
           locals := { entries := [⟨0⟩] }
           frames := [{ method := fetch, receiver := some ⟨0⟩ }] }] }

def tracedCalls : Boundary where
  settings := { checked := true, trace := { enabled := true, filter := some "Box" } }
  observed := true

def inFetch : MachineWorld :=
  Act.stateOf (beginMethod (Machine.host ⟨1⟩) tracedCalls fetch executingFetch)

theorem method_pair_eq_shaped_pair_fetch :
    Act.mapState World.withoutLookups
        (beginMethod (Machine.host ⟨1⟩) tracedCalls fetch executingFetch) =
      Act.mapState World.withoutLookups
        (beginShaped (Machine.host ⟨1⟩) tracedCalls .normal (some ⟨0⟩) executingFetch) ∧
    Act.mapState World.withoutLookups
        (endMethod (Machine.host ⟨1⟩) tracedCalls fetch .bottom (.ofHandle ⟨1⟩) inFetch) =
      Act.mapState World.withoutLookups
        (endShaped (Machine.host ⟨1⟩) tracedCalls .normal .object (some ⟨0⟩) .bottom (.ofHandle ⟨1⟩)
          inFetch) ∧
    (endMethod (Machine.host ⟨1⟩) tracedCalls fetch .bottom (.ofHandle ⟨1⟩)).returns inFetch =
      true := by
  have found (m : Machine) (receiver : (m.thread ⟨1⟩).receiver = some ⟨0⟩) :
      (Machine.host ⟨1⟩).Finds fetch m (some ⟨0⟩) m := by
    have receives : Machine.lockObject ⟨1⟩ fetch m = .ok (some ⟨0⟩) m := by
      rw [Machine.lockObject_eq_ok, receiver]
      exact ⟨rfl, rfl⟩
    exact .object rfl receives
  have reference : ReturnKind.ofByte fetch.returnByte = .ok .object := by
    have byte : fetch.returnByte = 0x4c := by decide +kernel
    rw [byte]
    rfl
  have pair := method_pair_eq_shaped_pair (Machine.host ⟨1⟩) tracedCalls fetch .object reference
    (by decide) fun _ => rfl
  refine ⟨?_, ?_, by decide +kernel⟩
  · exact pair.1 executingFetch (some ⟨0⟩) executingFetch.state (found _ rfl)
  · refine pair.2 inFetch (some ⟨0⟩) .bottom (.ofHandle ⟨1⟩)
      (Machine.host_keeps_executing ⟨1⟩ fetch) (by decide +kernel) rfl fun w' finished => found _ ?_
    have outcome : w' =
        Act.stateOf (finishTier (Machine.host ⟨1⟩) tracedCalls fetch.tier inFetch) := by
      rw [finished]
      rfl
    rw [outcome]
    decide +kernel

end NativeBoundary
