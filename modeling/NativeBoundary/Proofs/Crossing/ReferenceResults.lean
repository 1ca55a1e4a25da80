import NativeBoundary.Proofs.Crossing.Ends
import NativeBoundary.Proofs.Crossing.Faults
import NativeBoundary.Proofs.Crossing.Returned
import NativeBoundary.Proofs.Machine.OwnPart

/-!
# Reference results

The end of a call that returns a reference looks its handle up once the thread is back and has
unlocked, and before the scope is closed; while an exception is pending it does not look the handle
up at all.  What comes after, the end of the scope and the verification in checked mode, leaves the
result, the pending exception and the handle scope as they are, on a host that keeps these apart and
verifies without touching them.
-/

set_option autoImplicit false

namespace NativeBoundary

variable {σ O X : Type}

/-! ## Ends with a reference result -/

def Boundary.unchecked (b : Boundary) : Boundary :=
  { b with settings := { b.settings with checked := false } }

def PassageResult.reference? : PassageResult O → Option (Option O)
  | .object given | .result (.object given) => some given
  | _ => none

namespace Passage

def referenceEnd? :
    Passage O Handle ScopeMark Method Registers → Option (Handle × ScopeMark × Option Method)
  | endNormalReference _ _ handle saved | endFastReference handle saved =>
    some (handle, saved, none)
  | endMethod m saved registers =>
    if m.returnsReference then some (registers.handle, saved, some m) else none
  | _ => none

variable (host : Host σ O X) (b : Boundary)

/-- An end with a reference result up to where the result is looked up. -/
def untilResult : Passage O Handle ScopeMark Method Registers → Crossing σ O X Unit
  | endNormalReference locked reported _ _ => Crossing.finishNormal host b locked reported
  | endFastReference _ _ => do
    Crossing.finishFast host b
    Crossing.traceExit host b
  | endMethod m _ _ => do
    Crossing.finishTier host b m.tier
    Crossing.unlockFor host b m
    match m.tier with
    | .normal => pure ()
    | .fast => Crossing.traceExit host b
    | .critical => Crossing.fault (.criticalReference m.qualifiedName)
  | _ => pure ()

variable {host b} {p : Passage O Handle ScopeMark Method Registers} {handle : Handle}
  {saved : ScopeMark} {method : Option Method}

theorem run_eq_referenceResult (host : Host σ O X)
    (ends : p.referenceEnd? = some (handle, saved, method)) :
    ∃ wrap : Option O → PassageResult O, (∀ object, (wrap object).reference? = some object) ∧
      ∀ b, p.run host b = (do
        p.untilResult host b
        wrap <$> Crossing.referenceResult host b handle saved method) := by
  cases p with
  | endNormalReference locked reported _ _ =>
    cases ends
    refine ⟨.object, fun _ => rfl, fun b => ?_⟩
    simp only [run, untilResult, Crossing.endNormalReference, map_bind]
  | endFastReference _ _ =>
    cases ends
    refine ⟨.object, fun _ => rfl, fun b => ?_⟩
    simp only [run, untilResult, Crossing.endFastReference, map_bind, bind_assoc]
  | endMethod m _ registers =>
    simp only [referenceEnd?, Option.ite_none_right_eq_some, Option.some.injEq] at ends
    obtain ⟨reference, rfl, rfl, rfl⟩ := ends
    have known : ReturnKind.ofByte m.returnByte = .ok .object := by
      rw [ReturnKind.ofByte, Method.returnsReference_iff.1 reference]
    refine ⟨fun object => .result (.object object), fun _ => rfl, fun b => ?_⟩
    simp only [run, untilResult, Crossing.endMethod_eq, Crossing.deliver, known, map_bind,
      bind_assoc]
    refine congrArg _ (funext fun _ => congrArg _ (funext fun _ => ?_))
    cases m.tier with
    | normal => simp only [pure_bind, Functor.map_map]
    | fast => simp only [map_bind, Functor.map_map]
    | critical => rfl
  | _ => cases ends

/-- Nothing up to the result depends on checked mode. -/
theorem untilResult_unchecked : p.untilResult host b.unchecked = p.untilResult host b := by
  cases p <;> rfl

end Passage

/-! ## Handles that are looked up -/

def Deed.handle? : Deed O X → Option Handle
  | .decode handle => some handle
  | _ => none

def decoded (j : List (Entry O X)) : List Handle :=
  j.filterMap fun entry => entry.deed.handle?

theorem decoded_append (host : Host σ O X) (j : List (Entry O X)) (deed : Deed O X) (s : σ) :
    decoded (j ++ [host.entry deed s]) = decoded j ++ deed.handle?.toList := by
  unfold decoded
  rw [List.filterMap_append]
  cases found : deed.handle? <;> simp [Host.entry, found]

theorem Host.passes_undecoded (host : Host σ O X) (known : List Handle) {P : σ → Prop}
    {deed : Deed O X} (none : deed.handle? = none) (keeps : host.Keeps P deed) :
    host.Passes (fun j => decoded j = known) (fun s _ => P s) deed fun s _ => P s := by
  intro s j met same
  refine ⟨?_, (keeps s j met trivial).2⟩
  simp only [decoded_append, none, same, Option.toList_none, List.append_nil]

/-! ## Hosts -/

def Deed.closes : Deed O X → Bool
  | .setScopeTop _ | .setScopeBase _ | .pushHandle _ | .popHandle => true
  | _ => false

def Host.SameTable (host : Host σ O X) (s s' : σ) : Prop :=
  (∀ handle, host.decode handle s' = host.decode handle s) ∧
    host.scopeTop s' = host.scopeTop s ∧ host.scopeBase s' = host.scopeBase s

theorem Host.SameTable.trans {host : Host σ O X} {s s' s'' : σ} (first : host.SameTable s s')
    (second : host.SameTable s' s'') : host.SameTable s s'' :=
  ⟨fun handle => (second.1 handle).trans (first.1 handle), second.2.1.trans first.2.1,
    second.2.2.trans first.2.2⟩

/-- A host that keeps the parts of a thread that is present apart: the handle scope is a stack of
its own, and neither it nor the scopes of local references have to do with the pending exception. -/
structure Host.Separate (host : Host σ O X) (present : σ → Prop) : Prop where
  here : ∀ deed s s', present s → host.Does deed s s' → present s'
  push : ∀ object s, present s →
    (host.popHandle (host.pushHandle object s)).1 = some object ∧
      host.handleDepth (host.pushHandle object s) = host.handleDepth s + 1
  pop : ∀ s, present s → host.handleDepth (host.popHandle s).2 = host.handleDepth s - 1
  depth : ∀ deed s s', present s → deed.usesHandles = false → host.Does deed s s' →
    host.handleDepth s' = host.handleDepth s
  pending : ∀ deed s s', present s → deed.closes = true → host.Does deed s s' →
    host.pending s' = host.pending s
  pushTable : ∀ object s, present s → host.SameTable s (host.pushHandle object s)
  popTable : ∀ s, present s → host.SameTable s (host.popHandle s).2

def Host.verifyingBy (host : Host σ O X) (check : Method → Option O → Act σ Unit) : Host σ O X :=
  { host with checkResult := check }

def Deed.verifies : Deed O X → Bool
  | .checkResult _ _ => true
  | _ => false

theorem Deed.verifies_of_usesHandles (deed : Deed O X) (others : deed.usesHandles = false) :
    deed.verifies = false := by
  cases deed <;> first | rfl | cases others

theorem Deed.verifies_of_closes (deed : Deed O X) (closes : deed.closes = true) :
    deed.verifies = false := by
  cases deed <;> first | rfl | cases closes

/-- Everything but the verification is as it was. -/
theorem Host.does_verifyingBy {host : Host σ O X} {check : Method → Option O → Act σ Unit}
    {deed : Deed O X} (other : deed.verifies = false) :
    (host.verifyingBy check).Does deed = host.Does deed := by
  cases deed <;> first | rfl | cases other

/-- A host whose verification of a result sets no exception and leaves the handle scope as it found
it. -/
def Host.VerifiesQuietly (host : Host σ O X) (present : σ → Prop) : Prop :=
  ∀ m result s s', present s → host.checkResult m result s = .ok () s' →
    host.pending s' = host.pending s ∧ (host.popHandle s').1 = (host.popHandle s).1 ∧
      host.handleDepth s' = host.handleDepth s

/-- A host whose verification of a result leaves the local references alone, too. -/
def Host.VerifiesAside (host : Host σ O X) (present : σ → Prop) : Prop :=
  ∀ m result s s', present s → host.checkResult m result s = .ok () s' → host.SameTable s s'

/-- What the end of a call does to the host once its scope is closed: nothing that shows in the slot
or in the depth of the handle scope, nor in the local references if verifications leave them alone.
-/
structure Host.Settled (host : Host σ O X) (present : σ → Prop) (s s' : σ) : Prop where
  pending : host.pending s' = host.pending s
  depth : host.handleDepth s' = host.handleDepth s
  table : host.VerifiesAside present → host.SameTable s s'

theorem Host.Settled.refl (host : Host σ O X) (present : σ → Prop) (s : σ) :
    host.Settled present s s :=
  ⟨rfl, rfl, fun _ => ⟨fun _ => rfl, rfl, rfl⟩⟩

def Host.Deep (host : Host σ O X) (present : σ → Prop) (depth : Nat) (s : σ) : Prop :=
  present s ∧ host.handleDepth s = depth

def Host.Shows (host : Host σ O X) (present : σ → Prop) (pending : Option X) (depth : Nat) (s : σ) :
    Prop :=
  host.Deep present depth s ∧ host.pending s = pending

namespace Crossing

variable {host : Host σ O X} {b : Boundary} {present : σ → Prop} {w w' : World σ O X}
  {object found : Option O} {saved : ScopeMark} {method : Option Method}

/-! ## The parts of a reference result -/

theorem checkScope_of_ok {u : Unit} (run : checkScope host w = .ok u w') : w' = w := by
  obtain ⟨_, _, looked, run⟩ := Act.bind_eq_ok.1 run
  obtain ⟨rfl, rfl⟩ := look_eq_ok.1 looked
  split at run
  · obtain ⟨_, _, stopped, -⟩ := Act.bind_eq_ok.1 run
    exact absurd stopped halt_ne_ok
  · obtain ⟨_, _, looked, run⟩ := Act.bind_eq_ok.1 run
    obtain ⟨rfl, rfl⟩ := look_eq_ok.1 looked
    obtain ⟨_, _, looked, run⟩ := Act.bind_eq_ok.1 run
    obtain ⟨rfl, rfl⟩ := look_eq_ok.1 looked
    split at run
    · exact absurd run halt_ne_ok
    · exact (Act.pure_eq_ok.1 run).2.symm

theorem closeScope_of_ok {checked : Bool} {u : Unit}
    (run : closeScope host checked saved w = .ok u w') : dropScope host saved w = .ok () w' := by
  rw [closeScope_eq] at run
  obtain ⟨_, between, inspected, dropped⟩ := Act.bind_eq_ok.1 run
  cases checked with
  | false =>
    obtain ⟨-, rfl⟩ := Act.pure_eq_ok.1 inspected
    exact dropped
  | true =>
    obtain rfl := checkScope_of_ok inspected
    exact dropped

theorem closeScope_unchecked (saved : ScopeMark) :
    closeScope host false saved = dropScope host saved := by
  rw [closeScope_eq]
  rfl

theorem lookUpResult_of_ok {handle : Handle} (run : lookUpResult host handle w = .ok found w') :
    found = (if (host.pending w.state).isSome then none else host.decode handle w.state) ∧
      w'.state = w.state ∧
      decoded w'.journal =
        decoded w.journal ++ if (host.pending w.state).isSome then [] else [handle] := by
  obtain ⟨_, _, looked, run⟩ := Act.bind_eq_ok.1 run
  obtain ⟨rfl, rfl⟩ := look_eq_ok.1 looked
  split at run
  · next pending =>
    obtain ⟨rfl, rfl⟩ := Act.pure_eq_ok.1 run
    simp [pending]
  · next none =>
    obtain ⟨_, w₁, recorded, run⟩ := Act.bind_eq_ok.1 run
    obtain ⟨rfl, rfl⟩ := look_eq_ok.1 run
    have written : w₁.journal = w.journal ++ [host.entry (.decode handle) w.state] := by
      cases recorded
      rfl
    rw [record_of_ok recorded, written, decoded_append, if_neg none, if_neg none]
    exact ⟨rfl, rfl, rfl⟩

theorem verifyAgainst_of_ok {m : Method} {u : Unit}
    (run : verifyAgainst host m found w = .ok u w') :
    host.checkResult m found w.state = .ok () w'.state := by
  obtain ⟨_, noted, recorded, run⟩ := Act.bind_eq_ok.1 run
  rw [← record_of_ok recorded]
  exact state_of_run run

section Hosts

variable (separate : host.Separate present)
include separate

/-- Up to the result, nothing is looked up and the handle scope keeps its depth. -/
theorem untilResult_passes (p : Passage O Handle ScopeMark Method Registers) (known : List Handle)
    (depth : Nat) :
    Passes (fun j => decoded j = known) (fun s _ => host.Deep present depth s)
      (p.untilResult host b) fun s _ => host.Deep present depth s := by
  have keeps (deed : Deed O X) (others : deed.usesHandles = false) (none : deed.handle? = none) :
      host.Passes (fun j => decoded j = known) (fun s _ => host.Deep present depth s) deed
        fun s _ => host.Deep present depth s :=
    host.passes_undecoded known none <| .of_does fun s s' met does =>
      ⟨separate.here deed s s' met.1 does,
        (separate.depth deed s s' met.1 others does).trans met.2⟩
  have notes (deed : Deed O X) (note : deed.isNote = true) :=
    keeps deed (by cases deed <;> simp [Deed.isNote, Deed.usesHandles] at note ⊢)
      (by cases deed <;> simp [Deed.isNote, Deed.handle?] at note ⊢)
  cases p with
  | endNormalReference locked reported handle saved =>
    exact finishNormal_passes b locked reported notes (keeps _ rfl rfl) (fun _ _ met => met)
      (fun _ => keeps _ rfl rfl) (fun _ _ => keeps _ rfl rfl) fun _ _ => keeps _ rfl rfl
  | endFastReference handle saved =>
    exact .bind (finishFast_passes b (keeps _ rfl rfl) fun _ _ met => met) fun _ =>
      traceExit_passes b notes
  | endMethod m saved registers =>
    refine .bind (finishTier_passes b m.tier notes (fun _ => keeps _ rfl rfl)
      (fun _ => keeps _ rfl rfl) fun _ _ _ met => met) fun _ => ?_
    refine .bind (unlockFor_passes b m (fun _ _ met => met) (keeps _ rfl rfl) (keeps _ rfl rfl)
      (fun _ => keeps _ rfl rfl) fun _ => keeps _ rfl rfl) fun _ => ?_
    cases m.tier with
    | normal => exact .stay ()
    | fast => exact traceExit_passes b notes
    | critical => exact .halt _
  | _ => exact .stay ()

theorem dropScope_shows {pending : Option X} {depth : Nat} {u : Unit}
    (shows : host.Shows present pending depth w.state) (run : dropScope host saved w = .ok u w') :
    host.Shows present pending depth w'.state := by
  have keeps (deed : Deed O X) (closes : deed.closes = true) (others : deed.usesHandles = false)
      {s s' : σ} (met : host.Shows present pending depth s) (does : host.Does deed s s') :
      host.Shows present pending depth s' := by
    obtain ⟨⟨here, deep⟩, pends⟩ := met
    exact ⟨⟨separate.here deed s s' here does, (separate.depth deed s s' here others does).trans deep⟩,
      (separate.pending deed s s' here closes does).trans pends⟩
  rw [dropScope_of_ok run]
  exact keeps (.setScopeBase saved) rfl rfl
    (keeps (.setScopeTop (host.scopeBase w.state)) rfl rfl shows rfl) rfl

variable (quiet : host.VerifiesQuietly present)
include quiet

/-- A verification that returns gives the result back that it was given. -/
theorem verifyResult_of_ok (here : present w.state)
    (run : verifyResult host b method found w = .ok object w') :
    object = found ∧ host.Settled present w.state w'.state := by
  unfold verifyResult at run
  split at run
  · obtain ⟨executing, _, looked, run⟩ := Act.bind_eq_ok.1 run
    obtain ⟨-, rfl⟩ := look_eq_ok.1 looked
    cases known : method <|> executing with
    | none =>
      rw [known] at run
      obtain ⟨rfl, rfl⟩ := Act.pure_eq_ok.1 run
      exact ⟨rfl, .refl host present _⟩
    | some m =>
      rw [known] at run
      cases found with
      | none =>
        obtain ⟨_, _, verified, given⟩ := Act.bind_eq_ok.1 run
        obtain ⟨rfl, rfl⟩ := Act.pure_eq_ok.1 given
        have checked := verifyAgainst_of_ok verified
        obtain ⟨pending, -, depth⟩ := quiet m none _ _ here checked
        exact ⟨rfl, pending, depth, fun aside => aside m none _ _ here checked⟩
      | some given =>
        obtain ⟨w₁, w₂, pushed, verified, rfl, popped⟩ := protecting_of_ok run
        have checked := verifyAgainst_of_ok verified
        rw [pushed] at checked
        have here₁ := separate.here (.pushHandle given) _ _ here rfl
        have here₂ := separate.here (.checkResult m (some given)) _ _ here₁ checked
        obtain ⟨top, deeper⟩ := separate.push given w.state here
        obtain ⟨pending, sameTop, depth⟩ := quiet m _ _ _ here₁ checked
        refine ⟨by rw [sameTop, top, Option.getD_some], ?_, ?_, fun aside => ?_⟩
        · rw [popped, separate.pending .popHandle _ _ here₂ rfl rfl, pending]
          exact separate.pending (.pushHandle given) _ _ here rfl rfl
        · rw [popped, separate.pop _ here₂, depth, deeper, Nat.add_sub_cancel]
        · rw [popped]
          exact ((separate.pushTable given _ here).trans (aside m _ _ _ here₁ checked)).trans
            (separate.popTable _ here₂)
  · obtain ⟨rfl, rfl⟩ := Act.pure_eq_ok.1 run
    exact ⟨rfl, .refl host present _⟩

end Hosts

/-- What comes after the result is looked up looks nothing up. -/
theorem afterResult_undecoded (host : Host σ O X) (known : List Handle) :
    Passes (fun j => decoded j = known) (fun (_ : σ) _ => True) (do
      closeScope host b.settings.checked saved
      verifyResult host b method found) fun _ _ => True := by
  have idle (deed : Deed O X) (none : deed.handle? = none) :
      host.Passes (fun j => decoded j = known) (fun _ _ => True) deed fun _ _ => True :=
    host.passes_undecoded known none (.of_does fun _ _ _ _ => trivial)
  exact .bind (closeScope_passes (fun _ => idle _ rfl) (fun _ => idle _ rfl) _ saved) fun _ =>
    verifyResult_passes b method found (fun _ _ _ => trivial) (fun _ => idle _ rfl)
      (fun _ => idle _ rfl) (fun _ _ => idle _ rfl) fun _ => idle _ rfl

end Crossing

/-! ## The machine -/

namespace Machine

variable {t : ThreadId} {own : Thread} {m m' : Machine}

theorem Stands.sameTable (stands : Stands t own m) (change : List ObjectId → List ObjectId) :
    (host t).SameTable m
      (m.updateThread t fun thread => { thread with handles := change thread.handles }) := by
  have found := stands.thread_updateThread
    (fun thread => { thread with handles := change thread.handles }) fun _ => rfl
  simp only [Host.SameTable, host, found, implies_true, and_self]

theorem host_separate (t : ThreadId) :
    (host t).Separate fun m => ∃ own, Stands t own m where
  here deed m m' attached does := by
    obtain ⟨own, stands⟩ := attached
    obtain ⟨own', stands', -⟩ := stands_of_does stands does
    exact ⟨own', stands'⟩
  push o m attached := by
    obtain ⟨own, stands⟩ := attached
    have found := stands.thread_updateThread
      (fun thread => { thread with handles := thread.handles ++ [o] }) fun _ => rfl
    simp only [host, found, List.getLast?_concat, List.length_append, List.length_singleton,
      and_self]
  pop m attached := by
    obtain ⟨own, stands⟩ := attached
    have found := stands.thread_updateThread
      (fun thread => { thread with handles := thread.handles.dropLast }) fun _ => rfl
    simp only [host, found, List.length_dropLast]
  depth deed m m' attached others does := by
    obtain ⟨own, stands⟩ := attached
    obtain ⟨own', stands', -, -, kept⟩ := stands_of_does stands does
    have before := stands.view (fun thread => thread.handles.length) fun _ => rfl
    have after := stands'.view (fun thread => thread.handles.length) fun _ => rfl
    exact after.trans ((congrArg List.length (kept others)).trans before.symm)
  pending deed m m' attached closes does := by
    obtain ⟨own, stands⟩ := attached
    have keeps (change : Thread → Thread) (same : ∀ thread, (change thread).id = thread.id)
        (slot : ∀ thread, (change thread).pending = thread.pending) :
        ((m.updateThread t change).thread t).pending = (m.thread t).pending := by
      rw [stands.thread_updateThread change same, slot]
    cases deed with
    | setScopeTop _ | setScopeBase _ | pushHandle _ | popHandle =>
      obtain rfl := does
      exact keeps _ (fun _ => rfl) fun _ => rfl
    | _ => cases closes
  pushTable o m attached := by
    obtain ⟨own, stands⟩ := attached
    exact stands.sameTable (· ++ [o])
  popTable m attached := by
    obtain ⟨own, stands⟩ := attached
    exact stands.sameTable List.dropLast

/-- The parts of an attached thread are apart whatever the verification of a result does, as long as
the thread stays attached. -/
theorem separate_verifyingBy {check : Method → Option ObjectId → Act Machine Unit}
    (stays : ∀ method result m m', (∃ own, Stands t own m) → check method result m = .ok () m' →
      ∃ own, Stands t own m') :
    ((host t).verifyingBy check).Separate fun m => ∃ own, Stands t own m where
  here deed m m' attached does := by
    cases verifies : deed.verifies with
    | true =>
      cases deed with
      | checkResult method result => exact stays method result m m' attached does
      | _ => cases verifies
    | false =>
      rw [Host.does_verifyingBy verifies] at does
      exact (host_separate t).here deed m m' attached does
  push := (host_separate t).push
  pop := (host_separate t).pop
  depth deed m m' attached others does := by
    rw [Host.does_verifyingBy (deed.verifies_of_usesHandles others)] at does
    exact (host_separate t).depth deed m m' attached others does
  pending deed m m' attached closes does := by
    rw [Host.does_verifyingBy (deed.verifies_of_closes closes)] at does
    exact (host_separate t).pending deed m m' attached closes does
  pushTable := (host_separate t).pushTable
  popTable := (host_separate t).popTable

theorem host_verifiesQuietly (t : ThreadId) (present : Machine → Prop) :
    (host t).VerifiesQuietly present := by
  intro method result m m' _ run
  obtain rfl := checkResult_of_ok run
  exact ⟨rfl, rfl, rfl⟩

theorem host_verifiesAside (t : ThreadId) (present : Machine → Prop) :
    (host t).VerifiesAside present := by
  intro method result m m' _ run
  obtain rfl := checkResult_of_ok run
  exact ⟨fun _ => rfl, rfl, rfl⟩

end Machine

/-! ## The result -/

/-- The end of a call with a reference result looks the handle up exactly if no exception is pending
once it has unlocked, and at most once.  The object that is given back is the one that the handle
led to then, before the scope was closed; while an exception is pending it is none.  What is pending
stays so, the handle scope has the depth of before, and without checked mode the end returns the
same object and leaves the same exception; the local references are the same, too, unless the host's
own verification changes them. -/
theorem reference_result_of_ok (host : Host σ O X) (b : Boundary) (present : σ → Prop)
    (separate : host.Separate present) (quiet : host.VerifiesQuietly present)
    (p : Passage O Handle ScopeMark Method Registers) (handle : Handle) (saved : ScopeMark)
    (method : Option Method) (ends : p.referenceEnd? = some (handle, saved, method))
    (w w' : World σ O X) (result : PassageResult O) (here : present w.state)
    (returned : p.run host b w = .ok result w') :
    ∃ ready object, p.untilResult host b w = .ok () ready ∧ result.reference? = some object ∧
      object = (if (host.pending ready.state).isSome then none
        else host.decode handle ready.state) ∧
      decoded w'.journal =
        decoded w.journal ++ (if (host.pending ready.state).isSome then [] else [handle]) ∧
      host.pending w'.state = host.pending ready.state ∧
      (object ≠ none → host.pending w'.state = none) ∧
      host.handleDepth w'.state = host.handleDepth w.state ∧
      ∃ plain, p.run host b.unchecked w = .ok result plain ∧
        host.pending plain.state = host.pending w'.state ∧
        (host.VerifiesAside present → host.SameTable plain.state w'.state) := by
  obtain ⟨wrap, wraps, same⟩ := Passage.run_eq_referenceResult host ends
  rw [same b] at returned
  obtain ⟨_, ready, finished, delivered⟩ := Act.bind_eq_ok.1 returned
  obtain ⟨object, looked, rfl⟩ := Act.map_eq_ok.1 delivered
  rw [Crossing.referenceResult_eq] at looked
  obtain ⟨found, w₁, lookedUp, rest⟩ := Act.bind_eq_ok.1 looked
  obtain ⟨_, w₂, closed, verified⟩ := Act.bind_eq_ok.1 rest
  replace closed := Crossing.closeScope_of_ok closed
  -- The journal and the depth up to the result.
  obtain ⟨⟨readyHere, readyDepth⟩, readyDecoded⟩ :=
    (Crossing.untilResult_passes (b := b) separate p (decoded w.journal) _).of_ok finished
      ⟨here, rfl⟩ rfl
  obtain ⟨value, sameState, lookedDecoded⟩ := Crossing.lookUpResult_of_ok lookedUp
  have endDecoded := ((Crossing.afterResult_undecoded host (decoded w₁.journal)).of_ok
    rest trivial rfl).2
  -- From there on, what is pending and the depth stay, and so does the result.
  have shows : host.Shows present (host.pending ready.state) (host.handleDepth w.state) w₁.state :=
    ⟨⟨sameState ▸ readyHere, sameState ▸ readyDepth⟩, by rw [sameState]⟩
  obtain ⟨⟨closedHere, closedDepth⟩, closedPending⟩ :=
    Crossing.dropScope_shows separate shows closed
  obtain ⟨given, settled⟩ := Crossing.verifyResult_of_ok separate quiet closedHere verified
  have pending : host.pending w'.state = host.pending ready.state :=
    settled.pending.trans closedPending
  have plainRun : p.run host b.unchecked w = .ok (wrap object) w₂ := by
    rw [same b.unchecked, Passage.untilResult_unchecked, Act.bind_of_ok finished]
    refine Act.map_eq_ok.2 ⟨found, ?_, by rw [given]⟩
    rw [Crossing.referenceResult_eq, Act.bind_of_ok lookedUp]
    refine Act.bind_eq_ok.2 ⟨(), w₂, ?_, rfl⟩
    exact (congrFun (Crossing.closeScope_unchecked saved) w₁).trans closed
  refine ⟨ready, object, finished, wraps object, given.trans value, ?_, pending, fun nonNull => ?_,
    settled.depth.trans closedDepth, w₂, plainRun, settled.pending.symm, settled.table⟩
  · rw [endDecoded, lookedDecoded, readyDecoded]
  · cases raised : host.pending ready.state with
    | none => exact pending.trans raised
    | some exception =>
      rw [raised] at value
      exact absurd (given.trans value) nonNull

def lookUp : Method where
  className := "Shelf"
  name := "lookUp"
  shorty := "L"
  tier := .normal
  isSynchronized := true
  isStatic := false

/-- A machine whose only thread is in the native code of the method; the monitor of the receiver is
owned by a given thread. -/
def lookingUp (owner : ThreadId) : MachineWorld where
  state :=
    { heap :=
        { copies := [{ className := "Shelf", isClass := false, monitor := ⟨0⟩ }]
          monitors := [{ owner := some owner, recursion := 1, published := some owner }]
          objects := [(1, ⟨0⟩)] }
      lock := {}
      threads :=
        [{ id := ⟨1⟩, name := "main", state := .native
           locals := { entries := [⟨0⟩] }
           frames := [{ method := lookUp, receiver := some ⟨0⟩ }] }] }

def checkedMode : Boundary where
  settings := { checked := true }

def endLookUp : Passage ObjectId Handle ScopeMark Method Registers :=
  .endMethod lookUp .bottom (.ofHandle ⟨1⟩)

def lookUpHost : Host Machine ObjectId Throwable :=
  Machine.host ⟨1⟩

/-- A thread that owns the monitor gets the receiver; where another thread owns it, the unlock
leaves an exception and nothing is looked up. -/
theorem reference_result_of_ok_lookUp :
    (∃ result after plain,
      endLookUp.run lookUpHost checkedMode (lookingUp ⟨1⟩) = .ok result after ∧
        endLookUp.run lookUpHost checkedMode.unchecked (lookingUp ⟨1⟩) = .ok result plain ∧
        result.reference? = some (some ⟨0⟩) ∧ decoded after.journal = [⟨1⟩] ∧
        lookUpHost.pending after.state = none ∧ lookUpHost.handleDepth after.state = 0 ∧
        lookUpHost.SameTable plain.state after.state) ∧
    ∃ result after, endLookUp.run lookUpHost checkedMode (lookingUp ⟨2⟩) = .ok result after ∧
      result.reference? = some none ∧ decoded after.journal = [] ∧
      (lookUpHost.pending after.state).isSome = true := by
  have settled (owner : ThreadId) := reference_result_of_ok lookUpHost checkedMode
    (fun m => ∃ own, Machine.Stands ⟨1⟩ own m) (Machine.host_separate ⟨1⟩)
    (Machine.host_verifiesQuietly ⟨1⟩ _) endLookUp ⟨1⟩ .bottom (some lookUp) rfl (lookingUp owner)
  obtain ⟨own, ran⟩ := Act.eq_ok_stateOf (x := endLookUp.run lookUpHost checkedMode)
    (s := lookingUp ⟨1⟩) (by decide +kernel)
  obtain ⟨other, stopped⟩ := Act.eq_ok_stateOf (x := endLookUp.run lookUpHost checkedMode)
    (s := lookingUp ⟨2⟩) (by decide +kernel)
  constructor
  · obtain ⟨ready, object, finished, given, value, lookups, pending, -, depth, plain, same, -,
      table⟩ := settled ⟨1⟩ _ _ ⟨_, rfl⟩ ran
    obtain rfl : Act.stateOf (endLookUp.untilResult lookUpHost checkedMode (lookingUp ⟨1⟩)) =
      ready := congrArg Act.stateOf finished
    refine ⟨_, _, plain, ran, same, ?_, ?_, ?_, ?_, table (Machine.host_verifiesAside ⟨1⟩ _)⟩
    · rw [given, value]
      decide +kernel
    · rw [lookups]
      decide +kernel
    · rw [pending]
      decide +kernel
    · exact depth
  · obtain ⟨ready, object, finished, given, value, lookups, pending, -⟩ :=
      settled ⟨2⟩ _ _ ⟨_, rfl⟩ stopped
    obtain rfl : Act.stateOf (endLookUp.untilResult lookUpHost checkedMode (lookingUp ⟨2⟩)) =
      ready := congrArg Act.stateOf finished
    refine ⟨_, _, stopped, ?_, ?_, ?_⟩
    · rw [given, value]
      decide +kernel
    · rw [lookups]
      decide +kernel
    · rw [pending]
      decide +kernel

def listing (thread : Thread) : Thread :=
  { thread with locals := (thread.locals.add ⟨0⟩).2 }

/-- A host of the only thread whose verification of a result adds a local reference. -/
def listingHost : Host Machine ObjectId Throwable :=
  lookUpHost.verifyingBy fun method result => do
    Machine.checkResult method result
    modify (Machine.updateThread ⟨1⟩ listing)

theorem listing_of_ok {own : Thread} {method : Method} {result : Option ObjectId} {m m' : Machine}
    (stands : Machine.Stands ⟨1⟩ own m)
    (run : listingHost.checkResult method result m = .ok () m') :
    Machine.Stands ⟨1⟩ (listing own) m' ∧ m'.thread ⟨1⟩ = listing (m.thread ⟨1⟩) := by
  obtain ⟨_, checked, verified, listed⟩ := Act.bind_eq_ok.1 run
  obtain rfl := Machine.checkResult_of_ok verified
  obtain rfl := Act.modify_eq_ok.1 listed
  exact ⟨stands.updateOwn listing (fun _ => rfl) fun _ => rfl,
    stands.thread_updateThread listing fun _ => rfl⟩

theorem listingHost_separate :
    listingHost.Separate fun m => ∃ own, Machine.Stands ⟨1⟩ own m := by
  refine Machine.separate_verifyingBy fun method result m m' attached run => ?_
  obtain ⟨own, stands⟩ := attached
  exact ⟨listing own, (listing_of_ok stands run).1⟩

theorem listingHost_verifiesQuietly :
    listingHost.VerifiesQuietly fun m => ∃ own, Machine.Stands ⟨1⟩ own m := by
  intro method result m m' attached run
  obtain ⟨own, stands⟩ := attached
  have listed := (listing_of_ok stands run).2
  have pending : (m'.thread ⟨1⟩).pending = (m.thread ⟨1⟩).pending := by rw [listed]; rfl
  have handles : (m'.thread ⟨1⟩).handles = (m.thread ⟨1⟩).handles := by rw [listed]; rfl
  exact ⟨pending, congrArg List.getLast? handles, congrArg List.length handles⟩

/-- A verification that sets no exception and leaves the handle scope alone can still leave other
local references. -/
theorem reference_table_depends_on_verification :
    ¬ ∀ (host : Host Machine ObjectId Throwable) (b : Boundary) (present : Machine → Prop),
      host.Separate present → host.VerifiesQuietly present →
        ∀ (p : Passage ObjectId Handle ScopeMark Method Registers) (handle : Handle)
          (saved : ScopeMark) (method : Option Method),
          p.referenceEnd? = some (handle, saved, method) →
            ∀ (w w' : MachineWorld) (result : PassageResult ObjectId), present w.state →
              p.run host b w = .ok result w' →
                ∃ plain, p.run host b.unchecked w = .ok result plain ∧
                  host.SameTable plain.state w'.state := by
  intro always
  obtain ⟨result, ran⟩ := Act.eq_ok_stateOf (x := endLookUp.run listingHost checkedMode)
    (s := lookingUp ⟨1⟩) (by decide +kernel)
  obtain ⟨plain, plainRun, -, top, -⟩ := always listingHost checkedMode _ listingHost_separate
    listingHost_verifiesQuietly endLookUp ⟨1⟩ .bottom (some lookUp) rfl (lookingUp ⟨1⟩) _ _
    ⟨_, rfl⟩ ran
  obtain rfl : Act.stateOf (endLookUp.run listingHost checkedMode.unchecked (lookingUp ⟨1⟩)) =
    plain := congrArg Act.stateOf plainRun
  revert top
  decide +kernel

end NativeBoundary
