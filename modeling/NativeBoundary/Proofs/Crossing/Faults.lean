import NativeBoundary.Proofs.Crossing.Verdict

/-!
# The faults of a call

What a call of a method can be stopped for: by the tier and the shorty of its method, by the object
it should lock, by monitors that native code holds at its end, and by its result.  Each fault is
given by a function of what decides it, and the verdict on a part of an entry point names the
functions in the order in which the part comes to them.
-/

set_option autoImplicit false

namespace NativeBoundary

/-! ## Faults by what decides them -/

def returnBytes : List UInt8 :=
  "LZBCSIJFDV".toList.map Char.toUInt8

namespace Method

def synchronizedTier? (m : Method) (verified : Bool) : Option Fault :=
  if verified ∧ m.isSynchronized ∧ m.tier ≠ .normal then
    some (.synchronizedTier m.qualifiedName m.tier)
  else none

def noLockObject? {O : Type} (m : Method) (receiver : Option O) : Option Fault :=
  if m.isSynchronized ∧ ¬m.isStatic ∧ receiver.isNone then some (.noLockObject m.qualifiedName)
  else none

def unknownReturn? (m : Method) : Option Fault :=
  if m.returnByte ∈ returnBytes then none
  else some (.unknownReturn (Char.ofNat m.returnByte.toNat))

def returnsReference (m : Method) : Bool :=
  m.returnByte = 'L'.toUInt8

def criticalReference? (m : Method) : Option Fault :=
  if m.tier = .critical ∧ m.returnsReference then some (.criticalReference m.qualifiedName)
  else none

def monitorsHeld? (m : Method) (checked : Bool) (held : Nat) : Option Fault :=
  if checked ∧ m.tier ≠ .critical ∧ held ≠ 0 then some (.monitorsHeld held) else none

end Method

/-! ## Return types -/

namespace ReturnKind

theorem ofByte?_eq_none {byte : UInt8} : ofByte? byte = none ↔ byte ∉ returnBytes := by
  have bytes : returnBytes = [0x4c, 0x5a, 0x42, 0x43, 0x53, 0x49, 0x4a, 0x46, 0x44, 0x56] := by
    decide
  rw [bytes]
  constructor
  · intro none known
    simp only [List.mem_cons, List.not_mem_nil, or_false] at known
    rcases known with rfl | rfl | rfl | rfl | rfl | rfl | rfl | rfl | rfl | rfl <;> cases none
  · intro outside
    simp only [List.mem_cons, List.not_mem_nil, or_false, not_or] at outside
    simp only [ofByte?, outside, if_false]

theorem other_of_ite {α : Type} {condition : Prop} [Decidable condition] {a b found : α}
    (chosen : (if condition then a else b) = found) (apart : a ≠ found) : b = found := by
  by_cases holds : condition
  · rw [if_pos holds] at chosen
    exact absurd chosen apart
  · rwa [if_neg holds] at chosen

theorem ofByte?_eq_object {byte : UInt8} : ofByte? byte = some .object ↔ byte = 'L'.toUInt8 := by
  constructor
  · intro known
    by_cases letter : byte = 0x4c
    · exact letter
    · rw [ofByte?, if_neg letter] at known
      repeat replace known := other_of_ite known nofun
      cases known
  · rintro rfl
    rfl

end ReturnKind

theorem Method.returnsReference_iff {m : Method} :
    m.returnsReference = true ↔ ReturnKind.ofByte? m.returnByte = some .object := by
  rw [ReturnKind.ofByte?_eq_object, Method.returnsReference, decide_eq_true_iff]

namespace Crossing

variable {σ O X : Type} {host : Host σ O X} (b : Boundary) {others : Halt → Prop}
  {pre middle post : σ → Prop}

/-! ## The lock of a call -/

theorem checkSynchronizedTier_verdict (m : Method) :
    Verdict others pre (checkSynchronizedTier b m : Crossing σ O X Unit)
      (m.synchronizedTier? b.settings.verifyTiers) fun _ => pre := by
  unfold checkSynchronizedTier Method.synchronizedTier?
  split
  · exact .fault _
  · exact .stay ()

theorem lockObject_verdict {m : Method} {missing : Bool} {post : Option O → σ → Prop}
    (finds : Act.Verdict others pre (host.lockObject m) none fun found s =>
      found.isNone = missing ∧ post found s) :
    Verdict others pre (lockObject host m)
      (if missing then some (.noLockObject m.qualifiedName) else none)
      fun object => post (some object) := by
  refine .next (Verdict.record _) fun _ => .next (.run finds) fun found => .given ?_
  rintro rfl
  cases found with
  | some object => exact fun _ met => ⟨rfl, met⟩
  | none => exact .fault _

theorem lock_verdict {object : O}
    (enter : Act.Verdict others pre (host.enterMonitor object) none fun entered s =>
      entered = .ok () ∧ post s) :
    Verdict others pre (lock host object) none fun _ => post := by
  refine .next (Verdict.record _) fun _ => .next (.run enter) fun entered => .given ?_
  rintro rfl
  exact .stay ()

/-! ## Scopes -/

theorem checkScope_verdict {held : Nat} (holds : ∀ s, pre s → host.heldMonitors s = held)
    (deep : ∀ s, pre s → ¬(host.scopeTop s).position < (host.scopeBase s).position) :
    Verdict others pre (checkScope host) (if held ≠ 0 then some (.monitorsHeld held) else none)
      fun _ => pre := by
  refine Verdict.seen holds ?_
  split
  · next some => exact fun _ _ => .inr rfl
  · next none =>
    intro w met
    have inside := deep w.state met
    simp only [look, bind, EStateM.bind, if_neg inside]
    exact ⟨trivial, met⟩

theorem dropScope_verdict (saved : ScopeMark)
    (drops : ∀ s, pre s → post (host.setScopeBase saved (host.setScopeTop (host.scopeBase s) s))) :
    Verdict others pre (dropScope host saved) none fun _ => post :=
  fun w met => ⟨rfl, drops w.state met⟩

/-- The scope of a call is closed unless native code holds monitors or has cut into it. -/
theorem closeScope_verdict {held : Nat} (saved : ScopeMark)
    (holds : ∀ s, pre s → host.heldMonitors s = held)
    (deep : ∀ s, pre s → ¬(host.scopeTop s).position < (host.scopeBase s).position)
    (drops : ∀ s, pre s → post (host.setScopeBase saved (host.setScopeTop (host.scopeBase s) s))) :
    Verdict others pre (closeScope host b.settings.checked saved)
      (if b.settings.checked ∧ held ≠ 0 then some (.monitorsHeld held) else none)
      fun _ => post := by
  have inspect : Verdict others pre (onlyIf b.settings.checked (checkScope host))
      (if b.settings.checked ∧ held ≠ 0 then some (.monitorsHeld held) else none) fun _ => pre := by
    cases b.settings.checked with
    | false => exact .stay ()
    | true =>
      simp only [true_and]
      exact checkScope_verdict holds deep
  rw [closeScope_eq]
  exact .last inspect fun _ _ => dropScope_verdict saved drops

/-! ## Results -/

theorem protecting_verdict {fault? : Option Fault} {slot : Option O}
    {action : Crossing σ O X Unit}
    (push : ∀ object s, pre s → pre (host.pushHandle object s))
    (inner : Verdict others pre action fault? fun _ _ => True) :
    Verdict others pre (protecting host slot action) fault? fun _ _ => True := by
  cases slot with
  | none => exact .last inner fun _ _ => .pure _ fun _ _ => trivial
  | some object =>
    refine .next (Verdict.record _) fun _ => .next (.change (push object)) fun _ =>
      .last inner fun _ _ => fun _ _ => ⟨rfl, trivial⟩

theorem lookUpResult_verdict {handle : Handle} {object : Option O}
    (finds : ∀ s, pre s →
      (if (host.pending s).isSome then none else host.decode handle s) = object) :
    Verdict others pre (lookUpResult host handle) none fun found s => found = object ∧ pre s := by
  intro w met
  have found := finds w.state met
  simp only [lookUpResult, look, bind, EStateM.bind]
  cases pending : (host.pending w.state).isSome with
  | true =>
    rw [if_pos pending] at found
    exact ⟨trivial, found, met⟩
  | false =>
    rw [if_neg (by simp [pending])] at found
    exact ⟨trivial, found, met⟩

theorem closeOwnScope_verdict {m : Method} {held : Nat} (saved : ScopeMark)
    (holds : ∀ s, pre s → host.heldMonitors s = held)
    (deep : m.tier.opensScope = true → ∀ s, pre s →
      ¬(host.scopeTop s).position < (host.scopeBase s).position)
    (drops : ∀ s, pre s →
      post (host.setScopeBase saved (host.setScopeTop (host.scopeBase s) s))) :
    Verdict others pre (onlyIf m.tier.opensScope (closeScope host b.settings.checked saved))
      (m.monitorsHeld? b.settings.checked held) fun _ _ => True := by
  unfold Method.monitorsHeld?
  cases tier : m.tier with
  | critical => simpa [onlyIf, Tier.opensScope] using Verdict.pure () fun _ _ => trivial
  | normal | fast =>
    have opens : m.tier.opensScope = true := by rw [tier, Tier.opensScope]
    have closes : Verdict others pre (closeScope host b.settings.checked saved)
        (if b.settings.checked ∧ held ≠ 0 then some (.monitorsHeld held) else none)
        fun _ => post :=
      closeScope_verdict b saved holds (deep opens) drops
    simpa [onlyIf, Tier.opensScope] using
      closes.weaken (fun _ met => met) fun _ _ _ => trivial

theorem referenceResult_verdict {m : Method} {saved : ScopeMark} {handle : Handle} {held : Nat}
    {object : Option O} {rejected? : Option Fault}
    (holds : ∀ s, pre s → host.heldMonitors s = held)
    (deep : ∀ s, pre s → ¬(host.scopeTop s).position < (host.scopeBase s).position)
    (finds : ∀ s, pre s →
      (if (host.pending s).isSome then none else host.decode handle s) = object)
    (drops : ∀ s, pre s → post (host.setScopeBase saved (host.setScopeTop (host.scopeBase s) s)))
    (push : ∀ object s, post s → post (host.pushHandle object s))
    (check : Act.Verdict others post (host.checkResult m object) rejected? fun _ _ => True) :
    Verdict others pre (referenceResult host b handle saved (some m))
      ((if b.settings.checked ∧ held ≠ 0 then some (.monitorsHeld held) else none).or
        (if b.settings.checked then rejected? else none)) fun _ _ => True := by
  rw [referenceResult_eq]
  refine .next (lookUpResult_verdict finds) fun found => .given ?_
  rintro rfl
  refine .bind (closeScope_verdict b saved holds deep drops) fun _ _ => ?_
  unfold verifyResult
  split
  · exact Verdict.looks fun _ => protecting_verdict push
      (.next (Verdict.record _) fun _ => .run check)
  · exact .pure _ fun _ _ => trivial

/-- A result is delivered unless the return type is unknown, the method is critical and returns a
reference, native code holds monitors, or the result is rejected; the first of these is reported. -/
theorem deliver_verdict {m : Method} {saved : ScopeMark} {registers : Registers} {held : Nat}
    {object : Option O} {rejected? : Option Fault}
    (holds : ∀ s, pre s → host.heldMonitors s = held)
    (deep : m.tier.opensScope = true → ∀ s, pre s →
      ¬(host.scopeTop s).position < (host.scopeBase s).position)
    (finds : ∀ s, pre s →
      (if (host.pending s).isSome then none else host.decode registers.handle s) = object)
    (drops : ∀ s, pre s → post (host.setScopeBase saved (host.setScopeTop (host.scopeBase s) s)))
    (push : ∀ object s, post s → post (host.pushHandle object s))
    (check : Act.Verdict others post (host.checkResult m object) rejected? fun _ _ => True) :
    Verdict others pre (deliver host b m saved registers)
      (m.unknownReturn?.or <| m.criticalReference?.or <|
        (m.monitorsHeld? b.settings.checked held).or <|
          if b.settings.checked ∧ m.returnsReference then rejected? else none)
      fun _ _ => True := by
  have reference (opens : m.tier.opensScope = true) :
      Verdict others pre (referenceResult host b registers.handle saved (some m))
        ((if b.settings.checked ∧ held ≠ 0 then some (.monitorsHeld held) else none).or
          (if b.settings.checked then rejected? else none)) fun _ _ => True :=
    referenceResult_verdict b holds (deep opens) finds drops push check
  unfold deliver Method.unknownReturn? Method.criticalReference? ReturnKind.ofByte
  cases known : ReturnKind.ofByte? m.returnByte with
  | none =>
    rw [if_neg (ReturnKind.ofByte?_eq_none.1 known)]
    exact .fault _
  | some kind =>
    have listed : m.returnByte ∈ returnBytes := by
      refine Decidable.byContradiction fun missing => ?_
      rw [ReturnKind.ofByte?_eq_none.2 missing] at known
      cases known
    rw [if_pos listed, Option.none_or]
    cases kind with
    | object =>
      have returns : m.returnsReference = true := Method.returnsReference_iff.2 known
      cases tier : m.tier with
      | critical =>
        rw [if_pos ⟨rfl, returns⟩]
        exact .fault _
      | fast =>
        have opens : m.tier.opensScope = true := by rw [tier, Tier.opensScope]
        simpa [returns, tier, Method.monitorsHeld?] using
          .next (traceExit_verdict b) fun _ => .map _ (reference opens)
      | normal =>
        have opens : m.tier.opensScope = true := by rw [tier, Tier.opensScope]
        simpa [returns, tier, Method.monitorsHeld?] using
          Verdict.map CallResult.object (reference opens)
    | _ =>
      have returns : m.returnsReference = false := by
        rw [← Bool.not_eq_true, Method.returnsReference_iff, known]
        simp
      simp only [returns, Bool.false_eq_true, and_false, if_false, Option.none_or, Option.or_none]
      exact .last (closeOwnScope_verdict b saved holds deep drops) fun _ _ =>
        .pure _ fun _ _ => trivial

end Crossing

end NativeBoundary
