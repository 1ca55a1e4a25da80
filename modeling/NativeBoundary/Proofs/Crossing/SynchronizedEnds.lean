import NativeBoundary.Proofs.Crossing.PendingSlot
import NativeBoundary.Proofs.Crossing.Verdict

/-!
# Ends of synchronized calls

The end of a synchronized call exits one monitor, once, with an empty slot.  The exception that was
put aside meanwhile is pending again afterwards; one that the exit raises is pending if none was put
aside, and stops the call otherwise.  It makes no difference to the end how the lock of the
beginning came out: the monitor of a call that could not enter it is exited, too.
-/

set_option autoImplicit false

namespace NativeBoundary

variable {σ O X : Type}

/-! ## The unlock of an end -/

namespace Passage

variable (host : Host σ O X) (b : Boundary)

/-- An end up to its unlock.  Gives the object to unlock, if there is one. -/
def beforeUnlock : Passage O Handle ScopeMark Method Registers → Crossing σ O X (Option O)
  | endNormal locked reported _ | endNormalReference locked reported _ _ => do
    Crossing.finishNormal host b none reported
    pure locked
  | endMethod m _ _ => do
    Crossing.finishTier host b m.tier
    Crossing.seekLock host b m
  | _ => pure none

def afterUnlock :
    Passage O Handle ScopeMark Method Registers → Crossing σ O X (PassageResult O)
  | endNormal _ _ saved => do
    Crossing.closeScope host b.settings.checked saved
    pure .nothing
  | endNormalReference _ _ handle saved =>
    .object <$> Crossing.referenceResult host b handle saved none
  | endMethod m saved registers => .result <$> Crossing.deliver host b m saved registers
  | p => p.run host b

theorem run_eq_unlock (p : Passage O Handle ScopeMark Method Registers) :
    p.run host b = (do
      let target ← p.beforeUnlock host b
      target.forM (Crossing.unlock host)
      p.afterUnlock host b) := by
  have way (locked : Option O) (reported : Bool) :
      Crossing.finishNormal host b locked reported = (do
        Crossing.finishNormal host b none reported
        locked.forM (Crossing.unlock host)) := by
    rw [Crossing.finishNormal_eq, Crossing.finishNormal_eq]
    simp only [bind_assoc]
    rfl
  cases p with
  | endNormal locked reported saved =>
    simp only [run, beforeUnlock, afterUnlock, Crossing.endNormal]
    rw [way locked]
    simp only [bind_assoc, pure_bind]
  | endNormalReference locked reported handle saved =>
    simp only [run, beforeUnlock, afterUnlock, Crossing.endNormalReference]
    rw [way locked]
    simp only [map_bind, bind_assoc, pure_bind]
  | endMethod m saved registers =>
    simp only [run, beforeUnlock, afterUnlock]
    rw [Crossing.endMethod_eq_seekLock]
    simp only [map_bind, bind_assoc]
  | _ => rfl

end Passage

/-! ## Exits of monitors -/

def Deed.isExit : Deed O X → Bool
  | .exitMonitor _ => true
  | _ => false

def exits (j : List (Entry O X)) : List (Entry O X) :=
  j.filter fun entry => entry.deed.isExit

theorem exits_append (host : Host σ O X) (j : List (Entry O X)) {deed : Deed O X} (s : σ)
    (others : deed.isExit = false) : exits (j ++ [host.entry deed s]) = exits j := by
  simp [exits, Host.entry, others]

theorem exits_append_exit (host : Host σ O X) (j : List (Entry O X)) (object : O) (s : σ) :
    exits (j ++ [host.entry (.exitMonitor object) s]) =
      exits j ++ [host.entry (.exitMonitor object) s] := by
  simp [exits, Host.entry, Deed.isExit]

def Exited (known : List (Entry O X)) (j : List (Entry O X)) : Prop :=
  exits j = known

theorem Host.passes_no_exit (host : Host σ O X) (known : List (Entry O X)) {deed : Deed O X}
    (others : deed.isExit = false) :
    host.Passes (Exited known) (fun _ _ => True) deed fun _ _ => True := by
  intro s j _ same
  refine ⟨?_, fun _ _ => trivial⟩
  unfold Exited at *
  rw [exits_append host j s others, same]

theorem Deed.isExit_of_others {deed : Deed O X} (others : deed.isLocking = false) :
    deed.isExit = false := by
  cases deed <;> simp [Deed.isLocking] at others <;> rfl

namespace Crossing

variable {host : Host σ O X} (b : Boundary)

/-! ## What an end does around its unlock -/

section Around

variable {sound : List (Entry O X) → Prop} {I : Assertion σ O X}
  (others : ∀ deed : Deed O X, deed.isLocking = false → host.Passes sound I deed I)
include others

theorem beforeUnlock_passes (p : Passage O Handle ScopeMark Method Registers) :
    Passes sound I (p.beforeUnlock host b) I := by
  have notes := others_note others
  have finished (tier : Tier) : Passes sound I (finishTier host b tier) I :=
    finishTier_passes b tier notes (fun _ => others _ rfl) (fun _ => others _ rfl)
      fun _ _ _ met => met
  cases p with
  | endNormal locked reported saved | endNormalReference locked reported handle saved =>
    refine .bind (finishNormal_passes b none reported notes (others _ rfl) (fun _ _ met => met)
      ?_ ?_ ?_) fun _ => .stay _
    · exact fun locked => nomatch locked
    · exact fun _ locked => nomatch locked
    · exact fun locked => nomatch locked
  | endMethod m saved registers =>
    exact .bind (finished m.tier) fun _ => seekLock_passes b m (others _ rfl)
  | _ => exact .stay _

theorem afterUnlock_passes (p : Passage O Handle ScopeMark Method Registers)
    {w ready : World σ O X} {target : O}
    (reached : p.beforeUnlock host b w = .ok (some target) ready) :
    Passes sound I (p.afterUnlock host b) I := by
  cases p with
  | endNormal locked reported saved =>
    exact .bind (closeScope_passes (fun _ => others _ rfl) (fun _ => others _ rfl) _ saved)
      fun _ => .stay _
  | endNormalReference locked reported handle saved =>
    exact .map _ (referenceResult_passes b saved (fun _ _ met => met) (fun _ => others _ rfl)
      (fun _ => others _ rfl) (fun _ => others _ rfl) (fun _ _ met => met)
      (fun _ => others _ rfl) (fun _ _ => others _ rfl) (fun _ _ _ => others _ rfl)
      (fun _ => others _ rfl) handle none)
  | endMethod m saved registers =>
    exact .map _ (deliver_passes b saved (fun _ _ met => met) (fun _ => others _ rfl)
      (fun _ => others _ rfl) (fun _ => others _ rfl) (fun _ _ met => met)
      (fun _ => others _ rfl) (fun _ _ => others _ rfl) (fun _ _ _ => others _ rfl)
      (fun _ => others _ rfl) m registers (others_note others) fun _ _ met => met)
  | _ => exact nomatch (Act.pure_eq_ok.1 reached).1

end Around

/-! ## The unlock -/

section Unlock

variable {object : O} {w : World σ O X}

/-- What was pending is put aside, and the exit is noted with an empty slot. -/
theorem unlock_eq :
    unlock host object w =
      (do
        let exited ← run (host.exitMonitor object)
        match exited, host.pending w.state with
        | .ok (), none => pure ()
        | .ok (), some first =>
          record host (.setPending first)
          change (host.setPending first)
        | .error second, none =>
          record host (.setPending second)
          change (host.setPending second)
        | .error second, some first =>
          fault (.doubleFault (host.describe first) (host.describe second)) : Crossing σ O X Unit)
        { w with
          state := host.clearPending w.state
          journal := w.journal ++ [host.entry .takePending w.state] ++
            [host.entry (.exitMonitor object) (host.clearPending w.state)] } :=
  rfl

/-- An unlock exits one monitor, once, however it comes out. -/
theorem exits_unlock :
    exits (Act.stateOf (unlock host object w)).journal =
      exits w.journal ++ [host.entry (.exitMonitor object) (host.clearPending w.state)] := by
  have noted := exits_append_exit host (w.journal ++ [host.entry .takePending w.state]) object
    (host.clearPending w.state)
  rw [exits_append host w.journal w.state rfl] at noted
  generalize exits w.journal ++ [host.entry (.exitMonitor object) (host.clearPending w.state)] =
    known at noted ⊢
  have idle (deed : Deed O X) (others : deed.isExit = false) :=
    host.passes_no_exit known others
  have acts : Passes (Exited known) (fun _ _ => True) (run (host.exitMonitor object))
      fun _ _ => True := by
    intro w' met
    unfold run
    cases host.exitMonitor object w'.state with
    | ok _ _ => exact met
    | error _ _ => exact met.2
  rw [unlock_eq]
  -- The exit is in the journal before it is tried; from there on no further one is noted.
  refine Passes.sound_journal (.bind (K := fun _ _ => True) acts fun exited => ?_) trivial noted
  cases exited with
  | ok _ =>
    cases host.pending w.state with
    | none => exact .stay ()
    | some first => exact makePending_passes (fun _ => idle _ rfl) first
  | error second =>
    cases host.pending w.state with
    | none => exact makePending_passes (fun _ => idle _ rfl) second
    | some first => exact .halt _

theorem unlock_of_exited {exited : Except X Unit} {s : σ}
    (exit : host.exitMonitor object (host.clearPending w.state) = .ok exited s) :
    match exited, host.pending w.state with
    | .ok _, none => ∃ w', unlock host object w = .ok () w' ∧ w'.state = s
    | .ok _, some first =>
      ∃ w', unlock host object w = .ok () w' ∧ w'.state = host.setPending first s
    | .error second, none =>
      ∃ w', unlock host object w = .ok () w' ∧ w'.state = host.setPending second s
    | .error second, some first =>
      ∃ w', unlock host object w =
        .error (.fault (.doubleFault (host.describe first) (host.describe second))) w' := by
  rw [unlock_eq]
  simp only [run, bind, EStateM.bind, exit]
  cases exited with
  | ok _ =>
    cases host.pending w.state with
    | none => exact ⟨_, rfl, rfl⟩
    | some first => exact ⟨_, rfl, rfl⟩
  | error second =>
    cases host.pending w.state with
    | none => exact ⟨_, rfl, rfl⟩
    | some first => exact ⟨_, rfl⟩

/-- An unlock is stopped where its exit is, or where the exit raises an exception while another one
is put aside. -/
theorem halt?_unlock :
    (unlock host object).halt? w =
      match host.exitMonitor object (host.clearPending w.state) with
      | .error why _ => some why
      | .ok (.ok _) _ => none
      | .ok (.error second) _ => (host.pending w.state).map fun first =>
        .fault (.doubleFault (host.describe first) (host.describe second)) := by
  unfold Act.halt?
  rw [unlock_eq]
  simp only [run, bind, EStateM.bind]
  cases host.exitMonitor object (host.clearPending w.state) with
  | error why s => rfl
  | ok exited s => cases exited <;> cases host.pending w.state <;> rfl

end Unlock

/-! ## What stops an end -/

def isDoubleFault : Fault → Bool
  | .doubleFault _ _ => true
  | _ => false

/-- A crossing is stopped for reasons that are let pass alone. -/
abbrev StopsFor {α : Type} (others : Halt → Prop) (c : Crossing σ O X α) : Prop :=
  Verdict others (fun _ => True) c none fun _ _ => True

section Stops

variable {others : Halt → Prop}
  (faults : ∀ fault : Fault, isDoubleFault fault = false → others (.fault fault))
  (checks : ∀ m result s why, (host.checkResult m result).halt? s = some why → others why)

include faults in
theorem closeScope_stopsFor (checked : Bool) (saved : ScopeMark) :
    StopsFor others (closeScope host checked saved) := by
  have depth : StopsFor others (do
      let base ← look host.scopeBase
      let top ← look host.scopeTop
      if top.position < base.position then
        fault (.scopeUnderflow top.position base.position) : Crossing σ O X Unit) :=
    Verdict.looks fun _ => Verdict.looks fun _ =>
      .branch (fun _ => Verdict.halt (faults _ rfl)) fun _ => .stay ()
  have promises : StopsFor others (checkScope host) :=
    Verdict.looks fun _ => .branch
      (fun _ => .next (Verdict.halt (faults _ rfl)) fun _ => depth) fun _ => depth
  rw [closeScope_eq]
  refine .next (.branch (fun _ => promises) fun _ => .stay ()) fun _ => ?_
  exact Verdict.looks fun _ => .next (Verdict.record _) fun _ =>
    .next (Verdict.change fun _ met => met) fun _ => .next (Verdict.record _) fun _ =>
      Verdict.change fun _ met => met

include checks in
theorem verifyAgainst_stopsFor (m : Method) (object : Option O) :
    StopsFor others (verifyAgainst host m object) := by
  refine .next (Verdict.record _) fun _ => Verdict.run fun s _ => ?_
  cases result : host.checkResult m object s with
  | ok a s' => exact ⟨rfl, trivial⟩
  | error why s' => exact .inl (checks m object s why (Act.halt?_of_error result))

include checks in
theorem verifyResult_stopsFor (method : Option Method) (object : Option O) :
    StopsFor others (verifyResult host b method object) := by
  refine .branch (fun _ => Verdict.looks fun executing => ?_) fun _ => .stay _
  cases method <|> executing with
  | none => exact .stay _
  | some m =>
    have verifying := verifyAgainst_stopsFor checks m object
    cases object with
    | none => exact .next verifying fun _ => .stay _
    | some held =>
      exact .next (Verdict.record _) fun _ => .next (Verdict.change fun _ met => met) fun _ =>
        .next verifying fun _ => .next (Verdict.record _) fun _ => Verdict.looks fun _ =>
          .next (Verdict.change fun _ met => met) fun _ => .stay _

include faults checks in
theorem referenceResult_stopsFor (handle : Handle) (saved : ScopeMark) (method : Option Method) :
    StopsFor others (referenceResult host b handle saved method) := by
  rw [referenceResult_eq]
  refine .next ?_ fun object => .next (closeScope_stopsFor faults _ saved) fun _ =>
    verifyResult_stopsFor b checks method object
  exact Verdict.looks fun _ => .branch (fun _ => .stay _)
    fun _ => .next (Verdict.record _) fun _ => Verdict.looked

include faults checks in
theorem deliver_stopsFor (m : Method) (saved : ScopeMark) (registers : Registers) :
    StopsFor others (deliver host b m saved registers) := by
  have reference : StopsFor others
      (CallResult.object <$> referenceResult host b registers.handle saved (some m)) :=
    .map _ (referenceResult_stopsFor b faults checks _ saved (some m))
  unfold deliver
  cases known : ReturnKind.ofByte m.returnByte with
  | error why =>
    refine Verdict.halt (faults why ?_)
    unfold ReturnKind.ofByte at known
    split at known
    · cases known
    · cases known
      rfl
  | ok kind =>
    cases kind with
    | object =>
      cases m.tier with
      | critical => exact Verdict.halt (faults _ rfl)
      | fast => exact .next (traceExit_verdict b) fun _ => reference
      | normal => exact reference
    | _ =>
      exact .next (.branch (fun _ => closeScope_stopsFor faults _ saved)
        fun _ => .stay ()) fun _ => .stay _

include faults checks in
theorem afterUnlock_stopsFor (p : Passage O Handle ScopeMark Method Registers)
    {w ready : World σ O X} {target : O}
    (reached : p.beforeUnlock host b w = .ok (some target) ready) :
    StopsFor others (p.afterUnlock host b) := by
  cases p with
  | endNormal locked reported saved =>
    exact .next (closeScope_stopsFor faults _ saved) fun _ => .stay _
  | endNormalReference locked reported handle saved =>
    exact .map _ (referenceResult_stopsFor b faults checks handle saved none)
  | endMethod m saved registers => exact .map _ (deliver_stopsFor b faults checks m saved registers)
  | _ => exact nomatch (Act.pure_eq_ok.1 reached).1

end Stops

/-! ## Ends that come to their unlock -/

section Reached

variable (p : Passage O Handle ScopeMark Method Registers) {w ready : World σ O X} {target : O}
  (reached : p.beforeUnlock host b w = .ok (some target) ready)
include reached

theorem run_of_reached :
    p.run host b w = (do
      unlock host target
      p.afterUnlock host b) ready := by
  rw [p.run_eq_unlock, Act.bind_of_ok reached]
  rfl

theorem exits_of_reached :
    exits (Act.stateOf (p.run host b w)).journal =
      exits w.journal ++ [host.entry (.exitMonitor target) (host.clearPending ready.state)] := by
  have quiet (known : List (Entry O X)) (deed : Deed O X) (others : deed.isLocking = false) :=
    host.passes_no_exit known (Deed.isExit_of_others others)
  have before : exits ready.journal = exits w.journal :=
    ((beforeUnlock_passes b (quiet _) p).of_ok reached trivial rfl).2
  have during : exits (Act.stateOf (unlock host target ready)).journal = _ := exits_unlock
  rw [run_of_reached b p reached, ← before, ← during]
  cases unlocking : unlock host target ready with
  | error why stopped =>
    rw [Act.bind_of_error unlocking]
    rfl
  | ok u unlocked =>
    rw [Act.bind_of_ok unlocking]
    exact (afterUnlock_passes b (quiet _) p reached).sound_journal trivial rfl

theorem halt?_of_reached {why : Halt} (stopped : (p.run host b).halt? w = some why) :
    (unlock host target).halt? ready = some why ∨
      ∃ unlocked, (p.afterUnlock host b).halt? unlocked = some why := by
  have whole : (do
      unlock host target
      p.afterUnlock host b : Crossing σ O X (PassageResult O)).halt? ready = some why := by
    unfold Act.halt? at stopped ⊢
    rwa [run_of_reached b p reached] at stopped
  cases unlocking : unlock host target ready with
  | ok u unlocked =>
    rw [Act.halt?_bind_of_ok unlocking] at whole
    exact .inr ⟨unlocked, whole⟩
  | error other stopped =>
    have first := Act.halt?_of_error unlocking
    rw [Act.halt?_bind_of_halt? first] at whole
    exact .inl (first.trans whole)

theorem halt?_of_meeting {first second : X} {s : σ} (before : host.pending ready.state = some first)
    (exit : host.exitMonitor target (host.clearPending ready.state) = .ok (.error second) s) :
    (p.run host b).halt? w =
      some (.fault (.doubleFault (host.describe first) (host.describe second))) := by
  have unlocking : (unlock host target).halt? ready =
      some (.fault (.doubleFault (host.describe first) (host.describe second))) := by
    rw [halt?_unlock, exit, before]
    rfl
  have whole := Act.halt?_bind_of_halt? (f := fun _ => p.afterUnlock host b) unlocking
  unfold Act.halt? at whole ⊢
  rwa [run_of_reached b p reached]

/-- An end that two exceptions have stopped was stopped by those that met in its unlock, unless the
host has given the exit or the verification of the result up in the same words. -/
theorem meeting_of_halt? {first second : String}
    (stopped : (p.run host b).halt? w = some (.fault (.doubleFault first second))) :
    (∃ before raised s, host.pending ready.state = some before ∧
        host.exitMonitor target (host.clearPending ready.state) = .ok (.error raised) s ∧
        first = host.describe before ∧ second = host.describe raised) ∨
      (host.exitMonitor target).halt? (host.clearPending ready.state) =
        some (.fault (.doubleFault first second)) ∨
      ∃ m result s, (host.checkResult m result).halt? s =
        some (.fault (.doubleFault first second)) := by
  obtain unlocking | ⟨unlocked, later⟩ := halt?_of_reached b p reached stopped
  · rw [halt?_unlock] at unlocking
    cases exit : host.exitMonitor target (host.clearPending ready.state) with
    | error why s =>
      rw [exit] at unlocking
      exact .inr (.inl ((Act.halt?_of_error exit).trans unlocking))
    | ok exited s =>
      rw [exit] at unlocking
      cases exited with
      | ok _ => cases unlocking
      | error raised =>
        obtain ⟨before, pending, same⟩ := Option.map_eq_some_iff.1 unlocking
        simp only [Halt.fault.injEq, Fault.doubleFault.injEq] at same
        exact .inl ⟨before, raised, s, pending, rfl, same.1.symm, same.2.symm⟩
  · right
    right
    -- After the unlock, only the verification of the result can be given up in these words.
    let known (why : Halt) : Prop :=
      why = .fault (.doubleFault first second) →
        ∃ m result s, (host.checkResult m result).halt? s = some why
    have judged : StopsFor known (p.afterUnlock host b) := by
      refine afterUnlock_stopsFor b (fun fault other named => ?_)
        (fun m result s why stop _ => ⟨m, result, s, stop⟩) p reached
      cases named
      simp [isDoubleFault] at other
    obtain found | none := Act.Verdict.of_halt? judged trivial later
    · exact found rfl
    · simp at none

variable {present : σ → Prop} (slotted : host.Slotted present) {pending : Option X}
include slotted

theorem pends_of_beforeUnlock (met : host.Pends present pending w.state) :
    host.Pends present pending ready.state :=
  (Passes.of_ok (beforeUnlock_passes b (slotted.keeps pending) p) reached met trivial).1

theorem pends_of_afterUnlock {unlocked w' : World σ O X} {result : PassageResult O}
    (met : host.Pends present pending unlocked.state)
    (run : p.afterUnlock host b unlocked = .ok result w') :
    host.pending w'.state = pending :=
  (Passes.of_ok (afterUnlock_passes b (slotted.keeps pending) p reached) run met
    trivial).1.2

theorem pending_of_reached (met : host.Pends present pending w.state)
    {exited : Except X Unit} {s : σ}
    (exit : host.exitMonitor target (host.clearPending ready.state) = .ok exited s)
    {w' : World σ O X} {result : PassageResult O} (returned : p.run host b w = .ok result w') :
    match exited with
    | .ok _ => host.pending w'.state = pending
    | .error second => pending = none ∧ host.pending w'.state = some second := by
  obtain ⟨here, same⟩ := pends_of_beforeUnlock b p reached slotted met
  have does : host.Does (.exitMonitor target) (host.clearPending ready.state) s := ⟨exited, exit⟩
  -- The slot is empty from before the exit until the unlock puts something back.
  have empty : host.Pends present none s :=
    slotted.pends_of_does (slotted.clearPending ready.state here) rfl does
  rw [run_of_reached b p reached] at returned
  obtain ⟨_, unlocked, unlocking, after⟩ := Act.bind_eq_ok.1 returned
  have outcome := unlock_of_exited exit
  rw [same] at outcome
  cases exited with
  | ok _ =>
    cases pending with
    | none =>
      obtain ⟨_, unlocks, rfl⟩ := outcome
      obtain ⟨-, rfl⟩ := EStateM.Result.ok.inj (unlocks.symm.trans unlocking)
      exact pends_of_afterUnlock b p reached slotted empty after
    | some first =>
      obtain ⟨_, unlocks, put⟩ := outcome
      obtain ⟨-, rfl⟩ := EStateM.Result.ok.inj (unlocks.symm.trans unlocking)
      have restored := slotted.setPending first s empty.1
      rw [← put] at restored
      exact pends_of_afterUnlock b p reached slotted restored after
  | error second =>
    cases pending with
    | none =>
      obtain ⟨_, unlocks, put⟩ := outcome
      obtain ⟨-, rfl⟩ := EStateM.Result.ok.inj (unlocks.symm.trans unlocking)
      have raised := slotted.setPending second s empty.1
      rw [← put] at raised
      exact ⟨rfl, pends_of_afterUnlock b p reached slotted raised after⟩
    | some first =>
      obtain ⟨_, stops⟩ := outcome
      cases stops.symm.trans unlocking

end Reached

theorem exits_of_begun (p : Passage O Handle ScopeMark Method Registers)
    (begins : p.begins?.isSome = true) {w w' : World σ O X} {result : PassageResult O}
    (returned : p.run host b w = .ok result w') : exits w'.journal = exits w.journal := by
  have quiet (deed : Deed O X) (others : deed.isExit = false) :=
    host.passes_no_exit (exits w.journal) others
  have around (deed : Deed O X) (others : deed.isLocking = false) :=
    quiet deed (Deed.isExit_of_others others)
  have whole : Passes (Exited (exits w.journal)) (fun _ _ => True) (p.run host b)
      fun _ _ => True := by
    rw [p.run_eq_lock]
    refine .bind (beforeLock_passes b around p) fun target => .bind ?_ fun _ =>
      afterLock_passes b around p begins
    cases target with
    | none => exact .stay _
    | some object => exact lock_passes object (fun _ => quiet _ rfl) (quiet _ rfl)
  exact (whole.of_ok returned trivial rfl).2

end Crossing

/-! ## Results -/

/-- The end of a synchronized call that comes to its unlock exits the monitor once, and the exit
sees an empty slot.  Where the end returns, the exception that was pending before it is pending
again if the exit has succeeded, and if the exit has failed nothing was pending and the new
exception is.  Two exceptions that meet stop the end with the texts of both, and nothing else does
so, unless the host itself gives up in the same words. -/
theorem synchronized_end_keeps_exception (host : Host σ O X) (b : Boundary) (present : σ → Prop)
    (slotted : host.Slotted present) (p : Passage O Handle ScopeMark Method Registers)
    (w ready : World σ O X) (target : O) (here : present w.state)
    (reached : p.beforeUnlock host b w = .ok (some target) ready) :
    (∃ entry, exits (Act.stateOf (p.run host b w)).journal = exits w.journal ++ [entry] ∧
        entry.deed = .exitMonitor target ∧ entry.pending = none) ∧
      (∀ exited s, host.exitMonitor target (host.clearPending ready.state) = .ok exited s →
        ∀ result w', p.run host b w = .ok result w' →
          (exited = .ok () → host.pending w'.state = host.pending w.state) ∧
            ∀ second, exited = .error second →
              host.pending w.state = none ∧ host.pending w'.state = some second) ∧
      (∀ first second s, host.pending w.state = some first →
        host.exitMonitor target (host.clearPending ready.state) = .ok (.error second) s →
        (p.run host b).halt? w =
          some (.fault (.doubleFault (host.describe first) (host.describe second)))) ∧
      ∀ first second, (p.run host b).halt? w = some (.fault (.doubleFault first second)) →
        (∃ before raised s, host.pending w.state = some before ∧
            host.exitMonitor target (host.clearPending ready.state) = .ok (.error raised) s ∧
            first = host.describe before ∧ second = host.describe raised) ∨
          (host.exitMonitor target).halt? (host.clearPending ready.state) =
            some (.fault (.doubleFault first second)) ∨
          ∃ m result s, (host.checkResult m result).halt? s =
            some (.fault (.doubleFault first second)) := by
  have met : host.Pends present (host.pending w.state) w.state := ⟨here, rfl⟩
  obtain ⟨hereReady, same⟩ := Crossing.pends_of_beforeUnlock b p reached slotted met
  refine ⟨⟨_, Crossing.exits_of_reached b p reached, rfl, ?_⟩, ?_, ?_, ?_⟩
  · exact (slotted.clearPending ready.state hereReady).2
  · intro exited s exit result w' returned
    have after := Crossing.pending_of_reached b p reached slotted met exit returned
    constructor
    · rintro rfl
      exact after
    · rintro second rfl
      exact after
  · intro first second s before exit
    exact Crossing.halt?_of_meeting b p reached (same.trans before) exit
  · intro first second stopped
    have meeting := Crossing.meeting_of_halt? b p reached stopped
    rwa [same] at meeting

open Scripted (Stage)

def peekMethod : Method where
  className := "Point"
  name := "peek"
  shorty := "L"
  tier := .fast
  isSynchronized := true

def endOfPeek : Passage String Handle ScopeMark Method Registers :=
  .endMethod peekMethod .bottom {}

def unverifiedTiers : Boundary where
  settings := { verifyTiers := false }

def amidFailing : World Stage String String where
  state := { pending := some "old" }

theorem synchronized_end_keeps_exception_peek :
    ∃ result w', endOfPeek.run Stage.host unverifiedTiers amidFailing = .ok result w' ∧
      w'.state.pending = some "old" ∧
      ∃ entry, exits w'.journal = [entry] ∧ entry.deed = .exitMonitor "class" ∧
        entry.pending = none := by
  obtain ⟨result, w', returned⟩ :
      ∃ result w', endOfPeek.run Stage.host unverifiedTiers amidFailing = .ok result w' := by
    obtain ⟨result, returned⟩ := Act.eq_ok_stateOf
      (x := endOfPeek.run Stage.host unverifiedTiers) (s := amidFailing) (by decide +kernel)
    exact ⟨result, _, returned⟩
  have reached : endOfPeek.beforeUnlock Stage.host unverifiedTiers amidFailing =
      .ok (some "class") _ := rfl
  obtain ⟨⟨entry, once, exit, empty⟩, kept, -⟩ :=
    synchronized_end_keeps_exception Stage.host unverifiedTiers _ Stage.host_slotted endOfPeek
      amidFailing _ "class" trivial reached
  have same := (kept (.ok ()) _ rfl result w' returned).1 rfl
  rw [returned] at once
  exact ⟨result, w', returned, same, entry, once, exit, empty⟩

/-- Whatever becomes of the enter of a synchronized call, its beginning exits no monitor and its end
exits the one that it was to enter.  If the enter was refused and the exception is still pending
when the call ends, the exception is pending after the end if the exit succeeds, and meets the
exception of the exit if that fails. -/
theorem synchronized_pair_exits_once (host : Host σ O X) (b : Boundary) (present : σ → Prop)
    (slotted : host.Slotted present) (p q : Passage O Handle ScopeMark Method Registers)
    (w opened started ended ready : World σ O X) (target : O) (begun : PassageResult O)
    (here : present w.state) (hereEnded : present ended.state)
    (begins : p.begins?.isSome = true)
    (locks : p.beforeLock host b w = .ok (some target) opened)
    (beginning : p.run host b w = .ok begun started)
    (reached : q.beforeUnlock host b ended = .ok (some target) ready) :
    exits started.journal = exits w.journal ∧
      (∃ entry, exits (Act.stateOf (q.run host b ended)).journal = exits ended.journal ++ [entry] ∧
        entry.deed = .exitMonitor target) ∧
      ∀ refused s, host.enterMonitor target opened.state = .ok (.error refused) s →
        host.pending ended.state = host.pending started.state →
        ∀ exited s', host.exitMonitor target (host.clearPending ready.state) = .ok exited s' →
          (∀ result w', q.run host b ended = .ok result w' →
            exited = .ok () ∧ host.pending w'.state = some refused) ∧
            ∀ second, exited = .error second → (q.run host b).halt? ended =
              some (.fault (.doubleFault (host.describe refused) (host.describe second))) := by
  refine ⟨Crossing.exits_of_begun b p begins beginning,
    ⟨_, Crossing.exits_of_reached b q reached, rfl⟩, ?_⟩
  intro refused s refusal untouched exited s' exit
  have failure : p.lockFailure? host b w = some refused := by
    simp only [Passage.lockFailure?, locks, refusal]
  have left := Crossing.pending_of_begun b slotted p here begins beginning
  rw [failure, Option.some_or] at left
  have met : host.Pends present (some refused) ended.state := ⟨hereEnded, untouched.trans left⟩
  constructor
  · intro result w' returned
    have after := Crossing.pending_of_reached b q reached slotted met exit returned
    cases exited with
    | ok _ => exact ⟨rfl, after⟩
    | error second => exact nomatch after.1
  · rintro second rfl
    have same := (Crossing.pends_of_beforeUnlock b q reached slotted met).2
    exact Crossing.halt?_of_meeting b q reached same exit

def beforeRefusals : World Stage String String where
  state := { enterFailure := some "refused", exitFailure := some "not the owner" }

def endOnLock : Passage String Handle ScopeMark Method Registers :=
  .endNormal (some "lock") false .bottom

def amidRefusals : World Stage String String :=
  Act.stateOf (beginOnLock.run Stage.host {} beforeRefusals)

theorem synchronized_pair_exits_once_refused :
    (endOnLock.run Stage.host {}).halt? amidRefusals =
      some (.fault (.doubleFault "refused" "not the owner")) := by
  obtain ⟨begun, beginning⟩ := Act.eq_ok_stateOf
    (x := beginOnLock.run Stage.host {}) (s := beforeRefusals) (by decide +kernel)
  have locks : beginOnLock.beforeLock Stage.host {} beforeRefusals = .ok (some "lock") _ := rfl
  have reached : endOnLock.beforeUnlock Stage.host {} amidRefusals = .ok (some "lock") _ := rfl
  obtain ⟨-, -, met⟩ :=
    synchronized_pair_exits_once Stage.host {} _ Stage.host_slotted beginOnLock endOnLock
      beforeRefusals _ amidRefusals amidRefusals _ "lock" begun trivial trivial rfl locks beginning
      reached
  exact (met "refused" _ rfl rfl (.error "not the owner") _ rfl).2 _ rfl

/-- A call whose enter was refused does not leave the monitor alone. -/
theorem refused_pair_exits :
    ¬∀ (w started : World Stage String String) (begun : PassageResult String) (refused : String),
      beginOnLock.run Stage.host {} w = .ok begun started →
        beginOnLock.lockFailure? Stage.host {} w = some refused →
          exits (Act.stateOf (endOnLock.run Stage.host {} started)).journal = [] := by
  intro leaves
  obtain ⟨begun, beginning⟩ := Act.eq_ok_stateOf
    (x := beginOnLock.run Stage.host {}) (s := beforeRefusals) (by decide +kernel)
  have none := leaves _ _ begun "refused" beginning rfl
  have one :
      (exits (Act.stateOf (endOnLock.run Stage.host {} amidRefusals)).journal).length = 1 := by
    decide +kernel
  unfold amidRefusals at one
  rw [none] at one
  simp at one

end NativeBoundary
