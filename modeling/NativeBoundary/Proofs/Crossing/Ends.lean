import NativeBoundary.Proofs.Crossing.Journal
import NativeBoundary.Proofs.Crossing.Passes

/-!
# Ends of calls

The end of a call comes back to managed code, unlocks, looks the result up, closes the scope and
verifies, and each kind of end leaves some of this out.  An assertion for each stage, with one rule
for each deed, is carried through all of them at once; the first thing shown in this way is that the
stages come in that order.
-/

set_option autoImplicit false

namespace NativeBoundary

variable {σ O X : Type}

/-! ## Rules for an end -/

namespace Passage

def ends? : Passage O Handle ScopeMark Method Registers → Option Tier
  | endNormal _ _ _ | endNormalReference _ _ _ _ => some .normal
  | endFast _ | endFastReference _ _ => some .fast
  | endCritical => some .critical
  | endMethod m _ _ => some m.tier
  | _ => none

end Passage

/-- What the deeds of an end make of an assertion `I`: `J` once the thread is back in managed code,
`U` once it has unlocked, `D` once the result is looked up, `S` once the scope is closed, and `V`
at the end.  A stage that a call leaves out passes the assertion on. -/
structure Host.EndRules (host : Host σ O X) (sound : List (Entry O X) → Prop) (tier : Tier)
    (I J U D S V : Assertion σ O X) : Prop where
  note : ∀ deed : Deed O X, deed.isNote = true → host.Passes sound I deed I
  toManaged : tier = .normal → host.Passes sound I .toManaged J
  checkSuspend : tier = .fast → host.Passes sound I .checkSuspend J
  stayed : tier ≠ .normal → ∀ s j, I s j → J s j
  lockObject : ∀ m, host.Passes sound J (.lockObject m) J
  takePending : host.Passes sound J .takePending J
  exitMonitor : ∀ object, host.Passes sound J (.exitMonitor object) U
  setPending : ∀ exception, host.Passes sound U (.setPending exception) U
  unlocked : ∀ s j, J s j → U s j
  noteBack : ∀ deed : Deed O X, deed.isNote = true → host.Passes sound U deed U
  decode : ∀ handle, host.Passes sound U (.decode handle) D
  decoded : ∀ s j, U s j → D s j
  setScopeTop : ∀ mark, host.Passes sound D (.setScopeTop mark) S
  setScopeBase : ∀ mark, host.Passes sound S (.setScopeBase mark) S
  closed : ∀ s j, D s j → S s j
  pushHandle : ∀ object, host.Passes sound S (.pushHandle object) S
  checkResult : ∀ m result, host.Passes sound S (.checkResult m result) V
  popHandle : host.Passes sound V .popHandle V
  verified : ∀ s j, S s j → V s j

namespace Crossing

section Ends

variable {host : Host σ O X} {sound : List (Entry O X) → Prop} {tier : Tier}
  {I J U D S V : Assertion σ O X} (b : Boundary) (rules : host.EndRules sound tier I J U D S V)
include rules

theorem EndRules.finishNormal (normal : tier = .normal) (locked : Option O) (reported : Bool) :
    Passes sound I (finishNormal host b locked reported) U :=
  finishNormal_passes b locked reported rules.note (rules.toManaged normal) rules.unlocked
    (fun _ => rules.takePending) (fun object _ => rules.exitMonitor object)
    fun _ => rules.setPending

theorem EndRules.finishFast (fast : tier = .fast) : Passes sound I (finishFast host b) J :=
  finishFast_passes b (rules.checkSuspend fast) (rules.stayed (by simp [fast]))

theorem EndRules.closeScope (checked : Bool) (saved : ScopeMark) :
    Passes sound D (closeScope host checked saved) V :=
  .widen (closeScope_passes rules.setScopeTop rules.setScopeBase checked saved) rules.verified

theorem EndRules.referenceResult (handle : Handle) (saved : ScopeMark) (method : Option Method) :
    Passes sound U (referenceResult host b handle saved method) V :=
  referenceResult_passes b saved rules.decoded rules.decode rules.setScopeTop rules.setScopeBase
    rules.verified rules.pushHandle rules.checkResult (fun m _ => rules.checkResult m)
    (fun _ => rules.popHandle) handle method

theorem EndRules.finishTier : Passes sound I (finishTier host b tier) J :=
  finishTier_passes b tier rules.note rules.toManaged rules.checkSuspend rules.stayed

theorem EndRules.endMethod (m : Method) (same : m.tier = tier) (saved : ScopeMark)
    (registers : Registers) : Passes sound I (endMethod host b m saved registers) V := by
  have finish : Passes sound I (Crossing.finishTier host b m.tier) J := by
    rw [same]
    exact EndRules.finishTier b rules
  have unlock : Passes sound J (unlockFor host b m) U :=
    unlockFor_passes b m rules.unlocked (rules.lockObject m) rules.takePending rules.exitMonitor
      rules.setPending
  have deliver : Passes sound U (deliver host b m saved registers) V :=
    deliver_passes b saved rules.decoded rules.decode rules.setScopeTop rules.setScopeBase
      rules.verified rules.pushHandle rules.checkResult (fun m _ => rules.checkResult m)
      (fun _ => rules.popHandle) m registers rules.noteBack rules.closed
  rw [endMethod_eq]
  exact .bind finish fun _ => .bind unlock fun _ => deliver

/-- What the rules for the deeds say of every end of a call. -/
theorem EndRules.run (p : Passage O Handle ScopeMark Method Registers)
    (ends : p.ends? = some tier) : Passes sound I (p.run host b) V := by
  cases p with
  | endNormal locked reported saved =>
    have normal : tier = .normal := (Option.some.inj ends).symm
    refine .bind (.bind (EndRules.finishNormal b rules normal locked reported) fun _ => ?_)
      fun _ => .stay _
    exact .weaken (EndRules.closeScope rules _ saved) rules.decoded
  | endNormalReference locked reported handle saved =>
    have normal : tier = .normal := (Option.some.inj ends).symm
    refine .map _ (.bind (EndRules.finishNormal b rules normal locked reported) fun _ => ?_)
    exact EndRules.referenceResult b rules handle saved none
  | endFast saved =>
    have fast : tier = .fast := (Option.some.inj ends).symm
    refine .bind (.bind (EndRules.finishFast b rules fast) fun _ => ?_) fun _ => .stay _
    exact .weaken (EndRules.closeScope rules _ saved) fun s j met =>
      rules.decoded s j (rules.unlocked s j met)
  | endFastReference handle saved =>
    have fast : tier = .fast := (Option.some.inj ends).symm
    refine .map _ (.bind (.widen (EndRules.finishFast b rules fast) rules.unlocked) fun _ => ?_)
    exact .bind (traceExit_passes b rules.noteBack) fun _ =>
      EndRules.referenceResult b rules handle saved none
  | endCritical =>
    have critical : tier = .critical := (Option.some.inj ends).symm
    refine .bind (.widen (checkTier_passes b _) fun s j met => ?_) fun _ => .stay _
    have unlocked := rules.unlocked s j (rules.stayed (by simp [critical]) s j met)
    exact rules.verified s j (rules.closed s j (rules.decoded s j unlocked))
  | endMethod m saved registers =>
    exact .map _ (EndRules.endMethod b rules m (Option.some.inj ends) saved registers)
  | _ => simp [Passage.ends?] at ends

end Ends

end Crossing

/-- A property that every deed keeps is kept by all that an end does. -/
theorem Host.endRules_of_keeps {host : Host σ O X} {P : σ → Prop}
    (keeps : ∀ deed, host.Keeps P deed) (tier : Tier) :
    host.EndRules (fun _ => True) tier (fun s _ => P s) (fun s _ => P s) (fun s _ => P s)
      (fun s _ => P s) (fun s _ => P s) (fun s _ => P s) where
  note deed _ := keeps deed
  toManaged _ := keeps _
  checkSuspend _ := keeps _
  stayed _ _ _ met := met
  lockObject _ := keeps _
  takePending := keeps _
  exitMonitor _ := keeps _
  setPending _ := keeps _
  unlocked _ _ met := met
  noteBack deed _ := keeps deed
  decode _ := keeps _
  decoded _ _ met := met
  setScopeTop _ := keeps _
  setScopeBase _ := keeps _
  closed _ _ met := met
  pushHandle _ := keeps _
  checkResult _ _ := keeps _
  popHandle := keeps _
  verified _ _ met := met

/-- A property that every deed keeps is kept by every use of the boundary. -/
theorem Passage.run_keeps {host : Host σ O X} {P : σ → Prop} (b : Boundary)
    (keeps : ∀ deed, host.Keeps P deed) (p : Passage O Handle ScopeMark Method Registers) :
    Crossing.Keeps P (p.run host b) := by
  have notes (deed : Deed O X) (_ : deed.isNote = true) : host.Keeps P deed := keeps deed
  have ending (tier : Tier) (ends : p.ends? = some tier) : Crossing.Keeps P (p.run host b) :=
    Crossing.EndRules.run b (host.endRules_of_keeps keeps tier) p ends
  cases p with
  | endNormal _ _ _ | endNormalReference _ _ _ _ => exact ending .normal rfl
  | endFast _ | endFastReference _ _ => exact ending .fast rfl
  | endCritical => exact ending .critical rfl
  | endMethod m _ _ => exact ending m.tier rfl
  | beginNormal locked reported =>
    exact .map _ (Crossing.beginNormal_passes b locked reported notes notes (fun _ _ => keeps _)
      (fun _ _ => keeps _) (fun _ => keeps _) (keeps _))
  | beginFast => exact .map _ (Crossing.beginFast_passes b fun _ => keeps _)
  | beginCritical => exact .bind (Crossing.checkTier_passes b _) fun _ => .stay _
  | beginMethod m =>
    refine .map _ ?_
    rw [Crossing.beginMethod_eq]
    exact .bind (Crossing.checkSynchronizedTier_passes b m) fun _ =>
      .bind (Crossing.lockFor_passes m (fun _ _ met => met) (keeps _) (fun _ => keeps _)
        fun _ => keeps _) fun _ =>
        Crossing.beginTier_passes b m.tier notes notes (fun _ => keeps _) (fun _ => keeps _)
          fun _ _ _ met => met
  | openScope => exact .map _ (Crossing.openScope_passes fun _ => keeps _)
  | closeScope checked saved =>
    exact .bind (Crossing.closeScope_passes (fun _ => keeps _) (fun _ => keeps _) checked saved)
      fun _ => .stay _
  | lock object =>
    exact .bind (Crossing.lock_passes object (fun _ => keeps _) (keeps _)) fun _ => .stay _
  | unlock object =>
    exact .bind (Crossing.unlock_passes object (fun _ => keeps _) (keeps _) (keeps _)) fun _ =>
      .stay _
  | wayIn tier =>
    refine .bind ?_ fun _ => .stay _
    cases tier with
    | normal => exact Crossing.leaveManaged_passes (keeps _)
    | fast | critical => exact .stay ()
  | wayOut tier =>
    refine .bind ?_ fun _ => .stay _
    cases tier with
    | normal => exact Crossing.returnToManaged_passes (keeps _)
    | fast => exact Crossing.honourSuspend_passes (keeps _) fun _ _ met => met
    | critical => exact .stay ()
  | verifyTier tier => exact .bind (Crossing.verifyTier_passes tier) fun _ => .stay _
  | refreshClass object => exact .map _ (Crossing.refreshClass_passes object (keeps _) (keeps _))
  | protect slot =>
    exact .map _ (Crossing.protecting_passes slot (fun _ => keeps _) (.stay ()) (fun _ => .stay ())
      fun _ => keeps _)

/-! ## The order of an end -/

/-- The place of a deed in the end of a call: back in managed code, unlocked, looked up, scope
closed, verified. -/
def Deed.endStage : Deed O X → Option Nat
  | .toManaged | .checkSuspend => some 0
  | .exitMonitor _ => some 1
  | .decode _ => some 2
  | .setScopeTop _ => some 3
  | .checkResult _ _ => some 4
  | _ => none

theorem Deed.endStage_of_isNote {deed : Deed O X} (note : deed.isNote = true) :
    deed.endStage = none := by
  cases deed <;> simp [Deed.isNote] at note <;> rfl

def endStages (j : List (Entry O X)) : List Nat :=
  j.filterMap fun entry => entry.deed.endStage

/-- The entries come in the order of their places, with none of them twice. -/
def InStages (j : List (Entry O X)) : Prop :=
  (endStages j).Pairwise (· < ·)

def Before (stage : Nat) : Assertion σ O X :=
  fun _ j => ∀ reached ∈ endStages j, reached < stage

theorem Before.mono {first last : Nat} (le : first ≤ last) (s : σ) (j : List (Entry O X))
    (before : Before first s j) : Before last s j := by
  intro reached member
  have earlier := before reached member
  omega

theorem endStages_append (host : Host σ O X) (j : List (Entry O X)) (deed : Deed O X) (s : σ) :
    endStages (j ++ [host.entry deed s]) = endStages j ++ deed.endStage.toList := by
  unfold endStages
  rw [List.filterMap_append]
  cases stage : deed.endStage <;> simp [Host.entry, stage]

theorem Host.passes_stage (host : Host σ O X) {deed : Deed O X} {first last : Nat}
    (le : first ≤ last) (fits : ∀ stage ∈ deed.endStage, first ≤ stage ∧ stage < last) :
    host.Passes InStages (Before first) deed (Before last) := by
  intro s j before ordered
  refine ⟨?_, fun s' _ reached member => ?_⟩
  · unfold InStages
    rw [endStages_append, List.pairwise_append]
    refine ⟨ordered, ?_, fun reached member stage place => ?_⟩
    · cases deed.endStage <;> simp
    · have earlier := before reached member
      have later := fits stage (Option.mem_toList.1 place)
      omega
  · rw [endStages_append] at member
    rcases List.mem_append.1 member with earlier | last
    · have earlier := before reached earlier
      omega
    · exact (fits reached (Option.mem_toList.1 last)).2

theorem Host.passes_no_stage (host : Host σ O X) {deed : Deed O X} (stage : Nat)
    (none : deed.endStage = none) : host.Passes InStages (Before stage) deed (Before stage) :=
  host.passes_stage (Nat.le_refl _) fun place reached => by simp [none] at reached

theorem Host.passes_next_stage (host : Host σ O X) {deed : Deed O X} (stage : Nat)
    (reached : deed.endStage = some stage) :
    host.Passes InStages (Before stage) deed (Before (stage + 1)) :=
  host.passes_stage (by omega) fun place reaches => by
    rw [reached] at reaches
    obtain rfl := Option.some.inj reaches
    omega

theorem Host.endRules_inStages (host : Host σ O X) (tier : Tier) :
    host.EndRules InStages tier (Before 0) (Before 1) (Before 2) (Before 3) (Before 4)
      (Before 5) where
  note _ note := host.passes_no_stage 0 (Deed.endStage_of_isNote note)
  toManaged _ := host.passes_next_stage 0 rfl
  checkSuspend _ := host.passes_next_stage 0 rfl
  stayed _ := Before.mono (by omega)
  lockObject _ := host.passes_no_stage 1 rfl
  takePending := host.passes_no_stage 1 rfl
  exitMonitor _ := host.passes_next_stage 1 rfl
  setPending _ := host.passes_no_stage 2 rfl
  unlocked := Before.mono (by omega)
  noteBack _ note := host.passes_no_stage 2 (Deed.endStage_of_isNote note)
  decode _ := host.passes_next_stage 2 rfl
  decoded := Before.mono (by omega)
  setScopeTop _ := host.passes_next_stage 3 rfl
  setScopeBase _ := host.passes_no_stage 4 rfl
  closed := Before.mono (by omega)
  pushHandle _ := host.passes_no_stage 4 rfl
  checkResult _ _ := host.passes_next_stage 4 rfl
  popHandle := host.passes_no_stage 5 rfl
  verified := Before.mono (by omega)

/-- Every end writes its stages in their order, however it comes out. -/
theorem Passage.end_inStages (host : Host σ O X) (b : Boundary)
    (p : Passage O Handle ScopeMark Method Registers) {tier : Tier} (ends : p.ends? = some tier)
    (w : World σ O X) :
    ∃ written, (Act.stateOf (p.run host b w)).journal = w.journal ++ written ∧
      InStages written := by
  refine ⟨_, (p.run_appends host b).journal w, ?_⟩
  have none : endStages ([] : List (Entry O X)) = [] := rfl
  exact (Crossing.EndRules.run b (host.endRules_inStages tier) p ends).sound_journal
    (by simp [Before, none]) (by simp [InStages, none])

end NativeBoundary
