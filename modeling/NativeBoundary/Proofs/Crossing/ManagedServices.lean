import NativeBoundary.Proofs.Crossing.Ends
import NativeBoundary.Proofs.Machine.OwnPart

/-!
# Services that need managed code

References, scopes, protected objects and monitors may only be touched in managed code.  A thread
whose calls begin in managed code, and end where their beginning left it, asks for them nowhere
else: the invariant of its history is that every call that is still open left the thread where the
body of its tier runs.
-/

set_option autoImplicit false

namespace NativeBoundary

variable {σ O X : Type}

/-! ## Deeds and where they are done -/

/-- A service that may only be asked for in managed code. -/
def Deed.needsManaged : Deed O X → Bool
  | .setScopeBase _ | .setScopeTop _ | .decode _ | .pushHandle _ | .popHandle | .enterMonitor _
  | .exitMonitor _ | .lockObject _ | .checkResult _ _ => true
  | _ => false

def Deed.isTransition : Deed O X → Bool
  | .toNative | .toManaged => true
  | _ => false

/-- A host on which a thread that is present goes to native code and back as it is told; no other
request takes it out of managed code. -/
structure Host.Faithful (host : Host σ O X) (present : σ → Prop) : Prop where
  toNative : ∀ s s', present s → host.toNative s = .ok () s' →
    present s' ∧ host.state s' = .native
  toManaged : ∀ s s', present s → host.toManaged s = .ok () s' →
    present s' ∧ host.state s' = .managed
  otherwise : ∀ deed s s', present s → deed.isTransition = false → host.Does deed s s' →
    present s' ∧ (host.state s = .managed → host.state s' = .managed)

def Tier.bodyState : Tier → ThreadState
  | .normal => .native
  | .fast | .critical => .managed

def Proper (j : List (Entry O X)) : Prop :=
  ∀ entry ∈ j, entry.deed.needsManaged = true → entry.state = .managed

theorem Proper.append {host : Host σ O X} {deed : Deed O X} {s : σ} {j : List (Entry O X)}
    (proper : Proper j) (fits : deed.needsManaged = true → host.state s = .managed) :
    Proper (j ++ [host.entry deed s]) := by
  intro entry member needs
  rcases List.mem_append.1 member with earlier | last
  · exact proper entry earlier needs
  · obtain rfl := List.mem_singleton.1 last
    exact fits needs

def Host.At (host : Host σ O X) (present : σ → Prop) (state : ThreadState) : Assertion σ O X :=
  fun s _ => present s ∧ host.state s = state

/-- The observer and the tracer may be told something from everywhere. -/
theorem Host.passes_note (host : Host σ O X) (I : σ → Prop) (deed : Deed O X)
    (note : deed.isNote = true) :
    host.Passes Proper (fun s _ => I s) deed fun s _ => I s := by
  intro s j met proper
  refine ⟨proper.append fun needs => ?_, fun s' does => ?_⟩
  · cases deed <;> simp [Deed.isNote, Deed.needsManaged] at note needs
  · exact ((host.keeps_note I deed note) s [] met trivial).2 s' does

namespace Host.Faithful

variable {host : Host σ O X} {present : σ → Prop} (faithful : host.Faithful present)
include faithful

theorem passes_toNative :
    host.Passes Proper (host.At present .managed) .toNative (host.At present .native) := by
  rintro s j ⟨here, managed⟩ proper
  exact ⟨proper.append fun _ => managed, fun s' gone => faithful.toNative s s' here gone⟩

theorem passes_toManaged :
    host.Passes Proper (host.At present .native) .toManaged (host.At present .managed) := by
  rintro s j ⟨here, native⟩ proper
  refine ⟨proper.append fun needs => ?_, fun s' back => faithful.toManaged s s' here back⟩
  simp [Deed.needsManaged] at needs

theorem passes_managed {deed : Deed O X} (stays : deed.isTransition = false) :
    host.Passes Proper (host.At present .managed) deed (host.At present .managed) := by
  rintro s j ⟨here, managed⟩ proper
  refine ⟨proper.append fun _ => managed, fun s' does => ?_⟩
  have after := faithful.otherwise deed s s' here stays does
  exact ⟨after.1, after.2 managed⟩

/-- Where the thread is does not matter to a service that does not need managed code. -/
theorem passes_anywhere {deed : Deed O X} (stays : deed.isTransition = false)
    (free : deed.needsManaged = false) :
    host.Passes Proper (fun s _ => present s) deed fun s _ => present s := by
  intro s j here proper
  refine ⟨proper.append fun needs => ?_, fun s' does => ?_⟩
  · simp [free] at needs
  · exact (faithful.otherwise deed s s' here stays does).1

theorem endRules (tier : Tier) :
    host.EndRules Proper tier (host.At present tier.bodyState) (host.At present .managed)
      (host.At present .managed) (host.At present .managed) (host.At present .managed)
      (host.At present .managed) where
  note := host.passes_note _
  toManaged normal := by
    subst normal
    exact faithful.passes_toManaged
  checkSuspend fast := by
    subst fast
    exact faithful.passes_managed rfl
  stayed away := by
    cases tier with
    | normal => exact absurd rfl away
    | fast | critical => exact fun _ _ met => met
  lockObject _ := faithful.passes_managed rfl
  takePending := faithful.passes_managed rfl
  exitMonitor _ := faithful.passes_managed rfl
  setPending _ := faithful.passes_managed rfl
  unlocked _ _ met := met
  noteBack := host.passes_note _
  decode _ := faithful.passes_managed rfl
  decoded _ _ met := met
  setScopeTop _ := faithful.passes_managed rfl
  setScopeBase _ := faithful.passes_managed rfl
  closed _ _ met := met
  pushHandle _ := faithful.passes_managed rfl
  checkResult _ _ := faithful.passes_managed rfl
  popHandle := faithful.passes_managed rfl
  verified _ _ met := met

end Host.Faithful

/-! ## Beginnings -/

def Passage.begins? : Passage O Handle ScopeMark Method Registers → Option Tier
  | beginNormal _ _ => some .normal
  | beginFast => some .fast
  | beginCritical => some .critical
  | beginMethod m => some m.tier
  | _ => none

namespace Crossing

variable {host : Host σ O X} {present : σ → Prop} (b : Boundary)
  (faithful : host.Faithful present)
include faithful

theorem beginNormal_states (locked : Option O) (reported : Bool) :
    Passes Proper (host.At present .managed) (beginNormal host b locked reported)
      (host.At present .native) :=
  beginNormal_passes b locked reported (host.passes_note _) (host.passes_note _)
    (fun _ _ => faithful.passes_managed rfl) (fun _ _ => faithful.passes_managed rfl)
    (fun _ => faithful.passes_managed rfl) faithful.passes_toNative

theorem beginTier_states (tier : Tier) :
    Passes Proper (host.At present .managed) (beginTier host b tier)
      (host.At present tier.bodyState) := by
  refine beginTier_passes b tier (host.passes_note _) (host.passes_note _)
    (fun _ => faithful.passes_managed rfl) (fun normal => ?_) fun stays _ _ met => ?_
  · rw [normal]
    exact faithful.passes_toNative
  · cases tier with
    | normal => exact absurd rfl stays
    | fast | critical => exact met

/-- The beginning of a call takes the thread to where the body runs. -/
theorem begin_states (p : Passage O Handle ScopeMark Method Registers) {tier : Tier}
    (begins : p.begins? = some tier) :
    Passes Proper (host.At present .managed) (p.run host b) (host.At present tier.bodyState) := by
  cases p with
  | beginNormal locked reported =>
    obtain rfl := Option.some.inj begins
    exact .map _ (beginNormal_states b faithful locked reported)
  | beginFast =>
    obtain rfl := Option.some.inj begins
    exact .map _ (beginTier_states b faithful .fast)
  | beginCritical =>
    obtain rfl := Option.some.inj begins
    exact .bind (checkTier_passes b _) fun _ => .stay _
  | beginMethod m =>
    obtain rfl := Option.some.inj begins
    have locking : Passes Proper (host.At present .managed) (lockFor host m)
        (host.At present .managed) :=
      lockFor_passes m (fun _ _ met => met) (faithful.passes_managed rfl)
        (fun _ => faithful.passes_managed rfl) fun _ => faithful.passes_managed rfl
    refine .map _ ?_
    rw [beginMethod_eq]
    exact .bind (checkSynchronizedTier_passes b m) fun _ => .bind locking fun _ =>
      beginTier_states b faithful m.tier
  | _ => simp [Passage.begins?] at begins

theorem refreshClass_states (object : O) :
    Passes Proper (fun s _ => present s) (refreshClass host object) fun s _ => present s :=
  refreshClass_passes object (faithful.passes_anywhere rfl rfl) (faithful.passes_anywhere rfl rfl)

end Crossing

/-! ## Histories of a thread -/

/-- A call that has begun and not ended: its tier, and where its beginning left the thread. -/
structure OpenCall where
  tier : Tier
  left : ThreadState

/-- The uses of the boundary that a thread may make in a state with some calls open, the innermost
first, and the calls that are open afterwards, by where the thread is then. -/
inductive Passage.Allowed : Passage O Handle ScopeMark Method Registers → ThreadState →
    List OpenCall → (ThreadState → List OpenCall) → Prop where
  | begins {p : Passage O Handle ScopeMark Method Registers} {tier : Tier} {calls : List OpenCall}
      (begins : p.begins? = some tier) :
      Allowed p .managed calls fun left => { tier, left } :: calls
  | ends {p : Passage O Handle ScopeMark Method Registers} {call : OpenCall}
      {calls : List OpenCall} (ends : p.ends? = some call.tier) :
      Allowed p call.left (call :: calls) fun _ => calls
  | refreshes {object : O} {state : ThreadState} {calls : List OpenCall} :
      Allowed (.refreshClass object) state calls fun _ => calls

/-- What can have become of the world of a thread that uses the boundary as it is allowed, with its
open calls; none once it has been stopped. -/
inductive History (host : Host σ O X) (b : Boundary) (present : σ → Prop) :
    World σ O X → Option (List OpenCall) → Prop where
  | fresh {w : World σ O X} (here : present w.state) (unwritten : w.journal = []) :
      History host b present w (some [])
  /-- Anything that is not a use of the boundary. -/
  | elsewhere {w w' : World σ O X} {calls : List OpenCall}
      (history : History host b present w (some calls)) (here : present w'.state)
      (unwritten : w'.journal = w.journal) : History host b present w' (some calls)
  | returned {w w' : World σ O X} {calls : List OpenCall} {after : ThreadState → List OpenCall}
      {p : Passage O Handle ScopeMark Method Registers} {result : PassageResult O}
      (history : History host b present w (some calls))
      (allowed : p.Allowed (host.state w.state) calls after)
      (run : p.run host b w = .ok result w') :
      History host b present w' (some (after (host.state w'.state)))
  | stopped {w w' : World σ O X} {calls : List OpenCall} {after : ThreadState → List OpenCall}
      {p : Passage O Handle ScopeMark Method Registers} {why : Halt}
      (history : History host b present w (some calls))
      (allowed : p.Allowed (host.state w.state) calls after)
      (run : p.run host b w = .error why w') : History host b present w' none

/-- The journal is proper, and every open call left the thread where the body of its tier runs. -/
structure Orderly (present : σ → Prop) (w : World σ O X) (calls : List OpenCall) : Prop where
  here : present w.state
  proper : Proper w.journal
  places : ∀ call ∈ calls, call.left = call.tier.bodyState

/-- A use of the boundary that is allowed keeps the history orderly. -/
theorem Orderly.step {host : Host σ O X} {b : Boundary} {present : σ → Prop}
    (faithful : host.Faithful present) {w : World σ O X} {calls : List OpenCall}
    {after : ThreadState → List OpenCall} {p : Passage O Handle ScopeMark Method Registers}
    (orderly : Orderly present w calls) (allowed : p.Allowed (host.state w.state) calls after) :
    Proper (Act.stateOf (p.run host b w)).journal ∧
      ∀ result w', p.run host b w = .ok result w' →
        Orderly present w' (after (host.state w'.state)) := by
  obtain ⟨here, proper, places⟩ := orderly
  generalize at_start : host.state w.state = state at allowed
  cases allowed with
  | begins begins =>
    have passes := Crossing.begin_states b faithful p begins
    refine ⟨passes.sound_journal ⟨here, at_start⟩ proper, fun result w' run => ?_⟩
    obtain ⟨⟨here', left⟩, proper'⟩ := passes.of_ok run ⟨here, at_start⟩ proper
    refine ⟨here', proper', fun call member => ?_⟩
    rcases List.mem_cons.1 member with rfl | outer
    · exact left
    · exact places call outer
  | @ends _ call rest ends =>
    have back : host.state w.state = call.tier.bodyState :=
      at_start.trans (places call List.mem_cons_self)
    have passes := Crossing.EndRules.run b (faithful.endRules call.tier) p ends
    refine ⟨passes.sound_journal ⟨here, back⟩ proper, fun result w' run => ?_⟩
    obtain ⟨⟨here', -⟩, proper'⟩ := passes.of_ok run ⟨here, back⟩ proper
    exact ⟨here', proper', fun outer member => places outer (List.mem_cons_of_mem _ member)⟩
  | @refreshes object =>
    have passes : Crossing.Passes Proper (fun s _ => present s)
        ((Passage.refreshClass object : Passage O Handle ScopeMark Method Registers).run host b)
        fun s _ => present s := .map _ (Crossing.refreshClass_states faithful object)
    refine ⟨passes.sound_journal here proper, fun result w' run => ?_⟩
    obtain ⟨here', proper'⟩ := passes.of_ok run here proper
    exact ⟨here', proper', places⟩

theorem History.orderly {host : Host σ O X} {b : Boundary} {present : σ → Prop}
    (faithful : host.Faithful present) {w : World σ O X} {status : Option (List OpenCall)}
    (history : History host b present w status) :
    Proper w.journal ∧ ∀ calls, status = some calls → Orderly present w calls := by
  induction history with
  | @fresh w here unwritten =>
    have proper : Proper w.journal := by simp [Proper, unwritten]
    refine ⟨proper, fun calls running => ?_⟩
    obtain rfl := Option.some.inj running
    exact ⟨here, proper, by simp⟩
  | @elsewhere w w' calls history here unwritten ih =>
    have proper : Proper w'.journal := unwritten ▸ ih.1
    refine ⟨proper, fun calls running => ?_⟩
    obtain rfl := Option.some.inj running
    exact ⟨here, proper, (ih.2 _ rfl).places⟩
  | @returned w w' calls after p result history allowed run ih =>
    have orderly := ((ih.2 calls rfl).step faithful allowed).2 result w' run
    refine ⟨orderly.proper, fun calls running => ?_⟩
    obtain rfl := Option.some.inj running
    exact orderly
  | @stopped w w' calls after p why history allowed run ih =>
    have proper := ((ih.2 calls rfl).step (b := b) faithful allowed).1
    rw [run] at proper
    exact ⟨proper, fun calls running => nomatch running⟩

/-! ## The machine -/

theorem Machine.host_faithful (t : ThreadId) :
    (Machine.host t).Faithful fun m => ∃ own, Machine.Stands t own m where
  toNative m m' attached run := by
    obtain ⟨own, stands⟩ := attached
    have after := (stands.toNative run).2
    exact ⟨⟨_, after⟩, after.view Thread.state fun _ => rfl⟩
  toManaged m m' attached run := by
    obtain ⟨own, stands⟩ := attached
    have after := (stands.toManaged run).2
    exact ⟨⟨_, after⟩, after.view Thread.state fun _ => rfl⟩
  otherwise deed m m' attached stays does := by
    obtain ⟨own, stands⟩ := attached
    obtain ⟨own', stands', -, place, -⟩ := Machine.stands_of_does stands does
    refine ⟨⟨own', stands'⟩, fun managed => ?_⟩
    have before : (m.thread t).state = own.state := stands.view Thread.state fun _ => rfl
    have after : (m'.thread t).state = own'.state := stands'.view Thread.state fun _ => rfl
    have same : deed.leads own.state = own.state := by
      cases deed <;> first | rfl | simp [Deed.isTransition] at stays
    exact after.trans (place.trans (same.trans (before.symm.trans managed)))

/-! ## The result -/

/-- The services that need managed code are asked for there alone, and every end comes back to
managed code, unlocks, looks its result up, closes its scope and verifies in that order. -/
theorem services_in_managed_code_and_ends_in_order (host : Host σ O X) (b : Boundary)
    (present : σ → Prop) (faithful : host.Faithful present) :
    (∀ w status, History host b present w status →
      ∀ entry ∈ w.journal, entry.deed.needsManaged = true → entry.state = .managed) ∧
    ∀ (p : Passage O Handle ScopeMark Method Registers) tier, p.ends? = some tier →
      ∀ w, ∃ written, (Act.stateOf (p.run host b w)).journal = w.journal ++ written ∧
        (written.filterMap fun entry => entry.deed.endStage).Pairwise (· < ·) := by
  constructor
  · intro w status history
    exact (history.orderly faithful).1
  · intro p tier ends w
    exact p.end_inStages host b ends w

def beforeTwin : MachineWorld where
  state :=
    { heap :=
        { copies := [{ className := "Point", isClass := false, monitor := ⟨0⟩ }]
          monitors := [{}]
          objects := [(1, ⟨0⟩)] }
      lock := { claims := 1 }
      threads :=
        [{ id := ⟨1⟩, name := "main", state := .managed, holdsShare := true
           locals := { entries := [⟨0⟩] } }] }

def twin : Method where
  className := "Point"
  name := "twin"
  shorty := "L"
  tier := .normal
  isSynchronized := true

def checkedCalls : Boundary where
  settings := { checked := true }

def beginTwin : Crossing Machine ObjectId Throwable (PassageResult ObjectId) :=
  (Passage.beginMethod twin).run (Machine.host ⟨1⟩) checkedCalls

def endTwin : Crossing Machine ObjectId Throwable (PassageResult ObjectId) :=
  (Passage.endMethod twin .bottom (.ofHandle ⟨1⟩)).run (Machine.host ⟨1⟩) checkedCalls

theorem services_in_managed_code_twin :
    ∃ amid after : MachineWorld, amid = Act.stateOf (beginTwin beforeTwin) ∧
      after = Act.stateOf (endTwin amid) ∧
      (after.journal.filterMap fun entry => entry.deed.endStage) = [0, 1, 2, 3, 4] ∧
      after.journal.countP (fun entry => entry.deed.needsManaged) = 11 ∧
      ∀ entry ∈ after.journal, entry.deed.needsManaged = true → entry.state = .managed := by
  refine ⟨_, _, rfl, rfl, by decide +kernel, by decide +kernel, ?_⟩
  obtain ⟨_, begun⟩ := Act.eq_ok_stateOf (x := beginTwin) (s := beforeTwin) (by decide +kernel)
  obtain ⟨_, ended⟩ := Act.eq_ok_stateOf (x := endTwin) (s := Act.stateOf (beginTwin beforeTwin))
    (by decide +kernel)
  have start : History (Machine.host ⟨1⟩) checkedCalls (fun m => ∃ own, Machine.Stands ⟨1⟩ own m)
      beforeTwin (some []) :=
    .fresh ⟨_, Machine.Stands.of_holdsShare rfl⟩ rfl
  have inside := History.returned start (.begins (p := .beginMethod twin) rfl) begun
  have matching : ∀ left, (Passage.endMethod twin .bottom (.ofHandle ⟨1⟩) :
      Passage ObjectId Handle ScopeMark Method Registers).Allowed left
        [{ tier := .normal, left }] fun _ => [] :=
    fun left => @Passage.Allowed.ends ObjectId _ { tier := .normal, left } [] rfl
  have outside := History.returned inside (matching _) ended
  exact (services_in_managed_code_and_ends_in_order _ checkedCalls _
    (Machine.host_faithful ⟨1⟩)).1 _ _ outside

end NativeBoundary
