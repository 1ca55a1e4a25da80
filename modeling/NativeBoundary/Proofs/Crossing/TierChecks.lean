import NativeBoundary.Proofs.Crossing.ManagedServices
import NativeBoundary.Proofs.Machine.Seen

/-!
# Tier checks come first

With tiers verified, an entry point for one tier that runs on behalf of a method of another stops at
its tier check.  All that it can have done by then is to lock the monitor of the call and to open a
scope; it has not taken the thread to native code or back, and has not let it suspend.
-/

set_option autoImplicit false

namespace NativeBoundary

variable {σ O X : Type}

def Deed.movesThread : Deed O X → Bool
  | .toNative | .toManaged | .checkSuspend => true
  | _ => false

/-- Whether a deed may come before the tier check: it belongs to the lock of a synchronized call or
to the opening of the scope. -/
def Deed.precedesCheck : Deed O X → Bool
  | .lockObject _ | .enterMonitor _ | .setPending _ | .setScopeBase _ => true
  | _ => false

def Unmoved (j : List (Entry O X)) : Prop :=
  ∀ entry ∈ j, entry.deed.movesThread = false

theorem Host.passes_unmoved (host : Host σ O X) {P : σ → Prop} {deed : Deed O X}
    (stays : deed.movesThread = false) (keeps : host.Keeps P deed) :
    host.Passes Unmoved (fun s _ => P s) deed fun s _ => P s := by
  intro s j met unmoved
  refine ⟨fun entry member => ?_, (keeps s j met trivial).2⟩
  rcases List.mem_append.1 member with earlier | last
  · exact unmoved entry earlier
  · obtain rfl := List.mem_singleton.1 last
    exact stays

theorem Host.passes_unmoved_note (host : Host σ O X) (P : σ → Prop) (deed : Deed O X)
    (note : deed.isNote = true) : host.Passes Unmoved (fun s _ => P s) deed fun s _ => P s := by
  refine host.passes_unmoved ?_ (host.keeps_note P deed note)
  cases deed <;> simp [Deed.isNote, Deed.movesThread] at note ⊢

/-- The method that is executing stays the same through all that may come before a tier check. -/
def Host.Remembers (host : Host σ O X) (m : Method) : Prop :=
  ∀ deed : Deed O X, deed.precedesCheck = true →
    host.Keeps (fun s => host.executing s = some m) deed

namespace Crossing

variable {α β : Type} {host : Host σ O X} {m : Method} {tier : Tier} (b : Boundary)

/-- A crossing that always stops while the given method is executing, with nobody moved. -/
def Barred (host : Host σ O X) (m : Method) (c : Crossing σ O X α) : Prop :=
  Passes Unmoved (fun s _ => host.executing s = some m) c fun _ _ => False

theorem Barred.bind {c : Crossing σ O X α} (barred : Barred host m c) (f : α → Crossing σ O X β) :
    Barred host m (c >>= f) :=
  Passes.bind barred fun _ _ met => absurd met.1 id

/-- A stop may come later, as long as nobody is moved and the method stays. -/
theorem Barred.later {c : Crossing σ O X α} {f : α → Crossing σ O X β}
    (first : Passes Unmoved (fun s _ => host.executing s = some m) c
      fun s _ => host.executing s = some m)
    (rest : ∀ a, Barred host m (f a)) : Barred host m (c >>= f) :=
  Passes.bind first rest

theorem verifyTier_barred (other : m.tier ≠ tier) : Barred host m (verifyTier host tier) := by
  rintro w ⟨executes, unmoved⟩
  have stopped :
      verifyTier host tier w = .error (.fault (.tierMismatch m.qualifiedName tier m.tier)) w := by
    have looked : look host.executing w = .ok (some m) w := by
      rw [look, executes]
    unfold verifyTier
    rw [Act.bind_of_ok looked]
    simp only [if_neg other]
    rfl
  rw [stopped]
  exact unmoved

/-- A crossing that always stops does so with nobody moved, whatever was written before it. -/
theorem Barred.stops {c : Crossing σ O X α} (barred : Barred host m c) (appends : c.Appends)
    {w : World σ O X} (executes : host.executing w.state = some m) :
    ∃ why w' written, c w = .error why w' ∧ w'.journal = w.journal ++ written ∧
      Unmoved written := by
  have unmoved : Unmoved ([] : List (Entry O X)) := fun _ member => absurd member List.not_mem_nil
  have fresh := barred { w with journal := [] } ⟨executes, unmoved⟩
  have same := appends w.journal { w with journal := [] }
  have whole : World.after w.journal { w with journal := [] } = w := by
    simp only [World.after, List.append_nil]
  rw [whole] at same
  cases result : c { w with journal := [] } with
  | ok a w' =>
    simp only [result] at fresh
    exact absurd fresh.1 id
  | error why w' =>
    simp only [result] at fresh
    rw [result] at same
    exact ⟨why, _, w'.journal, same, rfl, fresh⟩

theorem openScope_unmoved (remembers : host.Remembers m) :
    Passes Unmoved (fun s _ => host.executing s = some m) (openScope host)
      fun s _ => host.executing s = some m :=
  openScope_passes fun mark => host.passes_unmoved rfl (remembers (.setScopeBase mark) rfl)

variable (verified : b.settings.verifyTiers = true)
include verified

theorem checkTier_barred (other : m.tier ≠ tier) : Barred host m (checkTier host b tier) := by
  rw [checkTier, if_pos verified]
  exact verifyTier_barred other

/-! ## Ends -/

theorem finishNormal_barred (locked : Option O) (reported : Bool) (other : m.tier ≠ .normal) :
    Barred host m (finishNormal host b locked reported) := by
  have notes := host.passes_unmoved_note fun s => host.executing s = some m
  have back : Barred host m (comeBack host b) :=
    .later (traceExit_passes b notes) fun _ => (checkTier_barred b verified other).bind _
  rw [finishNormal_eq]
  exact .later (.onlyIf _ (reportEnd_passes b notes) fun _ _ met => met) fun _ => back.bind _

theorem finishFast_barred (other : m.tier ≠ .fast) : Barred host m (finishFast host b) :=
  (checkTier_barred b verified other).bind _

theorem finishTier_barred (other : m.tier ≠ tier) : Barred host m (finishTier host b tier) := by
  cases tier with
  | normal => exact finishNormal_barred b verified none true other
  | fast => exact finishFast_barred b verified other
  | critical => exact checkTier_barred b verified other

theorem end_barred (p : Passage O Handle ScopeMark Method Registers) (ends : p.ends? = some tier)
    (other : m.tier ≠ tier) : Barred host m (p.run host b) := by
  cases p with
  | endNormal locked reported saved =>
    obtain rfl := Option.some.inj ends
    exact ((finishNormal_barred b verified locked reported other).bind _).bind _
  | endNormalReference locked reported handle saved =>
    obtain rfl := Option.some.inj ends
    exact .map _ ((finishNormal_barred b verified locked reported other).bind _)
  | endFast saved =>
    obtain rfl := Option.some.inj ends
    exact ((finishFast_barred b verified other).bind _).bind _
  | endFastReference handle saved =>
    obtain rfl := Option.some.inj ends
    exact .map _ ((finishFast_barred b verified other).bind _)
  | endCritical =>
    obtain rfl := Option.some.inj ends
    exact (checkTier_barred b verified other).bind _
  | endMethod method saved registers =>
    obtain rfl := Option.some.inj ends
    refine .map _ ?_
    rw [endMethod_eq]
    exact (finishTier_barred b verified other).bind _
  | _ => cases ends

/-! ## Beginnings -/

section Beginnings

variable (remembers : host.Remembers m)
include remembers

theorem beginNormal_barred (locked : Option O) (reported : Bool) (other : m.tier ≠ .normal) :
    Barred host m (beginNormal host b locked reported) := by
  have notes := host.passes_unmoved_note fun s => host.executing s = some m
  have locking : Passes Unmoved (fun s _ => host.executing s = some m) (locked.forM (lock host))
      fun s _ => host.executing s = some m := by
    cases locked with
    | none => exact .stay ()
    | some object =>
      exact lock_passes object (fun _ => host.passes_unmoved rfl (remembers _ rfl))
        (host.passes_unmoved rfl (remembers _ rfl))
  rw [beginNormal_eq]
  exact .later locking fun _ => .later (openScope_unmoved remembers) fun _ =>
    .later (.look _) fun _ => .later (traceEntry_passes b notes _) fun _ =>
      (checkTier_barred b verified other).bind _

theorem beginFast_barred (other : m.tier ≠ .fast) : Barred host m (beginFast host b) :=
  .later (openScope_unmoved remembers) fun _ => (checkTier_barred b verified other).bind _

theorem beginTier_barred (other : m.tier ≠ tier) : Barred host m (beginTier host b tier) := by
  cases tier with
  | normal => exact beginNormal_barred b verified remembers none true other
  | fast => exact beginFast_barred b verified remembers other
  | critical => exact (checkTier_barred b verified other).bind _

theorem begin_barred (p : Passage O Handle ScopeMark Method Registers)
    (begins : p.begins? = some tier) (other : m.tier ≠ tier) : Barred host m (p.run host b) := by
  cases p with
  | beginNormal locked reported =>
    obtain rfl := Option.some.inj begins
    exact .map _ (beginNormal_barred b verified remembers locked reported other)
  | beginFast =>
    obtain rfl := Option.some.inj begins
    exact .map _ (beginFast_barred b verified remembers other)
  | beginCritical =>
    obtain rfl := Option.some.inj begins
    exact (checkTier_barred b verified other).bind _
  | beginMethod method =>
    obtain rfl := Option.some.inj begins
    have locking : Passes Unmoved (fun s _ => host.executing s = some m) (lockFor host method)
        fun s _ => host.executing s = some m :=
      lockFor_passes method (fun _ _ met => met) (host.passes_unmoved rfl (remembers _ rfl))
        (fun _ => host.passes_unmoved rfl (remembers _ rfl))
        fun _ => host.passes_unmoved rfl (remembers _ rfl)
    refine .map _ ?_
    rw [beginMethod_eq]
    exact Barred.later (checkSynchronizedTier_passes b method) fun _ => .later locking fun _ =>
      beginTier_barred b verified remembers other
  | _ => cases begins

end Beginnings

end Crossing

/-- With tiers verified, an entry point for one tier returns on behalf of a known method only if the
method is of that tier.  On behalf of any other it stops, and it has not taken the thread to native
code or back or let it suspend. -/
theorem other_tier_stops_unmoved (host : Host σ O X) (b : Boundary)
    (verified : b.settings.verifyTiers = true) (m : Method) (remembers : host.Remembers m)
    (p : Passage O Handle ScopeMark Method Registers) (tier : Tier)
    (entry : p.begins? = some tier ∨ p.ends? = some tier) (w : World σ O X)
    (executes : host.executing w.state = some m) :
    (∀ result w', p.run host b w = .ok result w' → m.tier = tier) ∧
      (m.tier ≠ tier → ∃ why w' written, p.run host b w = .error why w' ∧
        w'.journal = w.journal ++ written ∧
          ∀ entry ∈ written, entry.deed.movesThread = false) := by
  have barred (other : m.tier ≠ tier) : Crossing.Barred host m (p.run host b) := by
    rcases entry with begins | ends
    · exact Crossing.begin_barred b verified remembers p begins other
    · exact Crossing.end_barred b verified p ends other
  have stops (other : m.tier ≠ tier) := (barred other).stops (p.run_appends host b) executes
  refine ⟨fun result w' run => ?_, stops⟩
  refine Decidable.byContradiction fun other => ?_
  obtain ⟨_, _, _, stopped, -⟩ := stops other
  cases run.symm.trans stopped

def glance : Method where
  className := "Box"
  name := "glance"
  shorty := "V"
  tier := .fast

def executingGlance : MachineWorld where
  state :=
    { heap :=
        { copies := [{ className := "Box", isClass := false, monitor := ⟨0⟩ }]
          monitors := [{}]
          objects := [(1, ⟨0⟩)] }
      lock := { claims := 1 }
      threads :=
        [{ id := ⟨1⟩, name := "main", state := .managed, holdsShare := true
           frames := [{ method := glance, receiver := some ⟨0⟩ }] }] }

def beginLocked : Passage ObjectId Handle ScopeMark Method Registers :=
  .beginNormal (some ⟨0⟩) true

def beginGlance : Passage ObjectId Handle ScopeMark Method Registers :=
  .beginMethod glance

theorem other_tier_stops_unmoved_locked :
    (∃ why w' written, beginLocked.run (Machine.host ⟨1⟩) {} executingGlance = .error why w' ∧
      w'.journal = written ∧ w'.journal.length = 2 ∧
        ∀ entry ∈ written, entry.deed.movesThread = false) ∧
    (∃ result w', beginGlance.run (Machine.host ⟨1⟩) {} executingGlance = .ok result w') ∧
      glance.tier = .fast := by
  have remembers : (Machine.host ⟨1⟩).Remembers glance :=
    fun deed _ => Machine.host_keeps_executing ⟨1⟩ (some glance) deed
  constructor
  · obtain ⟨why, w', written, stopped, journal, unmoved⟩ :=
      (other_tier_stops_unmoved (Machine.host ⟨1⟩) {} rfl glance remembers beginLocked .normal
        (.inl rfl) executingGlance rfl).2 (by decide)
    refine ⟨why, w', written, stopped, journal, ?_, unmoved⟩
    have left : Act.stateOf (beginLocked.run (Machine.host ⟨1⟩) {} executingGlance) = w' := by
      rw [stopped]
      rfl
    rw [← left]
    rfl
  · obtain ⟨result, begun⟩ := Act.eq_ok_stateOf
      (x := beginGlance.run (Machine.host ⟨1⟩) {}) (s := executingGlance) rfl
    exact ⟨⟨result, _, begun⟩, (other_tier_stops_unmoved (Machine.host ⟨1⟩) {} rfl glance remembers
      beginGlance .fast (.inl rfl) executingGlance rfl).1 result _ begun⟩

end NativeBoundary
