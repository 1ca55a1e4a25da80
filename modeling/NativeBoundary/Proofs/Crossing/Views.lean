import NativeBoundary.Proofs.Outcome
import NativeBoundary.Proofs.Crossing.Parts

/-!
# What the parts of an entry point leave alone

The edges of native code are where a call goes there and comes back, and where the observer is
asked and told.  Whoever looks at the world from afar sees these edges, and neither the state of the
host nor what is done away from the edges.  Such a view is left alone by every part of an entry
point that has no deed at an edge.
-/

set_option autoImplicit false

namespace NativeBoundary

variable {σ O X α β γ : Type}

/-- A way between managed and native code, or a word to the observer. -/
def Deed.isEdge : Deed O X → Bool
  | .toNative | .toManaged | .asked _ | .begun _ | .ending _ => true
  | _ => false

/-- A view of the world that sees neither the state of the host nor a deed away from the edges. -/
structure World.Afar (view : World σ O X → γ) : Prop where
  state : ∀ w s, view { w with state := s } = view w
  entry : ∀ (w : World σ O X) (entry : Entry O X), entry.deed.isEdge = false →
    view { w with journal := w.journal ++ [entry] } = view w

namespace Crossing

variable {view : World σ O X → γ} {host : Host σ O X} {b : Boundary}

def Leaves (view : World σ O X → γ) (c : Crossing σ O X α) : Prop :=
  ∀ w a w', c w = .ok a w' → view w' = view w

namespace Leaves

theorem pure (a : α) : Leaves view (Pure.pure a : Crossing σ O X α) := by
  intro w a' w' run
  obtain ⟨-, rfl⟩ := Act.pure_eq_ok.1 run
  rfl

theorem bind {c : Crossing σ O X α} {f : α → Crossing σ O X β} (first : Leaves view c)
    (rest : ∀ a, Leaves view (f a)) : Leaves view (c >>= f) := by
  intro w a w' run
  obtain ⟨a₁, w₁, run₁, run₂⟩ := Act.bind_eq_ok.1 run
  exact (rest a₁ w₁ a w' run₂).trans (first w a₁ w₁ run₁)

theorem map (f : α → β) {c : Crossing σ O X α} (inner : Leaves view c) :
    Leaves view (f <$> c) := by
  intro w a w' run
  obtain ⟨a₁, run₁, -⟩ := Act.map_eq_ok.1 run
  exact inner w a₁ w' run₁

theorem ite {condition : Prop} [Decidable condition] {c d : Crossing σ O X α}
    (whenTrue : Leaves view c) (whenFalse : Leaves view d) :
    Leaves view (if condition then c else d) := by
  split
  · exact whenTrue
  · exact whenFalse

theorem onlyIf (condition : Bool) {c : Crossing σ O X Unit} (inner : Leaves view c) :
    Leaves view (onlyIf condition c) :=
  ite inner (.pure ())

theorem look (see : σ → α) : Leaves view (look see : Crossing σ O X α) := by
  intro w a w' run
  obtain ⟨-, rfl⟩ := look_eq_ok.1 run
  rfl

theorem halt (why : Halt) : Leaves view (halt why : Crossing σ O X α) :=
  fun _ _ _ run => absurd run halt_ne_ok

theorem require (condition : Bool) (otherwise : Defect) :
    Leaves view (require condition otherwise : Crossing σ O X Unit) :=
  ite (.pure ()) (.halt _)

theorem change (afar : World.Afar view) (update : σ → σ) :
    Leaves view (change update : Crossing σ O X Unit) := by
  intro w a w' run
  obtain rfl := change_eq_ok.1 run
  exact afar.state w _

theorem run (afar : World.Afar view) (action : Act σ α) :
    Leaves view (run action : Crossing σ O X α) := by
  intro w a w' ran
  obtain ⟨s, -, rfl⟩ := run_eq_ok.1 ran
  exact afar.state w s

theorem record (afar : World.Afar view) (host : Host σ O X) {deed : Deed O X}
    (inner : deed.isEdge = false) : Leaves view (record host deed) := by
  intro w a w' ran
  obtain rfl := (EStateM.Result.ok.inj ran).2
  exact afar.entry w (host.entry deed w.state) inner

end Leaves

/-! ## Tiers -/

theorem verifyTier_leaves (tier : Tier) : Leaves view (verifyTier host tier) := by
  refine .bind (.look _) fun executing => ?_
  cases executing with
  | none => exact .pure ()
  | some m => exact .ite (.pure ()) (.halt _)

theorem checkTier_leaves (tier : Tier) : Leaves view (checkTier host b tier) :=
  .ite (verifyTier_leaves tier) (.pure ())

theorem checkSynchronizedTier_leaves (m : Method) :
    Leaves view (checkSynchronizedTier b m : Crossing σ O X Unit) :=
  .ite (.halt _) (.pure ())

/-! ## Scopes and results -/

theorem checkScope_leaves : Leaves view (checkScope host) := by
  refine .bind (.look _) fun held => ?_
  have rest : Leaves view (do
      let base ← Crossing.look host.scopeBase
      let top ← Crossing.look host.scopeTop
      if top.position < base.position then
        fault (.scopeUnderflow top.position base.position) : Crossing σ O X Unit) :=
    .bind (.look _) fun _ => .bind (.look _) fun _ => .ite (.halt _) (.pure ())
  exact .ite (.bind (.halt _) fun _ => rest) rest

section Afar

variable (afar : World.Afar view)
include afar

theorem openScope_leaves : Leaves view (openScope host) :=
  .bind (.look _) fun _ => .bind (.look _) fun _ => .bind (.record afar host rfl) fun _ =>
    .bind (.change afar _) fun _ => .pure _

theorem closeScope_leaves (checked : Bool) (saved : ScopeMark) :
    Leaves view (closeScope host checked saved) := by
  rw [closeScope_eq]
  exact .bind (.onlyIf _ checkScope_leaves) fun _ => .bind (.look _) fun _ =>
    .bind (.record afar host rfl) fun _ => .bind (.change afar _) fun _ =>
      .bind (.record afar host rfl) fun _ => .change afar _

theorem lookUpResult_leaves (handle : Handle) : Leaves view (lookUpResult host handle) :=
  .bind (.look _) fun _ => .ite (.pure _) (.bind (.record afar host rfl) fun _ => .look _)

theorem protecting_leaves (slot : Option O) {c : Crossing σ O X Unit} (inner : Leaves view c) :
    Leaves view (protecting host slot c) := by
  cases slot with
  | none => exact .bind inner fun _ => .pure _
  | some object =>
    exact .bind (.record afar host rfl) fun _ => .bind (.change afar _) fun _ =>
      .bind inner fun _ => .bind (.record afar host rfl) fun _ => .bind (.look _) fun _ =>
        .bind (.change afar _) fun _ => .pure _

theorem verifyResult_leaves (method : Option Method) (object : Option O) :
    Leaves view (verifyResult host b method object) := by
  refine .ite (.bind (.look _) fun executing => ?_) (.pure _)
  cases method <|> executing with
  | none => exact .pure _
  | some m =>
    exact protecting_leaves afar object
      (.bind (.record afar host rfl) fun _ => .run afar _)

theorem referenceResult_leaves (handle : Handle) (saved : ScopeMark) (method : Option Method) :
    Leaves view (referenceResult host b handle saved method) := by
  rw [referenceResult_eq]
  exact .bind (lookUpResult_leaves afar handle) fun _ =>
    .bind (closeScope_leaves afar _ saved) fun _ => verifyResult_leaves afar method _

/-! ## Monitors -/

theorem lock_leaves (object : O) : Leaves view (lock host object) := by
  refine .bind (.record afar host rfl) fun _ => .bind (.run afar _) fun entered => ?_
  cases entered with
  | ok _ => exact .pure ()
  | error exception => exact .bind (.record afar host rfl) fun _ => .change afar _

theorem unlock_leaves (object : O) : Leaves view (unlock host object) := by
  refine .bind (.record afar host rfl) fun _ => .bind (.look _) fun saved =>
    .bind (.change afar _) fun _ => .bind (.record afar host rfl) fun _ =>
      .bind (.run afar _) fun exited => ?_
  cases exited with
  | ok _ =>
    cases saved with
    | none => exact .pure ()
    | some _ => exact .bind (.record afar host rfl) fun _ => .change afar _
  | error _ =>
    cases saved with
    | none => exact .bind (.record afar host rfl) fun _ => .change afar _
    | some _ => exact .halt _

theorem lockObject_leaves (m : Method) : Leaves view (lockObject host m) := by
  refine .bind (.record afar host rfl) fun _ => .bind (.run afar _) fun found => ?_
  cases found with
  | some _ => exact .pure _
  | none => exact .halt _

theorem lockFor_leaves (m : Method) : Leaves view (lockFor host m) :=
  .onlyIf _ (.bind (lockObject_leaves afar m) fun _ => lock_leaves afar _)

theorem unlockFor_leaves (m : Method) : Leaves view (unlockFor host b m) :=
  .onlyIf _ (.bind (checkSynchronizedTier_leaves m) fun _ =>
    .bind (lockObject_leaves afar m) fun _ => unlock_leaves afar _)

/-! ## Fast calls and classes -/

theorem honourSuspend_leaves : Leaves view (honourSuspend host) :=
  .bind (.look _) fun _ => .ite (.bind (.look _) fun _ => .bind (.require _ _) fun _ =>
    .bind (.record afar host rfl) fun _ => .run afar _) (.pure ())

theorem beginFast_leaves : Leaves view (beginFast host b) :=
  .bind (openScope_leaves afar) fun _ => .bind (checkTier_leaves _) fun _ => .pure _

theorem finishFast_leaves : Leaves view (finishFast host b) :=
  .bind (checkTier_leaves _) fun _ => honourSuspend_leaves afar

theorem refreshClass_leaves (object : O) : Leaves view (refreshClass host object) := by
  have ask : Leaves view (do
      Crossing.record host (.currentCopy object)
      Crossing.run (host.currentCopy object)) :=
    .bind (.record afar host rfl) fun _ => .run afar _
  refine .bind (.look _) fun _ => .bind (.require _ _) fun _ => .bind (.look _) fun _ => ?_
  exact .ite
    (.bind (.record afar host rfl) fun _ => .bind (.look _) fun _ => .ite (.pure _) ask)
    (.bind (.pure _) fun _ => .ite (.pure _) ask)

theorem announce_leaves (events : List TraceEvent) : Leaves view (announce host events) := by
  induction events with
  | nil => exact .pure ()
  | cons event rest ih => exact .bind (.record afar host rfl) fun _ => ih

theorem deliver_leaves (m : Method) (saved : ScopeMark) (registers : Registers)
    (tell : m.tier = .fast → Leaves view (traceExit host b)) :
    Leaves view (deliver host b m saved registers) := by
  have closing : Leaves view (closeScope host b.settings.checked saved) :=
    closeScope_leaves afar _ saved
  have result : Leaves view (referenceResult host b registers.handle saved (some m)) :=
    referenceResult_leaves afar _ saved _
  unfold deliver
  cases ReturnKind.ofByte m.returnByte with
  | error why => exact .halt _
  | ok kind =>
    cases kind with
    | object =>
      cases tier : m.tier with
      | critical => exact .halt _
      | fast => exact .bind (tell tier) fun _ => .map _ result
      | normal => exact .map _ result
    | _ => exact .bind (.onlyIf _ closing) fun _ => .pure _

end Afar

end Crossing

end NativeBoundary
