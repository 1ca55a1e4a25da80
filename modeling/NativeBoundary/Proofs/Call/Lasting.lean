import NativeBoundary.Proofs.Call.Instructions
import NativeBoundary.Proofs.Call.Threshold
import NativeBoundary.Proofs.Crossing.Ends
import NativeBoundary.Proofs.Crossing.Views

/-!
# What lasts through a call

A property of the machine that every deed of the boundary keeps, and every instruction but a call,
lasts through whole bodies and the calls in them to any depth.
-/

set_option autoImplicit false

namespace NativeBoundary

/-- What a property has to see to, to last whatever a thread does. -/
structure Machine.Lasts (t : ThreadId) (P : Machine → Prop) : Prop where
  deed : ∀ deed, (host t).Keeps P deed
  pushed : ∀ (frame : Frame) m, P m →
    P (m.updateThread t fun thread => { thread with frames := frame :: thread.frames })
  popped : ∀ m, P m →
    P (m.updateThread t fun thread => { thread with frames := thread.frames.tail })
  plain : ∀ (first : Instruction) (m m' : Machine), P m → first.Does t m m' → P m'

namespace Call

variable {b : Boundary} {t : ThreadId} {P : Machine → Prop} {w w' : MachineWorld}
  {method : Method} {receiver : Option ObjectId} {registers : Registers}

theorem enter_lasts (lasts : Machine.Lasts t P) {entry : Started}
    (run : enter b t method receiver w = .ok entry w') (met : P w.state) : P w'.state := by
  obtain ⟨_, w₁, pushing, run⟩ := Act.bind_eq_ok.1 run
  obtain ⟨_, w₂, finding, run⟩ := Act.bind_eq_ok.1 run
  obtain ⟨saved, w₃, beginning, run⟩ := Act.bind_eq_ok.1 run
  obtain ⟨-, rfl⟩ := Act.pure_eq_ok.1 run
  obtain ⟨s, pushed, rfl⟩ := Crossing.run_eq_ok.1 pushing
  obtain rfl := Act.modify_eq_ok.1 pushed
  have found := (declaringClass_keeps
    (fun m met => lasts.plain (.heap (.classObject method.className)) m _ met rfl)
    (fun _ => lasts.deed _) fun _ => lasts.deed _).of_ok finding
    (lasts.pushed { method, receiver } w.state met)
  have begun : (Passage.beginMethod method).run (Machine.host t) b w₂ = .ok (.mark saved) w₃ :=
    Act.map_eq_ok.2 ⟨saved, beginning, rfl⟩
  exact (Passage.run_keeps b lasts.deed _).of_ok begun found

theorem leave_lasts (lasts : Machine.Lasts t P) {saved : ScopeMark} {result : CallResult ObjectId}
    (run : leave b t method saved registers w = .ok result w') (met : P w.state) : P w'.state := by
  obtain ⟨given, w₁, ending, run⟩ := Act.bind_eq_ok.1 run
  obtain ⟨_, w₂, popping, run⟩ := Act.bind_eq_ok.1 run
  obtain ⟨rfl, rfl⟩ := Act.pure_eq_ok.1 run
  obtain ⟨s, popped, rfl⟩ := Crossing.run_eq_ok.1 popping
  obtain rfl := Act.modify_eq_ok.1 popped
  have ended : (Passage.endMethod method saved registers).run (Machine.host t) b w =
      .ok (.result given) w₁ := Act.map_eq_ok.2 ⟨given, ending, rfl⟩
  exact lasts.popped w₁.state ((Passage.run_keeps b lasts.deed _).of_ok ended met)

theorem performAll_lasts (lasts : Machine.Lasts t P) (body : List Instruction) :
    ∀ {w w' : MachineWorld} {u : Unit}, performAll b t body w = .ok u w' →
      P w.state → P w'.state := by
  -- A call in the body has a hypothesis for its own body beside the one for the rest.
  induction body using Instruction.bodyInduction with
  | nil =>
    intro w w' u run met
    simp only [performAll] at run
    obtain ⟨-, rfl⟩ := Act.pure_eq_ok.1 run
    exact met
  | plain first rest plain ih =>
    intro w w' u run met
    simp only [performAll] at run
    obtain ⟨_, between, doing, run⟩ := Act.bind_eq_ok.1 run
    exact ih run (lasts.plain first _ _ met (perform_does plain doing))
  | call method receiver body registers rest inner ih =>
    intro w w' u run met
    simp only [performAll] at run
    obtain ⟨_, between, doing, run⟩ := Act.bind_eq_ok.1 run
    obtain ⟨result, invoked⟩ := perform_call doing
    obtain ⟨entry, started, entering, invoked⟩ := Act.bind_eq_ok.1 invoked
    obtain ⟨_, ended, performed, leaving⟩ := Act.bind_eq_ok.1 invoked
    exact ih run (leave_lasts lasts leaving (inner performed (enter_lasts lasts entering met)))

theorem invoke_lasts (lasts : Machine.Lasts t P) {body : List Instruction}
    {result : CallResult ObjectId}
    (run : invoke b t method receiver body registers w = .ok result w') (met : P w.state) :
    P w'.state := by
  obtain ⟨entry, started, entering, run⟩ := Act.bind_eq_ok.1 run
  obtain ⟨_, ended, performed, leaving⟩ := Act.bind_eq_ok.1 run
  exact leave_lasts lasts leaving
    (performAll_lasts lasts body performed (enter_lasts lasts entering met))

theorem perform_lasts (lasts : Machine.Lasts t P) {first : Instruction} {u : Unit}
    (run : perform b t first w = .ok u w') (met : P w.state) : P w'.state := by
  cases call : first.isCall with
  | false => exact lasts.plain first _ _ met (perform_does call run)
  | true =>
    cases first with
    | call method receiver body registers =>
      obtain ⟨result, invoked⟩ := perform_call run
      exact invoke_lasts lasts invoked met
    | _ => cases call

/-! ## Views from afar -/

section Afar

variable {γ : Type} {view : MachineWorld → γ} (afar : World.Afar view)
include afar

theorem machine_leaves {α : Type} (action : Act Machine α) :
    Crossing.Leaves view (machine action) :=
  .run afar action

theorem declaringClass_leaves (method : Method) :
    Crossing.Leaves view (declaringClass t method) := by
  have world : Crossing.Leaves view (get : Call MachineWorld) := by
    intro w a w' run
    obtain rfl := (EStateM.Result.ok.inj run).2
    rfl
  have known : Crossing.Leaves view (knownClass method) := by
    refine .bind world fun w => ?_
    cases w.state.root? method with
    | some o => exact .pure o
    | none => exact machine_leaves afar _
  rw [declaringClass_eq]
  refine .ite (.bind known fun o => .bind world fun w => ?_) (.pure _)
  exact .ite (.map _ (Crossing.refreshClass_leaves afar o)) (.pure _)

/-- An instruction that is no call goes through no entry point. -/
theorem plain_leaves {first : Instruction} (plain : first.isCall = false) :
    Crossing.Leaves view (perform b t first) := by
  cases first with
  | call method receiver body registers => simp [Instruction.isCall] at plain
  | newObject className | newLocal o =>
    simp only [perform]
    exact .bind (machine_leaves afar _) fun _ => .pure _
  | _ =>
    simp only [perform]
    exact machine_leaves afar _

/-- What comes before the entry point at the beginning of a call is not seen from afar. -/
theorem begun_of_enter {entry : Started} (run : enter b t method receiver w = .ok entry w') :
    ∃ named, view named = view w ∧
      (∀ own, Machine.Stands t own w.state →
        Machine.Stands t { own with frames := { method, receiver } :: own.frames } named.state) ∧
      Crossing.beginMethod (Machine.host t) b method named = .ok entry.saved w' := by
  obtain ⟨_, pushed, pushing, run⟩ := Act.bind_eq_ok.1 run
  obtain ⟨_, named, naming, run⟩ := Act.bind_eq_ok.1 run
  obtain ⟨saved, begun, beginning, run⟩ := Act.bind_eq_ok.1 run
  obtain ⟨rfl, rfl⟩ := Act.pure_eq_ok.1 run
  refine ⟨named, ?_, fun own stands => ?_, beginning⟩
  · exact (declaringClass_leaves afar method _ _ _ naming).trans
      (machine_leaves afar _ _ _ _ pushing)
  · exact declaringClass_own (pushFrame_own stands pushing) naming

/-- Nor is what comes after the entry point at the end of one. -/
theorem ended_of_leave {saved : ScopeMark} {result : CallResult ObjectId}
    (run : leave b t method saved registers w = .ok result w') :
    ∃ ended, view w' = view ended ∧
      Crossing.endMethod (Machine.host t) b method saved registers w = .ok result ended := by
  obtain ⟨_, ended, ending, run⟩ := Act.bind_eq_ok.1 run
  obtain ⟨_, popped, popping, run⟩ := Act.bind_eq_ok.1 run
  obtain ⟨rfl, rfl⟩ := Act.pure_eq_ok.1 run
  exact ⟨ended, machine_leaves afar _ _ _ _ popping, ending⟩

end Afar

end Call

end NativeBoundary
