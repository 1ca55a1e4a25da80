import NativeBoundary.Machine.NativeCode
import NativeBoundary.Proofs.Machine.Returns

/-!
# Instructions of native code

All that an instruction other than a call can do to the machine, where it returns, and induction on
bodies of instructions.
-/

set_option autoImplicit false

namespace NativeBoundary

/-! ## Induction on bodies -/

def Instruction.isCall : Instruction → Bool
  | .call .. => true
  | _ => false

/-- Induction on bodies: through the instructions one after the other, and into the bodies of the
calls among them. -/
theorem Instruction.bodyInduction {P : List Instruction → Prop}
    (nil : P [])
    (plain : ∀ first rest, first.isCall = false → P rest → P (first :: rest))
    (call : ∀ method receiver body registers rest,
      P body → P rest → P (.call method receiver body registers :: rest))
    (body : List Instruction) : P body := by
  refine Instruction.rec_1
    (motive_1 := fun first => ∀ rest, P rest → P (first :: rest)) (motive_2 := P)
    ?_ ?_ ?_ ?_ ?_ ?_ ?_ ?_ ?_ nil (fun first rest single ih => single rest ih) body
  case refine_9 =>
    exact fun method receiver body registers ih rest => call method receiver body registers rest ih
  all_goals
    intros
    exact plain _ _ rfl ‹_›

/-! ## What an instruction does -/

/-- The states that an instruction other than a call can leave the machine in, where it returns. -/
def Instruction.Does (t : ThreadId) : Instruction → Machine → Machine → Prop
  | .newObject className, m, m' =>
    ∃ handle, Machine.addLocal t (m.heap.allocate className).1
      { m with heap := (m.heap.allocate className).2 } = .ok handle m'
  | .newLocal o, m, m' => ∃ handle, Machine.addLocal t o m = .ok handle m'
  | .throw exception, m, m' =>
    (m.updateThread t fun thread => { thread with pending := some exception }) = m'
  | .enterMonitor o, m, m' => Machine.nativeEnter t o m = .ok () m'
  | .exitMonitor o, m, m' => Machine.nativeExitOrThrow t o m = .ok () m'
  | .heap step, m, m' => { m with heap := m.heap.step step } = m'
  | .toManaged, m, m' => Machine.toManaged t m = .ok () m'
  | .toNative, m, m' => Machine.toNative t m = .ok () m'
  | .call .., _, _ => False

namespace Call

variable {b : Boundary} {t : ThreadId} {w w' : MachineWorld} {u : Unit}

theorem perform_does {first : Instruction} (plain : first.isCall = false)
    (run : perform b t first w = .ok u w') : first.Does t w.state w'.state := by
  cases first with
  | call method receiver body registers => simp [Instruction.isCall] at plain
  | newObject className =>
    simp only [perform] at run
    obtain ⟨handle, _, ran, rest⟩ := Act.bind_eq_ok.1 run
    obtain ⟨-, rfl⟩ := Act.pure_eq_ok.1 rest
    obtain ⟨s, made, rfl⟩ := Crossing.run_eq_ok.1 ran
    obtain ⟨o, between, allocated, added⟩ := Act.bind_eq_ok.1 made
    obtain ⟨rfl, rfl⟩ := Machine.onHeap_eq_ok.1 allocated
    exact ⟨handle, added⟩
  | newLocal o =>
    simp only [perform] at run
    obtain ⟨handle, _, ran, rest⟩ := Act.bind_eq_ok.1 run
    obtain ⟨-, rfl⟩ := Act.pure_eq_ok.1 rest
    obtain ⟨s, added, rfl⟩ := Crossing.run_eq_ok.1 ran
    exact ⟨handle, added⟩
  | throw exception | heap step =>
    simp only [perform] at run
    obtain ⟨s, changed, rfl⟩ := Crossing.run_eq_ok.1 run
    exact Act.modify_eq_ok.1 changed
  | enterMonitor o | exitMonitor o | toManaged | toNative =>
    simp only [perform] at run
    obtain ⟨s, done, rfl⟩ := Crossing.run_eq_ok.1 run
    exact done

theorem perform_call {method : Method} {receiver : Option ObjectId} {body : List Instruction}
    {registers : Registers}
    (run : perform b t (.call method receiver body registers) w = .ok u w') :
    ∃ result, invoke b t method receiver body registers w = .ok result w' := by
  simp only [perform] at run
  obtain ⟨entry, started, entering, run⟩ := Act.bind_eq_ok.1 run
  obtain ⟨_, ended, performed, run⟩ := Act.bind_eq_ok.1 run
  obtain ⟨result, _, leaving, run⟩ := Act.bind_eq_ok.1 run
  obtain ⟨-, rfl⟩ := Act.pure_eq_ok.1 run
  exact ⟨result, Act.bind_eq_ok.2 ⟨entry, started, entering,
    Act.bind_eq_ok.2 ⟨_, ended, performed, leaving⟩⟩⟩

end Call

end NativeBoundary
