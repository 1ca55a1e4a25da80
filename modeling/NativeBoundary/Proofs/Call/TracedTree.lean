import NativeBoundary.Proofs.Call.Lasting
import NativeBoundary.Proofs.Call.Restored
import NativeBoundary.Proofs.Crossing.TracedCalls
import NativeBoundary.Proofs.Machine.Seen

/-!
# Trees of calls before the tracer

A call of a native method, with the calls in its body to any depth, is a run of entry points whose
ends are paired with their beginnings.  It leaves the calls under way as they were.
-/

set_option autoImplicit false

namespace NativeBoundary

theorem Machine.host_steady (t : ThreadId) : (Machine.host t).Steady :=
  fun deed method => host_keeps_executing t method deed

namespace Call

open Machine (Stands)

variable {b : Boundary} {t : ThreadId} {own : Thread} {w w' : MachineWorld} {method : Method}
  {receiver : Option ObjectId} {history : List (CallEvent ThreadId)}

theorem perform_runs (runs : Runs Machine.host b w history) {first : Instruction}
    (plain : first.isCall = false) {u : Unit} (run : perform b t first w = .ok u w') :
    Runs Machine.host b w' history :=
  runs.aside (plain_leaves World.afar_tracing plain w u w' run)

theorem enter_runs (runs : Runs Machine.host b w history) (stands : Stands t own w.state)
    {entry : Started} (run : enter b t method receiver w = .ok entry w') :
    Runs Machine.host b w' (.began t method.tier (some method) :: history) := by
  obtain ⟨named, same, pushed, beginning⟩ := begun_of_enter World.afar_tracing run
  have executing : (Machine.host t).executing named.state = some method :=
    Machine.executing_of_top rfl (pushed own stands)
  have passed : (Passage.beginMethod method).run (Machine.host t) b named =
      .ok (.mark entry.saved) w' := Act.map_eq_ok.2 ⟨entry.saved, beginning, rfl⟩
  have next := (runs.aside same).pass passed
  rw [executing] at next
  exact next

theorem leave_runs (runs : Runs Machine.host b w history) (stands : Stands t own w.state)
    {outer : List Frame} (top : own.frames = { method, receiver } :: outer) {saved : ScopeMark}
    {registers : Registers} {result : CallResult ObjectId}
    (run : leave b t method saved registers w = .ok result w') :
    Runs Machine.host b w'
      (.ended t method.tier (some method) method.returnsReference :: history) := by
  obtain ⟨ended, same, ending⟩ := ended_of_leave World.afar_tracing run
  have executing := Machine.executing_of_top top stands
  have passed : (Passage.endMethod method saved registers).run (Machine.host t) b w =
      .ok (.result result) ended := Act.map_eq_ok.2 ⟨result, ending, rfl⟩
  have next := runs.pass passed
  rw [executing] at next
  exact next.aside same

/-- A body is a run whose ends are paired, and leaves the calls under way as they were. -/
theorem performAll_runs (body : List Instruction) :
    ∀ {w w' : MachineWorld} {history : List (CallEvent ThreadId)} {own : Thread} {u : Unit},
      Runs Machine.host b w history → Paired history → Stands t own w.state →
      performAll b t body w = .ok u w' →
      ∃ own' events, Stands t own' w'.state ∧ own'.frames = own.frames ∧
        Runs Machine.host b w' (events ++ history) ∧ Paired (events ++ history) ∧
        ongoing (events ++ history) = ongoing history := by
  -- By the induction on the body of a call, the calls under way at its end have that call on top,
  -- so its end is paired with its beginning and takes it off again.
  induction body using Instruction.bodyInduction with
  | nil =>
    intro w w' history own u runs paired stands run
    simp only [performAll] at run
    obtain ⟨-, rfl⟩ := Act.pure_eq_ok.1 run
    exact ⟨own, [], stands, rfl, runs, paired, rfl⟩
  | plain first rest plain ih =>
    intro w w' history own u runs paired stands run
    simp only [performAll] at run
    obtain ⟨_, between, doing, run⟩ := Act.bind_eq_ok.1 run
    obtain ⟨own₁, stands₁, frames₁⟩ := plain_frames plain stands doing
    obtain ⟨own₂, events, stands₂, frames₂, after⟩ :=
      ih (perform_runs runs plain doing) paired stands₁ run
    exact ⟨own₂, events, stands₂, frames₂.trans frames₁, after⟩
  | call method receiver body registers rest inner ih =>
    intro w w' history own u runs paired stands run
    simp only [performAll] at run
    obtain ⟨_, between, doing, run⟩ := Act.bind_eq_ok.1 run
    obtain ⟨result, invoked⟩ := perform_call doing
    obtain ⟨entry, started, entering, invoked⟩ := Act.bind_eq_ok.1 invoked
    obtain ⟨_, ended, performed, leaving⟩ := Act.bind_eq_ok.1 invoked
    have begun := enter_runs runs stands entering
    obtain ⟨own₁, events₁, stands₁, frames₁, runs₁, paired₁, under₁⟩ :=
      inner begun paired (enter_own stands entering).2.2 performed
    rw [Thread.frames_entered] at frames₁
    have left := leave_runs runs₁ stands₁ frames₁ leaving
    have top : ongoing (events₁ ++ .began t method.tier (some method) :: history) =
        ⟨t, method.tier, some method⟩ :: ongoing history := under₁
    have pairedLeft : Paired (.ended t method.tier (some method) method.returnsReference ::
        (events₁ ++ .began t method.tier (some method) :: history)) :=
      ⟨by simp [top], paired₁⟩
    obtain ⟨own₂, events₂, stands₂, frames₂, runs₂, paired₂, under₂⟩ :=
      ih left pairedLeft (leave_own stands₁ leaving) run
    refine ⟨own₂, events₂ ++ .ended t method.tier (some method) method.returnsReference ::
      (events₁ ++ [.began t method.tier (some method)]), stands₂, ?_, ?_, ?_, ?_⟩
    · rw [frames₂, Thread.frames_left, frames₁, List.tail_cons]
    · simpa using runs₂
    · simpa using paired₂
    · have same := under₂
      rw [ongoing, top, List.erase_cons_head] at same
      simpa using same

def followingCalls : Boundary where
  settings := { trace := { enabled := true, filter := some "Point" } }

def sketchMethod : Method where
  className := "Point"
  name := "sketch"
  shorty := "V"
  tier := .normal

def sketchEvents : List (CallEvent ThreadId) :=
  [.began ⟨1⟩ .normal (some sketchMethod), .began ⟨1⟩ .normal (some sketchMethod)]

/-- The worlds in the course of these calls: in the outer one, back in managed code, in the inner
one, and after the end of that. -/
def sketching : MachineWorld :=
  Act.stateOf (enter followingCalls ⟨1⟩ sketchMethod none onManagedThread)

def pausing : MachineWorld :=
  Act.stateOf (perform followingCalls ⟨1⟩ .toManaged sketching)

def sketchingWithin : MachineWorld :=
  Act.stateOf (enter followingCalls ⟨1⟩ sketchMethod none pausing)

def sketched : MachineWorld :=
  Act.stateOf (leave followingCalls ⟨1⟩ sketchMethod .bottom {} sketchingWithin)

theorem sketchingWithin_runs :
    Runs Machine.host followingCalls sketchingWithin sketchEvents ∧
      ∃ own outer, Stands ⟨1⟩ own sketchingWithin.state ∧
        own.frames = { method := sketchMethod, receiver := none } :: outer := by
  obtain ⟨_, first⟩ : ∃ entry, enter followingCalls ⟨1⟩ sketchMethod none onManagedThread =
      .ok entry sketching := Act.eq_ok_stateOf (by decide +kernel)
  obtain ⟨_, back⟩ : ∃ u, perform followingCalls ⟨1⟩ .toManaged sketching = .ok u pausing :=
    Act.eq_ok_stateOf (by decide +kernel)
  obtain ⟨_, second⟩ : ∃ entry, enter followingCalls ⟨1⟩ sketchMethod none pausing =
      .ok entry sketchingWithin := Act.eq_ok_stateOf (by decide +kernel)
  have stands : Stands ⟨1⟩ (onManagedThread.state.thread ⟨1⟩).own onManagedThread.state := rfl
  obtain ⟨own, standsBack, -⟩ := plain_frames rfl (enter_own stands first).2.2 back
  have runs := perform_runs (enter_runs (.start rfl) stands first) rfl back
  exact ⟨enter_runs runs standsBack second, _, _, (enter_own standsBack second).2.2,
    Thread.frames_entered ..⟩

/-- In the inner call the flag is up, and a traced call is under way. -/
theorem tracing_after_calls_nested :
    sketchingWithin.tracing = true ∧
      ∃ call ∈ ongoing sketchEvents, call.isTraced followingCalls.settings.trace = true := by
  obtain ⟨since, under, -⟩ := tracing_after_calls Machine.host followingCalls Machine.host_steady
    sketchingWithin sketchEvents sketchingWithin_runs.1
  have up := since.2 ⟨[], .began ⟨1⟩ .normal (some sketchMethod), _, rfl, by decide +kernel,
    by simp⟩
  exact ⟨up, under up⟩

/-- It is not so that the flag is up all the time that a traced call is under way. -/
theorem flag_down_in_traced_call :
    ¬∀ (b : Boundary) (w : MachineWorld) (history : List (CallEvent ThreadId)),
        Runs Machine.host b w history → Paired history →
          (w.tracing = true ↔
            ∃ call ∈ ongoing history, call.isTraced b.settings.trace = true) := by
  intro claim
  obtain ⟨runs, own, outer, stands, top⟩ := sketchingWithin_runs
  obtain ⟨_, left⟩ : ∃ result, leave followingCalls ⟨1⟩ sketchMethod .bottom {} sketchingWithin =
      .ok result sketched := Act.eq_ok_stateOf (by decide +kernel)
  have agrees := claim followingCalls sketched _ (leave_runs runs stands top left)
    (by decide +kernel)
  have up : sketched.tracing = true := agrees.2 ⟨⟨⟨1⟩, .normal, some sketchMethod⟩,
    by decide +kernel, by decide +kernel⟩
  have down : sketched.tracing = false := by decide +kernel
  rw [down] at up
  cases up

end Call

end NativeBoundary
