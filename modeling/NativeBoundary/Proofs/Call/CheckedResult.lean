import NativeBoundary.Proofs.Crossing.Returned
import NativeBoundary.Proofs.Machine.Forwarding
import NativeBoundary.Proofs.Machine.Liveness
import NativeBoundary.Machine.NativeCode

/-!
# Reference results in checked mode

In checked mode an object that a call returns is a copy that has not been freed.  It is that copy
and no other: an object may be returned through a copy from before it was moved, or made by moving a
copy that has been freed, although the object has been freed through another copy.
-/

set_option autoImplicit false

namespace NativeBoundary

variable {t : ThreadId}

namespace Machine

theorem popHandle_pushHandle (m : Machine) (o : ObjectId) :
    (((host t).popHandle ((host t).pushHandle o m)).1).getD o = o := by
  have found := m.thread?_updateThread t
    (fun thread => { thread with handles := thread.handles ++ [o] }) fun _ => rfl
  simp only [host, thread, found]
  cases m.thread? t with
  | none => rfl
  | some thread => simp

end Machine

namespace Crossing

open Machine (host)

variable {b : Boundary} {w w' : MachineWorld} {method : Method} {o : ObjectId}

theorem alive_of_verifyResult {object : Option ObjectId} (checked : b.settings.checked = true)
    (run : verifyResult (host t) b (some method) object w = .ok (some o) w') :
    w'.state.heap.isAlive o = true := by
  rw [verifyResult, checked, if_pos rfl] at run
  obtain ⟨_, _, looked, run⟩ := Act.bind_eq_ok.1 run
  obtain ⟨rfl, rfl⟩ := look_eq_ok.1 looked
  cases object with
  | none => cases protecting_none_of_ok run
  | some object =>
    obtain ⟨w₁, w₂, pushed, verified, result, popped⟩ := protecting_of_ok run
    obtain ⟨_, w₃, recorded, checking⟩ := Act.bind_eq_ok.1 verified
    obtain ⟨m, accepted, rfl⟩ := run_eq_ok.1 checking
    rw [record_of_ok recorded, pushed] at accepted
    have alive := Machine.isAlive_of_checkResult accepted
    obtain rfl := Machine.checkResult_of_ok accepted
    -- The check only counts, so the object on top is still the one that was put there.
    have same : object = o :=
      (Machine.popHandle_pushHandle w.state object).symm.trans (Option.some.inj result).symm
    rw [popped, ← same]
    exact alive

theorem alive_of_referenceResult {handle : Handle} {saved : ScopeMark}
    (checked : b.settings.checked = true)
    (run : referenceResult (host t) b handle saved (some method) w = .ok (some o) w') :
    w'.state.heap.isAlive o = true := by
  rw [referenceResult_eq] at run
  obtain ⟨_, w₁, decoded, run⟩ := Act.bind_eq_ok.1 run
  obtain ⟨_, w₂, closed, run⟩ := Act.bind_eq_ok.1 run
  exact alive_of_verifyResult checked run

theorem alive_of_deliver {saved : ScopeMark} {registers : Registers}
    (checked : b.settings.checked = true)
    (run : deliver (host t) b method saved registers w = .ok (.object (some o)) w') :
    w'.state.heap.isAlive o = true := by
  unfold deliver at run
  cases known : ReturnKind.ofByte method.returnByte with
  | error why =>
    simp only [known] at run
    exact absurd run halt_ne_ok
  | ok kind =>
    simp only [known] at run
    cases kind with
    | object =>
      cases tier : method.tier with
      | critical =>
        simp only [tier] at run
        exact absurd run halt_ne_ok
      | fast =>
        simp only [tier] at run
        obtain ⟨_, w₁, traced, run⟩ := Act.bind_eq_ok.1 run
        obtain ⟨_, run, given⟩ := Act.map_eq_ok.1 run
        obtain rfl := CallResult.object.inj given
        exact alive_of_referenceResult checked run
      | normal =>
        simp only [tier] at run
        obtain ⟨_, run, given⟩ := Act.map_eq_ok.1 run
        obtain rfl := CallResult.object.inj given
        exact alive_of_referenceResult checked run
    | _ =>
      obtain ⟨_, w₁, closed, run⟩ := Act.bind_eq_ok.1 run
      cases (Act.pure_eq_ok.1 run).1

end Crossing

namespace Call

open Machine (host)

variable {b : Boundary} {w w' : MachineWorld} {method : Method}

/-- A checked call that returns an object returns a copy that is alive: at no time since that copy
was made, before the call or in it, has it been freed. -/
theorem checked_result_never_freed {receiver : Option ObjectId} {body : List Instruction}
    {registers : Registers} {o : ObjectId} (checked : b.settings.checked = true)
    (run : invoke b t method receiver body registers w = .ok (.object (some o)) w') :
    w'.state.heap.isAlive o = true ∧
      ∀ earlier : Heap, (earlier.copy? o).isSome = true →
        ¬ Heap.Leads (earlier.free o) w'.state.heap := by
  obtain ⟨started, w₁, entering, run⟩ := Act.bind_eq_ok.1 run
  obtain ⟨_, w₂, performed, leaving⟩ := Act.bind_eq_ok.1 run
  obtain ⟨result, w₃, ending, run⟩ := Act.bind_eq_ok.1 leaving
  obtain ⟨_, w₄, popping, run⟩ := Act.bind_eq_ok.1 run
  obtain ⟨rfl, rfl⟩ := Act.pure_eq_ok.1 run
  rw [Crossing.endMethod_eq] at ending
  obtain ⟨_, w₅, finished, ending⟩ := Act.bind_eq_ok.1 ending
  obtain ⟨_, w₆, unlocked, delivering⟩ := Act.bind_eq_ok.1 ending
  have delivered := Crossing.alive_of_deliver checked delivering
  obtain ⟨m, popped, rfl⟩ := Crossing.run_eq_ok.1 popping
  obtain rfl := Act.modify_eq_ok.1 popped
  exact ⟨delivered, fun earlier made => Heap.not_leads_of_isAlive delivered made⟩

def getter : Method where
  className := "Foo"
  name := "get"
  shorty := "L"
  tier := .normal

/-- A machine with one thread, which is in managed code.  An object was moved, and freed through the
copy that was made. -/
def freedAfterMove : Machine where
  heap := ({} : Heap).after [.allocate "Foo", .relocate ⟨0⟩, .free ⟨1⟩]
  lock := { claims := 1 }
  threads := [{ id := ⟨1⟩, name := "main", state := .managed, holdsShare := true }]

def returnsOldCopy : Call (CallResult ObjectId) :=
  invoke { settings := { checked := true } } ⟨1⟩ getter none [.newLocal ⟨0⟩] (.ofHandle ⟨1⟩)

theorem returnsOldCopy_returns :
    ∃ w', returnsOldCopy { state := freedAfterMove } = .ok (.object (some ⟨0⟩)) w' ∧
      w'.state.heap.pointer? ⟨0⟩ = some ⟨1⟩ ∧ w'.state.heap.isAlive ⟨1⟩ = false := by
  have outcome : returnsOldCopy.gives { state := freedAfterMove } (fun result w' =>
      result = .object (some ⟨0⟩) ∧ w'.state.heap.pointer? ⟨0⟩ = some ⟨1⟩ ∧
        w'.state.heap.isAlive ⟨1⟩ = false) = true := by
    decide +kernel
  obtain ⟨result, w', run, passed⟩ := Act.exists_of_gives outcome
  obtain ⟨rfl, pointer, freed⟩ := of_decide_eq_true passed
  exact ⟨w', run, pointer, freed⟩

theorem checked_result_never_freed_old_copy :
    ∃ w', returnsOldCopy { state := freedAfterMove } = .ok (.object (some ⟨0⟩)) w' ∧
      w'.state.heap.isAlive ⟨0⟩ = true := by
  obtain ⟨w', run, -⟩ := returnsOldCopy_returns
  exact ⟨w', run, (checked_result_never_freed rfl run).1⟩

/-- A checked call can return an object that has been freed through another copy. -/
theorem freed_object_returned :
    ¬ ∀ (m : Machine) (o moved : ObjectId) (w' : MachineWorld),
      returnsOldCopy { state := m } = .ok (.object (some o)) w' →
      w'.state.heap.pointer? o = some moved → w'.state.heap.isAlive moved = true := by
  intro always
  obtain ⟨w', run, pointer, freed⟩ := returnsOldCopy_returns
  have alive := always freedAfterMove ⟨0⟩ ⟨1⟩ w' run pointer
  rw [freed] at alive
  cases alive

end Call

end NativeBoundary
