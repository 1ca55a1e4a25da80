import NativeBoundary.Proofs.Call.Restored
import NativeBoundary.Proofs.Call.ShareHistory
import NativeBoundary.Proofs.Machine.LocalMoves

/-!
# Handles through histories

A history of a thread is any list of its operations: uses of the boundary, native instructions,
calls nested to any depth, or the two halves of a call.  The moves of a history are the references
that it adds, with the handles that are returned for them, and the scopes that it opens and closes.
The table of the thread is what these moves make of it, so what handles lead to is known from the
moves alone.
-/

set_option autoImplicit false

namespace NativeBoundary

def Thread.localPart (thread : Thread) : ScopedTable ObjectId :=
  ⟨thread.locals, thread.base⟩

/-! ## The moves of a history -/

def Tier.opening (tier : Tier) (saved : ScopeMark) : List (LocalMove ObjectId) :=
  if tier.opensScope then [.opened saved] else []

def Tier.closing (tier : Tier) (saved : ScopeMark) : List (LocalMove ObjectId) :=
  if tier.opensScope then [.closed saved] else []

def Passage.moves (p : Passage ObjectId Handle ScopeMark Method Registers)
    (result : PassageResult ObjectId) : List (LocalMove ObjectId) :=
  match p, result with
  | .beginNormal _ _, .mark saved | .beginFast, .mark saved | .openScope, .mark saved =>
    [.opened saved]
  | .beginMethod method, .mark saved => method.tier.opening saved
  | .endNormal _ _ saved, _ | .endNormalReference _ _ _ saved, _ | .endFast saved, _
  | .endFastReference _ saved, _ | .closeScope _ saved, _ => [.closed saved]
  | .endMethod method saved _, _ => method.tier.closing saved
  | _, _ => []

namespace Call

variable (b : Boundary) (t : ThreadId)

mutual

/-- The moves of an instruction; a call has those of its body inside its scope. -/
def movesBy : Instruction → MachineWorld → List (LocalMove ObjectId)
  | .newObject className, w =>
    match Machine.newObject t className w.state with
    | .ok handle _ => [.given handle (w.state.heap.allocate className).1]
    | .error _ _ => []
  | .newLocal o, w =>
    match Machine.addLocal t o w.state with
    | .ok handle _ => [.given handle o]
    | .error _ _ => []
  | .call method receiver body _, w =>
    match enter b t method receiver w with
    | .ok entry started =>
      method.tier.opening entry.saved ++ moves body started ++ method.tier.closing entry.saved
    | .error _ _ => []
  | _, _ => []

def moves : List Instruction → MachineWorld → List (LocalMove ObjectId)
  | [], _ => []
  | first :: rest, w =>
    movesBy first w ++
      match perform b t first w with
      | .ok _ after => moves rest after
      | .error _ _ => []

end

end Call

namespace Operation

variable (b : Boundary)

def moves : Operation → MachineWorld → List (LocalMove ObjectId)
  | .cross t p, w =>
    match p.run (Machine.host t) b w with
    | .ok result _ => p.moves result
    | .error _ _ => []
  | .invoke t method receiver body registers, w =>
    Call.movesBy b t (.call method receiver body registers) w
  | .enter t method receiver, w =>
    match Call.enter b t method receiver w with
    | .ok entry _ => method.tier.opening entry.saved
    | .error _ _ => []
  | .leave _ method saved _, _ => method.tier.closing saved
  | .native t instruction, w => Call.movesBy b t instruction w
  | _, _ => []

def movesAll : List Operation → MachineWorld → List (LocalMove ObjectId)
  | [], _ => []
  | first :: rest, w =>
    first.moves b w ++
      match first.perform b w with
      | .ok _ after => movesAll rest after
      | .error _ _ => []

/-- An operation that a thread carries out and stays attached. -/
def IsOf (t : ThreadId) : Operation → Prop
  | .detach _ => False
  | operation => operation.actor? = some t

instance (t : ThreadId) (operation : Operation) : Decidable (operation.IsOf t) := by
  cases operation <;> unfold IsOf <;> infer_instance

end Operation

/-! ## One operation -/

section Moves

open Machine (Stands host host_keeps_own)
open Crossing (state_of_run)

variable {b : Boundary} {t : ThreadId} {own : Thread} {w w' : MachineWorld} {u : Unit}

namespace LocalRun

theorem opened (own : Thread) :
    LocalRun own.localPart [.opened own.base] ⟨own.locals, own.locals.top⟩ :=
  .cons rfl (.nil _)

theorem closed (own : Thread) (saved : ScopeMark) :
    LocalRun own.localPart [.closed saved] (own.unscoped saved).localPart :=
  .cons trivial (.nil _)

end LocalRun

theorem Thread.localPart_returned (tier : Tier) (own : Thread) :
    (own.returned tier).localPart = own.localPart := by
  rw [localPart, locals_returned, base_returned, localPart]

theorem Thread.run_within (tier : Tier) (own : Thread) :
    LocalRun own.localPart (tier.opening own.base) (own.within tier).localPart := by
  cases tier with
  | normal | fast => exact .opened own
  | critical => exact .nil _

theorem Thread.run_entered (method : Method) (receiver : Option ObjectId) (own : Thread) :
    LocalRun own.localPart (method.tier.opening own.base) (own.entered method receiver).localPart :=
  run_within method.tier { own with frames := { method, receiver } :: own.frames }

theorem Thread.run_closing (tier : Tier) (saved : ScopeMark) (own : Thread) :
    LocalRun own.localPart (tier.closing saved)
      (if tier.opensScope then (own.returned tier).unscoped saved
        else own.returned tier).localPart := by
  rw [← localPart_returned tier own, Tier.closing]
  cases tier.opensScope with
  | true => exact .closed (own.returned tier) saved
  | false => exact .nil _

theorem Thread.run_left (method : Method) (saved : ScopeMark) (own : Thread) :
    LocalRun own.localPart (method.tier.closing saved) (own.left method saved).localPart :=
  own.run_closing method.tier saved

theorem Passage.run_moves {p : Passage ObjectId Handle ScopeMark Method Registers}
    {result : PassageResult ObjectId} (stands : Stands t own w.state)
    (run : p.run (host t) b w = .ok result w') :
    ∃ own', Stands t own' w'.state ∧ LocalRun own.localPart (p.moves result) own'.localPart := by
  -- What gives nothing back and leaves the thread as it is makes no move.
  have still {c : Call Unit} (keeps : Crossing.Keeps (Stands t own) c)
      (run : (do c; pure .nothing : Call (PassageResult ObjectId)) w = .ok result w') :
      ∃ own', Stands t own' w'.state ∧ LocalRun own.localPart [] own'.localPart := by
    obtain ⟨_, w₁, done, run⟩ := Act.bind_eq_ok.1 run
    obtain ⟨-, rfl⟩ := Act.pure_eq_ok.1 run
    exact ⟨own, keeps.of_ok done stands, .nil _⟩
  cases p with
  | beginNormal locked reported =>
    obtain ⟨saved, began, rfl⟩ := Act.map_eq_ok.1 run
    obtain ⟨rfl, -, -, stands⟩ := Crossing.beginNormal_own stands began
    exact ⟨_, stands, .opened own⟩
  | endNormal locked reported saved =>
    obtain ⟨_, w₁, ended, rest⟩ := Act.bind_eq_ok.1 run
    obtain ⟨rfl, rfl⟩ := Act.pure_eq_ok.1 rest
    obtain ⟨_, w₂, finished, closed⟩ := Act.bind_eq_ok.1 ended
    replace stands := Crossing.finishNormal_own stands finished
    exact ⟨_, Crossing.closeScope_own stands closed, .closed own saved⟩
  | endNormalReference locked reported handle saved =>
    obtain ⟨_, ended, rfl⟩ := Act.map_eq_ok.1 run
    obtain ⟨_, w₂, finished, given⟩ := Act.bind_eq_ok.1 ended
    replace stands := Crossing.finishNormal_own stands finished
    exact ⟨_, Crossing.referenceResult_own stands given, .closed own saved⟩
  | beginFast =>
    obtain ⟨saved, began, rfl⟩ := Act.map_eq_ok.1 run
    have fast : Crossing.beginTier (host t) b .fast w = .ok saved w' := began
    obtain ⟨rfl, -, stands⟩ := Crossing.beginTier_own stands fast
    exact ⟨_, stands, .opened own⟩
  | endFast saved =>
    obtain ⟨_, w₁, ended, rest⟩ := Act.bind_eq_ok.1 run
    obtain ⟨rfl, rfl⟩ := Act.pure_eq_ok.1 rest
    obtain ⟨_, w₂, finished, closed⟩ := Act.bind_eq_ok.1 ended
    have fast : Crossing.finishTier (host t) b .fast w = .ok () w₂ := finished
    replace stands := Crossing.finishTier_own stands fast
    exact ⟨_, Crossing.closeScope_own stands closed, .closed own saved⟩
  | endFastReference handle saved =>
    obtain ⟨_, ended, rfl⟩ := Act.map_eq_ok.1 run
    obtain ⟨_, w₁, finished, ended⟩ := Act.bind_eq_ok.1 ended
    have fast : Crossing.finishTier (host t) b .fast w = .ok () w₁ := finished
    replace stands := Crossing.finishTier_own stands fast
    obtain ⟨_, w₂, traced, given⟩ := Act.bind_eq_ok.1 ended
    replace stands :=
      Crossing.Keeps.of_ok (Crossing.traceExit_passes b ((host t).keeps_note _)) traced stands
    exact ⟨_, Crossing.referenceResult_own stands given, .closed own saved⟩
  | beginCritical | endCritical => exact still (Crossing.checkTier_passes b .critical) run
  | beginMethod method =>
    obtain ⟨saved, began, rfl⟩ := Act.map_eq_ok.1 run
    obtain ⟨rfl, -, stands⟩ := Crossing.beginMethod_own stands began
    exact ⟨_, stands, own.run_within method.tier⟩
  | endMethod method saved registers =>
    obtain ⟨_, ended, rfl⟩ := Act.map_eq_ok.1 run
    exact ⟨_, Crossing.endMethod_own stands ended, own.run_closing method.tier saved⟩
  | openScope =>
    obtain ⟨saved, opened, rfl⟩ := Act.map_eq_ok.1 run
    obtain ⟨rfl, stands⟩ := Crossing.openScope_own stands opened
    exact ⟨_, stands, .opened own⟩
  | closeScope checked saved =>
    obtain ⟨_, w₁, closed, rest⟩ := Act.bind_eq_ok.1 run
    obtain ⟨rfl, rfl⟩ := Act.pure_eq_ok.1 rest
    exact ⟨_, Crossing.closeScope_own stands closed, .closed own saved⟩
  | lock o =>
    exact still (Crossing.lock_passes o (fun _ => host_keeps_own _ rfl) (host_keeps_own _ rfl)) run
  | unlock o =>
    exact still (Crossing.unlock_passes o (fun _ => host_keeps_own _ rfl) (host_keeps_own _ rfl)
      (host_keeps_own _ rfl)) run
  | wayIn tier =>
    obtain ⟨_, w₁, gone, rest⟩ := Act.bind_eq_ok.1 run
    obtain ⟨rfl, rfl⟩ := Act.pure_eq_ok.1 rest
    cases tier with
    | normal => exact ⟨_, (Crossing.leaveManaged_own stands gone).2.2, .nil _⟩
    | fast | critical =>
      obtain ⟨-, rfl⟩ := Act.pure_eq_ok.1 gone
      exact ⟨own, stands, .nil _⟩
  | wayOut tier =>
    obtain ⟨_, w₁, back, rest⟩ := Act.bind_eq_ok.1 run
    obtain ⟨rfl, rfl⟩ := Act.pure_eq_ok.1 rest
    cases tier with
    | normal => exact ⟨_, Crossing.returnToManaged_own stands back, .nil _⟩
    | fast =>
      have honouring : Crossing.Keeps (Stands t own) (Crossing.honourSuspend (host t)) :=
        Crossing.honourSuspend_passes (host_keeps_own _ rfl) fun _ _ met => met
      exact ⟨own, honouring.of_ok back stands, .nil _⟩
    | critical =>
      obtain ⟨-, rfl⟩ := Act.pure_eq_ok.1 back
      exact ⟨own, stands, .nil _⟩
  | verifyTier tier => exact still (Crossing.verifyTier_passes tier) run
  | refreshClass o =>
    obtain ⟨_, refreshed, rfl⟩ := Act.map_eq_ok.1 run
    have refreshing : Crossing.Keeps (Stands t own) (Crossing.refreshClass (host t) o) :=
      Crossing.refreshClass_passes o (host_keeps_own _ rfl) (host_keeps_own _ rfl)
    exact ⟨own, refreshing.of_ok refreshed stands, .nil _⟩
  | protect slot =>
    obtain ⟨_, kept, rfl⟩ := Act.map_eq_ok.1 run
    exact ⟨own, (Crossing.protecting_keeps_own fun _ => .stay ()).of_ok kept stands, .nil _⟩

namespace Call

theorem addLocal_moves {o : ObjectId} {handle : Handle} {m m' : Machine} (stands : Stands t own m)
    (run : Machine.addLocal t o m = .ok handle m') :
    ∃ own', Stands t own' m' ∧ LocalRun own.localPart [.given handle o] own'.localPart := by
  obtain ⟨own', stands', added, -, -⟩ := addLocal_own stands run
  have locals : (m.thread t).locals = own.locals := stands.view Thread.locals fun _ => rfl
  obtain ⟨genuine, -⟩ := Machine.addLocal_eq_ok.1 run
  rw [locals] at genuine
  refine ⟨own', stands', .cons genuine.symm ?_⟩
  have after : own'.localPart = (LocalMove.given handle o).after own.localPart := by
    have table : own'.locals = (own.locals.add o).2 := congrArg LocalTable.mk added.locals
    rw [Thread.localPart, table, added.base]
    rfl
  rw [after]
  exact .nil _

theorem plain_moves {first : Instruction} (plain : first.isCall = false)
    (stands : Stands t own w.state) (run : perform b t first w = .ok u w') :
    ∃ own', Stands t own' w'.state ∧
      LocalRun own.localPart (movesBy b t first w) own'.localPart := by
  have does := perform_does plain run
  cases first with
  | call method receiver body registers => exact does.elim
  | newObject className =>
    obtain ⟨handle, added⟩ := does
    have made : Machine.newObject t className w.state = .ok handle w'.state := added
    simp only [movesBy, made]
    exact addLocal_moves (stands.onHeap _) added
  | newLocal o =>
    obtain ⟨handle, added⟩ := does
    simp only [movesBy, added]
    exact addLocal_moves stands added
  | throw exception =>
    rw [← does]
    exact ⟨own, stands.setPending (some exception), .nil _⟩
  | enterMonitor o => exact ⟨_, stands.nativeEnter does, .nil _⟩
  | exitMonitor o =>
    obtain ⟨_, stands⟩ := stands.nativeExitOrThrow does
    exact ⟨_, stands, .nil _⟩
  | heap step =>
    rw [← does]
    exact ⟨own, stands.onHeap _, .nil _⟩
  | toManaged => exact ⟨_, (stands.toManaged does).2, .nil _⟩
  | toNative => exact ⟨_, (stands.toNative does).2, .nil _⟩

/-- A body makes its moves, from every start. -/
def Makes (b : Boundary) (t : ThreadId) (body : List Instruction) : Prop :=
  ∀ {own : Thread} {w w' : MachineWorld} {u : Unit}, Stands t own w.state →
    performAll b t body w = .ok u w' →
    ∃ own', Stands t own' w'.state ∧ LocalRun own.localPart (moves b t body w) own'.localPart

theorem call_moves {method : Method} {receiver : Option ObjectId} {body : List Instruction}
    {registers : Registers} {result : CallResult ObjectId} (makes : Makes b t body)
    (stands : Stands t own w.state)
    (run : invoke b t method receiver body registers w = .ok result w') :
    ∃ own', Stands t own' w'.state ∧
      LocalRun own.localPart (movesBy b t (.call method receiver body registers) w)
        own'.localPart := by
  obtain ⟨entry, started, entering, run⟩ := Act.bind_eq_ok.1 run
  obtain ⟨_, ended, performed, leaving⟩ := Act.bind_eq_ok.1 run
  obtain ⟨saved, -, stands⟩ := enter_own stands entering
  obtain ⟨inner, stands, inside⟩ := makes stands performed
  have opening := own.run_entered method receiver
  rw [← saved] at opening
  simp only [movesBy, entering]
  exact ⟨_, leave_own stands leaving,
    (opening.append inside).append (inner.run_left method entry.saved)⟩

theorem performAll_moves (body : List Instruction) : Makes b t body := by
  -- On the body of a call first: its moves are known when the ones around it are put together.
  induction body using Instruction.bodyInduction with
  | nil =>
    intro own w w' u stands run
    simp only [performAll] at run
    obtain ⟨-, rfl⟩ := Act.pure_eq_ok.1 run
    exact ⟨own, stands, .nil _⟩
  | plain first rest plain ih =>
    intro own w w' u stands run
    simp only [performAll] at run
    obtain ⟨_, between, doing, run⟩ := Act.bind_eq_ok.1 run
    obtain ⟨own₁, stands, before⟩ := plain_moves plain stands doing
    obtain ⟨own', stands, after⟩ := ih stands run
    simp only [moves, doing]
    exact ⟨own', stands, before.append after⟩
  | call method receiver body registers rest makes ih =>
    intro own w w' u stands run
    simp only [performAll] at run
    obtain ⟨_, between, doing, run⟩ := Act.bind_eq_ok.1 run
    obtain ⟨result, invoked⟩ := perform_call doing
    obtain ⟨own₁, stands, before⟩ := call_moves makes stands invoked
    obtain ⟨own', stands, after⟩ := ih stands run
    simp only [moves, doing]
    exact ⟨own', stands, before.append after⟩

theorem perform_moves {first : Instruction} (stands : Stands t own w.state)
    (run : perform b t first w = .ok u w') :
    ∃ own', Stands t own' w'.state ∧
      LocalRun own.localPart (movesBy b t first w) own'.localPart := by
  cases call : first.isCall with
  | false => exact plain_moves call stands run
  | true =>
    cases first with
    | call method receiver body registers =>
      obtain ⟨result, invoked⟩ := perform_call run
      exact call_moves (performAll_moves body) stands invoked
    | _ => cases call

/-! ## Calls are scopes -/

theorem balanced_scope {inside : List (LocalMove ObjectId)} (balanced : Balanced inside)
    (tier : Tier) (saved : ScopeMark) :
    Balanced (tier.opening saved ++ inside ++ tier.closing saved) := by
  unfold Tier.opening Tier.closing
  cases tier.opensScope with
  | true => exact .scope saved balanced .nil
  | false => simpa using balanced

/-- The moves of a body close the scopes that they open, whatever calls there are in it. -/
theorem balanced_moves (body : List Instruction) :
    ∀ {w w' : MachineWorld} {u : Unit}, performAll b t body w = .ok u w' →
      Balanced (moves b t body w) := by
  induction body using Instruction.bodyInduction with
  | nil =>
    intro w w' u _
    exact .nil
  | plain first rest plain ih =>
    intro w w' u run
    simp only [performAll] at run
    obtain ⟨_, between, doing, run⟩ := Act.bind_eq_ok.1 run
    have single : Balanced (movesBy b t first w) := by
      cases first with
      | newObject className =>
        simp only [movesBy]
        cases Machine.newObject t className w.state with
        | ok handle _ => exact .given handle _ .nil
        | error _ _ => exact .nil
      | newLocal o =>
        simp only [movesBy]
        cases Machine.addLocal t o w.state with
        | ok handle _ => exact .given handle o .nil
        | error _ _ => exact .nil
      | call method receiver body registers => cases plain
      | _ => exact .nil
    simp only [moves, doing]
    exact single.append (ih run)
  | call method receiver body registers rest inner ih =>
    intro w w' u run
    simp only [performAll] at run
    obtain ⟨_, between, doing, run⟩ := Act.bind_eq_ok.1 run
    obtain ⟨result, invoked⟩ := perform_call doing
    obtain ⟨entry, started, entering, invoked⟩ := Act.bind_eq_ok.1 invoked
    obtain ⟨_, ended, performed, leaving⟩ := Act.bind_eq_ok.1 invoked
    have single : Balanced (movesBy b t (.call method receiver body registers) w) := by
      simp only [movesBy, entering]
      exact balanced_scope (inner performed) method.tier entry.saved
    simp only [moves, doing]
    exact single.append (ih run)

end Call

/-! ## Histories -/

namespace Operation

theorem run_moves {operation : Operation} (isOf : operation.IsOf t) (stands : Stands t own w.state)
    (run : operation.perform b w = .ok u w') :
    ∃ own', Stands t own' w'.state ∧
      LocalRun own.localPart (operation.moves b w) own'.localPart := by
  cases operation with
  | detach t' => exact isOf.elim
  | toNative t' =>
    obtain rfl := Option.some.inj isOf
    exact ⟨_, (stands.toNative (state_of_run run)).2, .nil _⟩
  | toManaged t' =>
    obtain rfl := Option.some.inj isOf
    exact ⟨_, (stands.toManaged (state_of_run run)).2, .nil _⟩
  | checkSuspend t' =>
    obtain rfl := Option.some.inj isOf
    exact ⟨own, stands.checkSuspend (state_of_run run), .nil _⟩
  | cross t' passage =>
    obtain rfl := Option.some.inj isOf
    obtain ⟨result, crossed⟩ := Act.drop_eq_ok.1 run
    simp only [moves, crossed]
    exact passage.run_moves stands crossed
  | invoke t' method receiver body registers =>
    obtain rfl := Option.some.inj isOf
    obtain ⟨result, invoked⟩ := Act.drop_eq_ok.1 run
    exact Call.call_moves (Call.performAll_moves body) stands invoked
  | enter t' method receiver =>
    obtain rfl := Option.some.inj isOf
    obtain ⟨entry, entered⟩ := Act.drop_eq_ok.1 run
    obtain ⟨saved, -, stands⟩ := Call.enter_own stands entered
    simp only [moves, entered, saved]
    exact ⟨_, stands, own.run_entered method receiver⟩
  | leave t' method saved registers =>
    obtain rfl := Option.some.inj isOf
    obtain ⟨result, left⟩ := Act.drop_eq_ok.1 run
    exact ⟨_, Call.leave_own stands left, own.run_left method saved⟩
  | native t' instruction =>
    obtain rfl := Option.some.inj isOf
    exact Call.perform_moves stands run
  | enterMonitor t' o =>
    obtain rfl := Option.some.inj isOf
    exact ⟨own, stands.enterMonitor (state_of_run run), .nil _⟩
  | exitMonitor t' o =>
    obtain rfl := Option.some.inj isOf
    obtain ⟨exited, run⟩ := Act.drop_eq_ok.1 run
    exact ⟨own, stands.exitMonitor (state_of_run run), .nil _⟩
  | attach | requestPause | beginPause | endPause | contend | joinWaiting | heap =>
    cases (show none = some t from isOf)

theorem run_movesAll (history : List Operation) (isOf : ∀ operation ∈ history, operation.IsOf t) :
    ∀ {own : Thread} {w : MachineWorld}, Stands t own w.state →
      performAll b history w = .ok u w' →
      ∃ own', Stands t own' w'.state ∧
        LocalRun own.localPart (movesAll b history w) own'.localPart := by
  induction history with
  | nil =>
    intro own w stands run
    obtain ⟨-, rfl⟩ := Act.pure_eq_ok.1 run
    exact ⟨own, stands, .nil _⟩
  | cons first rest ih =>
    intro own w stands run
    obtain ⟨_, between, doing, run⟩ := Act.bind_eq_ok.1 run
    obtain ⟨own₁, stands, before⟩ := run_moves (isOf first List.mem_cons_self) stands doing
    obtain ⟨own', stands, after⟩ :=
      ih (fun operation member => isOf operation (List.mem_cons_of_mem first member)) stands run
    simp only [movesAll, doing]
    exact ⟨own', stands, before.append after⟩

end Operation

/-- From an empty table, whatever operations of the thread follow, a handle leads to nothing or to
the object for which it was returned last; once a scope is closed, a handle returned in it leads to
nothing until it is returned again; and as long as only whole scopes come and go, a handle leads to
the object for which it was returned. -/
theorem handle_leads_to_last_given (history : List Operation) {w₀ : MachineWorld}
    (attached : (w₀.state.thread? t).isSome) (empty : (w₀.state.thread t).locals = {})
    (isOf : ∀ operation ∈ history, operation.IsOf t)
    (fits : FitsAll (w₀.state.thread t).localPart (Operation.movesAll b history w₀))
    (run : Operation.performAll b history w₀ = .ok u w) :
    let moves := Operation.movesAll b history w₀
    let decode := fun h => (host t).decode h w.state
    (∀ h found, decode h = some found → lastGiven moves h = some found) ∧
      (∀ before inside after saved saved' h object found,
        moves = before ++ (.opened saved :: inside ++ .closed saved' :: after) →
        Balanced inside → .given h object ∈ inside → decode h = some found →
        .given h found ∈ after) ∧
      ∀ before after h object, moves = before ++ .given h object :: after → Balanced after →
        decode h = some object := by
  intro moves decode
  obtain ⟨found, here⟩ := Option.isSome_iff_exists.1 attached
  have stands : Stands t found.own w₀.state := by
    rw [Stands, here, Option.map_some]
  have part : found.own.localPart = (w₀.state.thread t).localPart := by
    rw [Machine.thread, here]
    rfl
  obtain ⟨own', stands', ran⟩ := Operation.run_movesAll history isOf stands run
  rw [part] at ran
  have decoding : ∀ h, decode h = own'.localPart.table.get? h := by
    intro h
    have locals : (w.state.thread t).locals = own'.locals := stands'.view Thread.locals fun _ => rfl
    exact congrArg (LocalTable.get? · h) locals
  -- The rest is about tables and moves only.
  refine ⟨fun h found leads => ?_, ?_, ?_⟩
  · rw [decoding] at leads
    exact ran.lastGiven_of_leads empty fits leads
  · intro before inside after saved saved' h object found parts balanced member leads
    rw [decoding] at leads
    rw [show Operation.movesAll b history w₀ = _ from parts] at ran fits
    exact ran.given_after_scope fits balanced member leads
  · intro before after h object parts balanced
    rw [decoding]
    rw [show Operation.movesAll b history w₀ = _ from parts] at ran fits
    exact ran.leads_of_balanced fits balanced

def oneThread : Machine where
  heap := ({} : Heap).after [.allocate "A", .allocate "B"]
  lock := { claims := 1 }
  threads := [{ id := ⟨1⟩, name := "main", state := .managed, holdsShare := true }]

/-- A reference is added in a scope that is then closed.  Another one is added, and a call adds one
of its own. -/
def givenOutAgain : List Operation :=
  [ .cross ⟨1⟩ .openScope, .native ⟨1⟩ (.newLocal ⟨0⟩), .cross ⟨1⟩ (.closeScope false ⟨0⟩),
    .native ⟨1⟩ (.newLocal ⟨1⟩),
    .invoke ⟨1⟩ { className := "A", name := "touch", shorty := "V", tier := .normal } none
      [.newLocal ⟨0⟩] {} ]

theorem moves_givenOutAgain :
    Operation.movesAll {} givenOutAgain { state := oneThread } =
      [ .opened ⟨0⟩, .given ⟨1⟩ ⟨0⟩, .closed ⟨0⟩, .given ⟨1⟩ ⟨1⟩, .opened ⟨0⟩, .given ⟨2⟩ ⟨0⟩,
        .closed ⟨0⟩ ] := by
  decide +kernel

theorem performAll_givenOutAgain :
    ∃ w, Operation.performAll {} givenOutAgain { state := oneThread } = .ok () w ∧
      (host ⟨1⟩).decode ⟨1⟩ w.state = some ⟨1⟩ := by
  have outcome : (Operation.performAll {} givenOutAgain).gives { state := oneThread }
      (fun _ w => (host ⟨1⟩).decode ⟨1⟩ w.state = some ⟨1⟩) = true := by
    decide +kernel
  obtain ⟨_, w, run, passed⟩ := Act.exists_of_gives outcome
  exact ⟨w, run, of_decide_eq_true passed⟩

/-- The second reference took the handle of the first, and the one of the call is gone. -/
theorem handle_leads_to_last_given_again :
    ∃ w, Operation.performAll {} givenOutAgain { state := oneThread } = .ok () w ∧
      (host ⟨1⟩).decode ⟨1⟩ w.state = some ⟨1⟩ ∧ (host ⟨1⟩).decode ⟨2⟩ w.state = none := by
  obtain ⟨w, run, -⟩ := performAll_givenOutAgain
  have moves := moves_givenOutAgain
  obtain ⟨last, closed, kept⟩ := handle_leads_to_last_given (t := ⟨1⟩) givenOutAgain rfl rfl
    (by decide) (by rw [moves]; decide) run
  have inCall : Balanced [LocalMove.given ⟨2⟩ (⟨0⟩ : ObjectId)] := .given _ _ .nil
  refine ⟨w, run, ?_, ?_⟩
  · exact kept [.opened ⟨0⟩, .given ⟨1⟩ ⟨0⟩, .closed ⟨0⟩] _ ⟨1⟩ ⟨1⟩ moves (.scope ⟨0⟩ inCall .nil)
  · refine Option.eq_none_iff_forall_ne_some.2 fun found leads => ?_
    have again := closed
      [.opened ⟨0⟩, .given ⟨1⟩ ⟨0⟩, .closed ⟨0⟩, .given ⟨1⟩ ⟨1⟩] [.given ⟨2⟩ ⟨0⟩] [] ⟨0⟩ ⟨0⟩
      ⟨2⟩ ⟨0⟩ found moves inCall List.mem_cons_self leads
    cases again

/-- A handle can lead to another object than the one for which it was returned first, and to an
object although the scope in which it was returned is closed. -/
theorem handle_leads_elsewhere :
    (¬ ∀ (history : List Operation) (w : MachineWorld) (h : Handle) (object found : ObjectId),
      (∀ operation ∈ history, operation.IsOf ⟨1⟩) →
      Operation.performAll {} history { state := oneThread } = .ok () w →
      .given h object ∈ Operation.movesAll {} history { state := oneThread } →
      (host ⟨1⟩).decode h w.state = some found → found = object) ∧
    ¬ ∀ (history : List Operation) (w : MachineWorld)
        (before inside after : List (LocalMove ObjectId)) (saved : ScopeMark) (h : Handle)
        (object : ObjectId),
      (∀ operation ∈ history, operation.IsOf ⟨1⟩) →
      Operation.performAll {} history { state := oneThread } = .ok () w →
      Operation.movesAll {} history { state := oneThread } =
        before ++ (.opened saved :: inside ++ .closed saved :: after) →
      Balanced inside → .given h object ∈ inside → (host ⟨1⟩).decode h w.state = none := by
  obtain ⟨w, run, leads⟩ := performAll_givenOutAgain
  have moves := moves_givenOutAgain
  constructor
  · intro always
    have same := always givenOutAgain w ⟨1⟩ ⟨0⟩ ⟨1⟩ (by decide) run (by rw [moves]; decide) leads
    cases same
  · intro always
    have inScope : Balanced [LocalMove.given ⟨1⟩ (⟨0⟩ : ObjectId)] := .given _ _ .nil
    have nothing := always givenOutAgain w [] [.given ⟨1⟩ ⟨0⟩] _ ⟨0⟩ ⟨1⟩ ⟨0⟩ (by decide) run moves
      inScope List.mem_cons_self
    rw [leads] at nothing
    cases nothing

end Moves

end NativeBoundary
