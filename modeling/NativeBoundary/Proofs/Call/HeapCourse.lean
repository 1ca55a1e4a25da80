import NativeBoundary.Proofs.Call.Lasting
import NativeBoundary.Proofs.Call.Locking
import NativeBoundary.Proofs.Call.Course

/-!
# The heap in the course of a call

Whatever a body does, and whatever the calls in it do at their thresholds, the heap afterwards has
come from the heap before by moves, frees, allocations and uses of monitors.  So a class that is in
the table at the start of a body is in it at the end.
-/

set_option autoImplicit false

namespace NativeBoundary

variable {t : ThreadId}

theorem Machine.leads_of_exitMonitor {o : ObjectId} {exited : Except Throwable Unit}
    {m m' : Machine} (run : exitMonitor t o m = .ok exited m') : Heap.Leads m.heap m'.heap := by
  obtain ⟨monitor, exited, -, rfl⟩ | ⟨_, -, -, rfl⟩ := exitMonitor_eq_ok.1 run
  · exact .single (.exit m.heap t o monitor exited)
  · exact .refl

theorem Machine.host_keeps_leads (h : Heap) (deed : Deed ObjectId Throwable) :
    (Machine.host t).Keeps (fun m => Heap.Leads h m.heap) deed := by
  refine .of_does fun m m' leads does => ?_
  cases deed with
  | enterMonitor o =>
    obtain ⟨_, run⟩ := does
    obtain ⟨monitor, entered, rfl⟩ :=
      enterMonitor_eq_ok.1 (host_enterMonitor_eq_ok.1 run).2.2
    exact leads.tail (.enter m.heap t o monitor entered)
  | exitMonitor o =>
    obtain ⟨_, run⟩ := does
    exact leads.trans (leads_of_exitMonitor run)
  | _ =>
    have quiet := (host_keeps_quiet m.heap _ rfl m [] (.refl _) trivial).2 m' does
    exact leads.trans quiet.leads

theorem Instruction.leads_of_does {first : Instruction} {m m' : Machine}
    (does : first.Does t m m') : Heap.Leads m.heap m'.heap := by
  cases first with
  | call method receiver body registers => exact does.elim
  | newObject className =>
    obtain ⟨handle, added⟩ := does
    rw [← (Machine.addLocal_eq_ok.1 added).2]
    exact .single (.step _ (.allocate className))
  | newLocal o =>
    obtain ⟨handle, added⟩ := does
    rw [← (Machine.addLocal_eq_ok.1 added).2]
    exact .refl
  | throw exception =>
    rw [← does]
    exact .refl
  | heap step =>
    rw [← does]
    exact .single (.step _ step)
  | enterMonitor o =>
    obtain ⟨between, entered, after⟩ := Machine.nativeEnter_eq_ok.1 does
    obtain ⟨monitor, granted, rfl⟩ := Machine.enterMonitor_eq_ok.1 entered
    rw [← after]
    exact .single (.enter _ t o monitor granted)
  | exitMonitor o =>
    obtain ⟨between, ⟨exit, after⟩ | ⟨exception, exit, after⟩⟩ :=
      Machine.nativeExitOrThrow_of_ok does
    all_goals
      have leads := Machine.leads_of_exitMonitor exit
      rw [← after]
      exact leads
  | toManaged => rw [Machine.heap_of_toManaged does]
  | toNative => rw [Machine.heap_of_toNative does]

theorem Machine.lasts_leads (h : Heap) : Machine.Lasts t fun m => Heap.Leads h m.heap where
  deed := host_keeps_leads h
  pushed _ _ leads := leads
  popped _ leads := leads
  plain _ _ _ leads does := leads.trans (Instruction.leads_of_does does)

namespace Call

variable {b : Boundary} {w w' : MachineWorld}

theorem enter_leads {method : Method} {receiver : Option ObjectId} {entry : Started}
    (run : enter b t method receiver w = .ok entry w') :
    Heap.Leads w.state.heap w'.state.heap :=
  enter_lasts (Machine.lasts_leads w.state.heap) run .refl

theorem performAll_leads (body : List Instruction) {u : Unit}
    (run : performAll b t body w = .ok u w') : Heap.Leads w.state.heap w'.state.heap :=
  performAll_lasts (Machine.lasts_leads w.state.heap) body run .refl

end Call

/-! ## The object that a call locks -/

namespace Heap

variable {h h' : Heap}

theorem lookup_of_leads (sound : Sound h) (leads : Leads h h') {className : String} {o : ObjectId}
    (named : h.classes.lookup className = some o) :
    ∃ o', h'.classes.lookup className = some o' := by
  obtain ⟨i, face⟩ := sound.table className o named
  obtain ⟨o', later, -⟩ :=
    (Leads.sound leads sound).shared o _ ((Leads.extends leads).face? face) rfl
  exact ⟨o', later⟩

/-- A call finds the object to lock without a first use of its class. -/
def Locates (h : Heap) (method : Method) (receiver : Option ObjectId) (target : ObjectId) : Prop :=
  if method.isStatic then h.classes.lookup method.className = some target
  else receiver = some target

variable {method : Method} {receiver : Option ObjectId} {target : ObjectId}

theorem locates_of_leads (sound : Sound h) (leads : Leads h h')
    (located : h.Locates method receiver target) : ∃ later, h'.Locates method receiver later := by
  unfold Locates at *
  cases isStatic : method.isStatic with
  | true =>
    simp only [isStatic, if_true] at located ⊢
    exact lookup_of_leads sound leads located
  | false =>
    simp only [isStatic, Bool.false_eq_true, if_false] at located ⊢
    exact ⟨target, located⟩

theorem Locates.lockTarget? (located : h.Locates method receiver target) :
    h.lockTarget? method receiver = some target := by
  unfold Locates at located
  unfold Heap.lockTarget? classObject
  split at located
  · next isStatic => simp [isStatic, located]
  · next isInstance => simp [isInstance, located]

end Heap

theorem Call.locates_of_enter {b : Boundary} {own : Thread} {w w' : MachineWorld} {method : Method}
    {receiver : Option ObjectId} {entry : Started} (isSynchronized : method.isSynchronized = true)
    (sound : w.state.heap.Sound) (stands : Machine.Stands t own w.state)
    (run : enter b t method receiver w = .ok entry w') :
    ∃ target, w'.state.heap.Locates method receiver target := by
  obtain ⟨_, w₁, pushed, run⟩ := Act.bind_eq_ok.1 run
  obtain ⟨_, w₂, found, run⟩ := Act.bind_eq_ok.1 run
  obtain ⟨stands, quiet, -, -⟩ := prepared stands pushed found
  obtain ⟨mark, w₃, begun, run⟩ := Act.bind_eq_ok.1 run
  obtain ⟨-, rfl⟩ := Act.pure_eq_ok.1 run
  rw [Crossing.beginMethod_eq_seekLock] at begun
  obtain ⟨target, w₄, sought, begun⟩ := Act.bind_eq_ok.1 begun
  obtain ⟨_, w₅, checked, sought⟩ := Act.bind_eq_ok.1 sought
  obtain ⟨-, rfl⟩ := (Crossing.checkSynchronizedTier_eq_ok b).1 checked
  rw [isSynchronized, if_pos rfl] at sought
  obtain ⟨o, resolved, rfl⟩ := Act.map_eq_ok.1 sought
  have located : w₄.state.heap.Locates method receiver o :=
    Crossing.lockObject_finds stands rfl resolved
  have sound₄ := Heap.Leads.sound (Crossing.lockObject_quiet resolved).leads
    (Heap.Leads.sound quiet.leads sound)
  obtain ⟨_, w₆, locked, begun⟩ := Act.bind_eq_ok.1 begun
  have locking := (Crossing.lock_passes o (fun _ => Machine.host_keeps_leads _ _)
    (Machine.host_keeps_leads (t := t) w₄.state.heap _)).of_ok locked .refl trivial
  exact Heap.locates_of_leads sound₄ (locking.1.trans (beginTier_quiet begun).leads) located

end NativeBoundary
