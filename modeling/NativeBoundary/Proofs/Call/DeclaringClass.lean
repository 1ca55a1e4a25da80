import NativeBoundary.Proofs.Call.Threshold
import NativeBoundary.Proofs.Machine.CurrentCopies

/-!
# The class that a static method is given

A class object is kept when a method is registered, and may have been moved by the time the method
is called.  A crossing brings it up to date before the body starts, by way of its pointers, which
end at the class object of its name.  Where a set mark bit proves a reference current there is a
shortcut, and it is not sound: a copy keeps its mark bit when it is moved, so a class that was
marked and then moved is taken for current.
-/

set_option autoImplicit false

namespace NativeBoundary

namespace Heap

variable {h : Heap} {o : ObjectId} {className : String}

/-- What a crossing gives for a copy of a class object: a marked copy as it is, where a set mark bit
proves a reference current, and the class object of the name otherwise.  That is the current copy
unless the marked one has been moved. -/
structure Serves (h : Heap) (o : ObjectId) (className : String) (given : ObjectId) : Prop where
  shortcut : h.marksProveCurrent = true → h.isMarked o = true → given = o
  current : given = (h.classObject className).1 ∧ h.pointer? given = none ↔
    ¬ (h.marksProveCurrent = true ∧ h.isMarked o = true ∧ h.pointer? o ≠ none)

theorem Tracked.serves (tracked : Tracked h) {monitor : MonitorId}
    (found : h.face? o = some ⟨className, true, monitor⟩) :
    h.Serves o className
      (if h.marksProveCurrent && h.isMarked o then o else (h.classObject className).1) := by
  obtain ⟨-, unmoved⟩ := tracked.currentCopy?_class found
  have current := tracked.current o _ found rfl
  cases taken : h.marksProveCurrent && h.isMarked o with
  | false =>
    have notTaken : ¬ (h.marksProveCurrent = true ∧ h.isMarked o = true) := by
      rw [← Bool.and_eq_true, taken]
      exact Bool.false_ne_true
    refine ⟨fun proves marked => absurd ⟨proves, marked⟩ notTaken, iff_of_true ?_ ?_⟩
    · exact ⟨rfl, unmoved⟩
    · exact fun ⟨proves, marked, _⟩ => notTaken ⟨proves, marked⟩
  | true =>
    obtain ⟨proves, marked⟩ := Bool.and_eq_true_iff.1 taken
    refine ⟨fun _ _ => rfl, ?_⟩
    simp only [if_true, proves, marked, true_and, ne_eq, Decidable.not_not]
    constructor
    · exact And.right
    · intro pointer
      rw [classObject_of_lookup (current.1 pointer)]
      exact ⟨rfl, pointer⟩

theorem serves_classObject (unmoved : h.pointer? (h.classObject className).1 = none) :
    h.Serves (h.classObject className).1 className (h.classObject className).1 where
  shortcut _ _ := rfl
  current := iff_of_true ⟨rfl, unmoved⟩ fun ⟨_, _, moved⟩ => moved unmoved

theorem readBarrier_classObject (h : Heap) (className : String) :
    (h.step (.classObject className)).readBarrier = h.readBarrier := by
  simp only [step, classObject]
  cases h.classes.lookup className <;> rfl

/-- The class object of a name, made on first use, has not been moved. -/
theorem Tracked.classObject_unmoved (tracked : Tracked h) (className : String) :
    h.pointer? (h.classObject className).1 = none := by
  let after : Heap := h.step (.classObject className)
  have pointers : ∀ p, after.pointer? p = h.pointer? p := pointer?_step h nofun
  have kept : after.Tracked := tracked.step trivial
  have named : after.classes.lookup className = some (h.classObject className).1 :=
    h.lookup_classObject className
  obtain ⟨i, face⟩ := kept.sound.table className _ named
  rw [← pointers]
  exact (kept.current _ _ face rfl).2 named

end Heap

namespace Machine

/-- Machines that have come from an empty heap without methods through operations of a collector
that moves current copies only, and through registrations.  Whatever else happens to a machine
touches neither the copies, nor the class table, nor what is registered. -/
inductive Arises : Machine → Prop where
  | fresh {m : Machine} {readBarrier marksProveCurrent : Bool}
      (heap : m.heap = { readBarrier, marksProveCurrent }) (roots : m.registry.roots = []) :
      Arises m
  | heap {m : Machine} {step : HeapStep} (arises : Arises m) (tidy : m.heap.Tidy step) :
      Arises { m with heap := m.heap.step step }
  | register {m m' : Machine} {method : Method} {u : Unit} (arises : Arises m)
      (run : register method m = .ok u m') : Arises m'
  | elsewhere {m m' : Machine} (arises : Arises m) (leads : Heap.Leads m.heap m'.heap)
      (copies : m'.heap.copies = m.heap.copies) (classes : m'.heap.classes = m.heap.classes)
      (methods : m'.registry.methods = m.registry.methods)
      (roots : m'.registry.roots = m.registry.roots) : Arises m'

structure KeepsRoots (m : Machine) : Prop where
  tracked : m.heap.Tracked
  roots : ∀ name o, m.registry.roots.lookup name = some o →
    ∃ method i, m.registry.methods.lookup name = some method ∧
      m.heap.face? o = some ⟨method.className, true, i⟩

theorem register_of_ok {method : Method} {u : Unit} {m m' : Machine}
    (run : register method m = .ok u m') :
    m'.heap = m.heap.step (.classObject method.className) ∧
      m'.registry.methods = Registry.put method.qualifiedName method m.registry.methods ∧
      m'.registry.roots =
        Registry.put method.qualifiedName (m.heap.classObject method.className).1
          m.registry.roots := by
  obtain ⟨root, between, named, noted⟩ := Act.bind_eq_ok.1 run
  obtain ⟨rfl, rfl⟩ := onHeap_eq_ok.1 named
  obtain rfl := Act.modify_eq_ok.1 noted
  exact ⟨rfl, rfl, rfl⟩

theorem Arises.keepsRoots {m : Machine} (arises : Arises m) : KeepsRoots m := by
  induction arises with
  | fresh heap roots =>
    refine ⟨heap ▸ Heap.tracked_empty _ _, fun name o kept => ?_⟩
    rw [roots] at kept
    cases kept
  | @heap m step _ tidy ih =>
    refine ⟨ih.tracked.step tidy, fun name o kept => ?_⟩
    obtain ⟨method, i, registered, face⟩ := ih.roots name o kept
    exact ⟨method, i, registered, (Heap.shaped_step m.heap step).extends.face? face⟩
  | @register m m' method u _ run ih =>
    obtain ⟨heap, methods, roots⟩ := register_of_ok run
    have tracked : m'.heap.Tracked := by
      rw [heap]
      exact ih.tracked.step trivial
    refine ⟨tracked, fun name o kept => ?_⟩
    rw [roots, Registry.lookup_put] at kept
    rw [methods, Registry.lookup_put]
    by_cases same : name = method.qualifiedName
    · rw [if_pos same] at kept ⊢
      obtain rfl := Option.some.inj kept
      have named : m'.heap.classes.lookup method.className =
          some (m.heap.classObject method.className).1 := by
        rw [heap]
        exact m.heap.lookup_classObject method.className
      obtain ⟨i, face⟩ := tracked.sound.table _ _ named
      exact ⟨method, i, rfl, face⟩
    · rw [if_neg same] at kept ⊢
      obtain ⟨other, i, registered, face⟩ := ih.roots name o kept
      refine ⟨other, i, registered, ?_⟩
      rw [heap]
      exact (Heap.shaped_step m.heap _).extends.face? face
  | @elsewhere m m' _ leads copies classes methods roots ih =>
    have faces : m'.heap.faces = m.heap.faces := by simp only [Heap.faces, copies]
    have pointers (o : ObjectId) : m'.heap.pointer? o = m.heap.pointer? o := by
      simp only [Heap.pointer?, Heap.copy?, copies]
    refine ⟨ih.tracked.unchanged (Heap.Leads.sound leads ih.tracked.sound) faces pointers classes,
      ?_⟩
    simpa only [methods, roots, Heap.face?, faces] using ih.roots

end Machine

namespace Call

open Machine (Arises host)

variable {b : Boundary} {t : ThreadId} {w w' : MachineWorld} {method : Method}

/-- A copy of a class object is brought up to date without being stopped. -/
theorem refreshClass_serves {o : ObjectId} {className : String} {monitor : MonitorId}
    (tracked : w.state.heap.Tracked) (barriers : w.state.heap.readBarrier = true)
    (found : w.state.heap.face? o = some ⟨className, true, monitor⟩) :
    ∃ given w', Crossing.refreshClass (host t) o w = .ok given w' ∧
      w.state.heap.Serves o className given := by
  have serves := tracked.serves found
  cases taken : w.state.heap.marksProveCurrent && w.state.heap.isMarked o with
  | true =>
    obtain ⟨proves, marked⟩ := Bool.and_eq_true_iff.1 taken
    have refreshed : ∃ w', Crossing.refreshClass (host t) o w = .ok o w' :=
      Crossing.refreshClass_of_marked barriers proves marked
    rw [taken, if_pos rfl] at serves
    exact ⟨o, refreshed.choose, refreshed.choose_spec, serves⟩
  | false =>
    obtain ⟨followed, -⟩ := tracked.currentCopy?_class found
    obtain ⟨m', current⟩ := Machine.currentCopy_of_found followed
    have refreshed : ∃ w', Crossing.refreshClass (host t) o w =
        .ok (w.state.heap.classObject className).1 w' :=
      Crossing.refreshClass_of_unmarked barriers taken current
    rw [taken, if_neg Bool.false_ne_true] at serves
    exact ⟨_, refreshed.choose, refreshed.choose_spec, serves⟩

theorem knownClass_of_ok {o : ObjectId} (run : knownClass method w = .ok o w') :
    (w.state.root? method = some o ∧ w' = w) ∨
      (w.state.root? method = none ∧ o = (w.state.heap.classObject method.className).1 ∧
        w'.state.heap = w.state.heap.step (.classObject method.className)) := by
  unfold knownClass at run
  rw [Act.get_bind] at run
  cases kept : w.state.root? method with
  | some root =>
    rw [kept] at run
    obtain ⟨rfl, rfl⟩ := Act.pure_eq_ok.1 run
    exact .inl ⟨rfl, rfl⟩
  | none =>
    rw [kept] at run
    obtain ⟨m', named, rfl⟩ := Crossing.run_eq_ok.1 run
    obtain ⟨rfl, rfl⟩ := Machine.onHeap_eq_ok.1 named
    exact .inr ⟨rfl, rfl, rfl⟩

theorem refreshed_of_ok {known : ObjectId} {found : Option ObjectId}
    (barriers : w.state.heap.readBarrier = true) (run : refreshed t known w = .ok found w') :
    ∃ given, Crossing.refreshClass (host t) known w = .ok given w' ∧ found = some given := by
  unfold refreshed at run
  rw [Act.get_bind, barriers, if_pos rfl] at run
  obtain ⟨given, refreshing, rfl⟩ := Act.map_eq_ok.1 run
  exact ⟨given, refreshing, rfl⟩

/-- The class that is given to a static method, unless methods of different classes are registered
under its name. -/
theorem declaringClass_serves {found : Option ObjectId} (keeps : Machine.KeepsRoots w.state)
    (barriers : w.state.heap.readBarrier = true) (isStatic : method.isStatic = true)
    (named : ∀ other, w.state.registry.methods.lookup method.qualifiedName = some other →
      other.className = method.className)
    (run : declaringClass t method w = .ok found w') :
    ∃ given, found = some given ∧
      w.state.heap.Serves
        ((w.state.root? method).getD (w.state.heap.classObject method.className).1)
        method.className given := by
  rw [declaringClass_eq, isStatic, if_pos rfl] at run
  obtain ⟨known, w₁, knowing, rest⟩ := Act.bind_eq_ok.1 run
  obtain ⟨kept, rfl⟩ | ⟨missing, rfl, heap⟩ := knownClass_of_ok knowing
  · obtain ⟨other, i, registered, face⟩ := keeps.roots method.qualifiedName known kept
    rw [named other registered] at face
    obtain ⟨given, refreshing, rfl⟩ := refreshed_of_ok barriers rest
    obtain ⟨_, _, returned, serves⟩ := refreshClass_serves keeps.tracked barriers face
    obtain ⟨rfl, -⟩ := EStateM.Result.ok.inj (refreshing.symm.trans returned)
    rw [kept]
    exact ⟨given, rfl, serves⟩
  · -- The class object is the one of the name already, so it is given for itself.
    have tracked : w₁.state.heap.Tracked := by
      rw [heap]
      exact keeps.tracked.step trivial
    have lookup : w₁.state.heap.classes.lookup method.className =
        some (w.state.heap.classObject method.className).1 := by
      rw [heap]
      exact w.state.heap.lookup_classObject method.className
    have entry := Heap.classObject_of_lookup lookup
    obtain ⟨i, face⟩ := tracked.sound.table _ _ lookup
    have unmoved := (tracked.current _ _ face rfl).2 lookup
    have barriers₁ : w₁.state.heap.readBarrier = true := by
      rw [heap, Heap.readBarrier_classObject]
      exact barriers
    obtain ⟨given, refreshing, rfl⟩ := refreshed_of_ok barriers₁ rest
    obtain ⟨_, _, returned, serves⟩ := refreshClass_serves tracked barriers₁ face
    obtain ⟨rfl, -⟩ := EStateM.Result.ok.inj (refreshing.symm.trans returned)
    have current := (serves.current.2 fun ⟨_, _, moved⟩ => moved unmoved).1
    rw [entry] at current
    rw [missing, current]
    exact ⟨_, rfl, Heap.serves_classObject (keeps.tracked.classObject_unmoved method.className)⟩

theorem enter_declaringClass {receiver : Option ObjectId} {started : Started}
    (run : enter b t method receiver w = .ok started w') :
    ∃ w₁ w₂, w₁.state.heap = w.state.heap ∧ w₁.state.registry = w.state.registry ∧
      declaringClass t method w₁ = .ok started.declaringClass w₂ := by
  obtain ⟨_, w₁, pushing, run⟩ := Act.bind_eq_ok.1 run
  obtain ⟨found, w₂, finding, run⟩ := Act.bind_eq_ok.1 run
  obtain ⟨saved, w₃, beginning, run⟩ := Act.bind_eq_ok.1 run
  obtain ⟨rfl, rfl⟩ := Act.pure_eq_ok.1 run
  obtain ⟨m, pushed, rfl⟩ := Crossing.run_eq_ok.1 pushing
  obtain rfl := Act.modify_eq_ok.1 pushed
  refine ⟨_, w₂, ?_, ?_, finding⟩ <;> rfl

/-- On a heap that reads roots through a barrier and has only moved current copies, a crossing gives
for every copy of a class object, of whatever age, the class object of its name, which has not been
moved; but it gives a marked copy as it is, where a set mark bit proves a reference current, and
that is not the current one if it has been moved.  So it is with what is kept for methods, and with
the class that the body of a static method is given. -/
theorem class_given_current_unless_marked (arises : Arises w.state)
    (barriers : w.state.heap.readBarrier = true) (t : ThreadId) :
    (∀ o className monitor, w.state.heap.face? o = some ⟨className, true, monitor⟩ →
      ∃ given w', Crossing.refreshClass (host t) o w = .ok given w' ∧
        w.state.heap.Serves o className given) ∧
    (∀ name kept, w.state.registry.roots.lookup name = some kept →
      ∃ method given w', w.state.registry.methods.lookup name = some method ∧
        Crossing.refreshClass (host t) kept w = .ok given w' ∧
        w.state.heap.Serves kept method.className given) ∧
    ∀ (b : Boundary) (method : Method) (receiver : Option ObjectId) (started : Started)
      (w' : MachineWorld), method.isStatic = true →
      (∀ other, w.state.registry.methods.lookup method.qualifiedName = some other →
        other.className = method.className) →
      enter b t method receiver w = .ok started w' →
        ∃ given, started.declaringClass = some given ∧
          w.state.heap.Serves
            ((w.state.root? method).getD (w.state.heap.classObject method.className).1)
            method.className given := by
  have keeps := arises.keepsRoots
  refine ⟨fun o className monitor found => refreshClass_serves keeps.tracked barriers found,
    fun name kept found => ?_, fun b method receiver started w' isStatic named run => ?_⟩
  · obtain ⟨method, i, registered, face⟩ := keeps.roots name kept found
    obtain ⟨given, w', refreshed, serves⟩ := refreshClass_serves keeps.tracked barriers face
    exact ⟨method, given, w', registered, refreshed, serves⟩
  · obtain ⟨w₁, w₂, heap, registry, finding⟩ := enter_declaringClass run
    have roots : w₁.state.root? method = w.state.root? method := by
      rw [Machine.root?, registry, Machine.root?]
    have keeps₁ : Machine.KeepsRoots w₁.state := by
      refine ⟨by rw [heap]; exact keeps.tracked, ?_⟩
      rw [heap, registry]
      exact keeps.roots
    rw [← registry] at named
    rw [← heap] at barriers ⊢
    rw [← roots]
    exact declaringClass_serves keeps₁ barriers isStatic named finding

def touch : Method where
  className := "Foo"
  name := "touch"
  shorty := "V"
  tier := .normal
  isStatic := true

def attached : Machine where
  lock := { claims := 1 }
  threads := [{ id := ⟨1⟩, name := "main", state := .managed, holdsShare := true }]

def registered : Machine :=
  Act.stateOf (Machine.register touch attached)

def movedClass : Machine :=
  { registered with heap := registered.heap.step (.relocate ⟨0⟩) }

def markedClass : Machine :=
  { registered with heap := registered.heap.step (.mark ⟨0⟩) }

def markedThenMoved : Machine :=
  { markedClass with heap := markedClass.heap.step (.relocate ⟨0⟩) }

theorem arises_registered : Arises registered := by
  have run : Machine.register touch attached = .ok () registered := rfl
  exact .register (.fresh rfl rfl) run

theorem class_given_current_unless_marked_moved :
    ∃ started w', enter {} ⟨1⟩ touch none { state := movedClass } = .ok started w' ∧
      started.declaringClass = some ⟨1⟩ := by
  have current : registered.heap.pointer? ⟨0⟩ = none := by decide +kernel
  have arises : Arises movedClass := .heap arises_registered current
  have returned : (enter {} ⟨1⟩ touch none).returns { state := movedClass } = true := by
    decide +kernel
  obtain ⟨started, w', run⟩ := Act.exists_of_returns returned
  obtain ⟨-, -, bodies⟩ :=
    class_given_current_unless_marked (w := { state := movedClass }) arises rfl ⟨1⟩
  have named : ∀ other,
      movedClass.registry.methods.lookup touch.qualifiedName = some other →
        other.className = touch.className := by
    intro other found
    have only : movedClass.registry.methods.lookup touch.qualifiedName = some touch := by
      decide +kernel
    obtain rfl := Option.some.inj (only.symm.trans found)
    rfl
  obtain ⟨given, found, serves⟩ := bodies {} touch none started w' rfl named run
  have kept : movedClass.root? touch = some ⟨0⟩ := by decide +kernel
  have unmarked : movedClass.heap.isMarked ⟨0⟩ = false := by decide +kernel
  have entry : (movedClass.heap.classObject touch.className).1 = ⟨1⟩ := by decide +kernel
  rw [kept] at serves
  have latest := (serves.current.2 fun ⟨_, marked, _⟩ => by simp_all).1
  rw [entry] at latest
  exact ⟨started, w', run, latest ▸ found⟩

/-- A static method is given a class object that is not the current one, although the collector
moved current copies only: the class was marked when it was moved. -/
theorem marked_class_given_stale :
    ¬ ∀ (m : Machine) (started : Started) (w' : MachineWorld), Arises m →
      m.heap.readBarrier = true → m.registry.methods.lookup touch.qualifiedName = some touch →
      enter {} ⟨1⟩ touch none { state := m } = .ok started w' →
      started.declaringClass = some (m.heap.classObject touch.className).1 := by
  intro always
  have current : markedClass.heap.pointer? ⟨0⟩ = none := by decide +kernel
  have arises : Arises markedThenMoved := .heap (.heap arises_registered trivial) current
  have outcome : (enter {} ⟨1⟩ touch none).gives { state := markedThenMoved } (fun started _ =>
      started.declaringClass = some ⟨0⟩) = true := by
    decide +kernel
  obtain ⟨started, w', run, old⟩ := Act.exists_of_gives outcome
  have given := always markedThenMoved started w' arises rfl (by decide +kernel) run
  have latest : (markedThenMoved.heap.classObject touch.className).1 = ⟨1⟩ := by decide +kernel
  rw [of_decide_eq_true old, latest] at given
  cases given

end Call

end NativeBoundary
