import NativeBoundary.Proofs.Call.DeclaringClass
import NativeBoundary.Proofs.Call.HeapCourse

/-!
# The class that is kept for a method

A class object is kept for each method that is registered, under the name of the method: the name of
its class, a period, and its own name.  Two methods of different classes can have one such name, and
then the class object of the one that was registered last is kept for both, through all moves of it.
-/

set_option autoImplicit false

namespace NativeBoundary

/-- A class can be read off a qualified name where the method's own name has no period. -/
theorem Method.className_of_qualifiedName {method other : Method}
    (plain : '.' ∉ method.name.toList) (otherPlain : '.' ∉ other.name.toList)
    (same : other.qualifiedName = method.qualifiedName) : other.className = method.className := by
  have joined : other.className.toList ++ '.' :: other.name.toList =
      method.className.toList ++ '.' :: method.name.toList := by
    simpa [qualifiedName] using congrArg String.toList same
  -- Were one class name longer than the other, the rest of it would be part of a method's own name.
  obtain ⟨rest, longer, own⟩ | ⟨rest, longer, own⟩ := List.append_eq_append_iff.1 joined
  · cases rest with
    | nil => exact String.toList_inj.1 (by simpa using longer.symm)
    | cons first rest =>
      rw [List.cons_append, List.cons.injEq] at own
      exact absurd (by simp [own.2]) otherPlain
  · cases rest with
    | nil => exact String.toList_inj.1 (by simpa using longer)
    | cons first rest =>
      rw [List.cons_append, List.cons.injEq] at own
      exact absurd (by simp [own.2]) plain

namespace Heap

variable {h h' : Heap} {o last : ObjectId} {className : String}

theorem Reachable.leads (reachable : Reachable h) (leads : Leads h h') : Reachable h' := by
  obtain ⟨readBarrier, marksProveCurrent, history⟩ := reachable
  exact ⟨readBarrier, marksProveCurrent, history.trans leads⟩

def IsClassObject (h : Heap) (o : ObjectId) (className : String) : Prop :=
  ∃ monitor, h.face? o = some ⟨className, true, monitor⟩

theorem IsClassObject.later (isClass : h.IsClassObject o className) (leads : Leads h h') :
    h'.IsClassObject o className := by
  obtain ⟨monitor, face⟩ := isClass
  exact ⟨monitor, (Leads.extends leads).face? face⟩

theorem IsClassObject.current (isClass : h.IsClassObject o className) (aligned : Aligned h)
    (found : h.currentCopy? o = some last) : h.IsClassObject last className := by
  obtain ⟨monitor, face⟩ := isClass
  exact ⟨monitor, (aligned.face?_of_follow _ o found).trans face⟩

theorem IsClassObject.unique {other : String} (isClass : h.IsClassObject o className)
    (again : h.IsClassObject o other) : other = className := by
  obtain ⟨_, face⟩ := isClass
  obtain ⟨_, same⟩ := again
  rw [face] at same
  cases same
  rfl

end Heap

namespace Machine

/-- Machines on which these methods have been registered, the last one first.  The heap may have
come from an empty one in any way, and whatever else happens leaves what is kept for methods. -/
inductive Enrolled : List Method → Machine → Prop where
  | fresh {m : Machine} (reachable : m.heap.Reachable) (roots : m.registry.roots = []) :
      Enrolled [] m
  | register {methods : List Method} {m m' : Machine} {method : Method} {u : Unit}
      (enrolled : Enrolled methods m) (run : register method m = .ok u m') :
      Enrolled (method :: methods) m'
  | elsewhere {methods : List Method} {m m' : Machine} (enrolled : Enrolled methods m)
      (leads : Heap.Leads m.heap m'.heap) (roots : m'.registry.roots = m.registry.roots) :
      Enrolled methods m'

variable {t : ThreadId} {m m' : Machine} {methods : List Method} {u : Unit}

def holder? (methods : List Method) (name : String) : Option Method :=
  methods.find? fun method => method.qualifiedName = name

theorem exists_holder {method : Method} (registered : method ∈ methods) :
    ∃ holder, holder? methods method.qualifiedName = some holder ∧
      holder.qualifiedName = method.qualifiedName := by
  have named : (holder? methods method.qualifiedName).isSome = true := by
    rw [holder?, List.find?_isSome]
    exact ⟨method, registered, by simp⟩
  obtain ⟨holder, found⟩ := Option.isSome_iff_exists.1 named
  exact ⟨holder, found, by simpa using List.find?_some found⟩

theorem leads_of_register {method : Method} (run : register method m = .ok u m') :
    Heap.Leads m.heap m'.heap := by
  obtain ⟨heap, -, -⟩ := register_of_ok run
  rw [heap]
  exact .single (.step m.heap _)

theorem Enrolled.reachable (enrolled : Enrolled methods m) : m.heap.Reachable := by
  induction enrolled with
  | fresh reachable roots => exact reachable
  | register _ run ih => exact ih.leads (leads_of_register run)
  | elsewhere _ leads _ ih => exact ih.leads leads

/-- What is kept under a name is a copy of the class object of the method that holds it. -/
theorem Enrolled.root (enrolled : Enrolled methods m) {name : String} {holder : Method}
    (holds : holder? methods name = some holder) :
    ∃ o, m.registry.roots.lookup name = some o ∧ m.heap.IsClassObject o holder.className := by
  induction enrolled with
  | fresh reachable roots => cases holds
  | @register methods m m' method u enrolled run ih =>
    obtain ⟨heap, -, roots⟩ := register_of_ok run
    have leads := leads_of_register run
    rw [roots, Registry.lookup_put]
    by_cases same : name = method.qualifiedName
    · rw [holder?, List.find?_cons_of_pos (by simp [same])] at holds
      obtain rfl := Option.some.inj holds
      rw [if_pos same]
      have named : m'.heap.classes.lookup method.className =
          some (m.heap.classObject method.className).1 := by
        rw [heap]
        exact m.heap.lookup_classObject method.className
      have sound := (enrolled.reachable.leads leads).sound
      exact ⟨_, rfl, sound.table _ _ named⟩
    · rw [holder?, List.find?_cons_of_neg (by simp [Ne.symm same])] at holds
      rw [if_neg same]
      obtain ⟨o, kept, isClass⟩ := ih holds
      exact ⟨o, kept, isClass.later leads⟩
  | elsewhere _ leads roots ih =>
    obtain ⟨o, kept, isClass⟩ := ih holds
    rw [roots]
    exact ⟨o, kept, isClass.later leads⟩

/-! ## What is kept through calls -/

theorem roots_of_bare (same : m'.bare = m.bare) : m'.registry.roots = m.registry.roots := by
  have registries := congrArg Machine.registry same
  exact congrArg Registry.roots registries

theorem registry_of_exitMonitor {o : ObjectId} {exited : Except Throwable Unit}
    (run : exitMonitor t o m = .ok exited m') : m'.registry = m.registry := by
  obtain ⟨_, -, -, rfl⟩ | ⟨_, -, -, rfl⟩ := exitMonitor_eq_ok.1 run
  · rfl
  · rfl

/-- A deed of the boundary leaves what is kept for methods; one of them counts results. -/
theorem roots_of_does {deed : Deed ObjectId Throwable} (does : (host t).Does deed m m') :
    m'.registry.roots = m.registry.roots := by
  cases deed with
  | toNative => exact roots_of_bare (bare_of_toNative does)
  | toManaged => exact roots_of_bare (bare_of_toManaged does)
  | checkSuspend => exact roots_of_bare (bare_of_checkSuspend does)
  | enterMonitor o =>
    obtain ⟨_, run⟩ := does
    obtain ⟨_, -, rfl⟩ := enterMonitor_eq_ok.1 (host_enterMonitor_eq_ok.1 run).2.2
    rfl
  | exitMonitor o =>
    obtain ⟨_, run⟩ := does
    rw [registry_of_exitMonitor run]
  | lockObject method =>
    obtain ⟨_, run⟩ := does
    have outcome := lockObject_eq_ok.1 run
    split at outcome
    · rw [← outcome.2]
    · rw [outcome.2]
  | checkResult method result =>
    obtain rfl := checkResult_of_ok does
    rfl
  | currentCopy o =>
    obtain ⟨_, run⟩ := does
    obtain rfl := currentCopy_of_ok run
    rfl
  | _ =>
    obtain rfl := does
    rfl

end Machine

theorem Instruction.roots_of_does {t : ThreadId} {first : Instruction} {m m' : Machine}
    (does : first.Does t m m') : m'.registry.roots = m.registry.roots := by
  cases first with
  | call method receiver body registers => exact does.elim
  | newObject className | newLocal o =>
    obtain ⟨handle, added⟩ := does
    rw [← (Machine.addLocal_eq_ok.1 added).2]
    rfl
  | throw exception | heap step =>
    obtain rfl := does
    rfl
  | enterMonitor o =>
    obtain ⟨between, entered, rfl⟩ := Machine.nativeEnter_eq_ok.1 does
    obtain ⟨monitor, granted, rfl⟩ := Machine.enterMonitor_eq_ok.1 entered
    rfl
  | exitMonitor o =>
    obtain ⟨between, ⟨exit, after⟩ | ⟨exception, exit, after⟩⟩ :=
      Machine.nativeExitOrThrow_of_ok does
    all_goals
      have kept := Machine.registry_of_exitMonitor exit
      rw [← after, ← kept]
      rfl
  | toManaged => exact Machine.roots_of_bare (Machine.bare_of_toManaged does)
  | toNative => exact Machine.roots_of_bare (Machine.bare_of_toNative does)

theorem Machine.lasts_enrolled (t : ThreadId) (methods : List Method) :
    Machine.Lasts t (Enrolled methods) where
  deed deed := .of_does fun m m' enrolled does =>
    have leads := (host_keeps_leads m.heap deed m [] .refl trivial).2 m' does
    .elsewhere enrolled leads (roots_of_does does)
  pushed _ _ enrolled := .elsewhere enrolled .refl rfl
  popped _ enrolled := .elsewhere enrolled .refl rfl
  plain _ _ _ enrolled does :=
    .elsewhere enrolled (Instruction.leads_of_does does) (Instruction.roots_of_does does)

namespace Call

open Machine (Enrolled holder? host)

variable {b : Boundary} {t : ThreadId} {w w' : MachineWorld} {methods : List Method}
  {method : Method} {receiver : Option ObjectId} {o : ObjectId} {className : String}

theorem invoke_enrolled {body : List Instruction} {registers : Registers}
    {result : CallResult ObjectId} (enrolled : Enrolled methods w.state)
    (run : invoke b t method receiver body registers w = .ok result w') :
    Enrolled methods w'.state :=
  invoke_lasts (Machine.lasts_enrolled t methods) run enrolled

/-! ## What the body is given -/

/-- A class object is brought up to date, or taken as it is, without being stopped, and what comes of
it is a class object of the same name. -/
theorem refreshed_gives (reachable : w.state.heap.Reachable)
    (isClass : w.state.heap.IsClassObject o className) :
    ∃ given w', refreshed t o w = .ok (some given) w' ∧
      w.state.heap.IsClassObject given className := by
  unfold refreshed
  rw [Act.get_bind]
  cases barriers : w.state.heap.readBarrier with
  | false => exact ⟨o, w, rfl, isClass⟩
  | true =>
    rw [if_pos rfl]
    cases taken : w.state.heap.marksProveCurrent && w.state.heap.isMarked o with
    | true =>
      obtain ⟨proves, marked⟩ := Bool.and_eq_true_iff.1 taken
      have fetched : ∃ w', Crossing.refreshClass (host t) o w = .ok o w' :=
        Crossing.refreshClass_of_marked barriers proves marked
      obtain ⟨w', fetched⟩ := fetched
      exact ⟨o, w', Act.map_eq_ok.2 ⟨o, fetched, rfl⟩, isClass⟩
    | false =>
      obtain ⟨given, found⟩ :=
        Option.isSome_iff_exists.1 (reachable.forward.currentCopy?_isSome o)
      have fetched : ∃ w', Crossing.refreshClass (host t) o w = .ok given w' :=
        Crossing.refreshClass_of_unmarked barriers taken (Machine.currentCopy_eq_ok found)
      obtain ⟨w', fetched⟩ := fetched
      exact ⟨given, w', Act.map_eq_ok.2 ⟨given, fetched, rfl⟩,
        isClass.current reachable.aligned found⟩

theorem declaringClass_gives (reachable : w.state.heap.Reachable)
    (isStatic : method.isStatic = true) (kept : w.state.root? method = some o)
    (isClass : w.state.heap.IsClassObject o className) :
    ∃ given w', declaringClass t method w = .ok (some given) w' ∧
      w.state.heap.IsClassObject given className := by
  obtain ⟨given, w', refreshing, current⟩ := refreshed_gives (t := t) reachable isClass
  have known : knownClass method w = .ok o w := by
    unfold knownClass
    rw [Act.get_bind, kept]
    rfl
  refine ⟨given, w', ?_, current⟩
  rw [declaringClass_eq, isStatic, if_pos rfl]
  exact Act.bind_eq_ok.2 ⟨o, w, known, refreshing⟩

theorem enter_gives {started : Started} (reachable : w.state.heap.Reachable)
    (isStatic : method.isStatic = true) (kept : w.state.root? method = some o)
    (isClass : w.state.heap.IsClassObject o className)
    (run : enter b t method receiver w = .ok started w') :
    ∃ given, started.declaringClass = some given ∧
      w'.state.heap.IsClassObject given className := by
  obtain ⟨w₁, w₂, heap, registry, finding⟩ := enter_declaringClass run
  have keptThen : w₁.state.root? method = some o := by
    rw [Machine.root?, registry]
    exact kept
  obtain ⟨given, w₃, found, current⟩ :=
    declaringClass_gives (t := t) (heap ▸ reachable) isStatic keptThen (heap ▸ isClass)
  rw [found] at finding
  obtain ⟨same, -⟩ := EStateM.Result.ok.inj finding
  rw [heap] at current
  exact ⟨given, same.symm, current.later (enter_leads run)⟩

/-- For a method that has been registered, a copy is kept of the class object of the method that was
registered last under its name, and a static call of it is given such a class object too.  So it is
its own class unless that method is of another class, which can only be where one of the two has a
period in its own name. -/
theorem class_of_latest_registration (enrolled : Enrolled methods w.state)
    (registered : method ∈ methods) :
    ∃ holder, holder? methods method.qualifiedName = some holder ∧
      (∃ o, w.state.root? method = some o ∧
        w.state.heap.IsClassObject o holder.className) ∧
      (method.isStatic = true →
        (∀ t, ∃ given w', declaringClass t method w = .ok (some given) w' ∧
          w.state.heap.IsClassObject given holder.className) ∧
        ∀ b t receiver started w', enter b t method receiver w = .ok started w' →
          ∃ given, started.declaringClass = some given ∧
            w'.state.heap.IsClassObject given holder.className) ∧
      ('.' ∉ method.name.toList → '.' ∉ holder.name.toList →
        holder.className = method.className) := by
  obtain ⟨holder, holds, sameName⟩ := Machine.exists_holder registered
  obtain ⟨o, kept, isClass⟩ := enrolled.root holds
  have reachable := enrolled.reachable
  refine ⟨holder, holds, ⟨o, kept, isClass⟩, fun isStatic => ⟨fun t => ?_, ?_⟩, ?_⟩
  · exact declaringClass_gives reachable isStatic kept isClass
  · intro b t receiver started w' run
    exact enter_gives reachable isStatic kept isClass run
  · intro plain otherPlain
    exact Method.className_of_qualifiedName plain otherPlain sameName

theorem enrolled_movedClass : Enrolled [touch] movedClass := by
  have run : Machine.register touch attached = .ok () registered := rfl
  have fresh : Enrolled [] attached := .fresh ⟨true, true, .refl⟩ rfl
  exact .elsewhere (.register fresh run) (.single (.step registered.heap (.relocate ⟨0⟩))) rfl

theorem class_of_latest_registration_moved :
    ∃ started w' given, enter {} ⟨1⟩ touch none { state := movedClass } = .ok started w' ∧
      started.declaringClass = some given ∧ w'.state.heap.IsClassObject given "Foo" := by
  have returned : (enter {} ⟨1⟩ touch none).returns { state := movedClass } = true := by
    decide +kernel
  obtain ⟨started, w', run⟩ := Act.exists_of_returns returned
  obtain ⟨holder, holds, -, bodies, -⟩ :=
    class_of_latest_registration (w := { state := movedClass }) enrolled_movedClass
      (List.mem_singleton_self touch)
  have only : holder? [touch] touch.qualifiedName = some touch := by decide +kernel
  obtain rfl := Option.some.inj (only.symm.trans holds)
  obtain ⟨given, found, isClass⟩ := (bodies rfl).2 {} ⟨1⟩ none started w' run
  exact ⟨started, w', given, run, found, isClass⟩

def packaged : Method where
  className := "A.B"
  name := "c"
  shorty := "V"
  tier := .normal

def namesake : Method where
  className := "A"
  name := "B.c"
  shorty := "V"
  tier := .normal

/-- What is kept for a method can be the class object of another class. -/
theorem class_of_namesake_kept :
    ¬ ∀ (methods : List Method) (m : Machine) (method : Method), Enrolled methods m →
      method ∈ methods →
      ∃ o, m.root? method = some o ∧ m.heap.IsClassObject o method.className := by
  intro always
  let first := Act.stateOf (Machine.register packaged attached)
  let both := Act.stateOf (Machine.register namesake first)
  have fresh : Enrolled [] attached := .fresh ⟨true, true, .refl⟩ rfl
  have once : Machine.register packaged attached = .ok () first := rfl
  have twice : Machine.register namesake first = .ok () both := rfl
  have enrolled : Enrolled [namesake, packaged] both := .register (.register fresh once) twice
  obtain ⟨o, kept, isClass⟩ := always _ both packaged enrolled (by simp)
  have last : both.root? packaged = some ⟨1⟩ := by decide +kernel
  obtain rfl := Option.some.inj (last.symm.trans kept)
  have other : both.heap.IsClassObject ⟨1⟩ "A" := ⟨⟨1⟩, by decide +kernel⟩
  exact absurd (isClass.unique other) (by decide)

end Call

end NativeBoundary
