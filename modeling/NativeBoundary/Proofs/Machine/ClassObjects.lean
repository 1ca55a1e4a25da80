import NativeBoundary.Proofs.Machine.ObjectMap

/-!
# Class objects on demand

The class object of a name is made on first use and found in the class table from then on.  A move
puts the new copy into the table.  A free leaves the table alone, so a class object that was freed is
still the one that is given: it has no entry any more, and another one is never made.
-/

set_option autoImplicit false

namespace NativeBoundary.Heap

variable {start h : Heap} {steps more : List HeapStep} {o : ObjectId} {className : String}

def ClassFreed (h : Heap) (steps : List HeapStep) (className : String) : Prop :=
  ∃ p monitor, .free p ∈ steps ∧ h.face? p = some ⟨className, true, monitor⟩

/-- A name keeps its class object as long as no current copy of it is moved. -/
theorem Tracked.lookup_step (tracked : Tracked h) {step : HeapStep} (tidy : h.Tidy step)
    (named : h.classes.lookup className = some o) (stays : step ≠ .relocate o) :
    (h.step step).classes.lookup className = some o := by
  cases step with
  | classObject name =>
    cases found : h.classes.lookup name with
    | some other =>
      rw [Heap.step, classObject_of_lookup found]
      exact named
    | none =>
      have apart : className ≠ name := by
        rintro rfl
        rw [named] at found
        cases found
      simp only [Heap.step, Heap.classObject, found]
      rw [lookup_setClass, if_neg apart]
      exact named
  | relocate p =>
    cases found : h.copy? p with
    | none =>
      rw [Heap.step, relocate_of_no_copy found]
      exact named
    | some old =>
      rw [Heap.step, lookup_relocate found]
      split
      · next moved =>
        -- A current copy of the class would be the one in the table.
        have entry := (tracked.current p old.face (face?_of_copy? found) moved.1).1 tidy
        rw [show old.face.className = className from moved.2.symm, named] at entry
        obtain rfl := Option.some.inj entry
        exact absurd rfl stays
      · exact named
  | allocate name | mark p | clearMarks | free p => exact named

theorem Fresh.lookup_after (fresh : start.Fresh) (tidy : Throughout Tidy start (steps ++ more))
    (named : (start.after steps).classes.lookup className = some o) (stays : .relocate o ∉ more) :
    (start.after (steps ++ more)).classes.lookup className = some o := by
  induction more using List.reverseRecOn with
  | nil =>
    rw [List.append_nil]
    exact named
  | append_singleton more step ih =>
    rw [List.mem_append, List.mem_singleton, not_or] at stays
    rw [← List.append_assoc, throughout_concat] at tidy
    rw [← List.append_assoc, after_concat]
    exact (fresh.tracked tidy.1).lookup_step tidy.2 (ih tidy.1 stays.1) (Ne.symm stays.2)

/-- The class object that is given is the one that was freed if one of its name was. -/
theorem Fresh.classFreed_iff (fresh : start.Fresh) (orderly : Throughout Orderly start steps)
    (named : (start.after steps).classes.lookup className = some o) :
    (start.after steps).ClassFreed steps className ↔ .free o ∈ steps := by
  have tracked := fresh.tracked (fresh.tidy orderly)
  constructor
  · rintro ⟨p, monitor, freed, face⟩
    obtain ⟨copy, found, unmoved⟩ := (fresh.filed orderly).freed p freed
    have pointer : (start.after steps).pointer? p = none :=
      (pointer?_of_copy? found).trans unmoved
    have entry := (tracked.current p _ face rfl).1 pointer
    obtain rfl := Option.some.inj (named.symm.trans entry)
    exact freed
  · intro freed
    obtain ⟨monitor, face⟩ := tracked.sound.table className o named
    exact ⟨o, monitor, freed, face⟩

theorem Fresh.classFreed_concat (fresh : start.Fresh) (orderly : Throughout Orderly start steps)
    (className name : String) :
    (start.after (steps ++ [.classObject name])).ClassFreed (steps ++ [.classObject name])
      className ↔ (start.after steps).ClassFreed steps className := by
  have extended := extends_concat start steps (.classObject name)
  have frees (p : ObjectId) : .free p ∈ steps ++ [.classObject name] ↔ .free p ∈ steps := by simp
  constructor
  · rintro ⟨p, monitor, freed, later⟩
    rw [frees] at freed
    -- What was freed was there already, and has kept its face.
    obtain ⟨copy, found, -⟩ := (fresh.filed orderly).freed p freed
    have face := face?_of_copy? found
    exact ⟨p, monitor, freed, by rw [face, ← extended.face? face, later]⟩
  · rintro ⟨p, monitor, freed, face⟩
    exact ⟨p, monitor, (frees p).2 freed, extended.face? face⟩

/-- Where only entries are moved and freed, a name is given a class object of that name that has not
been moved.  It is alive and has an entry unless a class object of that name was freed before, and
it is given again as long as it is not moved. -/
theorem class_object_entered_unless_freed (fresh : start.Fresh)
    (orderly : Throughout Orderly start steps) (className : String) :
    (∃ copy, ((start.after steps).classObject className).2.copy?
          ((start.after steps).classObject className).1 = some copy ∧
        copy.className = className ∧ copy.isClass = true ∧ copy.forwarded = none ∧
        (copy.alive = true ↔ ¬ (start.after steps).ClassFreed steps className) ∧
        ((((start.after steps).classObject className).1.number,
            ((start.after steps).classObject className).1) ∈
            ((start.after steps).classObject className).2.objects ↔
          ¬ (start.after steps).ClassFreed steps className)) ∧
    ∀ more, Throughout Orderly ((start.after steps).classObject className).2 more →
      .relocate ((start.after steps).classObject className).1 ∉ more →
      ((((start.after steps).classObject className).2.after more).classObject className).1 =
        ((start.after steps).classObject className).1 := by
  -- The heap that the name leaves behind is the one after one more operation.
  let used := steps ++ [.classObject className]
  have heap : ((start.after steps).classObject className).2 = start.after used :=
    (after_concat start steps (.classObject className)).symm
  have named : (start.after used).classes.lookup className =
      some ((start.after steps).classObject className).1 := by
    rw [← heap]
    exact lookup_classObject _ className
  have orderlyUsed : Throughout Orderly start used := by
    rw [throughout_concat]
    exact ⟨orderly, trivial⟩
  generalize ((start.after steps).classObject className).1 = o at named ⊢
  rw [heap]
  have tracked := fresh.tracked (fresh.tidy orderlyUsed)
  have filed := fresh.filed orderlyUsed
  constructor
  · obtain ⟨i, face⟩ := tracked.sound.table className o named
    have pointer := (tracked.current o _ face rfl).2 named
    obtain ⟨copy, found, same⟩ := exists_copy_of_face? face
    obtain ⟨sameName, isClass, -⟩ := Face.mk.inj same
    rw [pointer?_of_copy? found] at pointer
    have unfreed : copy.alive = true ↔ ¬ (start.after steps).ClassFreed steps className := by
      rw [filed.alive o copy found, ← fresh.classFreed_iff orderlyUsed named,
        fresh.classFreed_concat orderly className]
    refine ⟨copy, found, sameName, isClass, pointer, unfreed, ?_⟩
    rw [filed.keyed.mem_objects_iff, filed.entry o copy found, unfreed]
    exact ⟨fun entry => entry.2.1, fun kept => ⟨rfl, kept, pointer⟩⟩
  · intro more orderlyMore stays
    rw [← after_append]
    have throughout : Throughout Orderly start (used ++ more) :=
      (throughout_append start used more).2 ⟨orderlyUsed, orderlyMore⟩
    have later := fresh.lookup_after (fresh.tidy throughout) named stays
    rw [classObject_of_lookup later]

/-- A class is used and moved, and another one is used and freed. -/
def usedAndFreed : List HeapStep :=
  [.classObject "Foo", .relocate ⟨0⟩, .classObject "Bar", .free ⟨2⟩]

theorem class_object_entered_unless_freed_kept :
    Throughout Orderly {} usedAndFreed ∧
    (∃ copy, (({} : Heap).after usedAndFreed).copy? ⟨1⟩ = some copy ∧ copy.alive = true ∧
      (2, ⟨1⟩) ∈ (({} : Heap).after usedAndFreed).objects) ∧
    (((({} : Heap).after usedAndFreed).after [.allocate "Foo", .free ⟨1⟩]).classObject "Foo").1 =
      ⟨1⟩ := by
  have fresh : Fresh {} := ⟨true, true, rfl⟩
  have orderly : Throughout Orderly {} usedAndFreed := by decide +kernel
  have given : (({} : Heap).after usedAndFreed).classObject "Foo" =
      (⟨1⟩, ({} : Heap).after usedAndFreed) := by decide +kernel
  obtain ⟨⟨copy, found, -, -, -, alive, entered⟩, again⟩ :=
    class_object_entered_unless_freed fresh orderly "Foo"
  rw [given] at found entered again
  have kept : ¬ (({} : Heap).after usedAndFreed).ClassFreed usedAndFreed "Foo" := by
    rintro ⟨p, monitor, freed, face⟩
    have only : p = ⟨2⟩ := by simpa [usedAndFreed] using freed
    have other : (({} : Heap).after usedAndFreed).face? ⟨2⟩ = some ⟨"Bar", true, ⟨1⟩⟩ := by
      decide +kernel
    rw [only, other] at face
    simp at face
  refine ⟨orderly, ⟨copy, found, alive.2 kept, entered.2 kept⟩, ?_⟩
  exact again [.allocate "Foo", .free ⟨1⟩] (by decide +kernel) (by decide)

/-- A class object that was freed is given as if nothing had happened, without an entry. -/
theorem freed_class_object_given :
    ¬ ∀ (steps : List HeapStep) (className : String), Throughout Orderly {} steps →
      ∃ copy, ((({} : Heap).after steps).classObject className).2.copy?
            ((({} : Heap).after steps).classObject className).1 = some copy ∧
        copy.alive = true ∧
        (((({} : Heap).after steps).classObject className).1.number,
            ((({} : Heap).after steps).classObject className).1) ∈
          ((({} : Heap).after steps).classObject className).2.objects := by
  intro always
  obtain ⟨copy, -, -, entry⟩ := always [.classObject "Foo", .free ⟨0⟩] "Foo" (by decide +kernel)
  have none_left : ((({} : Heap).after [.classObject "Foo", .free ⟨0⟩]).classObject "Foo").2.objects =
      [] := by decide +kernel
  rw [none_left] at entry
  cases entry

end NativeBoundary.Heap
