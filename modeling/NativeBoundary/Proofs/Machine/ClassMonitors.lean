import NativeBoundary.Proofs.Machine.CopyHistory

/-!
# The monitor of a class

A class object is given where its name is asked for, and every move of one gives another.  All that
are given for a name are copies of one object, whichever copies are moved and in whatever order: they
share a monitor, nothing else has that monitor, and a name that is asked for again leads to it again.
-/

set_option autoImplicit false

namespace NativeBoundary.Heap

variable {start : Heap} {steps : List HeapStep} {o p : ObjectId} {className : String}

/-- The class objects of a name that a history has given: the answers to the name, and the copies
that were made of them. -/
inductive GivenFor (start : Heap) (steps : List HeapStep) (className : String) : ObjectId → Prop where
  | asked (before rest : List HeapStep) (split : steps = before ++ .classObject className :: rest) :
      GivenFor start steps className ((start.after before).classObject className).1
  | moved (o p : ObjectId) (given : GivenFor start steps className o)
      (moved : (o, p) ∈ start.moves steps) : GivenFor start steps className p

theorem GivenFor.concat (given : start.GivenFor steps className o) (step : HeapStep) :
    start.GivenFor (steps ++ [step]) className o := by
  induction given with
  | asked before rest split => exact .asked before (rest ++ [step]) (by simp [split])
  | moved o p _ moved ih =>
    refine .moved o p ih ?_
    rw [moves_concat]
    exact List.mem_append_left _ moved

theorem extends_append (start : Heap) (steps more : List HeapStep) :
    Extends (start.after steps) (start.after (steps ++ more)) := by
  rw [after_append]
  exact (leads_after _ more).extends

/-! ## What is given are the class objects of the name -/

theorem GivenFor.face? (given : start.GivenFor steps className o) (fresh : start.Fresh) :
    ∃ monitor, (start.after steps).face? o = some ⟨className, true, monitor⟩ := by
  induction given with
  | asked before rest split =>
    have sound := (fresh.reachable (before ++ [.classObject className])).sound
    rw [after_concat] at sound
    obtain ⟨monitor, face⟩ := sound.table className _ (lookup_classObject _ className)
    have later := extends_append start (before ++ [.classObject className]) rest
    rw [after_concat, List.append_assoc, List.singleton_append, ← split] at later
    exact ⟨monitor, later.face? face⟩
  | moved o p _ moved ih =>
    obtain ⟨monitor, found⟩ := ih
    obtain ⟨face, source, target⟩ := fresh.face?_of_moves steps moved
    rw [found] at source
    exact ⟨monitor, by rw [target, source]⟩

/-- Every class object was given for its name, the copies that moves have made included. -/
theorem Fresh.givenFor_of_face? (fresh : start.Fresh) {monitor : MonitorId}
    (found : (start.after steps).face? o = some ⟨className, true, monitor⟩) :
    start.GivenFor steps className o := by
  induction steps using List.reverseRecOn generalizing o monitor with
  | nil =>
    obtain ⟨_, _, rfl⟩ := fresh
    simp [Heap.after, Heap.face?, faces] at found
  | append_singleton steps step ih =>
    -- A copy that the last operation has not made was given before.
    have earlier (before : (start.after (steps ++ [step])).face? o = (start.after steps).face? o) :
        start.GivenFor (steps ++ [step]) className o := by
      rw [before] at found
      exact (ih found).concat step
    cases step with
    | allocate name =>
      have faces : (start.after (steps ++ [.allocate name])).faces = (start.after steps).faces ++
          [⟨name, false, ⟨(start.after steps).monitors.length⟩⟩] := by
        rw [after_concat, Heap.step, faces_allocate]
      rcases face?_of_append faces found with before | ⟨-, new⟩
      · exact (ih before).concat _
      · cases new
    | classObject name =>
      cases named : (start.after steps).classes.lookup name with
      | some entry =>
        apply earlier
        rw [after_concat, Heap.step, classObject_of_lookup named]
      | none =>
        have faces : (start.after (steps ++ [.classObject name])).faces =
            (start.after steps).faces ++
              [⟨name, true, ⟨(start.after steps).monitors.length⟩⟩] := by
          rw [after_concat, Heap.step, faces_firstUse named]
        rcases face?_of_append faces found with before | ⟨last, new⟩
        · exact (ih before).concat _
        · cases new
          rw [last, length_faces, ← classObject_fst named]
          exact .asked steps [] rfl
    | relocate source =>
      cases there : (start.after steps).copy? source with
      | none =>
        apply earlier
        rw [after_concat, Heap.step, relocate_of_no_copy there]
      | some old =>
        have faces : (start.after (steps ++ [.relocate source])).faces =
            (start.after steps).faces ++ [old.face] := by
          rw [after_concat, Heap.step, faces_relocate there]
        rcases face?_of_append faces found with before | ⟨last, copied⟩
        · exact (ih before).concat _
        · -- The copy that is made has the face of the one that is moved.
          have given := ih ((face?_of_copy? there).trans (congrArg some copied.symm))
          refine .moved source o (given.concat _) ?_
          rw [moves_concat, last, length_faces]
          exact List.mem_append_right _ (by simp [moved, there, relocate_fst there])
    | mark o | free o =>
      apply earlier
      rw [after_concat, Heap.face?, Heap.face?, Heap.step]
      exact congrArg (·[_]?) (faces_update _ fun _ => rfl)
    | clearMarks =>
      apply earlier
      rw [after_concat, Heap.face?, Heap.face?, Heap.step, faces_clearMarks]

/-! ## One monitor for all of them -/

theorem GivenFor.monitorId?_eq (first : start.GivenFor steps className o)
    (second : start.GivenFor steps className p) (fresh : start.Fresh) :
    (start.after steps).monitorId? o = (start.after steps).monitorId? p := by
  have sound := (fresh.reachable steps).sound
  obtain ⟨i, one⟩ := first.face? fresh
  obtain ⟨j, other⟩ := second.face? fresh
  -- Both have the face of the class object in the table.
  obtain ⟨entry, named, same⟩ := sound.shared o _ one rfl
  obtain ⟨entry', named', same'⟩ := sound.shared p _ other rfl
  obtain rfl : entry = entry' := Option.some.inj (named.symm.trans named')
  rw [monitorId?_of_face? one, monitorId?_of_face? other, ← monitorId?_of_face? same,
    ← monitorId?_of_face? same']

/-- Copies with one monitor are of one object. -/
theorem Fresh.face?_of_monitorId? (fresh : start.Fresh) {i : MonitorId}
    (first : (start.after steps).monitorId? o = some i)
    (second : (start.after steps).monitorId? p = some i) :
    (start.after steps).face? o = (start.after steps).face? p := by
  rw [monitorId?_eq_map_face?] at first second
  obtain ⟨face, found, rfl⟩ := Option.map_eq_some_iff.1 first
  obtain ⟨face', found', same⟩ := Option.map_eq_some_iff.1 second
  obtain ⟨birth, made, ofOne⟩ := fresh.exists_birth steps found
  obtain ⟨birth', made', ofOther⟩ := fresh.exists_birth steps found'
  have one : birth = birth' := by
    apply fresh.birth_of_monitor steps made made'
    rw [monitorId?_eq_map_face?, monitorId?_eq_map_face?, ofOne.face? fresh, ofOther.face? fresh,
      found, found', Option.map_some, Option.map_some, same]
  calc (start.after steps).face? o = (start.after steps).face? birth := (ofOne.face? fresh).symm
    _ = (start.after steps).face? birth' := by rw [one]
    _ = (start.after steps).face? p := ofOther.face? fresh

/-- Through every history, moves of old copies included, the class objects that are given for a name
are the copies with one monitor and no others; and the monitor of the class object that a name leads
to stays the same from the first time that the name is asked for. -/
theorem class_keeps_one_monitor (fresh : start.Fresh) (steps : List HeapStep) (className : String) :
    (∀ o, start.GivenFor steps className o →
      ∃ i, ∀ p, start.GivenFor steps className p ↔ (start.after steps).monitorId? p = some i) ∧
    ∃ i, ((start.after steps).classObject className).2.monitorId?
        ((start.after steps).classObject className).1 = some i ∧
      ∀ more,
        ((((start.after steps).classObject className).2.after more).classObject className).2.monitorId?
          ((((start.after steps).classObject className).2.after more).classObject className).1 =
            some i := by
  constructor
  · intro o given
    obtain ⟨i, found⟩ := given.face? fresh
    have monitor := monitorId?_of_face? found
    refine ⟨i, fun p => ⟨fun other => ?_, fun shared => ?_⟩⟩
    · rw [← given.monitorId?_eq other fresh]
      exact monitor
    · apply fresh.givenFor_of_face?
      rw [← fresh.face?_of_monitorId? monitor shared]
      exact found
  · -- The heap that a name leaves behind is the one after one more operation.
    have asked (before : List HeapStep) : ((start.after before).classObject className).2 =
        start.after (before ++ [.classObject className]) :=
      (after_concat start before (.classObject className)).symm
    have first : start.GivenFor (steps ++ [.classObject className]) className
        ((start.after steps).classObject className).1 := .asked steps [] rfl
    obtain ⟨i, found⟩ := first.face? fresh
    have monitor := monitorId?_of_face? found
    rw [asked]
    refine ⟨i, monitor, fun more => ?_⟩
    let later := steps ++ [.classObject className] ++ more
    have heap : (start.after (steps ++ [.classObject className])).after more = start.after later :=
      (after_append start _ more).symm
    have again : start.GivenFor (later ++ [.classObject className]) className
        ((start.after later).classObject className).1 := .asked later [] rfl
    have still : start.GivenFor (later ++ [.classObject className]) className
        ((start.after steps).classObject className).1 :=
      .asked steps (more ++ [.classObject className]) (by simp [later])
    rw [heap, asked, again.monitorId?_eq still fresh]
    have extended := extends_append start (steps ++ [.classObject className])
      (more ++ [.classObject className])
    rw [← List.append_assoc] at extended
    exact extended.monitorId? monitor

/-- A class is used and moved twice from its first copy, which is then freed; another object and
another class are made between. -/
def movedFromOldCopy : List HeapStep :=
  [.classObject "Foo", .allocate "Foo", .relocate ⟨0⟩, .relocate ⟨0⟩, .classObject "Bar",
    .mark ⟨0⟩, .clearMarks, .free ⟨0⟩]

theorem class_keeps_one_monitor_moved :
    GivenFor {} movedFromOldCopy "Foo" ⟨2⟩ ∧ ¬ GivenFor {} movedFromOldCopy "Foo" ⟨1⟩ ∧
    ¬ GivenFor {} movedFromOldCopy "Foo" ⟨4⟩ ∧
    ((({} : Heap).after movedFromOldCopy).classObject "Foo").1 = ⟨3⟩ ∧
    (((({} : Heap).after movedFromOldCopy).after [.relocate ⟨2⟩]).classObject "Foo").1 = ⟨5⟩ ∧
    (((({} : Heap).after movedFromOldCopy).after [.relocate ⟨2⟩]).classObject "Foo").2.monitorId?
      ⟨5⟩ = some ⟨0⟩ := by
  have fresh : Fresh {} := ⟨true, true, rfl⟩
  obtain ⟨shared, i, first, kept⟩ := class_keeps_one_monitor fresh movedFromOldCopy "Foo"
  have known : (({} : Heap).after movedFromOldCopy).classObject "Foo" =
      (⟨3⟩, ({} : Heap).after movedFromOldCopy) := by decide +kernel
  have again : ((({} : Heap).after movedFromOldCopy).after [.relocate ⟨2⟩]).classObject "Foo" =
      (⟨5⟩, (({} : Heap).after movedFromOldCopy).after [.relocate ⟨2⟩]) := by decide +kernel
  have monitors : (({} : Heap).after movedFromOldCopy).copies.map (·.monitor) =
      [⟨0⟩, ⟨1⟩, ⟨0⟩, ⟨0⟩, ⟨2⟩] := by decide +kernel
  have monitorOf (o : ObjectId) : (({} : Heap).after movedFromOldCopy).monitorId? o =
      ([⟨0⟩, ⟨1⟩, ⟨0⟩, ⟨0⟩, ⟨2⟩] : List MonitorId)[o.index]? := by
    rw [← monitors, List.getElem?_map]
    rfl
  have given : GivenFor {} movedFromOldCopy "Foo" ⟨3⟩ :=
    .moved ⟨0⟩ ⟨3⟩ (.asked [] _ rfl) (by decide +kernel)
  obtain ⟨j, exactly⟩ := shared ⟨3⟩ given
  obtain rfl : ⟨0⟩ = j := Option.some.inj ((monitorOf ⟨3⟩).symm.trans ((exactly ⟨3⟩).1 given))
  rw [known, monitorOf] at first
  obtain rfl : ⟨0⟩ = i := Option.some.inj first
  have later := kept [.relocate ⟨2⟩]
  rw [known, again] at later
  refine ⟨(exactly ⟨2⟩).2 (monitorOf ⟨2⟩), ?_, ?_, by rw [known], by rw [again], ?_⟩
  · rw [exactly, monitorOf]
    decide
  · rw [exactly, monitorOf]
    decide
  · rw [again]
    exact later

end NativeBoundary.Heap
