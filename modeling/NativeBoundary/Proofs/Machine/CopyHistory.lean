import Mathlib.Data.List.Induction
import Mathlib.Logic.Relation
import NativeBoundary.Proofs.Machine.CurrentCopies

/-!
# Objects in the history of a heap

An object is made once, by an allocation or by the first use of a class name, and every move makes a
further copy of it.  Which copies are of one object is read off the answers of the operations, not
off the pointers that they leave.  All copies of an object have one face, different objects have
different monitors, and where only current copies are moved the pointers are the moves.
-/

set_option autoImplicit false

namespace NativeBoundary.Heap

def Fresh (h : Heap) : Prop :=
  ∃ readBarrier marksProveCurrent, h = { readBarrier, marksProveCurrent }

variable {start h : Heap} {steps : List HeapStep} {step : HeapStep} {o p : ObjectId}

/-! ## Histories -/

theorem after_append (h : Heap) (before rest : List HeapStep) :
    h.after (before ++ rest) = (h.after before).after rest := by
  simp only [after, List.foldl_append]

theorem after_concat (h : Heap) (steps : List HeapStep) (step : HeapStep) :
    h.after (steps ++ [step]) = (h.after steps).step step :=
  after_append h steps [step]

theorem leads_after (h : Heap) (steps : List HeapStep) : Leads h (h.after steps) := by
  induction steps using List.reverseRecOn with
  | nil => exact .refl
  | append_singleton steps step ih =>
    rw [after_concat]
    exact ih.tail (.step _ step)

theorem Fresh.reachable (fresh : start.Fresh) (steps : List HeapStep) :
    Reachable (start.after steps) := by
  obtain ⟨readBarrier, marksProveCurrent, rfl⟩ := fresh
  exact ⟨readBarrier, marksProveCurrent, leads_after _ steps⟩

def Throughout (condition : Heap → HeapStep → Prop) : Heap → List HeapStep → Prop
  | _, [] => True
  | h, step :: rest => condition h step ∧ Throughout condition (h.step step) rest

section Throughout

variable {condition : Heap → HeapStep → Prop}

instance [∀ h step, Decidable (condition h step)] :
    ∀ (h : Heap) (steps : List HeapStep), Decidable (Throughout condition h steps)
  | _, [] => inferInstanceAs (Decidable True)
  | h, step :: rest =>
    have := instDecidableThroughout (h.step step) rest
    inferInstanceAs (Decidable (condition h step ∧ Throughout condition (h.step step) rest))

theorem throughout_append (h : Heap) (before rest : List HeapStep) :
    Throughout condition h (before ++ rest) ↔
      Throughout condition h before ∧ Throughout condition (h.after before) rest := by
  induction before generalizing h with
  | nil => simp [Throughout, after]
  | cons first before ih =>
    rw [List.cons_append, Throughout, Throughout, ih, and_assoc]
    rfl

theorem throughout_concat (h : Heap) (steps : List HeapStep) (step : HeapStep) :
    Throughout condition h (steps ++ [step]) ↔
      Throughout condition h steps ∧ condition (h.after steps) step := by
  simp [throughout_append, Throughout]

theorem Throughout.after {motive : List HeapStep → Heap → Prop} (nil : motive [] start)
    (concat : ∀ steps step, motive steps (start.after steps) → condition (start.after steps) step →
      motive (steps ++ [step]) ((start.after steps).step step))
    (throughout : Throughout condition start steps) : motive steps (start.after steps) := by
  induction steps using List.reverseRecOn with
  | nil => exact nil
  | append_singleton steps step ih =>
    rw [throughout_concat] at throughout
    rw [after_concat]
    exact concat steps step (ih throughout.1) throughout.2

end Throughout

theorem Fresh.tracked (fresh : start.Fresh) (tidy : Throughout Tidy start steps) :
    Tracked (start.after steps) := by
  obtain ⟨readBarrier, marksProveCurrent, rfl⟩ := fresh
  apply Throughout.after ?_ ?_ tidy
  · exact tracked_empty readBarrier marksProveCurrent
  · intro steps step tracked tidy
    exact Tracked.step tracked tidy

/-! ## Moves and objects -/

/-- What the operations of a history tell, one after the other, when each knows those before it. -/
def along {α : Type} (tell : List HeapStep → HeapStep → List α) (before : List HeapStep) :
    List HeapStep → List α
  | [] => []
  | step :: rest => tell before step ++ along tell (before ++ [step]) rest

theorem along_concat {α : Type} (tell : List HeapStep → HeapStep → List α)
    (before steps : List HeapStep) (step : HeapStep) :
    along tell before (steps ++ [step]) = along tell before steps ++ tell (before ++ steps) step := by
  induction steps generalizing before with
  | nil => simp [along]
  | cons first rest ih => simp [along, ih]

def moved (start : Heap) (before : List HeapStep) : HeapStep → List (ObjectId × ObjectId)
  | .relocate o =>
    if ((start.after before).copy? o).isSome then [(o, ((start.after before).relocate o).1)] else []
  | _ => []

def moves (start : Heap) (steps : List HeapStep) : List (ObjectId × ObjectId) :=
  along start.moved [] steps

/-- The object that an operation makes: an allocation does, and so does the first use of a class
name. -/
def born (start : Heap) (before : List HeapStep) : HeapStep → List ObjectId
  | .allocate className => [((start.after before).allocate className).1]
  | .classObject className =>
    if .classObject className ∈ before then []
    else [((start.after before).classObject className).1]
  | _ => []

def births (start : Heap) (steps : List HeapStep) : List ObjectId :=
  along start.born [] steps

/-- Two copies are of one object if moves connect them. -/
def SameObject (start : Heap) (steps : List HeapStep) : ObjectId → ObjectId → Prop :=
  Relation.EqvGen fun o p => (o, p) ∈ start.moves steps

theorem moves_concat (start : Heap) (steps : List HeapStep) (step : HeapStep) :
    start.moves (steps ++ [step]) = start.moves steps ++ start.moved steps step :=
  along_concat _ [] steps step

theorem births_concat (start : Heap) (steps : List HeapStep) (step : HeapStep) :
    start.births (steps ++ [step]) = start.births steps ++ start.born steps step :=
  along_concat _ [] steps step

theorem SameObject.concat (same : start.SameObject steps o p) (step : HeapStep) :
    start.SameObject (steps ++ [step]) o p := by
  refine Relation.EqvGen.mono ?_ o p same
  intro first second moved
  rw [moves_concat]
  exact List.mem_append_left _ moved

/-! ## What one more operation adds -/

theorem allocate_fst (h : Heap) (className : String) :
    (h.allocate className).1 = ⟨h.copies.length⟩ := rfl

theorem classObject_fst {className : String} (missing : h.classes.lookup className = none) :
    (h.classObject className).1 = ⟨h.copies.length⟩ := by
  simp [classObject, missing, create, add]

theorem relocate_fst {old : Copy} (found : h.copy? o = some old) :
    (h.relocate o).1 = ⟨h.copies.length⟩ := by
  simp [relocate, found, add]

theorem length_faces (h : Heap) : h.faces.length = h.copies.length := by
  simp [faces]

/-- A name has a class object as soon as it has been used. -/
theorem Fresh.lookup_eq_none_iff (fresh : start.Fresh) (steps : List HeapStep)
    (className : String) :
    (start.after steps).classes.lookup className = none ↔ .classObject className ∉ steps := by
  induction steps using List.reverseRecOn with
  | nil =>
    obtain ⟨_, _, rfl⟩ := fresh
    simp [Heap.after]
  | append_singleton steps step ih =>
    have sound := (fresh.reachable steps).sound
    rw [after_concat, List.mem_append, List.mem_singleton, not_or, ← ih]
    generalize start.after steps = h at sound
    cases step with
    | classObject name =>
      simp only [Heap.step, classObject]
      cases found : h.classes.lookup name with
      | some o =>
        by_cases same : className = name
        · simp [same, found]
        · simp [same]
      | none =>
        simp only [lookup_setClass, create, add]
        by_cases same : className = name
        · simp [same]
        · simp [same]
    | relocate o =>
      cases found : h.copy? o with
      | none => simp [Heap.step, relocate_of_no_copy found]
      | some old =>
        rw [Heap.step, lookup_relocate found]
        split
        · next moved =>
          -- A class object that can be moved is in the table already.
          obtain ⟨entry, named, -⟩ := sound.shared o old.face (face?_of_copy? found) moved.1
          have known : h.classes.lookup className = some entry := by rw [moved.2]; exact named
          simp [known]
        · simp
    | allocate name | mark o | clearMarks | free o =>
      simp [Heap.step, allocate, create, add, mark, clearMarks, free, update]

inductive Adds (start : Heap) (steps : List HeapStep) (step : HeapStep) : Prop where
  | nothing
      (faces : (start.after (steps ++ [step])).faces = (start.after steps).faces)
      (moves : start.moves (steps ++ [step]) = start.moves steps)
      (births : start.births (steps ++ [step]) = start.births steps)
  | object (face : Face) (monitor : face.monitor = ⟨(start.after steps).monitors.length⟩)
      (faces : (start.after (steps ++ [step])).faces = (start.after steps).faces ++ [face])
      (moves : start.moves (steps ++ [step]) = start.moves steps)
      (births : start.births (steps ++ [step]) =
        start.births steps ++ [⟨(start.after steps).faces.length⟩])
  | copy (o : ObjectId) (face : Face) (found : (start.after steps).face? o = some face)
      (faces : (start.after (steps ++ [step])).faces = (start.after steps).faces ++ [face])
      (moves : start.moves (steps ++ [step]) =
        start.moves steps ++ [(o, ⟨(start.after steps).faces.length⟩)])
      (births : start.births (steps ++ [step]) = start.births steps)

theorem Fresh.adds (fresh : start.Fresh) (steps : List HeapStep) (step : HeapStep) :
    Adds start steps step := by
  have used := fresh.lookup_eq_none_iff steps
  cases step with
  | allocate className =>
    refine .object ⟨className, false, ⟨(start.after steps).monitors.length⟩⟩ rfl ?_ ?_ ?_
    · rw [after_concat, Heap.step, faces_allocate]
    · simp [moves_concat, moved]
    · simp [births_concat, born, allocate_fst, length_faces]
  | classObject className =>
    have unmoved : start.moves (steps ++ [.classObject className]) = start.moves steps := by
      simp [moves_concat, moved]
    cases found : (start.after steps).classes.lookup className with
    | some o =>
      have before : .classObject className ∈ steps := by
        by_contra first
        rw [← used, found] at first
        cases first
      refine .nothing ?_ unmoved ?_
      · rw [after_concat, Heap.step, classObject_of_lookup found]
      · simp [births_concat, born, before]
    | none =>
      have first := (used className).1 found
      refine .object ⟨className, true, ⟨(start.after steps).monitors.length⟩⟩ rfl ?_ unmoved ?_
      · rw [after_concat, Heap.step, faces_firstUse found]
      · simp [births_concat, born, first, classObject_fst found, length_faces]
  | relocate o =>
    have unborn : start.births (steps ++ [.relocate o]) = start.births steps := by
      simp [births_concat, born]
    cases found : (start.after steps).copy? o with
    | none =>
      refine .nothing ?_ ?_ unborn
      · rw [after_concat, Heap.step, relocate_of_no_copy found]
      · simp [moves_concat, moved, found]
    | some old =>
      refine .copy o old.face (face?_of_copy? found) ?_ ?_ unborn
      · rw [after_concat, Heap.step, faces_relocate found]
      · simp [moves_concat, moved, found, relocate_fst found, length_faces]
  | mark o | free o =>
    refine .nothing ?_ ?_ ?_
    · rw [after_concat]
      exact faces_update o fun _ => rfl
    · simp [moves_concat, moved]
    · simp [births_concat, born]
  | clearMarks =>
    refine .nothing ?_ ?_ ?_
    · rw [after_concat]
      exact faces_clearMarks _
    · simp [moves_concat, moved]
    · simp [births_concat, born]

/-! ## Copies of one object -/

theorem extends_concat (start : Heap) (steps : List HeapStep) (step : HeapStep) :
    Extends (start.after steps) (start.after (steps ++ [step])) := by
  rw [after_concat]
  exact (shaped_step _ step).extends

theorem Fresh.face?_of_moves (fresh : start.Fresh) (steps : List HeapStep)
    (moved : (o, p) ∈ start.moves steps) :
    ∃ face, (start.after steps).face? o = some face ∧ (start.after steps).face? p = some face := by
  induction steps using List.reverseRecOn with
  | nil => cases moved
  | append_singleton steps step ih =>
    have extended := extends_concat start steps step
    have earlier (before : (o, p) ∈ start.moves steps) :
        ∃ face, (start.after (steps ++ [step])).face? o = some face ∧
          (start.after (steps ++ [step])).face? p = some face := by
      obtain ⟨face, first, second⟩ := ih before
      exact ⟨face, extended.face? first, extended.face? second⟩
    cases fresh.adds steps step with
    | nothing _ moves _ | object _ _ _ moves _ =>
      rw [moves] at moved
      exact earlier moved
    | copy source face found faces moves _ =>
      rw [moves, List.mem_append, List.mem_singleton] at moved
      rcases moved with before | last
      · exact earlier before
      · obtain ⟨rfl, rfl⟩ := Prod.mk.inj last
        exact ⟨face, extended.face? found, face?_last faces⟩

theorem SameObject.face? (same : start.SameObject steps o p) (fresh : start.Fresh) :
    (start.after steps).face? o = (start.after steps).face? p := by
  induction same with
  | rel o p moved =>
    obtain ⟨face, first, second⟩ := fresh.face?_of_moves steps moved
    rw [first, second]
  | refl o => rfl
  | symm o p _ ih => exact ih.symm
  | trans o p q _ _ first second => exact first.trans second

theorem Fresh.face?_of_births (fresh : start.Fresh) (steps : List HeapStep)
    (birth : o ∈ start.births steps) : ∃ face, (start.after steps).face? o = some face := by
  induction steps using List.reverseRecOn with
  | nil => cases birth
  | append_singleton steps step ih =>
    have earlier (before : o ∈ start.births steps) :
        ∃ face, (start.after (steps ++ [step])).face? o = some face := by
      obtain ⟨face, found⟩ := ih before
      exact ⟨face, (extends_concat start steps step).face? found⟩
    cases fresh.adds steps step with
    | nothing _ _ births | copy _ _ _ _ _ births =>
      rw [births] at birth
      exact earlier birth
    | object face _ faces _ births =>
      rw [births, List.mem_append, List.mem_singleton] at birth
      rcases birth with before | rfl
      · exact earlier before
      · exact ⟨face, face?_last faces⟩

/-- Every copy is a copy of an object that was made. -/
theorem Fresh.exists_birth (fresh : start.Fresh) (steps : List HeapStep) {face : Face}
    (found : (start.after steps).face? o = some face) :
    ∃ birth ∈ start.births steps, start.SameObject steps birth o := by
  induction steps using List.reverseRecOn generalizing o face with
  | nil =>
    obtain ⟨_, _, rfl⟩ := fresh
    simp [Heap.after, Heap.face?, faces] at found
  | append_singleton steps step ih =>
    cases fresh.adds steps step with
    | nothing faces _ births =>
      have before : (start.after steps).face? o = some face := by
        rwa [Heap.face?, ← faces]
      obtain ⟨birth, made, same⟩ := ih before
      exact ⟨birth, by rwa [births], same.concat step⟩
    | object new _ faces _ births =>
      rcases face?_of_append faces found with before | ⟨rfl, -⟩
      · obtain ⟨birth, made, same⟩ := ih before
        exact ⟨birth, by rw [births]; exact List.mem_append_left _ made, same.concat step⟩
      · exact ⟨_, by rw [births]; exact List.mem_append_right _ (List.mem_singleton_self _), .refl _⟩
    | copy source new seen faces moves births =>
      rw [births]
      rcases face?_of_append faces found with before | ⟨rfl, -⟩
      · obtain ⟨birth, made, same⟩ := ih before
        exact ⟨birth, made, same.concat step⟩
      · -- The copy that is made is of the object of the one that is moved.
        obtain ⟨birth, made, same⟩ := ih seen
        have moved : (source, ⟨(start.after steps).faces.length⟩) ∈
            start.moves (steps ++ [step]) := by
          rw [moves]
          exact List.mem_append_right _ (List.mem_singleton_self _)
        exact ⟨birth, made, .trans _ _ _ (same.concat step) (.rel _ _ moved)⟩

/-- Objects that were made at different times have different monitors. -/
theorem Fresh.birth_of_monitor (fresh : start.Fresh) (steps : List HeapStep)
    (first : o ∈ start.births steps) (second : p ∈ start.births steps)
    (shared : (start.after steps).monitorId? o = (start.after steps).monitorId? p) : o = p := by
  induction steps using List.reverseRecOn with
  | nil => cases first
  | append_singleton steps step ih =>
    have extended := extends_concat start steps step
    have sound := (fresh.reachable steps).sound
    -- A monitor that is there already is not the one of an object that is made now.
    have known {o : ObjectId} (birth : o ∈ start.births steps) :
        ∃ i, (start.after steps).monitorId? o = some i ∧
          (start.after (steps ++ [step])).monitorId? o = some i ∧
          i.index < (start.after steps).monitors.length := by
      obtain ⟨face, found⟩ := fresh.face?_of_births steps birth
      have here := monitorId?_of_face? found
      exact ⟨face.monitor, here, extended.monitorId? here, sound.inside o face found⟩
    have earlier (first : o ∈ start.births steps) (second : p ∈ start.births steps) : o = p := by
      obtain ⟨i, before, after, -⟩ := known first
      obtain ⟨j, before', after', -⟩ := known second
      apply ih first second
      rw [before, before', ← after, ← after', shared]
    cases fresh.adds steps step with
    | nothing _ _ births | copy _ _ _ _ _ births =>
      rw [births] at first second
      exact earlier first second
    | object face monitor faces _ births =>
      have new : (start.after (steps ++ [step])).monitorId? ⟨(start.after steps).faces.length⟩ =
          some ⟨(start.after steps).monitors.length⟩ := by
        rw [monitorId?_eq_map_face?, face?_last faces, Option.map_some, monitor]
      have apart {o : ObjectId} (birth : o ∈ start.births steps) :
          (start.after (steps ++ [step])).monitorId? o ≠
            some ⟨(start.after steps).monitors.length⟩ := by
        obtain ⟨i, -, after, inside⟩ := known birth
        rw [after]
        rintro ⟨⟩
        exact absurd inside (Nat.lt_irrefl _)
      rw [births, List.mem_append, List.mem_singleton] at first second
      rcases first with first | rfl <;> rcases second with second | rfl
      · exact earlier first second
      · exact absurd (shared.trans new) (apart first)
      · exact absurd (shared.symm.trans new) (apart second)
      · rfl

/-- An object is made once. -/
theorem SameObject.birth (same : start.SameObject steps o p) (fresh : start.Fresh)
    (first : o ∈ start.births steps) (second : p ∈ start.births steps) : o = p := by
  apply fresh.birth_of_monitor steps first second
  rw [monitorId?_eq_map_face?, monitorId?_eq_map_face?, same.face? fresh]

/-! ## Moves and pointers -/

/-- Where only current copies are moved, pointers are not overwritten: they are the moves. -/
theorem Fresh.mem_moves_iff (fresh : start.Fresh) (tidy : Throughout Tidy start steps)
    (o p : ObjectId) :
    (o, p) ∈ start.moves steps ↔ (start.after steps).pointer? o = some p := by
  revert o p
  refine tidy.after (motive := fun steps h => ∀ o p, (o, p) ∈ start.moves steps ↔
    h.pointer? o = some p) ?_ ?_
  · obtain ⟨_, _, rfl⟩ := fresh
    simp [moves, along, pointer?, copy?]
  · intro steps step ih tidy o p
    by_cases moves : ∃ source, step = .relocate source
    · obtain ⟨source, rfl⟩ := moves
      rw [moves_concat, List.mem_append, ih]
      cases found : (start.after steps).copy? source with
      | none => simp [moved, found, Heap.step, relocate_of_no_copy found]
      | some old =>
        rw [Heap.step, pointer?_relocate found]
        by_cases here : o = source
        · subst here
          have unmoved : (start.after steps).pointer? o = none := tidy
          simp [moved, found, relocate_fst found, unmoved, eq_comm]
        · simp [moved, found, here]
    · have stays := not_exists.1 moves
      rw [moves_concat, List.mem_append, ih, pointer?_step _ stays]
      cases step with
      | relocate source => exact absurd rfl (stays source)
      | _ => simp [moved]

theorem SameObject.currentCopy? (same : start.SameObject steps o p) (fresh : start.Fresh)
    (tidy : Throughout Tidy start steps) :
    (start.after steps).currentCopy? o = (start.after steps).currentCopy? p := by
  have forward := (fresh.reachable steps).forward
  induction same with
  | rel o p moved => exact forward.currentCopy?_of_pointer? ((fresh.mem_moves_iff tidy o p).1 moved)
  | refl o => rfl
  | symm o p _ ih => exact ih.symm
  | trans o p q _ _ first second => exact first.trans second

theorem Fresh.sameObject_of_chain (fresh : start.Fresh) (tidy : Throughout Tidy start steps)
    {last : ObjectId} {rest : List ObjectId}
    (chain : List.IsChain (fun p q => (start.after steps).pointer? p = some q) (o :: rest))
    (ends : (o :: rest).getLast (List.cons_ne_nil o rest) = last) :
    start.SameObject steps o last := by
  induction rest generalizing o with
  | nil =>
    subst ends
    exact .refl o
  | cons next rest ih =>
    obtain ⟨pointer, chain⟩ := List.isChain_cons_cons.1 chain
    rw [List.getLast_cons (List.cons_ne_nil next rest)] at ends
    have moved := (fresh.mem_moves_iff tidy o next).2 pointer
    exact .trans _ _ _ (.rel _ _ moved) (ih chain ends)

end NativeBoundary.Heap
