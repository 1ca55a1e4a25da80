import NativeBoundary.Proofs.Machine.Forwarding

/-!
# Current copies of classes

The collector moves current copies only.  Then the pointers of an object form one chain: they lead
from copy to copy of the same object, and all chains of a class object end at the copy in the class
table.  So whoever follows the pointers from any copy of a class object, of whatever age, comes to
the copy that is current.
-/

set_option autoImplicit false

namespace NativeBoundary.Heap

variable {h h' : Heap}

def Tidy (h : Heap) : HeapStep → Prop
  | .relocate o => h.pointer? o = none
  | _ => True

instance (h : Heap) : (step : HeapStep) → Decidable (h.Tidy step)
  | .relocate o => inferInstanceAs (Decidable (h.pointer? o = none))
  | .allocate _ | .classObject _ | .mark _ | .clearMarks | .free _ => isTrue trivial

/-- Pointers lead from copy to copy of the same object, and of all copies of a class object the one
in the class table is current and no other. -/
structure Tracked (h : Heap) : Prop where
  sound : Sound h
  forward : Forward h
  same : ∀ o next, h.pointer? o = some next → h.face? next = h.face? o
  current : ∀ o face, h.face? o = some face → face.isClass = true →
    (h.pointer? o = none ↔ h.classes.lookup face.className = some o)

theorem tracked_empty (readBarrier marksProveCurrent : Bool) :
    Tracked { readBarrier, marksProveCurrent } where
  sound := sound_fresh readBarrier marksProveCurrent
  forward := by simp [Forward, copy?]
  same := by simp [pointer?, copy?]
  current := by simp [face?, faces]

/-! ## One operation -/

theorem pointer?_outside (h : Heap) : h.pointer? ⟨h.faces.length⟩ = none := by
  simp [pointer?, copy?, faces]

namespace Tracked

theorem unchanged (tracked : Tracked h) (sound : Sound h') (faces : h'.faces = h.faces)
    (pointers : ∀ o, h'.pointer? o = h.pointer? o) (classes : h'.classes = h.classes) :
    Tracked h' where
  sound := sound
  forward := forward_of_pointers tracked.forward pointers
  same := by simpa only [pointers, face?, faces] using tracked.same
  current := by simpa only [pointers, face?, faces, classes] using tracked.current

theorem object {className : String} {monitor : MonitorId} (tracked : Tracked h) (sound : Sound h')
    (faces : h'.faces = h.faces ++ [⟨className, false, monitor⟩])
    (pointers : ∀ o, h'.pointer? o = h.pointer? o) (classes : h'.classes = h.classes) :
    Tracked h' where
  sound := sound
  forward := forward_of_pointers tracked.forward pointers
  same := aligned_of_pointers tracked.same (extends_of_append faces) pointers
  current o face found isClass := by
    rw [pointers, classes]
    rcases face?_of_append faces found with old | ⟨-, rfl⟩
    · exact tracked.current o face old isClass
    · cases isClass

theorem classObject {className : String} {monitor : MonitorId} (tracked : Tracked h)
    (sound : Sound h') (missing : h.classes.lookup className = none)
    (faces : h'.faces = h.faces ++ [⟨className, true, monitor⟩])
    (pointers : ∀ o, h'.pointer? o = h.pointer? o)
    (classes : ∀ name, h'.classes.lookup name =
      if name = className then some ⟨h.faces.length⟩ else h.classes.lookup name) :
    Tracked h' where
  sound := sound
  forward := forward_of_pointers tracked.forward pointers
  same := aligned_of_pointers tracked.same (extends_of_append faces) pointers
  current o face found isClass := by
    rw [pointers, classes]
    rcases face?_of_append faces found with old | ⟨rfl, rfl⟩
    · obtain ⟨entry, named, -⟩ := tracked.sound.shared o face old isClass
      have other : face.className ≠ className := by
        intro equal
        rw [equal, missing] at named
        cases named
      rw [if_neg other]
      exact tracked.current o face old isClass
    · rw [if_pos rfl]
      exact iff_of_true (pointer?_outside h) rfl

/-- A move of a current copy: the copy that is made is current from then on, in place of it. -/
theorem relocate (tracked : Tracked h) {o : ObjectId} (current : h.pointer? o = none) :
    Tracked (h.relocate o).2 := by
  cases found : h.copy? o with
  | none =>
    rw [relocate_of_no_copy found]
    exact tracked
  | some old =>
    have seen := face?_of_copy? found
    have faces := faces_relocate found
    have count : h.copies.length = h.faces.length := by simp [Heap.faces]
    refine ⟨(shaped_relocate h o).sound tracked.sound, forward_step tracked.forward (.relocate o),
      aligned_step tracked.same (.relocate o), fun p face later isClass => ?_⟩
    rw [pointer?_relocate found, lookup_relocate found]
    rcases face?_of_append faces later with before | ⟨rfl, rfl⟩
    · -- An older copy: the moved one is not current any more, the others are as they were.
      have apart : p ≠ ⟨h.copies.length⟩ := by
        rintro rfl
        obtain ⟨inside, -⟩ := List.getElem?_eq_some_iff.1 before
        simp [Heap.faces] at inside
      have known := tracked.current p face before isClass
      have entry := tracked.current o old.face seen
      by_cases here : p = o
      · subst here
        obtain rfl := Option.some.inj (before.symm.trans seen)
        have moved : old.isClass = true ∧ old.face.className = old.className := ⟨isClass, rfl⟩
        rw [if_pos rfl, if_pos moved]
        simp [apart.symm]
      · rw [if_neg here, known]
        by_cases moved : old.isClass = true ∧ face.className = old.className
        · rw [if_pos moved, moved.2, show old.className = old.face.className from rfl,
            (entry moved.1).1 current]
          simp [apart.symm, Ne.symm here]
        · rw [if_neg moved]
    · -- The copy that is made.
      have new : (⟨h.faces.length⟩ : ObjectId) ≠ o := by
        rintro rfl
        obtain ⟨inside, -⟩ := List.getElem?_eq_some_iff.1 seen
        exact absurd inside (Nat.lt_irrefl _)
      rw [if_neg new, if_pos ⟨isClass, rfl⟩, count]
      exact iff_of_true (pointer?_outside h) rfl

theorem step (tracked : Tracked h) {step : HeapStep} (tidy : h.Tidy step) :
    Tracked (h.step step) := by
  have sound := (shaped_step h step).sound tracked.sound
  cases step with
  | allocate className =>
    have faces : (h.step (.allocate className)).faces =
        h.faces ++ [⟨className, false, ⟨h.monitors.length⟩⟩] := by
      simp [Heap.step, allocate, create, add, Heap.faces, Copy.face]
    exact tracked.object sound faces (pointer?_step h (by simp)) rfl
  | classObject className =>
    have pointers : ∀ p, (h.step (.classObject className)).pointer? p = h.pointer? p :=
      pointer?_step h (by simp)
    simp only [Heap.step, Heap.classObject] at sound pointers ⊢
    cases found : h.classes.lookup className with
    | some o => exact tracked
    | none =>
      simp only [found] at sound pointers ⊢
      have faces : ((h.create className true).2.setClass className
          (h.create className true).1).faces =
            h.faces ++ [⟨className, true, ⟨h.monitors.length⟩⟩] := by
        simp [create, add, setClass, Heap.faces, Copy.face]
      refine tracked.classObject sound found faces pointers ?_
      · intro name
        rw [lookup_setClass]
        simp [create, add, Heap.faces]
  | mark o =>
    exact tracked.unchanged sound (faces_update o fun _ => rfl) (pointer?_step h (by simp)) rfl
  | clearMarks =>
    exact tracked.unchanged sound (faces_clearMarks h) (pointer?_step h (by simp)) rfl
  | free o =>
    exact tracked.unchanged sound (faces_update o fun _ => rfl) (pointer?_step h (by simp)) rfl
  | relocate o => exact tracked.relocate tidy

/-! ## The end of a chain -/

theorem lookup_of_follow (tracked : Tracked h) {className : String} {monitor : MonitorId}
    {last : ObjectId} (fuel : Nat) (o : ObjectId)
    (found : h.face? o = some ⟨className, true, monitor⟩)
    (followed : h.follow fuel o = some last) : h.classes.lookup className = some last := by
  -- The face stays the same along the chain, and a copy without a pointer is the one in the table.
  obtain ⟨-, -, -, unmoved⟩ := chain_of_follow fuel o followed
  have face := (Aligned.face?_of_follow tracked.same fuel o followed).trans found
  exact (tracked.current last _ face rfl).1 unmoved

/-- From any copy of a class object its pointers lead to the class object of its name, which has
not been moved. -/
theorem currentCopy?_class (tracked : Tracked h) {o : ObjectId} {className : String}
    {monitor : MonitorId} (found : h.face? o = some ⟨className, true, monitor⟩) :
    h.currentCopy? o = some (h.classObject className).1 ∧
      h.pointer? (h.classObject className).1 = none := by
  obtain ⟨last, followed⟩ :=
    Option.isSome_iff_exists.1 (tracked.forward.currentCopy?_isSome o)
  have named := tracked.lookup_of_follow _ o found followed
  obtain ⟨i, face⟩ := tracked.sound.table className last named
  rw [classObject_of_lookup named]
  exact ⟨followed, (tracked.current last _ face rfl).2 named⟩

end Tracked

end NativeBoundary.Heap
