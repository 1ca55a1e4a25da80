import NativeBoundary.Proofs.Machine.CopyHistory

/-!
# Where roots lead

A root is brought up to date by following pointers from copy to copy.  Whatever was moved before,
old copies included, the pointers lead to ever later copies of the same object and come to an end.
Where only current copies are moved, they come to the same end from all copies of an object.
-/

set_option autoImplicit false

namespace NativeBoundary

namespace Heap

variable {start h : Heap} {steps : List HeapStep} {o p last : ObjectId}

/-- What a machine with this heap makes of a root: it is brought up to date to a copy, and nothing
else happens but that this is counted. -/
def Resolves (h : Heap) (o last : ObjectId) : Prop :=
  ∀ m : Machine, m.heap = h →
    Machine.currentCopy o m =
      .ok last { m with heap := { m.heap with barrierCalls := m.heap.barrierCalls + 1 } }

theorem resolves_of_currentCopy? (found : h.currentCopy? o = some last) : h.Resolves o last := by
  intro m same
  subst same
  exact Machine.currentCopy_eq_ok found

/-- The numbers of copies rise along a chain of pointers. -/
theorem Forward.rises (forward : Forward h) {copies : List ObjectId}
    (chain : List.IsChain (fun p q => h.pointer? p = some q) copies) :
    List.IsChain (fun p q => h.pointer? p = some q ∧ p.number < q.number) copies := by
  rw [forward_iff] at forward
  apply chain.imp
  intro p q pointer
  have later := forward p q pointer
  exact ⟨pointer, Nat.succ_lt_succ later⟩

/-- From every copy that a history has made, pointers lead along a chain of ever later copies to one
that has not been moved and that has the same class name, kind and monitor, and a root is brought up
to date to that copy.  If the history moved current copies only, all copies of an object are brought
up to date to one and the same copy, which is the class object of its name if it is one. -/
theorem root_leads_to_current_copy (fresh : start.Fresh) (steps : List HeapStep) :
    (∀ o copy, (start.after steps).copy? o = some copy →
      ∃ rest last current,
        List.IsChain
          (fun p q => (start.after steps).pointer? p = some q ∧ p.number < q.number) (o :: rest) ∧
        (o :: rest).getLast (List.cons_ne_nil o rest) = last ∧
        (start.after steps).Resolves o last ∧
        (start.after steps).copy? last = some current ∧ current.forwarded = none ∧
        current.className = copy.className ∧ current.isClass = copy.isClass ∧
        current.monitor = copy.monitor) ∧
    (Throughout Tidy start steps → ∀ o p, start.SameObject steps o p →
      ∃ last, (start.after steps).Resolves o last ∧ (start.after steps).Resolves p last ∧
        ∀ copy, (start.after steps).copy? o = some copy → copy.isClass = true →
          last = ((start.after steps).classObject copy.className).1) := by
  have forward := (fresh.reachable steps).forward
  have aligned := (fresh.reachable steps).aligned
  constructor
  · intro o copy found
    obtain ⟨last, followed⟩ := Option.isSome_iff_exists.1 (forward.currentCopy?_isSome o)
    obtain ⟨rest, chain, ends, unmoved⟩ := chain_of_follow _ o followed
    obtain ⟨current, reached, face⟩ := aligned.copy?_of_follow found followed
    obtain ⟨className, isClass, monitor⟩ := Face.mk.inj face
    rw [pointer?_of_copy? reached] at unmoved
    exact ⟨rest, last, current, forward.rises chain, ends, resolves_of_currentCopy? followed,
      reached, unmoved, className, isClass, monitor⟩
  · intro tidy o p same
    obtain ⟨last, followed⟩ := Option.isSome_iff_exists.1 (forward.currentCopy?_isSome o)
    have followed' := (same.currentCopy? fresh tidy).symm.trans followed
    refine ⟨last, resolves_of_currentCopy? followed, resolves_of_currentCopy? followed', ?_⟩
    intro copy found isClass
    have face : (start.after steps).face? o = some ⟨copy.className, true, copy.monitor⟩ := by
      rw [face?_of_copy? found, ← isClass]
      rfl
    obtain ⟨entry, -⟩ := (fresh.tracked tidy).currentCopy?_class face
    exact Option.some.inj (followed.symm.trans entry)

def movedTwice : List HeapStep :=
  [.classObject "Foo", .allocate "Bar", .relocate ⟨0⟩, .relocate ⟨2⟩, .free ⟨1⟩]

def movedAgain : List HeapStep :=
  movedTwice ++ [.relocate ⟨0⟩]

theorem root_leads_to_current_copy_moved :
    (∃ last, (({} : Heap).after movedTwice).Resolves ⟨0⟩ last ∧
      (({} : Heap).after movedTwice).Resolves ⟨2⟩ last ∧
      last = ((({} : Heap).after movedTwice).classObject "Foo").1) ∧
    ∃ last current, (({} : Heap).after movedAgain).Resolves ⟨0⟩ last ∧
      (({} : Heap).after movedAgain).copy? last = some current ∧ current.forwarded = none ∧
      current.className = "Foo" ∧ current.monitor = ⟨0⟩ := by
  have fresh : Fresh {} := ⟨true, true, rfl⟩
  constructor
  · have tidy : Throughout Tidy {} movedTwice := by decide +kernel
    have moved : (⟨0⟩, ⟨2⟩) ∈ moves {} movedTwice := by decide +kernel
    obtain ⟨copy, found, isClass, named⟩ : ∃ copy,
        (({} : Heap).after movedTwice).copy? ⟨0⟩ = some copy ∧ copy.isClass = true ∧
          copy.className = "Foo" := ⟨_, rfl, rfl, rfl⟩
    obtain ⟨last, first, second, entry⟩ :=
      (root_leads_to_current_copy fresh movedTwice).2 tidy ⟨0⟩ ⟨2⟩ (.rel _ _ moved)
    exact ⟨last, first, second, named ▸ entry copy found isClass⟩
  · obtain ⟨copy, found, named, monitor⟩ : ∃ copy,
        (({} : Heap).after movedAgain).copy? ⟨0⟩ = some copy ∧ copy.className = "Foo" ∧
          copy.monitor = ⟨0⟩ := ⟨_, rfl, rfl, rfl⟩
    obtain ⟨-, last, current, -, -, resolves, reached, unmoved, sameName, -, sameMonitor⟩ :=
      (root_leads_to_current_copy fresh movedAgain).1 ⟨0⟩ copy found
    exact ⟨last, current, resolves, reached, unmoved, sameName.trans named,
      sameMonitor.trans monitor⟩

end Heap

end NativeBoundary
