import NativeBoundary.Proofs.Machine.HeapHistory
import NativeBoundary.Proofs.Machine.Returns

/-!
# Freed copies

Whether an object has been freed is noted in each copy of it.  A copy is freed when it is freed
itself and at no other time, and then for good: what becomes of the copy that it was moved to, or of
the one that it was moved from, does not count.
-/

set_option autoImplicit false

namespace NativeBoundary

namespace Heap

variable {h h' : Heap} {o p : ObjectId}

/-! ## One operation -/

theorem isAlive_of_copy? (same : h'.copy? o = h.copy? o) : h'.isAlive o = h.isAlive o := by
  rw [isAlive, same, isAlive]

theorem isAlive_update (o p : ObjectId) {change : Copy → Copy}
    (hidden : ∀ copy, (change copy).alive = copy.alive) :
    (h.update o change).isAlive p = h.isAlive p := by
  rw [isAlive, copy?_update, isAlive]
  split
  · next here =>
    rw [here]
    cases h.copy? o with
    | none => rfl
    | some copy => exact hidden copy
  · rfl

theorem ne_last_of_copy? (made : (h.copy? o).isSome = true) : o ≠ ⟨h.copies.length⟩ := by
  rintro rfl
  simp [copy?] at made

theorem isAlive_append {copy : Copy} (copies : h'.copies = h.copies ++ [copy])
    (made : (h.copy? o).isSome = true) : h'.isAlive o = h.isAlive o := by
  apply isAlive_of_copy?
  rw [copy?_append copies, if_neg (ne_last_of_copy? made)]

/-- A copy that is there stays alive unless it is freed. -/
theorem isAlive_step (h : Heap) (step : HeapStep) (made : (h.copy? o).isSome = true) :
    (h.step step).isAlive o = (h.isAlive o && decide (step ≠ .free o)) := by
  by_cases freed : step = .free o
  · subst freed
    rw [Heap.step, isAlive, copy?_free, if_pos rfl]
    cases h.copy? o <;> simp
  · rw [decide_eq_true freed, Bool.and_true]
    cases step with
    | allocate className => exact isAlive_append rfl made
    | classObject className =>
      simp only [Heap.step, classObject]
      cases h.classes.lookup className with
      | some _ => rfl
      | none => exact isAlive_append rfl made
    | mark p => exact isAlive_update p o fun _ => rfl
    | clearMarks =>
      rw [Heap.step, isAlive, copy?_clearMarks, isAlive]
      cases h.copy? o with
      | none => rfl
      | some copy =>
        simp only [Option.map_some, Option.any_some]
        split <;> rfl
    | relocate p =>
      cases found : h.copy? p with
      | none => rw [Heap.step, relocate_of_no_copy found]
      | some old =>
        rw [Heap.step, isAlive, copy?_relocate found, if_neg (ne_last_of_copy? made), isAlive]
        split
        · next here => rw [here, found, Option.any_some, Option.any_some]
        · rfl
    | free p =>
      have apart : o ≠ p := by
        rintro rfl
        exact freed rfl
      apply isAlive_of_copy?
      rw [Heap.step, copy?_free, if_neg apart]

/-! ## Histories -/

theorem Extends.copy? (extended : Extends h h') (made : (h.copy? o).isSome = true) :
    (h'.copy? o).isSome = true := by
  obtain ⟨copy, found⟩ := Option.isSome_iff_exists.1 made
  obtain ⟨copy', found', -⟩ := exists_copy_of_face? (extended.face? (face?_of_copy? found))
  exact Option.isSome_of_eq_some found'

/-- After a history a copy that was there at its start is alive exactly if it was alive then and has
not been freed in the history. -/
theorem isAlive_after (steps : List HeapStep) (h : Heap) (made : (h.copy? o).isSome = true) :
    (h.after steps).isAlive o = (h.isAlive o && decide (.free o ∉ steps)) := by
  induction steps generalizing h with
  | nil => simp [after]
  | cons first rest ih =>
    have later : ((h.step first).copy? o).isSome = true := (shaped_step h first).extends.copy? made
    rw [show h.after (first :: rest) = (h.step first).after rest from rfl, ih _ later,
      isAlive_step h first made, Bool.and_assoc, ← Bool.decide_and]
    simp only [List.mem_cons, not_or, ne_eq, @eq_comm _ first]

theorem Next.dead (next : Next h h') (made : (h.copy? o).isSome = true)
    (dead : h.isAlive o = false) : h'.isAlive o = false := by
  have monitors (p : ObjectId) (monitor : Monitor) :
      (h.setMonitor p monitor).isAlive o = false := by
    rw [← dead]
    apply isAlive_of_copy?
    rw [copy?, copies_setMonitor, copy?]
  cases next with
  | step step => rw [isAlive_step h step made, dead, Bool.false_and]
  | barrier => exact dead
  | enter t p monitor _ | exit t p monitor _ => exact monitors p monitor

/-- A copy that has been freed is never alive again. -/
theorem Leads.dead (later : Leads h h') (made : (h.copy? o).isSome = true)
    (dead : h.isAlive o = false) : h'.isAlive o = false := by
  induction later with
  | refl => exact dead
  | tail before next ih => exact next.dead ((Leads.extends before).copy? made) ih

theorem isAlive_free (made : (h.copy? o).isSome = true) :
    (h.free o).isAlive o = false ∧ ((h.free o).copy? o).isSome = true := by
  constructor
  · have freed : (h.step (.free o)).isAlive o = false := by simp [isAlive_step h (.free o) made]
    exact freed
  · exact (shaped_step h (.free o)).extends.copy? made

/-- A copy that is alive has not been freed since it was made, whenever that was. -/
theorem not_leads_of_isAlive (alive : h'.isAlive o = true) (made : (h.copy? o).isSome = true) :
    ¬ Leads (h.free o) h' := by
  intro later
  obtain ⟨dead, made⟩ := isAlive_free made
  rw [Leads.dead later made dead] at alive
  cases alive

end Heap

theorem Machine.isAlive_of_checkResult {method : Method} {o : ObjectId} {u : Unit} {m m' : Machine}
    (run : checkResult method (some o) m = .ok u m') : m.heap.isAlive o = true := by
  unfold checkResult at run
  rw [Act.modify_bind, Act.get_bind, Option.bind_some] at run
  cases alive : m.heap.isAlive o with
  | true => rfl
  | false =>
    have rejected : rejection? { m with registry := { m.registry with
        checkedResults := m.registry.checkedResults + 1 } } method o =
          some ("returned freed object " ++ m.heap.text o) := by
      simp [rejection?, alive]
    rw [rejected] at run
    exact absurd run Act.throw_ne_ok

end NativeBoundary
