import Mathlib.Data.List.Chain
import NativeBoundary.Proofs.Machine.HeapHistory
import NativeBoundary.Proofs.Machine.Returns

/-!
# Forwarding pointers

An object is moved to a copy that is made at that moment, so a forwarding pointer leads from a copy
to a later one.  Whoever follows pointers from a root comes to their end, and the current copy of a
root is always found.
-/

set_option autoImplicit false

namespace NativeBoundary

namespace Heap

variable {h h' : Heap}

/-! ## Pointers -/

def pointer? (h : Heap) (o : ObjectId) : Option ObjectId :=
  (h.copy? o).bind fun copy => copy.forwarded

theorem pointer?_of_copy? {o : ObjectId} {copy : Copy} (found : h.copy? o = some copy) :
    h.pointer? o = copy.forwarded := by
  rw [pointer?, found, Option.bind_some]

theorem pointer?_update (o p : ObjectId) {change : Copy → Copy}
    (hidden : ∀ copy, (change copy).forwarded = copy.forwarded) :
    (h.update o change).pointer? p = h.pointer? p := by
  rw [pointer?, copy?_update, pointer?]
  split
  · next here =>
    rw [here]
    cases h.copy? o with
    | none => rfl
    | some copy => exact hidden copy
  · rfl

theorem pointer?_append {copy : Copy} (unmoved : copy.forwarded = none)
    (copies : h'.copies = h.copies ++ [copy]) (p : ObjectId) : h'.pointer? p = h.pointer? p := by
  rw [pointer?, copy?_append copies, pointer?]
  split
  · next last => simp [last, copy?, unmoved]
  · rfl

/-- A move lays one pointer, from the copy that is moved to the one that is made. -/
theorem pointer?_relocate {o : ObjectId} {old : Copy} (found : h.copy? o = some old)
    (p : ObjectId) :
    (h.relocate o).2.pointer? p = if p = o then some ⟨h.copies.length⟩ else h.pointer? p := by
  rw [pointer?, copy?_relocate found, pointer?]
  split
  · rfl
  · split
    · next last => simp [last, copy?]
    · rfl

theorem pointer?_step (h : Heap) {step : HeapStep} (stays : ∀ o, step ≠ .relocate o)
    (p : ObjectId) : (h.step step).pointer? p = h.pointer? p := by
  cases step with
  | allocate className => exact pointer?_append rfl rfl p
  | classObject className =>
    simp only [Heap.step, classObject]
    cases h.classes.lookup className with
    | some o => rfl
    | none => exact pointer?_append rfl rfl p
  | mark o => exact pointer?_update o p fun _ => rfl
  | clearMarks =>
    rw [Heap.step, pointer?, copy?_clearMarks, pointer?]
    cases h.copy? p with
    | none => rfl
    | some copy =>
      simp only [Option.map_some, Option.bind_some]
      split <;> rfl
  | free o => exact pointer?_update o p fun _ => rfl
  | relocate o => exact absurd rfl (stays o)

theorem pointer?_setMonitor (h : Heap) (o p : ObjectId) (monitor : Monitor) :
    (h.setMonitor o monitor).pointer? p = h.pointer? p := by
  unfold setMonitor
  cases h.monitorId? o <;> rfl

/-! ## Pointers lead forward -/

def Forward (h : Heap) : Prop :=
  ∀ o copy next, h.copy? o = some copy → copy.forwarded = some next → o.index < next.index

theorem forward_iff :
    Forward h ↔ ∀ o next, h.pointer? o = some next → o.index < next.index := by
  constructor
  · intro forward o next pointer
    obtain ⟨copy, found, moved⟩ := Option.bind_eq_some_iff.1 pointer
    exact forward o copy next found moved
  · intro forward o copy next found moved
    exact forward o next (Option.bind_eq_some_iff.2 ⟨copy, found, moved⟩)

theorem forward_of_pointers (forward : Forward h) (same : ∀ o, h'.pointer? o = h.pointer? o) :
    Forward h' := by
  rw [forward_iff] at *
  intro o next pointer
  rw [same] at pointer
  exact forward o next pointer

theorem forward_step (forward : Forward h) (step : HeapStep) : Forward (h.step step) := by
  by_cases moves : ∃ o, step = .relocate o
  · obtain ⟨o, rfl⟩ := moves
    cases found : h.copy? o with
    | none =>
      rw [Heap.step, relocate_of_no_copy found]
      exact forward
    | some old =>
      have inside : o.index < h.copies.length := (List.getElem?_eq_some_iff.1 found).1
      rw [forward_iff] at *
      intro p next pointer
      rw [Heap.step, pointer?_relocate found] at pointer
      -- The one pointer that is new leads to the copy that was added at the end.
      split at pointer
      · next here =>
        obtain rfl := Option.some.inj pointer
        rw [here]
        exact inside
      · exact forward p next pointer
  · exact forward_of_pointers forward (pointer?_step h (not_exists.1 moves))

theorem Next.forward (next : Next h h') (forward : Forward h) : Forward h' := by
  cases next with
  | step step => exact forward_step forward step
  | barrier => exact forward
  | enter t o monitor _ | exit t o monitor _ =>
    exact forward_of_pointers forward fun p => pointer?_setMonitor h o p monitor

theorem Reachable.forward (reachable : Reachable h) : Forward h := by
  obtain ⟨readBarrier, marksProveCurrent, history⟩ := reachable
  induction history with
  | refl =>
    intro p copy next found
    simp [copy?] at found
  | tail _ next ih => exact next.forward ih

/-! ## Pointers lead to copies of the same object -/

def Aligned (h : Heap) : Prop :=
  ∀ o next, h.pointer? o = some next → h.face? next = h.face? o

theorem face?_of_pointer? {o next : ObjectId} (pointer : h.pointer? o = some next) :
    ∃ face, h.face? o = some face := by
  obtain ⟨copy, found, -⟩ := Option.bind_eq_some_iff.1 pointer
  exact ⟨copy.face, face?_of_copy? found⟩

theorem Aligned.of_extends (aligned : Aligned h) (extended : Extends h h') {o next : ObjectId}
    (pointer : h.pointer? o = some next) : h'.face? next = h'.face? o := by
  obtain ⟨face, found⟩ := face?_of_pointer? pointer
  have target := aligned o next pointer
  rw [found] at target
  rw [extended.face? found, extended.face? target]

theorem aligned_of_pointers (aligned : Aligned h) (extended : Extends h h')
    (same : ∀ o, h'.pointer? o = h.pointer? o) : Aligned h' := by
  intro o next pointer
  rw [same] at pointer
  exact aligned.of_extends extended pointer

theorem aligned_step (aligned : Aligned h) (step : HeapStep) : Aligned (h.step step) := by
  have extended := (shaped_step h step).extends
  by_cases moves : ∃ o, step = .relocate o
  · obtain ⟨o, rfl⟩ := moves
    cases found : h.copy? o with
    | none =>
      rw [Heap.step, relocate_of_no_copy found]
      exact aligned
    | some old =>
      have face := face?_of_copy? found
      intro p next pointer
      rw [Heap.step, pointer?_relocate found] at pointer
      split at pointer
      · next here =>
        obtain rfl := Option.some.inj pointer
        have made := face?_last (faces_relocate found)
        simp only [faces, List.length_map] at made
        rw [here, extended.face? face]
        exact made
      · exact aligned.of_extends extended pointer
  · exact aligned_of_pointers aligned extended (pointer?_step h (not_exists.1 moves))

theorem Next.aligned (next : Next h h') (aligned : Aligned h) : Aligned h' := by
  cases next with
  | step step => exact aligned_step aligned step
  | barrier => exact aligned
  | enter t o monitor _ | exit t o monitor _ =>
    refine aligned_of_pointers aligned ?_ fun p => pointer?_setMonitor h o p monitor
    exact ⟨[], by rw [faces_setMonitor, List.append_nil]⟩

theorem Reachable.aligned (reachable : Reachable h) : Aligned h := by
  obtain ⟨readBarrier, marksProveCurrent, history⟩ := reachable
  induction history with
  | refl =>
    intro o next pointer
    simp [pointer?, copy?] at pointer
  | tail _ next ih => exact next.aligned ih

/-! ## Following pointers -/

theorem follow_succ (h : Heap) (fuel : Nat) (o : ObjectId) :
    h.follow (fuel + 1) o =
      match h.pointer? o with
      | none => some o
      | some next => h.follow fuel next := rfl

theorem follow_congr (same : ∀ o, h'.pointer? o = h.pointer? o) (fuel : Nat) (o : ObjectId) :
    h'.follow fuel o = h.follow fuel o := by
  induction fuel generalizing o with
  | zero => rfl
  | succ fuel ih =>
    rw [follow_succ, follow_succ, same]
    cases h.pointer? o with
    | none => rfl
    | some next => exact ih next

theorem currentCopy?_congr (copies : h'.copies = h.copies) (o : ObjectId) :
    h'.currentCopy? o = h.currentCopy? o := by
  have pointers (p : ObjectId) : h'.pointer? p = h.pointer? p := by
    simp only [pointer?, copy?, copies]
  rw [currentCopy?, currentCopy?, copies]
  exact follow_congr pointers _ o

/-- Whoever has followed pointers to their end has come along a chain of them. -/
theorem chain_of_follow {last : ObjectId} (fuel : Nat) (o : ObjectId)
    (followed : h.follow fuel o = some last) :
    ∃ rest, List.IsChain (fun p q => h.pointer? p = some q) (o :: rest) ∧
      (o :: rest).getLast (List.cons_ne_nil o rest) = last ∧ h.pointer? last = none := by
  induction fuel generalizing o with
  | zero => cases followed
  | succ fuel ih =>
    rw [follow_succ] at followed
    cases pointer : h.pointer? o with
    | none =>
      rw [pointer] at followed
      obtain rfl := Option.some.inj followed
      exact ⟨[], .singleton o, rfl, pointer⟩
    | some next =>
      rw [pointer] at followed
      obtain ⟨rest, chain, ends, current⟩ := ih next followed
      refine ⟨next :: rest, .cons_cons pointer chain, ?_, current⟩
      rw [List.getLast_cons (List.cons_ne_nil next rest)]
      exact ends

theorem Aligned.face?_of_follow (aligned : Aligned h) {last : ObjectId} (fuel : Nat) (o : ObjectId)
    (followed : h.follow fuel o = some last) : h.face? last = h.face? o := by
  induction fuel generalizing o with
  | zero => cases followed
  | succ fuel ih =>
    rw [follow_succ] at followed
    cases pointer : h.pointer? o with
    | none =>
      rw [pointer] at followed
      obtain rfl := Option.some.inj followed
      rfl
    | some next =>
      rw [pointer] at followed
      exact (ih next followed).trans (aligned o next pointer)

theorem Aligned.copy?_of_follow (aligned : Aligned h) {o last : ObjectId} {copy : Copy} {fuel : Nat}
    (found : h.copy? o = some copy) (followed : h.follow fuel o = some last) :
    ∃ current, h.copy? last = some current ∧ current.face = copy.face := by
  have face := aligned.face?_of_follow fuel o followed
  rw [face?_of_copy? found] at face
  exact exists_copy_of_face? face

theorem follow_mono {last : ObjectId} (fuel : Nat) (o : ObjectId)
    (followed : h.follow fuel o = some last) : h.follow (fuel + 1) o = some last := by
  induction fuel generalizing o with
  | zero => cases followed
  | succ fuel ih =>
    rw [follow_succ] at followed ⊢
    cases pointer : h.pointer? o with
    | none =>
      rw [pointer] at followed
      exact followed
    | some next =>
      rw [pointer] at followed
      exact ih next followed

theorem Forward.follow_isSome (forward : Forward h) (fuel : Nat) (o : ObjectId)
    (enough : h.copies.length - o.index < fuel) : (h.follow fuel o).isSome = true := by
  -- A pointer leads to a later copy, so each one that is followed leaves fewer copies ahead.
  induction fuel generalizing o with
  | zero => exact absurd enough (Nat.not_lt_zero _)
  | succ fuel ih =>
    rw [follow_succ]
    cases pointer : h.pointer? o with
    | none => rfl
    | some next =>
      obtain ⟨copy, found, moved⟩ := Option.bind_eq_some_iff.1 pointer
      have later := forward o copy next found moved
      have inside : o.index < h.copies.length := (List.getElem?_eq_some_iff.1 found).1
      exact ih next (by omega)

theorem Forward.currentCopy?_isSome (forward : Forward h) (o : ObjectId) :
    (h.currentCopy? o).isSome = true :=
  forward.follow_isSome _ o (by omega)

/-- A copy and the one that it was moved to have one current copy. -/
theorem Forward.currentCopy?_of_pointer? (forward : Forward h) {o next : ObjectId}
    (pointer : h.pointer? o = some next) : h.currentCopy? o = h.currentCopy? next := by
  obtain ⟨copy, found, moved⟩ := Option.bind_eq_some_iff.1 pointer
  have later := forward o copy next found moved
  have inside : o.index < h.copies.length := (List.getElem?_eq_some_iff.1 found).1
  obtain ⟨last, followed⟩ :=
    Option.isSome_iff_exists.1 (forward.follow_isSome h.copies.length next (by omega))
  calc h.currentCopy? o = h.follow h.copies.length next := by
        rw [currentCopy?, follow_succ, pointer]
    _ = some last := followed
    _ = h.currentCopy? next := (follow_mono _ next followed).symm

end Heap

theorem Machine.currentCopy_eq_ok {m : Machine} {o current : ObjectId}
    (found : m.heap.currentCopy? o = some current) :
    currentCopy o m =
      .ok current { m with heap := { m.heap with barrierCalls := m.heap.barrierCalls + 1 } } := by
  let counted : Heap := { m.heap with barrierCalls := m.heap.barrierCalls + 1 }
  have copies : counted.copies = m.heap.copies := rfl
  unfold currentCopy changeHeap
  rw [Act.modify_bind, Act.get_bind, Heap.currentCopy?_congr copies, found]
  rfl

theorem Machine.currentCopy_of_found {m : Machine} {o current : ObjectId}
    (found : m.heap.currentCopy? o = some current) : ∃ m', currentCopy o m = .ok current m' :=
  ⟨_, currentCopy_eq_ok found⟩

/-- A class or another root is brought up to date without waiting. -/
theorem Machine.currentCopy_returns {m : Machine} (forward : m.heap.Forward) (o : ObjectId) :
    ∃ current m', currentCopy o m = .ok current m' := by
  obtain ⟨current, found⟩ := Option.isSome_iff_exists.1 (forward.currentCopy?_isSome o)
  exact ⟨current, currentCopy_of_found found⟩

end NativeBoundary
