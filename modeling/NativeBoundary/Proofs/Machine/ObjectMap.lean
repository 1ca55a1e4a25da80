import Mathlib.Data.List.Nodup
import NativeBoundary.Proofs.Machine.CopyHistory
import NativeBoundary.Proofs.Machine.Liveness

/-!
# The object map

The heap enters each copy that it makes in its object map, and strikes out the copies that it moves
or frees.  Whatever happens, an entry stands under the number of its own copy, and no number has two
entries.  Where only entries are moved and freed, there is one entry for each object that was made
and not freed, and none for any other: the copy of it that is current.
-/

set_option autoImplicit false

namespace NativeBoundary

def HeapStep.isFree : HeapStep → Bool
  | .free _ => true
  | _ => false

theorem ObjectId.number_inj {o p : ObjectId} : o.number = p.number ↔ o = p := by
  cases o
  cases p
  simp [ObjectId.number]

namespace Heap

variable {start h h' : Heap} {steps : List HeapStep} {step : HeapStep} {o p : ObjectId}

/-! ## Entries -/

/-- Each entry stands under the number of its own copy, which has been made, and no number has two
entries. -/
structure Keyed (h : Heap) : Prop where
  own : ∀ entry ∈ h.objects, entry.1 = entry.2.number
  distinct : (h.objects.map Prod.fst).Nodup
  made : ∀ entry ∈ h.objects, entry.2.index < h.copies.length

theorem mem_strike {entry : Nat × ObjectId} :
    entry ∈ (h.strike o).objects ↔ entry ∈ h.objects ∧ entry.1 ≠ o.number := by
  simp [strike]

theorem mem_enlist {entry : Nat × ObjectId} :
    entry ∈ (h.enlist o).objects ↔ entry = (o.number, o) ∨ entry ∈ (h.strike o).objects :=
  List.mem_cons

theorem entered_of_objects (same : h'.objects = h.objects) : h'.entered = h.entered := by
  rw [entered, same, entered]

theorem copies_firstUse {className : String} (first : h.classes.lookup className = none) :
    (h.step (.classObject className)).copies =
      h.copies ++ [{ className, isClass := true, monitor := ⟨h.monitors.length⟩ }] := by
  simp [Heap.step, classObject, first, create, add, setClass]

theorem objects_firstUse {className : String} (first : h.classes.lookup className = none) :
    (h.step (.classObject className)).objects = (h.enlist ⟨h.copies.length⟩).objects := by
  simp only [Heap.step, classObject, first]
  rfl

theorem objects_relocate {old : Copy} (found : h.copy? o = some old) :
    (h.relocate o).2.objects = ((h.strike o).enlist ⟨h.copies.length⟩).objects := by
  simp only [relocate, found]
  split <;> rfl

namespace Keyed

theorem of_objects (keyed : Keyed h) (same : h'.objects = h.objects)
    (kept : h.copies.length ≤ h'.copies.length) : Keyed h' := by
  obtain ⟨own, distinct, made⟩ := keyed
  rw [← same] at own distinct made
  exact ⟨own, distinct, fun entry member => Nat.lt_of_lt_of_le (made entry member) kept⟩

theorem strike (keyed : Keyed h) (o : ObjectId) : Keyed (h.strike o) where
  own entry member := keyed.own entry (mem_strike.1 member).1
  distinct := keyed.distinct.sublist (List.filter_sublist.map Prod.fst)
  made entry member := keyed.made entry (mem_strike.1 member).1

theorem append (keyed : Keyed h) (grown : h.copies.length < h'.copies.length)
    (entered : h'.objects = (h.enlist ⟨h.copies.length⟩).objects) : Keyed h' := by
  have struck := keyed.strike ⟨h.copies.length⟩
  refine ⟨fun entry member => ?_, ?_, fun entry member => ?_⟩
  · rw [entered] at member
    rcases mem_enlist.1 member with rfl | older
    · rfl
    · exact struck.own entry older
  · rw [entered]
    refine List.nodup_cons.2 ⟨fun again => ?_, struck.distinct⟩
    obtain ⟨entry, older, same⟩ := List.mem_map.1 again
    exact (mem_strike.1 older).2 same
  · rw [entered] at member
    rcases mem_enlist.1 member with rfl | older
    · exact grown
    · exact Nat.lt_trans (struck.made entry older) grown

theorem next (keyed : Keyed h) (step : HeapStep) : Keyed (h.step step) := by
  cases step with
  | allocate className => exact keyed.append (by simp [Heap.step, allocate, create, add]) rfl
  | classObject className =>
    cases found : h.classes.lookup className with
    | some o =>
      rw [Heap.step, classObject_of_lookup found]
      exact keyed
    | none => exact keyed.append (by simp [copies_firstUse found]) (objects_firstUse found)
  | mark o => exact keyed.of_objects rfl (by simp [Heap.step, mark, update])
  | clearMarks => exact keyed.of_objects rfl (by simp [Heap.step, clearMarks])
  | relocate o =>
    cases found : h.copy? o with
    | none =>
      rw [Heap.step, relocate_of_no_copy found]
      exact keyed
    | some old =>
      refine (keyed.strike o).append ?_ (objects_relocate found)
      rw [Heap.step, ← length_faces, ← length_faces, faces_relocate found, List.length_append]
      exact Nat.lt_succ_self _
  | free o => exact (keyed.strike o).of_objects rfl (by simp [Heap.step, free, update])

theorem after (keyed : Keyed h) (steps : List HeapStep) : Keyed (h.after steps) := by
  induction steps generalizing h with
  | nil => exact keyed
  | cons first rest ih => exact ih (keyed.next first)

/-! ## Copies that have an entry -/

variable (keyed : Keyed h)
include keyed

theorem mem_objects_iff {number : Nat} :
    (number, o) ∈ h.objects ↔ number = o.number ∧ o ∈ h.entered := by
  constructor
  · intro member
    exact ⟨keyed.own _ member, List.mem_map_of_mem member⟩
  · rintro ⟨rfl, member⟩
    obtain ⟨entry, found, rfl⟩ := List.mem_map.1 member
    rw [← keyed.own entry found]
    exact found

theorem last_notMem_entered : ⟨h.copies.length⟩ ∉ h.entered := by
  intro member
  obtain ⟨entry, found, last⟩ := List.mem_map.1 member
  have inside := keyed.made entry found
  rw [last] at inside
  exact Nat.lt_irrefl _ inside

theorem mem_entered_strike : p ∈ (h.strike o).entered ↔ p ∈ h.entered ∧ p ≠ o := by
  have here (entry : Nat × ObjectId) (member : entry ∈ h.objects) :
      entry.1 ≠ o.number ↔ entry.2 ≠ o := by
    rw [keyed.own entry member, Ne, ObjectId.number_inj]
  constructor
  · intro member
    obtain ⟨entry, left, rfl⟩ := List.mem_map.1 member
    obtain ⟨older, apart⟩ := mem_strike.1 left
    exact ⟨List.mem_map_of_mem older, (here entry older).1 apart⟩
  · rintro ⟨member, apart⟩
    obtain ⟨entry, older, rfl⟩ := List.mem_map.1 member
    exact List.mem_map_of_mem (mem_strike.2 ⟨older, (here entry older).2 apart⟩)

theorem mem_entered_enlist : p ∈ (h.enlist o).entered ↔ p = o ∨ p ∈ h.entered := by
  have first : p ∈ (h.enlist o).entered ↔ p = o ∨ p ∈ (h.strike o).entered := List.mem_cons
  rw [first, keyed.mem_entered_strike]
  by_cases last : p = o <;> simp [last]

theorem nodup_entered : h.entered.Nodup := by
  have numbers : h.objects.map Prod.fst = h.entered.map ObjectId.number := by
    rw [entered, List.map_map]
    exact List.map_congr_left keyed.own
  have distinct := keyed.distinct
  rw [numbers] at distinct
  exact distinct.of_map _

/-! ## How many entries there are -/

theorem liveCount_strike (member : o ∈ h.entered) :
    (h.strike o).liveCount + 1 = h.liveCount := by
  have listed : o.number ∈ h.objects.map Prod.fst :=
    List.mem_map_of_mem (keyed.mem_objects_iff.2 ⟨rfl, member⟩)
  have once := List.count_eq_one_of_mem keyed.distinct listed
  rw [List.count, List.countP_map, List.countP_eq_length_filter] at once
  have parts := List.length_eq_length_filter_add (l := h.objects) fun entry => entry.1 == o.number
  have left : (h.strike o).objects = h.objects.filter fun entry => !(entry.1 == o.number) :=
    List.filter_congr fun entry _ => decide_not
  rw [liveCount, liveCount, left, parts, Nat.add_comm]
  exact congrArg (· + _) once.symm

theorem liveCount_enlist (new : o ∉ h.entered) : (h.enlist o).liveCount = h.liveCount + 1 := by
  have struck : (h.strike o).objects = h.objects := by
    refine List.filter_eq_self.2 fun entry member => ?_
    refine decide_eq_true fun same => new ?_
    rw [keyed.own entry member, ObjectId.number_inj] at same
    exact same ▸ List.mem_map_of_mem member
  rw [liveCount, enlist, struck, List.length_cons, liveCount]

end Keyed

theorem Fresh.keyed (fresh : start.Fresh) (steps : List HeapStep) : Keyed (start.after steps) := by
  obtain ⟨_, _, rfl⟩ := fresh
  exact Keyed.after ⟨by simp, by simp, by simp⟩ steps

/-! ## Moving and freeing entries -/

def Orderly (h : Heap) : HeapStep → Prop
  | .relocate o | .free o => o ∈ h.entered
  | _ => True

instance (h : Heap) : (step : HeapStep) → Decidable (h.Orderly step)
  | .relocate o | .free o => inferInstanceAs (Decidable (o ∈ h.entered))
  | .allocate _ | .classObject _ | .mark _ | .clearMarks => isTrue trivial

/-- What the entries are after some operations: a copy is alive unless it was freed, it has an entry
if it is alive and has not been moved, and no copy that was freed has been moved. -/
structure Filed (steps : List HeapStep) (h : Heap) : Prop where
  keyed : Keyed h
  entry : ∀ o copy, h.copy? o = some copy →
    (o ∈ h.entered ↔ copy.alive = true ∧ copy.forwarded = none)
  alive : ∀ o copy, h.copy? o = some copy → (copy.alive = true ↔ .free o ∉ steps)
  freed : ∀ o, .free o ∈ steps → ∃ copy, h.copy? o = some copy ∧ copy.forwarded = none

theorem Keyed.exists_copy (keyed : Keyed h) (entered : o ∈ h.entered) :
    ∃ copy, h.copy? o = some copy := by
  obtain ⟨entry, member, rfl⟩ := List.mem_map.1 entered
  exact ⟨_, List.getElem?_eq_getElem (keyed.made entry member)⟩

namespace Filed

theorem unchanged (filed : Filed steps h) (others : step.isFree = false) (keyed : Keyed h')
    (objects : h'.objects = h.objects)
    (same : ∀ o copy', h'.copy? o = some copy' → ∃ copy, h.copy? o = some copy ∧
      copy'.alive = copy.alive ∧ copy'.forwarded = copy.forwarded)
    (kept : ∀ o, (h.copy? o).isSome = true → (h'.copy? o).isSome = true) :
    Filed (steps ++ [step]) h' := by
  have frees (o : ObjectId) : .free o ∈ steps ++ [step] ↔ .free o ∈ steps := by
    have apart : HeapStep.free o ≠ step := by
      rintro rfl
      cases others
    simp [apart]
  refine ⟨keyed, fun o copy' found => ?_, fun o copy' found => ?_, fun o freed => ?_⟩
  · obtain ⟨copy, before, alive, forwarded⟩ := same o copy' found
    rw [entered_of_objects objects, alive, forwarded]
    exact filed.entry o copy before
  · obtain ⟨copy, before, alive, -⟩ := same o copy' found
    rw [alive, frees]
    exact filed.alive o copy before
  · obtain ⟨copy, before, unmoved⟩ := filed.freed o ((frees o).1 freed)
    obtain ⟨copy', found⟩ :=
      Option.isSome_iff_exists.1 (kept o (Option.isSome_of_eq_some before))
    obtain ⟨_, before', -, forwarded⟩ := same o copy' found
    obtain rfl := Option.some.inj (before.symm.trans before')
    exact ⟨copy', found, forwarded.trans unmoved⟩

/-- A copy that is made is alive, is entered and has not been moved. -/
theorem append (filed : Filed steps h) (others : step.isFree = false) {new : Copy}
    (copies : h'.copies = h.copies ++ [new])
    (entered : h'.objects = (h.enlist ⟨h.copies.length⟩).objects) (alive : new.alive = true)
    (unmoved : new.forwarded = none) : Filed (steps ++ [step]) h' := by
  have unfreed : .free ⟨h.copies.length⟩ ∉ steps ++ [step] := by
    have apart : HeapStep.free ⟨h.copies.length⟩ ≠ step := by
      rintro rfl
      cases others
    rw [List.mem_append, List.mem_singleton, not_or]
    refine ⟨fun freed => ?_, apart⟩
    obtain ⟨copy, found, -⟩ := filed.freed _ freed
    exact ne_last_of_copy? (Option.isSome_of_eq_some found) rfl
  have older : Filed (steps ++ [step]) h :=
    filed.unchanged others filed.keyed rfl (fun o copy found => ⟨copy, found, rfl, rfl⟩)
      fun _ made => made
  have kept (o : ObjectId) (made : (h.copy? o).isSome = true) : h'.copy? o = h.copy? o := by
    rw [copy?_append copies, if_neg (ne_last_of_copy? made)]
  refine ⟨filed.keyed.append (by simp [copies]) entered, fun o copy found => ?_,
    fun o copy found => ?_, fun o freed => ?_⟩
  · rw [entered_of_objects entered, filed.keyed.mem_entered_enlist]
    rw [copy?_append copies] at found
    split at found
    · next last =>
      obtain rfl := Option.some.inj found
      exact iff_of_true (.inl last) ⟨alive, unmoved⟩
    · next earlier => simpa [earlier] using older.entry o copy found
  · rw [copy?_append copies] at found
    split at found
    · next last =>
      obtain rfl := Option.some.inj found
      rw [last]
      exact iff_of_true alive unfreed
    · exact older.alive o copy found
  · obtain ⟨copy, found, unmoved⟩ := older.freed o freed
    exact ⟨copy, by rw [kept o (Option.isSome_of_eq_some found), found], unmoved⟩

/-- A move of an entry: the copy that is made is entered in place of the one that is moved. -/
theorem relocate (filed : Filed steps h) (entered : o ∈ h.entered) :
    Filed (steps ++ [.relocate o]) (h.step (.relocate o)) := by
  obtain ⟨old, found⟩ := filed.keyed.exists_copy entered
  have alive : old.alive = true := ((filed.entry o old found).1 entered).1
  have inside := ne_last_of_copy? (Option.isSome_of_eq_some found)
  have frees (p : ObjectId) : .free p ∈ steps ++ [.relocate o] ↔ .free p ∈ steps := by simp
  have entries (p : ObjectId) : p ∈ (h.step (.relocate o)).entered ↔
      p = ⟨h.copies.length⟩ ∨ p ∈ h.entered ∧ p ≠ o := by
    rw [Heap.step, entered_of_objects (objects_relocate found),
      (filed.keyed.strike o).mem_entered_enlist, filed.keyed.mem_entered_strike]
  refine ⟨filed.keyed.next (.relocate o), fun p copy later => ?_, fun p copy later => ?_,
    fun p freed => ?_⟩
  · rw [entries]
    rw [Heap.step, copy?_relocate found] at later
    split at later
    · next here =>
      obtain rfl := Option.some.inj later
      simp [here, inside]
    · next apart =>
      split at later
      · next last =>
        obtain rfl := Option.some.inj later
        exact iff_of_true (.inl last) ⟨rfl, rfl⟩
      · next earlier => simpa [apart, earlier] using filed.entry p copy later
  · rw [Heap.step, copy?_relocate found] at later
    rw [frees]
    split at later
    · next here =>
      obtain rfl := Option.some.inj later
      rw [here]
      exact filed.alive o old found
    · split at later
      · next last =>
        obtain rfl := Option.some.inj later
        refine iff_of_true rfl fun freed => ?_
        obtain ⟨copy, before, -⟩ := filed.freed p freed
        exact ne_last_of_copy? (Option.isSome_of_eq_some before) last
      · exact filed.alive p copy later
  · obtain ⟨copy, before, unmoved⟩ := filed.freed p ((frees p).1 freed)
    -- What was freed has no entry, so it is not what is moved.
    have here : p ≠ o := by
      rintro rfl
      obtain rfl := Option.some.inj (before.symm.trans found)
      exact (filed.alive p copy found).1 alive ((frees p).1 freed)
    refine ⟨copy, ?_, unmoved⟩
    rw [Heap.step, copy?_relocate found, if_neg here,
      if_neg (ne_last_of_copy? (Option.isSome_of_eq_some before))]
    exact before

theorem free (filed : Filed steps h) (entered : o ∈ h.entered) :
    Filed (steps ++ [.free o]) (h.step (.free o)) := by
  obtain ⟨old, found⟩ := filed.keyed.exists_copy entered
  have unmoved : old.forwarded = none := ((filed.entry o old found).1 entered).2
  have frees (p : ObjectId) : .free p ∈ steps ++ [.free o] ↔ .free p ∈ steps ∨ p = o := by simp
  have later (p : ObjectId) : (h.step (.free o)).copy? p =
      if p = o then some { old with alive := false } else h.copy? p := by
    rw [Heap.step, copy?_free, found]
    rfl
  have entries (p : ObjectId) : p ∈ (h.step (.free o)).entered ↔ p ∈ h.entered ∧ p ≠ o :=
    filed.keyed.mem_entered_strike
  refine ⟨filed.keyed.next (.free o), fun p copy seen => ?_, fun p copy seen => ?_,
    fun p freed => ?_⟩
  · rw [entries]
    rw [later] at seen
    split at seen
    · next here =>
      obtain rfl := Option.some.inj seen
      simp [here]
    · next apart => simpa [apart] using filed.entry p copy seen
  · rw [later] at seen
    rw [frees]
    split at seen
    · next here =>
      obtain rfl := Option.some.inj seen
      simp [here]
    · next apart => simpa [apart] using filed.alive p copy seen
  · rw [later]
    split
    · exact ⟨_, rfl, unmoved⟩
    · next apart => exact filed.freed p (((frees p).1 freed).resolve_right apart)

theorem next (filed : Filed steps h) (orderly : h.Orderly step) :
    Filed (steps ++ [step]) (h.step step) := by
  cases step with
  | allocate className => exact filed.append rfl (by rfl) rfl rfl rfl
  | classObject className =>
    cases found : h.classes.lookup className with
    | some o =>
      rw [Heap.step, classObject_of_lookup found]
      exact filed.unchanged rfl filed.keyed rfl (fun o copy found => ⟨copy, found, rfl, rfl⟩)
        fun _ made => made
    | none => exact filed.append rfl (copies_firstUse found) (objects_firstUse found) rfl rfl
  | mark p =>
    refine filed.unchanged rfl (filed.keyed.next (.mark p)) rfl (fun o copy' found => ?_)
      fun o made => ?_
    · rw [Heap.step, mark, copy?_update] at found
      split at found
      · next here =>
        obtain ⟨copy, before, rfl⟩ := Option.map_eq_some_iff.1 found
        exact ⟨copy, by rw [here, before], rfl, rfl⟩
      · exact ⟨copy', found, rfl, rfl⟩
    · rw [Heap.step, mark, copy?_update]
      split
      · next here => simpa [here] using made
      · exact made
  | clearMarks =>
    refine filed.unchanged rfl (filed.keyed.next .clearMarks) rfl (fun o copy' found => ?_)
      fun o made => ?_
    · rw [Heap.step, copy?_clearMarks] at found
      obtain ⟨copy, before, rfl⟩ := Option.map_eq_some_iff.1 found
      refine ⟨copy, before, ?_⟩
      split <;> exact ⟨rfl, rfl⟩
    · simpa [Heap.step, copy?_clearMarks] using made
  | relocate o => exact filed.relocate orderly
  | free o => exact filed.free orderly

end Filed

theorem Fresh.filed (fresh : start.Fresh) (orderly : Throughout Orderly start steps) :
    Filed steps (start.after steps) := by
  apply Throughout.after ?_ ?_ orderly
  · obtain ⟨_, _, rfl⟩ := fresh
    exact ⟨⟨by simp, by simp, by simp⟩, by simp [copy?], by simp [copy?], by simp⟩
  · intro steps step filed orderly
    exact Filed.next filed orderly

/-- Entries have not been moved, so whoever moves entries only moves current copies only. -/
theorem Filed.tidy (filed : Filed steps h) (orderly : h.Orderly step) : h.Tidy step := by
  cases step with
  | relocate o =>
    obtain ⟨copy, found⟩ := filed.keyed.exists_copy orderly
    have unmoved := ((filed.entry o copy found).1 orderly).2
    exact (pointer?_of_copy? found).trans unmoved
  | _ => trivial

theorem Fresh.tidy (fresh : start.Fresh) (orderly : Throughout Orderly start steps) :
    Throughout Tidy start steps := by
  induction steps using List.reverseRecOn with
  | nil => trivial
  | append_singleton steps step ih =>
    rw [throughout_concat] at orderly ⊢
    exact ⟨ih orderly.1, (fresh.filed orderly.1).tidy orderly.2⟩

/-! ## Entries and objects -/

theorem Keyed.liveCount_relocate (keyed : Keyed h) (entered : o ∈ h.entered) :
    (h.relocate o).2.liveCount = h.liveCount := by
  obtain ⟨old, found⟩ := keyed.exists_copy entered
  have new : ⟨h.copies.length⟩ ∉ (h.strike o).entered := fun again =>
    keyed.last_notMem_entered (keyed.mem_entered_strike.1 again).1
  have added := (keyed.strike o).liveCount_enlist new
  have struck := keyed.liveCount_strike entered
  rw [liveCount, ← objects_relocate found] at added
  rw [liveCount, added, struck]

/-- An operation changes the number of entries by the object that it makes and the one it frees. -/
theorem Fresh.liveCount_step (fresh : start.Fresh) (steps : List HeapStep)
    (orderly : (start.after steps).Orderly step) :
    ((start.after steps).step step).liveCount + [step].countP HeapStep.isFree =
      (start.after steps).liveCount + (start.born steps step).length := by
  have keyed := fresh.keyed steps
  cases step with
  | allocate className => exact keyed.liveCount_enlist keyed.last_notMem_entered
  | classObject className =>
    have used := fresh.lookup_eq_none_iff steps className
    cases found : (start.after steps).classes.lookup className with
    | some o =>
      have before : .classObject className ∈ steps := by
        by_contra first
        rw [← used, found] at first
        cases first
      simp [Heap.step, classObject_of_lookup found, born, before, HeapStep.isFree]
    | none =>
      have first := used.1 found
      have made := keyed.liveCount_enlist keyed.last_notMem_entered
      rw [liveCount, ← objects_firstUse found, ← liveCount] at made
      simp [made, born, first, HeapStep.isFree]
  | mark o | clearMarks => rfl
  | relocate o => exact keyed.liveCount_relocate orderly
  | free o => exact keyed.liveCount_strike orderly

theorem Fresh.liveCount_add_frees (fresh : start.Fresh) (orderly : Throughout Orderly start steps) :
    (start.after steps).liveCount + steps.countP HeapStep.isFree = (start.births steps).length := by
  induction steps using List.reverseRecOn with
  | nil =>
    obtain ⟨_, _, rfl⟩ := fresh
    rfl
  | append_singleton steps step ih =>
    rw [throughout_concat] at orderly
    have before := ih orderly.1
    have now := fresh.liveCount_step steps orderly.2
    rw [after_concat, List.countP_append, births_concat, List.length_append]
    omega

def Freed (start : Heap) (steps : List HeapStep) (o : ObjectId) : Prop :=
  ∃ p, start.SameObject steps o p ∧ .free p ∈ steps

/-- Of the copies of an object one is current, and it has the entry unless it was freed. -/
theorem Fresh.exists_current (fresh : start.Fresh) (orderly : Throughout Orderly start steps)
    {copy : Copy} (found : (start.after steps).copy? o = some copy) :
    ∃ last, start.SameObject steps o last ∧
      (∀ p ∈ (start.after steps).entered, start.SameObject steps o p → p = last) ∧
      (last ∈ (start.after steps).entered ↔ ¬ start.Freed steps o) := by
  have tidy := fresh.tidy orderly
  have filed := fresh.filed orderly
  have forward := (fresh.reachable steps).forward
  have aligned := (fresh.reachable steps).aligned
  obtain ⟨last, followed⟩ := Option.isSome_iff_exists.1 (forward.currentCopy?_isSome o)
  obtain ⟨rest, chain, ends, unmoved⟩ := chain_of_follow _ o followed
  obtain ⟨current, reached, -⟩ := aligned.copy?_of_follow found followed
  have same : start.SameObject steps o last := fresh.sameObject_of_chain tidy chain ends
  -- A copy of the object that has not been moved is the end of the chain.
  have only (p : ObjectId) (copy : Copy) (seen : (start.after steps).copy? p = some copy)
      (still : copy.forwarded = none) (other : start.SameObject steps o p) : p = last := by
    have pointer : (start.after steps).pointer? p = none :=
      (pointer?_of_copy? seen).trans still
    have stays : (start.after steps).currentCopy? p = some p := by
      rw [currentCopy?, follow_succ, pointer]
    rw [← other.currentCopy? fresh tidy, followed] at stays
    exact (Option.some.inj stays).symm
  rw [pointer?_of_copy? reached] at unmoved
  refine ⟨last, same, fun p entered other => ?_, ?_⟩
  · obtain ⟨copy, seen⟩ := filed.keyed.exists_copy entered
    exact only p copy seen ((filed.entry p copy seen).1 entered).2 other
  · constructor
    · rintro entered ⟨p, other, freed⟩
      obtain ⟨copy, seen, still⟩ := filed.freed p freed
      obtain rfl := only p copy seen still other
      have alive := ((filed.entry p copy seen).1 entered).1
      exact (filed.alive p copy seen).1 alive freed
    · intro kept
      have unfreed : .free last ∉ steps := fun freed => kept ⟨last, same, freed⟩
      have alive := (filed.alive last current reached).2 unfreed
      exact (filed.entry last current reached).2 ⟨alive, unmoved⟩

/-- The entries after a history, against what the history has made and freed. -/
structure Accounted (start : Heap) (steps : List HeapStep) : Prop where
  /-- An entry stands under the number of its own copy, which is alive and has not been moved. -/
  entries : ∀ number o, (number, o) ∈ (start.after steps).objects → number = o.number ∧
    ∃ copy, (start.after steps).copy? o = some copy ∧ copy.alive = true ∧ copy.forwarded = none
  keys : ((start.after steps).objects.map Prod.fst).Nodup
  distinct : (start.after steps).entered.Nodup
  once : ∀ birth ∈ start.births steps, ¬ start.Freed steps birth →
    ∃! o, o ∈ (start.after steps).entered ∧ start.SameObject steps birth o
  gone : ∀ birth ∈ start.births steps, start.Freed steps birth →
    ∀ o ∈ (start.after steps).entered, ¬ start.SameObject steps birth o
  /-- An entry is of one object. -/
  owned : ∀ o ∈ (start.after steps).entered,
    ∃! birth, birth ∈ start.births steps ∧ start.SameObject steps birth o
  live : (start.after steps).liveCount = (start.after steps).entered.length
  count : (start.after steps).liveCount + steps.countP HeapStep.isFree = (start.births steps).length

theorem Fresh.accounted (fresh : start.Fresh) (orderly : Throughout Orderly start steps) :
    Accounted start steps := by
  have filed := fresh.filed orderly
  have current (birth : ObjectId) (made : birth ∈ start.births steps) :
      ∃ last, start.SameObject steps birth last ∧
        (∀ p ∈ (start.after steps).entered, start.SameObject steps birth p → p = last) ∧
        (last ∈ (start.after steps).entered ↔ ¬ start.Freed steps birth) := by
    obtain ⟨face, seen⟩ := fresh.face?_of_births steps made
    obtain ⟨copy, found, -⟩ := exists_copy_of_face? seen
    exact fresh.exists_current orderly found
  refine
    { entries := ?_, keys := filed.keyed.distinct, distinct := filed.keyed.nodup_entered,
      once := ?_, gone := ?_, owned := ?_, live := (List.length_map _).symm,
      count := fresh.liveCount_add_frees orderly }
  · intro number o entry
    obtain ⟨own, entered⟩ := filed.keyed.mem_objects_iff.1 entry
    obtain ⟨copy, found⟩ := filed.keyed.exists_copy entered
    exact ⟨own, copy, found, (filed.entry o copy found).1 entered⟩
  · intro birth made kept
    obtain ⟨last, same, only, entered⟩ := current birth made
    refine ⟨last, ⟨entered.2 kept, same⟩, ?_⟩
    rintro p ⟨entry, other⟩
    exact only p entry other
  · intro birth made freed p entry other
    obtain ⟨last, -, only, entered⟩ := current birth made
    obtain rfl := only p entry other
    exact entered.1 entry freed
  · intro o entry
    obtain ⟨copy, found⟩ := filed.keyed.exists_copy entry
    obtain ⟨birth, made, same⟩ := fresh.exists_birth steps (face?_of_copy? found)
    refine ⟨birth, ⟨made, same⟩, ?_⟩
    rintro other ⟨made', same'⟩
    exact SameObject.birth (.trans _ _ _ same' (.symm _ _ same)) fresh made' made

/-- What is entered for an object after it has been moved. -/
theorem enlisted_relocate {old : Copy} (found : h.copy? o = some old) :
    ((h.relocate o).1.number, (h.relocate o).1) ∈ (h.relocate o).2.objects ∧
      (h.relocate o).2.copy? (h.relocate o).1 =
        some { className := old.className, isClass := old.isClass, marked := old.marked,
               monitor := old.monitor } := by
  have apart : (⟨h.copies.length⟩ : ObjectId) ≠ o :=
    (ne_last_of_copy? (Option.isSome_of_eq_some found)).symm
  rw [relocate_fst found, objects_relocate found, copy?_relocate found, if_neg apart, if_pos rfl]
  exact ⟨mem_enlist.2 (.inl rfl), rfl⟩

theorem monitor_relocate {old : Copy} (found : h.copy? o = some old) :
    (h.relocate o).2.monitor (h.relocate o).1 = h.monitor o := by
  have made : (h.relocate o).2.face? (h.relocate o).1 = some old.face := by
    have last := face?_last (faces_relocate found)
    rw [length_faces] at last
    rw [relocate_fst found]
    exact last
  have before : h.monitorId? o = some old.monitor := monitorId?_of_face? (face?_of_copy? found)
  have after : (h.relocate o).2.monitorId? (h.relocate o).1 = some old.monitor :=
    monitorId?_of_face? made
  rw [monitor_eq_monitorAt after, monitor_eq_monitorAt before]
  exact (shaped_relocate h o).monitorAt old.monitor

/-- Where only entries are moved and freed, the heap has one entry for each object that was made and
not freed, under the number of its own copy, which is alive and has not been moved; it has as many
as objects were made less those that were freed.  A move of an entry changes neither their number
nor the class name, the kind, the mark bit and the monitor of the object. -/
theorem one_entry_for_each_object (fresh : start.Fresh)
    (orderly : Throughout Orderly start steps) :
    Accounted start steps ∧
    ∀ number o, (number, o) ∈ (start.after steps).objects →
      ∃ old new, (start.after steps).copy? o = some old ∧
        ((start.after steps).relocate o).2.copy? ((start.after steps).relocate o).1 = some new ∧
        (((start.after steps).relocate o).1.number, ((start.after steps).relocate o).1) ∈
          ((start.after steps).relocate o).2.objects ∧
        new.className = old.className ∧ new.isClass = old.isClass ∧ new.marked = old.marked ∧
        new.monitor = old.monitor ∧
        ((start.after steps).relocate o).2.monitor ((start.after steps).relocate o).1 =
          (start.after steps).monitor o ∧
        ((start.after steps).relocate o).2.liveCount = (start.after steps).liveCount := by
  refine ⟨fresh.accounted orderly, fun number o entry => ?_⟩
  have keyed := fresh.keyed steps
  obtain ⟨-, entered⟩ := keyed.mem_objects_iff.1 entry
  obtain ⟨old, found⟩ := keyed.exists_copy entered
  obtain ⟨listed, made⟩ := enlisted_relocate found
  exact ⟨old, _, found, made, listed, rfl, rfl, rfl, rfl, monitor_relocate found,
    keyed.liveCount_relocate entered⟩

/-- Two objects are made and moved, and one of them is freed. -/
def movedAndFreed : List HeapStep :=
  [.allocate "Bar", .classObject "Foo", .classObject "Foo", .mark ⟨0⟩, .relocate ⟨1⟩, .relocate ⟨0⟩,
    .free ⟨2⟩]

theorem one_entry_for_each_object_moved :
    Throughout Orderly {} movedAndFreed ∧ Accounted {} movedAndFreed ∧
      (({} : Heap).after movedAndFreed).liveCount = 1 ∧
      ∃ new, (({} : Heap).after (movedAndFreed ++ [.relocate ⟨3⟩])).copy? ⟨4⟩ = some new ∧
        (5, ⟨4⟩) ∈ (({} : Heap).after (movedAndFreed ++ [.relocate ⟨3⟩])).objects ∧
        new.className = "Bar" ∧ new.marked = true := by
  have fresh : Fresh {} := ⟨true, true, rfl⟩
  have orderly : Throughout Orderly {} movedAndFreed := by decide +kernel
  have accounts := one_entry_for_each_object fresh orderly
  obtain ⟨old, new, found, made, moved, sameName, -, sameMark, -⟩ :=
    accounts.2 4 ⟨3⟩ (List.mem_singleton_self _)
  obtain ⟨named, marked⟩ : old.className = "Bar" ∧ old.marked = true := by
    obtain rfl := Option.some.inj found
    exact ⟨rfl, rfl⟩
  exact ⟨orderly, accounts.1, rfl, new, made, moved, sameName.trans named, sameMark.trans marked⟩

end Heap

end NativeBoundary
