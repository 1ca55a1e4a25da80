import Mathlib.Logic.Relation
import NativeBoundary.Machine.Basic
import NativeBoundary.Machine.HeapStep
import NativeBoundary.Proofs.Machine.MonitorChange

/-!
# What the history of a heap keeps

A heap that is reached from an empty one has come through moves, frees, allocations and uses of
monitors.  Through all of them a copy keeps its monitor, its class name and whether it is a class
object; all copies of a class object share one monitor with the entry of the class table; and a
monitor is free exactly when nothing is left of its levels.
-/

set_option autoImplicit false

namespace NativeBoundary

theorem Registry.lookup_put {α : Type} (key name : String) (value : α) (l : List (String × α)) :
    (Registry.put key value l).lookup name = if name = key then some value else l.lookup name := by
  have passed (apart : name ≠ key) :
      (l.filter fun entry => entry.1 ≠ key).lookup name = l.lookup name := by
    induction l with
    | nil => rfl
    | cons first rest ih =>
      obtain ⟨other, value⟩ := first
      by_cases taken : other = key
      · subst taken
        have notFirst : (name == other) = false := by simpa using apart
        simpa [List.lookup_cons, notFirst] using ih
      · simp_all [List.lookup_cons]
  by_cases same : name = key
  · simp [put, same]
  · have notFirst : (name == key) = false := by simpa using same
    simp only [put, List.lookup_cons, notFirst, if_neg same]
    exact passed same

/-- What a copy of an object keeps for good. -/
structure Face where
  className : String
  isClass : Bool
  monitor : MonitorId
  deriving DecidableEq

def Copy.face (copy : Copy) : Face :=
  { className := copy.className, isClass := copy.isClass, monitor := copy.monitor }

namespace Heap

variable {h h' : Heap} {o p : ObjectId}

/-! ## Copies -/

theorem copy?_update (h : Heap) (o p : ObjectId) (change : Copy → Copy) :
    (h.update o change).copy? p = if p = o then (h.copy? o).map change else h.copy? p := by
  by_cases same : p = o
  · simp [copy?, update, same]
  · have apart : o.index ≠ p.index := by
      intro equal
      apply same
      cases o
      cases p
      simp_all
    simp [copy?, update, same, apart]

theorem copy?_append {copy : Copy} (copies : h'.copies = h.copies ++ [copy]) (p : ObjectId) :
    h'.copy? p = if p = ⟨h.copies.length⟩ then some copy else h.copy? p := by
  by_cases last : p = ⟨h.copies.length⟩
  · simp [copy?, copies, last]
  · have apart : p.index ≠ h.copies.length := by
      intro equal
      apply last
      cases p
      simp_all
    rw [if_neg last, copy?, copies, copy?]
    rcases Nat.lt_or_gt_of_ne apart with inside | outside
    · rw [List.getElem?_append_left inside]
    · rw [List.getElem?_eq_none (Nat.le_of_lt outside), List.getElem?_eq_none]
      rw [List.length_append, List.length_singleton]
      exact outside

theorem copy?_add (h : Heap) (copy : Copy) (p : ObjectId) :
    (h.add copy).2.copy? p = if p = ⟨h.copies.length⟩ then some copy else h.copy? p :=
  copy?_append rfl p

theorem copy?_free (h : Heap) (o p : ObjectId) :
    (h.free o).copy? p =
      if p = o then (h.copy? o).map fun copy => { copy with alive := false } else h.copy? p :=
  copy?_update h o p fun copy => { copy with alive := false }

theorem copy?_clearMarks (h : Heap) (p : ObjectId) :
    h.clearMarks.copy? p = (h.copy? p).map fun copy =>
      if p ∈ h.entered then { copy with marked := false } else copy := by
  simp [copy?, clearMarks]

theorem copy?_relocate {old : Copy} (found : h.copy? o = some old) (p : ObjectId) :
    (h.relocate o).2.copy? p =
      if p = o then some { old with forwarded := some ⟨h.copies.length⟩ }
      else if p = ⟨h.copies.length⟩ then
        some { className := old.className, isClass := old.isClass, marked := old.marked,
               monitor := old.monitor }
      else h.copy? p := by
  have inside : o ≠ ⟨h.copies.length⟩ := by
    rintro rfl
    simp [copy?] at found
  have moved (made : Copy) :
      ((h.add made).2.update o fun copy =>
        { copy with forwarded := some ⟨h.copies.length⟩ }).copy? p =
          if p = o then some { old with forwarded := some ⟨h.copies.length⟩ }
          else if p = ⟨h.copies.length⟩ then some made else h.copy? p := by
    rw [copy?_update, copy?_add, copy?_add, if_neg inside, found]
    rfl
  simp only [relocate, found]
  split
  · exact moved _
  · exact moved _

/-! ## Faces -/

def faces (h : Heap) : List Face :=
  h.copies.map Copy.face

def face? (h : Heap) (o : ObjectId) : Option Face :=
  h.faces[o.index]?

theorem face?_eq_map_copy? (h : Heap) (o : ObjectId) : h.face? o = (h.copy? o).map Copy.face := by
  simp [face?, faces, copy?]

theorem face?_of_copy? {copy : Copy} (found : h.copy? o = some copy) :
    h.face? o = some copy.face := by
  rw [face?_eq_map_copy?, found, Option.map_some]

theorem exists_copy_of_face? {face : Face} (seen : h.face? o = some face) :
    ∃ copy, h.copy? o = some copy ∧ copy.face = face := by
  rw [face?_eq_map_copy?] at seen
  exact Option.map_eq_some_iff.1 seen

theorem monitorId?_eq_map_face? (h : Heap) (o : ObjectId) :
    h.monitorId? o = (h.face? o).map Face.monitor := by
  rw [face?_eq_map_copy?, monitorId?, Option.map_map]
  rfl

theorem monitorId?_of_face? {face : Face} (seen : h.face? o = some face) :
    h.monitorId? o = some face.monitor := by
  rw [monitorId?_eq_map_face?, seen, Option.map_some]

/-- A change of a copy that its face does not show. -/
theorem faces_update (o : ObjectId) {change : Copy → Copy}
    (hidden : ∀ copy, (change copy).face = copy.face) : (h.update o change).faces = h.faces := by
  apply List.ext_getElem?
  intro i
  simp only [faces, update, List.getElem?_map, List.getElem?_modify]
  cases h.copies[i]? with
  | none => simp
  | some copy =>
    by_cases here : o.index = i
    · simp [here, hidden]
    · simp [here]

def Extends (h h' : Heap) : Prop :=
  h.faces <+: h'.faces

theorem Extends.face? (extended : Extends h h') {face : Face} (found : h.face? o = some face) :
    h'.face? o = some face := by
  obtain ⟨more, added⟩ := extended
  unfold Heap.face? at *
  obtain ⟨inside, -⟩ := List.getElem?_eq_some_iff.1 found
  rw [← added, List.getElem?_append_left inside]
  exact found

theorem Extends.monitorId? (extended : Extends h h') {i : MonitorId}
    (found : h.monitorId? o = some i) : h'.monitorId? o = some i := by
  rw [monitorId?_eq_map_face?] at *
  obtain ⟨face, seen, rfl⟩ := Option.map_eq_some_iff.1 found
  rw [extended.face? seen]
  rfl

/-! ## Monitors of a heap -/

def monitorAt (h : Heap) (i : MonitorId) : Monitor :=
  (h.monitors[i.index]?).getD {}

theorem monitor_eq_monitorAt {i : MonitorId} (found : h.monitorId? o = some i) :
    h.monitor o = h.monitorAt i := by
  simp [monitor, monitorAt, found]

theorem monitorAt_setMonitor {i : MonitorId} (found : h.monitorId? o = some i)
    (inside : i.index < h.monitors.length) (monitor : Monitor) (j : MonitorId) :
    (h.setMonitor o monitor).monitorAt j = if j = i then monitor else h.monitorAt j := by
  simp only [setMonitor, found, monitorAt]
  by_cases same : j = i
  · simp [same, inside]
  · have apart : i.index ≠ j.index := by
      intro equal
      apply same
      cases i
      cases j
      simp_all
    simp [same, List.getElem?_set_ne apart]

theorem setMonitor_of_no_copy (missing : h.monitorId? o = none) (monitor : Monitor) :
    h.setMonitor o monitor = h := by
  simp [setMonitor, missing]

theorem faces_setMonitor (monitor : Monitor) : (h.setMonitor o monitor).faces = h.faces := by
  unfold setMonitor
  cases h.monitorId? o <;> rfl

theorem copies_setMonitor (monitor : Monitor) :
    (h.setMonitor o monitor).copies = h.copies := by
  unfold setMonitor
  cases h.monitorId? o <;> rfl

theorem classes_setMonitor (monitor : Monitor) :
    (h.setMonitor o monitor).classes = h.classes := by
  unfold setMonitor
  cases h.monitorId? o <;> rfl

theorem objects_setMonitor (monitor : Monitor) :
    (h.setMonitor o monitor).objects = h.objects := by
  unfold setMonitor
  split <;> rfl

/-! ## The class table -/

theorem lookup_setClass (h : Heap) (className name : String) (o : ObjectId) :
    (h.setClass className o).classes.lookup name =
      if name = className then some o else h.classes.lookup name :=
  Registry.lookup_put className name o h.classes

theorem classObject_of_lookup {className : String} (named : h.classes.lookup className = some o) :
    h.classObject className = (o, h) := by
  simp [classObject, named]

theorem lookup_classObject (h : Heap) (className : String) :
    (h.classObject className).2.classes.lookup className = some (h.classObject className).1 := by
  cases named : h.classes.lookup className with
  | some o => rw [classObject_of_lookup named, named]
  | none =>
    simp only [classObject, named]
    rw [lookup_setClass, if_pos rfl]

/-! ## Operations of the collector -/

/-- What an operation of the collector does to faces, monitors and class objects. -/
inductive Shaped (h h' : Heap) : Prop where
  | same
      (faces : h'.faces = h.faces) (monitors : h'.monitors = h.monitors)
      (classes : h'.classes = h.classes)
  /-- A further object that is no class object. -/
  | object (className : String)
      (faces : h'.faces = h.faces ++ [⟨className, false, ⟨h.monitors.length⟩⟩])
      (monitors : h'.monitors = h.monitors ++ [({} : Monitor)])
      (classes : h'.classes = h.classes)
  /-- The class object of a name that had none. -/
  | classObject (className : String)
      (missing : h.classes.lookup className = none)
      (faces : h'.faces = h.faces ++ [⟨className, true, ⟨h.monitors.length⟩⟩])
      (monitors : h'.monitors = h.monitors ++ [({} : Monitor)])
      (classes : ∀ name, h'.classes.lookup name =
        if name = className then some ⟨h.faces.length⟩ else h.classes.lookup name)
  /-- A further copy of an object. -/
  | moved (o : ObjectId) (face : Face)
      (found : h.face? o = some face)
      (faces : h'.faces = h.faces ++ [face])
      (monitors : h'.monitors = h.monitors)
      (classes : ∀ name, h'.classes.lookup name =
        if face.isClass = true ∧ name = face.className then some ⟨h.faces.length⟩
        else h.classes.lookup name)

theorem relocate_of_no_copy (missing : h.copy? o = none) : (h.relocate o).2 = h := by
  simp [relocate, missing]

theorem faces_relocate {old : Copy} (found : h.copy? o = some old) :
    (h.relocate o).2.faces = h.faces ++ [old.face] := by
  have moved (change : Copy → Copy) (hidden : ∀ copy, (change copy).face = copy.face) :
      ((h.add
        { className := old.className, isClass := old.isClass, marked := old.marked,
          monitor := old.monitor }).2.update o change).faces = h.faces ++ [old.face] := by
    rw [faces_update o hidden]
    simp [add, faces, Copy.face]
  simp only [relocate, found]
  split
  · exact moved _ fun _ => rfl
  · exact moved _ fun _ => rfl

/-- The copy of a class object that was moved last is the one in the class table. -/
theorem lookup_relocate {old : Copy} (found : h.copy? o = some old) (name : String) :
    (h.relocate o).2.classes.lookup name =
      if old.isClass = true ∧ name = old.className then some ⟨h.copies.length⟩
      else h.classes.lookup name := by
  simp only [relocate, found]
  cases isClass : old.isClass with
  | false => simp [add, update]
  | true =>
    simp only [if_true]
    rw [lookup_setClass]
    simp [add, update]

theorem shaped_relocate (h : Heap) (o : ObjectId) : Shaped h (h.relocate o).2 := by
  cases found : h.copy? o with
  | none =>
    rw [relocate_of_no_copy found]
    exact .same rfl rfl rfl
  | some old =>
    have face := face?_of_copy? found
    have monitors : (h.relocate o).2.monitors = h.monitors := by
      simp only [relocate, found]
      split <;> rfl
    refine .moved o old.face face (faces_relocate found) monitors fun name => ?_
    rw [lookup_relocate found]
    simp [Copy.face, faces]

theorem faces_allocate (h : Heap) (className : String) :
    (h.allocate className).2.faces = h.faces ++ [⟨className, false, ⟨h.monitors.length⟩⟩] := by
  simp [allocate, create, add, faces, Copy.face]

theorem faces_firstUse {className : String} (missing : h.classes.lookup className = none) :
    (h.classObject className).2.faces = h.faces ++ [⟨className, true, ⟨h.monitors.length⟩⟩] := by
  simp [classObject, missing, create, add, setClass, faces, Copy.face]

theorem faces_clearMarks (h : Heap) : h.clearMarks.faces = h.faces := by
  apply List.ext_getElem?
  intro i
  simp only [faces, clearMarks, List.getElem?_map, List.getElem?_mapIdx, Option.map_map]
  congr 1
  funext copy
  simp only [Function.comp_apply]
  split <;> rfl

theorem shaped_step (h : Heap) (step : HeapStep) : Shaped h (h.step step) := by
  cases step with
  | allocate className => exact .object className (faces_allocate h className) rfl rfl
  | classObject className =>
    cases found : h.classes.lookup className with
    | some o =>
      rw [Heap.step, classObject_of_lookup found]
      exact .same rfl rfl rfl
    | none =>
      refine .classObject className found (faces_firstUse found) ?_ fun name => ?_
      · simp only [Heap.step, Heap.classObject, found]
        rfl
      · simp only [Heap.step, Heap.classObject, found]
        rw [lookup_setClass]
        simp [create, add, faces]
  | mark o => exact .same (faces_update o fun _ => rfl) rfl rfl
  | clearMarks => exact .same (faces_clearMarks h) rfl rfl
  | free o => exact .same (faces_update o fun _ => rfl) rfl rfl
  | relocate o => exact shaped_relocate h o

/-! ## Sound heaps -/

/-- What a heap keeps: the class table holds class objects of the right names, a class object of any
age has the face of the one in the table, every copy has a monitor, and monitors count right. -/
structure Sound (h : Heap) : Prop where
  table : ∀ name o, h.classes.lookup name = some o → ∃ i, h.face? o = some ⟨name, true, i⟩
  shared : ∀ p face, h.face? p = some face → face.isClass = true →
    ∃ o, h.classes.lookup face.className = some o ∧ h.face? o = some face
  inside : ∀ p face, h.face? p = some face → face.monitor.index < h.monitors.length
  level : ∀ monitor ∈ h.monitors, monitor.Level

theorem sound_fresh (readBarrier marksProveCurrent : Bool) :
    Sound { readBarrier, marksProveCurrent } where
  table := by simp
  shared := by simp [face?, faces]
  inside := by simp [face?, faces]
  level := by simp

theorem Sound.monitorAt (sound : Sound h) (i : MonitorId) : (h.monitorAt i).Level := by
  unfold Heap.monitorAt
  cases found : h.monitors[i.index]? with
  | none => exact Monitor.level_new
  | some monitor => exact sound.level monitor (List.mem_of_getElem? found)

theorem Sound.monitorId_inside (sound : Sound h) {i : MonitorId}
    (found : h.monitorId? o = some i) : i.index < h.monitors.length := by
  rw [monitorId?_eq_map_face?] at found
  obtain ⟨face, seen, rfl⟩ := Option.map_eq_some_iff.1 found
  exact sound.inside o face seen

section Append

variable {new face : Face} (grown : h'.faces = h.faces ++ [new])
include grown

theorem extends_of_append : Extends h h' :=
  ⟨[new], grown.symm⟩

theorem face?_last : h'.face? ⟨h.faces.length⟩ = some new := by
  simp [face?, grown]

theorem face?_of_append (found : h'.face? p = some face) :
    h.face? p = some face ∨ p = ⟨h.faces.length⟩ ∧ face = new := by
  unfold face? at *
  rw [grown, List.getElem?_append] at found
  split at found
  · exact .inl found
  · next outside =>
    right
    obtain ⟨inside, value⟩ := List.getElem?_eq_some_iff.1 found
    have last : p.index = h.faces.length := by
      simp only [List.length_singleton] at inside
      omega
    constructor
    · cases p
      simp_all
    · simpa [last] using value.symm

end Append

theorem Shaped.extends (shaped : Shaped h h') : Extends h h' := by
  cases shaped with
  | same faces _ _ => exact ⟨[], by rw [faces, List.append_nil]⟩
  | object _ faces _ _ => exact extends_of_append faces
  | classObject _ _ faces _ _ => exact extends_of_append faces
  | moved _ _ _ faces _ _ => exact extends_of_append faces

theorem getD_append_new (monitors : List Monitor) (i : Nat) :
    ((monitors ++ [({} : Monitor)])[i]?).getD {} = (monitors[i]?).getD {} := by
  rw [List.getElem?_append]
  by_cases inside : i < monitors.length
  · rw [if_pos inside]
  · rw [if_neg inside, List.getElem?_eq_none (Nat.not_lt.1 inside)]
    cases i - monitors.length with
    | zero => rfl
    | succ _ => rfl

theorem Shaped.monitorAt (shaped : Shaped h h') (i : MonitorId) :
    h'.monitorAt i = h.monitorAt i := by
  have appended (more : h'.monitors = h.monitors ++ [({} : Monitor)]) :
      h'.monitorAt i = h.monitorAt i := by
    unfold Heap.monitorAt
    rw [more]
    exact getD_append_new h.monitors i.index
  cases shaped with
  | same _ monitors _ => simp [Heap.monitorAt, monitors]
  | object _ _ monitors _ => exact appended monitors
  | classObject _ _ _ monitors _ => exact appended monitors
  | moved _ _ _ _ monitors _ => simp [Heap.monitorAt, monitors]

namespace Sound

theorem inside_append {new : Face} (sound : Sound h) (faces : h'.faces = h.faces ++ [new])
    (monitors : h'.monitors = h.monitors ++ [({} : Monitor)])
    (monitor : new.monitor = ⟨h.monitors.length⟩) :
    ∀ p face, h'.face? p = some face → face.monitor.index < h'.monitors.length := by
  intro p face found
  rw [monitors, List.length_append, List.length_singleton]
  rcases face?_of_append faces found with old | ⟨-, rfl⟩
  · have inside := sound.inside p face old
    omega
  · rw [monitor]
    exact Nat.lt_succ_self _

theorem level_append (sound : Sound h) (monitors : h'.monitors = h.monitors ++ [({} : Monitor)]) :
    ∀ monitor ∈ h'.monitors, monitor.Level := by
  rw [monitors]
  simpa [or_imp, forall_and, Monitor.level_new] using sound.level

theorem object {className : String} (sound : Sound h)
    (faces : h'.faces = h.faces ++ [⟨className, false, ⟨h.monitors.length⟩⟩])
    (monitors : h'.monitors = h.monitors ++ [({} : Monitor)])
    (classes : h'.classes = h.classes) : Sound h' := by
  have extended := extends_of_append faces
  refine ⟨fun name p named => ?_, fun p face found isClass => ?_,
    sound.inside_append faces monitors rfl, sound.level_append monitors⟩
  · rw [classes] at named
    obtain ⟨i, old⟩ := sound.table name p named
    exact ⟨i, extended.face? old⟩
  · rcases face?_of_append faces found with old | ⟨-, rfl⟩
    · obtain ⟨o, named, same⟩ := sound.shared p face old isClass
      exact ⟨o, by rwa [classes], extended.face? same⟩
    · simp at isClass

theorem classObject {className : String} (sound : Sound h)
    (missing : h.classes.lookup className = none)
    (faces : h'.faces = h.faces ++ [⟨className, true, ⟨h.monitors.length⟩⟩])
    (monitors : h'.monitors = h.monitors ++ [({} : Monitor)])
    (classes : ∀ name, h'.classes.lookup name =
      if name = className then some ⟨h.faces.length⟩ else h.classes.lookup name) :
    Sound h' := by
  have extended := extends_of_append faces
  refine ⟨fun name p named => ?_, fun p face found isClass => ?_,
    sound.inside_append faces monitors rfl, sound.level_append monitors⟩
  · rw [classes] at named
    split at named
    · next first =>
      obtain rfl := Option.some.inj named
      exact ⟨⟨h.monitors.length⟩, by rw [face?_last faces, first]⟩
    · obtain ⟨i, old⟩ := sound.table name p named
      exact ⟨i, extended.face? old⟩
  · rcases face?_of_append faces found with old | ⟨-, rfl⟩
    · obtain ⟨o, named, same⟩ := sound.shared p face old isClass
      have other : face.className ≠ className := by
        intro equal
        rw [equal, missing] at named
        simp at named
      exact ⟨o, by rw [classes, if_neg other, named], extended.face? same⟩
    · exact ⟨⟨h.faces.length⟩, by rw [classes, if_pos rfl], face?_last faces⟩

theorem moved {face : Face} (sound : Sound h) (found : h.face? o = some face)
    (faces : h'.faces = h.faces ++ [face]) (monitors : h'.monitors = h.monitors)
    (classes : ∀ name, h'.classes.lookup name =
      if face.isClass = true ∧ name = face.className then some ⟨h.faces.length⟩
      else h.classes.lookup name) :
    Sound h' := by
  have extended := extends_of_append faces
  have earlier (p : ObjectId) (other : Face) (later : h'.face? p = some other) :
      ∃ q, h.face? q = some other := by
    rcases face?_of_append faces later with old | ⟨-, rfl⟩
    · exact ⟨p, old⟩
    · exact ⟨o, found⟩
  refine ⟨fun name p named => ?_, fun p other later isClass => ?_, fun p other later => ?_, ?_⟩
  · rw [classes] at named
    split at named
    · next moved =>
      obtain rfl := Option.some.inj named
      refine ⟨face.monitor, ?_⟩
      rw [face?_last faces, moved.2, ← moved.1]
    · obtain ⟨i, old⟩ := sound.table name p named
      exact ⟨i, extended.face? old⟩
  · obtain ⟨q, old⟩ := earlier p other later
    obtain ⟨before, named, same⟩ := sound.shared q other old isClass
    by_cases moved : face.isClass = true ∧ other.className = face.className
    · -- The moved copy is of this class: the table had its face before the move, too.
      obtain ⟨entry, entered, sameFace⟩ := sound.shared o face found moved.1
      rw [← moved.2, named] at entered
      obtain rfl := Option.some.inj entered
      have equal : other = face := Option.some.inj (same.symm.trans sameFace)
      refine ⟨⟨h.faces.length⟩, by rw [classes, if_pos moved], ?_⟩
      rw [face?_last faces, equal]
    · exact ⟨before, by rw [classes, if_neg moved, named], extended.face? same⟩
  · obtain ⟨q, old⟩ := earlier p other later
    rw [monitors]
    exact sound.inside q other old
  · rw [monitors]
    exact sound.level

end Sound

/-- Every operation of the collector keeps a heap sound. -/
theorem Shaped.sound (shaped : Shaped h h') (sound : Sound h) : Sound h' := by
  cases shaped with
  | same faces monitors classes =>
    have seen (p : ObjectId) : h'.face? p = h.face? p := by simp [face?, faces]
    exact
      { table := by simpa [seen, classes] using sound.table
        shared := by simpa [seen, classes] using sound.shared
        inside := by simpa [seen, monitors] using sound.inside
        level := by simpa [monitors] using sound.level }
  | object className faces monitors classes => exact sound.object faces monitors classes
  | classObject className missing faces monitors classes =>
    exact sound.classObject missing faces monitors classes
  | moved o face found faces monitors classes => exact sound.moved found faces monitors classes

/-! ## Histories -/

inductive Next : Heap → Heap → Prop where
  | step (h : Heap) (step : HeapStep) : Next h (h.step step)
  /-- The current copy of a root is asked for. -/
  | barrier (h : Heap) : Next h { h with barrierCalls := h.barrierCalls + 1 }
  /-- A thread enters the monitor of an object. -/
  | enter (h : Heap) (t : ThreadId) (o : ObjectId) (monitor : Monitor)
      (entered : (h.monitor o).tryEnter t = .ok (true, monitor)) : Next h (h.setMonitor o monitor)
  /-- A thread exits the monitor of an object. -/
  | exit (h : Heap) (t : ThreadId) (o : ObjectId) (monitor : Monitor)
      (exited : (h.monitor o).exit t = .ok (.ok monitor)) : Next h (h.setMonitor o monitor)

abbrev Leads : Heap → Heap → Prop :=
  Relation.ReflTransGen Next

def Reachable (h : Heap) : Prop :=
  ∃ readBarrier marksProveCurrent, Leads { readBarrier, marksProveCurrent } h

theorem Sound.setMonitor (sound : Sound h) {monitor : Monitor} (level : monitor.Level) :
    Sound (h.setMonitor o monitor) := by
  have seen (p : ObjectId) : (h.setMonitor o monitor).face? p = h.face? p := by
    simp [face?, faces_setMonitor]
  have monitors : ∃ i, (h.setMonitor o monitor).monitors = h.monitors.set i monitor ∨
      (h.setMonitor o monitor).monitors = h.monitors := by
    unfold Heap.setMonitor
    cases h.monitorId? o with
    | none => exact ⟨0, .inr rfl⟩
    | some i => exact ⟨i.index, .inl rfl⟩
  refine ⟨?_, ?_, ?_, ?_⟩
  · simpa [seen, classes_setMonitor] using sound.table
  · simpa [seen, classes_setMonitor] using sound.shared
  · obtain ⟨i, changed | same⟩ := monitors
    · simpa [seen, changed] using sound.inside
    · simpa [seen, same] using sound.inside
  · intro other member
    obtain ⟨i, changed | same⟩ := monitors
    · rw [changed] at member
      rcases List.mem_or_eq_of_mem_set member with old | rfl
      · exact sound.level other old
      · exact level
    · rw [same] at member
      exact sound.level other member

theorem Sound.monitor (sound : Sound h) (o : ObjectId) : (h.monitor o).Level := by
  cases found : h.monitorId? o with
  | none => simpa [Heap.monitor, found] using Monitor.level_new
  | some i =>
    rw [monitor_eq_monitorAt found]
    exact sound.monitorAt i

theorem Next.extends (next : Next h h') : Extends h h' := by
  cases next with
  | step step => exact (shaped_step h step).extends
  | barrier => exact List.prefix_rfl
  | enter t o monitor _ => exact ⟨[], by rw [faces_setMonitor, List.append_nil]⟩
  | exit t o monitor _ => exact ⟨[], by rw [faces_setMonitor, List.append_nil]⟩

theorem Next.sound (next : Next h h') (sound : Sound h) : Sound h' := by
  cases next with
  | step step => exact (shaped_step h step).sound sound
  | barrier => exact ⟨sound.table, sound.shared, sound.inside, sound.level⟩
  | enter t o monitor entered =>
    exact sound.setMonitor ((Monitor.change_of_tryEnter entered).level (sound.monitor o))
  | exit t o monitor exited =>
    exact sound.setMonitor ((Monitor.change_of_exit exited).level (sound.monitor o))

theorem Leads.extends (later : Leads h h') : Extends h h' := by
  induction later with
  | refl => exact List.prefix_rfl
  | tail _ next ih => exact List.IsPrefix.trans ih next.extends

theorem Leads.sound (later : Leads h h') (sound : Sound h) : Sound h' := by
  induction later with
  | refl => exact sound
  | tail _ next ih => exact next.sound ih

/-- Every heap with a history is sound. -/
theorem Reachable.sound (reachable : Reachable h) : Sound h := by
  obtain ⟨readBarrier, marksProveCurrent, history⟩ := reachable
  exact Leads.sound history (sound_fresh readBarrier marksProveCurrent)

end Heap

end NativeBoundary
