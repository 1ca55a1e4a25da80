import NativeBoundary.Machine.Monitor

/-!
# A heap whose objects move

Moving an object makes a fresh copy and leaves a forwarding pointer in the old one; the copies of
an object share its monitor.  A reference names one copy for good, so the heap keeps every copy
that ever was.  Copies are numbered in the order in which they are made; those that the heap still
counts as allocated are in the object map, under their numbers.
-/

set_option autoImplicit false

namespace NativeBoundary

/-- A reference to one copy of an object: its place in the order of all copies. -/
structure ObjectId where
  index : Nat
  deriving DecidableEq

/-- The number under which a copy is shown; they count from one. -/
def ObjectId.number (o : ObjectId) : Nat := o.index + 1

structure MonitorId where
  index : Nat
  deriving DecidableEq

/-- One copy of an object. -/
structure Copy where
  /-- Name of the object's class, or of the class that a class object stands for. -/
  className : String
  isClass : Bool
  marked : Bool := false
  /-- Whether this copy has not been freed. -/
  alive : Bool := true
  /-- The copy that the object was moved to from here. -/
  forwarded : Option ObjectId := none
  monitor : MonitorId
  deriving DecidableEq

structure Heap where
  /-- Whether roots are read through a barrier. -/
  readBarrier : Bool := true
  /-- Whether a set mark bit proves a reference current. -/
  marksProveCurrent : Bool := true
  /-- Every copy ever made, in order. -/
  copies : List Copy := []
  monitors : List Monitor := []
  /-- The object map: what is counted as allocated, by number. -/
  objects : List (Nat × ObjectId) := []
  classes : List (String × ObjectId) := []
  /-- How often the current copy of a root was asked for. -/
  barrierCalls : Nat := 0
  deriving DecidableEq

namespace Heap

def copy? (h : Heap) (o : ObjectId) : Option Copy :=
  h.copies[o.index]?

def update (h : Heap) (o : ObjectId) (change : Copy → Copy) : Heap :=
  { h with copies := h.copies.modify o.index change }

def add (h : Heap) (copy : Copy) : ObjectId × Heap :=
  (⟨h.copies.length⟩, { h with copies := h.copies ++ [copy] })

def strike (h : Heap) (o : ObjectId) : Heap :=
  { h with objects := h.objects.filter fun (number, _) => number ≠ o.number }

def enlist (h : Heap) (o : ObjectId) : Heap :=
  { h with objects := (o.number, o) :: (h.strike o).objects }

section

variable (h : Heap) (o : ObjectId)

@[simp]
theorem copies_strike : (h.strike o).copies = h.copies := rfl

@[simp]
theorem monitors_strike : (h.strike o).monitors = h.monitors := rfl

@[simp]
theorem classes_strike : (h.strike o).classes = h.classes := rfl

@[simp]
theorem copies_enlist : (h.enlist o).copies = h.copies := rfl

@[simp]
theorem monitors_enlist : (h.enlist o).monitors = h.monitors := rfl

@[simp]
theorem classes_enlist : (h.enlist o).classes = h.classes := rfl

end

def create (h : Heap) (className : String) (isClass : Bool) : ObjectId × Heap :=
  let monitor : MonitorId := ⟨h.monitors.length⟩
  let (o, h) := { h with monitors := h.monitors ++ [({} : Monitor)] }.add
    { className, isClass, monitor }
  (o, h.enlist o)

def allocate (h : Heap) (className : String) : ObjectId × Heap :=
  h.create className false

def setClass (h : Heap) (className : String) (o : ObjectId) : Heap :=
  { h with classes := (className, o) :: h.classes.filter fun (name, _) => name ≠ className }

def classObject (h : Heap) (className : String) : ObjectId × Heap :=
  match h.classes.lookup className with
  | some o => (o, h)
  | none =>
    let (o, h) := h.create className true
    (o, h.setClass className o)

/-- Moves the object of a reference and gives the new copy.  The new copy has the mark bit and the
monitor of the old one, and takes its place in the object map and among the class objects. -/
def relocate (h : Heap) (o : ObjectId) : ObjectId × Heap :=
  match h.copy? o with
  | none => (o, h)
  | some old =>
    let (moved, h) := h.add
      { className := old.className, isClass := old.isClass, marked := old.marked,
        monitor := old.monitor }
    let h := ((h.update o fun copy => { copy with forwarded := some moved }).strike o).enlist moved
    (moved, if old.isClass then h.setClass old.className moved else h)

def free (h : Heap) (o : ObjectId) : Heap :=
  (h.update o fun copy => { copy with alive := false }).strike o

def mark (h : Heap) (o : ObjectId) : Heap :=
  h.update o fun copy => { copy with marked := true }

def entered (h : Heap) : List ObjectId :=
  h.objects.map Prod.snd

def clearMarks (h : Heap) : Heap :=
  { h with copies := h.copies.mapIdx fun i copy =>
      if ⟨i⟩ ∈ h.entered then { copy with marked := false } else copy }

def liveCount (h : Heap) : Nat :=
  h.objects.length

def follow (h : Heap) : Nat → ObjectId → Option ObjectId
  | 0, _ => none
  | fuel + 1, o =>
    match (h.copy? o).bind fun copy => copy.forwarded with
    | none => some o
    | some next => h.follow fuel next

/-- The current copy of a root.  Pointers lead from a copy to a later one, so as many steps as
there are copies always suffice. -/
def currentCopy? (h : Heap) (o : ObjectId) : Option ObjectId :=
  h.follow (h.copies.length + 1) o

def monitorId? (h : Heap) (o : ObjectId) : Option MonitorId :=
  (h.copy? o).map fun copy => copy.monitor

def monitor (h : Heap) (o : ObjectId) : Monitor :=
  ((h.monitorId? o).bind fun i => h.monitors[i.index]?).getD {}

def setMonitor (h : Heap) (o : ObjectId) (m : Monitor) : Heap :=
  match h.monitorId? o with
  | none => h
  | some i => { h with monitors := h.monitors.set i.index m }

def sameMonitor (h : Heap) (o p : ObjectId) : Bool :=
  h.monitorId? o = h.monitorId? p

def isAlive (h : Heap) (o : ObjectId) : Bool :=
  (h.copy? o).any fun copy => copy.alive

def isMarked (h : Heap) (o : ObjectId) : Bool :=
  (h.copy? o).any fun copy => copy.marked

def className (h : Heap) (o : ObjectId) : String :=
  ((h.copy? o).map fun copy => copy.className).getD ""

def text (h : Heap) (o : ObjectId) : String :=
  let name := h.className o
  let isClass := (h.copy? o).any fun copy => copy.isClass
  (if isClass then "Class<" ++ name ++ ">" else name) ++ "#" ++ toString o.number

end Heap

end NativeBoundary
