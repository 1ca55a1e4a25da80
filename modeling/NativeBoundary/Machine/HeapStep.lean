import NativeBoundary.Machine.Heap

/-!
# Histories of a heap

The operations that change a heap as data, and a heap after a list of them.
-/

set_option autoImplicit false

namespace NativeBoundary

inductive HeapStep where
  | allocate (className : String)
  | classObject (className : String)
  | mark (object : ObjectId)
  | clearMarks
  | relocate (object : ObjectId)
  | free (object : ObjectId)
  deriving DecidableEq

namespace Heap

def step (h : Heap) : HeapStep → Heap
  | .allocate className => (h.allocate className).2
  | .classObject className => (h.classObject className).2
  | .mark o => h.mark o
  | .clearMarks => h.clearMarks
  | .relocate o => (h.relocate o).2
  | .free o => h.free o

def after (h : Heap) (steps : List HeapStep) : Heap :=
  steps.foldl step h

end Heap

end NativeBoundary
