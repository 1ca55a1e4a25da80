import NativeBoundary.Machine.Heap
import NativeBoundary.References

/-!
# A table of local references on its own

A table of references to freshly allocated objects, told what to do step by step.
-/

set_option autoImplicit false

namespace NativeBoundary

inductive LocalCue where
  /-- Adds a reference to a fresh instance of a class. -/
  | add (className : String)
  /-- Looks up a handle. -/
  | get (handle : Handle)
  /-- Lowers the top to a mark. -/
  | truncate (mark : ScopeMark)
  /-- Lists the references, the oldest first. -/
  | list

inductive LocalReply where
  | nothing
  | handle (handle : Handle)
  | object (text : Option String)
  | objects (texts : List String)

namespace LocalTable

def step (heap : Heap) (t : LocalTable ObjectId) :
    LocalCue → LocalReply × Heap × LocalTable ObjectId
  | .add className =>
    let (object, heap) := heap.allocate className
    let (handle, t) := t.add object
    (.handle handle, heap, t)
  | .get handle => (.object ((t.get? handle).map heap.text), heap, t)
  | .truncate mark => (.nothing, heap, t.truncate mark)
  | .list => (.objects (t.entries.map heap.text), heap, t)

def play (heap : Heap) (t : LocalTable ObjectId) :
    List LocalCue → List (LocalReply × LocalTable ObjectId)
  | [] => []
  | cue :: rest =>
    let (reply, heap, t) := t.step heap cue
    (reply, t) :: t.play heap rest

end LocalTable

end NativeBoundary
