import NativeBoundary.Machine.Locking

/-!
# Objects, native code and methods

What happens to the heap, what native code does to the thread that runs it, and what the registry
of methods answers.
-/

set_option autoImplicit false

namespace NativeBoundary.Machine

/-! ## The heap -/

def onHeap (operation : Heap → ObjectId × Heap) : Act Machine ObjectId :=
  modifyGet fun m =>
    let (o, heap) := operation m.heap
    (o, { m with heap })

def changeHeap (change : Heap → Heap) : Act Machine Unit :=
  modify fun m => { m with heap := change m.heap }

def currentCopy (o : ObjectId) : Act Machine ObjectId := do
  changeHeap fun h => { h with barrierCalls := h.barrierCalls + 1 }
  match (← get).heap.currentCopy? o with
  | some current => pure current
  | none => throw .deadlock

/-! ## What native code does -/

def addLocal (t : ThreadId) (o : ObjectId) : Act Machine Handle :=
  modifyGet fun m =>
    let (handle, locals) := (m.thread t).locals.add o
    (handle, m.updateThread t fun thread => { thread with locals })

def newObject (t : ThreadId) (className : String) : Act Machine Handle := do
  addLocal t (← onHeap fun h => h.allocate className)

def throwing (t : ThreadId) (exception : Throwable) : Act Machine Unit :=
  modify (updateThread t fun thread => { thread with pending := some exception })

def nativeExitOrThrow (t : ThreadId) (o : ObjectId) : Act Machine Unit := do
  match ← nativeExit t o with
  | .ok () => pure ()
  | .error exception => throwing t exception

def pushFrame (t : ThreadId) (method : Method) (receiver : Option ObjectId) : Act Machine Unit :=
  modify (updateThread t fun thread =>
    { thread with frames := { method, receiver } :: thread.frames })

def popFrame (t : ThreadId) : Act Machine Unit :=
  modify (updateThread t fun thread => { thread with frames := thread.frames.tail })

/-! ## Methods -/

def enlist (method : Method) (root : ObjectId) : Act Machine Unit :=
  modify fun m => { m with registry := { m.registry with
    methods := Registry.put method.qualifiedName method m.registry.methods
    roots := Registry.put method.qualifiedName root m.registry.roots } }

def register (method : Method) : Act Machine Unit := do
  enlist method (← onHeap fun h => h.classObject method.className)

def root? (m : Machine) (method : Method) : Option ObjectId :=
  m.registry.roots.lookup method.qualifiedName

/-- The object whose monitor a synchronized call holds: the class object of a static method, the
receiver of the method being executed otherwise. -/
def lockObject (t : ThreadId) (method : Method) : Act Machine (Option ObjectId) := do
  if method.isStatic then some <$> onHeap fun h => h.classObject method.className
  else pure ((← get).thread t).receiver

/-- Why a reference result is rejected, if it is: it has been freed, or it is of another class than
declared. -/
def rejection? (m : Machine) (method : Method) (o : ObjectId) : Option String :=
  if !m.heap.isAlive o then some ("returned freed object " ++ m.heap.text o)
  else
    match method.returnClass with
    | none => none
    | some expected =>
      let found := m.heap.className o
      if found = expected then none
      else some ("returned " ++ found ++ " but declares " ++ expected)

def checkResult (method : Method) (result : Option ObjectId) : Act Machine Unit := do
  modify fun m => { m with registry := { m.registry with
    checkedResults := m.registry.checkedResults + 1 } }
  match result.bind ((← get).rejection? method) with
  | none => pure ()
  | some reason => throw (.fault (.badReference method.qualifiedName reason))

end NativeBoundary.Machine
