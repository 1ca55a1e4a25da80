import NativeBoundary.Crossing.Log
import NativeBoundary.Crossing.Script
import NativeBoundary.Machine.Call

/-!
# Sessions on the machine

A session is a list of steps on behalf of attached threads.  Objects, handles, marks, methods and
threads go by names that earlier steps bound.  The native body of a call and the body of a pause
are lists of steps themselves, carried out while the call or the pause is in progress.  Every step
that is carried out leaves a record; the first one that stops the run ends the session.
-/

set_option autoImplicit false

namespace NativeBoundary.MachineSession

inductive HandleName where
  | given (handle : Handle)
  | bound (name : String)

inductive RegisterNames where
  | given (registers : Registers)
  /-- Those that return a handle. -/
  | handle (handle : HandleName)

abbrev NamedPassage := Passage String HandleName MarkName String RegisterNames

/-- A step without steps of its own.  The last argument of a step that makes something is the name
to bind it to. -/
inductive Action where
  | attach (thread : String)
  | detach (thread : String)
  | describe (method : Method) (name : Option String)
  | register (method : Method) (name : Option String)
  | lookup (qualifiedName : String)
  | root (method : String)
  | allocate (className : String) (name : Option String)
  | classObject (className : String) (name : Option String)
  | relocate (object : String) (name : Option String)
  | free (object : String)
  | mark (object : String)
  | clearMarks
  | currentCopy (object : String)
  | showObject (object : String)
  | sameObject (object other : String)
  | sameMonitor (object other : String)
  | tryEnter (object : String) (thread : ThreadId)
  | enterWaiting (object : String) (thread : ThreadId)
  | exitRaw (object : String) (thread : ThreadId)
  | showMachine
  | showAttached (thread : ThreadId)
  | showLock
  | setReport (answer : Bool)
  | requestPause (reason : PauseReason)
  | contend (object : String)
  | joinWaiting
  | toNative
  | toManaged
  | checkSuspend
  | blocking
  | showThread
  | addLocal (object : String) (name : Option String)
  | decode (handle : HandleName)
  | setTop (mark : ScopeMark)
  | setBase (mark : ScopeMark)
  | pushHandle (object : String)
  | popHandle
  | roots
  | pushFrame (method : String) (receiver : Option String)
  | popFrame
  | receiver
  | throw (exception : Throwable)
  | takePending
  | nativeEnter (object : String)
  | nativeExit (object : String)
  | enterMonitor (object : String)
  | exitMonitor (object : String)
  | lockObject (method : String)
  | checkResult (method : String) (object : Option String)
  | newObject (className : String) (name : Option String)
  | bodyEnter (object : String)
  /-- Exits a monitor from a native body, where a misuse is left pending. -/
  | bodyExit (object : String)
  /-- The name of the running thread, and how many threads are attached. -/
  | whoAmI
  | cross (passage : NamedPassage) (name : Option String)

/-- A step of a session, on behalf of a thread: the named one, or else the running one. -/
inductive Step where
  | act (label : String) (thread : Option String) (action : Action)
  | invoke (label : String) (thread : Option String) (method : String)
      (receiver : Option String) (body : List Step) (registers : RegisterNames)
      (name : Option String)
  | pause (label : String) (thread : Option String) (reason : PauseReason) (body : List Step)

structure MonitorView where
  owner : Option ThreadId
  recursion : Nat

inductive Reply where
  | nothing
  | flag (value : Bool)
  | flags (values : List Bool)
  | number (value : Nat)
  | text (text : Option String)
  | texts (texts : List String)
  | handle (handle : Handle)
  | crossed (result : PassageResult String)
  | invoked (result : CallResult String)
  | started (declaringClass receiver : Option String)
  | registry (size : Nat)
  | monitor (view : MonitorView)
  | tried (entered : Bool) (view : MonitorView)
  | exited (misuse : Option String) (view : MonitorView)
  | object (copy : Copy) (text : String) (forwarded : Option String) (view : MonitorView)
  | machine (machine : Machine) (tracing : Bool)
  | attached (thread : Option Thread)
  | paused (lock : MutatorLock)
  | blocked (claims : Nat) (holdsShare : Bool)
  | exception (exception : Option Throwable)
  | ok (exception : Option String)
  | who (name : String) (attached : Nat)

structure Record where
  label : String
  /-- Whether this is the start of a native body, not the end of a step. -/
  isStart : Bool
  log : List String
  reply : Reply
  thread : Option Thread

/-- A session at some point: the world, the names bound so far, and the records, the last one
first. -/
structure Scene where
  world : MachineWorld
  threads : List (String × ThreadId) := []
  objects : List (String × ObjectId) := []
  handles : List (String × Handle) := []
  marks : List (String × ScopeMark) := []
  methods : List (String × Method) := []
  records : List Record := []

/-- A computation of a session. -/
abbrev Play := EStateM Ending Scene

namespace Play

def call {α : Type} (action : Call α) : Play α := fun scene =>
  match action scene.world with
  | .ok a world => .ok a { scene with world }
  | .error why world => .error (.halted why) { scene with world }

def machine {α : Type} (action : Act Machine α) : Play α := call (Call.machine action)

def change (update : Machine → Machine) : Play Unit := machine (modify update)

def look {α : Type} (view : Machine → α) : Play α := do
  pure (view (← get).world.state)

/-! ## Names -/

def find {α : Type} (bindings : Scene → List (String × α)) (name : String) : Play α := do
  match (bindings (← get)).lookup name with
  | some a => pure a
  | none => throw (.unbound name)

def object (name : String) : Play ObjectId := find (fun s => s.objects) name

def method (name : String) : Play Method := find (fun s => s.methods) name

def handle : HandleName → Play Handle
  | .given h => pure h
  | .bound name => find (fun s => s.handles) name

def mark (name : MarkName) : Play ScopeMark := do
  match name.resolve (← get).marks with
  | .ok mark => pure mark
  | .error ending => throw ending

def registers : RegisterNames → Play Registers
  | .given r => pure r
  | .handle h => do pure (.ofHandle (← handle h))

def bindObject (name : Option String) (o : ObjectId) : Play Unit :=
  match name with
  | none => pure ()
  | some name => modify fun s => { s with objects := (name, o) :: s.objects }

def bindHandle (name : Option String) (h : Handle) : Play Unit :=
  match name with
  | none => pure ()
  | some name => modify fun s => { s with handles := (name, h) :: s.handles }

def bindMethod (name : Option String) (m : Method) : Play Unit :=
  match name with
  | none => pure ()
  | some name => modify fun s => { s with methods := (name, m) :: s.methods }

def bindCrossed (name : Option String) : PassageResult ObjectId → Play Unit
  | .mark mark =>
    match name with
    | none => pure ()
    | some name => modify fun s => { s with marks := (name, mark) :: s.marks }
  | .object (some o) | .result (.object (some o)) => bindObject name o
  | _ => pure ()

/-! ## Replies -/

def textOf (o : ObjectId) : Play String := look fun m => m.heap.text o

def textOf? (o : Option ObjectId) : Play (Option String) := o.mapM textOf

/-- The monitor of an object as it is shown: the published owner, and the levels. -/
def monitorOf (o : ObjectId) : Play MonitorView := look fun m =>
  let monitor := m.heap.monitor o
  { owner := monitor.published, recursion := monitor.recursion }

def resultTexts : CallResult ObjectId → Play (CallResult String)
  | .object o => do pure (.object (← textOf? o))
  | .int v => pure (.int v)
  | .long v => pure (.long v)
  | .float bits => pure (.float bits)
  | .double bits => pure (.double bits)
  | .void => pure .void

def crossedTexts : PassageResult ObjectId → Play (PassageResult String)
  | .nothing => pure .nothing
  | .mark mark => pure (.mark mark)
  | .object o => do pure (.object (← textOf? o))
  | .result r => do pure (.result (← resultTexts r))

def record (label : String) (isStart : Bool) (thread : String) (reply : Reply) : Play Unit :=
  modify fun s =>
    let log := s.world.journal.filterMap fun entry => entry.deed.reportLine?
    let seen := (s.threads.lookup thread).bind s.world.state.thread?
    { s with
      world := { s.world with journal := [] }
      records := { label, isStart, log, reply, thread := seen } :: s.records }

/-! ## Actions -/

def actAs (b : Boundary) (t : ThreadId) : Action → Play Reply
  | .toNative => do machine (Machine.toNative t); pure .nothing
  | .toManaged => do machine (Machine.toManaged t); pure .nothing
  | .checkSuspend => do machine (Machine.checkSuspend t); pure .nothing
  | .blocking => do
    let (claims, holdsShare) ← machine (Machine.blocking t do
      let m ← get
      pure (m.lock.claims, (m.thread t).holdsShare))
    pure (.blocked claims holdsShare)
  | .showThread => do pure (.text (some (← look fun m => (m.thread t).text)))
  | .addLocal o name => do
    let h ← machine (Machine.addLocal t (← object o))
    bindHandle name h
    pure (.handle h)
  | .decode h => do
    let h ← handle h
    pure (.text (← textOf? (← look fun m => (m.thread t).locals.get? h)))
  | .setTop mark => do
    change ((Machine.host t).setScopeTop mark)
    pure .nothing
  | .setBase mark => do
    change ((Machine.host t).setScopeBase mark)
    pure .nothing
  | .pushHandle o => do
    change ((Machine.host t).pushHandle (← object o))
    pure .nothing
  | .popHandle => do
    let (top, popped) ← look (Machine.host t).popHandle
    change fun _ => popped
    pure (.text (← textOf? top))
  | .roots => do
    pure (.texts (← (← look fun m => (m.thread t).roots).mapM textOf))
  | .pushFrame m receiver => do
    machine (Machine.pushFrame t (← method m) (← receiver.mapM object))
    pure .nothing
  | .popFrame => do machine (Machine.popFrame t); pure .nothing
  | .receiver => do pure (.text (← textOf? (← look fun m => (m.thread t).receiver)))
  | .throw exception => do
    machine (Machine.throwing t exception)
    pure .nothing
  | .takePending => do
    let exception ← look fun m => (m.thread t).pending
    change (Machine.host t).clearPending
    pure (.exception exception)
  | .nativeEnter o => do
    let o ← object o
    machine (Machine.nativeEnter t o)
    pure (.monitor (← monitorOf o))
  | .nativeExit o => do
    let exited ← machine (Machine.nativeExit t (← object o))
    pure (.ok (match exited with | .ok () => none | .error e => some e.text))
  | .enterMonitor o => do
    let o ← object o
    machine (Machine.enterMonitor t o)
    pure (.monitor (← monitorOf o))
  | .exitMonitor o => do
    let exited ← machine (Machine.exitMonitor t (← object o))
    pure (.ok (match exited with | .ok () => none | .error e => some e.text))
  | .lockObject m => do
    pure (.text (← textOf? (← machine (Machine.lockObject t (← method m)))))
  | .checkResult m o => do
    machine (Machine.checkResult (← method m) (← o.mapM object))
    pure (.number (← look fun m => m.registry.checkedResults))
  | .newObject className name => do
    let h ← machine (Machine.newObject t className)
    bindHandle name h
    pure (.handle h)
  | .bodyEnter o => do machine (Machine.nativeEnter t (← object o)); pure .nothing
  | .bodyExit o => do
    machine (Machine.nativeExitOrThrow t (← object o))
    pure .nothing
  | .whoAmI => do
    pure (.who (← look fun m => (m.thread t).name) (← look fun m => m.threads.length))
  | .cross passage name => do
    let passage ← passage.resolve object handle mark method registers
    let result ← call (passage.run (Machine.host t) b)
    bindCrossed name result
    pure (.crossed (← crossedTexts result))
  | _ => pure .nothing

def act (b : Boundary) (thread : String) : Action → Play Reply
  | .attach name => do
    let t ← machine (Machine.attach name)
    let old := (← get).threads.lookup name
    modify fun s => { s with threads := (name, t) :: s.threads.filter fun (n, _) => n ≠ name }
    if let some old := old then machine (Machine.detach old)
    pure (.number t.number)
  | .detach name => do
    match (← get).threads.lookup name with
    | none => pure (.flag false)
    | some t =>
      machine (Machine.detach t)
      modify fun s => { s with threads := s.threads.filter fun (n, _) => n ≠ name }
      pure (.flag true)
  | .describe m name => do bindMethod name m; pure .nothing
  | .register m name => do
    machine (Machine.register m)
    bindMethod name m
    pure (.registry (← look fun m => m.registry.methods.length))
  | .lookup qualifiedName => do
    let found ← look fun m => m.registry.methods.lookup qualifiedName
    pure (.text (found.map fun m => m.qualifiedName ++ " " ++ m.shorty ++ " " ++ m.tier.name))
  | .root m => do
    let m ← method m
    pure (.text (← textOf? (← look fun machine => machine.root? m)))
  | .allocate className name => do
    let o ← machine (Machine.onHeap fun h => h.allocate className)
    bindObject name o
    pure (.number o.number)
  | .classObject className name => do
    let o ← machine (Machine.onHeap fun h => h.classObject className)
    bindObject name o
    pure (.number o.number)
  | .relocate o name => do
    let o ← object o
    let moved ← machine (Machine.onHeap fun h => h.relocate o)
    bindObject name moved
    pure (.number moved.number)
  | .free o => do
    let o ← object o
    machine (Machine.changeHeap fun h => h.free o)
    pure (.number (← look fun m => m.heap.liveCount))
  | .mark o => do
    let o ← object o
    machine (Machine.changeHeap fun h => h.mark o)
    pure (.flag (← look fun m => m.heap.isMarked o))
  | .clearMarks => do machine (Machine.changeHeap Heap.clearMarks); pure .nothing
  | .currentCopy o => do
    pure (.text (some (← textOf (← machine (Machine.currentCopy (← object o))))))
  | .showObject o => do
    let o ← object o
    match ← look fun m => m.heap.copy? o with
    | none => pure .nothing
    | some copy =>
      pure (.object copy (← textOf o) (← textOf? copy.forwarded) (← monitorOf o))
  | .sameObject o p => do pure (.flag ((← object o) = (← object p)))
  | .sameMonitor o p => do
    let o ← object o
    let p ← object p
    pure (.flag (← look fun m => m.heap.sameMonitor o p))
  | .tryEnter o t => do
    let o ← object o
    let entered ← machine (Machine.tryEnter t o)
    pure (.tried entered (← monitorOf o))
  | .enterWaiting o t => do
    let o ← object o
    machine (Machine.enterWaiting t o)
    pure (.monitor (← monitorOf o))
  | .exitRaw o t => do
    let o ← object o
    let exited ← machine (Machine.exitRaw t o)
    let misuse := match exited with | .ok () => none | .error e => some e.message
    pure (.exited misuse (← monitorOf o))
  | .showMachine => do
    let s ← get
    pure (.machine s.world.state s.world.tracing)
  | .showAttached t => do pure (.attached (← look fun m => m.thread? t))
  | .showLock => do pure (.text (some (← look fun m => m.lock.text)))
  | .setReport answer => do
    modify fun s => { s with world := { s.world with willReport := fun _ => answer } }
    pure .nothing
  | .requestPause reason => do change (Machine.requestPause reason); pure .nothing
  | .contend o => do machine (Machine.contend (← object o)); pure .nothing
  | .joinWaiting => do pure (.flags (← machine Machine.joinWaiting))
  | action => do
    match (← get).threads.lookup thread with
    | none => throw (.unbound thread)
    | some t => actAs b t action

mutual

def step (b : Boundary) (running : String) : Step → Play Unit
  | .act label thread action => do
    let thread := thread.getD running
    let reply ← act b thread action
    record label false thread reply
  | .invoke label thread m receiver body regs name => do
    let thread := thread.getD running
    let t ← find (fun s => s.threads) thread
    let m ← method m
    let receiver ← receiver.mapM object
    let started ← call (Call.enter b t m receiver)
    let given ← look fun machine => (machine.thread t).receiver
    record label true thread
      (.started (← textOf? started.declaringClass) (← textOf? given))
    steps b thread body
    let regs ← registers regs
    let result ← call (Call.leave b t m started.saved regs)
    bindCrossed name (.result result)
    record label false thread (.invoked (← resultTexts result))
  | .pause label thread reason body => do
    let thread := thread.getD running
    machine (Machine.beginPause reason)
    steps b thread body
    let lock ← look fun m => m.lock
    change Machine.endPause
    record label false thread (.paused lock)

def steps (b : Boundary) (running : String) : List Step → Play Unit
  | [] => pure ()
  | first :: rest => do
    step b running first
    steps b running rest

end

end Play

def mainThread : String := "main"

def perform (b : Boundary) (willReport : Bool) (machine : Machine) (script : List Step) :
    List Record × Ending :=
  let world := { state := machine, willReport := fun _ => willReport }
  match Play.steps b mainThread script { world } with
  | .ok () scene => (scene.records.reverse, .finished)
  | .error ending scene => (scene.records.reverse, ending)

end NativeBoundary.MachineSession
