import NativeBoundary.Crossing.Script
import NativeBoundary.Scripted.Stage

/-!
# Scripted sessions

A session is a list of cues: uses of the boundary, and changes to what is written on the stage.
Each cue that is carried out leaves a record; the first one that stops the run ends the session
without a record of its own.
-/

set_option autoImplicit false

namespace NativeBoundary

namespace Scripted

inductive Cue where
  /-- Uses the boundary; a mark that it gives back is bound to a name. -/
  | cross (passage : Passage String Handle MarkName Method Registers) (name : Option String)
  | addLocal (object : String)
  | setPending (exception : Option String)
  | setSuspend (requested : Bool)
  | setHeld (count : Nat)
  | setEnv (env : UInt64)
  | setExecuting (method : Option Method)
  | truncate (mark : ScopeMark)
  | failEnter (exception : Option String)
  | failExit (exception : Option String)
  | setLockObject (object : Option String)
  | onCheck (effect : OnCheck)
  | setReport (answer : Bool)
  /-- Asks whether tracing is set up and whether its flag is up. -/
  | tracer
  | traceEntry (thread : UInt64)
  | traceExit

inductive Reply where
  | nothing
  | crossed (result : PassageResult String)
  | handle (handle : Handle)
  | tracer (isActive flag : Bool)

structure Record where
  label : String
  log : List String
  reply : Reply
  stage : Stage

structure Scene where
  world : World Stage String String
  marks : List (String × ScopeMark) := []

namespace Scene

def act {α : Type} (scene : Scene) (action : Crossing Stage String String α) :
    Except Ending (α × Scene) :=
  match action { scene.world with journal := [] } with
  | .ok a world => .ok (a, { scene with world })
  | .error why _ => .error (.halted why)

def set (scene : Scene) (update : Stage → Stage) : Except Ending (Reply × Scene) := do
  let ((), scene) ← scene.act (Crossing.change update)
  pure (.nothing, scene)

def bind (scene : Scene) (name : Option String) (result : PassageResult String) : Scene :=
  match name, result with
  | some name, .mark mark => { scene with marks := (name, mark) :: scene.marks }
  | _, _ => scene

def step (b : Boundary) (scene : Scene) : Cue → Except Ending (Reply × Scene)
  | .cross passage name => do
    let passage ← passage.resolve pure pure (MarkName.resolve scene.marks) pure pure
    let (result, scene) ← scene.act (passage.run Stage.host b)
    pure (.crossed result, scene.bind name result)
  | .addLocal object => do
    let (handle, locals) := scene.world.state.locals.add object
    let (_, scene) ← scene.set fun s => { s with locals }
    pure (.handle handle, scene)
  | .setPending exception => scene.set fun s => { s with pending := exception }
  | .setSuspend requested => scene.set fun s => { s with suspendRequested := requested }
  | .setHeld count => scene.set fun s => { s with heldMonitors := count }
  | .setEnv env => scene.set fun s => { s with env }
  | .setExecuting method => scene.set fun s => { s with executing := method }
  | .truncate mark => scene.set fun s => { s with locals := s.locals.truncate mark }
  | .failEnter exception => scene.set fun s => { s with enterFailure := exception }
  | .failExit exception => scene.set fun s => { s with exitFailure := exception }
  | .setLockObject object => scene.set fun s => { s with lockObject := object }
  | .onCheck effect => scene.set fun s => { s with onCheck := effect }
  | .setReport answer => do
    let ((), scene) ← scene.act (modify fun w => { w with willReport := fun _ => answer })
    pure (.nothing, scene)
  | .tracer => do
    let (world, scene) ← scene.act get
    pure (.tracer b.settings.trace.isActive world.tracing, scene)
  | .traceEntry thread => do
    let ((), scene) ← scene.act (Crossing.traceEntry Stage.host b thread)
    pure (.nothing, scene)
  | .traceExit => do
    let ((), scene) ← scene.act (Crossing.traceExit Stage.host b)
    pure (.nothing, scene)

def play (b : Boundary) (scene : Scene) : List (String × Cue) → List Record × Ending
  | [] => ([], .finished)
  | (label, cue) :: rest =>
    match scene.step b cue with
    | .error ending => ([], ending)
    | .ok (reply, scene) =>
      let record : Record :=
        { label, log := scene.world.journal.map line, reply, stage := scene.world.state }
      let (records, ending) := scene.play b rest
      (record :: records, ending)

end Scene

def perform (b : Boundary) (willReport : Bool) (stage : Stage) (cues : List (String × Cue)) :
    List Record × Ending :=
  Scene.play b { world := { state := stage, willReport := fun _ => willReport } } cues

end Scripted

end NativeBoundary
