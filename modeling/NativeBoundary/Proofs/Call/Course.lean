import NativeBoundary.Proofs.Call.Instructions

/-!
# The course of a body

Between two instructions of a body, or of the body of a call nested in it to any depth, lies a
moment.  The course of a body is the list of its moments in the order in which they come; it ends
early where the run is stopped.  What a claim says of every point of a body, it says of every moment
of its course.
-/

set_option autoImplicit false

namespace NativeBoundary

/-! ## Moments -/

/-- A point of a run: the world, and the instruction that is carried out next; at the end of a body
there is none. -/
structure Moment where
  world : MachineWorld
  next : Option Instruction

namespace Call

variable (b : Boundary) (t : ThreadId)

mutual

def momentsOf : Instruction → MachineWorld → List Moment
  | .call method receiver body _, w =>
    match enter b t method receiver w with
    | .ok _ started => course body started
    | .error _ _ => []
  | _, _ => []

/-- The moments of a body, from the one before its first instruction to the one at its end. -/
def course : List Instruction → MachineWorld → List Moment
  | [], w => [⟨w, none⟩]
  | first :: rest, w =>
    ⟨w, some first⟩ :: momentsOf first w ++
      match perform b t first w with
      | .ok _ after => course rest after
      | .error _ _ => []

end

/-! ## References that stay -/

mutual

/-- The references that an instruction leaves in the table: the one it adds itself, or those that
the body of a critical call leaves. -/
def keptBy : Instruction → MachineWorld → List ObjectId
  | .newObject className, w => [(w.state.heap.allocate className).1]
  | .newLocal o, _ => [o]
  | .call method receiver body _, w =>
    match enter b t method receiver w with
    | .ok _ started => if method.tier.opensScope then [] else kept body started
    | .error _ _ => []
  | _, _ => []

def kept : List Instruction → MachineWorld → List ObjectId
  | [], _ => []
  | first :: rest, w =>
    keptBy first w ++
      match perform b t first w with
      | .ok _ after => kept rest after
      | .error _ _ => []

end

end Call

/-! ## Ways back to managed code -/

mutual

def Instruction.bracketed : Instruction → Bool
  | .call _ _ body _ => bracketedFrom false body
  | _ => true

/-- Whether a body goes to native code again each time after it came back to managed code.  The flag
says whether it has come back by now. -/
def bracketedFrom : Bool → List Instruction → Bool
  | inside, [] => !inside
  | inside, .toManaged :: rest => !inside && bracketedFrom true rest
  | inside, .toNative :: rest => inside && bracketedFrom false rest
  | inside, first :: rest => first.bracketed && bracketedFrom inside rest

end

/-- An instruction that is neither of the two ways leaves the flag as it is. -/
theorem bracketedFrom_cons {inside : Bool} {first : Instruction} {rest : List Instruction}
    (notBack : first ≠ .toManaged) (notAway : first ≠ .toNative) :
    bracketedFrom inside (first :: rest) = (first.bracketed && bracketedFrom inside rest) := by
  cases first with
  | toManaged => exact absurd rfl notBack
  | toNative => exact absurd rfl notAway
  | _ => simp only [bracketedFrom]

/-! ## Room -/

/-- At each moment the table of a thread is small enough for a mark to name its top. -/
def Roomy (t : ThreadId) (moments : List Moment) : Prop :=
  ∀ moment ∈ moments, (moment.world.state.thread t).locals.size < UInt32.size

namespace Call

variable {b : Boundary} {t : ThreadId} {w started after : MachineWorld}

/-! ## Parts of a course -/

theorem course_cons (first : Instruction) (rest : List Instruction) :
    course b t (first :: rest) w =
      (⟨w, some first⟩ :: momentsOf b t first w) ++
        match perform b t first w with
        | .ok _ after => course b t rest after
        | .error _ _ => [] := by
  rw [course]

theorem moment_mem_course (first : Instruction) (rest : List Instruction) :
    ⟨w, some first⟩ ∈ course b t (first :: rest) w := by
  simp [course]

theorem momentsOf_subset_course (first : Instruction) (rest : List Instruction) :
    momentsOf b t first w ⊆ course b t (first :: rest) w := by
  intro moment member
  simp [course, member]

theorem course_rest_subset {first : Instruction} {rest : List Instruction} {u : Unit}
    (run : perform b t first w = .ok u after) :
    course b t rest after ⊆ course b t (first :: rest) w := by
  intro moment member
  simp [course, run, member]

/-- A body that comes to its end has a moment there. -/
theorem end_mem_course (body : List Instruction) :
    ∀ {w ended : MachineWorld} {u : Unit}, performAll b t body w = .ok u ended →
      ⟨ended, none⟩ ∈ course b t body w := by
  induction body with
  | nil =>
    intro w ended u run
    simp only [performAll] at run
    obtain ⟨-, rfl⟩ := Act.pure_eq_ok.1 run
    simp [course]
  | cons first rest ih =>
    intro w ended u run
    simp only [performAll] at run
    obtain ⟨_, between, doing, run⟩ := Act.bind_eq_ok.1 run
    exact course_rest_subset doing (ih run)

theorem momentsOf_call {method : Method} {receiver : Option ObjectId} {body : List Instruction}
    {registers : Registers} {entry : Started}
    (run : enter b t method receiver w = .ok entry started) :
    momentsOf b t (.call method receiver body registers) w = course b t body started := by
  simp [momentsOf, run]

end Call

end NativeBoundary
