import NativeBoundary.Fault
import NativeBoundary.References

/-!
# Names and endings

What every session that is carried out step by step has in common: the marks that one step makes
are used by later ones under a name, and the first step that stops the run ends the session.
-/

set_option autoImplicit false

namespace NativeBoundary

inductive Ending where
  | finished
  | halted (why : Halt)
  /-- A cue uses a name that is not bound. -/
  | unbound (name : String)

inductive MarkName where
  | given (mark : ScopeMark)
  | bound (name : String)

def MarkName.resolve (marks : List (String × ScopeMark)) : MarkName → Except Ending ScopeMark
  | given mark => .ok mark
  | bound name =>
    match marks.lookup name with
    | some mark => .ok mark
    | none => .error (.unbound name)

end NativeBoundary
