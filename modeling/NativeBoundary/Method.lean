/-!
# Native methods

What managed code knows of a natively implemented method: its names, its shorty (one character
for the return type, then one for each parameter), how much of the boundary protocol a call of it
runs, and whether the call holds a monitor.  Nothing here changes while the program runs.
-/

set_option autoImplicit false

namespace NativeBoundary

inductive Tier where
  /-- The thread leaves managed code for the length of the call. -/
  | normal
  /-- The thread stays in managed code, opens a reference scope, and checks for a suspend request
  on the way out. -/
  | fast
  /-- The thread stays in managed code and nothing is set up at all. -/
  | critical
  deriving DecidableEq

namespace Tier

def name : Tier → String
  | normal => "normal"
  | fast => "fast"
  | critical => "critical"

def title : Tier → String
  | normal => "Normal"
  | fast => "Fast"
  | critical => "Critical"

def leavesManaged : Tier → Bool
  | normal => true
  | fast | critical => false

def opensScope : Tier → Bool
  | normal | fast => true
  | critical => false

end Tier

/-- A natively implemented method. -/
structure Method where
  className : String
  /-- Name of the method itself. -/
  name : String
  /-- Return type character, then one character for each parameter. -/
  shorty : String
  /-- How much of the protocol a call runs. -/
  tier : Tier
  /-- Whether a call holds a monitor from start to end. -/
  isSynchronized : Bool := false
  /-- Whether the method belongs to its class, not to a receiver. -/
  isStatic : Bool := true
  /-- Declared class of a reference result, if any. -/
  returnClass : Option String := none
  deriving DecidableEq

namespace Method

/-- The `Class.method` form of a method, under which it is registered, traced and reported. -/
def qualifiedName (m : Method) : String :=
  m.className ++ "." ++ m.name

/-- First byte of the shorty in UTF-8, zero for an empty shorty.  Zero is no return type. -/
def returnByte (m : Method) : UInt8 :=
  ((m.shorty.toList.head?.bind fun c => (String.utf8EncodeChar c).head?).getD 0)

end Method

end NativeBoundary
