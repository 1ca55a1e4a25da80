import NativeBoundary.Crossing.World

/-!
# Lines of a log

What an observer and a reader of the trace get to see of a crossing.
-/

set_option autoImplicit false

namespace NativeBoundary

def hexWord (word : UInt64) : String :=
  "0x" ++ Text.hexDigits word.toNat

def Deed.reportLine? {O X : Type} : Deed O X → Option String
  | asked _ => some "query"
  | begun env => some ("begin:" ++ toString env.toNat)
  | ending env => some ("end:" ++ toString env.toNat)
  | traced event => some event.line
  | _ => none

end NativeBoundary
