import NativeBoundary.Fault
import NativeBoundary.References
import NativeBoundary.Result.Narrowing

/-!
# Results of native calls

Native code hands back two registers.  The return type of the method says which of them carries
the result and how much of it counts.  A result packs into one transport word and, by the same
return type, can be read back from it.
-/

set_option autoImplicit false

namespace NativeBoundary

structure Registers where
  /-- Integer and handle register. -/
  gpr : UInt64 := 0
  /-- Floating-point register. -/
  fpr : UInt64 := 0
  deriving DecidableEq

def Registers.ofHandle (h : Handle) : Registers :=
  { gpr := h.word }

def Registers.handle (r : Registers) : Handle :=
  ⟨r.gpr⟩

inductive ReturnKind where
  | object | boolean | byte | char | short | int | long | float | double | void
  deriving DecidableEq

namespace ReturnKind

def ofByte? (b : UInt8) : Option ReturnKind :=
  if b = 0x4c then some object        -- L
  else if b = 0x5a then some boolean  -- Z
  else if b = 0x42 then some byte     -- B
  else if b = 0x43 then some char     -- C
  else if b = 0x53 then some short    -- S
  else if b = 0x49 then some int      -- I
  else if b = 0x4a then some long     -- J
  else if b = 0x46 then some float    -- F
  else if b = 0x44 then some double   -- D
  else if b = 0x56 then some void     -- V
  else none

/-- The return type of a shorty byte; a byte outside the alphabet is a fault naming it. -/
def ofByte (b : UInt8) : Except Fault ReturnKind :=
  match ofByte? b with
  | some kind => .ok kind
  | none => .error (.unknownReturn (Char.ofNat b.toNat))

def isReference (k : ReturnKind) : Bool :=
  k = object

def name : ReturnKind → String
  | object => "Object"
  | boolean => "Boolean"
  | byte => "Byte"
  | char => "Char"
  | short => "Short"
  | int => "Int"
  | long => "Long"
  | float => "Float"
  | double => "Double"
  | void => "Void"

end ReturnKind

/-- How a single-precision result travels in the floating-point register. -/
inductive FloatReturn where
  /-- As its own pattern in the low half of the register. -/
  | native
  | widened
  deriving DecidableEq

namespace FloatReturn

def name : FloatReturn → String
  | native => "native"
  | widened => "x87-widened"

def normalize : FloatReturn → UInt64 → UInt64
  | native, bits => bits
  | widened, bits => Binary64.narrow bits

end FloatReturn

inductive CallResult (O : Type) where
  /-- A reference; `none` for null, or when an exception is pending. -/
  | object (value : Option O)
  /-- Boolean, byte, char, short and int results. -/
  | int (value : Int32)
  | long (value : Int64)
  /-- A single-precision pattern. -/
  | float (bits : UInt32)
  /-- A double-precision pattern. -/
  | double (bits : UInt64)
  | void
  deriving DecidableEq

namespace CallResult

variable {O : Type}

/-- The transport word of a result: integers sign-extended, a single-precision pattern in the low
half, null and void as zero, an object as the address that `address` gives it. -/
def word (address : O → UInt64) : CallResult O → UInt64
  | object (some o) => address o
  | object none => 0
  | int v => v.toInt64.toUInt64
  | long v => v.toUInt64
  | float bits => bits.toUInt64
  | double bits => bits
  | void => 0

def object? : CallResult O → Option O
  | object value => value
  | _ => none

end CallResult

/-- Reads a result that is not a reference out of the registers.  A reference has to be looked up
in a thread's table, so for a reference the result is null. -/
def Registers.result {O : Type} (convention : FloatReturn) (r : Registers) :
    ReturnKind → CallResult O
  | .object => .object none
  | .boolean => .int r.gpr.toUInt8.toUInt32.toInt32
  | .byte => .int r.gpr.toUInt8.toInt8.toInt32
  | .char => .int r.gpr.toUInt16.toUInt32.toInt32
  | .short => .int r.gpr.toUInt16.toInt16.toInt32
  | .int => .int r.gpr.toUInt32.toInt32
  | .long => .long r.gpr.toInt64
  | .float => .float (convention.normalize r.fpr).toUInt32
  | .double => .double r.fpr
  | .void => .void

end NativeBoundary
