import NativeBoundary.Machine.Call
import NativeBoundary.Proofs.Crossing.Faults
import NativeBoundary.Proofs.Crossing.Returned

/-!
# Primitive results

A result that is not a reference is made of the low bits of one register: which register and how
many bits, the return type says.  The transport word is the extension of the same bits, so it can be
put back into the register and read once more.  The exit of a call takes the return type from the
first byte of the shorty and does not look at the registers before that.
-/

set_option autoImplicit false

namespace NativeBoundary

/-! ## Return types -/

namespace ReturnKind

def letter : ReturnKind → UInt8
  | object => 'L'.toUInt8
  | boolean => 'Z'.toUInt8
  | byte => 'B'.toUInt8
  | char => 'C'.toUInt8
  | short => 'S'.toUInt8
  | int => 'I'.toUInt8
  | long => 'J'.toUInt8
  | float => 'F'.toUInt8
  | double => 'D'.toUInt8
  | void => 'V'.toUInt8

theorem ofByte?_eq_some {byte : UInt8} {kind : ReturnKind} :
    ofByte? byte = some kind ↔ byte = kind.letter := by
  constructor
  · intro known
    have listed : byte ∈ returnBytes := by
      refine Decidable.byContradiction fun unlisted => ?_
      rw [ofByte?_eq_none.2 unlisted] at known
      cases known
    have lettered : ∀ byte ∈ returnBytes, (ofByte? byte).map letter = some byte := by
      decide +kernel
    have same := lettered byte listed
    rw [known] at same
    exact (Option.some.inj same).symm
  · rintro rfl
    cases kind <;> rfl

theorem letter_ne_zero (kind : ReturnKind) : kind.letter ≠ 0 := by
  cases kind <;> decide

/-- The bits of a register that count. -/
def width : ReturnKind → Nat
  | void => 0
  | boolean | byte => 8
  | char | short => 16
  | int | float => 32
  | long | double | object => 64

theorem width_le (kind : ReturnKind) : kind.width ≤ 64 := by
  cases kind <;> decide

def register (kind : ReturnKind) (r : Registers) : UInt64 :=
  match kind with
  | float | double => r.fpr
  | _ => r.gpr

def carried (kind : ReturnKind) (r : Registers) : BitVec kind.width :=
  (kind.register r).toBitVec.setWidth kind.width

def isSigned : ReturnKind → Bool
  | byte | short | int => true
  | _ => false

/-- The bits of a result in a wider word, below copies of the sign or below zeros. -/
def extend (kind : ReturnKind) (n : Nat) (bits : BitVec kind.width) : BitVec n :=
  if kind.isSigned then bits.signExtend n else bits.setWidth n

theorem setWidth_extend (kind : ReturnKind) (bits : BitVec kind.width) :
    (kind.extend 64 bits).setWidth kind.width = bits := by
  refine BitVec.eq_of_getLsbD_eq fun i low => ?_
  have inside : i < 64 := Nat.lt_of_lt_of_le low kind.width_le
  rw [BitVec.getLsbD_setWidth, extend]
  split
  · simp only [BitVec.getLsbD_signExtend, low, inside, decide_true, Bool.true_and, if_true]
  · simp only [BitVec.getLsbD_setWidth, low, inside, decide_true, Bool.true_and]

/-- A sign that an integer of 32 bits has is the sign of the result; an unsigned result is shorter,
and leaves it clear. -/
theorem signExtend_extend {kind : ReturnKind} (fits : kind.width ≤ 32)
    (signed : kind.isSigned = true ∨ kind.width < 32) (bits : BitVec kind.width) :
    (kind.extend 32 bits).signExtend 64 = kind.extend 64 bits := by
  unfold extend
  cases sign : kind.isSigned with
  | true =>
    refine BitVec.toInt_inj.1 ?_
    simp only [if_true]
    rw [BitVec.toInt_signExtend_of_le (by decide), BitVec.toInt_signExtend_of_le fits,
      BitVec.toInt_signExtend_of_le kind.width_le]
  | false =>
    have short : kind.width < 32 := signed.resolve_left (by rw [sign]; decide)
    have clear : (bits.setWidth 32).msb = false := by
      rw [BitVec.msb_setWidth, BitVec.getLsbD_of_ge _ _ (by omega), Bool.and_false]
    simp only [Bool.false_eq_true, if_false]
    rw [BitVec.signExtend_eq_setWidth_of_msb_false clear]
    refine BitVec.eq_of_getLsbD_eq fun i _ => ?_
    simp only [BitVec.getLsbD_setWidth]
    by_cases inside : i < 32
    · simp [inside]
    · rw [BitVec.getLsbD_of_ge bits i (by omega)]
      simp

end ReturnKind

open ReturnKind

namespace Method

theorem returnByte_eq (m : Method) : m.returnByte = (m.shorty.toUTF8.data[0]?).getD 0 := by
  unfold returnByte
  rw [String.toUTF8_eq_toByteArray, ← String.utf8Encode_toList]
  cases m.shorty.toList with
  | nil => rfl
  | cons c rest =>
    have first : (String.utf8EncodeChar c).head?.isSome :=
      List.isSome_head?.2 String.utf8EncodeChar_ne_nil
    simp [List.utf8Encode, ← List.head?_eq_getElem?, List.head?_append, Option.or_of_isSome first]

/-- A shorty that is empty has the byte zero, which is no letter. -/
theorem ofByte?_returnByte {m : Method} {kind : ReturnKind} :
    ofByte? m.returnByte = some kind ↔ m.shorty.toUTF8.data[0]? = some kind.letter := by
  rw [ofByte?_eq_some, returnByte_eq]
  cases m.shorty.toUTF8.data[0]? with
  | none => simpa using kind.letter_ne_zero.symm
  | some byte => simp

end Method

/-! ## Results -/

def CallResult.ofBits {O : Type} : (kind : ReturnKind) → BitVec kind.width → CallResult O
  | .boolean, bits => .int ⟨⟨extend .boolean 32 bits⟩⟩
  | .byte, bits => .int ⟨⟨extend .byte 32 bits⟩⟩
  | .char, bits => .int ⟨⟨extend .char 32 bits⟩⟩
  | .short, bits => .int ⟨⟨extend .short 32 bits⟩⟩
  | .int, bits => .int ⟨⟨extend .int 32 bits⟩⟩
  | .long, bits => .long ⟨⟨bits⟩⟩
  | .float, bits => .float ⟨bits⟩
  | .double, bits => .double ⟨bits⟩
  | .void, _ => .void
  | .object, _ => .object none

theorem Registers.result_eq_ofBits {O : Type} (r : Registers) (kind : ReturnKind) :
    (r.result .native kind : CallResult O) = .ofBits kind (kind.carried r) := by
  cases kind with
  | int =>
    have whole : extend .int 32 (carried .int r) = carried .int r := BitVec.signExtend_eq _
    rw [CallResult.ofBits, whole]
    rfl
  | long =>
    have whole : carried .long r = r.gpr.toBitVec := BitVec.setWidth_eq _
    rw [CallResult.ofBits, whole]
    rfl
  | double =>
    have whole : carried .double r = r.fpr.toBitVec := BitVec.setWidth_eq _
    rw [CallResult.ofBits, whole]
    rfl
  | _ => rfl

theorem CallResult.word_ofBits {O : Type} {kind : ReturnKind} (primitive : kind ≠ .object)
    (address : O → UInt64) (bits : BitVec kind.width) :
    ((ofBits kind bits : CallResult O).word address).toBitVec = kind.extend 64 bits := by
  cases kind with
  | object => exact absurd rfl primitive
  | boolean | byte | char | short | int => exact signExtend_extend (by decide) (by decide) bits
  | void =>
    have empty : bits = 0#0 := BitVec.of_length_zero
    rw [empty]
    rfl
  | long | double => exact (BitVec.setWidth_eq bits).symm
  | float => rfl

theorem ReturnKind.carried_word {O : Type} {kind : ReturnKind} (primitive : kind ≠ .object)
    {address : O → UInt64} {bits : BitVec kind.width} {r : Registers}
    (back : kind.register r = (CallResult.ofBits kind bits : CallResult O).word address) :
    kind.carried r = bits := by
  rw [carried, back, CallResult.word_ofBits primitive, setWidth_extend]

namespace Crossing

variable {σ O X : Type} (host : Host σ O X) (b : Boundary) (m : Method) (saved : ScopeMark)

/-- The exit of a call up to where the result is looked at. -/
def unwind : Crossing σ O X Unit := do
  finishTier host b m.tier
  unlockFor host b m

variable {m}

theorem endMethod_of_primitive {kind : ReturnKind} (known : ofByte? m.returnByte = some kind)
    (primitive : kind ≠ .object) (r : Registers) :
    endMethod host b m saved r = (do
      unwind host b m
      onlyIf m.tier.opensScope (closeScope host b.settings.checked saved)
      pure (r.result b.settings.floatReturn kind)) := by
  rw [endMethod_eq, unwind, bind_assoc, deliver, ofByte, known]
  cases kind with
  | object => exact absurd rfl primitive
  | _ => rfl

theorem endMethod_of_unknown (unknown : ofByte? m.returnByte = none) (r : Registers) :
    endMethod host b m saved r = (do
      unwind host b m
      fault (.unknownReturn (Char.ofNat m.returnByte.toNat))) := by
  rw [endMethod_eq, unwind, bind_assoc, deliver, ofByte, unknown]

theorem endMethod_of_reference {w w' : World σ O X} {r : Registers} {result : CallResult O}
    (known : ofByte? m.returnByte = some .object)
    (ran : endMethod host b m saved r w = .ok result w') : ∃ object, result = .object object := by
  rw [endMethod_eq, deliver, ofByte, known] at ran
  obtain ⟨_, _, _, ran⟩ := Act.bind_eq_ok.1 ran
  obtain ⟨_, _, _, ran⟩ := Act.bind_eq_ok.1 ran
  cases tier : m.tier with
  | normal =>
    simp only [tier] at ran
    obtain ⟨object, _, rfl⟩ := Act.map_eq_ok.1 ran
    exact ⟨object, rfl⟩
  | fast =>
    simp only [tier] at ran
    obtain ⟨_, _, _, ran⟩ := Act.bind_eq_ok.1 ran
    obtain ⟨object, _, rfl⟩ := Act.map_eq_ok.1 ran
    exact ⟨object, rfl⟩
  | critical =>
    simp only [tier] at ran
    exact absurd ran halt_ne_ok

theorem endMethod_unknown_ne_ok {w w' : World σ O X} {r : Registers} {result : CallResult O}
    (unknown : ofByte? m.returnByte = none) :
    endMethod host b m saved r w ≠ .ok result w' := by
  rw [endMethod_of_unknown host b saved unknown]
  intro ran
  obtain ⟨_, _, _, faulted⟩ := Act.bind_eq_ok.1 ran
  exact halt_ne_ok faulted

/-- What comes before the result is read does not depend on the registers. -/
theorem endMethod_with_registers {kind : ReturnKind} {w w' : World σ O X} {r : Registers}
    {result : CallResult O} (native : b.settings.floatReturn = .native)
    (known : ofByte? m.returnByte = some kind) (primitive : kind ≠ .object)
    (ran : endMethod host b m saved r w = .ok result w') (r' : Registers) :
    endMethod host b m saved r' w = .ok (.ofBits kind (kind.carried r')) w' := by
  rw [endMethod_of_primitive host b saved known primitive] at ran ⊢
  obtain ⟨_, unwound, first, ran⟩ := Act.bind_eq_ok.1 ran
  obtain ⟨_, closed, second, ran⟩ := Act.bind_eq_ok.1 ran
  obtain ⟨-, rfl⟩ := Act.pure_eq_ok.1 ran
  rw [Act.bind_of_ok first, Act.bind_of_ok second, native, Registers.result_eq_ofBits]
  rfl

end Crossing

variable {σ O X : Type}

def signedByte : Method where
  className := "Dial"
  name := "turn"
  shorty := "BI"
  tier := .fast

def turning : MachineWorld where
  state :=
    { heap := {}
      lock := {}
      threads :=
        [{ id := ⟨1⟩, name := "main", state := .managed
           frames := [{ method := signedByte, receiver := none }] }] }

def turned (shorty : String) (gpr : UInt64) :
    Crossing Machine ObjectId Throwable (CallResult ObjectId) :=
  Crossing.endMethod (Machine.host ⟨1⟩) {} { signedByte with shorty } .bottom { gpr }

end NativeBoundary
