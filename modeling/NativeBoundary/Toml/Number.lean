import NativeBoundary.Toml.Node

/-!
# Reading characters, numbers, dates and times

A reader takes the characters still to come and either fails or gives a value and the characters
after it.  Numbers, dates and times are read only as far as it matters whether they are well
formed: an integer has to fit 64 signed bits, a float must not round to positive infinity, and a
date has to exist in the calendar.
-/

set_option autoImplicit false

namespace NativeBoundary.Toml

abbrev Reader (α : Type) := StateT (List Char) Option α

namespace Reader

def next : Reader Char := fun
  | [] => none
  | c :: rest => some (c, rest)

def peek : Reader (Option Char) := fun input => some (input.head?, input)

def expect (c : Char) : Reader Unit := do
  let d ← next
  guard (d = c)

def word (text : String) : Reader Unit :=
  text.toList.forM expect

def oneOf (accepts : Char → Bool) : Reader Char := do
  let c ← next
  guard (accepts c)
  pure c

def run (accepts : Char → Bool) : Reader (List Char) := fun input =>
  some (input.takeWhile accepts, input.dropWhile accepts)

end Reader

open Reader

/-! ## Digits -/

def digitValue (c : Char) : Nat :=
  if c.isDigit then c.toNat - '0'.toNat else c.toLower.toNat - 'a'.toNat + 10

def digitsValue (base : Nat) (digits : List Char) : Nat :=
  digits.foldl (fun value c => value * base + digitValue c) 0

def isHexDigit (c : Char) : Bool :=
  c.isDigit || ('a' ≤ c && c ≤ 'f') || ('A' ≤ c && c ≤ 'F')

/-- Exactly `count` decimal digits with a value between `least` and `greatest`. -/
def fixedDigits (count least greatest : Nat) : Reader Nat := do
  let digits ← (List.replicate count ()).mapM fun _ => oneOf Char.isDigit
  let value := digitsValue 10 digits
  guard (least ≤ value ∧ value ≤ greatest)
  pure value

/-- Further digits of a number, each of which may follow one underscore. -/
def moreDigits (accepts : Char → Bool) : Reader (List Char)
  | [] => some ([], [])
  | c :: rest =>
    if accepts c then do
      let (digits, rest) ← moreDigits accepts rest
      pure (c :: digits, rest)
    else
      match c, rest with
      | '_', d :: rest =>
        if accepts d then do
          let (digits, rest) ← moreDigits accepts rest
          pure (d :: digits, rest)
        else none
      | _, _ => some ([], c :: rest)

def groupedDigits (accepts : Char → Bool) : Reader (List Char) := do
  let first ← oneOf accepts
  let others ← moreDigits accepts
  pure (first :: others)

def sign : Reader Bool := do
  match ← peek with
  | some '+' => let _ ← next; pure false
  | some '-' => let _ ← next; pure true
  | _ => pure false

/-- A signed decimal integer: whether it is negative, and its digits.  Only zero itself starts
with a zero. -/
def decimal : Reader (Bool × List Char) := do
  let negative ← sign
  match ← peek with
  | some '0' => let _ ← next; pure (negative, ['0'])
  | _ => pure (negative, ← groupedDigits Char.isDigit)

/-! ## Numbers -/

def inInt64 (value : Int) : Bool :=
  Int64.minValue.toInt ≤ value && value ≤ Int64.maxValue.toInt

def integer : Reader Node := fun input =>
  let marked (base : Nat) (accepts : Char → Bool) (rest : List Char) : Option (Node × List Char) :=
    (do
      let digits ← groupedDigits accepts
      let value : Int := digitsValue base digits
      guard (inInt64 value)
      pure (Node.integer value) : Reader Node) rest
  match input with
  | '0' :: 'x' :: rest => marked 16 isHexDigit rest
  | '0' :: 'o' :: rest => marked 8 (fun c => '0' ≤ c && c ≤ '7') rest
  | '0' :: 'b' :: rest => marked 2 (fun c => c = '0' || c = '1') rest
  | _ =>
    (do
      let (negative, digits) ← decimal
      let magnitude : Int := digitsValue 10 digits
      let value := if negative then -magnitude else magnitude
      guard (inInt64 value)
      pure (Node.integer value) : Reader Node) input

/-- Whether `digits * 10 ^ exponent` rounds to a double infinity: from halfway past the greatest
finite double on.  Far from that bound the number of digits decides. -/
def roundsToInfinity (digits : Nat) (exponent : Int) : Bool :=
  let bound := 1 <<< 1024 - 1 <<< 970
  let places : Int := (Nat.toDigits 10 digits).length + exponent
  if digits = 0 ∨ places < 300 then false
  else if 400 < places then true
  else bound * Nat.pow 10 (-exponent).toNat ≤ digits * Nat.pow 10 exponent.toNat

def exponentPart : Reader Int := do
  let _ ← oneOf fun c => c = 'e' || c = 'E'
  let negative ← sign
  let value : Int := digitsValue 10 (← groupedDigits Char.isDigit)
  pure (if negative then -value else value)

/-- A float with a fraction or an exponent.  A positive one must not round to infinity. -/
def finiteFloat : Reader Node := do
  let (negative, whole) ← decimal
  let fraction ← optional (do expect '.'; groupedDigits Char.isDigit)
  let exponent ←
    match fraction with
    | some _ => do pure ((← optional exponentPart).getD 0)
    | none => exponentPart
  let places := fraction.getD []
  guard (negative || !roundsToInfinity (digitsValue 10 (whole ++ places))
    (exponent - places.length))
  pure .float

def specialFloat : Reader Node := do
  let _ ← sign
  word "inf" <|> word "nan"
  pure .float

/-! ## Dates and times -/

def daysIn (year month : Nat) : Nat :=
  if month = 2 then
    if year % 4 = 0 ∧ (year % 100 ≠ 0 ∨ year % 400 = 0) then 29 else 28
  else if month ∈ [4, 6, 9, 11] then 30
  else 31

def date : Reader Unit := do
  let year ← fixedDigits 4 0 9999
  expect '-'
  let month ← fixedDigits 2 1 12
  expect '-'
  let day ← fixedDigits 2 1 31
  guard (day ≤ daysIn year month)

/-- A time of day, with room for a leap second and any fraction of a second. -/
def timeOfDay : Reader Unit := do
  let _ ← fixedDigits 2 0 23
  expect ':'
  let _ ← fixedDigits 2 0 59
  expect ':'
  let _ ← fixedDigits 2 0 60
  let _ ← optional (do
    expect '.'
    let _ ← oneOf Char.isDigit
    run Char.isDigit)

def timeOffset : Reader Unit :=
  (do let _ ← oneOf fun c => c = 'Z' || c = 'z') <|>
  (do
    let _ ← oneOf fun c => c = '+' || c = '-'
    let _ ← fixedDigits 2 0 23
    expect ':'
    let _ ← fixedDigits 2 0 59)

def dateTime : Reader Node :=
  (do
    date
    let _ ← optional (do
      let _ ← oneOf fun c => c = 'T' || c = 't' || c = ' '
      timeOfDay
      optional timeOffset)
    pure .dateTime) <|>
  (do
    timeOfDay
    pure .dateTime)

def numeric : Reader Node :=
  dateTime <|> finiteFloat <|> specialFloat <|> integer

end NativeBoundary.Toml
