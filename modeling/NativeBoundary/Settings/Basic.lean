import NativeBoundary.Result.Basic

/-!
# Settings of the boundary

Every setting has a default, so nothing has to be given.  Named variables override single
settings; `Settings.override` takes any way of looking a variable up, and checks the outcome as a
whole.  A rejected setting is told by its cause, whose wording is `Rejection.message`.
-/

set_option autoImplicit false

namespace NativeBoundary

structure TraceSettings where
  enabled : Bool := false
  /-- Part of the `Class.method` names to trace. -/
  filter : Option String := none
  deriving DecidableEq

structure Settings where
  /-- Checked mode: held monitors, the depth of a scope and reference results are verified. -/
  checked : Bool := false
  /-- Every entry point verifies that it serves the tier of the executing method. -/
  verifyTiers : Bool := true
  /-- How single-precision results arrive. -/
  floatReturn : FloatReturn := .native
  /-- Tracing of native calls. -/
  trace : TraceSettings := {}
  deriving DecidableEq

inductive Rejection where
  /-- A variable is neither a yes nor a no. -/
  | notBoolean (variableName value : String)
  /-- A variable names no float convention. -/
  | notFloatReturn (variableName value : String)
  /-- Tracing is on with nothing to match. -/
  | emptyFilter
  deriving DecidableEq

def Rejection.message : Rejection → String
  | notBoolean variableName value =>
    variableName ++ " must be a boolean, got '" ++ value ++ "'"
  | notFloatReturn variableName value =>
    variableName ++ " must be 'native' or 'x87-widened', got '" ++ value ++ "'"
  | emptyFilter => "trace.enabled requires a non-empty trace.filter"

/-- A spelling with its ASCII capitals made small.  Other characters stay, so that a spelling can
only match an ASCII word by ASCII letters. -/
def foldCase (text : String) : String :=
  String.ofList (text.toList.map Char.toLower)

/-- The eight spellings of a yes or a no, in any ASCII case. -/
def parseFlag? (text : String) : Option Bool :=
  if foldCase text ∈ ["1", "true", "yes", "on"] then some true
  else if foldCase text ∈ ["0", "false", "no", "off"] then some false
  else none

def FloatReturn.parse? (text : String) : Option FloatReturn :=
  if foldCase text = "native" then some .native
  else if foldCase text ∈ ["x87-widened", "x87", "widened"] then some .widened
  else none

namespace Settings

def isValid (s : Settings) : Bool :=
  !s.trace.enabled || (s.trace.filter.any fun f => f ≠ "")

def validate (s : Settings) : Except Rejection Settings :=
  if s.isValid then .ok s else .error .emptyFilter

def checkedVariable : String := "CALLGATE_CHECK_JNI"

def verifyTiersVariable : String := "CALLGATE_VERIFY_TIERS"

def floatReturnVariable : String := "CALLGATE_FLOAT_RETURN"

def traceFilterVariable : String := "CALLGATE_TRACE_FILTER"

def flagOr (lookup : String → Option String) (variableName : String) (default : Bool) :
    Except Rejection Bool :=
  match lookup variableName with
  | none => .ok default
  | some value =>
    match parseFlag? value with
    | some flag => .ok flag
    | none => .error (.notBoolean variableName value)

def floatReturnOr (lookup : String → Option String) (variableName : String)
    (default : FloatReturn) : Except Rejection FloatReturn :=
  match lookup variableName with
  | none => .ok default
  | some value =>
    match FloatReturn.parse? value with
    | some convention => .ok convention
    | none => .error (.notFloatReturn variableName value)

/-- Trace settings with the filter replaced, if the variable is defined; a filter turns tracing
on. -/
def traceOr (lookup : String → Option String) (default : TraceSettings) : TraceSettings :=
  match lookup traceFilterVariable with
  | none => default
  | some filter => { enabled := true, filter := some filter }

/-- Settings with every defined variable applied.  The first offending variable is the one told,
and the outcome is checked as a whole. -/
def override (s : Settings) (lookup : String → Option String) : Except Rejection Settings := do
  let checked ← flagOr lookup checkedVariable s.checked
  let verifyTiers ← flagOr lookup verifyTiersVariable s.verifyTiers
  let floatReturn ← floatReturnOr lookup floatReturnVariable s.floatReturn
  validate { checked, verifyTiers, floatReturn, trace := traceOr lookup s.trace }

end Settings

end NativeBoundary
