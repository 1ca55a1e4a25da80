import NativeBoundary.Settings.Basic
import NativeBoundary.Toml.Reader

/-!
# Settings from a document

A settings file is a TOML document.  Unknown keys do not matter, a missing key leaves its default,
and a value of the wrong type makes the whole document unreadable.  Trace settings may also be
given as a list, in the order of their keys; a date or time in their place counts as a table
without a known key.  A float convention may also be given as a table with its name as the only
key and an empty value under it.
-/

set_option autoImplicit false

namespace NativeBoundary

open Toml (Node Entries)

inductive LoadError where
  | missingFile
  /-- The file is no UTF-8 text. -/
  | notText
  /-- The text is no TOML document, or has a value of a wrong type. -/
  | malformed
  /-- The settings are rejected as a whole. -/
  | rejected (why : Rejection)
  deriving DecidableEq

namespace Settings

def booleanOf : Node → Option Bool
  | .boolean value => some value
  | _ => none

def textOf : Node → Option String
  | .string text => some text
  | _ => none

def entryOr {α : Type} (read : Node → Option α) (entries : Entries) (key : String) (default : α) :
    Option α :=
  match entries.get? key with
  | none => some default
  | some node => read node

def itemOr {α : Type} (read : Node → Option α) (items : List Node) (position : Nat) (default : α) :
    Option α :=
  match items[position]? with
  | none => some default
  | some node => read node

def floatReturnNamed : String → Option FloatReturn
  | "native" => some .native
  | "x87-widened" => some .widened
  | _ => none

def holdsNothing : Node → Bool
  | .array items => items.isEmpty
  | .table _ entries => entries.isEmpty
  | .tables elements => elements.isEmpty
  | _ => false

/-- A float convention: its name, or a table whose only key is its name and holds nothing. -/
def floatReturnOf : Node → Option FloatReturn
  | .string text => floatReturnNamed text
  | .table _ [(name, node)] => do
    guard (holdsNothing node)
    floatReturnNamed name
  | _ => none

def traceOfEntries (entries : Entries) : Option TraceSettings := do
  let defaults : TraceSettings := {}
  let enabled ← entryOr booleanOf entries "enabled" defaults.enabled
  let filter ← entryOr (fun node => some <$> textOf node) entries "filter" defaults.filter
  pure { enabled, filter }

def traceOf : Node → Option TraceSettings
  | .table _ entries => traceOfEntries entries
  | .array items => do
    let defaults : TraceSettings := {}
    let enabled ← itemOr booleanOf items 0 defaults.enabled
    let filter ← itemOr (fun node => some <$> textOf node) items 1 defaults.filter
    pure { enabled, filter }
  | .dateTime => some {}
  | _ => none

def ofEntries (entries : Entries) : Option Settings := do
  let defaults : Settings := {}
  let checked ← entryOr booleanOf entries "check_jni" defaults.checked
  let verifyTiers ← entryOr booleanOf entries "verify_tiers" defaults.verifyTiers
  let floatReturn ← entryOr floatReturnOf entries "float_return" defaults.floatReturn
  let trace ← entryOr traceOf entries "trace" defaults.trace
  pure { checked, verifyTiers, floatReturn, trace }

def ofText (text : String) : Except LoadError Settings :=
  match (Toml.parse? text).bind ofEntries with
  | none => .error .malformed
  | some settings => settings.validate.mapError .rejected

def ofFile (contents : Option ByteArray) : Except LoadError Settings :=
  match contents with
  | none => .error .missingFile
  | some bytes =>
    match String.fromUTF8? bytes with
    | none => .error .notText
    | some text => ofText text

end Settings

def LoadError.message? : LoadError → Option String
  | missingFile => some "Failed to read config file: No such file or directory (os error 2)"
  | notText => some "Failed to read config file: stream did not contain valid UTF-8"
  | malformed => none
  | rejected why => some ("Invalid config: " ++ why.message)

end NativeBoundary
