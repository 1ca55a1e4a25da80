import NativeBoundary.Settings.Basic

/-!
# Tracing of native calls

Normal calls of methods whose `Class.method` name contains the filter are announced on entry and
on exit, and a flag is up in between.  The end of every other normal call is announced more
quietly.  Without a filter, or with an empty one, nothing is ever announced.
-/

set_option autoImplicit false

namespace NativeBoundary

inductive TraceEvent where
  /-- A traced call begins on a thread. -/
  | entering (method : String) (thread : UInt64)
  /-- Some call ends. -/
  | ended (method : String)
  /-- A traced call ends. -/
  | leaving (method : String)
  deriving DecidableEq

def TraceEvent.line : TraceEvent → String
  | entering method thread =>
    "trace:INFO:enter native method:" ++ method ++ ":" ++ toString thread.toNat
  | ended method => "trace:DEBUG:native method end:" ++ method ++ ":"
  | leaving method => "trace:INFO:leave native method:" ++ method ++ ":"

def occursIn (part : List Char) : List Char → Bool
  | [] => part.isEmpty
  | c :: rest => part.isPrefixOf (c :: rest) || occursIn part rest

theorem occursIn_iff (part text : List Char) : occursIn part text = true ↔ part <:+: text := by
  induction text with
  | nil => simp [occursIn]
  | cons c rest ih =>
    simp only [occursIn, Bool.or_eq_true, List.isPrefixOf_iff_prefix, ih]
    exact List.infix_cons_iff.symm

namespace TraceSettings

def filter? (s : TraceSettings) : Option String :=
  if s.enabled then s.filter.filter fun f => f ≠ "" else none

def isActive (s : TraceSettings) : Bool :=
  s.filter?.isSome

def traces (s : TraceSettings) (m : Method) : Bool :=
  s.filter?.any fun f => occursIn f.toList m.qualifiedName.toList

def eventsOfEntry (s : TraceSettings) (m : Option Method) (thread : UInt64) : List TraceEvent :=
  match m with
  | none => []
  | some m => if s.traces m then [.entering m.qualifiedName thread] else []

def eventsOfExit (s : TraceSettings) (m : Option Method) : List TraceEvent :=
  match m with
  | none => []
  | some m =>
    if s.isActive then
      .ended m.qualifiedName :: (if s.traces m then [.leaving m.qualifiedName] else [])
    else []

def flagAfterEntry (s : TraceSettings) (m : Option Method) (flag : Bool) : Bool :=
  flag || m.any s.traces

def flagAfterExit (s : TraceSettings) (m : Option Method) (flag : Bool) : Bool :=
  flag && !m.any s.traces

end TraceSettings

inductive TraceCue where
  | entry (method : Option Method) (thread : UInt64)
  | exit (method : Option Method)

def TraceSettings.step (s : TraceSettings) (flag : Bool) : TraceCue → Bool × List TraceEvent
  | .entry m thread => (s.flagAfterEntry m flag, s.eventsOfEntry m thread)
  | .exit m => (s.flagAfterExit m flag, s.eventsOfExit m)

def TraceSettings.play (s : TraceSettings) (flag : Bool) :
    List TraceCue → List (Bool × List TraceEvent)
  | [] => []
  | cue :: rest =>
    let (next, events) := s.step flag cue
    (next, events) :: s.play next rest

end NativeBoundary
