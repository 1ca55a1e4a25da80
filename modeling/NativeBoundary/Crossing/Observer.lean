import NativeBoundary.Crossing.Log

/-!
# Attaching an observer

A boundary reports to the observer it is attached to, if any.  One observer can be installed for
everyone; attaching to the installed one later still means the one that is installed at that
moment, and it stays attached when another is installed.
-/

set_option autoImplicit false

namespace NativeBoundary

structure Observer where
  tag : String := ""
  /-- What the observer answers when it is asked whether it wants a report. -/
  willReport : Bool := true

def Observer.lines (o : Observer) (deed : Deed Empty Empty) : List String :=
  let heard := Deed.asked o.willReport :: (if o.willReport then [deed] else [])
  (heard.filterMap Deed.reportLine?).map (o.tag ++ ·)

structure Watch where
  installed : Option Observer := none
  attached : Option Observer := none

inductive WatchCue where
  | install (observer : Observer)
  | uninstall
  | attach (observer : Observer)
  | attachInstalled
  | detach
  /-- Goes on with a copy of the attachment. -/
  | copy
  | reportBegin (env : UInt64)
  | reportEnd (env : UInt64)

namespace Watch

def report (w : Watch) (deed : Deed Empty Empty) : List String :=
  match w.attached with
  | none => []
  | some observer => observer.lines deed

def step (w : Watch) : WatchCue → Watch × List String
  | .install observer => ({ w with installed := some observer }, [])
  | .uninstall => ({ w with installed := none }, [])
  | .attach observer => ({ w with attached := some observer }, [])
  | .attachInstalled => ({ w with attached := w.installed }, [])
  | .detach => ({ w with attached := none }, [])
  | .copy => (w, [])
  | .reportBegin env => (w, w.report (.begun env))
  | .reportEnd env => (w, w.report (.ending env))

def text (w : Watch) : String :=
  "Monitoring \x7b attached: " ++ (if w.attached.isSome then "true" else "false") ++ " \x7d"

def play (w : Watch) : List WatchCue → List (Watch × List String)
  | [] => []
  | cue :: rest =>
    let (next, lines) := w.step cue
    (next, lines) :: next.play rest

end Watch

end NativeBoundary
