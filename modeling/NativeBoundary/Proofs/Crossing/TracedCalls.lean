import NativeBoundary.Proofs.Crossing.TracerFlag

/-!
# The flag of the tracer over a run

A run of calls on any number of threads leaves a history of their beginnings and ends.  The flag is
a function of the history alone, and so are the calls that are under way; the two are compared here.
-/

set_option autoImplicit false

namespace NativeBoundary

variable {σ O X τ : Type}

structure OngoingCall (τ : Type) where
  thread : τ
  tier : Tier
  method : Option Method
  deriving DecidableEq

def OngoingCall.isTraced (s : TraceSettings) (call : OngoingCall τ) : Bool :=
  call.tier = .normal && call.method.any s.traces

section History

variable [DecidableEq τ]

/-- The calls under way after a history, which is given with the last event first. -/
def ongoing : List (CallEvent τ) → List (OngoingCall τ)
  | [] => []
  | .began thread tier m :: earlier => ⟨thread, tier, m⟩ :: ongoing earlier
  | .ended thread tier m _ :: earlier => (ongoing earlier).erase ⟨thread, tier, m⟩

/-- Each end is that of the call which its thread is in. -/
def Paired : List (CallEvent τ) → Prop
  | [] => True
  | .began _ _ _ :: earlier => Paired earlier
  | .ended thread tier m _ :: earlier =>
    (ongoing earlier).find? (fun call => call.thread = thread) = some ⟨thread, tier, m⟩ ∧
      Paired earlier

instance decidablePaired : ∀ history : List (CallEvent τ), Decidable (Paired history)
  | [] => inferInstanceAs (Decidable True)
  | .began _ _ _ :: earlier => decidablePaired earlier
  | .ended _ _ _ _ :: earlier =>
    have := decidablePaired earlier
    inferInstanceAs (Decidable (_ ∧ Paired earlier))

/-- No event lowers the flag while a traced call is still under way after it. -/
def LowersLast (s : TraceSettings) (history : List (CallEvent τ)) : Prop :=
  ∀ later event earlier, history = later ++ event :: earlier → event.lowers s = true →
    ∀ call ∈ ongoing (event :: earlier), call.isTraced s = false

theorem LowersLast.earlier {s : TraceSettings} {event : CallEvent τ} {history : List (CallEvent τ)}
    (last : LowersLast s (event :: history)) : LowersLast s history := by
  intro later next earlier split
  exact last (event :: later) next earlier (by rw [split, List.cons_append])

end History

def flagAfter (s : TraceSettings) : List (CallEvent τ) → Bool
  | [] => false
  | event :: earlier => event.turn s (flagAfter s earlier)

variable {s : TraceSettings}

theorem CallEvent.not_lowers_of_raises {event : CallEvent τ} (raises : event.raises s = true) :
    event.lowers s = false := by
  cases event with
  | began thread tier m => rfl
  | ended thread tier m reference => simp [CallEvent.raises] at raises

theorem flagAfter_iff (history : List (CallEvent τ)) :
    flagAfter s history = true ↔
      ∃ later event earlier, history = later ++ event :: earlier ∧ event.raises s = true ∧
        ∀ next ∈ later, next.lowers s = false := by
  induction history with
  | nil => simp [flagAfter]
  | cons last history ih =>
    simp only [flagAfter, CallEvent.turn, Bool.and_eq_true, Bool.or_eq_true, Bool.not_eq_true']
    constructor
    · rintro ⟨up | raises, kept⟩
      · obtain ⟨later, event, earlier, rfl, raises, since⟩ := ih.1 up
        refine ⟨last :: later, event, earlier, rfl, raises, fun next member => ?_⟩
        rcases List.mem_cons.1 member with rfl | old
        · exact kept
        · exact since next old
      · exact ⟨[], last, history, rfl, raises, by simp⟩
    · rintro ⟨later, event, earlier, split, raises, since⟩
      cases later with
      | nil =>
        obtain ⟨rfl, rfl⟩ := List.cons.inj split
        exact ⟨.inr raises, CallEvent.not_lowers_of_raises raises⟩
      | cons head later =>
        obtain ⟨rfl, rfl⟩ := List.cons.inj split
        refine ⟨.inl (ih.2 ⟨later, event, earlier, rfl, raises, ?_⟩), since _ List.mem_cons_self⟩
        exact fun next member => since next (List.mem_cons_of_mem _ member)

variable [DecidableEq τ]

/-- While the flag is up, some traced call is under way. -/
theorem exists_ongoing_of_flagAfter (history : List (CallEvent τ))
    (up : flagAfter s history = true) : ∃ call ∈ ongoing history, call.isTraced s = true := by
  induction history with
  | nil => simp [flagAfter] at up
  | cons last history ih =>
    simp only [flagAfter, CallEvent.turn, Bool.and_eq_true, Bool.or_eq_true,
      Bool.not_eq_true'] at up
    obtain ⟨before | raises, kept⟩ := up
    · obtain ⟨call, under, traced⟩ := ih before
      cases last with
      | began thread tier m => exact ⟨call, List.mem_cons_of_mem _ under, traced⟩
      | ended thread tier m reference =>
        -- The call that ended is not this one: of its end the tracer would have been told.
        have apart : call ≠ ⟨thread, tier, m⟩ := by
          rintro rfl
          simp only [OngoingCall.isTraced, Bool.and_eq_true, decide_eq_true_eq] at traced
          obtain ⟨rfl, matched⟩ := traced
          simp [CallEvent.lowers, Tier.tellsEnd, matched] at kept
        exact ⟨call, (List.mem_erase_of_ne apart).2 under, traced⟩
    · cases last with
      | began thread tier m => exact ⟨⟨thread, tier, m⟩, List.mem_cons_self, raises⟩
      | ended thread tier m reference => simp [CallEvent.raises] at raises

/-- A traced call that is under way has the flag up, as long as no end lowered it early. -/
theorem flagAfter_of_ongoing (history : List (CallEvent τ)) (last : LowersLast s history)
    {call : OngoingCall τ} (under : call ∈ ongoing history) (traced : call.isTraced s = true) :
    flagAfter s history = true := by
  induction history generalizing call with
  | nil => simp [ongoing] at under
  | cons event history ih =>
    simp only [flagAfter, CallEvent.turn, Bool.and_eq_true, Bool.or_eq_true, Bool.not_eq_true']
    constructor
    · cases event with
      | began thread tier m =>
        rcases List.mem_cons.1 under with rfl | old
        · exact .inr traced
        · exact .inl (ih last.earlier old traced)
      | ended thread tier m reference =>
        exact .inl (ih last.earlier (List.mem_of_mem_erase under) traced)
    -- An event that lowered the flag would leave no traced call under way, and this one is.
    · cases lowers : event.lowers s with
      | false => rfl
      | true =>
        have none := last [] event history rfl lowers call under
        rw [traced] at none
        cases none

/-- What threads that share a boundary do, with the calls that they begin and end.  They use the
entry points, each on its own thread and as the host of that, and whatever they do beside leaves the
flag alone. -/
inductive Runs (hosts : τ → Host σ O X) (b : Boundary) :
    World σ O X → List (CallEvent τ) → Prop
  | start {w : World σ O X} (dark : w.tracing = false) : Runs hosts b w []
  | aside {w w' : World σ O X} {history : List (CallEvent τ)} (before : Runs hosts b w history)
      (same : w'.tracing = w.tracing) : Runs hosts b w' history
  | pass {w w' : World σ O X} {history : List (CallEvent τ)} {thread : τ}
      {p : Passage O Handle ScopeMark Method Registers} {result : PassageResult O}
      (before : Runs hosts b w history) (run : p.run (hosts thread) b w = .ok result w') :
      Runs hosts b w'
        ((p.event? thread ((hosts thread).executing w.state)).toList ++ history)

omit [DecidableEq τ] in
theorem Runs.tracing {hosts : τ → Host σ O X} {b : Boundary}
    (steady : ∀ thread, (hosts thread).Steady) {w : World σ O X} {history : List (CallEvent τ)}
    (runs : Runs hosts b w history) : w.tracing = flagAfter b.settings.trace history := by
  induction runs with
  | start dark => exact dark
  | aside before same ih => exact same.trans ih
  | @pass w w' history thread p result before run ih =>
    rw [p.run_turns (steady thread) thread run, ih]
    cases p.event? thread ((hosts thread).executing w.state) with
    | none => rfl
    | some event => rfl

/-- After any run of calls on any threads the flag of the tracer is up exactly if the beginning of a
traced normal call has raised it and no event has lowered it since.  While it is up, a traced call
is under way; and it is up all the time that one is, if no end lowers it before the last one. -/
theorem tracing_after_calls
    (hosts : τ → Host σ O X) (b : Boundary) (steady : ∀ thread, (hosts thread).Steady)
    (w : World σ O X) (history : List (CallEvent τ)) (runs : Runs hosts b w history) :
    (w.tracing = true ↔
        ∃ later event earlier, history = later ++ event :: earlier ∧
          event.raises b.settings.trace = true ∧
          ∀ next ∈ later, next.lowers b.settings.trace = false) ∧
      (w.tracing = true → ∃ call ∈ ongoing history, call.isTraced b.settings.trace = true) ∧
      (LowersLast b.settings.trace history →
        (w.tracing = true ↔
          ∃ call ∈ ongoing history, call.isTraced b.settings.trace = true)) := by
  rw [runs.tracing steady]
  refine ⟨flagAfter_iff history, exists_ongoing_of_flagAfter history, fun last => ?_⟩
  constructor
  · exact exists_ongoing_of_flagAfter history
  · rintro ⟨call, under, traced⟩
    exact flagAfter_of_ongoing history last under traced

end NativeBoundary
