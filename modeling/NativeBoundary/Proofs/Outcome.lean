import NativeBoundary.Crossing.World

/-!
# Outcomes of actions

An action returns a value or is stopped, and leaves a state in both cases.  `Act.Ensures` is what is
known of both outcomes, and is put together along the sequence of steps that an action is; the
equations after it take a run that returned apart into the runs of its steps.
-/

set_option autoImplicit false

namespace NativeBoundary

namespace Act

variable {σ α β : Type}

/-- What is known of the outcome from a state that meets `pre`: what is returned and the state then
meet `post`, and a state in which the action is stopped meets `stop`. -/
def Ensures (pre : σ → Prop) (x : Act σ α) (post : α → σ → Prop) (stop : σ → Prop) : Prop :=
  ∀ s, pre s →
    match x s with
    | .ok a s' => post a s'
    | .error _ s' => stop s'

namespace Ensures

variable {pre pre' : σ → Prop} {stop : σ → Prop} {x : Act σ α}

theorem pure {post : α → σ → Prop} (a : α) (holds : ∀ s, pre s → post a s) :
    Ensures pre (Pure.pure a) post stop :=
  holds

theorem bind {middle : α → σ → Prop} {post : β → σ → Prop} {f : α → Act σ β}
    (first : Ensures pre x middle stop)
    (rest : ∀ a, Ensures (middle a) (f a) post stop) :
    Ensures pre (x >>= f) post stop := by
  intro s met
  have outcome := first s met
  change match EStateM.bind x f s with | .ok a s' => post a s' | .error _ s' => stop s'
  cases result : x s with
  | ok a s' =>
    simp only [result] at outcome
    simpa only [EStateM.bind, result] using rest a s' outcome
  | error why s' =>
    simp only [result] at outcome
    simpa only [EStateM.bind, result] using outcome

theorem map {post : β → σ → Prop} (f : α → β)
    (inner : Ensures pre x (fun a => post (f a)) stop) :
    Ensures pre (f <$> x) post stop := by
  intro s met
  have outcome := inner s met
  change match EStateM.map f x s with | .ok a s' => post a s' | .error _ s' => stop s'
  cases result : x s <;> simpa only [EStateM.map, result] using outcome

theorem weaken {post post' : α → σ → Prop} {stop' : σ → Prop}
    (inner : Ensures pre x post stop)
    (before : ∀ s, pre' s → pre s)
    (after : ∀ a s, post a s → post' a s)
    (stopped : ∀ s, stop s → stop' s) : Ensures pre' x post' stop' := by
  intro s met
  have outcome := inner s (before s met)
  cases result : x s with
  | ok a s' =>
    simp only [result] at outcome
    exact after a s' outcome
  | error why s' =>
    simp only [result] at outcome
    exact stopped s' outcome

end Ensures

/-! ## The state that an outcome leaves -/

def stateOf : EStateM.Result Halt σ α → σ
  | .ok _ s | .error _ s => s

def mapState (f : σ → σ) : EStateM.Result Halt σ α → EStateM.Result Halt σ α
  | .ok a s => .ok a (f s)
  | .error why s => .error why (f s)

theorem stateOf_mapState (f : σ → σ) (outcome : EStateM.Result Halt σ α) :
    stateOf (mapState f outcome) = f (stateOf outcome) := by
  cases outcome <;> rfl

theorem mapState_mapState (f g : σ → σ) (outcome : EStateM.Result Halt σ α) :
    mapState f (mapState g outcome) = mapState (fun s => f (g s)) outcome := by
  cases outcome <;> rfl

/-! ## Sequences of steps -/

theorem bind_of_ok {x : Act σ α} {f : α → Act σ β} {s s' : σ} {a : α} (first : x s = .ok a s') :
    (x >>= f) s = f a s' := by
  change EStateM.bind x f s = _
  simp only [EStateM.bind, first]

theorem bind_of_error {x : Act σ α} {f : α → Act σ β} {s s' : σ} {why : Halt}
    (first : x s = .error why s') : (x >>= f) s = .error why s' := by
  change EStateM.bind x f s = _
  simp only [EStateM.bind, first]

/-- Sequences come out alike if their rests do wherever the first step may leave them. -/
theorem mapState_bind_congr {F : σ → σ} {x : Act σ α} {f g : α → Act σ β} {s : σ}
    (alike : ∀ a s', x s = .ok a s' → mapState F (f a s') = mapState F (g a s')) :
    mapState F ((x >>= f) s) = mapState F ((x >>= g) s) := by
  cases result : x s with
  | ok a s' =>
    rw [bind_of_ok result, bind_of_ok result]
    exact alike a s' result
  | error why s' => rw [bind_of_error result, bind_of_error result]

theorem bind_congr {x : Act σ α} {f g : α → Act σ β} {s : σ}
    (same : ∀ a s', x s = .ok a s' → f a s' = g a s') : (x >>= f) s = (x >>= g) s := by
  cases result : x s with
  | ok a s' =>
    rw [bind_of_ok result, bind_of_ok result]
    exact same a s' result
  | error why s' => rw [bind_of_error result, bind_of_error result]

/-! ## Runs that returned -/

theorem bind_eq_ok {x : Act σ α} {f : α → Act σ β} {s s'' : σ} {b : β} :
    (x >>= f) s = .ok b s'' ↔ ∃ a s', x s = .ok a s' ∧ f a s' = .ok b s'' := by
  change EStateM.bind x f s = _ ↔ _
  cases result : x s with
  | ok a s' =>
    simp only [EStateM.bind, result, EStateM.Result.ok.injEq]
    constructor
    · intro rest
      exact ⟨a, s', ⟨rfl, rfl⟩, rest⟩
    · rintro ⟨_, _, ⟨rfl, rfl⟩, rest⟩
      exact rest
  | error why s' => simp [EStateM.bind, result]

theorem pure_eq_ok {a b : α} {s s' : σ} :
    (pure a : Act σ α) s = .ok b s' ↔ a = b ∧ s = s' := by
  change EStateM.Result.ok a s = _ ↔ _
  simp

theorem drop_eq_ok {x : Act σ α} {s s' : σ} {u : PUnit} :
    (do let _ ← x : Act σ PUnit) s = .ok u s' ↔ ∃ a, x s = .ok a s' := by
  constructor
  · intro run
    obtain ⟨a, _, ran, rest⟩ := bind_eq_ok.1 run
    obtain ⟨-, rfl⟩ := pure_eq_ok.1 rest
    exact ⟨a, ran⟩
  · rintro ⟨a, ran⟩
    exact bind_eq_ok.2 ⟨a, s', ran, rfl⟩

theorem map_eq_ok {x : Act σ α} {f : α → β} {s s' : σ} {b : β} :
    (f <$> x) s = .ok b s' ↔ ∃ a, x s = .ok a s' ∧ f a = b := by
  change EStateM.map f x s = _ ↔ _
  cases result : x s with
  | ok a s'' =>
    simp only [EStateM.map, result, EStateM.Result.ok.injEq]
    constructor
    · rintro ⟨rfl, rfl⟩
      exact ⟨a, ⟨rfl, rfl⟩, rfl⟩
    · rintro ⟨_, ⟨rfl, rfl⟩, rfl⟩
      exact ⟨rfl, rfl⟩
  | error why s'' => simp [EStateM.map, result]

/-! ## Runs that were stopped -/

theorem bind_eq_error {x : Act σ α} {f : α → Act σ β} {s s'' : σ} {why : Halt} :
    (x >>= f) s = .error why s'' ↔
      x s = .error why s'' ∨ ∃ a s', x s = .ok a s' ∧ f a s' = .error why s'' := by
  change EStateM.bind x f s = _ ↔ _
  cases result : x s with
  | ok a s' =>
    simp only [EStateM.bind, result, EStateM.Result.ok.injEq, reduceCtorEq, false_or]
    constructor
    · intro rest
      exact ⟨a, s', ⟨rfl, rfl⟩, rest⟩
    · rintro ⟨_, _, ⟨rfl, rfl⟩, rest⟩
      exact rest
  | error other s' => simp [EStateM.bind, result]

theorem map_eq_error {x : Act σ α} {f : α → β} {s s' : σ} {why : Halt} :
    (f <$> x) s = .error why s' ↔ x s = .error why s' := by
  change EStateM.map f x s = _ ↔ _
  cases result : x s with
  | ok a s'' => simp [EStateM.map, result]
  | error other s'' => simp [EStateM.map, result]

/-! ## Tests of outcomes -/

def returns (x : Act σ α) (s : σ) : Bool :=
  match x s with
  | .ok _ _ => true
  | .error _ _ => false

theorem exists_of_returns {x : Act σ α} {s : σ} (returned : x.returns s = true) :
    ∃ a s', x s = .ok a s' := by
  unfold returns at returned
  cases result : x s with
  | ok a s' => exact ⟨a, s', rfl⟩
  | error why s' => simp [result] at returned

def gives (x : Act σ α) (s : σ) (test : α → σ → Bool) : Bool :=
  match x s with
  | .ok a s' => test a s'
  | .error _ _ => false

theorem exists_of_gives {x : Act σ α} {s : σ} {test : α → σ → Bool}
    (given : x.gives s test = true) : ∃ a s', x s = .ok a s' ∧ test a s' = true := by
  unfold gives at given
  cases result : x s with
  | ok a s' =>
    simp only [result] at given
    exact ⟨a, s', rfl, given⟩
  | error why s' => simp [result] at given

theorem eq_ok_stateOf {x : Act σ α} {s : σ} (returned : x.returns s = true) :
    ∃ a, x s = .ok a (stateOf (x s)) := by
  obtain ⟨a, s', result⟩ := exists_of_returns returned
  exact ⟨a, by rw [result]; rfl⟩

/-! ## Steps that cannot be stopped -/

theorem get_bind {f : σ → Act σ β} (s : σ) : ((get : Act σ σ) >>= f) s = f s s := rfl

theorem modify_bind {f : PUnit → Act σ β} (update : σ → σ) (s : σ) :
    ((modify update : Act σ PUnit) >>= f) s = f ⟨⟩ (update s) := rfl

theorem set_eq_ok {s s' new : σ} {u : PUnit} : (set new : Act σ PUnit) s = .ok u s' ↔ new = s' := by
  change EStateM.Result.ok PUnit.unit new = _ ↔ _
  simp

theorem modify_eq_ok {s s' : σ} {update : σ → σ} {u : PUnit} :
    (modify update : Act σ PUnit) s = .ok u s' ↔ update s = s' := by
  change EStateM.Result.ok PUnit.unit (update s) = _ ↔ _
  simp

theorem modifyGet_eq_ok {s s' : σ} {f : σ → α × σ} {a : α} :
    (modifyGet f : Act σ α) s = .ok a s' ↔ f s = (a, s') := by
  have both : (modifyGet f : Act σ α) s = .ok (f s).1 (f s).2 := rfl
  rw [both]
  simp [Prod.ext_iff]

theorem throw_ne_ok {s s' : σ} {why : Halt} {a : α} :
    (throw why : Act σ α) s ≠ .ok a s' := by
  change EStateM.Result.error why s ≠ _
  simp

end Act

variable {σ O X α : Type}

def Host.entry (host : Host σ O X) (deed : Deed O X) (s : σ) : Entry O X where
  deed := deed
  state := host.state s
  holdsShare := host.holdsShare s
  pending := host.pending s
  handleDepth := host.handleDepth s

namespace Crossing

variable {w w' : World σ O X}

theorem look_eq_ok {view : σ → α} {a : α} :
    look view w = .ok a w' ↔ view w.state = a ∧ w = w' := by
  simp [look]

theorem change_eq_ok {update : σ → σ} {u : Unit} :
    change update w = .ok u w' ↔ { w with state := update w.state } = w' := by
  simp [change]

theorem run_eq_ok {action : Act σ α} {a : α} :
    run action w = .ok a w' ↔
      ∃ s, action w.state = .ok a s ∧ { w with state := s } = w' := by
  unfold run
  cases result : action w.state with
  | ok b s =>
    simp only [EStateM.Result.ok.injEq]
    constructor
    · rintro ⟨rfl, rfl⟩
      exact ⟨s, ⟨rfl, rfl⟩, rfl⟩
    · rintro ⟨_, ⟨rfl, rfl⟩, rfl⟩
      exact ⟨rfl, rfl⟩
  | error why s => simp

theorem state_of_run {action : Act σ α} {a : α} (ran : run action w = .ok a w') :
    action w.state = .ok a w'.state := by
  obtain ⟨s, done, rfl⟩ := run_eq_ok.1 ran
  exact done

theorem halt_ne_ok {why : Halt} {a : α} : (halt why : Crossing σ O X α) w ≠ .ok a w' := by
  simp [halt]

theorem require_eq_ok {condition : Bool} {otherwise : Defect} {u : Unit} :
    (require condition otherwise : Crossing σ O X Unit) w = .ok u w' ↔
      condition = true ∧ w = w' := by
  cases condition with
  | true => simp [require, Act.pure_eq_ok]
  | false => simp [require, halt]

end Crossing

end NativeBoundary
