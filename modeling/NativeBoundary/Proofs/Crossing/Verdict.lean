import NativeBoundary.Proofs.Crossing.Passes

/-!
# What stops an action

An action that does not return has been stopped, and the verdict on it says by what: by a given
fault, if there is one to report, and otherwise by nothing but reasons that are let pass.  In a
sequence of steps the fault of an earlier step goes before the fault of a later one.
-/

set_option autoImplicit false

namespace NativeBoundary

def Halt.isFault : Halt → Bool
  | .fault _ => true
  | .defect _ | .deadlock => false

namespace Act

variable {σ α β : Type}

def halt? (x : Act σ α) (s : σ) : Option Halt :=
  match x s with
  | .ok _ _ => none
  | .error why _ => some why

theorem halt?_of_error {x : Act σ α} {s s' : σ} {why : Halt} (run : x s = .error why s') :
    x.halt? s = some why := by
  rw [halt?, run]

theorem error_of_halt? {x : Act σ α} {s : σ} {why : Halt} (halted : x.halt? s = some why) :
    ∃ s', x s = .error why s' := by
  unfold halt? at halted
  cases result : x s with
  | ok a s' => simp [result] at halted
  | error other s' =>
    simp only [result, Option.some.injEq] at halted
    exact ⟨s', by rw [halted]⟩

theorem halt?_bind_of_ok {x : Act σ α} {f : α → Act σ β} {s s' : σ} {a : α}
    (first : x s = .ok a s') : (x >>= f).halt? s = (f a).halt? s' := by
  rw [halt?, bind_of_ok first, halt?]

theorem halt?_bind_of_halt? {x : Act σ α} {f : α → Act σ β} {s : σ} {why : Halt}
    (first : x.halt? s = some why) : (x >>= f).halt? s = some why := by
  unfold halt? at first ⊢
  cases result : x s with
  | ok a s' => simp [result] at first
  | error other s' =>
    rw [bind_of_error result]
    simpa [result] using first

/-- From every state that meets `pre`, an action is stopped by the given fault or, where there is
none, returns with `post`; it may always be stopped for one of the other reasons. -/
def Verdict (others : Halt → Prop) (pre : σ → Prop) (x : Act σ α) (fault? : Option Fault)
    (post : α → σ → Prop) : Prop :=
  ∀ s, pre s →
    match x s with
    | .ok a s' => fault? = none ∧ post a s'
    | .error why _ => others why ∨ fault?.map Halt.fault = some why

namespace Verdict

variable {others : Halt → Prop} {pre : σ → Prop} {x : Act σ α} {fault? first? rest? : Option Fault}

theorem pure {post : α → σ → Prop} (a : α) (holds : ∀ s, pre s → post a s) :
    Verdict others pre (Pure.pure a) none post :=
  fun s met => ⟨rfl, holds s met⟩

/-- The rest of a sequence counts only where its first step has no fault. -/
theorem bind {middle : α → σ → Prop} {post : β → σ → Prop} {f : α → Act σ β}
    (first : Verdict others pre x first? middle)
    (rest : first? = none → ∀ a, Verdict others (middle a) (f a) rest? post) :
    Verdict others pre (x >>= f) (first?.or rest?) post := by
  intro s met
  have outcome := first s met
  change match EStateM.bind x f s with
    | .ok b s' => first?.or rest? = none ∧ post b s'
    | .error why _ => others why ∨ (first?.or rest?).map Halt.fault = some why
  cases result : x s with
  | ok a s' =>
    simp only [result] at outcome
    obtain ⟨none, between⟩ := outcome
    subst none
    simpa only [EStateM.bind, result, Option.none_or] using rest rfl a s' between
  | error why s' =>
    simp only [result] at outcome
    simp only [EStateM.bind, result]
    refine outcome.imp_right fun faulted => ?_
    cases first? with
    | none => simp at faulted
    | some fault => exact faulted

theorem map {post : β → σ → Prop} (f : α → β)
    (inner : Verdict others pre x fault? fun a => post (f a)) :
    Verdict others pre (f <$> x) fault? post := by
  intro s met
  have outcome := inner s met
  change match EStateM.map f x s with
    | .ok b s' => fault? = none ∧ post b s'
    | .error why _ => others why ∨ fault?.map Halt.fault = some why
  cases result : x s <;> simpa only [EStateM.map, result] using outcome

theorem weaken {pre' : σ → Prop} {post post' : α → σ → Prop}
    (inner : Verdict others pre x fault? post) (before : ∀ s, pre' s → pre s)
    (after : ∀ a s, post a s → post' a s) : Verdict others pre' x fault? post' := by
  intro s met
  have outcome := inner s (before s met)
  cases result : x s with
  | ok a s' =>
    simp only [result] at outcome
    exact ⟨outcome.1, after a s' outcome.2⟩
  | error why s' =>
    simp only [result] at outcome
    exact outcome

theorem of_runs {post : α → σ → Prop}
    (returned : ∀ s a s', pre s → x s = .ok a s' → fault? = none ∧ post a s')
    (stopped : ∀ s why s', pre s → x s = .error why s' →
      others why ∨ fault?.map Halt.fault = some why) :
    Verdict others pre x fault? post := by
  intro s met
  cases result : x s with
  | ok a s' => exact returned s a s' met result
  | error why s' => exact stopped s why s' met result

theorem of_returns {post : α → σ → Prop}
    (returns : ∀ s, pre s → ∃ a s', x s = .ok a s' ∧ post a s') :
    Verdict others pre x none post := by
  intro s met
  obtain ⟨a, s', run, after⟩ := returns s met
  rw [run]
  exact ⟨rfl, after⟩

/-! ### What a verdict says of a run -/

theorem of_ok {post : α → σ → Prop} (verdict : Verdict others pre x fault? post) {s s' : σ} {a : α}
    (met : pre s) (run : x s = .ok a s') : fault? = none ∧ post a s' := by
  have outcome := verdict s met
  simp only [run] at outcome
  exact outcome

theorem of_halt? {post : α → σ → Prop} (verdict : Verdict others pre x fault? post) {s : σ}
    {why : Halt} (met : pre s) (stopped : x.halt? s = some why) :
    others why ∨ fault?.map Halt.fault = some why := by
  have outcome := verdict s met
  unfold halt? at stopped
  cases result : x s with
  | ok a s' => simp [result] at stopped
  | error why' s' =>
    simp only [result, Option.some.injEq] at outcome stopped
    rw [← stopped]
    exact outcome

/-- An action is stopped by a fault exactly if that is the fault to report and nothing else stops
it. -/
theorem halt?_eq_fault {post : α → σ → Prop} (verdict : Verdict others pre x fault? post) {s : σ}
    (met : pre s) (faultless : ∀ why, others why → why.isFault = false) (fault : Fault) :
    x.halt? s = some (.fault fault) ↔
      fault? = some fault ∧ ∀ why, x.halt? s = some why → ¬others why := by
  constructor
  · intro stopped
    have due (why : Halt) (halted : x.halt? s = some why) : ¬others why := by
      intro other
      cases stopped.symm.trans halted
      cases faultless _ other
    obtain other | reported := verdict.of_halt? met stopped
    · exact absurd other (due _ stopped)
    · obtain ⟨found, same, equal⟩ := Option.map_eq_some_iff.1 reported
      cases equal
      exact ⟨same, due⟩
  · rintro ⟨due, calm⟩
    cases halted : x.halt? s with
    | none =>
      unfold halt? at halted
      cases result : x s with
      | ok a s' =>
        cases due.symm.trans (verdict.of_ok met result).1
      | error why s' => simp [result] at halted
    | some why =>
      obtain other | reported := verdict.of_halt? met halted
      · exact absurd other (calm why halted)
      · rw [← reported, due]
        rfl

end Verdict

/-! ## Actions without faults -/

/-- An action that is stopped, if it is, by a misuse or by a wait that nothing ends. -/
def Faultless (x : Act σ α) : Prop :=
  ∀ s why s', x s = .error why s' → why.isFault = false

namespace Faultless

theorem of_returns {x : Act σ α} (returns : ∀ s, ∃ a s', x s = .ok a s') : Faultless x := by
  intro s why s' stopped
  obtain ⟨a, s'', run⟩ := returns s
  rw [run] at stopped
  cases stopped

theorem bind {x : Act σ α} {f : α → Act σ β} (first : Faultless x)
    (rest : ∀ a, Faultless (f a)) : Faultless (x >>= f) := by
  intro s why s' stopped
  cases result : x s with
  | ok a between => exact rest a between why s' ((bind_of_ok result).symm.trans stopped)
  | error other between =>
    cases (bind_of_error result).symm.trans stopped
    exact first s why s' result

end Faultless

end Act

namespace Crossing

variable {σ O X α β : Type} {host : Host σ O X} (b : Boundary)

/-! ## Crossings -/

def Verdict (others : Halt → Prop) (pre : σ → Prop) (c : Crossing σ O X α)
    (fault? : Option Fault) (post : α → σ → Prop) : Prop :=
  Act.Verdict others (fun w => pre w.state) c fault? fun a w => post a w.state

namespace Verdict

variable {others : Halt → Prop} {pre : σ → Prop} {fault? first? rest? : Option Fault}
  {c : Crossing σ O X α}

theorem pure {post : α → σ → Prop} (a : α) (holds : ∀ s, pre s → post a s) :
    Verdict others pre (Pure.pure a : Crossing σ O X α) none post :=
  Act.Verdict.pure a fun w => holds w.state

theorem stay (a : α) : Verdict others pre (Pure.pure a : Crossing σ O X α) none fun _ => pre :=
  .pure a fun _ met => met

theorem bind {middle : α → σ → Prop} {post : β → σ → Prop} {f : α → Crossing σ O X β}
    (first : Verdict others pre c first? middle)
    (rest : first? = none → ∀ a, Verdict others (middle a) (f a) rest? post) :
    Verdict others pre (c >>= f) (first?.or rest?) post :=
  Act.Verdict.bind first rest

theorem next {middle : α → σ → Prop} {post : β → σ → Prop} {f : α → Crossing σ O X β}
    (first : Verdict others pre c none middle)
    (rest : ∀ a, Verdict others (middle a) (f a) rest? post) :
    Verdict others pre (c >>= f) rest? post :=
  bind first fun _ => rest

theorem last {middle : α → σ → Prop} {post : β → σ → Prop} {f : α → Crossing σ O X β}
    (first : Verdict others pre c first? middle)
    (rest : first? = none → ∀ a, Verdict others (middle a) (f a) none post) :
    Verdict others pre (c >>= f) first? post := by
  have whole := bind first rest
  rwa [Option.or_none] at whole

theorem map {post : β → σ → Prop} (f : α → β)
    (inner : Verdict others pre c fault? fun a => post (f a)) :
    Verdict others pre (f <$> c) fault? post :=
  Act.Verdict.map f inner

theorem weaken {pre' : σ → Prop} {post post' : α → σ → Prop}
    (inner : Verdict others pre c fault? post) (before : ∀ s, pre' s → pre s)
    (after : ∀ a s, post a s → post' a s) : Verdict others pre' c fault? post' :=
  Act.Verdict.weaken inner (fun w => before w.state) fun a w => after a w.state

theorem branch {condition : Prop} [Decidable condition] {d : Crossing σ O X α}
    {post : α → σ → Prop} (whenTrue : condition → Verdict others pre c none post)
    (whenFalse : ¬condition → Verdict others pre d none post) :
    Verdict others pre (if condition then c else d) none post := by
  split
  · exact whenTrue ‹_›
  · exact whenFalse ‹_›

theorem seen {view : σ → α} {known : α} {f : α → Crossing σ O X β} {post : β → σ → Prop}
    (sees : ∀ s, pre s → view s = known) (rest : Verdict others pre (f known) fault? post) :
    Verdict others pre (look view >>= f) fault? post := by
  intro w met
  have outcome := rest w met
  rw [← sees w.state met] at outcome
  exact outcome

theorem given {condition : Prop} {post : α → σ → Prop}
    (rest : condition → Verdict others pre c fault? post) :
    Verdict others (fun s => condition ∧ pre s) c fault? post :=
  fun w met => rest met.1 w met.2

theorem looks {view : σ → α} {f : α → Crossing σ O X β} {post : β → σ → Prop}
    (rest : ∀ a, Verdict others pre (f a) fault? post) :
    Verdict others pre (look view >>= f) fault? post :=
  fun w met => rest (view w.state) w met

theorem world {f : World σ O X → Crossing σ O X β} {post : β → σ → Prop}
    (rest : ∀ w : World σ O X, pre w.state →
      Verdict others (fun s => s = w.state) (f w) fault? post) :
    Verdict others pre (get >>= f) fault? post :=
  fun w met => rest w met w rfl

theorem looked {view : σ → α} :
    Verdict others pre (look view : Crossing σ O X α) none fun _ => pre :=
  fun _ met => ⟨rfl, met⟩

theorem record (deed : Deed O X) :
    Verdict others pre (record host deed) none fun _ => pre :=
  fun _ met => ⟨rfl, met⟩

theorem change {update : σ → σ} {post : σ → Prop} (becomes : ∀ s, pre s → post (update s)) :
    Verdict others pre (change update : Crossing σ O X Unit) none fun _ => post :=
  fun w met => ⟨rfl, becomes w.state met⟩

theorem run {action : Act σ α} {post : α → σ → Prop}
    (inner : Act.Verdict others pre action fault? post) :
    Verdict others pre (run action : Crossing σ O X α) fault? post := by
  intro w met
  have outcome := inner w.state met
  unfold Crossing.run
  cases result : action w.state with
  | ok a s =>
    simp only [result] at outcome
    exact outcome
  | error why s =>
    simp only [result] at outcome
    exact outcome

theorem fault (why : Fault) {post : α → σ → Prop} :
    Verdict others pre (fault why : Crossing σ O X α) (some why) post :=
  fun _ _ => .inr rfl

theorem halt {why : Halt} (other : others why) {post : α → σ → Prop} :
    Verdict others pre (halt why : Crossing σ O X α) none post :=
  fun _ _ => .inl other

theorem require {condition : Bool} {otherwise : Defect} (holds : condition = true) :
    Verdict others pre (require condition otherwise : Crossing σ O X Unit) none fun _ => pre := by
  rw [holds]
  exact fun _ met => ⟨rfl, met⟩

theorem onlyIf {condition : Bool} {c : Crossing σ O X Unit} {post : Unit → σ → Prop}
    (inner : condition = true → Verdict others pre c fault? post)
    (idle : condition = false → ∀ s, pre s → post () s) :
    Verdict others pre (onlyIf condition c) (if condition then fault? else none) post := by
  cases condition with
  | true => exact inner rfl
  | false => exact .pure () (idle rfl)

end Verdict

variable {others : Halt → Prop} {pre post : σ → Prop}

/-! ## Words to the observer and of the tracer -/

theorem announce_verdict (events : List TraceEvent) :
    Verdict others pre (announce host events) none fun _ => pre := by
  induction events with
  | nil => exact .stay ()
  | cons event rest ih => exact .next (Verdict.record _) fun _ => ih

theorem traceEntry_verdict (thread : UInt64) :
    Verdict others pre (traceEntry host b thread) none fun _ => pre :=
  Verdict.looks fun _ => .next (announce_verdict _) fun _ => fun _ met => ⟨rfl, met⟩

theorem traceExit_verdict : Verdict others pre (traceExit host b) none fun _ => pre :=
  Verdict.looks fun _ => .next (announce_verdict _) fun _ => fun _ met => ⟨rfl, met⟩

theorem askObserver_verdict : Verdict others pre (askObserver host b) none fun _ => pre :=
  .branch (fun _ _ met => ⟨rfl, met⟩) fun _ => .stay false

theorem reportBegin_verdict : Verdict others pre (reportBegin host b) none fun _ => pre :=
  .next (askObserver_verdict b) fun _ => .branch (fun _ => Verdict.looks fun _ => Verdict.record _)
    fun _ => .stay ()

theorem reportEnd_verdict : Verdict others pre (reportEnd host b) none fun _ => pre :=
  .next (askObserver_verdict b) fun _ => .branch (fun _ => Verdict.looks fun _ => Verdict.record _)
    fun _ => .stay ()

/-! ## Tiers, and the ways to native code and back -/

theorem checkTier_verdict {m : Method} (executing : ∀ s, pre s → host.executing s = some m) :
    Verdict others pre (checkTier host b m.tier) none fun _ => pre := by
  refine .branch (fun _ => Verdict.seen executing ?_) fun _ => .stay ()
  exact .branch (fun _ => .stay ()) fun other => absurd rfl other

theorem leaveManaged_verdict (managed : ∀ s, pre s → host.state s = .managed)
    (gone : Act.Verdict others pre host.toNative none fun _ => post) :
    Verdict others pre (leaveManaged host) none fun _ => post :=
  Verdict.seen managed <| .next (Verdict.require rfl) fun _ => .next (Verdict.record _) fun _ =>
    Verdict.run gone

theorem returnToManaged_verdict (native : ∀ s, pre s → host.state s = .native)
    (back : Act.Verdict others pre host.toManaged none fun _ => post) :
    Verdict others pre (returnToManaged host) none fun _ => post :=
  Verdict.seen native <| .next (Verdict.require rfl) fun _ => .next (Verdict.record _) fun _ =>
    Verdict.run back

theorem beginTier_verdict {m : Method} (opens : ∀ mark s, pre s → pre (host.setScopeBase mark s))
    (executing : ∀ s, pre s → host.executing s = some m)
    (managed : m.tier = .normal → ∀ s, pre s → host.state s = .managed)
    (gone : m.tier = .normal → Act.Verdict others pre host.toNative none fun _ => post)
    (weaker : m.tier ≠ .normal → ∀ s, pre s → post s) :
    Verdict others pre (beginTier host b m.tier) none fun _ => post := by
  have checked : Verdict others pre (checkTier host b m.tier) none fun _ => pre :=
    checkTier_verdict b executing
  have opening : Verdict others pre (openScope host) none fun _ => pre :=
    Verdict.looks fun _ => Verdict.looks fun mark => .next (Verdict.record _) fun _ =>
      .next (.change (opens mark)) fun _ => .stay _
  cases tier : m.tier with
  | normal =>
    rw [tier] at checked
    rw [beginTier, beginNormal_eq]
    refine .next (.stay ()) fun _ => .next opening fun _ => Verdict.looks fun thread => ?_
    refine .next (traceEntry_verdict b thread) fun _ => .next checked fun _ => ?_
    refine .next (leaveManaged_verdict (managed tier) (gone tier)) fun _ => ?_
    exact .next (Verdict.onlyIf (fun _ => reportBegin_verdict b) fun _ _ met => met) fun _ =>
      .stay _
  | fast =>
    rw [tier] at checked
    exact .next opening fun _ => .next checked fun _ => .pure _ (weaker (by simp [tier]))
  | critical =>
    rw [tier] at checked
    exact .next checked fun _ => Verdict.looked.weaken (fun _ met => met) fun _ =>
      weaker (by simp [tier])

theorem honourSuspend_verdict (holds : ∀ s, pre s → host.holdsShare s = true)
    (check : Act.Verdict others pre host.checkSuspend none fun _ => post)
    (weaker : ∀ s, pre s → post s) :
    Verdict others pre (honourSuspend host) none fun _ => post := by
  refine Verdict.looks fun requested => .branch (fun _ => ?_) fun _ => .pure () weaker
  exact Verdict.seen holds <| .next (Verdict.require rfl) fun _ => .next (Verdict.record _) fun _ =>
    Verdict.run check

theorem finishTier_verdict {m : Method} (executing : ∀ s, pre s → host.executing s = some m)
    (native : m.tier = .normal → ∀ s, pre s → host.state s = .native)
    (back : m.tier = .normal → Act.Verdict others pre host.toManaged none fun _ => post)
    (holds : m.tier = .fast → ∀ s, pre s → host.holdsShare s = true)
    (check : m.tier = .fast → Act.Verdict others pre host.checkSuspend none fun _ => post)
    (weaker : m.tier ≠ .normal → ∀ s, pre s → post s) :
    Verdict others pre (finishTier host b m.tier) none fun _ => post := by
  have checked : Verdict others pre (checkTier host b m.tier) none fun _ => pre :=
    checkTier_verdict b executing
  cases tier : m.tier with
  | normal =>
    rw [tier] at checked
    rw [finishTier, finishNormal_eq]
    refine .next (Verdict.onlyIf (fun _ => reportEnd_verdict b) fun _ _ met => met) fun _ => ?_
    refine .next (.next (traceExit_verdict b) fun _ => .next checked fun _ => ?_)
      fun _ => .stay ()
    exact returnToManaged_verdict (native tier) (back tier)
  | fast =>
    rw [tier] at checked
    exact .next checked fun _ =>
      honourSuspend_verdict (holds tier) (check tier) (weaker (by simp [tier]))
  | critical =>
    rw [tier] at checked
    exact .weaken checked (fun _ met => met) fun _ => weaker (by simp [tier])

/-! ## Classes -/

theorem refreshClass_verdict {object : O} (uses : ∀ s, pre s → host.usesReadBarrier s = true)
    (current : Act.Verdict others pre (host.currentCopy object) none fun _ => post)
    (weaker : ∀ s, pre s → post s) :
    Verdict others pre (refreshClass host object) none fun _ => post := by
  have ask : Verdict others pre (do
      Crossing.record host (.currentCopy object)
      Crossing.run (host.currentCopy object)) none fun _ => post :=
    .next (Verdict.record _) fun _ => .run current
  refine Verdict.seen uses (.next (Verdict.require rfl) fun _ => Verdict.looks fun proves => ?_)
  refine .branch (fun _ => ?_) fun _ => ?_
  · exact .next (Verdict.record _) fun _ => Verdict.looks fun marked =>
      .branch (fun _ => .pure _ weaker) fun _ => ask
  · exact .next (.stay false) fun _ => .branch (fun _ => .pure _ weaker) fun _ => ask

end Crossing

end NativeBoundary
