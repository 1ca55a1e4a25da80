import NativeBoundary.Proofs.Call.Lasting
import NativeBoundary.Proofs.Call.Restored
import NativeBoundary.Proofs.Crossing.Passes

/-!
# What the observer hears of a tree of calls

The observer is asked twice in a normal call, just after the thread has gone to native code and just
before it comes back, and never in a call of another tier.  So what stands in the journal for the
edges of native code follows from the tree of calls and the answers of the observer alone, and
neither from what the calls return nor from what is pending, locked or checked meanwhile.
-/

set_option autoImplicit false

namespace NativeBoundary

variable {σ O X α : Type}

/-! ## Words to the observer -/

def Deed.isWord : Deed O X → Bool
  | .asked _ | .begun _ | .ending _ => true
  | _ => false

def Deed.isReport : Deed O X → Bool
  | .begun _ | .ending _ => true
  | _ => false

/-- What stands in the journal for a question: the answer, and the report if it is wanted. -/
def asking (report : Deed O X) (answer : Bool) : List (Deed O X) :=
  .asked answer :: if answer then [report] else []

def later (asked : Nat) (answers : Nat → Bool) : Nat → Bool :=
  fun n => answers (n + asked)

def World.edges (w : World σ O X) : List (Entry O X) :=
  w.journal.filter fun entry => entry.deed.isEdge

def World.hearing (w : World σ O X) : List (Entry O X) × (Nat → Bool) :=
  (w.edges, w.willReport)

theorem World.afar_hearing : World.Afar (World.hearing : World σ O X → _) where
  state _ _ := rfl
  entry w entry inner := by simp [hearing, edges, inner]

/-- From one world to a later one the observer was asked a number of times and the edges in a list
were passed, with every word to the observer said in native code without a share. -/
structure World.Hears (w w' : World σ O X) (asked : Nat) (passed : List (Deed O X)) : Prop where
  edges : ∃ added, w'.edges = w.edges ++ added ∧
    (added.map fun entry => entry.deed) = passed ∧
    ∀ entry ∈ added, entry.deed.isWord = true → entry.state = .native ∧ entry.holdsShare = false
  answers : w'.willReport = later asked w.willReport

namespace World.Hears

variable {w w' w'' : World σ O X} {asked asked' : Nat} {passed passed' : List (Deed O X)}

theorem nothing (same : w'.hearing = w.hearing) : w.Hears w' 0 [] where
  edges := ⟨[], by rw [List.append_nil]; exact congrArg Prod.fst same, rfl, by simp⟩
  answers := congrArg Prod.snd same

theorem trans (first : w.Hears w' asked passed) (next : w'.Hears w'' asked' passed') :
    w.Hears w'' (asked + asked') (passed ++ passed') := by
  obtain ⟨added, edges, deeds, placed⟩ := first.edges
  obtain ⟨added', edges', deeds', placed'⟩ := next.edges
  refine ⟨⟨added ++ added', ?_, ?_, ?_⟩, ?_⟩
  · rw [edges', edges, List.append_assoc]
  · rw [List.map_append, deeds, deeds']
  · intro entry member
    rcases List.mem_append.1 member with early | late
    · exact placed entry early
    · exact placed' entry late
  · funext n
    rw [next.answers, first.answers, later, later, later, Nat.add_assoc, Nat.add_comm asked']

theorem after (same : w'.hearing = w.hearing) (next : w'.Hears w'' asked passed) :
    w.Hears w'' asked passed := by
  simpa using (nothing same).trans next

theorem before (first : w.Hears w' asked passed) (same : w''.hearing = w'.hearing) :
    w.Hears w'' asked passed := by
  simpa using first.trans (nothing same)

end World.Hears

/-! ## Edges -/

/-- A host whose thread has no share after it went to native code and before it comes back, and has
one environment throughout. -/
structure Host.Yields (host : Host σ O X) (env : UInt64) : Prop where
  away : ∀ s s', host.toNative s = .ok () s' → host.state s' = .native ∧ host.holdsShare s' = false
  back : ∀ s s', host.toManaged s = .ok () s' → host.holdsShare s = false
  env : ∀ s, host.env s = env

namespace Crossing

variable {host : Host σ O X} {b : Boundary} {env : UInt64} {w w' : World σ O X}

theorem trace_leaves_hearing (flag : Bool → Bool) :
    Leaves World.hearing
      (modify fun w => { w with tracing := flag w.tracing } : Crossing σ O X Unit) := by
  intro w u w' run
  obtain rfl := Act.modify_eq_ok.1 run
  rfl

theorem traceEntry_leaves_hearing (thread : UInt64) :
    Leaves World.hearing (traceEntry host b thread) :=
  .bind (.look _) fun _ => .bind (announce_leaves World.afar_hearing _) fun _ =>
    trace_leaves_hearing _

theorem traceExit_leaves_hearing : Leaves World.hearing (traceExit host b) :=
  .bind (.look _) fun _ => .bind (announce_leaves World.afar_hearing _) fun _ =>
    trace_leaves_hearing _

theorem record_hears {deed : Deed O X} {u : Unit} (edge : deed.isEdge = true)
    (placed : deed.isWord = true →
      host.state w.state = .native ∧ host.holdsShare w.state = false)
    (run : record host deed w = .ok u w') : w'.state = w.state ∧ w.Hears w' 0 [deed] := by
  obtain rfl := (EStateM.Result.ok.inj run).2
  refine ⟨rfl, ⟨⟨[host.entry deed w.state], ?_, rfl, ?_⟩, rfl⟩⟩
  · simp [World.edges, edge, Host.entry]
  · simpa [Host.entry] using placed

/-- A question to an attached observer takes the next answer. -/
theorem askObserver_hears (observed : b.observed = true)
    (native : host.state w.state = .native) (free : host.holdsShare w.state = false)
    {answer : Bool} (run : askObserver host b w = .ok answer w') :
    answer = w.willReport 0 ∧ w'.state = w.state ∧ w.Hears w' 1 [.asked answer] := by
  unfold askObserver at run
  rw [if_pos observed, Act.get_bind] at run
  obtain ⟨_, between, recorded, run⟩ := Act.bind_eq_ok.1 run
  rw [Act.modify_bind] at run
  obtain ⟨rfl, rfl⟩ := Act.pure_eq_ok.1 run
  obtain ⟨state, hears⟩ := record_hears rfl (fun _ => ⟨native, free⟩) recorded
  exact ⟨rfl, state, hears.edges, congrArg (later 1) hears.answers⟩

theorem report_hears {tell : UInt64 → Deed O X} (observed : b.observed = true)
    (edge : ∀ e, (tell e).isEdge = true) (envs : ∀ s, host.env s = env)
    (native : host.state w.state = .native) (free : host.holdsShare w.state = false) {u : Unit}
    (run : (do if ← askObserver host b then record host (tell (← look host.env)) :
      Crossing σ O X Unit) w = .ok u w') :
    w'.state = w.state ∧ w.Hears w' 1 (asking (tell env) (w.willReport 0)) := by
  obtain ⟨answer, between, asked, run⟩ := Act.bind_eq_ok.1 run
  obtain ⟨rfl, state, question⟩ := askObserver_hears observed native free asked
  cases answer : w.willReport 0 with
  | true =>
    simp only [answer, if_true] at run question
    obtain ⟨_, _, looked, run⟩ := Act.bind_eq_ok.1 run
    obtain ⟨rfl, rfl⟩ := look_eq_ok.1 looked
    obtain ⟨same, report⟩ := record_hears (edge _)
      (fun _ => by rw [state]; exact ⟨native, free⟩) run
    rw [envs] at report
    exact ⟨same.trans state, question.trans report⟩
  | false =>
    simp only [answer] at run question
    obtain ⟨-, rfl⟩ := Act.pure_eq_ok.1 run
    exact ⟨state, question⟩

theorem leaveManaged_hears (yields : host.Yields env) {u : Unit}
    (run : leaveManaged host w = .ok u w') :
    host.state w'.state = .native ∧ host.holdsShare w'.state = false ∧
      w.Hears w' 0 [.toNative] := by
  obtain ⟨_, _, looked, run⟩ := Act.bind_eq_ok.1 run
  obtain ⟨rfl, rfl⟩ := look_eq_ok.1 looked
  obtain ⟨_, _, required, run⟩ := Act.bind_eq_ok.1 run
  obtain ⟨-, rfl⟩ := require_eq_ok.1 required
  obtain ⟨_, between, recorded, run⟩ := Act.bind_eq_ok.1 run
  obtain ⟨-, hears⟩ := record_hears rfl (by simp [Deed.isWord]) recorded
  obtain ⟨s, gone, rfl⟩ := run_eq_ok.1 run
  obtain ⟨native, free⟩ := yields.away _ s gone
  exact ⟨native, free, hears.before (World.afar_hearing.state between s)⟩

/-- Who comes back was in native code without a share until then. -/
theorem returnToManaged_hears (yields : host.Yields env) {u : Unit}
    (run : returnToManaged host w = .ok u w') :
    host.state w.state = .native ∧ host.holdsShare w.state = false ∧
      w.Hears w' 0 [.toManaged] := by
  obtain ⟨_, _, looked, run⟩ := Act.bind_eq_ok.1 run
  obtain ⟨rfl, rfl⟩ := look_eq_ok.1 looked
  obtain ⟨_, _, required, run⟩ := Act.bind_eq_ok.1 run
  obtain ⟨native, rfl⟩ := require_eq_ok.1 required
  obtain ⟨_, between, recorded, run⟩ := Act.bind_eq_ok.1 run
  obtain ⟨same, hears⟩ := record_hears rfl (by simp [Deed.isWord]) recorded
  obtain ⟨s, back, rfl⟩ := run_eq_ok.1 run
  rw [same] at back
  exact ⟨of_decide_eq_true native, yields.back _ s back,
    hears.before (World.afar_hearing.state between s)⟩

end Crossing

/-! ## Ends and beginnings of a call -/

def Tier.questions : Tier → Nat
  | .normal => 1
  | .fast | .critical => 0

def Tier.openingEdges (env : UInt64) (answer : Bool) : Tier → List (Deed O X)
  | .normal => .toNative :: asking (.begun env) answer
  | .fast | .critical => []

def Tier.closingEdges (env : UInt64) (answer : Bool) : Tier → List (Deed O X)
  | .normal => asking (.ending env) answer ++ [.toManaged]
  | .fast | .critical => []

namespace Crossing

variable {host : Host σ O X} {b : Boundary} {env : UInt64} {w w' : World σ O X}
  (observed : b.observed = true) (yields : host.Yields env)
include observed yields

theorem beginTier_hears (tier : Tier) {saved : ScopeMark}
    (run : beginTier host b tier w = .ok saved w') :
    w.Hears w' tier.questions (tier.openingEdges env (w.willReport 0)) := by
  cases tier with
  | normal =>
    unfold beginTier at run
    simp only [beginNormal_eq, onlyIf, if_true] at run
    obtain ⟨_, _, unlocked, run⟩ := Act.bind_eq_ok.1 run
    obtain ⟨-, rfl⟩ := Act.pure_eq_ok.1 unlocked
    obtain ⟨_, _, opened, run⟩ := Act.bind_eq_ok.1 run
    obtain ⟨_, _, looked, run⟩ := Act.bind_eq_ok.1 run
    obtain ⟨-, rfl⟩ := look_eq_ok.1 looked
    obtain ⟨_, _, traced, run⟩ := Act.bind_eq_ok.1 run
    obtain ⟨_, amid, checked, run⟩ := Act.bind_eq_ok.1 run
    obtain ⟨_, away, left, run⟩ := Act.bind_eq_ok.1 run
    obtain ⟨_, _, reported, run⟩ := Act.bind_eq_ok.1 run
    obtain ⟨-, rfl⟩ := Act.pure_eq_ok.1 run
    have same : amid.hearing = w.hearing :=
      (checkTier_leaves _ _ _ _ checked).trans
        ((traceEntry_leaves_hearing _ _ _ _ traced).trans
          (openScope_leaves World.afar_hearing _ _ _ opened))
    obtain ⟨native, free, gone⟩ := leaveManaged_hears yields left
    obtain ⟨-, told⟩ := report_hears observed (fun _ => rfl) yields.env native free reported
    -- Nobody was asked on the way out, so the answer to come is still the first.
    have answers : away.willReport = w.willReport := by
      rw [gone.answers, show amid.willReport = w.willReport from congrArg Prod.snd same]
      rfl
    rw [answers] at told
    simpa [Tier.questions, Tier.openingEdges] using (World.Hears.after same gone).trans told
  | fast => exact .nothing (beginFast_leaves World.afar_hearing _ _ _ run)
  | critical =>
    obtain ⟨_, _, checked, run⟩ := Act.bind_eq_ok.1 run
    obtain ⟨-, rfl⟩ := look_eq_ok.1 run
    exact .nothing (checkTier_leaves _ _ _ _ checked)

theorem finishTier_hears (tier : Tier) {u : Unit} (run : finishTier host b tier w = .ok u w') :
    w.Hears w' tier.questions (tier.closingEdges env (w.willReport 0)) := by
  cases tier with
  | normal =>
    unfold finishTier at run
    simp only [finishNormal_eq, onlyIf, if_true] at run
    obtain ⟨_, told, reported, run⟩ := Act.bind_eq_ok.1 run
    obtain ⟨_, _, cameBack, run⟩ := Act.bind_eq_ok.1 run
    obtain ⟨-, rfl⟩ := Act.pure_eq_ok.1 run
    obtain ⟨_, traced, tracing, run⟩ := Act.bind_eq_ok.1 cameBack
    obtain ⟨_, checked, checking, back⟩ := Act.bind_eq_ok.1 run
    -- Where the thread is, is known of the moment before it comes back.  The report was made at an
    -- earlier one, and the host has not changed since.
    have stays (P : σ → Prop) (holds : P w.state) : P checked.state := by
      have notes := host.keeps_note P
      have first := Keeps.of_ok (reportEnd_passes b notes) reported holds
      have next := Keeps.of_ok (traceExit_passes b notes) tracing first
      exact Keeps.of_ok (checkTier_passes b .normal) checking next
    have state : checked.state = w.state := stays (fun s => s = w.state) rfl
    obtain ⟨native, free, home⟩ := returnToManaged_hears yields back
    rw [state] at native free
    obtain ⟨-, report⟩ := report_hears observed (fun _ => rfl) yields.env native free reported
    have same : checked.hearing = told.hearing :=
      (checkTier_leaves _ _ _ _ checking).trans (traceExit_leaves_hearing _ _ _ tracing)
    exact (report.before same).trans home
  | fast => exact .nothing (finishFast_leaves World.afar_hearing _ _ _ run)
  | critical => exact .nothing (checkTier_leaves _ _ _ _ run)

theorem beginMethod_hears (m : Method) {saved : ScopeMark}
    (run : beginMethod host b m w = .ok saved w') :
    w.Hears w' m.tier.questions (m.tier.openingEdges env (w.willReport 0)) := by
  rw [beginMethod_eq] at run
  obtain ⟨_, _, checked, run⟩ := Act.bind_eq_ok.1 run
  obtain ⟨_, amid, locked, run⟩ := Act.bind_eq_ok.1 run
  have same : amid.hearing = w.hearing :=
    (lockFor_leaves World.afar_hearing m _ _ _ locked).trans
      (checkSynchronizedTier_leaves m _ _ _ checked)
  have hears := beginTier_hears observed yields m.tier run
  rw [show amid.willReport = w.willReport from congrArg Prod.snd same] at hears
  exact .after same hears

theorem endMethod_hears (m : Method) (saved : ScopeMark) (registers : Registers)
    {result : CallResult O} (run : endMethod host b m saved registers w = .ok result w') :
    w.Hears w' m.tier.questions (m.tier.closingEdges env (w.willReport 0)) := by
  rw [endMethod_eq] at run
  obtain ⟨_, finished, finishing, run⟩ := Act.bind_eq_ok.1 run
  obtain ⟨_, unlocked, unlocking, delivering⟩ := Act.bind_eq_ok.1 run
  have same : w'.hearing = finished.hearing :=
    (deliver_leaves World.afar_hearing m saved registers (fun _ => traceExit_leaves_hearing)
      _ _ _ delivering).trans
      (unlockFor_leaves World.afar_hearing m _ _ _ unlocking)
  exact (finishTier_hears observed yields m.tier finishing).before same

end Crossing

/-! ## Trees of calls -/

mutual

/-- How many normal calls an instruction makes, itself and by those within. -/
def Instruction.normalCalls : Instruction → Nat
  | .call method _ body _ => method.tier.questions + normalCallsIn body
  | _ => 0

def normalCallsIn : List Instruction → Nat
  | [] => 0
  | first :: rest => first.normalCalls + normalCallsIn rest

end

mutual

def Instruction.edges (env : UInt64) (answers : Nat → Bool) :
    Instruction → List (Deed ObjectId Throwable)
  | .call method _ body _ =>
    method.tier.openingEdges env (answers 0) ++
      edgesIn env (later method.tier.questions answers) body ++
        method.tier.closingEdges env (answers (method.tier.questions + 2 * normalCallsIn body))
  | _ => []

def edgesIn (env : UInt64) (answers : Nat → Bool) :
    List Instruction → List (Deed ObjectId Throwable)
  | [] => []
  | first :: rest =>
    first.edges env answers ++ edgesIn env (later (2 * first.normalCalls) answers) rest

end

mutual

/-- The reports that the calls in an instruction deserve: a pair around those of the body of each
normal call. -/
def Instruction.brackets (env : UInt64) : Instruction → List (Deed ObjectId Throwable)
  | .call method _ body _ =>
    match method.tier with
    | .normal => .begun env :: bracketsIn env body ++ [.ending env]
    | .fast | .critical => bracketsIn env body
  | _ => []

def bracketsIn (env : UInt64) : List Instruction → List (Deed ObjectId Throwable)
  | [] => []
  | first :: rest => first.brackets env ++ bracketsIn env rest

end

/-- An observer that always wants to know is told of every normal call. -/
theorem reports_of_edges (env : UInt64) (body : List Instruction) :
    ∀ answers : Nat → Bool, (∀ n, answers n = true) →
      (edgesIn env answers body).filter Deed.isReport = bracketsIn env body := by
  -- A body and the rest after it meet the answers at different places, so these vary.
  induction body using Instruction.bodyInduction with
  | nil => intro answers _; simp [edgesIn, bracketsIn]
  | plain first rest plain ih =>
    intro answers always
    have rest := ih (later (2 * first.normalCalls) answers) fun n => always _
    cases first with
    | call method receiver body registers => simp [Instruction.isCall] at plain
    | _ => simpa [edgesIn, bracketsIn, Instruction.edges, Instruction.brackets] using rest
  | call method receiver body registers rest inner ih =>
    intro answers always
    have within := inner (later method.tier.questions answers) fun n => always _
    have rest := ih (later (2 * (Instruction.call method receiver body registers).normalCalls)
      answers) fun n => always _
    rw [edgesIn, bracketsIn, List.filter_append, rest]
    refine congrArg (· ++ _) ?_
    cases tier : method.tier <;> rw [tier] at within <;>
      simp [Instruction.edges, Instruction.brackets, tier, Tier.openingEdges, Tier.closingEdges,
        asking, always, List.filter_cons, Deed.isReport, within]

namespace Call

variable {b : Boundary} {t : ThreadId} {w w' : MachineWorld}

def envOf (t : ThreadId) : UInt64 :=
  UInt64.ofNat t.number

theorem host_yields (t : ThreadId) : (Machine.host t).Yields (envOf t) where
  away m m' run := by
    have attached : ∃ own, Machine.Stands t own m := by
      cases found : m.thread? t with
      | some thread => exact ⟨thread.own, by simp [Machine.Stands, found]⟩
      | none =>
        have holds := (Machine.releaseShare_eq_ok.1 (Machine.toNative_eq_ok.1 run)).1
        simp [Machine.thread, Machine.thread?_updateThread, found] at holds
    obtain ⟨own, stands⟩ := attached
    obtain ⟨-, after⟩ := stands.toNative run
    exact ⟨after.view Thread.state fun _ => rfl, after.holdsShare⟩
  back m m' run := by
    obtain ⟨between, acquired, -⟩ := Machine.toManaged_eq_ok.1 run
    exact (Machine.acquireShare_eq_ok.1 acquired).1
  env _ := rfl

section Observed

variable (observed : b.observed = true)
include observed

theorem enter_hears {method : Method} {receiver : Option ObjectId} {entry : Started}
    (run : enter b t method receiver w = .ok entry w') :
    w.Hears w' method.tier.questions (method.tier.openingEdges (envOf t) (w.willReport 0)) := by
  obtain ⟨named, same, -, beginning⟩ := begun_of_enter World.afar_hearing run
  have hears := Crossing.beginMethod_hears observed (host_yields t) method beginning
  rw [show named.willReport = w.willReport from congrArg Prod.snd same] at hears
  exact .after same hears

theorem leave_hears {method : Method} {saved : ScopeMark} {registers : Registers}
    {result : CallResult ObjectId} (run : leave b t method saved registers w = .ok result w') :
    w.Hears w' method.tier.questions (method.tier.closingEdges (envOf t) (w.willReport 0)) := by
  obtain ⟨ended, same, ending⟩ := ended_of_leave World.afar_hearing run
  exact (Crossing.endMethod_hears observed (host_yields t) method saved registers ending).before
    same

/-- A call passes its own edges around those of its body. -/
theorem invoke_hears {method : Method} {receiver : Option ObjectId} {body : List Instruction}
    {registers : Registers} {result : CallResult ObjectId}
    (inner : ∀ {v v' : MachineWorld} {u : Unit}, performAll b t body v = .ok u v' →
      v.Hears v' (2 * normalCallsIn body) (edgesIn (envOf t) v.willReport body))
    (run : invoke b t method receiver body registers w = .ok result w') :
    let call := Instruction.call method receiver body registers
    w.Hears w' (2 * call.normalCalls) (call.edges (envOf t) w.willReport) := by
  obtain ⟨entry, started, entering, run⟩ := Act.bind_eq_ok.1 run
  obtain ⟨_, ended, performed, leaving⟩ := Act.bind_eq_ok.1 run
  have opening := enter_hears observed entering
  have within := inner performed
  have closing := leave_hears observed leaving
  rw [within.answers, opening.answers] at closing
  rw [opening.answers] at within
  have whole := (opening.trans within).trans closing
  have count : method.tier.questions + 2 * normalCallsIn body + method.tier.questions =
      2 * (Instruction.call method receiver body registers).normalCalls := by
    rw [Instruction.normalCalls]
    omega
  rw [count] at whole
  simpa only [Instruction.edges, later, Nat.zero_add, Nat.add_comm] using whole

omit observed in
theorem cons_hears {between : MachineWorld} {first : Instruction} {rest : List Instruction}
    (here : w.Hears between (2 * first.normalCalls) (first.edges (envOf t) w.willReport))
    (next : between.Hears w' (2 * normalCallsIn rest)
      (edgesIn (envOf t) between.willReport rest)) :
    w.Hears w' (2 * normalCallsIn (first :: rest))
      (edgesIn (envOf t) w.willReport (first :: rest)) := by
  rw [here.answers] at next
  rw [normalCallsIn, Nat.mul_add, edgesIn]
  exact here.trans next

theorem performAll_hears (body : List Instruction) :
    ∀ {w w' : MachineWorld} {u : Unit}, performAll b t body w = .ok u w' →
      w.Hears w' (2 * normalCallsIn body) (edgesIn (envOf t) w.willReport body) := by
  induction body using Instruction.bodyInduction with
  | nil =>
    intro w w' u run
    simp only [performAll] at run
    obtain ⟨-, rfl⟩ := Act.pure_eq_ok.1 run
    exact .nothing rfl
  | plain first rest plain ih =>
    intro w w' u run
    simp only [performAll] at run
    obtain ⟨_, between, doing, run⟩ := Act.bind_eq_ok.1 run
    refine cons_hears ?_ (ih run)
    have nothing := World.Hears.nothing (plain_leaves World.afar_hearing plain _ _ _ doing)
    cases first with
    | call method receiver body registers => simp [Instruction.isCall] at plain
    | _ => simpa only [Instruction.normalCalls, Instruction.edges] using nothing
  | call method receiver body registers rest inner ih =>
    intro w w' u run
    simp only [performAll] at run
    obtain ⟨_, between, doing, run⟩ := Act.bind_eq_ok.1 run
    obtain ⟨result, invoked⟩ := perform_call doing
    exact cons_hears (invoke_hears observed inner invoked) (ih run)

end Observed

/-! ## The result -/

/-- A tree of calls that returns passes the edges that the tiers of its calls and the answers of the
observer give: each normal call goes to native code, asks the observer, runs its body, asks the
observer again and comes back, and a report follows a question exactly where the answer is yes.  All
of this is said in native code while the thread has no share.  An observer that always wants to
know is told of each normal call by a pair of reports around those of the calls within. -/
theorem observer_hears_each_normal_call_twice
    (b : Boundary) (observed : b.observed = true) (t : ThreadId) (method : Method)
    (receiver : Option ObjectId) (body : List Instruction) (registers : Registers)
    (w w' : MachineWorld) (result : CallResult ObjectId)
    (returned : invoke b t method receiver body registers w = .ok result w') :
    let call := Instruction.call method receiver body registers
    ∃ added, w'.edges = w.edges ++ added ∧
      (added.map fun entry => entry.deed) = call.edges (envOf t) w.willReport ∧
      (∀ entry ∈ added, entry.deed.isWord = true →
        entry.state = .native ∧ entry.holdsShare = false) ∧
      w'.willReport = later (2 * call.normalCalls) w.willReport ∧
      ((∀ n, w.willReport n = true) →
        (added.map fun entry => entry.deed).filter Deed.isReport = call.brackets (envOf t)) := by
  intro call
  have hears : w.Hears w' (2 * call.normalCalls) (call.edges (envOf t) w.willReport) :=
    invoke_hears observed (performAll_hears observed body) returned
  obtain ⟨added, edges, deeds, placed⟩ := hears.edges
  refine ⟨added, edges, deeds, placed, hears.answers, fun always => ?_⟩
  rw [deeds]
  have reports := reports_of_edges (envOf t) [call] w.willReport always
  simpa [edgesIn, bracketsIn] using reports

def observedCalls : Boundary where
  observed := true

/-- The reports of a normal call that has another one, and calls of the other tiers, within. -/
theorem observer_hears_each_normal_call_twice_nesting :
    ∃ result w',
      invoke observedCalls ⟨1⟩
          { className := "Point", name := "draw", shorty := "V", tier := .normal } none
          nestingBody {} onManagedThread = .ok result w' ∧
        (w'.edges.map fun entry => entry.deed).filter Deed.isReport =
          [.begun 1, .begun 1, .ending 1, .ending 1] := by
  have returns : (invoke observedCalls ⟨1⟩
      { className := "Point", name := "draw", shorty := "V", tier := .normal } none
      nestingBody {}).returns onManagedThread = true := by decide +kernel
  obtain ⟨result, w', returned⟩ := Act.exists_of_returns returns
  obtain ⟨added, edges, -, -, -, reports⟩ := observer_hears_each_normal_call_twice observedCalls rfl
    ⟨1⟩ _ none nestingBody {} onManagedThread w' result returned
  refine ⟨result, w', returned, ?_⟩
  rw [edges, show onManagedThread.edges = [] from rfl, List.nil_append, reports fun _ => rfl]
  decide +kernel

end Call

end NativeBoundary
