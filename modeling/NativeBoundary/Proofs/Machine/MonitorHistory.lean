import Mathlib.Data.List.Induction
import NativeBoundary.Proofs.Machine.MonitorChange

/-!
# The history of a monitor

Threads ask a monitor one after the other to let them in or out.  From what one answered request can
change follows what a whole history adds up to: the owner and its levels are what the answers say
they are, and the two copies of the owner agree.
-/

set_option autoImplicit false

namespace NativeBoundary

namespace Monitor

/-! ## Requests -/

inductive Request where
  | tryEnter (thread : ThreadId)
  /-- An enter that waits as long as another thread owns the monitor. -/
  | enter (thread : ThreadId)
  | exit (thread : ThreadId)
  deriving DecidableEq

inductive Stop where
  | waits
  | defect (defect : Defect)
  deriving DecidableEq

def serve (m : Monitor) : Request → Except Stop (Answer × Monitor)
  | .tryEnter t =>
    match m.tryEnter t with
    | .ok (true, after) => .ok (.entered t, after)
    | .ok (false, after) => .ok (.refused t, after)
    | .error defect => .error (.defect defect)
  | .enter t =>
    match m.tryEnter t with
    | .ok (true, after) => .ok (.entered t, after)
    | .ok (false, _) => .error .waits
    | .error defect => .error (.defect defect)
  | .exit t =>
    match m.exit t with
    | .ok (.ok after) => .ok (.exited t, after)
    | .ok (.error misuse) => .ok (.misused misuse, m)
    | .error defect => .error (.defect defect)

variable {m m' : Monitor} {t : ThreadId} {request : Request} {answer : Answer}

theorem serve_exit_of_not_owner (other : m.owner ≠ some t) :
    m.serve (.exit t) = .ok (.misused { thread := t, owner := m.owner }, m) := by
  simp only [serve, exit_of_not_owner other]

theorem change_of_serve (served : m.serve request = .ok (answer, m')) :
    Change m answer m' := by
  cases request with
  | tryEnter t =>
    simp only [serve] at served
    split at served
    · next tried =>
      obtain ⟨rfl, rfl⟩ := Prod.mk.inj (Except.ok.inj served)
      exact change_of_tryEnter tried
    · next tried =>
      obtain ⟨rfl, rfl⟩ := Prod.mk.inj (Except.ok.inj served)
      exact change_of_tryEnter tried
    · simp at served
  | enter t =>
    simp only [serve] at served
    split at served
    · next tried =>
      obtain ⟨rfl, rfl⟩ := Prod.mk.inj (Except.ok.inj served)
      exact change_of_tryEnter tried
    · simp at served
    · simp at served
  | exit t =>
    simp only [serve] at served
    split at served
    · next exited =>
      obtain ⟨rfl, rfl⟩ := Prod.mk.inj (Except.ok.inj served)
      exact change_of_exit exited
    · next misuse exited =>
      obtain ⟨rfl, rfl⟩ := Prod.mk.inj (Except.ok.inj served)
      by_cases own : m.owner = some t
      · simp only [exit, if_pos own] at exited
        split at exited <;> simp at exited
      · rw [exit_of_not_owner own] at exited
        obtain rfl := Except.error.inj (Except.ok.inj exited)
        exact .misused t own
    · simp at served

/-- A request goes without an answer only while another thread owns the monitor, unless the counter
of its levels is full. -/
theorem serve_of_room (level : m.Level) (room : m.recursion < levelLimit - 1) (request : Request) :
    (∃ answer m', m.serve request = .ok (answer, m')) ∨ m.serve request = .error .waits := by
  have tried (t : ThreadId) : ∃ entered m', m.tryEnter t = .ok (entered, m') := by
    by_cases available : m.Available t
    · obtain ⟨m', entered⟩ := tryEnter_of_available available
      exact ⟨true, m', entered⟩
    · simp only [Available, not_or, not_and] at available
      obtain ⟨owner, owned⟩ := Option.ne_none_iff_exists'.1 available.1
      by_cases own : owner = t
      · have full := available.2 (by rw [owned, own])
        omega
      · exact ⟨false, m, tryEnter_of_not_owner owned own⟩
  cases request with
  | tryEnter t =>
    obtain ⟨_ | _, m', served⟩ := tried t
    · exact .inl ⟨.refused t, m', by simp [serve, served]⟩
    · exact .inl ⟨.entered t, m', by simp [serve, served]⟩
  | enter t =>
    obtain ⟨_ | _, m', served⟩ := tried t
    · exact .inr (by simp [serve, served])
    · exact .inl ⟨.entered t, m', by simp [serve, served]⟩
  | exit t =>
    by_cases own : m.owner = some t
    · obtain ⟨m', exited⟩ := exit_of_owner level own
      exact .inl ⟨.exited t, m', by simp [serve, exited]⟩
    · exact .inl ⟨_, m, serve_exit_of_not_owner own⟩

/-! ## Histories -/

/-- A monitor with all answers it has given, the first one first. -/
structure History where
  monitor : Monitor := {}
  answers : List Answer := []
  deriving DecidableEq

namespace History

def next (h : History) (request : Request) : Except Stop History := do
  let (answer, monitor) ← h.monitor.serve request
  pure { monitor, answers := h.answers ++ [answer] }

/-- The history that requests make from a new monitor on, if each of them has an answer. -/
def after (requests : List Request) : Except Stop History :=
  requests.foldlM next {}

def enters (t : ThreadId) (h : History) : Nat := h.answers.count (.entered t)

def exits (t : ThreadId) (h : History) : Nat := h.answers.count (.exited t)

variable {h h' : History} {requests : List Request}

theorem of_next (went : h.next request = .ok h') :
    ∃ answer, Change h.monitor answer h'.monitor ∧ h'.answers = h.answers ++ [answer] := by
  unfold next at went
  cases served : h.monitor.serve request with
  | error stop => simp [served, bind, Except.bind] at went
  | ok outcome =>
    simp only [served, bind, Except.bind, pure, Except.pure, Except.ok.injEq] at went
    rw [← went]
    exact ⟨outcome.1, change_of_serve served, rfl⟩

theorem after_concat (requests : List Request) (request : Request) :
    after (requests ++ [request]) = (after requests).bind fun h => h.next request := by
  simp only [after, List.foldlM_append, List.foldlM_cons, List.foldlM_nil, bind_pure]
  rfl

theorem of_after_concat (went : after (requests ++ [request]) = .ok h') :
    ∃ h, after requests = .ok h ∧ h.next request = .ok h' := by
  rw [after_concat] at went
  cases before : after requests with
  | error stop => simp [before, Except.bind] at went
  | ok h => exact ⟨h, rfl, by simpa [before, Except.bind] using went⟩

/-- The last time that a thread acquired the free monitor.  It has owned the monitor at every point
since then, and its levels are what it has entered since then more often than exited. -/
def Tenure (requests : List Request) (h : History) (t : ThreadId) : Prop :=
  ∃ earlier first later before since,
    requests = earlier ++ first :: later ∧
      after earlier = .ok before ∧ before.monitor.owner = none ∧
      h.answers = before.answers ++ .entered t :: since ∧
      (∀ part, part <+: later →
        ∃ during, after (earlier ++ first :: part) = .ok during ∧
          during.monitor.owner = some t) ∧
      h.monitor.recursion + since.count (.exited t) = 1 + since.count (.entered t)

structure Accounts (requests : List Request) (h : History) : Prop where
  mirror : h.monitor.published = h.monitor.owner
  level : h.monitor.Level
  balance : ∀ t, h.monitor.levels t + h.exits t = h.enters t
  tenure : ∀ t, h.monitor.owner = some t → Tenure requests h t

theorem accounts_new : Accounts [] {} where
  mirror := rfl
  level := level_new
  balance _ := rfl
  tenure _ own := by simp at own

/-- A tenure goes on as long as the thread stays the owner. -/
theorem Tenure.extend (tenure : Tenure requests h t)
    (reached : after (requests ++ [request]) = .ok h')
    (change : Change h.monitor answer h'.monitor) (answers : h'.answers = h.answers ++ [answer])
    (owned : h.monitor.owner = some t) (own : h'.monitor.owner = some t) :
    Tenure (requests ++ [request]) h' t := by
  obtain ⟨earlier, first, later, before, since, split, free, unowned, answered, held, count⟩ :=
    tenure
  refine ⟨earlier, first, later ++ [request], before, since ++ [answer], by simp [split], free,
    unowned, by simp [answers, answered], fun part isPart => ?_, ?_⟩
  · rcases List.prefix_concat_iff.1 isPart with rfl | inside
    · exact ⟨h', by simpa [split] using reached, own⟩
    · exact held part inside
  · have levels := change.levels t
    simp only [Monitor.levels, if_pos owned, if_pos own] at levels
    rw [List.count_append, List.count_append]
    omega

theorem Accounts.next (accounts : Accounts requests h) (before : after requests = .ok h)
    (went : h.next request = .ok h') : Accounts (requests ++ [request]) h' := by
  have reached : after (requests ++ [request]) = .ok h' := by
    rw [after_concat, before]
    exact went
  obtain ⟨answer, change, answers⟩ := of_next went
  refine ⟨change.mirror accounts.mirror, change.level accounts.level, fun t => ?_, fun t own => ?_⟩
  · have balance := accounts.balance t
    have levels := change.levels t
    simp only [exits, enters] at balance
    rw [exits, enters, answers, List.count_append, List.count_append]
    omega
  · rcases change.of_owner own with owned | ⟨free, rfl, single⟩
    · exact (accounts.tenure t owned).extend reached change answers owned own
    · refine ⟨requests, request, [], h, [], rfl, before, free, answers, fun part isPart => ?_, ?_⟩
      · rw [List.prefix_nil.1 isPart]
        exact ⟨h', reached, own⟩
      · simpa using single

theorem accounts_of_after (went : after requests = .ok h) : Accounts requests h := by
  induction requests using List.reverseRecOn generalizing h with
  | nil =>
    obtain rfl := Except.ok.inj went
    exact accounts_new
  | append_singleton requests request ih =>
    obtain ⟨middle, before, last⟩ := of_after_concat went
    exact (ih before).next before last

theorem length_answers (went : after requests = .ok h) : h.answers.length = requests.length := by
  induction requests using List.reverseRecOn generalizing h with
  | nil =>
    obtain rfl := Except.ok.inj went
    rfl
  | append_singleton requests request ih =>
    obtain ⟨middle, before, last⟩ := of_after_concat went
    obtain ⟨answer, -, answers⟩ := of_next last
    simp [answers, ih before]

/-- At no point has a thread entered `2 ^ 32 - 1` times more often than exited, which is as far as
the counter of levels reaches. -/
def Shallow (requests : List Request) : Prop :=
  ∀ part, part <+: requests → ∀ h, after part = .ok h →
    ∀ t, h.enters t < h.exits t + (levelLimit - 1)

theorem shallow_of_length (short : requests.length < levelLimit - 1) : Shallow requests := by
  intro part isPart h went t
  have entered : h.enters t ≤ h.answers.length := List.count_le_length
  rw [length_answers went] at entered
  have shorter := isPart.length_le
  omega

theorem Shallow.room (shallow : Shallow requests) (went : after requests = .ok h) :
    h.monitor.recursion < levelLimit - 1 := by
  have accounts := accounts_of_after went
  cases owned : h.monitor.owner with
  | none =>
    rw [accounts.level.1 owned]
    decide
  | some t =>
    have balance := accounts.balance t
    have nested := shallow requests List.prefix_rfl h went t
    rw [Monitor.levels, if_pos owned] at balance
    omega

/-- Requests that nest less deep than the counter reaches are all answered, unless one of them waits
for ever. -/
theorem Shallow.after (shallow : Shallow requests) :
    (∃ h, after requests = .ok h) ∨ History.after requests = .error .waits := by
  induction requests using List.reverseRecOn with
  | nil => exact .inl ⟨{}, rfl⟩
  | append_singleton requests request ih =>
    have earlier : Shallow requests :=
      fun part isPart => shallow part (isPart.trans (List.prefix_append _ _))
    rw [after_concat]
    rcases ih earlier with ⟨h, before⟩ | waits
    · rw [before]
      rcases serve_of_room (accounts_of_after before).level (earlier.room before) request with
        ⟨answer, monitor, served⟩ | waits
      · exact .inl ⟨{ monitor, answers := h.answers ++ [answer] },
          by simp [Except.bind, next, served, bind, pure, Except.pure]⟩
      · exact .inr (by simp [Except.bind, next, waits, bind])
    · exact .inr (by simp [waits, Except.bind])

/-- What a new monitor has come to after any requests that do not nest too deep and none of which
waits for ever: its owner is the one thread that has entered more often than exited, and no other
thread gets anything from it. -/
theorem owner_has_the_levels (requests : List Request) (shallow : Shallow requests)
    (completed : History.after requests ≠ .error .waits) :
    ∃ h, History.after requests = .ok h ∧
      h.monitor.published = h.monitor.owner ∧
      (h.monitor.owner = none ↔ h.monitor.recursion = 0) ∧
      (∀ t, h.monitor.owner = some t ↔ h.exits t < h.enters t) ∧
      (∀ t, h.monitor.owner = some t →
        h.monitor.recursion + h.exits t = h.enters t ∧ Tenure requests h t) ∧
      (∀ t, h.monitor.owner ≠ some t →
        (h.monitor.owner ≠ none → h.monitor.tryEnter t = .ok (false, h.monitor)) ∧
        h.monitor.exit t = .ok (.error { thread := t, owner := h.monitor.owner }) ∧
        h.monitor.serve (.exit t) =
          .ok (.misused { thread := t, owner := h.monitor.owner }, h.monitor)) ∧
      ∀ t, ∃ outcome, h.monitor.exit t = .ok outcome := by
  obtain ⟨h, went⟩ := shallow.after.resolve_right completed
  have accounts := accounts_of_after went
  refine ⟨h, went, accounts.mirror, accounts.level, fun t => ?_, fun t own => ?_, fun t other => ?_,
    fun t => ?_⟩
  · have balance := accounts.balance t
    unfold Monitor.levels at balance
    by_cases own : h.monitor.owner = some t
    · have held : h.monitor.recursion ≠ 0 := fun none => by simp [accounts.level.2 none] at own
      rw [if_pos own] at balance
      simp only [own, true_iff]
      omega
    · rw [if_neg own] at balance
      simp only [own, false_iff]
      omega
  · have balance := accounts.balance t
    rw [Monitor.levels, if_pos own] at balance
    exact ⟨balance, accounts.tenure t own⟩
  · refine ⟨fun owned => ?_, exit_of_not_owner other, serve_exit_of_not_owner other⟩
    obtain ⟨owner, owned⟩ := Option.ne_none_iff_exists'.1 owned
    exact tryEnter_of_not_owner owned fun same => other (same ▸ owned)
  · by_cases own : h.monitor.owner = some t
    · obtain ⟨m', exited⟩ := exit_of_owner accounts.level own
      exact ⟨.ok m', exited⟩
    · exact ⟨_, exit_of_not_owner own⟩

/-- A thread enters twice while another tries in vain, and then hands the monitor over. -/
def handedOver : List Request :=
  [ .tryEnter ⟨1⟩, .enter ⟨1⟩, .tryEnter ⟨2⟩, .exit ⟨2⟩, .exit ⟨1⟩, .exit ⟨1⟩, .enter ⟨2⟩,
    .tryEnter ⟨2⟩, .exit ⟨1⟩ ]

theorem owner_has_the_levels_handed_over :
    Shallow handedOver ∧ History.after handedOver ≠ .error .waits ∧
      ∃ h, History.after handedOver = .ok h ∧ h.monitor.owner = some ⟨2⟩ ∧
        h.monitor.recursion + h.exits ⟨2⟩ = h.enters ⟨2⟩ ∧ Tenure handedOver h ⟨2⟩ ∧
        h.monitor.tryEnter ⟨1⟩ = .ok (false, h.monitor) := by
  have shallow : Shallow handedOver := shallow_of_length (by decide)
  have completed : History.after handedOver ≠ .error .waits := by decide
  obtain ⟨h, went, -, -, -, owned, foreign, -⟩ :=
    owner_has_the_levels handedOver shallow completed
  have own : h.monitor.owner = some ⟨2⟩ := by
    have outcome : (History.after handedOver).map (·.monitor.owner) = .ok (some ⟨2⟩) := by decide
    rw [went] at outcome
    exact Except.ok.inj outcome
  have other : h.monitor.owner ≠ some ⟨1⟩ := by simp [own]
  exact ⟨shallow, completed, h, went, own, (owned ⟨2⟩ own).1, (owned ⟨2⟩ own).2,
    (foreign ⟨1⟩ other).1 (by simp [own])⟩

end History

end Monitor

end NativeBoundary
