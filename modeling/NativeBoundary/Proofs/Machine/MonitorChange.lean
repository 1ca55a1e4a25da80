import NativeBoundary.Machine.Monitor

/-!
# What becomes of a monitor

A thread that tries to enter a monitor acquires it, enters it once more or is turned away; one that
exits it gives back a level, gives back the last one or is told that the monitor is not its own.
What these six cases keep is said here, and when each of them happens.
-/

set_option autoImplicit false

namespace NativeBoundary

namespace Monitor

/-! ## Answers and changes -/

inductive Answer where
  | entered (thread : ThreadId)
  | refused (thread : ThreadId)
  | exited (thread : ThreadId)
  | misused (misuse : MonitorMisuse)
  deriving DecidableEq

/-- All that a monitor can have become with an answer. -/
inductive Change (m : Monitor) : Answer → Monitor → Prop where
  | acquired (t : ThreadId) (free : m.owner = none) :
    Change m (.entered t) { owner := some t, recursion := 1, published := some t }
  | deepened (t : ThreadId) (own : m.owner = some t) :
    Change m (.entered t) { m with recursion := m.recursion + 1 }
  | refused (t owner : ThreadId) (owned : m.owner = some owner) (other : owner ≠ t) :
    Change m (.refused t) m
  | loosened (t : ThreadId) (own : m.owner = some t) (level : Nat)
    (levels : m.recursion = level + 2) : Change m (.exited t) { m with recursion := level + 1 }
  | freed (t : ThreadId) (own : m.owner = some t) (last : m.recursion = 1) :
    Change m (.exited t) {}
  | misused (t : ThreadId) (other : m.owner ≠ some t) :
    Change m (.misused { thread := t, owner := m.owner }) m

variable {m m' : Monitor} {t : ThreadId} {answer : Answer}

theorem change_of_tryEnter {entered : Bool} (tried : m.tryEnter t = .ok (entered, m')) :
    Change m (if entered then .entered t else .refused t) m' := by
  unfold tryEnter at tried
  cases owned : m.owner with
  | none =>
    simp only [owned, Except.ok.injEq, Prod.mk.injEq] at tried
    obtain ⟨rfl, rfl⟩ := tried
    exact .acquired t owned
  | some owner =>
    simp only [owned] at tried
    by_cases own : owner = t
    · subst own
      by_cases room : m.recursion + 1 < levelLimit
      · simp only [if_true, if_pos room, Except.ok.injEq, Prod.mk.injEq] at tried
        obtain ⟨rfl, rfl⟩ := tried
        rw [← owned]
        exact .deepened owner owned
      · simp [if_neg room] at tried
    · simp only [if_neg own, Except.ok.injEq, Prod.mk.injEq] at tried
      obtain ⟨rfl, rfl⟩ := tried
      exact .refused t owner owned own

theorem change_of_exit (exited : m.exit t = .ok (.ok m')) : Change m (.exited t) m' := by
  unfold exit at exited
  by_cases own : m.owner = some t
  · rw [if_pos own] at exited
    rcases levels : m.recursion with _ | _ | level
    · simp [levels] at exited
    · simp only [levels, Except.ok.injEq] at exited
      rw [← exited]
      exact .freed t own levels
    · simp only [levels, Except.ok.injEq] at exited
      rw [← exited]
      exact .loosened t own level levels
  · simp [own] at exited

/-! ## Levels -/

/-- A monitor is free exactly when it has no level. -/
def Level (monitor : Monitor) : Prop :=
  monitor.owner = none ↔ monitor.recursion = 0

theorem level_new : Level {} := by
  simp [Level]

def levels (t : ThreadId) (m : Monitor) : Nat :=
  if m.owner = some t then m.recursion else 0

namespace Change

theorem mirror (change : Change m answer m') (mirrored : m.published = m.owner) :
    m'.published = m'.owner := by
  cases change with
  | acquired | freed => rfl
  | deepened | refused | loosened | misused => exact mirrored

theorem level (change : Change m answer m') (level : m.Level) : m'.Level := by
  cases change with
  | acquired => simp [Level]
  | deepened t own => simp [Level, own]
  | loosened t own => simp [Level, own]
  | freed => exact level_new
  | refused | misused => exact level

theorem levels (change : Change m answer m') (t : ThreadId) :
    m'.levels t + [answer].count (.exited t) = m.levels t + [answer].count (.entered t) := by
  unfold Monitor.levels
  cases change with
  | acquired u free => by_cases same : u = t <;> simp [free, same]
  | deepened u own => by_cases same : u = t <;> simp [own, same]
  | loosened u own level levels => by_cases same : u = t <;> simp [own, same, levels]
  | freed u own last => by_cases same : u = t <;> simp [own, same, last]
  | refused | misused => simp

/-- The owner of a monitor owned it before, or has just acquired it. -/
theorem of_owner (change : Change m answer m') (own : m'.owner = some t) :
    m.owner = some t ∨ m.owner = none ∧ answer = .entered t ∧ m'.recursion = 1 := by
  cases change with
  | acquired u free =>
    obtain rfl : u = t := by simpa using own
    exact .inr ⟨free, rfl, rfl⟩
  | freed => simp at own
  | deepened | refused | loosened | misused => exact .inl own

end Change

theorem of_tryEnter (level : m.Level) (entered : m.tryEnter t = .ok (true, m')) :
    (m.owner = none ∨ m.owner = some t) ∧
      m'.owner = some t ∧ m'.recursion = m.recursion + 1 := by
  cases change_of_tryEnter entered with
  | acquired t free => exact ⟨.inl free, rfl, by rw [level.1 free]⟩
  | deepened t own => exact ⟨.inr own, own, rfl⟩

theorem of_exit (exited : m.exit t = .ok (.ok m')) :
    m.owner = some t ∧ m.recursion = m'.recursion + 1 ∧
      m'.owner = if m'.recursion = 0 then none else some t := by
  cases change_of_exit exited with
  | loosened t own level levels => exact ⟨own, levels, own⟩
  | freed t own last => exact ⟨own, last, rfl⟩

/-! ## Who is let in and out -/

/-- A monitor that is free, or the thread's own with room for one more level. -/
def Available (t : ThreadId) (monitor : Monitor) : Prop :=
  monitor.owner = none ∨ monitor.owner = some t ∧ monitor.recursion + 1 < levelLimit

theorem tryEnter_of_available (available : m.Available t) :
    ∃ m', m.tryEnter t = .ok (true, m') := by
  unfold tryEnter
  obtain free | ⟨own, room⟩ := available
  · rw [free]
    exact ⟨_, rfl⟩
  · simp only [own, if_true, if_pos room]
    exact ⟨_, rfl⟩

theorem exit_of_owner (level : m.Level) (own : m.owner = some t) :
    ∃ m', m.exit t = .ok (.ok m') := by
  have held : m.recursion ≠ 0 := by
    intro none
    simp [level.2 none] at own
  unfold exit
  rw [if_pos own]
  rcases levels : m.recursion with _ | _ | more
  · exact absurd levels held
  · exact ⟨_, rfl⟩
  · exact ⟨_, rfl⟩

theorem exit_of_not_owner (other : m.owner ≠ some t) :
    m.exit t = .ok (.error { thread := t, owner := m.owner }) := by
  rw [exit, if_neg other]

theorem tryEnter_of_not_owner {owner : ThreadId} (owned : m.owner = some owner)
    (other : owner ≠ t) : m.tryEnter t = .ok (false, m) := by
  simp [tryEnter, owned, other]

end Monitor

end NativeBoundary
