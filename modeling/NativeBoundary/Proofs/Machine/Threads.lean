import Mathlib.Data.List.Basic
import NativeBoundary.Machine.Pause

/-!
# One thread among the others

The list of attached threads, taken apart at one of them.  A change of that thread is then a change
at one place of the list, and its end takes one place out of the list, so that what is counted over
all threads changes by what that one thread contributes.
-/

set_option autoImplicit false

namespace NativeBoundary

/-! ## One entry of a list with distinct keys -/

section Keys

variable {α κ : Type} {key : α → κ} {l before after : List α} {a : α}

theorem exists_among (distinct : (l.map key).Nodup) (member : a ∈ l) :
    ∃ before after, l = before ++ a :: after ∧ ∀ b ∈ before ++ after, key b ≠ key a := by
  obtain ⟨before, after, rfl⟩ := List.append_of_mem member
  refine ⟨before, after, rfl, ?_⟩
  rw [List.map_append, List.map_cons, List.nodup_append, List.nodup_cons] at distinct
  obtain ⟨-, ⟨notAfter, -⟩, apart⟩ := distinct
  intro b member same
  rcases List.mem_append.1 member with member | member
  · exact apart (key b) (List.mem_map_of_mem member) (key a) List.mem_cons_self same
  · exact notAfter (same ▸ List.mem_map_of_mem member)

variable [DecidableEq κ] (others : ∀ b ∈ before ++ after, key b ≠ key a)
include others

theorem map_among (change : α → α) :
    (before ++ a :: after).map (fun b => if key b = key a then change b else b) =
      before ++ change a :: after := by
  have apart : ∀ part : List α, (∀ b ∈ part, key b ≠ key a) →
      part.map (fun b => if key b = key a then change b else b) = part := by
    intro part others
    refine (List.map_congr_left fun b member => ?_).trans (List.map_id part)
    simp [others b member]
  rw [List.map_append, List.map_cons, if_pos rfl,
    apart before fun b member => others b (List.mem_append_left _ member),
    apart after fun b member => others b (List.mem_append_right _ member)]

theorem filter_among :
    (before ++ a :: after).filter (fun b => decide (key b ≠ key a)) = before ++ after := by
  rw [List.filter_append, List.filter_cons_of_neg (by simp), ← List.filter_append]
  refine List.filter_eq_self.2 fun b member => ?_
  simpa using others b member

end Keys

/-! ## Threads by their numbers -/

/-- Attached threads have numbers of their own, all of them below that of the next thread. -/
structure Machine.Numbered (m : Machine) : Prop where
  distinct : (m.threads.map Thread.id).Nodup
  below : ∀ thread ∈ m.threads, thread.id.number < m.nextThread

/-- The attached threads are some, then `thread`, which has the number `t`, then others. -/
structure Machine.Among (m : Machine) (t : ThreadId) (before : List Thread) (thread : Thread)
    (after : List Thread) : Prop where
  threads : m.threads = before ++ thread :: after
  id : thread.id = t
  others : ∀ other ∈ before ++ after, other.id ≠ t

namespace Machine

variable {m m' : Machine} {t : ThreadId} {found : Thread} {before after : List Thread}

theorem mem_of_thread? (attached : m.thread? t = some found) :
    found ∈ m.threads ∧ found.id = t := by
  unfold thread? at attached
  have named := List.find?_some attached
  exact ⟨List.mem_of_find?_eq_some attached, by simpa using named⟩

theorem thread?_eq_none_iff : m.thread? t = none ↔ ∀ thread ∈ m.threads, thread.id ≠ t := by
  simp [thread?]

theorem Numbered.among (numbered : m.Numbered) (attached : found ∈ m.threads) :
    ∃ before after, m.Among found.id before found after := by
  obtain ⟨before, after, threads, others⟩ := exists_among numbered.distinct attached
  exact ⟨before, after, threads, rfl, others⟩

theorem Numbered.of_sublist (numbered : m.Numbered)
    (ids : (m'.threads.map Thread.id).Sublist (m.threads.map Thread.id))
    (next : m'.nextThread = m.nextThread) : m'.Numbered where
  distinct := numbered.distinct.sublist ids
  below := by
    intro thread attached
    have named := ids.subset (List.mem_map_of_mem attached)
    obtain ⟨old, member, same⟩ := List.mem_map.1 named
    rw [← same, next]
    exact numbered.below old member

theorem Numbered.enrol (numbered : m.Numbered) (name : String) : (m.enrol name).2.Numbered where
  distinct := by
    change ((m.threads ++ [_]).map Thread.id).Nodup
    rw [List.map_append, List.nodup_append]
    refine ⟨numbered.distinct, by simp, ?_⟩
    intro old member new fresh same
    obtain ⟨thread, attached, rfl⟩ := List.mem_map.1 member
    obtain rfl := List.mem_singleton.1 fresh
    have below := numbered.below thread attached
    rw [same] at below
    exact Nat.lt_irrefl _ below
  below := by
    intro thread attached
    rcases List.mem_append.1 attached with attached | attached
    · exact Nat.lt_succ_of_lt (numbered.below thread attached)
    · obtain rfl := List.mem_singleton.1 attached
      exact Nat.lt_succ_self _

theorem Numbered.fresh (numbered : m.Numbered) : m.thread? ⟨m.nextThread⟩ = none := by
  refine List.find?_eq_none.2 fun thread attached => ?_
  have below := numbered.below thread attached
  simp only [decide_eq_true_eq]
  intro same
  rw [same] at below
  exact Nat.lt_irrefl _ below

namespace Among

theorem thread? (among : m.Among t before found after) : m.thread? t = some found := by
  unfold Machine.thread?
  rw [among.threads, List.find?_append]
  have none : before.find? (fun other => decide (other.id = t)) = none := by
    refine List.find?_eq_none.2 fun other member => ?_
    simpa using among.others other (List.mem_append_left _ member)
  simp [none, among.id]

theorem thread (among : m.Among t before found after) : m.thread t = found := by
  rw [Machine.thread, among.thread?]
  rfl

theorem onHeap (among : m.Among t before found after) (heap : Heap) :
    { m with heap }.Among t before found after :=
  ⟨among.threads, among.id, among.others⟩

theorem updateThread (among : m.Among t before found after) (change : Thread → Thread)
    (keeps : (change found).id = found.id) :
    (m.updateThread t change).Among t before (change found) after := by
  obtain ⟨threads, rfl, others⟩ := among
  refine ⟨?_, keeps, others⟩
  rw [← map_among others change, ← threads]
  rfl

theorem dismiss (among : m.Among t before found after) :
    (m.dismiss t).threads = before ++ after := by
  obtain ⟨threads, rfl, others⟩ := among
  rw [← filter_among others, ← threads]
  rfl

end Among

end Machine

end NativeBoundary
