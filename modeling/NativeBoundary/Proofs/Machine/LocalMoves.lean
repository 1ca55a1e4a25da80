import NativeBoundary.References

/-!
# What handles lead to

A table of local references goes through three kinds of moves: a reference is added and its handle
given out, a scope is opened, the innermost scope is closed.  A handle is a position in the table,
so it can be given out again once its scope is closed.  At every moment it leads to nothing, or to
the object for which it was given out last; and what a scope has given out leads to nothing after
the scope is closed, until it is given out again.
-/

set_option autoImplicit false

namespace NativeBoundary

/-! ## Moves -/

structure ScopedTable (O : Type) where
  table : LocalTable O
  base : ScopeMark

inductive LocalMove (O : Type) where
  /-- A reference to an object is added, and a handle given out for it. -/
  | given (handle : Handle) (object : O)
  /-- A scope is opened; the mark is the base of the scope around it. -/
  | opened (saved : ScopeMark)
  /-- The innermost scope is closed, and the one around it has the given base. -/
  | closed (saved : ScopeMark)
  deriving DecidableEq

variable {O : Type}

namespace LocalMove

def after (s : ScopedTable O) : LocalMove O → ScopedTable O
  | .given _ object => { s with table := (s.table.add object).2 }
  | .opened _ => { s with base := s.table.top }
  | .closed saved => { table := s.table.truncate s.base, base := saved }

/-- The handle that is given out is the one for the top of the table, and the mark of a scope that
is opened is the base of the scope around it. -/
def Genuine (s : ScopedTable O) : LocalMove O → Prop
  | .given handle object => handle = (s.table.add object).1
  | .opened saved => saved = s.base
  | .closed _ => True

/-- A handle can name the position on top, and a mark the size of the table. -/
def Fits (s : ScopedTable O) : LocalMove O → Prop
  | .given _ _ => s.table.size + 1 < UInt64.size
  | .opened _ => s.table.size < UInt32.size
  | .closed _ => True

instance (s : ScopedTable O) (move : LocalMove O) : Decidable (move.Fits s) := by
  cases move <;> unfold Fits <;> infer_instance

/-- The object that a handle was given out for last, if what it was given out for before is known.
-/
def note (known : Handle → Option O) (move : LocalMove O) (h : Handle) : Option O :=
  match move with
  | .given handle object => if h = handle then some object else known h
  | .opened _ | .closed _ => known h

end LocalMove

inductive LocalRun : ScopedTable O → List (LocalMove O) → ScopedTable O → Prop where
  | nil (s : ScopedTable O) : LocalRun s [] s
  | cons {s s' : ScopedTable O} {move : LocalMove O} {rest : List (LocalMove O)}
      (genuine : move.Genuine s) (run : LocalRun (move.after s) rest s') :
      LocalRun s (move :: rest) s'

def FitsAll (s : ScopedTable O) : List (LocalMove O) → Prop
  | [] => True
  | move :: rest => move.Fits s ∧ FitsAll (move.after s) rest

instance decidableFitsAll : (s : ScopedTable O) → (moves : List (LocalMove O)) →
    Decidable (FitsAll s moves)
  | _, [] => isTrue trivial
  | s, move :: rest =>
    have := decidableFitsAll (move.after s) rest
    inferInstanceAs (Decidable (move.Fits s ∧ FitsAll (move.after s) rest))

def lastGiven (moves : List (LocalMove O)) : Handle → Option O :=
  moves.foldl LocalMove.note fun _ => none

/-- Moves that close the scopes that they open, each with the mark that it was opened with, and no
others. -/
inductive Balanced : List (LocalMove O) → Prop where
  | nil : Balanced []
  | given (handle : Handle) (object : O) {rest : List (LocalMove O)} (balanced : Balanced rest) :
      Balanced (.given handle object :: rest)
  | scope (saved : ScopeMark) {inside rest : List (LocalMove O)} (inner : Balanced inside)
      (balanced : Balanced rest) :
      Balanced (.opened saved :: inside ++ .closed saved :: rest)

theorem Balanced.append {first second : List (LocalMove O)} (before : Balanced first)
    (after : Balanced second) : Balanced (first ++ second) := by
  induction before with
  | nil => exact after
  | given handle object _ ih => exact .given handle object ih
  | @scope saved inside rest inner _ _ ih =>
    rw [List.append_assoc, List.cons_append, List.cons_append]
    exact .scope saved inner ih

/-! ## Runs -/

namespace LocalRun

variable {s s' s'' : ScopedTable O} {first rest : List (LocalMove O)}

theorem append (before : LocalRun s first s') (after : LocalRun s' rest s'') :
    LocalRun s (first ++ rest) s'' := by
  induction before with
  | nil => exact after
  | cons genuine _ ih => exact .cons genuine (ih after)

theorem of_append (run : LocalRun s (first ++ rest) s'') :
    ∃ s', LocalRun s first s' ∧ LocalRun s' rest s'' := by
  induction first generalizing s with
  | nil => exact ⟨s, .nil s, run⟩
  | cons move first ih =>
    cases run with
    | cons genuine run =>
      obtain ⟨s', before, after⟩ := ih run
      exact ⟨s', .cons genuine before, after⟩

theorem fitsAll_of_append (before : LocalRun s first s') (fits : FitsAll s (first ++ rest)) :
    FitsAll s first ∧ FitsAll s' rest := by
  induction before with
  | nil => exact ⟨trivial, fits⟩
  | cons _ _ ih =>
    obtain ⟨inside, after⟩ := ih fits.2
    exact ⟨⟨fits.1, inside⟩, after⟩

end LocalRun

/-! ## One move -/

/-- What is known of handles, where they lead to anything. -/
def Agrees (known : Handle → Option O) (table : LocalTable O) : Prop :=
  ∀ h found, table.get? h = some found → known h = some found

/-- Where a scope is closed over which only references have been added, the table is as it was
before the scope was opened. -/
theorem LocalMove.after_closed {s inner : ScopedTable O} (room : s.table.size < UInt32.size)
    (base : inner.base = s.table.top) (grown : s.table.entries <+: inner.table.entries)
    (saved : ScopeMark) : (LocalMove.closed saved).after inner = { s with base := saved } := by
  obtain ⟨added, grown⟩ := grown
  have whole : inner.table = ⟨s.table.entries ++ added⟩ := by rw [grown]
  rw [LocalMove.after, base, whole, LocalTable.truncate_top_append s.table added room]

theorem Agrees.after {known : Handle → Option O} {s : ScopedTable O} {move : LocalMove O}
    (agrees : Agrees known s.table) (genuine : move.Genuine s) (fits : move.Fits s) :
    Agrees (move.note known) (move.after s).table := by
  intro h found leads
  cases move with
  | given handle object =>
    have before := LocalTable.get?_of_add fits leads
    rw [LocalMove.note, show handle = (s.table.add object).1 from genuine]
    split at before
    · next last => rw [if_pos last, before]
    · next other =>
      rw [if_neg other]
      exact agrees h found before
  | opened saved => exact agrees h found leads
  | closed saved =>
    exact agrees h found (LocalTable.get?_of_prefix (s.table.truncate_prefix s.base) leads)

/-! ## Runs -/

namespace LocalRun

variable {s s' : ScopedTable O} {moves : List (LocalMove O)}

/-- Where a handle leads to anything, it leads to what it was given out for last. -/
theorem agrees (run : LocalRun s moves s') {known : Handle → Option O}
    (before : Agrees known s.table) (fits : FitsAll s moves) :
    Agrees (moves.foldl LocalMove.note known) s'.table := by
  induction run generalizing known with
  | nil => exact before
  | cons genuine _ ih => exact ih (before.after genuine fits.1) fits.2

/-- What a handle was given out for last is one of the things it was given out for, or what was
known of it before. -/
theorem of_foldl_note {known : Handle → Option O} {h : Handle} {found : O}
    (last : moves.foldl LocalMove.note known h = some found) :
    .given h found ∈ moves ∨ known h = some found := by
  induction moves generalizing known with
  | nil => exact .inr last
  | cons move rest ih =>
    rcases ih last with later | here
    · exact .inl (List.mem_cons_of_mem move later)
    · cases move with
      | given handle object =>
        rw [LocalMove.note] at here
        split at here
        · next same =>
          obtain rfl := Option.some.inj here
          rw [same]
          exact .inl List.mem_cons_self
        · exact .inr here
      | opened saved => exact .inr here
      | closed saved => exact .inr here

/-- A run through a scope, in its parts. -/
theorem of_scope {saved saved' : ScopeMark} {inside rest : List (LocalMove O)}
    (run : LocalRun s (.opened saved :: inside ++ .closed saved' :: rest) s') :
    saved = s.base ∧ ∃ inner, LocalRun ((LocalMove.opened saved).after s) inside inner ∧
      LocalRun ((LocalMove.closed saved').after inner) rest s' := by
  cases run with
  | cons genuine run =>
    obtain ⟨inner, opened, closing⟩ := of_append run
    cases closing with
    | cons _ after => exact ⟨genuine, inner, opened, after⟩

theorem fits_of_scope {saved saved' : ScopeMark} {inside rest : List (LocalMove O)}
    {inner : ScopedTable O} (opened : LocalRun ((LocalMove.opened saved).after s) inside inner)
    (fits : FitsAll s (.opened saved :: inside ++ .closed saved' :: rest)) :
    s.table.size < UInt32.size ∧ FitsAll ((LocalMove.opened saved).after s) inside ∧
      FitsAll ((LocalMove.closed saved').after inner) rest := by
  obtain ⟨room, fits⟩ := fits
  obtain ⟨inside, after⟩ := opened.fitsAll_of_append fits
  exact ⟨room, inside, after.2⟩

/-- Balanced moves leave the table of before below, and the base where it was; and the handles that
they give out are for positions above it. -/
theorem of_balanced (balanced : Balanced moves) :
    ∀ {s s' : ScopedTable O}, LocalRun s moves s' → FitsAll s moves →
      s'.base = s.base ∧ s.table.entries <+: s'.table.entries ∧
        ∀ h object, .given h object ∈ moves → ∃ i, h.index? = some i ∧ s.table.size ≤ i := by
  induction balanced with
  | nil =>
    intro s s' run _
    cases run
    exact ⟨rfl, List.prefix_rfl, fun _ _ member => nomatch member⟩
  | @given handle object rest _ ih =>
    intro s s' run fits
    cases run with
    | cons genuine run =>
      obtain ⟨base, grown, above⟩ := ih run fits.2
      refine ⟨base, ?_, fun h other member => ?_⟩
      · exact (List.prefix_append s.table.entries [object]).trans grown
      · rcases List.mem_cons.1 member with here | later
        · obtain ⟨rfl, -⟩ := LocalMove.given.inj here
          rw [show h = (s.table.add object).1 from genuine]
          exact ⟨_, LocalTable.index?_add object fits.1, Nat.le_refl _⟩
        · obtain ⟨i, index, bound⟩ := above h other later
          refine ⟨i, index, Nat.le_trans ?_ bound⟩
          simp [LocalMove.after]
  | @scope saved inside rest _ _ inner ih =>
    intro s s' run fits
    obtain ⟨genuine, between, opened, closing⟩ := of_scope run
    obtain ⟨room, fitsInside, fitsRest⟩ := fits_of_scope opened fits
    obtain ⟨base, grown, above⟩ := inner opened fitsInside
    obtain rfl : saved = s.base := genuine
    -- What follows the scope starts where the scope was opened.
    have back := LocalMove.after_closed room base grown s.base
    rw [back] at closing fitsRest
    obtain ⟨base', grown', above'⟩ := ih closing fitsRest
    refine ⟨base', grown', fun h object member => ?_⟩
    have cases : .given h object ∈ inside ∨ .given h object ∈ rest := by simpa using member
    rcases cases with early | late
    · exact above h object early
    · exact above' h object late

/-! ## Whole runs -/

theorem lastGiven_of_leads (run : LocalRun s moves s') (empty : s.table = {})
    (fits : FitsAll s moves) {h : Handle} {found : O} (leads : s'.table.get? h = some found) :
    lastGiven moves h = some found := by
  refine run.agrees (fun h found nothing => ?_) fits h found leads
  rw [empty] at nothing
  obtain ⟨i, -, entry⟩ := LocalTable.get?_eq_some_iff.1 nothing
  cases entry

/-- While only balanced moves follow, a handle leads to the object that it was given out for. -/
theorem leads_of_balanced {before after : List (LocalMove O)} {h : Handle} {object : O}
    (run : LocalRun s (before ++ .given h object :: after) s')
    (fits : FitsAll s (before ++ .given h object :: after)) (balanced : Balanced after) :
    s'.table.get? h = some object := by
  obtain ⟨s₁, ran, run⟩ := of_append run
  obtain ⟨-, room, fits⟩ := ran.fitsAll_of_append fits
  cases run with
  | cons genuine run =>
    obtain ⟨-, grown, -⟩ := of_balanced balanced run fits
    refine LocalTable.get?_of_prefix grown ?_
    rw [show h = (s₁.table.add object).1 from genuine]
    exact LocalTable.get?_add s₁.table object room

/-- Where a handle that a closed scope has given out leads to anything, it has been given out again
after the scope was closed. -/
theorem given_after_scope {before inside after : List (LocalMove O)} {saved saved' : ScopeMark}
    (run : LocalRun s (before ++ (.opened saved :: inside ++ .closed saved' :: after)) s')
    (fits : FitsAll s (before ++ (.opened saved :: inside ++ .closed saved' :: after)))
    (balanced : Balanced inside) {h : Handle} {object found : O}
    (member : .given h object ∈ inside) (leads : s'.table.get? h = some found) :
    .given h found ∈ after := by
  obtain ⟨s₁, ran, run⟩ := of_append run
  obtain ⟨-, fits⟩ := ran.fitsAll_of_append fits
  obtain ⟨-, inner, opened, closing⟩ := of_scope run
  obtain ⟨room, fitsInside, fitsAfter⟩ := fits_of_scope opened fits
  obtain ⟨base, grown, above⟩ := of_balanced balanced opened fitsInside
  rw [LocalMove.after_closed room base grown] at closing fitsAfter
  -- What is known when the scope has been closed is where handles lead then, and there this one
  -- leads nowhere.
  have known : Agrees s₁.table.get? s₁.table := fun _ _ found => found
  have last := closing.agrees known fitsAfter h found leads
  rcases of_foldl_note last with later | early
  · exact later
  · obtain ⟨i, index, outside⟩ := above h object member
    have nothing : s₁.table.get? h = none := LocalTable.get?_eq_none_of_size index outside
    rw [nothing] at early
    cases early

end LocalRun

end NativeBoundary
