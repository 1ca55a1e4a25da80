/-!
# Local references

Native code does not hold objects but handles into the calling thread's table of local references.
The table is a stack: a scope is a position in it, and closing the scope forgets every reference
from that position on.  Handles count from one, so that zero is the null handle.
-/

set_option autoImplicit false

namespace NativeBoundary

/-- A local reference as native code sees it: a word, zero for null. -/
structure Handle where
  word : UInt64
  deriving DecidableEq

def Handle.null : Handle := ⟨0⟩

def Handle.index? (h : Handle) : Option Nat :=
  if h.word = 0 then none else some (h.word.toNat - 1)

/-- A handle made from a small position leads to that position. -/
theorem Handle.index?_ofNat (position : Nat) (small : position + 1 < UInt64.size) :
    Handle.index? ⟨UInt64.ofNat (position + 1)⟩ = some position := by
  have word : (UInt64.ofNat (position + 1)).toNat = position + 1 := by
    rw [UInt64.toNat_ofNat']
    exact Nat.mod_eq_of_lt small
  have nonzero : UInt64.ofNat (position + 1) ≠ 0 := by
    intro zero
    rw [zero] at word
    simp at word
  unfold Handle.index?
  rw [if_neg nonzero, word, Nat.add_sub_cancel]

theorem Handle.word_of_index? {h : Handle} {i : Nat} (index : h.index? = some i) :
    h.word.toNat = i + 1 := by
  unfold Handle.index? at index
  split at index
  · cases index
  · next nonzero =>
    have positive : h.word.toNat ≠ 0 := by
      intro zero
      exact nonzero (UInt64.toNat_inj.1 zero)
    have value := Option.some.inj index
    omega

theorem Handle.eq_of_index? {h h' : Handle} {i : Nat} (index : h.index? = some i)
    (index' : h'.index? = some i) : h = h' := by
  have words := (word_of_index? index).trans (word_of_index? index').symm
  cases h
  cases h'
  exact congrArg Handle.mk (UInt64.toNat_inj.1 words)

/-- A position in a table of local references: how many references lie below it. -/
structure ScopeMark where
  position : UInt32
  deriving DecidableEq

def ScopeMark.bottom : ScopeMark := ⟨0⟩

/-- A table of local references, the oldest first. -/
structure LocalTable (O : Type) where
  entries : List O := []
  deriving DecidableEq

namespace LocalTable

variable {O : Type}

def size (t : LocalTable O) : Nat := t.entries.length

def add (t : LocalTable O) (object : O) : Handle × LocalTable O :=
  (⟨UInt64.ofNat (t.size + 1)⟩, ⟨t.entries ++ [object]⟩)

def get? (t : LocalTable O) (h : Handle) : Option O :=
  h.index?.bind fun index => t.entries[index]?

def top (t : LocalTable O) : ScopeMark := ⟨UInt32.ofNat t.size⟩

/-- Forgets every reference from a mark on; a mark above the top forgets nothing. -/
def truncate (t : LocalTable O) (mark : ScopeMark) : LocalTable O :=
  ⟨t.entries.take mark.position.toNat⟩

/-! ## Laws of the table -/

@[simp]
theorem get?_null (t : LocalTable O) : t.get? .null = none := rfl

@[simp]
theorem entries_add (t : LocalTable O) (object : O) :
    (t.add object).2.entries = t.entries ++ [object] := rfl

@[simp]
theorem size_add (t : LocalTable O) (object : O) : (t.add object).2.size = t.size + 1 := by
  simp [size]

theorem get?_add (t : LocalTable O) (object : O) (small : t.size + 1 < UInt64.size) :
    (t.add object).2.get? (t.add object).1 = some object := by
  have index := Handle.index?_ofNat t.size small
  unfold get?
  rw [show (t.add object).1 = ⟨UInt64.ofNat (t.size + 1)⟩ from rfl, index]
  simp [size]

theorem position_top (t : LocalTable O) (small : t.size < UInt32.size) :
    t.top.position.toNat = t.size := by
  rw [top, UInt32.toNat_ofNat']
  exact Nat.mod_eq_of_lt small

@[simp]
theorem entries_truncate (t : LocalTable O) (mark : ScopeMark) :
    (t.truncate mark).entries = t.entries.take mark.position.toNat := rfl

/-- Closing a scope in which references were added gives the table back in which it was opened. -/
theorem truncate_top_append (t : LocalTable O) (added : List O) (small : t.size < UInt32.size) :
    LocalTable.truncate ⟨t.entries ++ added⟩ t.top = t := by
  have position := t.position_top small
  cases t with
  | mk entries =>
    simp only [truncate, position, size]
    rw [List.take_left' rfl]

/-! ## What handles lead to -/

variable {t t' : LocalTable O} {h : Handle} {object : O}

theorem get?_eq_some_iff :
    t.get? h = some object ↔ ∃ i, h.index? = some i ∧ t.entries[i]? = some object := by
  unfold get?
  exact Option.bind_eq_some_iff

theorem get?_of_prefix (grown : t.entries <+: t'.entries) (found : t.get? h = some object) :
    t'.get? h = some object := by
  obtain ⟨i, index, entry⟩ := get?_eq_some_iff.1 found
  obtain ⟨more, grown⟩ := grown
  obtain ⟨inside, -⟩ := List.getElem?_eq_some_iff.1 entry
  refine get?_eq_some_iff.2 ⟨i, index, ?_⟩
  rw [← grown, List.getElem?_append_left inside]
  exact entry

theorem truncate_prefix (t : LocalTable O) (mark : ScopeMark) :
    (t.truncate mark).entries <+: t.entries := by
  rw [entries_truncate]
  exact List.take_prefix _ _

theorem index?_add (object : O) (room : t.size + 1 < UInt64.size) :
    (t.add object).1.index? = some t.size :=
  Handle.index?_ofNat t.size room

/-- After one more reference, a handle leads where it led before, or is the one given out. -/
theorem get?_of_add {found : O} (room : t.size + 1 < UInt64.size)
    (leads : (t.add object).2.get? h = some found) :
    if h = (t.add object).1 then found = object else t.get? h = some found := by
  split
  · next last =>
    rw [last, get?_add t object room] at leads
    exact (Option.some.inj leads).symm
  · next other =>
    obtain ⟨i, index, entry⟩ := get?_eq_some_iff.1 leads
    rw [entries_add, List.getElem?_append] at entry
    split at entry
    · exact get?_eq_some_iff.2 ⟨i, index, entry⟩
    · next outside =>
      -- The only position beyond the old table is the one of the handle that is given out.
      have last : i = t.size := by
        obtain ⟨inside, -⟩ := List.getElem?_eq_some_iff.1 entry
        rw [List.length_singleton] at inside
        rw [size]
        omega
      subst last
      exact absurd (Handle.eq_of_index? index (index?_add object room)) other

theorem get?_eq_none_of_size {i : Nat} (index : h.index? = some i) (outside : t.size ≤ i) :
    t.get? h = none := by
  rw [get?, index, Option.bind_some]
  exact List.getElem?_eq_none outside

end LocalTable

end NativeBoundary
