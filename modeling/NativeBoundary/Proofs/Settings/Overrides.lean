import Mathlib.Data.List.Forall2
import NativeBoundary.Settings.Basic

/-!
# Settings with variables applied

A variable that is defined decides its setting, the trace filter also that tracing is on, and all
other settings stay.  Settings that come out can be honoured and are their own outcome when the same
variables are applied again.  They fail to come out exactly if a variable has no value of its kind or
tracing would be on with nothing to match; the first such reason is the one that is told.
-/

set_option autoImplicit false

namespace NativeBoundary

/-! ## Spellings -/

def alphabet : List (Char × Char) :=
  "ABCDEFGHIJKLMNOPQRSTUVWXYZ".toList.zip "abcdefghijklmnopqrstuvwxyz".toList

/-- Two characters are the same, or the two forms of one ASCII letter. -/
def SameLetter (c d : Char) : Prop :=
  c = d ∨ (c, d) ∈ alphabet ∨ (d, c) ∈ alphabet

/-- A text is a word but for the case of ASCII letters. -/
def Spells (text word : String) : Prop :=
  List.Forall₂ SameLetter text.toList word.toList

theorem toLower_of_alphabet {c d : Char} (listed : (c, d) ∈ alphabet) :
    c.toLower = d ∧ d.toLower = d := by
  have folded : ∀ pair ∈ alphabet, pair.1.toLower = pair.2 ∧ pair.2.toLower = pair.2 := by
    decide +kernel
  exact folded (c, d) listed

theorem toLower_cases (c : Char) : c.toLower = c ∨ (c, c.toLower) ∈ alphabet := by
  by_cases capital : 'A'.val ≤ c.val ∧ c.val ≤ 'Z'.val
  · right
    have letters : ∀ n < 91, 65 ≤ n → (Char.ofNat n, (Char.ofNat n).toLower) ∈ alphabet := by
      decide +kernel
    obtain ⟨above, below⟩ := capital
    have listed := letters c.toNat (Nat.lt_succ_of_le (UInt32.le_iff_toNat_le.1 below))
      (UInt32.le_iff_toNat_le.1 above)
    rwa [Char.ofNat_toNat] at listed
  · left
    exact dif_neg capital

theorem sameLetter_iff {c d : Char} : SameLetter c d ↔ c.toLower = d.toLower := by
  constructor
  · rintro (rfl | listed | listed)
    · rfl
    · rw [(toLower_of_alphabet listed).1, (toLower_of_alphabet listed).2]
    · rw [(toLower_of_alphabet listed).1, (toLower_of_alphabet listed).2]
  · intro same
    rcases toLower_cases c with small | capital <;> rcases toLower_cases d with small' | capital'
    · exact .inl (by rw [← small, ← small', same])
    · exact .inr (.inr (by rwa [← same, small] at capital'))
    · exact .inr (.inl (by rwa [same, small'] at capital))
    · have apart : ∀ first ∈ alphabet, ∀ second ∈ alphabet, first.2 = second.2 →
          first.1 = second.1 := by
        decide +kernel
      exact .inl (apart _ capital _ capital' same)

/-- To spell a word of small letters is to be it once capitals are made small. -/
theorem spells_iff {text word : String} (small : foldCase word = word) :
    Spells text word ↔ foldCase text = word := by
  have letters : Spells text word ↔
      text.toList.map Char.toLower = word.toList.map Char.toLower := by
    have relation : SameLetter = fun c d => c.toLower = d.toLower := by
      funext c d
      exact propext sameLetter_iff
    rw [← List.forall₂_eq_eq_eq, List.forall₂_map_left_iff, List.forall₂_map_right_iff, Spells,
      relation]
  rw [letters, ← String.ofList_inj]
  change foldCase text = foldCase word ↔ foldCase text = word
  rw [small]

/-! ## Values of one variable -/

def flagWords : Bool → List String
  | true => ["1", "true", "yes", "on"]
  | false => ["0", "false", "no", "off"]

def SpellsFlag (text : String) (flag : Bool) : Prop :=
  ∃ word ∈ flagWords flag, Spells text word

def conventionWords : FloatReturn → List String
  | .native => ["native"]
  | .widened => ["x87-widened", "x87", "widened"]

def NamesConvention (text : String) (convention : FloatReturn) : Prop :=
  ∃ word ∈ conventionWords convention, Spells text word

theorem exists_spells_iff {text : String} {words : List String}
    (small : ∀ word ∈ words, foldCase word = word) :
    (∃ word ∈ words, Spells text word) ↔ foldCase text ∈ words := by
  constructor
  · rintro ⟨word, listed, spells⟩
    rw [(spells_iff (small word listed)).1 spells]
    exact listed
  · intro listed
    exact ⟨_, listed, (spells_iff (small _ listed)).2 rfl⟩

theorem spellsFlag_iff {text : String} {flag : Bool} :
    SpellsFlag text flag ↔ foldCase text ∈ flagWords flag := by
  refine exists_spells_iff ?_
  cases flag <;> decide +kernel

theorem namesConvention_iff {text : String} {convention : FloatReturn} :
    NamesConvention text convention ↔ foldCase text ∈ conventionWords convention := by
  refine exists_spells_iff ?_
  cases convention <;> decide +kernel

theorem parseFlag?_eq_some_iff {text : String} {flag : Bool} :
    parseFlag? text = some flag ↔ SpellsFlag text flag := by
  have apart : ∀ word ∈ flagWords true, word ∉ flagWords false := by decide
  rw [spellsFlag_iff]
  change (if foldCase text ∈ flagWords true then some true
    else if foldCase text ∈ flagWords false then some false else none) = some flag ↔ _
  by_cases yes : foldCase text ∈ flagWords true
  · cases flag with
    | true => simp [yes]
    | false => simp [yes, apart _ yes]
  · cases flag with
    | true => simp [yes]
    | false => simp [yes]

theorem parse?_eq_some_iff {text : String} {convention : FloatReturn} :
    FloatReturn.parse? text = some convention ↔ NamesConvention text convention := by
  have apart : "native" ∉ conventionWords .widened := by decide
  rw [namesConvention_iff]
  change (if foldCase text = "native" then some .native
    else if foldCase text ∈ conventionWords .widened then some .widened else none) =
      some convention ↔ _
  by_cases native : foldCase text = "native"
  · cases convention with
    | native => simp [native, conventionWords]
    | widened => simp [native, apart]
  · cases convention with
    | native => simp [native, conventionWords]
    | widened => simp [native]

/-- What becomes of a setting: the meaning of the variable's value, or what it was where the variable
is not defined. -/
def Takes {α : Type} (means : String → α → Prop) (value : Option String) (before after : α) : Prop :=
  match value with
  | none => after = before
  | some text => means text after

/-- A variable that is defined has a value with a meaning. -/
def Meaningful {α : Type} (means : String → α → Prop) (value : Option String) : Prop :=
  ∀ text, value = some text → ∃ meaning, means text meaning

section Variable

variable {α : Type} {means : String → α → Prop} {value : Option String} {before after : α}

theorem Takes.again (takes : Takes means value before after) : Takes means value after after := by
  cases value with
  | none => rfl
  | some text => exact takes

theorem Takes.meaningful (takes : Takes means value before after) : Meaningful means value := by
  rintro text rfl
  exact ⟨after, takes⟩

def readOr (parse : String → Option α) (reject : String → Rejection) (value : Option String)
    (default : α) : Except Rejection α :=
  match value with
  | none => .ok default
  | some text =>
    match parse text with
    | some meaning => .ok meaning
    | none => .error (reject text)

variable {parse : String → Option α} {reject : String → Rejection}
  (parses : ∀ text meaning, parse text = some meaning ↔ means text meaning)
include parses

theorem readOr_eq_ok_iff : readOr parse reject value before = .ok after ↔
    Takes means value before after := by
  cases value with
  | none => simp [readOr, Takes, eq_comm]
  | some text =>
    rw [Takes, ← parses, readOr]
    cases parse text <;> simp

theorem readOr_eq_error_iff {why : Rejection} : readOr parse reject value before = .error why ↔
    ∃ text, value = some text ∧ (¬ ∃ meaning, means text meaning) ∧ why = reject text := by
  cases value with
  | none => simp [readOr]
  | some text =>
    simp only [← parses]
    cases parsed : parse text <;> simp [readOr, parsed, eq_comm]

end Variable

theorem exists_takes_iff {α : Type} {means : String → α → Prop} {value : Option String}
    {before : α} : (∃ after, Takes means value before after) ↔ Meaningful means value := by
  constructor
  · rintro ⟨after, takes⟩
    exact takes.meaningful
  · intro meaningful
    cases value with
    | none => exact ⟨before, rfl⟩
    | some text => exact meaningful text rfl

/-! ## All settings -/

/-- Tracing is on with nothing to match. -/
def TraceSettings.LacksFilter (trace : TraceSettings) : Prop :=
  trace.enabled = true ∧ (trace.filter = none ∨ trace.filter = some "")

def TracesBy (text : String) (trace : TraceSettings) : Prop :=
  trace = { enabled := true, filter := some text }

namespace Settings

variable {lookup : String → Option String} {s merged : Settings} {why : Rejection}

/-- Each setting is what its variable says, or what it was where the variable is not defined. -/
structure Merged (lookup : String → Option String) (s merged : Settings) : Prop where
  checked : Takes SpellsFlag (lookup checkedVariable) s.checked merged.checked
  verifyTiers : Takes SpellsFlag (lookup verifyTiersVariable) s.verifyTiers merged.verifyTiers
  floatReturn :
    Takes NamesConvention (lookup floatReturnVariable) s.floatReturn merged.floatReturn
  trace : Takes TracesBy (lookup traceFilterVariable) s.trace merged.trace

/-- The first reason against applying variables, in the order of the settings. -/
inductive FirstOffence (lookup : String → Option String) (s : Settings) : Rejection → Prop where
  | checked (text : String) (defined : lookup checkedVariable = some text)
      (offends : ¬ ∃ flag, SpellsFlag text flag) :
      FirstOffence lookup s (.notBoolean checkedVariable text)
  | verifyTiers (text : String) (checked : Meaningful SpellsFlag (lookup checkedVariable))
      (defined : lookup verifyTiersVariable = some text)
      (offends : ¬ ∃ flag, SpellsFlag text flag) :
      FirstOffence lookup s (.notBoolean verifyTiersVariable text)
  | floatReturn (text : String) (checked : Meaningful SpellsFlag (lookup checkedVariable))
      (verifyTiers : Meaningful SpellsFlag (lookup verifyTiersVariable))
      (defined : lookup floatReturnVariable = some text)
      (offends : ¬ ∃ convention, NamesConvention text convention) :
      FirstOffence lookup s (.notFloatReturn floatReturnVariable text)
  | trace (trace : TraceSettings) (checked : Meaningful SpellsFlag (lookup checkedVariable))
      (verifyTiers : Meaningful SpellsFlag (lookup verifyTiersVariable))
      (floatReturn : Meaningful NamesConvention (lookup floatReturnVariable))
      (takes : Takes TracesBy (lookup traceFilterVariable) s.trace trace)
      (offends : trace.LacksFilter) : FirstOffence lookup s .emptyFilter

theorem Merged.again (merges : Merged lookup s merged) : Merged lookup merged merged where
  checked := merges.checked.again
  verifyTiers := merges.verifyTiers.again
  floatReturn := merges.floatReturn.again
  trace := merges.trace.again

/-! ### The parts of applying variables -/

section Sequence

variable {α β : Type} {x : Except Rejection α} {f : α → Except Rejection β}

theorem bind_eq_ok_iff {b : β} : x >>= f = .ok b ↔ ∃ a, x = .ok a ∧ f a = .ok b := by
  cases x <;> simp [bind, Except.bind]

theorem bind_eq_error_iff :
    x >>= f = .error why ↔ x = .error why ∨ ∃ a, x = .ok a ∧ f a = .error why := by
  cases x <;> simp [bind, Except.bind]

end Sequence

theorem flagOr_eq_readOr (variableName : String) (before : Bool) :
    flagOr lookup variableName before =
      readOr parseFlag? (.notBoolean variableName) (lookup variableName) before := by
  unfold flagOr readOr
  cases lookup variableName with
  | none => rfl
  | some text =>
    dsimp only
    cases parseFlag? text <;> rfl

theorem floatReturnOr_eq_readOr (variableName : String) (before : FloatReturn) :
    floatReturnOr lookup variableName before =
      readOr FloatReturn.parse? (.notFloatReturn variableName) (lookup variableName) before := by
  unfold floatReturnOr readOr
  cases lookup variableName with
  | none => rfl
  | some text =>
    dsimp only
    cases FloatReturn.parse? text <;> rfl

theorem flagOr_eq_ok_iff {variableName : String} {before after : Bool} :
    flagOr lookup variableName before = .ok after ↔
      Takes SpellsFlag (lookup variableName) before after := by
  rw [flagOr_eq_readOr]
  exact readOr_eq_ok_iff fun _ _ => parseFlag?_eq_some_iff

theorem flagOr_eq_error_iff {variableName : String} {before : Bool} :
    flagOr lookup variableName before = .error why ↔ ∃ text, lookup variableName = some text ∧
      (¬ ∃ flag, SpellsFlag text flag) ∧ why = .notBoolean variableName text := by
  rw [flagOr_eq_readOr]
  exact readOr_eq_error_iff fun _ _ => parseFlag?_eq_some_iff

theorem floatReturnOr_eq_ok_iff {variableName : String} {before after : FloatReturn} :
    floatReturnOr lookup variableName before = .ok after ↔
      Takes NamesConvention (lookup variableName) before after := by
  rw [floatReturnOr_eq_readOr]
  exact readOr_eq_ok_iff fun _ _ => parse?_eq_some_iff

theorem floatReturnOr_eq_error_iff {variableName : String} {before : FloatReturn} :
    floatReturnOr lookup variableName before = .error why ↔
      ∃ text, lookup variableName = some text ∧ (¬ ∃ convention, NamesConvention text convention) ∧
        why = .notFloatReturn variableName text := by
  rw [floatReturnOr_eq_readOr]
  exact readOr_eq_error_iff fun _ _ => parse?_eq_some_iff

theorem takes_traceOr_iff {before after : TraceSettings} :
    Takes TracesBy (lookup traceFilterVariable) before after ↔ after = traceOr lookup before := by
  unfold traceOr
  cases lookup traceFilterVariable <;> exact Iff.rfl

theorem isValid_iff : s.isValid = true ↔ ¬ s.trace.LacksFilter := by
  unfold isValid TraceSettings.LacksFilter
  cases s.trace.enabled <;> cases s.trace.filter <;> simp

theorem validate_eq_ok_iff : s.validate = .ok merged ↔ s = merged ∧ ¬ merged.trace.LacksFilter := by
  rw [validate]
  split
  · next valid =>
    rw [isValid_iff] at valid
    simp only [Except.ok.injEq, iff_self_and]
    rintro rfl
    exact valid
  · next invalid =>
    rw [isValid_iff] at invalid
    simp only [reduceCtorEq, false_iff, not_and]
    rintro rfl
    exact invalid

theorem validate_eq_error_iff :
    s.validate = .error why ↔ why = .emptyFilter ∧ s.trace.LacksFilter := by
  rw [validate]
  split
  · next valid =>
    rw [isValid_iff] at valid
    simp [valid]
  · next invalid =>
    rw [isValid_iff, not_not] at invalid
    simp [invalid, eq_comm]

/-! ### What comes of it -/

theorem override_eq_ok_iff :
    s.override lookup = .ok merged ↔ Merged lookup s merged ∧ ¬ merged.trace.LacksFilter := by
  simp only [override, bind_eq_ok_iff, flagOr_eq_ok_iff, floatReturnOr_eq_ok_iff,
    validate_eq_ok_iff]
  constructor
  · rintro ⟨checked, takesChecked, verifyTiers, takesTiers, floatReturn, takesFloat, rfl, filtered⟩
    exact ⟨⟨takesChecked, takesTiers, takesFloat, takes_traceOr_iff.2 rfl⟩, filtered⟩
  · rintro ⟨merges, filtered⟩
    refine ⟨_, merges.checked, _, merges.verifyTiers, _, merges.floatReturn, ?_, filtered⟩
    rw [← takes_traceOr_iff.1 merges.trace]

theorem override_eq_error_iff : s.override lookup = .error why ↔ FirstOffence lookup s why := by
  simp only [override, bind_eq_error_iff, flagOr_eq_ok_iff, flagOr_eq_error_iff,
    floatReturnOr_eq_ok_iff, floatReturnOr_eq_error_iff, validate_eq_error_iff]
  constructor
  · rintro (⟨text, defined, offends, rfl⟩ | ⟨checked, takesChecked, rest⟩)
    · exact .checked text defined offends
    rcases rest with ⟨text, defined, offends, rfl⟩ | ⟨verifyTiers, takesTiers, rest⟩
    · exact .verifyTiers text takesChecked.meaningful defined offends
    rcases rest with ⟨text, defined, offends, rfl⟩ | ⟨floatReturn, takesFloat, rfl, lacks⟩
    · exact .floatReturn text takesChecked.meaningful takesTiers.meaningful defined offends
    · exact .trace _ takesChecked.meaningful takesTiers.meaningful takesFloat.meaningful
        (takes_traceOr_iff.2 rfl) lacks
  · rintro (⟨text, defined, offends⟩ | ⟨text, checked, defined, offends⟩ |
      ⟨text, checked, verifyTiers, defined, offends⟩ |
      ⟨trace, checked, verifyTiers, floatReturn, takes, lacks⟩)
    · exact .inl ⟨text, defined, offends, rfl⟩
    · obtain ⟨_, takesChecked⟩ := exists_takes_iff.2 checked
      exact .inr ⟨_, takesChecked, .inl ⟨text, defined, offends, rfl⟩⟩
    · obtain ⟨_, takesChecked⟩ := exists_takes_iff.2 checked
      obtain ⟨_, takesTiers⟩ := exists_takes_iff.2 verifyTiers
      exact .inr ⟨_, takesChecked, .inr ⟨_, takesTiers, .inl ⟨text, defined, offends, rfl⟩⟩⟩
    · obtain ⟨_, takesChecked⟩ := exists_takes_iff.2 checked
      obtain ⟨_, takesTiers⟩ := exists_takes_iff.2 verifyTiers
      obtain ⟨_, takesFloat⟩ := exists_takes_iff.2 floatReturn
      obtain rfl := takes_traceOr_iff.1 takes
      exact .inr ⟨_, takesChecked, .inr ⟨_, takesTiers, .inr ⟨_, takesFloat, rfl, lacks⟩⟩⟩

/-- Variables can be applied to settings exactly if each one that is defined has a value of its kind
and tracing does not come out on with nothing to match.  Then every setting is what its variable says
or what it was, the outcome can be honoured, and the same variables leave it as it is; otherwise the
first offending variable is told, or the missing filter if no variable offends. -/
theorem override_merges_or_tells_first_offence (s : Settings) (lookup : String → Option String) :
    ((∃ merged, s.override lookup = .ok merged) ↔
      Meaningful SpellsFlag (lookup checkedVariable) ∧
      Meaningful SpellsFlag (lookup verifyTiersVariable) ∧
      Meaningful NamesConvention (lookup floatReturnVariable) ∧
      ∃ trace, Takes TracesBy (lookup traceFilterVariable) s.trace trace ∧ ¬ trace.LacksFilter) ∧
    (∀ merged, s.override lookup = .ok merged →
      Merged lookup s merged ∧ merged.validate = .ok merged ∧
        merged.override lookup = .ok merged) ∧
    ∀ why, s.override lookup = .error why ↔ FirstOffence lookup s why := by
  refine ⟨?_, fun merged applied => ?_, fun why => override_eq_error_iff⟩
  · constructor
    · rintro ⟨merged, applied⟩
      obtain ⟨merges, filtered⟩ := override_eq_ok_iff.1 applied
      exact ⟨merges.checked.meaningful, merges.verifyTiers.meaningful,
        merges.floatReturn.meaningful, merged.trace, merges.trace, filtered⟩
    · rintro ⟨meansFlag, meansFlag', meansConvention, trace, takesTrace, filtered⟩
      obtain ⟨checked, takesChecked⟩ := exists_takes_iff.2 meansFlag
      obtain ⟨verifyTiers, takesTiers⟩ := exists_takes_iff.2 meansFlag'
      obtain ⟨floatReturn, takesFloat⟩ := exists_takes_iff.2 meansConvention
      have merges : Merged lookup s { checked, verifyTiers, floatReturn, trace } :=
        ⟨takesChecked, takesTiers, takesFloat, takesTrace⟩
      exact ⟨_, override_eq_ok_iff.2 ⟨merges, filtered⟩⟩
  · obtain ⟨merges, filtered⟩ := override_eq_ok_iff.1 applied
    exact ⟨merges, validate_eq_ok_iff.2 ⟨rfl, filtered⟩,
      override_eq_ok_iff.2 ⟨merges.again, filtered⟩⟩

def traceAll : Settings where
  trace := { enabled := true }

def mending (first : List (String × String)) (name : String) : Option String :=
  (first ++ [(checkedVariable, "YES"), (verifyTiersVariable, "oFf"), (floatReturnVariable, "X87"),
    (traceFilterVariable, "Native.read")]).lookup name

theorem override_merges_or_tells_first_offence_mended :
    (∃ merged, traceAll.override (mending []) = .ok merged ∧
      merged.override (mending []) = .ok merged ∧ merged.validate = .ok merged) ∧
    FirstOffence (mending [(verifyTiersVariable, "maybe"), (floatReturnVariable, "sse")]) traceAll
      (.notBoolean verifyTiersVariable "maybe") ∧
    FirstOffence (mending [(traceFilterVariable, "")]) traceAll .emptyFilter := by
  have told (first : List (String × String)) :=
    (override_merges_or_tells_first_offence traceAll (mending first)).2.2
  have mended : traceAll.override (mending []) = .ok
      { checked := true, verifyTiers := false, floatReturn := .widened
        trace := { enabled := true, filter := some "Native.read" } } := by
    decide +kernel
  obtain ⟨-, valid, again⟩ :=
    (override_merges_or_tells_first_offence traceAll (mending [])).2.1 _ mended
  refine ⟨⟨_, mended, again, valid⟩, (told _ _).1 ?_, (told _ _).1 ?_⟩
  · decide +kernel
  · decide +kernel

end Settings

end NativeBoundary
