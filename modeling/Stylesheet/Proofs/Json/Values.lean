import Stylesheet.Proofs.Json.Scalars

/-!
# Reading what is written: values

A value whose numbers are all integers is read from the text that it is written as, in
every layout. What is read before it decides only where the value is put.
-/

namespace Stylesheet
namespace Json

mutual

/-- Whether all numbers in a value are integers. -/
def IsWhole : Json → Prop
  | decimal _ => False
  | array items => AreWhole items
  | object fields => FieldsAreWhole fields
  | _ => True

def AreWhole : List Json → Prop
  | [] => True
  | item :: items => IsWhole item ∧ AreWhole items

def FieldsAreWhole : List (Text × Json) → Prop
  | [] => True
  | (_, value) :: fields => IsWhole value ∧ FieldsAreWhole fields

end

/-- Where a value may stand, inside the open arrays and objects of `outer`. The first item
of an array stands where the array might be closed at once. -/
inductive Progress.Awaits : Progress → List Frame → Prop
  | value (outer : List Frame) : Awaits (.value outer) outer
  | item (outer : List Frame) : Awaits (.itemOrClose outer) (.array [] :: outer)

variable {progress : Progress} {outer : List Frame} {reader : Reader} {rest : Text}

namespace Progress.Awaits

theorem scalar (awaits : progress.Awaits outer) (value : Json) :
    progress.step (.scalar value) = some (finish value outer) := by
  cases awaits <;> rfl

theorem openArray (awaits : progress.Awaits outer) :
    progress.step .openArray = some (.itemOrClose outer) := by
  cases awaits <;> rfl

theorem openObject (awaits : progress.Awaits outer) :
    progress.step .openObject = some (.keyOrClose outer) := by
  cases awaits <;> rfl

end Progress.Awaits

namespace Reader

/-! ## Layouts -/

theorem readAll?_spaces (count : Nat) :
    (between progress).readAll? (List.replicate count ' ' ++ rest) =
      (between progress).readAll? rest := by
  induction count with
  | zero => rfl
  | succ count induction => exact induction

theorem readAll?_margin (layout : Layout) (level : Nat) :
    (between progress).readAll? (layout.margin level ++ rest) =
      (between progress).readAll? rest := by
  cases layout with
  | compact => rfl
  | lines width => exact readAll?_spaces _

/-- A margin ends the word in front of it, and so does what comes behind the margin. -/
theorem Holds.readAll?_margin (holds : reader.Holds progress) (layout : Layout) (level : Nat)
    {character : Char} (ends : endsWord character = true) :
    reader.readAll? (layout.margin level ++ character :: rest) =
      (between progress).readAll? (character :: rest) := by
  rw [← Reader.readAll?_margin layout level]
  cases layout with
  | compact => exact holds.readAll?_eq ends rest
  | lines width => exact holds.readAll?_eq (by decide) _

/-- Between two items stands a comma. -/
theorem Holds.readAll?_separator (holds : reader.Holds progress) (layout : Layout) (level : Nat)
    {next : Progress} (taken : progress.step .comma = some next) :
    reader.readAll? (layout.separator level ++ rest) = (between next).readAll? rest := by
  have comma : (between progress).step ',' = some (between next) := by
    simp [step, between, Lexing.step, Lexing.start, isSpace, punctuation?, taken]
  cases layout with
  | compact =>
      rw [Layout.separator, List.cons_append, holds.readAll?_eq (by decide), readAll?_cons, comma]
      rfl
  | lines width =>
      rw [Layout.separator, List.cons_append, holds.readAll?_eq (by decide), readAll?_cons, comma]
      exact Reader.readAll?_margin (.lines width) level

/-- A punctuation character is a lexeme by itself. -/
theorem readAll?_punctuation {character : Char} {lexeme : Lexeme} {next : Progress}
    (isPunctuation : punctuation? character = some lexeme)
    (notSpace : isSpace character = false) (notQuote : character ≠ '"')
    (taken : progress.step lexeme = some next) :
    (between progress).readAll? (character :: rest) = (between next).readAll? rest := by
  simp [readAll?_cons, step, between, Lexing.step, Lexing.start, notSpace, notQuote,
    isPunctuation, taken]

/-- The name of a field is read up to its value. -/
theorem readAll?_name {fields : List (Text × Json)} {name : Text}
    (taken : progress.step (.scalar (.string name)) = some (.afterKey outer fields name)) :
    (between progress).readAll? (printString name ++ ':' :: ' ' :: rest) =
      (between (.value (.object fields name :: outer))).readAll? rest := by
  have colon := @readAll?_punctuation (.afterKey outer fields name) (' ' :: rest) ':' .colon
    (.value (.object fields name :: outer)) rfl rfl (by decide) rfl
  rw [readAll?_printString, taken, Option.bind_some, colon]
  rfl

/-! ## Values -/

mutual

/-- A value is read where one may stand. -/
theorem exists_readAll?_printAt (layout : Layout) :
    (value : Json) → value.IsWhole → (level : Nat) → (progress : Progress) →
      (outer : List Frame) → progress.Awaits outer →
        ∃ later, (between progress).readAll? (printAt layout level value) = some later ∧
          later.Holds (.finish value outer)
  | .null, _, _, _, _, awaits =>
      exists_of_word "null".toList rfl (by decide) rfl (awaits.scalar _)
  | .boolean true, _, _, _, _, awaits =>
      exists_of_word "true".toList rfl (by decide) rfl (awaits.scalar _)
  | .boolean false, _, _, _, _, awaits =>
      exists_of_word "false".toList rfl (by decide) rfl (awaits.scalar _)
  | .integer value, _, _, _, _, awaits =>
      exists_of_word _ (word?_ofInt value) (ofInt_ne_nil value) (any_endsWord_ofInt value)
        (awaits.scalar _)
  | .string text, _, _, progress, _, awaits => by
      have read := @readAll?_printString progress [] text
      rw [List.append_nil, awaits.scalar] at read
      exact ⟨_, read, .finished _⟩
  | .array [], _, _, progress, _, awaits =>
      ⟨_, @readAll?_punctuation progress [']'] '[' .openArray _ rfl rfl (by decide)
        awaits.openArray, .finished _⟩
  | .array (item :: items), whole, level, _, outer, awaits => by
      obtain ⟨reader, first, holds⟩ := exists_readAll?_printAt layout item whole.1 (level + 1)
        (.itemOrClose outer) (.array [] :: outer) (.item outer)
      have others := readAll?_printItems layout items whole.2 (level + 1) level reader outer [item]
        holds
      refine ⟨_, ?_, .finished _⟩
      rw [printAt]
      simp only [List.append_assoc, List.cons_append]
      rw [readAll?_punctuation rfl rfl (by decide) awaits.openArray, readAll?_margin,
        readAll?_append, first, Option.bind_some]
      exact others
  | .object [], _, _, progress, _, awaits =>
      ⟨_, @readAll?_punctuation progress ['\x7d'] '\x7b' .openObject _ rfl rfl (by decide)
        awaits.openObject, .finished _⟩
  | .object ((name, value) :: fields), whole, level, _, outer, awaits => by
      obtain ⟨reader, first, holds⟩ := exists_readAll?_printAt layout value whole.1 (level + 1)
        (.value (.object [] name :: outer)) (.object [] name :: outer) (.value _)
      have others := readAll?_printFields layout fields whole.2 (level + 1) level reader outer
        [(name, value)] holds
      refine ⟨_, ?_, .finished _⟩
      rw [printAt]
      simp only [List.append_assoc, List.cons_append, List.nil_append]
      rw [readAll?_punctuation rfl rfl (by decide) awaits.openObject, readAll?_margin,
        readAll?_name rfl, readAll?_append, first, Option.bind_some]
      exact others

theorem readAll?_printItems (layout : Layout) :
    (items : List Json) → AreWhole items → (level outerLevel : Nat) → (reader : Reader) →
      (outer : List Frame) → (reversed : List Json) →
        reader.Holds (.afterItem outer reversed) →
          reader.readAll? (printItems layout level items ++ (layout.margin outerLevel ++ [']'])) =
            some (between (.finish (.array (reversed.reverse ++ items)) outer))
  | [], _, _, outerLevel, reader, outer, reversed, holds => by
      rw [printItems, List.nil_append, holds.readAll?_margin layout outerLevel (by decide),
        @readAll?_punctuation _ _ _ .closeArray _ rfl rfl (by decide) rfl, List.append_nil]
      rfl
  | item :: items, whole, level, outerLevel, reader, outer, reversed, holds => by
      obtain ⟨later, next, laterHolds⟩ := exists_readAll?_printAt layout item whole.1 level
        (.value (.array reversed :: outer)) (.array reversed :: outer) (.value _)
      have others := readAll?_printItems layout items whole.2 level outerLevel later outer
        (item :: reversed) laterHolds
      rw [printItems, List.append_assoc, List.append_assoc,
        holds.readAll?_separator layout level rfl, readAll?_append, next, Option.bind_some, others]
      simp

theorem readAll?_printFields (layout : Layout) :
    (fields : List (Text × Json)) → FieldsAreWhole fields → (level outerLevel : Nat) →
      (reader : Reader) → (outer : List Frame) → (reversed : List (Text × Json)) →
        reader.Holds (.afterField outer reversed) →
          reader.readAll?
              (printFields layout level fields ++ (layout.margin outerLevel ++ ['\x7d'])) =
            some (between (.finish (.object (reversed.reverse ++ fields)) outer))
  | [], _, _, outerLevel, reader, outer, reversed, holds => by
      rw [printFields, List.nil_append, holds.readAll?_margin layout outerLevel (by decide),
        @readAll?_punctuation _ _ _ .closeObject _ rfl rfl (by decide) rfl, List.append_nil]
      rfl
  | (name, value) :: fields, whole, level, outerLevel, reader, outer, reversed, holds => by
      obtain ⟨later, next, laterHolds⟩ := exists_readAll?_printAt layout value whole.1 level
        (.value (.object reversed name :: outer)) (.object reversed name :: outer) (.value _)
      have others := readAll?_printFields layout fields whole.2 level outerLevel later outer
        ((name, value) :: reversed) laterHolds
      rw [printFields]
      simp only [List.append_assoc, List.cons_append, List.nil_append]
      rw [holds.readAll?_separator layout level rfl, readAll?_name rfl, readAll?_append, next,
        Option.bind_some, others]
      simp

end

end Reader

/-- A value without other numbers than integers is read from what it is written as. -/
theorem read?_print (layout : Layout) {value : Json} (whole : value.IsWhole) :
    read? (print layout value) = some value := by
  obtain ⟨reader, readAll, holds⟩ :=
    Reader.exists_readAll?_printAt layout value whole 0 (.value []) [] (.value [])
  have ended : reader.step '\n' = some (.between (.complete value)) :=
    holds.step_eq (by decide)
  have read : (print layout value).foldlM Reader.step Reader.initial = some reader := readAll
  simp only [read?, read, ended, Option.bind_eq_bind, Option.bind_some]
  rfl

end Json
end Stylesheet
