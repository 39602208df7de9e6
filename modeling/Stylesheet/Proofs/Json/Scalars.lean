import Mathlib.Data.List.TakeWhile
import Stylesheet.Json.Printer
import Stylesheet.Json.Reader

/-!
# Reading what is written: words and strings

The reader takes a text as far as it goes. A word is finished only by what stands behind
it, so a reader that has a value may still hold the value's last word. It goes on as if the
value were finished already.
-/

namespace Stylesheet
namespace Json

variable {reader : Reader} {progress next : Progress} {rest text : Text}

namespace Reader

/-- Read the characters of a text. -/
def readAll? (reader : Reader) (text : Text) : Option Reader :=
  text.foldlM step reader

/-- The reader that has no lexeme unfinished. -/
def between (progress : Progress) : Reader :=
  ⟨.between, progress⟩

theorem readAll?_append (reader : Reader) (front rest : Text) :
    reader.readAll? (front ++ rest) = (reader.readAll? front).bind (·.readAll? rest) :=
  List.foldlM_append

theorem readAll?_cons (reader : Reader) (character : Char) (rest : Text) :
    reader.readAll? (character :: rest) = (reader.step character).bind (·.readAll? rest) :=
  List.foldlM_cons

end Reader

/-! ## Words -/

/-- Whether a character ends the word in front of it. -/
def endsWord (character : Char) : Bool :=
  isSpace character || character == '"' || (punctuation? character).isSome

theorem start_of_endsWord {character : Char} (ends : endsWord character = true) :
    ∃ lexing lexemes, Lexing.start character = (lexing, lexemes) ∧
      ∀ reversed, lexing ≠ .word reversed := by
  unfold Lexing.start
  split
  · exact ⟨_, _, rfl, by simp⟩
  next notSpace =>
    split
    · exact ⟨_, _, rfl, by simp⟩
    next notQuote =>
      cases found : punctuation? character with
      | some lexeme => exact ⟨_, _, rfl, by simp⟩
      | none => simp [endsWord, notSpace, notQuote, found] at ends

theorem start_of_not_endsWord {character : Char} (inWord : endsWord character = false) :
    Lexing.start character = (.word [character], []) := by
  simp only [endsWord, Bool.or_eq_false_iff, beq_eq_false_iff_ne, Option.isSome_eq_false_iff,
    Option.isNone_iff_eq_none] at inWord
  obtain ⟨⟨notSpace, notQuote⟩, noPunctuation⟩ := inWord
  simp [Lexing.start, notSpace, notQuote, noPunctuation]

/-- A reader that has come so far, but for a word that is still to be finished. -/
inductive Reader.Holds : Reader → Progress → Prop
  | finished (progress : Progress) : Holds (.between progress) progress
  | word {reversed : Text} {value : Json} {before after : Progress}
      (isWord : word? reversed.reverse = some value)
      (taken : before.step (.scalar value) = some after) :
      Holds ⟨.word reversed, before⟩ after

namespace Reader

/-- What ends a word finishes the word that is held. -/
theorem Holds.step_eq (holds : reader.Holds progress) {character : Char}
    (ends : endsWord character = true) :
    reader.step character = (between progress).step character := by
  cases holds with
  | finished => rfl
  | word isWord taken =>
      obtain ⟨lexing, lexemes, starts, noWord⟩ := start_of_endsWord ends
      have lexed (reversed : Text) : (Lexing.word reversed).step character =
          (word? reversed.reverse).map fun value => (lexing, .scalar value :: lexemes) := by
        unfold Lexing.step
        rw [starts]
        cases lexing with
        | word other => exact absurd rfl (noWord other)
        | _ => rfl
      rw [step, lexed, isWord]
      simp [step, between, Lexing.step, starts, taken]

theorem Holds.readAll?_eq (holds : reader.Holds progress) {character : Char}
    (ends : endsWord character = true) (rest : Text) :
    reader.readAll? (character :: rest) = (between progress).readAll? (character :: rest) := by
  rw [readAll?_cons, readAll?_cons, holds.step_eq ends]

theorem step_word (before : Text) {character : Char} (inWord : endsWord character = false) :
    step ⟨.word before, progress⟩ character = some ⟨.word (character :: before), progress⟩ := by
  simp [step, Lexing.step, start_of_not_endsWord inWord]

theorem readAll?_inside_word (before : Text)
    (inWord : ∀ character ∈ text, endsWord character = false) :
    readAll? ⟨.word before, progress⟩ text = some ⟨.word (text.reverse ++ before), progress⟩ := by
  induction text generalizing before with
  | nil => rfl
  | cons character text induction =>
      rw [readAll?_cons, step_word before (inWord _ List.mem_cons_self), Option.bind_some,
        induction _ fun other member => inWord other (List.mem_cons_of_mem _ member)]
      simp

/-- A word with a value is held. -/
theorem exists_of_word (text : Text) {value : Json} (isWord : word? text = some value)
    (some_ : text ≠ []) (unended : text.any endsWord = false)
    (taken : progress.step (.scalar value) = some next) :
    ∃ later, (between progress).readAll? text = some later ∧ later.Holds next := by
  have inWord (character : Char) (member : character ∈ text) : endsWord character = false :=
    Bool.eq_false_iff.mpr (List.any_eq_false.mp unended character member)
  obtain ⟨first, others, rfl⟩ := List.exists_cons_of_ne_nil some_
  have begun : (between progress).step first = some ⟨.word [first], progress⟩ := by
    simp [step, between, Lexing.step, start_of_not_endsWord (inWord _ List.mem_cons_self)]
  refine ⟨⟨.word (others.reverse ++ [first]), progress⟩, ?_, .word ?_ taken⟩
  · rw [readAll?_cons, begun, Option.bind_some, readAll?_inside_word _
      fun other member => inWord other (List.mem_cons_of_mem _ member)]
  · simpa using isWord

end Reader

/-! ## Integers -/

/-- No number but zero is written with a zero in front. -/
theorem head?_toDigits {value : Nat} (positive : 0 < value) :
    (Nat.toDigits 10 value).head? ≠ some '0' := by
  induction value using Nat.strongRecOn with
  | ind value induction =>
      by_cases small : value < 10
      · have digit : ∀ value < 10, 0 < value → [Nat.digitChar value].head? ≠ some '0' := by decide
        rw [Nat.toDigits_of_lt_base small]
        exact digit value small positive
      · have some_ := List.isSome_head?.mpr (Nat.toDigits_ne_nil (n := value / 10) (b := 10))
        rw [Nat.toDigits_of_base_le (by decide) (Nat.not_lt.mp small), List.head?_append,
          Option.or_of_isSome some_]
        exact induction (value / 10) (by omega) (by omega)

theorem unsigned?_toDigits (negative : Bool) (value : Nat) :
    unsigned? negative (Nat.toDigits 10 value) =
      some (integer (if negative then -(value : Int) else value)) := by
  have digits : ∀ character ∈ Nat.toDigits 10 value, character.isDigit = true :=
    fun _ member => Nat.isDigit_of_mem_toDigits (by decide) (by decide) member
  have whole : (Nat.toDigits 10 value).takeWhile Char.isDigit = Nat.toDigits 10 value :=
    List.takeWhile_eq_self_iff.mpr digits
  have nothing : (Nat.toDigits 10 value).dropWhile Char.isDigit = [] :=
    List.dropWhile_eq_nil_iff.mpr digits
  have some_ : (Nat.toDigits 10 value).isEmpty = false :=
    List.isEmpty_eq_false_iff.mpr Nat.toDigits_ne_nil
  have read : digits? (Nat.toDigits 10 value) = some value := by
    simp [digits?, some_, List.all_eq_true.mpr digits, Nat.ofDigitChars_ten_toDigits]
  have noSpareZero : ((Nat.toDigits 10 value).isEmpty ||
      ((Nat.toDigits 10 value).head? == some '0' &&
        decide (1 < (Nat.toDigits 10 value).length))) = false := by
    rw [some_, Bool.false_or, Bool.and_eq_false_iff]
    rcases Nat.eq_zero_or_pos value with rfl | positive
    · exact Or.inr (by decide)
    · exact Or.inl (beq_eq_false_iff_ne.mpr (head?_toDigits positive))
  simp only [unsigned?, whole, nothing, noSpareZero, read]
  simp

/-- The characters that integers are written with. -/
theorem mem_ofInt {value : Int} {character : Char} (member : character ∈ Text.ofInt value) :
    character = '-' ∨ character.isDigit = true := by
  have digit (number : Nat) (found : character ∈ Nat.toDigits 10 number) :
      character.isDigit = true := Nat.isDigit_of_mem_toDigits (by decide) (by decide) found
  cases value with
  | ofNat number => exact Or.inr (digit _ member)
  | negSucc number => exact (List.mem_cons.mp member).imp id (digit _)

theorem endsWord_of_isDigit {character : Char} (isDigit : character.isDigit = true) :
    endsWord character = false := by
  have apart (other : Char) (noDigit : other.isDigit = false) : character ≠ other := by
    rintro rfl
    exact Bool.false_ne_true (noDigit.symm.trans isDigit)
  have noPunctuation : punctuation? character = none := by
    unfold punctuation?
    split
    case h_7 => rfl
    all_goals exact absurd rfl (apart _ (by decide))
  simp [endsWord, isSpace, noPunctuation, apart _ (by decide : ' '.isDigit = false),
    apart _ (by decide : '\t'.isDigit = false), apart _ (by decide : '\n'.isDigit = false),
    apart _ (by decide : '\r'.isDigit = false), apart _ (by decide : '"'.isDigit = false)]

/-- An integer is read from the digits that it is written with. -/
theorem word?_ofInt (value : Int) : word? (Text.ofInt value) = some (integer value) := by
  -- None of the named words is made of a sign and digits only.
  have unnamed (name : Text) (character : Char) (member : character ∈ name)
      (other : character ≠ '-' ∧ character.isDigit = false) : Text.ofInt value ≠ name := by
    rintro rfl
    rcases mem_ofInt member with isSign | isDigit
    · exact other.1 isSign
    · exact Bool.false_ne_true (other.2.symm.trans isDigit)
  have number : number? (Text.ofInt value) = some (integer value) := by
    cases value with
    | ofNat number =>
        have positive := unsigned?_toDigits false number
        have noSign : ∀ rest, Text.ofInt (Int.ofNat number) ≠ '-' :: rest := by
          intro rest same
          have isDigit := @Nat.isDigit_of_mem_toDigits 10 number '-' (by decide) (by decide)
            (by rw [show Nat.toDigits 10 number = '-' :: rest from same]; simp)
          exact absurd isDigit (by decide)
        unfold number?
        split
        next rest same => exact absurd same (noSign rest)
        next => exact positive
    | negSucc number =>
        have negative := unsigned?_toDigits true (number + 1)
        rw [Text.ofInt, number?, negative]
        rfl
  rw [word?, if_neg (unnamed _ 'n' (by decide) (by decide)),
    if_neg (unnamed _ 't' (by decide) (by decide)), if_neg (unnamed _ 'f' (by decide) (by decide)),
    if_neg (unnamed _ 'N' (by decide) (by decide)), if_neg (unnamed _ 'I' (by decide) (by decide)),
    if_neg (unnamed _ 'I' (by decide) (by decide)), number]

theorem ofInt_ne_nil (value : Int) : Text.ofInt value ≠ [] := by
  cases value with
  | ofNat number => exact Nat.toDigits_ne_nil
  | negSucc number => exact List.cons_ne_nil _ _

theorem any_endsWord_ofInt (value : Int) : (Text.ofInt value).any endsWord = false := by
  refine List.any_eq_false.mpr fun character member => Bool.eq_false_iff.mp ?_
  rcases mem_ofInt member with rfl | isDigit
  · rfl
  · exact endsWord_of_isDigit isDigit

/-! ## Strings -/

/-- The code units that a character is written as. -/
def unitsOf (character : Char) : List Nat :=
  let code := character.toNat
  if code < 0x10000 then [code]
  else [0xD800 + (code - 0x10000) / 0x400, 0xDC00 + (code - 0x10000) % 0x400]

theorem textOfUnits_cons {unit : Nat} (notHigh : isHighSurrogate unit = false)
    (units : List Nat) :
    textOfUnits (unit :: units) = characterOfUnit unit :: textOfUnits units := by
  cases units with
  | nil => rfl
  | cons low units => simp [textOfUnits, notHigh]

theorem toNat_lt (character : Char) : character.toNat < 0x110000 := by
  have valid := character.valid
  simp only [UInt32.isValidChar, Nat.isValidChar] at valid
  have := character.val.toNat_lt
  unfold Char.toNat
  omega

theorem not_surrogate (character : Char) :
    isHighSurrogate character.toNat = false ∧ isLowSurrogate character.toNat = false := by
  have valid := character.valid
  simp only [UInt32.isValidChar, Nat.isValidChar] at valid
  simp only [isHighSurrogate, isLowSurrogate, Bool.and_eq_false_iff, decide_eq_false_iff_not,
    Char.toNat]
  omega

/-- The units of a character stand for the character, whatever comes behind them. -/
theorem textOfUnits_unitsOf (character : Char) (units : List Nat) :
    textOfUnits (unitsOf character ++ units) = character :: textOfUnits units := by
  obtain ⟨notHigh, notLow⟩ := not_surrogate character
  have bound := toNat_lt character
  unfold unitsOf
  dsimp only
  split
  next small =>
    rw [List.singleton_append, textOfUnits_cons notHigh, characterOfUnit, notHigh, notLow]
    simp
  next large =>
    have isHigh : isHighSurrogate (0xD800 + (character.toNat - 0x10000) / 0x400) = true := by
      simp only [isHighSurrogate, Bool.and_eq_true, decide_eq_true_eq]
      omega
    have isLow : isLowSurrogate (0xDC00 + (character.toNat - 0x10000) % 0x400) = true := by
      simp only [isLowSurrogate, Bool.and_eq_true, decide_eq_true_eq]
      omega
    have code : 0x10000 + (0xD800 + (character.toNat - 0x10000) / 0x400 - 0xD800) * 0x400 +
        (0xDC00 + (character.toNat - 0x10000) % 0x400 - 0xDC00) = character.toNat := by
      omega
    simp only [List.cons_append, List.nil_append, textOfUnits, isHigh, isLow, Bool.and_self,
      if_true]
    rw [code, Char.ofNat_toNat]

theorem textOfUnits_flatMap (text : Text) : textOfUnits (text.flatMap unitsOf) = text := by
  induction text with
  | nil => rfl
  | cons character text induction =>
      rw [List.flatMap_cons, textOfUnits_unitsOf, induction]

namespace Reader

variable {units : List Nat}

/-- A unit is read from its four digits. -/
theorem readAll?_printUnit {value : Nat} (small : value < 0x10000) :
    readAll? ⟨.string units, progress⟩ (printUnit value ++ rest) =
      readAll? ⟨.string (value :: units), progress⟩ rest := by
  have digit (number : Nat) : Text.hexValue? (Nat.digitChar (number % 16)) = some (number % 16) :=
    Text.hexValue?_digitChar _ (Nat.mod_lt _ (by decide))
  have whole : 16 * (16 * (16 * (value / 16 / 16 / 16 % 16) + value / 16 / 16 % 16) +
      value / 16 % 16) + value % 16 = value := by
    omega
  simp [printUnit, Text.hexDigits, readAll?_cons, step, Lexing.step, digit, whole]

theorem readAll?_shortEscape {letter : Char} {unit : Nat} (notCode : letter ≠ 'u')
    (short : shortEscape? letter = some unit) :
    readAll? ⟨.string units, progress⟩ ('\\' :: letter :: rest) =
      readAll? ⟨.string (unit :: units), progress⟩ rest := by
  simp [readAll?_cons, step, Lexing.step, short, notCode]

/-- A character of a string is read from what it is written as. -/
theorem readAll?_printCharacter (character : Char) :
    readAll? ⟨.string units, progress⟩ (printCharacter character ++ rest) =
      readAll? ⟨.string ((unitsOf character).reverse ++ units), progress⟩ rest := by
  have bound := toNat_lt character
  have single (small : character.toNat < 0x10000) : unitsOf character = [character.toNat] :=
    if_pos small
  have escaped {letter : Char} (notCode : letter ≠ 'u')
      (short : shortEscape? letter = some character.toNat) (small : character.toNat < 0x10000) :
      readAll? ⟨.string units, progress⟩ ('\\' :: letter :: rest) =
        readAll? ⟨.string ((unitsOf character).reverse ++ units), progress⟩ rest := by
    rw [single small]
    exact readAll?_shortEscape notCode short
  unfold printCharacter
  dsimp only
  split
  next same => exact escaped (by decide) (by rw [same]; rfl) (by rw [same]; decide)
  next notQuote =>
  split
  next same => exact escaped (by decide) (by rw [same]; rfl) (by rw [same]; decide)
  next notBackslash =>
  split
  next same => exact escaped (by decide) (by rw [same]; rfl) (by rw [same]; decide)
  split
  next same => exact escaped (by decide) (by rw [same]; rfl) (by rw [same]; decide)
  split
  next same => exact escaped (by decide) (by rw [same]; rfl) (by rw [same]; decide)
  split
  next same => exact escaped (by decide) (by rw [same]; rfl) (by omega)
  split
  next same => exact escaped (by decide) (by rw [same]; rfl) (by omega)
  split
  next printable =>
    simp only [Bool.and_eq_true, decide_eq_true_eq] at printable
    have visible : ¬character.toNat < 0x20 := by omega
    rw [single (by omega)]
    simp [readAll?_cons, step, Lexing.step, notQuote, notBackslash, visible]
  split
  next small => rw [single small]; exact readAll?_printUnit small
  next large =>
    have pair : unitsOf character = [0xD800 + (character.toNat - 0x10000) / 0x400,
        0xDC00 + (character.toNat - 0x10000) % 0x400] := if_neg large
    rw [List.append_assoc, readAll?_printUnit (by omega), readAll?_printUnit (by omega), pair]
    rfl

theorem readAll?_characters (text : Text) :
    readAll? ⟨.string units, progress⟩ (text.flatMap printCharacter ++ rest) =
      readAll? ⟨.string ((text.flatMap unitsOf).reverse ++ units), progress⟩ rest := by
  induction text generalizing units with
  | nil => rfl
  | cons character text induction =>
      rw [List.flatMap_cons, List.append_assoc, readAll?_printCharacter, induction]
      simp

/-- A string is read as one lexeme. -/
theorem readAll?_printString (text : Text) :
    (between progress).readAll? (printString text ++ rest) =
      (progress.step (.scalar (.string text))).bind fun next => (between next).readAll? rest := by
  have quoted : (between progress).step '"' = some ⟨.string [], progress⟩ := rfl
  have closed (units : List Nat) : step ⟨.string units, progress⟩ '"' =
      (progress.step (.scalar (.string (textOfUnits units.reverse)))).map between := by
    cases taken : progress.step (.scalar (.string (textOfUnits units.reverse))) <;>
      simp [step, Lexing.step, taken, between]
  rw [printString, List.cons_append, List.cons_append, List.append_assoc, readAll?_cons, quoted,
    Option.bind_some, readAll?_characters, List.singleton_append, readAll?_cons, closed,
    List.append_nil, List.reverse_reverse, textOfUnits_flatMap]
  cases progress.step (.scalar (.string text)) <;> rfl

end Reader

end Json
end Stylesheet
