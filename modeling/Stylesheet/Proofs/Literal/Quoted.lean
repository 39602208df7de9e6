import Stylesheet.Proofs.Text.Search
import Stylesheet.Quoted

/-!
# Quoted strings, read one character at a time

The search for the end of a string jumps between quotes and backslashes. It finds
the same end as reading the string character by character, so the end depends on
nothing but the characters of the string itself.
-/

namespace Stylesheet

namespace Text

theorem le_of_mem_offsetsOf {character : Char} {offset : Nat} {text : Text} {found : Nat}
    (member : found ∈ offsetsOf character offset text) : offset ≤ found := by
  induction text generalizing offset with
  | nil => simp [offsetsOf] at member
  | cons head rest induction =>
      rw [offsetsOf] at member
      split at member
      · rcases List.mem_cons.mp member with rfl | later
        · exact Nat.le_refl _
        · exact Nat.le_of_succ_le (induction later)
      · exact Nat.le_of_succ_le (induction member)

theorem offsetsOf_cons_self (character : Char) (offset : Nat) (rest : Text) :
    offsetsOf character offset (character :: rest) =
      offset :: offsetsOf character (offset + 1) rest := by
  rw [offsetsOf, if_pos rfl]

theorem offsetsOf_cons_of_ne {character head : Char} (different : head ≠ character)
    (offset : Nat) (rest : Text) :
    offsetsOf character offset (head :: rest) = offsetsOf character (offset + 1) rest := by
  rw [offsetsOf, if_neg different]

end Text

namespace Quoted

/-- How many characters a string has behind its opening quote, the closing one
included. A backslash takes the character behind it along. -/
def reach? (quote : Char) : Text → Option Nat
  | [] => none
  | '\\' :: [] => none
  | '\\' :: _ :: rest => (reach? quote rest).map (· + 2)
  | character :: rest =>
      if character = quote then some 1 else (reach? quote rest).map (· + 1)

theorem reach?_cons_of_ne {quote character : Char} (notEscape : character ≠ '\\')
    (rest : Text) :
    reach? quote (character :: rest) =
      if character = quote then some 1 else (reach? quote rest).map (· + 1) := by
  rw [reach?]
  · exact fun isEscape => absurd isEscape notEscape
  · exact fun _ _ isEscape => absurd isEscape notEscape

theorem reach?_escape (quote character : Char) (rest : Text) :
    reach? quote ('\\' :: character :: rest) = (reach? quote rest).map (· + 2) := by
  rw [reach?]

theorem ne_escape {character : Char} {rest : Text}
    (notLast : character = '\\' → rest = [] → False)
    (notMiddle : ∀ escaped later, character = '\\' → rest = escaped :: later → False) :
    character ≠ '\\' := by
  intro isEscape
  cases rest with
  | nil => exact notLast isEscape rfl
  | cons escaped later => exact notMiddle escaped later isEscape rfl

/-- Escapes from `free` on are all that counts. -/
theorem closing?_free {first second : Nat} (quotes : List Nat) {escapes : List Nat}
    (fromFirst : ∀ escape ∈ escapes, first ≤ escape)
    (fromSecond : ∀ escape ∈ escapes, second ≤ escape) :
    closing? first quotes escapes = closing? second quotes escapes := by
  cases quotes with
  | nil => simp [closing?]
  | cons quote quotes =>
      cases escapes with
      | nil => simp [closing?]
      | cons escape escapes =>
          have notFirst := Nat.not_lt.mpr (fromFirst escape List.mem_cons_self)
          have notSecond := Nat.not_lt.mpr (fromSecond escape List.mem_cons_self)
          simp only [closing?, if_neg notFirst, if_neg notSecond]

theorem closing?_of_lt {free quote : Nat} {quotes escapes : List Nat}
    (before : ∀ escape ∈ escapes, quote < escape) (isFree : free ≤ quote) :
    closing? free (quote :: quotes) escapes = some quote := by
  cases escapes with
  | nil => simp [closing?]
  | cons escape escapes =>
      have less := before escape List.mem_cons_self
      have notFree : ¬escape < free := by omega
      simp only [closing?, if_neg notFree, if_pos less]

/-- An escape takes the quote behind it away. -/
theorem closing?_escaped {offset : Nat} (quotes : List Nat) {escapes : List Nat} :
    closing? offset ((offset + 1) :: quotes) (offset :: escapes) =
      closing? (offset + 2) quotes escapes := by
  have notFree : ¬offset < offset := by omega
  have notBefore : ¬offset + 1 < offset := by omega
  simp only [closing?, if_neg notFree, if_neg notBefore, if_true]

theorem closing?_unescaped {offset : Nat} {quotes escapes : List Nat}
    (later : ∀ quote ∈ quotes, offset + 1 < quote) :
    closing? offset quotes (offset :: escapes) = closing? (offset + 2) quotes escapes := by
  cases quotes with
  | nil => simp [closing?]
  | cons quote quotes =>
      have less := later quote List.mem_cons_self
      have notFree : ¬offset < offset := by omega
      have notBefore : ¬quote < offset := by omega
      have notEscaped : ¬quote = offset + 1 := by omega
      simp only [closing?, if_neg notFree, if_neg notBefore, if_neg notEscaped]

theorem closing?_escape_passed {offset : Nat} {quotes escapes : List Nat} :
    closing? (offset + 1) quotes (offset :: escapes) =
      closing? (offset + 1) quotes escapes := by
  cases quotes with
  | nil => simp [closing?]
  | cons quote quotes => simp [closing?]

/-- Jumping from quote to quote ends where reading on ends. -/
theorem closing?_offsetsOf {quote : Char} (notEscape : quote ≠ '\\') (offset : Nat)
    (text : Text) :
    (closing? offset (Text.offsetsOf quote offset text)
        (Text.offsetsOf '\\' offset text)).map (· + 1) =
      (reach? quote text).map (offset + ·) := by
  induction text using reach?.induct quote generalizing offset with
  | case1 => simp [Text.offsetsOf, closing?, reach?]
  | case2 =>
      rw [Text.offsetsOf_cons_of_ne (Ne.symm notEscape)]
      simp [Text.offsetsOf, closing?, reach?]
  | case3 escaped rest induction =>
      have shift : (offset + ·) ∘ (· + 2) = (offset + 2 + ·) := by
        funext number
        simp only [Function.comp_apply]
        omega
      rw [reach?, Option.map_map, shift, ← induction, Text.offsetsOf_cons_self,
        Text.offsetsOf_cons_of_ne (Ne.symm notEscape)]
      congr 1
      by_cases isQuote : escaped = quote
      · subst isQuote
        rw [Text.offsetsOf_cons_self, Text.offsetsOf_cons_of_ne notEscape,
          closing?_escaped]
      · rw [Text.offsetsOf_cons_of_ne isQuote, closing?_unescaped]
        · by_cases isEscape : escaped = '\\'
          · subst isEscape
            rw [Text.offsetsOf_cons_self, closing?_escape_passed]
          · rw [Text.offsetsOf_cons_of_ne isEscape]
        · intro found member
          have := Text.le_of_mem_offsetsOf member
          omega
  | case4 rest notLast notMiddle =>
      have plain := ne_escape notLast notMiddle
      rw [reach?_cons_of_ne plain, if_pos rfl, Text.offsetsOf_cons_self,
        Text.offsetsOf_cons_of_ne plain, closing?_of_lt _ (Nat.le_refl _)]
      · rfl
      · intro found member
        exact Text.le_of_mem_offsetsOf member
  | case5 character rest notLast notMiddle notQuote induction =>
      have plain := ne_escape notLast notMiddle
      have shift : (offset + ·) ∘ (· + 1) = (offset + 1 + ·) := by
        funext number
        simp only [Function.comp_apply]
        omega
      rw [reach?_cons_of_ne plain, if_neg notQuote, Option.map_map, shift, ← induction,
        Text.offsetsOf_cons_of_ne notQuote, Text.offsetsOf_cons_of_ne plain]
      congr 1
      exact closing?_free _
        (fun escape member => Nat.le_of_succ_le (Text.le_of_mem_offsetsOf member))
        (fun escape member => Text.le_of_mem_offsetsOf member)

/-- The end of a string is found by reading on from its opening quote. -/
theorem end?_natCast {quote : Char} (notEscape : quote ≠ '\\') (source : Text) (start : Nat) :
    Quoted.end? source quote start =
      (reach? quote (source.drop (start + 1))).map (start + 1 + ·) := by
  have position : ((start : Int) + 1) = ((start + 1 : Nat) : Int) := rfl
  rw [Quoted.end?, position, place_natCast]
  exact closing?_offsetsOf notEscape (start + 1) _

theorem endsAt_of_reach? {quote : Char} {text : Text} {count : Nat}
    (reached : reach? quote text = some count) : text.EndsAt count quote := by
  induction text using reach?.induct quote generalizing count with
  | case1 => simp [reach?] at reached
  | case2 => simp [reach?] at reached
  | case3 escaped rest induction =>
      obtain ⟨inner, found, rfl⟩ := Option.map_eq_some_iff.mp reached
      exact ((induction found).cons escaped).cons '\\'
  | case4 rest notLast notMiddle =>
      rw [reach?_cons_of_ne (ne_escape notLast notMiddle), if_pos rfl] at reached
      cases reached
      exact .here rest
  | case5 character rest notLast notMiddle notQuote induction =>
      rw [reach?_cons_of_ne (ne_escape notLast notMiddle), if_neg notQuote] at reached
      obtain ⟨inner, found, rfl⟩ := Option.map_eq_some_iff.mp reached
      exact (induction found).cons character

/-- The end of a string depends on the string alone. -/
theorem reach?_of_isPrefix {quote : Char} {text other : Text} {count : Nat}
    (reached : reach? quote text = some count) (same : text.take count <+: other) :
    reach? quote other = some count := by
  induction text using reach?.induct quote generalizing count other with
  | case1 => simp [reach?] at reached
  | case2 => simp [reach?] at reached
  | case3 escaped rest induction =>
      obtain ⟨inner, found, rfl⟩ := Option.map_eq_some_iff.mp reached
      obtain ⟨later, rfl⟩ := same
      simp only [List.take_succ_cons, List.cons_append]
      rw [reach?, induction found (List.prefix_append ..), Option.map_some]
  | case4 rest notLast notMiddle =>
      have plain := ne_escape notLast notMiddle
      rw [reach?_cons_of_ne plain, if_pos rfl] at reached
      cases reached
      obtain ⟨later, rfl⟩ := same
      simp only [List.take_succ_cons, List.take_zero, List.cons_append, List.nil_append]
      rw [reach?_cons_of_ne plain, if_pos rfl]
  | case5 character rest notLast notMiddle notQuote induction =>
      have plain := ne_escape notLast notMiddle
      rw [reach?_cons_of_ne plain, if_neg notQuote] at reached
      obtain ⟨inner, found, rfl⟩ := Option.map_eq_some_iff.mp reached
      obtain ⟨later, rfl⟩ := same
      simp only [List.take_succ_cons, List.cons_append]
      rw [reach?_cons_of_ne plain, if_neg notQuote,
        induction found (List.prefix_append ..), Option.map_some]

end Quoted
end Stylesheet
