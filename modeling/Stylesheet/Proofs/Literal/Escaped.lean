import Stylesheet.Proofs.Literal.Hidden
import Stylesheet.Proofs.Scan.Glimpse

/-!
# Literals that are left open in front of an escape

A string or a url that is not closed may reach over an escape behind it. The escaped
character is passed over in a string, so it does not matter there. In an unquoted address it
matters only if an address cannot hold it, and then only if nothing behind it is wrong.
-/

namespace Stylesheet

variable {inner rest : Text} {first second : Char}

theorem Text.endsOpen_cons {character : Char} (noBackslash : character ≠ '\\') (text : Text) :
    endsOpen (character :: text) = endsOpen text :=
  endsOpen_append_cons noBackslash [] text

/-- A string that is not closed passes over an escaped character. -/
theorem Quoted.reach?_escaped {quote : Quote} (settled : Text.endsOpen inner = false)
    (unclosed : reach? quote.character inner = none) (character : Char) :
    reach? quote.character (inner ++ '\\' :: character :: rest) =
      ((reach? quote.character rest).map (· + 2)).map (inner.length + ·) := by
  rw [reach?_append unclosed settled, reach?_escape]

namespace Url

/-- Where a url with a quoted address is not closed, the character of an escape in it does not
matter. -/
theorem quotedReach?_escaped {quote : Quote} (settled : Text.endsOpen inner = false)
    (noParen : second ≠ ')')
    (unreached : quotedReach? quote (inner ++ '\\' :: first :: rest) = none) :
    quotedReach? quote (inner ++ '\\' :: second :: rest) = none ∧
      (Quoted.reach? quote.character (inner ++ '\\' :: first :: rest)).isNone =
        (Quoted.reach? quote.character (inner ++ '\\' :: second :: rest)).isNone := by
  rw [quotedReach?] at unreached ⊢
  cases reached : Quoted.reach? quote.character inner with
  | some count =>
      have inside := (Quoted.endsAt_of_reach? reached).le_length
      have closed (more : Text) := Quoted.reach?_append_of_eq_some reached more
      rw [closed, Option.bind_some, Option.map_eq_none_iff, Text.parenReach?_eq_none_iff,
        List.drop_append_of_le_length inside] at unreached
      rw [closed, closed, Option.bind_some, Option.map_eq_none_iff, Text.parenReach?_eq_none_iff,
        List.drop_append_of_le_length inside]
      refine ⟨?_, rfl⟩
      simp only [List.mem_append, List.mem_cons, not_or] at unreached ⊢
      exact ⟨unreached.1, by decide, noParen.symm, unreached.2.2.2⟩
  | none =>
      have passes (character : Char) :
          Quoted.reach? quote.character (inner ++ '\\' :: character :: rest) =
            ((Quoted.reach? quote.character rest).map (· + 2)).map (inner.length + ·) :=
        Quoted.reach?_escaped settled reached character
      rw [passes] at unreached
      rw [passes, passes]
      refine ⟨?_, rfl⟩
      cases behind : Quoted.reach? quote.character rest with
      | none => rfl
      | some count =>
          rw [behind, Option.map_some, Option.map_some, Option.bind_some,
            Option.map_eq_none_iff] at unreached
          rw [Option.map_some, Option.map_some, Option.bind_some, Option.map_eq_none_iff]
          rwa [List.drop_length_add_append, List.drop_succ_cons, List.drop_succ_cons]
            at unreached ⊢

/-! ## Unquoted addresses -/

/-- Whether an unquoted address goes on where the text behind the opening parenthesis of a url
ends. -/
def runsOn (content : Text) : Bool :=
  (content.dropWhile isBlank).all fun character => character != ')' && !isForbidden character

/-- Whether a url goes wrong in an unquoted address that goes on with a text, and in the same
way as at a character that no address can hold. -/
def goesWrong (ignoreErrors : Bool) (rest : Text) : Bool :=
  match unquotedEnd 0 rest with
  | .ok _ => false
  | .error fault => ignoreErrors || fault == .invalidUrl

theorem addressReach?_of_goesWrong {ignoreErrors : Bool}
    (wrong : goesWrong ignoreErrors rest = true) :
    addressReach? rest = none ∧ (ignoreErrors = false → rest.any isForbidden = true) := by
  unfold goesWrong at wrong
  split at wrong
  next => cases wrong
  next fault fails =>
    constructor
    · exact addressReach?_eq_none_of_unquotedEnd fails
    · rintro rfl
      have isInvalid := eq_addressFault_of_unquotedEnd fails
      rw [beq_iff_eq.mp wrong, addressFault] at isInvalid
      split at isInvalid
      next forbidden => exact forbidden
      next => cases isInvalid

variable {ignoreErrors : Bool}

theorem backslash : isForbidden '\\' = false := by decide

/-- Where an unquoted address is not closed, the character of an escape in it does not matter,
unless it is forbidden and nothing behind it is wrong. -/
theorem addressReach?_escaped {address : Text} (noParen : second ≠ ')')
    (allowed : isForbidden second = false)
    (wrong : isForbidden first = true →
      (address.all fun character => character != ')' && !isForbidden character) = true →
        goesWrong ignoreErrors rest = true)
    (unreached : addressReach? (address ++ '\\' :: first :: rest) = none) :
    addressReach? (address ++ '\\' :: second :: rest) = none ∧
      (ignoreErrors = false →
        (address ++ '\\' :: first :: rest).any isForbidden =
          (address ++ '\\' :: second :: rest).any isForbidden) := by
  induction address with
  | nil =>
      simp only [List.nil_append, addressReach?, backslash, if_neg noParen, allowed,
        if_neg (by decide : '\\' ≠ ')'), if_neg Bool.false_ne_true,
        Option.map_eq_none_iff] at unreached ⊢
      simp only [List.any_cons, backslash, allowed, Bool.false_or]
      split at unreached
      next => cases unreached
      next =>
        split at unreached
        next forbidden =>
          obtain ⟨unclosed, strict⟩ := addressReach?_of_goesWrong (wrong forbidden rfl)
          exact ⟨unclosed, fun reports => by rw [forbidden, strict reports, Bool.or_true]⟩
        next permitted =>
          rw [Bool.not_eq_true] at permitted
          exact ⟨Option.map_eq_none_iff.mp unreached, fun _ => by rw [permitted, Bool.false_or]⟩
  | cons character address induction =>
      simp only [List.cons_append, addressReach?, List.any_cons] at unreached ⊢
      split at unreached
      next => cases unreached
      next notClosing =>
        rw [if_neg notClosing]
        split at unreached
        next forbidden =>
          rw [if_pos forbidden, forbidden]
          exact ⟨rfl, fun _ => by rw [Bool.true_or, Bool.true_or]⟩
        next permitted =>
          obtain ⟨unclosed, sameReport⟩ := induction (fun forbidden runs => by
            apply wrong forbidden
            simp [notClosing, permitted, runs]) (Option.map_eq_none_iff.mp unreached)
          rw [if_neg permitted, unclosed]
          exact ⟨rfl, fun reports => by rw [sameReport reports]⟩

theorem contentReach?_escaped_of_address {character : Char} (visible : ¬isBlank character = true)
    (noQuote : Quote.ofCharacter? character = none) {address firstTail secondTail : Text}
    (isFirst : address ++ '\\' :: first :: rest = character :: firstTail)
    (isSecond : address ++ '\\' :: second :: rest = character :: secondTail)
    (noParen : second ≠ ')') (allowed : isForbidden second = false)
    (wrong : isForbidden first = true →
      (address.all fun character => character != ')' && !isForbidden character) = true →
        goesWrong ignoreErrors rest = true)
    (unreached : contentReach? (address ++ '\\' :: first :: rest) = none) :
    contentReach? (address ++ '\\' :: second :: rest) = none ∧
      (ignoreErrors = false →
        contentFault (address ++ '\\' :: first :: rest) =
          contentFault (address ++ '\\' :: second :: rest)) := by
  rw [isFirst, contentReach?_cons_of_address visible noQuote, ← isFirst] at unreached
  rw [isFirst, isSecond, contentReach?_cons_of_address visible noQuote,
    contentFault_cons_of_address visible noQuote, contentFault_cons_of_address visible noQuote,
    ← isFirst, ← isSecond]
  obtain ⟨unclosed, sameReport⟩ := addressReach?_escaped noParen allowed wrong unreached
  exact ⟨unclosed, fun reports => by rw [addressFault, addressFault, sameReport reports]⟩

/-- A url that is at fault over an escape in its address has the same fault over an escape of
any character that an address can hold. -/
theorem contentReach?_escaped {content : Text} (settled : Text.endsOpen content = false)
    (noParen : second ≠ ')') (allowed : isForbidden second = false)
    (wrong : isForbidden first = true → runsOn content = true → goesWrong ignoreErrors rest = true)
    (unreached : contentReach? (content ++ '\\' :: first :: rest) = none) :
    contentReach? (content ++ '\\' :: second :: rest) = none ∧
      (ignoreErrors = false →
        contentFault (content ++ '\\' :: first :: rest) =
          contentFault (content ++ '\\' :: second :: rest)) := by
  induction content with
  | nil =>
      exact contentReach?_escaped_of_address (by decide) rfl rfl rfl noParen allowed
        (fun forbidden _ => wrong forbidden rfl) unreached
  | cons character content induction =>
      by_cases blank : isBlank character = true
      · rw [List.cons_append, contentReach?, if_pos blank, Option.map_eq_none_iff] at unreached
        have noBackslash : character ≠ '\\' := by
          rintro rfl
          cases blank
        rw [Text.endsOpen_cons noBackslash] at settled
        obtain ⟨unclosed, sameFault⟩ := induction settled
          (fun forbidden runs => wrong forbidden (by
            rwa [runsOn, List.dropWhile_cons_of_pos blank])) unreached
        rw [List.cons_append, List.cons_append, contentReach?, if_pos blank, unclosed,
          contentFault_cons_of_isBlank blank, contentFault_cons_of_isBlank blank]
        exact ⟨rfl, sameFault⟩
      · cases isQuote : Quote.ofCharacter? character with
        | some quote =>
            simp only [List.cons_append, contentReach?, if_neg blank, isQuote,
              Option.map_eq_none_iff] at unreached ⊢
            have noBackslash : character ≠ '\\' := by
              rintro rfl
              cases isQuote
            rw [Text.endsOpen_cons noBackslash] at settled
            obtain ⟨unclosed, sameReach⟩ := quotedReach?_escaped settled noParen unreached
            refine ⟨unclosed, fun _ => ?_⟩
            rw [contentFault_cons_of_quote isQuote, contentFault_cons_of_quote isQuote, sameReach]
        | none =>
            exact contentReach?_escaped_of_address blank isQuote rfl rfl noParen allowed
              (fun forbidden runs => wrong forbidden (by
                rwa [runsOn, List.dropWhile_cons_of_neg blank])) unreached

end Url
end Stylesheet
