import Stylesheet.Proofs.Lexing.Cutting
import Stylesheet.Proofs.Scan.Glimpse
import Stylesheet.Proofs.Text.Veiled

/-!
# Text that hides nothing

Text without quotes and backslashes neither closes a string nor escapes anything. Where
a string or a url reaches over such a text without an end, it does so over any other.
-/

namespace Stylesheet

namespace Text

/-- No quote and no backslash. -/
def Tame (text : Text) : Prop :=
  ∀ character ∈ text, character ≠ '"' ∧ character ≠ '\'' ∧ character ≠ '\\'
  deriving Decidable

theorem Tame.head {character : Char} {rest : Text} (tame : Tame (character :: rest)) :
    character ≠ '"' ∧ character ≠ '\'' ∧ character ≠ '\\' :=
  tame character List.mem_cons_self

theorem Tame.tail {character : Char} {rest : Text} (tame : Tame (character :: rest)) :
    Tame rest :=
  fun other member => tame other (List.mem_cons_of_mem _ member)

theorem Tame.ne_quote {text : Text} (tame : Tame text) {character : Char}
    (member : character ∈ text) (quote : Quote) : character ≠ quote.character := by
  obtain ⟨noDouble, noSingle, -⟩ := tame character member
  cases quote
  · exact noDouble
  · exact noSingle

theorem endsOpen_singleton {character : Char} (noBackslash : character ≠ '\\') (text : Text) :
    endsOpen (text ++ [character]) = false := by
  rw [endsOpen_append_singleton, beq_eq_false_iff_ne.mpr noBackslash, Bool.false_and]

end Text

/-! ## Strings -/

namespace Quoted

variable {quote : Quote}

theorem reach?_tame_append {hidden : Text} (tame : hidden.Tame) (rest : Text) :
    reach? quote.character (hidden ++ rest) =
      (reach? quote.character rest).map (hidden.length + ·) := by
  induction hidden with
  | nil => simp
  | cons character hidden induction =>
      rw [List.cons_append, reach?_cons_of_ne tame.head.2.2,
        if_neg (tame.ne_quote List.mem_cons_self quote), induction tame.tail, Option.map_map]
      congr 1
      funext count
      simp only [Function.comp_apply, List.length_cons]
      omega

/-- Reading goes on where a string is not closed yet and nothing is left to escape. -/
theorem reach?_append {text : Text} (unclosed : reach? quote.character text = none)
    (settled : Text.endsOpen text = false) (rest : Text) :
    reach? quote.character (text ++ rest) =
      (reach? quote.character rest).map (text.length + ·) := by
  have noEscape := Url.character_ne_backslash quote
  induction text using reach?.induct quote.character with
  | case1 => simp
  | case2 => cases settled
  | case3 escaped text induction =>
      rw [reach?, Option.map_eq_none_iff] at unclosed
      have inner : Text.endsOpen text = false := by
        rw [← settled, Text.endsOpen, Text.endsOpen, List.foldl_cons, List.foldl_cons]
        simp
      rw [List.cons_append, List.cons_append, reach?, induction unclosed inner, Option.map_map]
      congr 1
      funext count
      simp only [Function.comp_apply, List.length_cons]
      omega
  | case4 text notLast notMiddle =>
      rw [reach?_cons_of_ne (ne_escape notLast notMiddle), if_pos rfl] at unclosed
      cases unclosed
  | case5 character text notLast notMiddle notQuote induction =>
      have plain := ne_escape notLast notMiddle
      rw [reach?_cons_of_ne plain, if_neg notQuote, Option.map_eq_none_iff] at unclosed
      have inner : Text.endsOpen text = false := by
        rw [← settled]
        exact (Text.endsOpen_append_cons plain [] text).symm
      rw [List.cons_append, reach?_cons_of_ne plain, if_neg notQuote, induction unclosed inner,
        Option.map_map]
      congr 1
      funext count
      simp only [Function.comp_apply, List.length_cons]
      omega

theorem reach?_append_of_eq_some {text : Text} {count : Nat}
    (reached : reach? quote.character text = some count) (rest : Text) :
    reach? quote.character (text ++ rest) = some count :=
  reach?_of_isPrefix reached ((List.take_prefix ..).trans (List.prefix_append ..))

/-- A string that reaches over a tame text reaches over any other as well. -/
theorem reach?_exchange (quote : Quote) {text hidden other : Text} (settled : Text.endsOpen text = false)
    (tame : hidden.Tame) (otherTame : other.Tame) (rest : Text) :
    (∃ count ≤ text.length, reach? quote.character (text ++ (hidden ++ rest)) = some count ∧
        reach? quote.character (text ++ (other ++ rest)) = some count) ∨
      reach? quote.character (text ++ (hidden ++ rest)) =
          (reach? quote.character rest).map (text.length + hidden.length + ·) ∧
        reach? quote.character (text ++ (other ++ rest)) =
          (reach? quote.character rest).map (text.length + other.length + ·) := by
  cases reached : reach? quote.character text with
  | some count =>
      exact Or.inl ⟨count, (endsAt_of_reach? reached).le_length,
        reach?_append_of_eq_some reached _, reach?_append_of_eq_some reached _⟩
  | none =>
      right
      rw [reach?_append reached settled, reach?_append reached settled,
        reach?_tame_append tame, reach?_tame_append otherTame, Option.map_map, Option.map_map]
      constructor <;>
      · congr 1
        funext count
        simp only [Function.comp_apply]
        omega

end Quoted

/-! ## Urls -/

namespace Text

theorem parenReach?_eq_none_iff {text : Text} : parenReach? text = none ↔ ')' ∉ text := by
  induction text with
  | nil => simp [parenReach?]
  | cons character rest induction =>
      rw [parenReach?]
      by_cases closes : character = ')'
      · simp [closes]
      · simp [closes, induction, Ne.symm closes]

end Text

namespace Url

variable {hidden other rest : Text}

theorem quotedReach?_exchange {quote : Quote} {text : Text} (settled : Text.endsOpen text = false)
    (tame : hidden.Tame) (otherTame : other.Tame) (closes : ')' ∉ other ∨ ')' ∈ rest)
    (unclosed : quotedReach? quote (text ++ (hidden ++ rest)) = none) :
    quotedReach? quote (text ++ (other ++ rest)) = none := by
  rw [quotedReach?] at unclosed ⊢
  rcases Quoted.reach?_exchange quote settled tame otherTame rest with
    ⟨count, inside, first, second⟩ | ⟨first, second⟩
  · rw [first, Option.bind_some, Option.map_eq_none_iff, Text.parenReach?_eq_none_iff,
      List.drop_append_of_le_length inside] at unclosed
    rw [second, Option.bind_some, Option.map_eq_none_iff, Text.parenReach?_eq_none_iff,
      List.drop_append_of_le_length inside]
    simp only [List.mem_append, not_or] at unclosed ⊢
    obtain ⟨notInText, -, notInRest⟩ := unclosed
    exact ⟨notInText, closes.resolve_right notInRest, notInRest⟩
  · cases reached : Quoted.reach? quote.character rest with
    | none => rw [second, reached, Option.map_none, Option.bind_none]
    | some count =>
        rw [first, reached, Option.map_some, Option.bind_some, Option.map_eq_none_iff] at unclosed
        rw [second, reached, Option.map_some, Option.bind_some, Option.map_eq_none_iff]
        rwa [Nat.add_assoc, ← List.drop_drop, ← List.drop_drop, List.drop_left, List.drop_left]
          at unclosed ⊢

/-! ### Bars -/

theorem of_mem_covers {bar : Char} (isBar : bar ∈ Text.covers) :
    isForbidden bar = true ∧ bar ≠ ')' ∧ bar ≠ '\\' ∧ isBlank bar = false := by
  have all : ∀ bar ∈ Text.covers,
      isForbidden bar = true ∧ bar ≠ ')' ∧ bar ≠ '\\' ∧ isBlank bar = false := by decide
  exact all bar isBar

theorem addressReach?_bar {bar : Char} (isBar : bar ∈ Text.covers) (before first second : Text) :
    addressReach? (before ++ bar :: first) = addressReach? (before ++ bar :: second) := by
  obtain ⟨forbidden, noParen, -, -⟩ := of_mem_covers isBar
  induction before with
  | nil =>
      rw [List.nil_append, List.nil_append, addressReach?, addressReach?, if_neg noParen,
        if_neg noParen, if_pos forbidden, if_pos forbidden]
  | cons character before induction =>
      rw [List.cons_append, List.cons_append, addressReach?, addressReach?, induction]

theorem addressFault_bar {bar : Char} (isBar : bar ∈ Text.covers) (before behind : Text) :
    addressFault (before ++ bar :: behind) = .invalidUrl := by
  have forbidden : (before ++ bar :: behind).any isForbidden = true := by
    rw [List.any_append, List.any_cons, (of_mem_covers isBar).1, Bool.true_or, Bool.or_true]
  rw [addressFault, if_pos forbidden]

theorem contentFault_cons_of_isBlank {character : Char} (blank : isBlank character = true)
    (text : Text) : contentFault (character :: text) = contentFault text := by
  rw [contentFault, List.dropWhile_cons_of_pos blank, contentFault]

theorem not_isBlank_of_quote {character : Char} {quote : Quote}
    (isQuote : Quote.ofCharacter? character = some quote) : ¬isBlank character = true := by
  intro blank
  unfold Quote.ofCharacter? at isQuote
  split at isQuote
  next isDouble =>
    subst isDouble
    cases blank
  next =>
    split at isQuote
    next isSingle =>
      subst isSingle
      cases blank
    next => cases isQuote

theorem contentFault_cons_of_quote {character : Char} {quote : Quote}
    (isQuote : Quote.ofCharacter? character = some quote) (text : Text) :
    contentFault (character :: text) =
      if (Quoted.reach? quote.character text).isNone then .openUrlString else .openUrl := by
  rw [contentFault, List.dropWhile_cons_of_neg (not_isBlank_of_quote isQuote)]
  simp only [isQuote]

theorem contentFault_cons_of_address {character : Char} (visible : ¬isBlank character = true)
    (noQuote : Quote.ofCharacter? character = none) (text : Text) :
    contentFault (character :: text) = addressFault (character :: text) := by
  rw [contentFault, List.dropWhile_cons_of_neg visible]
  simp only [noQuote]

theorem contentReach?_cons_of_address {character : Char} (visible : ¬isBlank character = true)
    (noQuote : Quote.ofCharacter? character = none) (text : Text) :
    contentReach? (character :: text) = addressReach? (character :: text) := by
  rw [contentReach?, if_neg visible]
  simp only [noQuote]

theorem contentReach?_exchange_of_quote {character : Char} {quote : Quote}
    (isQuote : Quote.ofCharacter? character = some quote) {text : Text}
    (settled : Text.endsOpen text = false) (tame : hidden.Tame) (otherTame : other.Tame)
    (closes : ')' ∉ other ∨ ')' ∈ rest)
    (unclosed : contentReach? (character :: (text ++ (hidden ++ rest))) = none) :
    contentReach? (character :: (text ++ (other ++ rest))) = none ∧
      contentFault (character :: (text ++ (hidden ++ rest))) =
        contentFault (character :: (text ++ (other ++ rest))) := by
  simp only [contentReach?, if_neg (not_isBlank_of_quote isQuote), isQuote,
    Option.map_eq_none_iff] at unclosed ⊢
  refine ⟨quotedReach?_exchange settled tame otherTame closes unclosed, ?_⟩
  rw [contentFault_cons_of_quote isQuote, contentFault_cons_of_quote isQuote]
  rcases Quoted.reach?_exchange quote settled tame otherTame rest with
    ⟨count, -, first, second⟩ | ⟨first, second⟩
  · rw [first, second]
  · rw [first, second, Option.isNone_map, Option.isNone_map]

/-- An address is at fault at a bar, whatever stands behind that. -/
theorem contentReach?_exchange_of_address {bar character : Char} (isBar : bar ∈ Text.covers)
    (visible : ¬isBlank character = true) (noQuote : Quote.ofCharacter? character = none)
    {before first second firstTail secondTail : Text}
    (isFirst : before ++ bar :: first = character :: firstTail)
    (isSecond : before ++ bar :: second = character :: secondTail)
    (unclosed : contentReach? (before ++ bar :: first) = none) :
    contentReach? (before ++ bar :: second) = none ∧
      contentFault (before ++ bar :: first) = contentFault (before ++ bar :: second) := by
  have sameReach := addressReach?_bar isBar before first second
  have sameFault := (addressFault_bar isBar before first).trans
    (addressFault_bar isBar before second).symm
  rw [isFirst, isSecond] at sameReach sameFault
  rw [isFirst, contentReach?_cons_of_address visible noQuote] at unclosed
  rw [isFirst, isSecond, contentReach?_cons_of_address visible noQuote,
    contentFault_cons_of_address visible noQuote, contentFault_cons_of_address visible noQuote]
  exact ⟨sameReach.symm.trans unclosed, sameFault⟩

/-- A url that is at fault over a tame text behind a bar has the same fault over any other. -/
theorem contentReach?_exchange {bar : Char} (isBar : bar ∈ Text.covers) (tame : hidden.Tame)
    (otherTame : other.Tame) (closes : ')' ∉ other ∨ ')' ∈ rest) {before : Text}
    (unclosed : contentReach? (before ++ bar :: (hidden ++ rest)) = none) :
    contentReach? (before ++ bar :: (other ++ rest)) = none ∧
      contentFault (before ++ bar :: (hidden ++ rest)) =
        contentFault (before ++ bar :: (other ++ rest)) := by
  obtain ⟨-, -, noBackslash, isVisible⟩ := of_mem_covers isBar
  induction before with
  | nil =>
      cases isQuote : Quote.ofCharacter? bar with
      | some quote =>
          exact @contentReach?_exchange_of_quote _ _ _ _ _ isQuote [] rfl tame otherTame closes
            unclosed
      | none =>
          have visible : ¬isBlank bar = true := by simp [isVisible]
          exact contentReach?_exchange_of_address isBar visible isQuote rfl rfl unclosed
  | cons character before induction =>
      by_cases blank : isBlank character = true
      · rw [List.cons_append, contentReach?, if_pos blank, Option.map_eq_none_iff] at unclosed
        obtain ⟨later, sameFault⟩ := induction unclosed
        rw [List.cons_append, List.cons_append, contentReach?, if_pos blank, later,
          contentFault_cons_of_isBlank blank, contentFault_cons_of_isBlank blank]
        exact ⟨rfl, sameFault⟩
      · cases isQuote : Quote.ofCharacter? character with
        | some quote =>
            have settled := Text.endsOpen_singleton noBackslash before
            have through (inner : Text) : character :: before ++ bar :: (inner ++ rest) =
                character :: (before ++ [bar] ++ (inner ++ rest)) := by simp
            rw [through] at unclosed
            rw [through, through]
            exact contentReach?_exchange_of_quote isQuote settled tame otherTame closes unclosed
        | none => exact contentReach?_exchange_of_address isBar blank isQuote rfl rfl unclosed

/-- What is forbidden in an address stands before the first parenthesis, if it does not end
there. -/
theorem any_isForbidden_of_addressReach? {text : Text} (unclosed : addressReach? text = none)
    (closes : ')' ∈ text) : text.any isForbidden = true := by
  induction text with
  | nil => cases closes
  | cons character text induction =>
      rw [addressReach?] at unclosed
      split at unclosed
      next => cases unclosed
      next notClosing =>
        rw [List.any_cons, Bool.or_eq_true]
        split at unclosed
        next forbidden => exact .inl forbidden
        next =>
          exact .inr (induction (Option.map_eq_none_iff.mp unclosed)
            ((List.mem_cons.mp closes).resolve_left (Ne.symm notClosing)))

/-- Over a tame text that a parenthesis closes, a url can be at fault in one way only. -/
theorem contentFault_of_tame (tame : hidden.Tame)
    (unclosed : contentReach? (hidden ++ ')' :: rest) = none) :
    contentFault (hidden ++ ')' :: rest) = .invalidUrl := by
  induction hidden with
  | nil => cases unclosed
  | cons character hidden induction =>
      rw [List.cons_append] at unclosed ⊢
      by_cases blank : isBlank character = true
      · rw [contentReach?, if_pos blank, Option.map_eq_none_iff] at unclosed
        rw [contentFault_cons_of_isBlank blank]
        exact induction tame.tail unclosed
      · have isAddress : Quote.ofCharacter? character = none := by
          rw [Quote.ofCharacter?, if_neg tame.head.1, if_neg tame.head.2.1]
        rw [contentReach?_cons_of_address blank isAddress] at unclosed
        rw [contentFault_cons_of_address blank isAddress, addressFault,
          if_pos (any_isForbidden_of_addressReach? unclosed (by simp))]

/-! ### Comments -/

theorem addressReach?_eq_none_of_contentReach? {text : Text} (unclosed : contentReach? text = none) :
    addressReach? text = none := by
  cases text with
  | nil => rfl
  | cons character text =>
      have barred (forbidden : isForbidden character = true) (noParen : character ≠ ')') :
          addressReach? (character :: text) = none := by
        rw [addressReach?, if_neg noParen, if_pos forbidden]
      rw [contentReach?] at unclosed
      split at unclosed
      next blank =>
        refine barred ?_ ?_
        · rw [isForbidden, blank, Bool.or_true, Bool.true_or]
        · rintro rfl
          cases blank
      next visible =>
        split at unclosed
        next quote isQuote =>
          refine barred ?_ ?_
          · rw [isForbidden, isQuote, Option.isSome_some, Bool.true_or, Bool.true_or,
              Bool.true_or]
          · rintro rfl
            cases isQuote
        next => exact unclosed

theorem addressReach?_insert (noParen : ')' ∉ other) {before : Text}
    (unclosed : addressReach? (before ++ rest) = none) :
    addressReach? (before ++ (other ++ rest)) = none := by
  induction before with
  | nil =>
      rw [List.nil_append] at unclosed ⊢
      induction other with
      | nil => exact unclosed
      | cons character other induction =>
          rw [List.mem_cons, not_or] at noParen
          rw [List.cons_append, addressReach?, if_neg (Ne.symm noParen.1), induction noParen.2]
          split <;> rfl
  | cons character before induction =>
      rw [List.cons_append, addressReach?] at unclosed ⊢
      split at unclosed
      · cases unclosed
      next notClosing =>
        rw [if_neg notClosing]
        split at unclosed
        next forbidden => rw [if_pos forbidden]
        next allowed =>
          rw [if_neg allowed, induction (Option.map_eq_none_iff.mp unclosed), Option.map_none]

/-- A comment does not close a url that is at fault. -/
theorem contentReach?_insert (tame : Text.Tame ('/' :: other)) (noParen : ')' ∉ '/' :: other)
    {before : Text} (settled : Text.endsOpen before = false)
    (unclosed : contentReach? (before ++ rest) = none) :
    contentReach? (before ++ ('/' :: other ++ rest)) = none := by
  induction before with
  | nil =>
      have address := @addressReach?_insert _ rest noParen []
        (addressReach?_eq_none_of_contentReach? unclosed)
      rw [List.nil_append] at address ⊢
      rw [List.cons_append] at address ⊢
      exact address
  | cons character before induction =>
      rw [List.cons_append] at unclosed ⊢
      have inner (noBackslash : character ≠ '\\') : Text.endsOpen before = false :=
        (Text.endsOpen_append_cons noBackslash [] before).symm.trans settled
      rw [contentReach?] at unclosed ⊢
      split at unclosed
      next blank =>
        have noBackslash : character ≠ '\\' := by
          rintro rfl
          cases blank
        rw [if_pos blank, induction (inner noBackslash) (Option.map_eq_none_iff.mp unclosed),
          Option.map_none]
      next visible =>
        rw [if_neg visible]
        split at unclosed
        next quote isQuote =>
          have noBackslash : character ≠ '\\' := by
            rintro rfl
            cases isQuote
          rw [Option.map_eq_none_iff] at unclosed ⊢
          exact @quotedReach?_exchange [] _ _ _ _ (inner noBackslash)
            (List.forall_mem_nil _) tame (.inl noParen) unclosed
        next =>
          rw [← List.cons_append] at unclosed ⊢
          exact addressReach?_insert noParen unclosed

end Url

end Stylesheet
