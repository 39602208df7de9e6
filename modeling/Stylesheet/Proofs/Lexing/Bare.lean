import Stylesheet.Proofs.Lexing.Statement

/-!
# Statements of nothing but text

A statement without strings, urls, calls and interpolations is read off its text: it has a
key if there is no colon, two sides if there is one. The extended syntax reads it in the same
way, unless a colon stands before `extend`; but there a statement without a colon may stand
alone if it begins with `@`.
-/

namespace Stylesheet

namespace Text

/-- Whether a statement with this text may stand alone in the extended syntax. -/
def standsAlone (text : Text) : Bool :=
  text.head? == some '@' && !text.contains ':'

theorem split_isPrefix (separator : Char) (text : Text) : (split separator text).1 <+: text := by
  induction text with
  | nil => exact List.prefix_rfl
  | cons character rest induction =>
      by_cases isSeparator : character = separator
      · simp only [split, if_pos isSeparator]
        exact List.nil_prefix
      · simp only [split, if_neg isSeparator]
        exact (List.prefix_cons_inj character).mpr induction

/-- Every piece but the first stands behind a separator. -/
theorem infix_of_mem_split {separator : Char} {text piece : Text}
    (member : piece ∈ (split separator text).2) : separator :: piece <:+: text := by
  induction text with
  | nil => cases member
  | cons character rest induction =>
      by_cases isSeparator : character = separator
      · simp only [split, if_pos isSeparator] at member
        rw [isSeparator]
        rcases List.mem_cons.mp member with rfl | later
        · exact ((List.prefix_cons_inj separator).mpr (split_isPrefix separator rest)).isInfix
        · exact List.infix_cons (induction later)
      · simp only [split, if_neg isSeparator] at member
        exact List.infix_cons (induction member)

theorem split_eq_nil_iff {separator : Char} {text : Text} :
    (split separator text).2 = [] ↔ separator ∉ text := by
  constructor
  · intro whole
    have joined := join_split separator text
    rw [whole, join] at joined
    have noSeparator := not_mem_split separator text _ List.mem_cons_self
    rwa [joined] at noSeparator
  · intro noSeparator
    refine List.eq_nil_iff_forall_not_mem.mpr fun piece member => noSeparator ?_
    exact (infix_of_mem_split member).subset List.mem_cons_self

theorem mem_trim_iff {character : Char} (visible : isBlank character = false) {text : Text} :
    character ∈ trim text ↔ character ∈ text := by
  obtain ⟨front, back, frontBlank, backBlank, split⟩ := exists_append_trim_append text
  have notIn {blank : Text} (isBlank : Blank blank) : character ∉ blank := by
    intro member
    rw [isBlank character member] at visible
    cases visible
  conv => rhs; rw [split]
  simp [notIn frontBlank, notIn backBlank]

end Text

/-! ## The extended syntax -/

theorem attachExtends_of_none {pieces : List Text}
    (none_ : ∀ piece ∈ pieces, isExtend piece = false) (head : Text) :
    attachExtends head pieces = (head, pieces) := by
  induction pieces generalizing head with
  | nil => rfl
  | cons piece pieces induction =>
      have noExtend : ¬isExtend piece = true := by simp [none_ piece List.mem_cons_self]
      rw [attachExtends, if_neg noExtend,
        induction fun other member => none_ other (List.mem_cons_of_mem _ member)]

theorem separated_of_no_extend {text : Text} (noExtend : ¬":extend".toList <:+: text) :
    separated true text = separated false text := by
  have none_ : ∀ piece ∈ (Text.split ':' text).2, isExtend piece = false := by
    intro piece member
    rw [Bool.eq_false_iff]
    intro extends_
    have begins : "extend".toList <+: piece := by
      rw [isExtend, Bool.or_eq_true, beq_iff_eq] at extends_
      rcases extends_ with rfl | isCall
      · exact List.prefix_rfl
      · exact (by decide : "extend".toList <+: "extend(".toList).trans
          (List.isPrefixOf_iff_prefix.mp isCall)
    have behind : ":extend".toList <+: ':' :: piece := (List.prefix_cons_inj ':').mpr begins
    exact noExtend (behind.isInfix.trans (Text.infix_of_mem_split member))
  rw [separated, separated]
  exact attachExtends_of_none none_ _

/-- A word that both syntaxes read alike. -/
structure Word.IsBare (word : Word) : Prop where
  isText : word.isText = true
  noExtend : ¬":extend".toList <:+: word.text

variable {words : List Word}

theorem Sides.foldlM_of_isBare (bare : ∀ word ∈ words, word.IsBare) (lessSyntax : Bool)
    (sides : Sides) :
    words.foldlM (Sides.add? lessSyntax) sides = sides.addText? false (Word.joined words) := by
  induction words generalizing sides with
  | nil =>
      rw [← foldlM_text]
      rfl
  | cons word words induction =>
      obtain ⟨isText, noExtend⟩ := bare word List.mem_cons_self
      have first : sides.add? lessSyntax word = sides.addText? false word.text := by
        rw [add?, if_pos isText]
        cases lessSyntax with
        | false => rfl
        | true => rw [addText?, addText?, separated_of_no_extend noExtend]
      rw [List.foldlM_cons, first, Word.joined_cons, ← foldlM_text, ← foldlM_text, List.map_append,
        List.foldlM_append]
      congr 1
      funext next
      rw [foldlM_text]
      exact induction (fun other member => bare other (List.mem_cons_of_mem _ member)) next

/-- What has been read of a text: a key, or two sides, or too many. -/
theorem Sides.addText?_empty_cases (text : Text) :
    (':' ∉ text ∧ empty.addText? false text = some ⟨text, none, false⟩) ∨
      ':' ∈ text ∧ ((∃ key value, empty.addText? false text = some ⟨key, some value, false⟩) ∨
        empty.addText? false text = none) := by
  cases pieces : Text.split ':' text with
  | mk head tail =>
      have split : (Text.split ':' text).2 = tail := by rw [pieces]
      have isSeparated : separated false text = (head, tail) := pieces
      rw [addText?, isSeparated]
      cases tail with
      | nil => exact .inl ⟨Text.split_eq_nil_iff.mp split, rfl⟩
      | cons piece others =>
          have hasColon : ':' ∈ text := by
            refine Decidable.byContradiction fun noColon => ?_
            rw [Text.split_eq_nil_iff.mpr noColon] at split
            cases split
          refine .inr ⟨hasColon, ?_⟩
          cases others with
          | nil => exact .inl ⟨_, _, rfl⟩
          | cons next others => exact .inr rfl

/-- In the extended syntax some statements may stand alone that are malformed in plain
stylesheets. There is no other difference between statements of nothing but text. -/
theorem Statement.ofWords_extended (options : TokenizeOptions)
    (bare : ∀ word ∈ words, word.IsBare) :
    let plain := ofWords { options with lessSyntax := false } words
    ofWords { options with lessSyntax := true } words =
        (if (Word.trimmed words).standsAlone then .standalone else plain) ∧
      ((Word.trimmed words).standsAlone = true → plain = .malformed) := by
  have noBlank : Text.isBlank ':' = false := by decide
  simp only [ofWords, Sides.foldlM_of_isBare bare, Word.trimmed]
  rcases Sides.addText?_empty_cases (Word.joined words) with ⟨noColon, isKey⟩ | ⟨hasColon, sides⟩
  · have noneLeft : ':' ∉ Text.trim (Word.joined words) := fun member =>
      noColon ((Text.mem_trim_iff noBlank).mp member)
    simp [isKey, ofSides, Text.standsAlone, noneLeft]
  · have stays : Text.standsAlone (Text.trim (Word.joined words)) = false := by
      simp [Text.standsAlone, (Text.mem_trim_iff noBlank).mpr hasColon]
    rw [stays]
    refine ⟨?_, fun stands => absurd stands Bool.false_ne_true⟩
    rcases sides with ⟨key, value, sides⟩ | sides <;> rw [sides] <;> rfl

end Stylesheet
