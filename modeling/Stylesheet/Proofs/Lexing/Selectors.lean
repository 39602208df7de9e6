import Mathlib.Logic.Relation
import Stylesheet.Proofs.Lexing.Statement

/-!
# Selectors

The selectors of a heading are the pieces of its text between the commas of the text words.
Words that are no text are never cut. Nothing else matters: the heading is the same however
its characters are grouped into words, so it does not show where an escape, a comment or the
letters of a broken url have begun a word of their own.
-/

namespace Stylesheet

namespace Word

/-- The text words are cut in another way: one is cut in two, two neighbours are joined, or
an empty one is put in. -/
inductive Regroups : List Word → List Word → Prop
  | cut {front back : List Word} {word first second : Word} (isText : word.isText = true)
      (firstIsText : first.isText = true) (secondIsText : second.isText = true)
      (whole : word.text = first.text ++ second.text) :
      Regroups (front ++ word :: back) (front ++ first :: second :: back)
  | join {front back : List Word} {word first second : Word} (isText : word.isText = true)
      (firstIsText : first.isText = true) (secondIsText : second.isText = true)
      (whole : word.text = first.text ++ second.text) :
      Regroups (front ++ first :: second :: back) (front ++ word :: back)
  | insert {front back : List Word} {word : Word} (isText : word.isText = true)
      (empty : word.text = []) : Regroups (front ++ back) (front ++ word :: back)

theorem glyphs_of_isText {word : Word} (isText : word.isText = true) :
    word.glyphs = word.text.map .text := by
  simp [glyphs, isText]

theorem allGlyphs_append (front back : List Word) :
    allGlyphs (front ++ back) = allGlyphs front ++ allGlyphs back :=
  List.flatMap_append

theorem allGlyphs_cons (word : Word) (words : List Word) :
    allGlyphs (word :: words) = word.glyphs ++ allGlyphs words :=
  List.flatMap_cons

theorem Regroups.allGlyphs_eq {words regrouped : List Word} (regroups : Regroups words regrouped) :
    allGlyphs regrouped = allGlyphs words := by
  have halves {word first second : Word} (isText : word.isText = true)
      (firstIsText : first.isText = true) (secondIsText : second.isText = true)
      (whole : word.text = first.text ++ second.text) :
      word.glyphs = first.glyphs ++ second.glyphs := by
    rw [glyphs_of_isText isText, glyphs_of_isText firstIsText, glyphs_of_isText secondIsText, whole,
      List.map_append]
  cases regroups with
  | cut isText firstIsText secondIsText whole =>
      simp only [allGlyphs_append, allGlyphs_cons, List.append_assoc,
        halves isText firstIsText secondIsText whole]
  | join isText firstIsText secondIsText whole =>
      simp only [allGlyphs_append, allGlyphs_cons, List.append_assoc,
        halves isText firstIsText secondIsText whole]
  | insert isText empty =>
      rw [allGlyphs_append, allGlyphs_append, allGlyphs_cons, glyphs_of_isText isText, empty,
        List.map_nil, List.nil_append]

end Word

namespace Heading

/-- The pieces between the commas of the text words, trimmed, blank ones left out. -/
def piecesOf (words : List Word) : List Text :=
  let cut := (Word.allGlyphs words).splitOn (.text ',')
  (cut.map fun piece => Text.trim (piece.map Glyph.character)).filter (!·.isEmpty)

theorem splitOn_commaJoin {first : List Glyph} {others : List (List Glyph)}
    (noComma : ∀ piece ∈ first :: others, Glyph.text ',' ∉ piece) :
    (commaJoin first others).splitOn (.text ',') = first :: others := by
  induction others generalizing first with
  | nil =>
      rw [commaJoin, List.flatMap_nil, List.append_nil]
      exact List.splitOn_eq_singleton (noComma first List.mem_cons_self)
  | cons second others induction =>
      have behind := induction fun piece member => noComma piece (List.mem_cons_of_mem _ member)
      have atComma : commaJoin first (second :: others) =
          first ++ .text ',' :: commaJoin second others := rfl
      rw [atComma,
        List.splitOn_append_cons_self_of_not_mem (noComma first List.mem_cons_self), behind]

theorem selectorsOf_eq_piecesOf (words : List Word) : selectorsOf words = piecesOf words := by
  obtain ⟨first, others, split, noComma⟩ := exists_commaJoin (Word.allGlyphs words)
  rw [selectorsOf_eq_selectorsOfGlyphs, piecesOf, split, selectorsOfGlyphs_commaJoin noComma,
    splitOn_commaJoin noComma]

theorem ofWords_eq_ofSelectors_piecesOf (words : List Word) :
    ofWords words = ofSelectors (Word.trimmed words) (piecesOf words) := by
  rw [ofWords_eq_ofSelectors, ← selectorsOf_eq_selectorsOfGlyphs, selectorsOf_eq_piecesOf]

theorem ofSelectors_of_at {first : Text} (isAt : first.head? = some '@') (text : Text)
    (others : List Text) :
    ofSelectors text (first :: others) = ⟨text, none, some (atRuleOf first others)⟩ := by
  rw [ofSelectors, if_pos (by simp [isAt])]

theorem ofSelectors_of_not_at {first : Text} (noAt : first.head? ≠ some '@') (text : Text)
    (others : List Text) :
    ofSelectors text (first :: others) = ⟨text, some (first :: others), none⟩ := by
  rw [ofSelectors, if_neg (by simpa using noAt)]

theorem ofSelectors_unclassified_iff (text : Text) (selectors : List Text) :
    (ofSelectors text selectors).selectors = none ∧ (ofSelectors text selectors).atRule = none ↔
      selectors = [] := by
  cases selectors with
  | nil => simp [ofSelectors]
  | cons first others =>
      by_cases isAt : first.head? = some '@'
      · simp [ofSelectors_of_at isAt]
      · simp [ofSelectors_of_not_at isAt]

/-- The name of an at-rule is the longest stretch without blanks behind the `@`. -/
theorem exists_name_of_at {first : Text} (isAt : first.head? = some '@') :
    ∃ name behind, first = '@' :: name ++ behind ∧
      (∀ character ∈ name, Text.isBlank character = false) ∧
      (∀ character ∈ behind.head?, Text.isBlank character = true) ∧
      ∀ others, atRuleOf first others = ⟨name, behind.trim :: others⟩ := by
  cases first with
  | nil => cases isAt
  | cons character rest =>
      cases isAt
      refine ⟨rest.takeWhile (!Text.isBlank ·), rest.dropWhile (!Text.isBlank ·), ?_, ?_, ?_,
        atRuleOf_cons rest⟩
      · rw [List.cons_append, List.takeWhile_append_dropWhile]
      · intro character member
        simpa using List.all_eq_true.mp List.all_takeWhile character member
      · intro character isHead
        have ends := List.head?_dropWhile_not (!Text.isBlank ·) rest
        rw [Option.mem_def.mp isHead] at ends
        simpa using ends

/-- A heading depends on its text and on which of its characters stand in text words. Its
selectors are the pieces between the commas of the text words, unless the first piece
begins with `@`: then they are the name and the values of an at-rule. -/
theorem ofWords_of_piecesOf (words : List Word) :
    selectorsOf words = piecesOf words ∧
    (ofWords words).text = Word.trimmed words ∧
    (piecesOf words = [] ↔ (ofWords words).selectors = none ∧ (ofWords words).atRule = none) ∧
    (∀ first others, piecesOf words = first :: others →
      if first.head? = some '@' then
        (ofWords words).selectors = none ∧
        ∃ name behind, first = '@' :: name ++ behind ∧
          (∀ character ∈ name, Text.isBlank character = false) ∧
          (∀ character ∈ behind.head?, Text.isBlank character = true) ∧
          (ofWords words).atRule = some ⟨name, behind.trim :: others⟩
      else
        (ofWords words).selectors = some (first :: others) ∧ (ofWords words).atRule = none) ∧
    (∀ others, Word.allGlyphs others = Word.allGlyphs words →
      selectorsOf others = selectorsOf words ∧ ofWords others = ofWords words) ∧
    ∀ regrouped, Relation.ReflTransGen Word.Regroups words regrouped →
      selectorsOf regrouped = selectorsOf words ∧ ofWords regrouped = ofWords words := by
  have sameGlyphs (others : List Word) (same : Word.allGlyphs others = Word.allGlyphs words) :
      selectorsOf others = selectorsOf words ∧ ofWords others = ofWords words := by
    have sameText : Word.trimmed others = Word.trimmed words := by
      rw [Word.trimmed, Word.trimmed, ← Word.map_character_allGlyphs, same,
        Word.map_character_allGlyphs]
    rw [selectorsOf_eq_selectorsOfGlyphs, selectorsOf_eq_selectorsOfGlyphs, ofWords_eq_ofSelectors,
      ofWords_eq_ofSelectors, same, sameText]
    exact ⟨rfl, rfl⟩
  refine ⟨selectorsOf_eq_piecesOf words, text_ofWords words, ?_, ?_, sameGlyphs, ?_⟩
  · rw [ofWords_eq_ofSelectors_piecesOf]
    exact (ofSelectors_unclassified_iff _ _).symm
  · intro first others pieces
    rw [ofWords_eq_ofSelectors_piecesOf, pieces]
    split
    next isAt =>
      obtain ⟨name, behind, split, noBlank, blankBehind, isAtRule⟩ := exists_name_of_at isAt
      rw [ofSelectors_of_at isAt]
      exact ⟨rfl, name, behind, split, noBlank, blankBehind, congrArg some (isAtRule others)⟩
    next noAt =>
      rw [ofSelectors_of_not_at noAt]
      exact ⟨rfl, rfl⟩
  · intro regrouped regroups
    apply sameGlyphs
    induction regroups with
    | refl => rfl
    | tail _ last induction => exact last.allGlyphs_eq.trans induction

/-- The heading of an at-rule with two values, cut in two in front of its comma. -/
theorem ofWords_of_piecesOf_cut_at_rule :
    let first : Word := ⟨.text, "@media a".toList, 0, false⟩
    let second : Word := ⟨.text, ", b".toList, 8, false⟩
    let whole : Word := ⟨.text, "@media a, b".toList, 0, false⟩
    piecesOf [whole] = ["@media a".toList, "b".toList] ∧
      (∃ name behind : Text, "@media a".toList = '@' :: name ++ behind ∧
        (ofWords [whole]).atRule = some ⟨name, behind.trim :: ["b".toList]⟩) ∧
      Relation.ReflTransGen Word.Regroups [whole] [first, second] ∧
      Word.allGlyphs [first, second] = Word.allGlyphs [whole] ∧
      selectorsOf [first, second] = selectorsOf [whole] ∧
      ofWords [first, second] = ofWords [whole] := by
  intro first second whole
  have pieces : piecesOf [whole] = ["@media a".toList, "b".toList] := by decide
  have cut : Word.Regroups ([] ++ whole :: []) ([] ++ first :: second :: []) :=
    .cut rfl rfl rfl rfl
  have regroups := Relation.ReflTransGen.single cut
  have sameGlyphs : Word.allGlyphs [first, second] = Word.allGlyphs [whole] := by decide
  obtain ⟨-, -, -, classified, byGlyphs, byGroups⟩ := ofWords_of_piecesOf [whole]
  have isAtRule := classified _ _ pieces
  rw [if_pos (by decide)] at isAtRule
  obtain ⟨-, name, behind, split, -, -, isAtRule⟩ := isAtRule
  exact ⟨pieces, ⟨name, behind, split, isAtRule⟩, regroups, sameGlyphs,
    (byGlyphs _ sameGlyphs).1, (byGroups _ regroups).2⟩

end Heading
end Stylesheet
