import Stylesheet.Heading
import Stylesheet.Proofs.Lexing.Glyph
import Stylesheet.Proofs.Text.Significant
import Stylesheet.Statement

/-!
# Statements and headings as glyphs

What a statement or a heading is depends on its glyphs only: how they are grouped into
words does not matter. Blanks around it do not matter either.
-/

namespace Stylesheet

namespace Word

def glyphs (word : Word) : List Glyph :=
  word.text.map fun character => if word.isText then .text character else .literal character

def allGlyphs (words : List Word) : List Glyph :=
  words.flatMap glyphs

theorem map_character_allGlyphs (words : List Word) :
    (allGlyphs words).map Glyph.character = joined words := by
  induction words with
  | nil => rfl
  | cons word words induction =>
      have here : word.glyphs.map Glyph.character = word.text := by
        rw [glyphs, List.map_map]
        conv => rhs; rw [← List.map_id word.text]
        apply List.map_congr_left
        intro character _
        rw [Function.comp_apply]
        split <;> rfl
      rw [allGlyphs, List.flatMap_cons, List.map_append, here, joined_cons]
      exact congrArg _ induction

end Word

/-! ## Statements -/

namespace Sides

theorem append_nil (sides : Sides) : sides.append [] = sides := by
  obtain ⟨key, value, hasCall⟩ := sides
  cases value <;> simp [append]

theorem append_append (sides : Sides) (first second : Text) :
    (sides.append first).append second = sides.append (first ++ second) := by
  obtain ⟨key, value, hasCall⟩ := sides
  cases value <;> simp [append]

/-- Read one glyph. -/
def addGlyph? (sides : Sides) : Glyph → Option Sides
  | .text character =>
      if character = ':' then
        match sides.value with
        | none => some { sides with value := some [] }
        | some _ => none
      else some (sides.append [character])
  | .literal character | .boundary character =>
      if sides.value.isSome then some (sides.append [character]) else none

theorem foldlM_text (sides : Sides) (text : Text) :
    (text.map Glyph.text).foldlM addGlyph? sides = sides.addText? false text := by
  induction text generalizing sides with
  | nil => simp [addText?, separated, Text.split, append_nil]
  | cons character rest induction =>
      rw [List.map_cons, List.foldlM_cons, addGlyph?]
      obtain ⟨key, value, hasCall⟩ := sides
      have whole := Text.join_split ':' rest
      cases pieces : Text.split ':' rest with
      | mk head tail =>
          rw [pieces] at whole
          by_cases isColon : character = ':'
          · subst isColon
            rw [if_pos rfl]
            cases value with
            | some value => simp [addText?, separated, Text.split]
            | none =>
                simp only [Option.bind_eq_bind, Option.bind_some]
                rw [induction]
                cases tail with
                | nil =>
                    obtain rfl : head = rest := whole
                    simp [addText?, separated, Text.split, pieces, append]
                | cons piece tail => simp [addText?, separated, Text.split, pieces]
          · rw [if_neg isColon]
            simp only [Option.bind_eq_bind, Option.bind_some]
            rw [induction]
            cases tail with
            | nil => cases value <;> simp [addText?, separated, Text.split, pieces, append, isColon]
            | cons piece tail =>
                cases tail <;> cases value <;>
                  simp [addText?, separated, Text.split, pieces, append, isColon]

theorem foldlM_of_no_colon (sides : Sides) {text : Text} (noColon : ':' ∉ text) :
    (text.map Glyph.text).foldlM addGlyph? sides = some (sides.append text) := by
  induction text generalizing sides with
  | nil => simp [append_nil]
  | cons character rest induction =>
      have differs : character ≠ ':' := fun same => noColon (same ▸ List.mem_cons_self)
      rw [List.map_cons, List.foldlM_cons, addGlyph?, if_neg differs]
      simp only [Option.bind_eq_bind, Option.bind_some]
      rw [induction _ fun member => noColon (List.mem_cons_of_mem _ member), append_append,
        List.singleton_append]

theorem foldlM_literal_of_value {sides : Sides} (hasValue : sides.value.isSome = true)
    (text : Text) :
    (text.map Glyph.literal).foldlM addGlyph? sides = some (sides.append text) := by
  induction text generalizing sides with
  | nil => simp [append_nil]
  | cons character rest induction =>
      have still : (sides.append [character]).value.isSome = true := by
        obtain ⟨key, value, hasCall⟩ := sides
        cases value with
        | none => cases hasValue
        | some value => rfl
      rw [List.map_cons, List.foldlM_cons, addGlyph?, if_pos hasValue]
      simp only [Option.bind_eq_bind, Option.bind_some]
      rw [induction still, append_append, List.singleton_append]

theorem foldlM_glyphs (sides : Sides) {word : Word}
    (notEmpty : word.isText = false → word.text ≠ []) :
    word.glyphs.foldlM addGlyph? sides = sides.add? false word := by
  cases isText : word.isText with
  | true =>
      rw [add?, if_pos isText, ← foldlM_text, Word.glyphs]
      simp [isText]
  | false =>
      have asLiteral : word.glyphs = word.text.map Glyph.literal := by simp [Word.glyphs, isText]
      rw [add?, isText, asLiteral, addOpaque?]
      cases value : sides.value with
      | some text =>
          rw [foldlM_literal_of_value (by rw [value]; rfl)]
          rfl
      | none =>
          cases text : word.text with
          | nil => exact absurd text (notEmpty isText)
          | cons character rest =>
              rw [List.map_cons, List.foldlM_cons, addGlyph?, value]
              rfl

/-- A glyph of a key separates nothing and is looked into. -/
def IsKeyGlyph (glyph : Glyph) : Prop :=
  ∃ character, glyph = .text character ∧ character ≠ ':'

theorem foldlM_eq_some_of_value {key value : Text} {hasCall : Bool} {glyphs : List Glyph}
    {last : Sides} :
    glyphs.foldlM addGlyph? ⟨key, some value, hasCall⟩ = some last ↔
      .text ':' ∉ glyphs ∧ last = ⟨key, some (value ++ glyphs.map Glyph.character), hasCall⟩ := by
  induction glyphs generalizing value with
  | nil => simp [eq_comm]
  | cons glyph glyphs induction =>
      rw [List.foldlM_cons]
      by_cases isColon : glyph = .text ':'
      · subst isColon
        simp [addGlyph?]
      · have next : addGlyph? ⟨key, some value, hasCall⟩ glyph =
            some ⟨key, some (value ++ [glyph.character]), hasCall⟩ := by
          cases glyph with
          | text character =>
              have differs : character ≠ ':' := fun same => isColon (same ▸ rfl)
              rw [addGlyph?, if_neg differs]
              rfl
          | literal character => rfl
          | boundary character => rfl
        simp only [next, Option.bind_eq_bind, Option.bind_some, induction, List.mem_cons,
          List.map_cons, List.append_assoc, List.singleton_append, not_or, Ne.symm isColon,
          not_false_eq_true, true_and]

theorem foldlM_of_key {sides : Sides} (noValue : sides.value = none) {glyphs : List Glyph}
    (allKey : ∀ glyph ∈ glyphs, IsKeyGlyph glyph) :
    glyphs.foldlM addGlyph? sides =
      some { sides with key := sides.key ++ glyphs.map Glyph.character } := by
  induction glyphs generalizing sides with
  | nil => simp
  | cons glyph glyphs induction =>
      obtain ⟨character, rfl, differs⟩ := allKey glyph List.mem_cons_self
      have next : addGlyph? sides (.text character) =
          some { sides with key := sides.key ++ [character] } := by
        rw [addGlyph?, if_neg differs, append, noValue]
      rw [List.foldlM_cons, next]
      simp only [Option.bind_eq_bind, Option.bind_some]
      have stillNone : ({ sides with key := sides.key ++ [character] } : Sides).value = none :=
        noValue
      rw [induction stillNone fun other member => allKey other (List.mem_cons_of_mem _ member)]
      simp [Glyph.character]

/-- A key, a colon and a value without another colon are the two sides. -/
theorem foldlM_sides {before behind : List Glyph}
    (allKey : ∀ glyph ∈ before, IsKeyGlyph glyph) (noColon : .text ':' ∉ behind) :
    (before ++ .text ':' :: behind).foldlM addGlyph? empty =
      some ⟨before.map Glyph.character, some (behind.map Glyph.character), false⟩ := by
  have colon (key : Text) : addGlyph? ⟨key, none, false⟩ (.text ':') =
      some ⟨key, some [], false⟩ := rfl
  rw [List.foldlM_append, foldlM_of_key rfl allKey]
  simp only [Option.bind_eq_bind, Option.bind_some, List.foldlM_cons, empty, colon,
    List.nil_append]
  exact foldlM_eq_some_of_value.mpr ⟨noColon, rfl⟩

/-- What is read to its end has one colon at most, and only key glyphs before it. -/
theorem of_foldlM_eq_some {key : Text} {hasCall : Bool} {glyphs : List Glyph} {last : Sides}
    (read : glyphs.foldlM addGlyph? ⟨key, none, hasCall⟩ = some last) :
    (∀ glyph ∈ glyphs, IsKeyGlyph glyph) ∧ last.value = none ∨
      ∃ before behind, glyphs = before ++ .text ':' :: behind ∧
        (∀ glyph ∈ before, IsKeyGlyph glyph) ∧ .text ':' ∉ behind := by
  induction glyphs generalizing key with
  | nil =>
      cases read
      exact Or.inl ⟨by simp, rfl⟩
  | cons glyph glyphs induction =>
      rw [List.foldlM_cons] at read
      obtain ⟨next, first, later⟩ := Option.bind_eq_some_iff.mp read
      cases glyph with
      | literal character => cases first
      | boundary character => cases first
      | text character =>
          by_cases isColon : character = ':'
          · subst isColon
            cases first
            have noColon := (foldlM_eq_some_of_value.mp later).1
            exact Or.inr ⟨[], glyphs, rfl, by simp, noColon⟩
          · rw [addGlyph?, if_neg isColon] at first
            cases first
            have isKey : IsKeyGlyph (.text character) := ⟨character, rfl, isColon⟩
            rcases induction later with ⟨allKey, noValue⟩ | ⟨before, behind, rfl, allKey, noColon⟩
            · refine Or.inl ⟨?_, noValue⟩
              intro other member
              rcases List.mem_cons.mp member with rfl | member
              · exact isKey
              · exact allKey other member
            · refine Or.inr ⟨.text character :: before, behind, rfl, ?_, noColon⟩
              intro other member
              rcases List.mem_cons.mp member with rfl | member
              · exact isKey
              · exact allKey other member

/-! ### Blanks -/

theorem colon_not_mem_of_blank {blank : Text} (isBlank : Text.Blank blank) : ':' ∉ blank := by
  intro member
  cases isBlank ':' member

theorem addGlyph?_longer_key (front : Text) (sides : Sides) (glyph : Glyph) :
    addGlyph? { sides with key := front ++ sides.key } glyph =
      (addGlyph? sides glyph).map fun last => { last with key := front ++ last.key } := by
  obtain ⟨key, value, hasCall⟩ := sides
  cases glyph with
  | text character =>
      rw [addGlyph?, addGlyph?]
      split
      · cases value <;> rfl
      · cases value <;> simp [append]
  | literal character => cases value <;> rfl
  | boundary character => cases value <;> rfl

theorem foldlM_longer_key (front : Text) (sides : Sides) (glyphs : List Glyph) :
    glyphs.foldlM addGlyph? { sides with key := front ++ sides.key } =
      (glyphs.foldlM addGlyph? sides).map fun last => { last with key := front ++ last.key } := by
  induction glyphs generalizing sides with
  | nil => rfl
  | cons glyph glyphs induction =>
      rw [List.foldlM_cons, List.foldlM_cons, addGlyph?_longer_key]
      cases addGlyph? sides glyph with
      | none => rfl
      | some next => exact induction next

end Sides

namespace Statement

/-- What the statement with the given glyphs is. -/
def ofGlyphs (options : TokenizeOptions) (glyphs : List Glyph) : Statement :=
  match glyphs.foldlM Sides.addGlyph? Sides.empty with
  | none => malformed
  | some sides => ofSides options sides

theorem ofWords_eq_ofGlyphs {options : TokenizeOptions} (noLess : options.lessSyntax = false)
    {words : List Word} (notEmpty : ∀ word ∈ words, word.isText = false → word.text ≠ []) :
    ofWords options words = ofGlyphs options (Word.allGlyphs words) := by
  have general (sides : Sides) : (Word.allGlyphs words).foldlM Sides.addGlyph? sides =
      words.foldlM (Sides.add? false) sides := by
    induction words generalizing sides with
    | nil => rfl
    | cons word words induction =>
        have inner := Sides.foldlM_glyphs sides (notEmpty word List.mem_cons_self)
        rw [Word.allGlyphs, List.flatMap_cons, List.foldlM_append, inner, List.foldlM_cons]
        congr 1
        funext next
        exact induction (fun other member => notEmpty other (List.mem_cons_of_mem _ member)) next
  cases folded : words.foldlM (Sides.add? false) Sides.empty with
  | none => simp [ofWords, ofGlyphs, general, noLess, folded]
  | some sides => simp [ofWords, ofGlyphs, general, noLess, folded]

variable {options : TokenizeOptions} {glyphs : List Glyph} {blank : Text}

theorem ofGlyphs_blank_append (isBlank : Text.Blank blank) :
    ofGlyphs options (blank.map .text ++ glyphs) = ofGlyphs options glyphs := by
  have front : (blank.map Glyph.text).foldlM Sides.addGlyph? Sides.empty =
      some { Sides.empty with key := blank ++ Sides.empty.key } := by
    rw [Sides.foldlM_of_no_colon _ (Sides.colon_not_mem_of_blank isBlank)]
    simp [Sides.append, Sides.empty]
  rw [ofGlyphs, ofGlyphs, List.foldlM_append, front]
  simp only [Option.bind_eq_bind, Option.bind_some]
  rw [Sides.foldlM_longer_key]
  cases glyphs.foldlM Sides.addGlyph? Sides.empty with
  | none => rfl
  | some sides => simp [ofSides, Text.trim_blank_append isBlank]

theorem ofGlyphs_append_blank (isBlank : Text.Blank blank) :
    ofGlyphs options (glyphs ++ blank.map .text) = ofGlyphs options glyphs := by
  rw [ofGlyphs, ofGlyphs, List.foldlM_append]
  cases glyphs.foldlM Sides.addGlyph? Sides.empty with
  | none => rfl
  | some sides =>
      simp only [Option.bind_eq_bind, Option.bind_some]
      rw [Sides.foldlM_of_no_colon _ (Sides.colon_not_mem_of_blank isBlank)]
      obtain ⟨key, value, hasCall⟩ := sides
      cases value <;> simp [ofSides, Sides.append, Text.trim_append_blank isBlank]

end Statement

/-! ## Headings -/

namespace Heading

namespace Pieces

/-- Read one glyph. -/
def addGlyph (pieces : Pieces) : Glyph → Pieces
  | .text character =>
      if character = ',' then pieces.cut [] else pieces.append [character]
  | .literal character | .boundary character => pieces.append [character]

theorem append_append (pieces : Pieces) (first second : Text) :
    (pieces.append first).append second = pieces.append (first ++ second) := by
  simp [append]

theorem foldl_glyphs (pieces : Pieces) (word : Word) :
    word.glyphs.foldl addGlyph pieces = pieces.addWord word := by
  have text (pieces : Pieces) (text : Text) : (text.map Glyph.text).foldl addGlyph pieces =
      (Text.split ',' text).2.foldl cut (pieces.append (Text.split ',' text).1) := by
    induction text generalizing pieces with
    | nil => simp [Text.split, append]
    | cons character rest induction =>
        rw [List.map_cons, List.foldl_cons, addGlyph]
        by_cases isComma : character = ','
        · simp [isComma, induction, Text.split, append, cut]
        · simp [isComma, induction, Text.split, append_append]
  have literal (pieces : Pieces) (text : Text) :
      (text.map Glyph.literal).foldl addGlyph pieces = pieces.append text := by
    induction text generalizing pieces with
    | nil => simp [append]
    | cons character rest induction =>
        rw [List.map_cons, List.foldl_cons, addGlyph, induction, append_append,
          List.singleton_append]
  cases isText : word.isText with
  | true =>
      have glyphs : word.glyphs = word.text.map Glyph.text := by simp [Word.glyphs, isText]
      rw [glyphs, text, addWord, if_pos isText]
  | false =>
      have glyphs : word.glyphs = word.text.map Glyph.literal := by simp [Word.glyphs, isText]
      rw [glyphs, literal, addWord, isText]
      rfl

end Pieces

/-- The trimmed pieces between the commas, blank ones left out. -/
def selectorsOfGlyphs (glyphs : List Glyph) : List Text :=
  let pieces := (glyphs.foldl Pieces.addGlyph Pieces.empty).all
  (pieces.map Text.trim).filter (!·.isEmpty)

/-- Recognise a heading from its selectors. -/
def ofSelectors (text : Text) : List Text → Heading
  | [] => ⟨text, none, none⟩
  | first :: others =>
      if first.head? == some '@' then ⟨text, none, some (atRuleOf first others)⟩
      else ⟨text, some (first :: others), none⟩

theorem selectorsOf_eq_selectorsOfGlyphs (words : List Word) :
    selectorsOf words = selectorsOfGlyphs (Word.allGlyphs words) := by
  have general (pieces : Pieces) : (Word.allGlyphs words).foldl Pieces.addGlyph pieces =
      words.foldl Pieces.addWord pieces := by
    induction words generalizing pieces with
    | nil => rfl
    | cons word words induction =>
        rw [Word.allGlyphs, List.flatMap_cons, List.foldl_append, Pieces.foldl_glyphs,
          List.foldl_cons]
        exact induction (pieces.addWord word)
  rw [selectorsOfGlyphs, general]
  rfl

theorem ofWords_eq_ofSelectors (words : List Word) :
    ofWords words =
      ofSelectors (Word.trimmed words) (selectorsOfGlyphs (Word.allGlyphs words)) := by
  rw [← selectorsOf_eq_selectorsOfGlyphs, ofWords]
  split
  next noSelector => rw [noSelector, ofSelectors]
  next first others selectors => rw [selectors, ofSelectors]

theorem text_ofWords (words : List Word) : (ofWords words).text = Word.trimmed words := by
  unfold ofWords
  dsimp only
  split
  · rfl
  · split <;> rfl

/-- Pieces with commas between them. -/
def commaJoin (first : List Glyph) (others : List (List Glyph)) : List Glyph :=
  first ++ others.flatMap (.text ',' :: ·)

theorem subset_commaJoin {first piece : List Glyph} {others : List (List Glyph)}
    (isPiece : piece ∈ first :: others) : piece ⊆ commaJoin first others := by
  intro glyph found
  rw [commaJoin, List.mem_append]
  rcases List.mem_cons.mp isPiece with rfl | isOther
  · exact Or.inl found
  · exact Or.inr (List.mem_flatMap.mpr ⟨piece, isOther, List.mem_cons_of_mem _ found⟩)

theorem exists_commaJoin (glyphs : List Glyph) :
    ∃ first others, glyphs = commaJoin first others ∧
      ∀ piece ∈ first :: others, Glyph.text ',' ∉ piece := by
  induction glyphs with
  | nil => exact ⟨[], [], rfl, by simp⟩
  | cons glyph glyphs induction =>
      obtain ⟨first, others, rfl, noComma⟩ := induction
      by_cases isComma : glyph = .text ','
      · subst isComma
        refine ⟨[], first :: others, rfl, ?_⟩
        intro piece member
        rcases List.mem_cons.mp member with rfl | member
        · simp
        · exact noComma piece member
      · refine ⟨glyph :: first, others, rfl, ?_⟩
        intro piece member
        rcases List.mem_cons.mp member with rfl | member
        · simp [Ne.symm isComma, noComma first List.mem_cons_self]
        · exact noComma piece (List.mem_cons_of_mem _ member)

namespace Pieces

theorem foldl_of_no_comma (pieces : Pieces) {glyphs : List Glyph}
    (noComma : Glyph.text ',' ∉ glyphs) :
    glyphs.foldl addGlyph pieces = pieces.append (glyphs.map Glyph.character) := by
  induction glyphs generalizing pieces with
  | nil => simp [append]
  | cons glyph glyphs induction =>
      have next : pieces.addGlyph glyph = pieces.append [glyph.character] := by
        cases glyph with
        | text character =>
            have differs : character ≠ ',' := by
              rintro rfl
              exact noComma List.mem_cons_self
            rw [addGlyph, if_neg differs]
            rfl
        | literal character => rfl
        | boundary character => rfl
      rw [List.foldl_cons, next, induction _ fun member => noComma (List.mem_cons_of_mem _ member),
        append_append]
      rfl

theorem all_foldl_commas (pieces : Pieces) {others : List (List Glyph)}
    (noComma : ∀ piece ∈ others, Glyph.text ',' ∉ piece) :
    ((others.flatMap (.text ',' :: ·)).foldl addGlyph pieces).all =
      pieces.all ++ others.map (·.map Glyph.character) := by
  induction others generalizing pieces with
  | nil => simp
  | cons piece others induction =>
      have comma : pieces.addGlyph (.text ',') = pieces.cut [] := rfl
      rw [List.flatMap_cons, List.cons_append, List.foldl_cons, comma, List.foldl_append,
        foldl_of_no_comma _ (noComma piece List.mem_cons_self),
        induction _ fun other member => noComma other (List.mem_cons_of_mem _ member)]
      simp [all, cut, append]

end Pieces

theorem selectorsOfGlyphs_commaJoin {first : List Glyph} {others : List (List Glyph)}
    (noComma : ∀ piece ∈ first :: others, Glyph.text ',' ∉ piece) :
    selectorsOfGlyphs (commaJoin first others) =
      ((first :: others).map fun piece => Text.trim (piece.map Glyph.character)).filter
        (!·.isEmpty) := by
  have firstPiece := Pieces.foldl_of_no_comma Pieces.empty (noComma first List.mem_cons_self)
  rw [selectorsOfGlyphs, commaJoin, List.foldl_append, firstPiece,
    Pieces.all_foldl_commas _ fun other member => noComma other (List.mem_cons_of_mem _ member)]
  simp [Pieces.all, Pieces.append, Pieces.empty, Function.comp_def]

/-- No selector is left where there is nothing but blanks between the commas. -/
theorem selectorsOfGlyphs_eq_nil_iff {glyphs : List Glyph} :
    selectorsOfGlyphs glyphs = [] ↔
      ∀ glyph ∈ glyphs, Text.isBlank glyph.character = true ∨ glyph = .text ',' := by
  obtain ⟨first, others, rfl, noComma⟩ := exists_commaJoin glyphs
  rw [selectorsOfGlyphs_commaJoin noComma, List.filter_eq_nil_iff]
  constructor
  · intro noSelector
    have blank : ∀ piece ∈ first :: others, ∀ glyph ∈ piece,
        Text.isBlank glyph.character = true := by
      intro piece isPiece glyph inPiece
      have empty := noSelector _ (List.mem_map.mpr ⟨piece, isPiece, rfl⟩)
      rw [Bool.not_eq_true', Bool.not_eq_false, List.isEmpty_iff] at empty
      exact Text.blank_of_trim_eq_nil empty _ (List.mem_map.mpr ⟨glyph, inPiece, rfl⟩)
    intro glyph found
    rw [commaJoin, List.mem_append] at found
    rcases found with inFirst | inOthers
    · exact Or.inl (blank first List.mem_cons_self glyph inFirst)
    · obtain ⟨piece, isPiece, inPiece⟩ := List.mem_flatMap.mp inOthers
      rcases List.mem_cons.mp inPiece with rfl | inPiece
      · exact Or.inr rfl
      · exact Or.inl (blank piece (List.mem_cons_of_mem _ isPiece) glyph inPiece)
  · intro each trimmed member
    obtain ⟨piece, isPiece, rfl⟩ := List.mem_map.mp member
    have blank : Text.Blank (piece.map Glyph.character) := by
      intro character inPiece
      obtain ⟨glyph, found, rfl⟩ := List.mem_map.mp inPiece
      rcases each glyph (subset_commaJoin isPiece found) with blank | rfl
      · exact blank
      · exact absurd found (noComma piece isPiece)
    rw [Text.trim_of_blank blank]
    simp

theorem comma_not_mem_of_blank {blank : Text} (isBlank : Text.Blank blank) :
    Glyph.text ',' ∉ blank.map Glyph.text := by
  intro member
  obtain ⟨character, inBlank, same⟩ := List.mem_map.mp member
  cases same
  cases isBlank ',' inBlank

theorem map_character_text (text : Text) :
    (text.map Glyph.text).map Glyph.character = text := by
  rw [List.map_map]
  exact List.map_id text

theorem selectorsOfGlyphs_blank_append {blank : Text} (isBlank : Text.Blank blank)
    (glyphs : List Glyph) :
    selectorsOfGlyphs (blank.map .text ++ glyphs) = selectorsOfGlyphs glyphs := by
  obtain ⟨first, others, rfl, noComma⟩ := exists_commaJoin glyphs
  have longer : blank.map Glyph.text ++ commaJoin first others =
      commaJoin (blank.map .text ++ first) others := (List.append_assoc ..).symm
  have stillNone : ∀ piece ∈ (blank.map Glyph.text ++ first) :: others,
      Glyph.text ',' ∉ piece := by
    intro piece member
    rcases List.mem_cons.mp member with rfl | member
    · intro inside
      rcases List.mem_append.mp inside with inBlank | inFirst
      · exact comma_not_mem_of_blank isBlank inBlank
      · exact noComma first List.mem_cons_self inFirst
    · exact noComma piece (List.mem_cons_of_mem _ member)
  rw [longer, selectorsOfGlyphs_commaJoin noComma, selectorsOfGlyphs_commaJoin stillNone,
    List.map_cons, List.map_cons, List.map_append, map_character_text,
    Text.trim_blank_append isBlank]

theorem selectorsOfGlyphs_append_blank {blank : Text} (isBlank : Text.Blank blank)
    (glyphs : List Glyph) :
    selectorsOfGlyphs (glyphs ++ blank.map .text) = selectorsOfGlyphs glyphs := by
  rw [selectorsOfGlyphs, selectorsOfGlyphs, List.foldl_append,
    Pieces.foldl_of_no_comma _ (comma_not_mem_of_blank isBlank), map_character_text]
  simp [Pieces.all, Pieces.append, Text.trim_append_blank isBlank]

/-! ### At-rules -/

/-- The name reaches up to the first blank, and the first value is what stands behind it. -/
theorem atRuleOf_cons (rest : Text) (others : List Text) :
    atRuleOf ('@' :: rest) others =
      ⟨rest.takeWhile (!Text.isBlank ·), Text.trim (rest.dropWhile (!Text.isBlank ·)) :: others⟩ := by
  generalize nameSplit : rest.takeWhile (!Text.isBlank ·) = name
  generalize behindSplit : rest.dropWhile (!Text.isBlank ·) = behind
  have begins : ('@' :: rest).takeWhile (!Text.isBlank ·) = '@' :: name := by
    rw [List.takeWhile_cons_of_pos (by decide), nameSplit]
  have whole : '@' :: rest = ('@' :: name) ++ behind := by
    rw [← nameSplit, ← behindSplit, List.cons_append, List.takeWhile_append_dropWhile]
  have place : 1 + name.length = ('@' :: name).length := by
    rw [List.length_cons]
    omega
  rw [atRuleOf, begins]
  simp only [List.drop_succ_cons, List.drop_zero]
  rw [place, whole, List.drop_left]

/-- An at-rule is cut out of its first piece at the first blanks. -/
theorem exists_atRuleOf {first : Text} (isAt : first.head? = some '@')
    (trimmed : first.trim = first) (others : List Text) :
    ∃ name white value, first = '@' :: name ++ (white ++ value) ∧
      atRuleOf first others = ⟨name, value :: others⟩ ∧
        (∀ character ∈ name, Text.isBlank character = false) ∧ Text.Blank white ∧
          value.trim = value ∧ (white = [] → value = []) := by
  cases first with
  | nil => cases isAt
  | cons character rest =>
      cases isAt
      generalize nameSplit : rest.takeWhile (!Text.isBlank ·) = name
      generalize tailSplit : rest.dropWhile (!Text.isBlank ·) = tail
      have restSplit : rest = name ++ tail := by
        rw [← nameSplit, ← tailSplit, List.takeWhile_append_dropWhile]
      obtain ⟨white, whiteBlank, whole⟩ := Text.exists_append_trimStart tail
      have valueHead : ∀ head ∈ (Text.trimStart tail).head?, Text.isBlank head = false := by
        intro head found
        have visible := List.head?_dropWhile_not Text.isBlank tail
        rw [← Text.trimStart, found] at visible
        simpa using visible
      have valueLast : ∀ last ∈ (Text.trimStart tail).getLast?, Text.isBlank last = false := by
        intro last found
        apply (Text.trim_eq_self_iff.mp trimmed).2
        rw [restSplit, whole, ← List.append_assoc, ← List.cons_append, List.getLast?_append, found]
        rfl
      refine ⟨name, white, Text.trimStart tail, ?_, ?_, ?_, whiteBlank,
        Text.trim_eq_self_iff.mpr ⟨valueHead, valueLast⟩, ?_⟩
      · rw [restSplit, List.cons_append, ← whole]
      · rw [atRuleOf_cons, nameSplit, tailSplit, Text.trim, Text.trimEnd_eq_self valueLast]
      · intro character member
        rw [← nameSplit] at member
        simpa using List.all_eq_true.mp List.all_takeWhile character member
      · rintro rfl
        rw [List.nil_append] at whole
        cases start : Text.trimStart tail with
        | nil => rfl
        | cons head value =>
            have visible := valueHead head (by rw [start]; rfl)
            have blank := List.head?_dropWhile_not (!Text.isBlank ·) rest
            rw [tailSplit, whole, start] at blank
            simp [visible] at blank

end Heading

end Stylesheet
