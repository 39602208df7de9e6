import Stylesheet.Proofs.Lexing.Squeezing
import Stylesheet.Proofs.Rendering.Legible

/-!
# Legible tokens are what is read

Every token that is read without a report is legible: its texts are cut out of the source
where they can be read by themselves. Only an at-rule whose name holds the beginning of a
url may be cut inside of it.
-/

namespace Stylesheet

variable {text : Text} {glyphs content : List Glyph} {isOpen : Bool}

/-! ## Headings -/

namespace Heading

/-- Every piece between the commas of a heading can be read by itself. -/
theorem exists_lexed_piece {first : List Glyph} {others : List (List Glyph)}
    (lexed : Lexed text (commaJoin first others) isOpen) :
    ∀ piece ∈ first :: others, ∃ inner wasOpen, Lexed inner piece wasOpen := by
  induction others generalizing text first with
  | nil =>
      intro piece member
      obtain rfl := List.mem_singleton.mp member
      rw [commaJoin, List.flatMap_nil, List.append_nil] at lexed
      exact ⟨text, isOpen, lexed⟩
  | cons second others induction =>
      have split : commaJoin first (second :: others) =
          first ++ .text ',' :: commaJoin second others := by
        simp [commaJoin]
      rw [split] at lexed
      obtain ⟨front, back, wasOpen, -, before, behind⟩ := lexed.cut
      intro piece member
      rcases List.mem_cons.mp member with rfl | member
      · exact ⟨front, wasOpen, before⟩
      · exact induction (behind (by decide)) piece member

theorem isSelector_trim (lexed : Lexed text content isOpen) (inner : IsContent content)
    (noComma : .text ',' ∉ content) (notEmpty : text.trim ≠ []) :
    text.trim.IsSelector True := by
  obtain ⟨known, wasOpen, trimmed, inside⟩ := lexed.trim_subset
  exact
    { piece := ⟨known, wasOpen, trimmed, inner.of_subset inside,
        fun member => noComma (inside _ member), fun _ => trivial⟩
      trimmed := Text.trim_trim text
      notEmpty := notEmpty }

theorem isSelector_of_mem (lexed : Lexed text content isOpen) (inner : IsContent content) :
    ∀ selector ∈ selectorsOfGlyphs content, selector.IsSelector True := by
  obtain ⟨first, others, rfl, noComma⟩ := exists_commaJoin content
  intro selector member
  rw [selectorsOfGlyphs_commaJoin noComma, List.mem_filter] at member
  obtain ⟨isTrimmed, notEmpty⟩ := member
  obtain ⟨piece, isPiece, rfl⟩ := List.mem_map.mp isTrimmed
  obtain ⟨pieceText, wasOpen, pieceLexed⟩ := exists_lexed_piece lexed piece isPiece
  rw [pieceLexed.map_character] at notEmpty ⊢
  rw [Bool.not_eq_true', List.isEmpty_eq_false_iff] at notEmpty
  exact isSelector_trim pieceLexed (inner.of_subset (subset_commaJoin isPiece))
    (noComma piece isPiece) notEmpty

theorem blank_or_comma_of_mem {content : List Glyph} (noSelector : selectorsOfGlyphs content = []) :
    ∀ character ∈ content.map Glyph.character,
      Text.isBlank character = true ∨ character = ',' := by
  intro character member
  obtain ⟨glyph, found, rfl⟩ := List.mem_map.mp member
  rcases selectorsOfGlyphs_eq_nil_iff.mp noSelector glyph found with blank | rfl
  · exact Or.inl blank
  · exact Or.inr rfl

theorem isLegible_atRuleOf (raw : Text) {first : Text} {others : List Text}
    (isAt : first.head? = some '@') (firstSelector : first.IsSelector True)
    (otherSelectors : ∀ other ∈ others, other.IsSelector True)
    (noUrl : (atRuleOf first others).name.holdsUrl = false) :
    IsLegible True ⟨raw, none, some (atRuleOf first others)⟩ := by
  obtain ⟨name, white, value, rfl, atRule, noBlank, whiteBlank, trimmed, noValue⟩ :=
    exists_atRuleOf isAt firstSelector.trimmed others
  rw [atRule] at noUrl ⊢
  obtain ⟨glyphs, wasOpen, lexed, inner, noComma, -⟩ := firstSelector.piece
  have separated {glyphs : List Glyph} {wasOpen : Bool} (lexed : Lexed ('@' :: name) glyphs wasOpen)
      (inner : IsContent glyphs) (noComma : .text ',' ∉ glyphs) :
      Text.IsPiece True ('@' :: name ++ [' ']) :=
    ⟨_, false, (Leads.separator lexed (by decide)).lexed,
      isContent_append inner (isContent_map_text [' ']), by simpa using noComma, fun _ => trivial⟩
  cases white with
  | nil =>
      obtain rfl := noValue rfl
      rw [List.append_nil, List.append_nil] at lexed
      refine .atRule raw noBlank (fun _ => ?_) (separated lexed inner noComma) trimmed otherSelectors
      exact ⟨glyphs, wasOpen, lexed, inner, noComma, fun _ => trivial⟩
  | cons blank white =>
      have noHold : ¬Text.holdsUrl ('@' :: name) = true := by
        rw [Text.holdsUrl, noUrl, Marker.front?_eq_none_of_first (by decide)]
        simp
      obtain ⟨known, squeezed, inside⟩ := lexed.squeeze whiteBlank (by simp) noHold
      refine .atRule raw noBlank ?_ ?_ trimmed otherSelectors
      · -- A trimmed text does not end with these blanks.
        rintro rfl
        exfalso
        cases ends : (blank :: white).getLast? with
        | none => simp at ends
        | some last =>
            have lastBlank := whiteBlank last (List.mem_of_getLast? ends)
            have visible := (Text.trim_eq_self_iff.mp firstSelector.trimmed).2 last (by
              rw [List.append_nil, List.getLast?_append, ends]
              rfl)
            rw [lastBlank] at visible
            cases visible
      · refine ⟨known, wasOpen, squeezed, ?_, ?_, fun _ => trivial⟩
        · intro character member
          rcases inside _ member with known | same | same
          · exact inner character known
          · cases same
          · cases same
        · intro member
          rcases inside _ member with known | same | same
          · exact noComma known
          · cases same
          · cases same

/-- A heading that is read is legible, unless the name of an at-rule holds the beginning of
a url. -/
theorem isLegible_ofGlyphs (lexed : Lexed text content isOpen) (inner : IsContent content)
    (noUrl : ((ofGlyphs content).atRule.any fun atRule => atRule.name.holdsUrl) = false) :
    (ofGlyphs content).IsLegible True := by
  have each := isSelector_of_mem lexed inner
  rw [ofGlyphs] at noUrl ⊢
  cases selectors : selectorsOfGlyphs content with
  | nil =>
      apply IsLegible.unclassified
      intro character member
      apply blank_or_comma_of_mem selectors
      obtain ⟨front, back, -, -, split⟩ :=
        Text.exists_append_trim_append (content.map Glyph.character)
      rw [split]
      exact List.mem_append_right _ (List.mem_append_left _ member)
  | cons first others =>
      rw [selectors] at each noUrl
      rw [ofSelectors] at noUrl ⊢
      have firstSelector := each first List.mem_cons_self
      have otherSelectors : ∀ other ∈ others, other.IsSelector True := fun other member =>
        each other (List.mem_cons_of_mem _ member)
      split
      next isAt =>
        rw [if_pos isAt] at noUrl
        exact isLegible_atRuleOf _ (beq_iff_eq.mp isAt) firstSelector otherSelectors noUrl
      next noAt =>
        have different : first.head? ≠ some '@' := by simpa using noAt
        exact .selectors _ each different

end Heading

/-! ## Statements -/

namespace Statement

theorem ofSides_strict (sides : Sides) :
    ofSides .strict sides = .malformed ∧ sides.value = none ∨
      ∃ value, sides.value = some value ∧
        ofSides .strict sides =
          if sides.key.trim.isEmpty ||
              (Flagged.ofValue defaultModifiers (Text.trim value)).value.isEmpty then .incomplete
          else .declaration ⟨sides.key.trim, (Flagged.ofValue defaultModifiers (Text.trim value)).value,
            (Flagged.ofValue defaultModifiers (Text.trim value)).modifiers⟩ := by
  obtain ⟨key, value, hasCall⟩ := sides
  cases value with
  | none => exact Or.inl ⟨rfl, rfl⟩
  | some value => exact Or.inr ⟨value, rfl, rfl⟩

/-- A statement with a key and a value, either of which may be empty, is cut at its only
colon. -/
theorem exists_sides (formed : ofGlyphs .strict content ≠ .malformed) :
    ∃ before behind, content = before ++ .text ':' :: behind ∧
      (∀ glyph ∈ before, Sides.IsKeyGlyph glyph) ∧ .text ':' ∉ behind ∧
        ofGlyphs .strict content = ofSides .strict
          ⟨before.map Glyph.character, some (behind.map Glyph.character), false⟩ := by
  cases read : content.foldlM Sides.addGlyph? Sides.empty with
  | none =>
      rw [ofGlyphs, read] at formed
      exact absurd rfl formed
  | some sides =>
      rcases Sides.of_foldlM_eq_some read with ⟨-, noValue⟩ | ⟨before, behind, rfl, allKey, noColon⟩
      · rw [ofGlyphs, read] at formed
        rcases ofSides_strict sides with ⟨malformed, -⟩ | ⟨value, hasValue, -⟩
        · exact absurd malformed formed
        · rw [noValue] at hasValue
          cases hasValue
      · refine ⟨before, behind, rfl, allKey, noColon, ?_⟩
        rw [ofGlyphs, Sides.foldlM_sides allKey noColon]

end Statement

/-- A declaration that is read is legible. -/
theorem Declaration.isLegible_of_ofGlyphs (lexed : Lexed text content isOpen)
    (inner : IsContent content) {declaration : Declaration}
    (isDeclaration : Statement.ofGlyphs .strict content = .declaration declaration) :
    declaration.IsLegible := by
  obtain ⟨before, behind, rfl, allKey, noColon, same⟩ :=
    Statement.exists_sides (by rw [isDeclaration]; simp)
  rw [isDeclaration] at same
  rcases Statement.ofSides_strict ⟨before.map Glyph.character, some (behind.map Glyph.character),
    false⟩ with ⟨-, noValue⟩ | ⟨value, isValue, sides⟩
  · cases noValue
  · cases isValue
    rw [sides] at same
    split at same
    · cases same
    next filled =>
      cases same
      rw [Bool.or_eq_true, not_or] at filled
      obtain ⟨front, back, wasOpen, -, keyLexed, valueLexed⟩ := lexed.cut
      have valueLexed := valueLexed (by decide)
      obtain ⟨key, keyOpen, keyTrimmed, inKey⟩ := keyLexed.trim_subset
      obtain ⟨whole, wholeOpen, wholeTrimmed, inWhole⟩ := valueLexed.trim_subset
      obtain ⟨value, valueOpen, flagless, inValue⟩ := wholeTrimmed.value_ofValue
      have inBehind (glyph : Glyph) (member : glyph ∈ value) : glyph ∈ behind :=
        inWhole glyph (inValue glyph member)
      rw [keyLexed.map_character, valueLexed.map_character] at filled ⊢
      refine
        { key := ⟨key, keyOpen, keyTrimmed, fun glyph member => allKey glyph (inKey glyph member)⟩
          value := ⟨value, valueOpen, flagless, ?_, fun member => noColon (inBehind _ member)⟩
          keyTrimmed := Text.trim_trim front
          keyNotEmpty := by simpa using filled.1
          valueTrimmed := ?_
          valueNotEmpty := by simpa using filled.2
          known := ?_
          noFlag := ?_ }
      · exact inner.of_subset fun glyph member =>
          List.mem_append_right _ (List.mem_cons_of_mem _ (inBehind glyph member))
      · apply Flagged.value_takeAll fun left => left.trim = left
        · intro front written _ _ _
          exact Text.trim_trim front
        · exact Text.trim_trim back
      · intro name contained
        rcases Flagged.contains_takeAll _ _ name contained with contained | isName
        · rw [NameSet.contains_empty] at contained
          cases contained
        · exact isName
      · intro name isName untaken
        rcases Flagged.next?_ofValue (Text.trim back) with empty | noNext
        · exact absurd (List.isEmpty_iff.mpr empty) filled.2
        · exact Flagged.next?_eq_none_iff.mp noNext name isName untaken

theorem Flagged.value_ofValue_ne_nil {value : Text} (ends : value.getLast? = some '\\') :
    (ofValue defaultModifiers value).value ≠ [] := by
  rcases takeAll_eq_or defaultModifiers.length ⟨value, .empty⟩ with
    same | ⟨name, front, written, -, split, notEmpty, noFlagless⟩
  · intro empty
    rw [ofValue, same] at empty
    rw [show value = [] from empty] at ends
    cases ends
  · exfalso
    rw [show value = front ++ written from split, List.getLast?_append] at ends
    cases found : written.getLast? with
    | none => exact notEmpty (List.getLast?_eq_none_iff.mp found)
    | some last =>
        rw [found] at ends
        cases ends
        exact noFlagless '\\' (by decide) (List.mem_of_getLast? found)

/-- A statement without a key or a value is cut out of its source, and stays one if it takes
along its semicolon. -/
theorem exists_isIncomplete (lexed : Lexed text content isOpen) (inner : IsContent content)
    (incomplete : Statement.ofGlyphs .strict content = .incomplete) (visible : text.trim ≠ []) :
    ∃ known wasOpen, IsIncomplete text.trim known wasOpen ∧
      (wasOpen = true → Statement.ofGlyphs .strict (known ++ [.text ';']) = .incomplete) := by
  obtain ⟨front, known, back, wasOpen, rfl, frontBlank, backBlank, trimmed⟩ := lexed.trim
  rw [Statement.ofGlyphs_append_blank backBlank, Statement.ofGlyphs_blank_append frontBlank]
    at incomplete
  have knownInner : IsContent known := inner.of_subset fun glyph member =>
    List.mem_append_left _ (List.mem_append_right _ member)
  refine ⟨known, wasOpen, ⟨trimmed, knownInner, Text.trim_trim text, visible, incomplete⟩, ?_⟩
  rintro rfl
  obtain ⟨before, behind, rfl, allKey, noColon, same⟩ :=
    Statement.exists_sides (by rw [incomplete]; simp)
  have stillNoColon : .text ':' ∉ behind ++ [.text ';'] := by simpa using noColon
  rw [List.append_assoc, List.cons_append, Statement.ofGlyphs,
    Sides.foldlM_sides allKey stillNoColon]
  dsimp only
  rw [incomplete] at same
  have noKey : (Text.trim (before.map Glyph.character)).isEmpty = true := by
    rcases Statement.ofSides_strict ⟨before.map Glyph.character,
      some (behind.map Glyph.character), false⟩ with ⟨-, noValue⟩ | ⟨value, isValue, sides⟩
    · cases noValue
    · cases isValue
      rw [sides] at same
      split at same
      next empty =>
        -- The value ends with the backslash that takes along the semicolon.
        have ends := Text.getLast?_of_endsOpen (trimmed.isOpen_eq.symm)
        rw [← trimmed.map_character, List.map_append, List.map_cons, List.getLast?_append,
          List.getLast?_cons, Option.some_or] at ends
        have valueEnds : (behind.map Glyph.character).getLast? = some '\\' := by
          cases found : (behind.map Glyph.character).getLast? with
          | none =>
              rw [found] at ends
              cases ends
          | some last =>
              rw [found] at ends
              exact ends
        have filled := Flagged.value_ofValue_ne_nil (Text.getLast?_trim valueEnds (by decide))
        rw [Bool.or_eq_true] at empty
        exact empty.resolve_right fun nothing => filled (List.isEmpty_iff.mp nothing)
      next => cases same
  rcases Statement.ofSides_strict ⟨before.map Glyph.character,
    some ((behind ++ [Glyph.text ';']).map Glyph.character), false⟩ with
      ⟨-, noValue⟩ | ⟨value, -, sides⟩
  · cases noValue
  · rw [sides]
    dsimp only
    rw [noKey, Bool.true_or]
    rfl

/-- A statement about which nothing is reported is blank, a legible declaration, or a
statement without a key or a value. -/
theorem emitGlyphs_cases_of_isWellFormed (lexed : Lexed text content isOpen)
    (inner : IsContent content) (formed : isWellFormed content = true) (terminator : Text) :
    emitGlyphs content terminator = [] ∨
      (∃ declaration : Declaration, declaration.IsLegible ∧
        emitGlyphs content terminator = [.rule declaration 0 false]) ∨
      ∃ statement known wasOpen, IsIncomplete statement known wasOpen ∧
        (wasOpen = true → Statement.ofGlyphs .strict (known ++ [.text ';']) = .incomplete) ∧
          emitGlyphs content terminator = [.code (statement ++ terminator) 0 false] := by
  by_cases isDeclaration : ∃ declaration, Statement.ofGlyphs .strict content = .declaration declaration
  · obtain ⟨declaration, isDeclaration⟩ := isDeclaration
    exact Or.inr (Or.inl ⟨declaration,
      Declaration.isLegible_of_ofGlyphs lexed inner isDeclaration,
      emitGlyphs_of_declaration terminator isDeclaration⟩)
  · have emitted := emitGlyphs_of_not_declaration terminator
      fun other same => isDeclaration ⟨other, same⟩
    rw [lexed.map_character] at emitted
    rw [isWellFormed, lexed.map_character] at formed
    cases empty : (Text.trim text).isEmpty with
    | true =>
        rw [empty] at emitted
        exact Or.inl emitted
    | false =>
        rw [empty, Bool.or_false, bne_iff_ne] at formed
        rw [empty] at emitted
        have incomplete : Statement.ofGlyphs .strict content = .incomplete := by
          obtain ⟨before, behind, rfl, -, -, same⟩ := Statement.exists_sides formed
          rcases Statement.ofSides_strict ⟨before.map Glyph.character,
            some (behind.map Glyph.character), false⟩ with ⟨-, noValue⟩ | ⟨value, -, sides⟩
          · cases noValue
          · rw [same, sides]
            split
            · rfl
            next =>
              rw [sides, if_neg ‹_›] at same
              exact absurd ⟨_, same⟩ isDeclaration
        obtain ⟨known, wasOpen, kept, still⟩ :=
          exists_isIncomplete lexed inner incomplete (List.isEmpty_eq_false_iff.mp empty)
        exact Or.inr (Or.inr ⟨_, known, wasOpen, kept, still, emitted⟩)

namespace Token

/-! ## Trees -/

mutual

/-- Whether the name of an at-rule, the token itself or one inside it, holds the beginning
of a url. -/
def namesUrl : Token → Bool
  | block heading _ children =>
      (heading.atRule.any fun atRule => atRule.name.holdsUrl) || anyNamesUrl children
  | _ => false

def anyNamesUrl : List Token → Bool
  | [] => false
  | token :: tokens => namesUrl token || anyNamesUrl tokens

end

/-- Tokens that are legible unless the name of an at-rule holds the beginning of a url. -/
def AreFaithful (tokens : List Token) : Prop :=
  AreTrees tokens ∧ (anyNamesUrl tokens = false → AreLegible True tokens)

/-- A statement with its semicolon is put in front of faithful tokens. -/
theorem exists_faithful_statement (lexed : Lexed text content isOpen) (inner : IsContent content)
    (formed : isWellFormed content = true) {tokens : List Token} (faithful : AreFaithful tokens) :
    ∃ longer, AreFaithful longer ∧
      flatten longer = emitGlyphs content [';'] ++ flatten tokens := by
  obtain ⟨trees, legible⟩ := faithful
  rcases emitGlyphs_cases_of_isWellFormed lexed inner formed [';'] with
    nothing | ⟨declaration, isLegible, emitted⟩ | ⟨statement, known, wasOpen, kept, still, emitted⟩
  · exact ⟨tokens, ⟨trees, legible⟩, by rw [nothing]; rfl⟩
  · exact ⟨.rule declaration 0 false :: tokens,
      ⟨⟨trivial, trees⟩, fun noUrl => ⟨Or.inl ⟨rfl, isLegible⟩, legible noUrl⟩⟩,
      by rw [emitted]; rfl⟩
  · exact ⟨.code (statement ++ [';']) 0 false :: tokens,
      ⟨⟨trivial, trees⟩, fun noUrl =>
        ⟨Or.inl ⟨rfl, statement, known, wasOpen, rfl, kept, still⟩, legible noUrl⟩⟩,
      by rw [emitted]; rfl⟩

theorem exists_faithful_last (lexed : Lexed text content isOpen) (inner : IsContent content)
    (formed : isWellFormed content = true) :
    ∃ tokens, AreFaithful tokens ∧ flatten tokens = emitGlyphs content [] := by
  rcases emitGlyphs_cases_of_isWellFormed lexed inner formed [] with
    nothing | ⟨declaration, isLegible, emitted⟩ | ⟨statement, known, wasOpen, kept, -, emitted⟩
  · exact ⟨[], ⟨trivial, fun _ => trivial⟩, by rw [nothing]; rfl⟩
  · exact ⟨[.rule declaration 0 false],
      ⟨⟨trivial, trivial⟩, fun _ => ⟨Or.inl ⟨rfl, isLegible⟩, trivial⟩⟩, by rw [emitted]; rfl⟩
  · rw [List.append_nil] at emitted
    exact ⟨[.code statement 0 false],
      ⟨⟨trivial, trivial⟩, fun _ =>
        ⟨Or.inr ⟨rfl, statement, 0, rfl, trivial, known, wasOpen, kept⟩, trivial⟩⟩,
      by rw [emitted]; rfl⟩

theorem faithful_block (lexed : Lexed text content isOpen) (inner : IsContent content)
    {children tokens : List Token} (childrenFaithful : AreFaithful children)
    (faithful : AreFaithful tokens) :
    AreFaithful (.block (.ofGlyphs content) 0 children :: tokens) := by
  refine ⟨⟨childrenFaithful.1, faithful.1⟩, fun noUrl => ?_⟩
  rw [anyNamesUrl, namesUrl, Bool.or_eq_false_iff, Bool.or_eq_false_iff] at noUrl
  exact ⟨Or.inl ⟨Heading.isLegible_ofGlyphs lexed inner noUrl.1.1, childrenFaithful.2 noUrl.1.2⟩,
    faithful.2 noUrl.2⟩

theorem exists_content (glyphs : List Glyph) :
    IsContent glyphs ∨ ∃ content character rest,
      glyphs = content ++ .boundary character :: rest ∧ IsContent content := by
  induction glyphs with
  | nil => exact Or.inl (by simp [IsContent])
  | cons glyph glyphs induction =>
      cases glyph with
      | boundary character => exact Or.inr ⟨[], character, glyphs, rfl, by simp [IsContent]⟩
      | text character =>
          rcases induction with inner | ⟨content, other, rest, rfl, inner⟩
          · exact Or.inl (isContent_append (isContent_map_text [character]) inner)
          · exact Or.inr ⟨.text character :: content, other, rest, rfl,
              isContent_append (isContent_map_text [character]) inner⟩
      | literal character =>
          have single : IsContent [.literal character] := by simp [IsContent]
          rcases induction with inner | ⟨content, other, rest, rfl, inner⟩
          · exact Or.inl (isContent_append single inner)
          · exact Or.inr ⟨.literal character :: content, other, rest, rfl,
              isContent_append single inner⟩

/-- Glyphs are assembled to the given tokens: all of them outside of all blocks, and those up
to the closing brace inside of one. -/
def AssemblesTo (depth : Int) (glyphs : List Glyph) (isOpen : Bool) (tokens : List Token) : Prop :=
  depth = 0 ∧ (assemble depth [] glyphs).tokens = flatten tokens ∨
    0 < depth ∧ ∃ back rest, Lexed back rest isOpen ∧ rest.length < glyphs.length ∧
      (assemble (depth - 1) [] rest).sound = true ∧
        (assemble depth [] glyphs).tokens =
          flatten tokens ++ .closing 0 :: (assemble (depth - 1) [] rest).tokens

/-- What is assembled first stands in front of the tokens of the rest. -/
theorem AssemblesTo.prepend {depth : Int} {rest glyphs : List Glyph} {tokens longer : List Token}
    {front : List Token} (assembles : AssemblesTo depth rest isOpen tokens)
    (shorter : rest.length < glyphs.length)
    (whole : (assemble depth [] glyphs).tokens = front ++ (assemble depth [] rest).tokens)
    (flat : flatten longer = front ++ flatten tokens) :
    AssemblesTo depth glyphs isOpen longer := by
  refine assembles.imp ?_ ?_
  · rintro ⟨outside, tokensAre⟩
    exact ⟨outside, by rw [whole, tokensAre, flat]⟩
  · rintro ⟨within, later, others, lexed, fewer, sound, tokensAre⟩
    exact ⟨within, later, others, lexed, Nat.lt_trans fewer shorter, sound, by
      rw [whole, tokensAre, flat, List.append_assoc]⟩

/-- Glyphs about which nothing is reported are assembled to faithful tokens. -/
theorem exists_assemblesTo (lexed : Lexed text glyphs isOpen) {depth : Int} (inside : 0 ≤ depth)
    (sound : (assemble depth [] glyphs).sound = true) :
    ∃ tokens, AreFaithful tokens ∧ AssemblesTo depth glyphs isOpen tokens := by
  generalize size : glyphs.length = count
  induction count using Nat.strongRecOn generalizing text glyphs depth with
  | _ count induction =>
      rcases exists_content glyphs with inner | ⟨content, character, rest, rfl, inner⟩
      · have whole : assemble depth [] (glyphs ++ []) = assemble depth ([] ++ glyphs) [] :=
          assemble_append depth [] inner
        rw [List.append_nil, List.nil_append] at whole
        rw [whole, assemble, Bool.and_eq_true, Bool.not_eq_true', decide_eq_false_iff_not] at sound
        obtain ⟨tokens, faithful, flat⟩ := exists_faithful_last lexed inner sound.1
        refine ⟨tokens, faithful, Or.inl ⟨by omega, ?_⟩⟩
        rw [whole, assemble, flat]
      · obtain ⟨front, back, rfl, isBoundary, before, behind⟩ := lexed.cut_boundary
        have shorter : rest.length < (content ++ .boundary character :: rest).length := by
          rw [List.length_append, List.length_cons]
          omega
        subst size
        have whole : assemble depth [] (content ++ .boundary character :: rest) =
            assemble depth ([] ++ content) (.boundary character :: rest) :=
          assemble_append depth [] inner
        rw [List.nil_append, assemble] at whole
        rw [whole] at sound
        split at sound
        next isSemicolon =>
          rw [if_pos isSemicolon] at whole
          rw [Draft.prepend, Bool.and_eq_true] at sound
          obtain ⟨tokens, faithful, assembles⟩ := induction _ shorter behind inside sound.2 rfl
          obtain ⟨longer, longerFaithful, flat⟩ :=
            exists_faithful_statement before inner sound.1 faithful
          exact ⟨longer, longerFaithful, assembles.prepend shorter (by rw [whole]; rfl) flat⟩
        next noSemicolon =>
          rw [if_neg noSemicolon] at whole
          split at sound
          next isOpening =>
            rw [if_pos isOpening] at whole
            rw [Draft.prepend, Bool.true_and] at sound
            obtain ⟨children, childrenFaithful, ends⟩ :=
              induction _ shorter behind (by omega : 0 ≤ depth + 1) sound rfl
            rcases ends with ⟨outside, -⟩ | ⟨-, later, others, lexed, fewer, laterSound, tokensAre⟩
            · omega
            have level : depth + 1 - 1 = depth := by omega
            rw [level] at laterSound tokensAre
            have fewer := Nat.lt_trans fewer shorter
            obtain ⟨tokens, faithful, assembles⟩ := induction _ fewer lexed inside laterSound rfl
            refine ⟨_, faithful_block before inner childrenFaithful faithful,
              @AssemblesTo.prepend _ _ _ _ _ _
                (.opening (.ofGlyphs content) 0 :: flatten children ++ [.closing 0])
                assembles fewer ?_ ?_⟩
            · rw [whole, Draft.prepend, tokensAre]
              simp
            · rw [flatten, flattenOne]
              simp
          next noOpening =>
            rw [if_neg noOpening] at whole
            rw [Draft.prepend, Bool.and_eq_true, Bool.and_eq_true, bne_iff_ne] at sound
            obtain ⟨tokens, faithful, flat⟩ := exists_faithful_last before inner sound.1.1
            refine ⟨tokens, faithful,
              Or.inr ⟨by omega, back, rest, behind, shorter, sound.2, ?_⟩⟩
            rw [whole, Draft.prepend, flat, List.append_assoc]
            rfl

end Token

end Stylesheet
