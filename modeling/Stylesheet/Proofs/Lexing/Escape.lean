import Stylesheet.Proofs.Lexing.Selectors
import Stylesheet.Proofs.Lexing.Separators
import Stylesheet.Proofs.Modifier.Escaped

/-!
# Words with an escape

The words of a statement are searched again for colons and commas, and its value for flags,
without regard for escapes. What is said here of words in which a backslash stands in front
of a character does not depend on that character, as long as it is no separator itself and
no flag begins with it.
-/

namespace Stylesheet

namespace Text

theorem isPrefixOf_append_cons {phrase : Text} {character : Char} (notIn : character ∉ phrase)
    (before behind : Text) :
    phrase.isPrefixOf (before ++ character :: behind) = phrase.isPrefixOf before := by
  induction phrase generalizing before with
  | nil => rfl
  | cons first phrase induction =>
      cases before with
      | nil =>
          have differs : first ≠ character := fun same => notIn (same ▸ List.mem_cons_self)
          simp [List.isPrefixOf, differs]
      | cons head before =>
          have later := induction (fun member => notIn (List.mem_cons_of_mem _ member)) before
          simp [List.isPrefixOf, later]

/-- No `extend` reaches over a backslash. -/
theorem isExtend_escaped (before behind : Text) :
    isExtend (before ++ '\\' :: behind) = "extend(".toList.isPrefixOf before := by
  have noExtend : (before ++ '\\' :: behind == "extend".toList) = false := by
    rw [beq_eq_false_iff_ne]
    intro same
    have member : '\\' ∈ "extend".toList := same ▸ by simp
    revert member
    decide
  rw [isExtend, noExtend, Bool.false_or, isPrefixOf_append_cons (by decide)]

theorem separates_escaped (lessSyntax : Bool) (before behind : Text) {first second : Char}
    (firstNoColon : first ≠ ':') (secondNoColon : second ≠ ':') :
    separates lessSyntax (before ++ '\\' :: first :: behind) =
      separates lessSyntax (before ++ '\\' :: second :: behind) := by
  have segment {character : Char} (noColon : character ≠ ':') :
      isExtend ((before ++ '\\' :: character :: behind).takeWhile (· != ':')) =
        if before.all (· != ':') then "extend(".toList.isPrefixOf before
        else isExtend (before.takeWhile (· != ':')) := by
    split
    next whole =>
      rw [List.takeWhile_append_of_pos (by simpa using whole),
        List.takeWhile_cons_of_pos (by decide), isExtend_escaped]
    next broken =>
      have shorter : (before.takeWhile (· != ':')).length ≠ before.length := by
        intro same
        have kept := (List.takeWhile_prefix (· != ':')).eq_of_length same
        exact broken (by simpa using List.takeWhile_eq_self_iff.mp kept)
      rw [List.takeWhile_append, if_neg shorter]
  rw [separates, separates, segment firstNoColon, segment secondNoColon]

/-- The separations of a text with an escape: those by a colon in front of it and those by a
colon behind it. -/
theorem exists_separations_escaped (lessSyntax : Bool) (before behind : Text) :
    ∃ early : List (Text × Text), ∀ character, character ≠ ':' →
      separations lessSyntax (before ++ '\\' :: character :: behind) =
        early.map (fun (key, value) => (key, value ++ '\\' :: character :: behind)) ++
          (separations lessSyntax behind).map fun (key, value) =>
            (before ++ '\\' :: character :: key, value) := by
  induction before with
  | nil =>
      refine ⟨[], fun character noColon => ?_⟩
      rw [List.nil_append, separations, separations]
      simp [noColon, Function.comp_def]
  | cons head before induction =>
      obtain ⟨early, split⟩ := induction
      -- Whether a colon in front of the escape separates is the same for any escaped character.
      have same {character : Char} (noColon : character ≠ ':') :=
        separates_escaped lessSyntax before behind noColon (by decide : 'x' ≠ ':')
      have longer := early.map fun (key, value) => (head :: key, value)
      by_cases separator :
          head = ':' ∧ separates lessSyntax (before ++ '\\' :: 'x' :: behind) = true
      · refine ⟨([], before) :: early.map fun (key, value) => (head :: key, value), ?_⟩
        intro character noColon
        rw [List.cons_append, separations, split character noColon, same noColon]
        simp [separator, Function.comp_def]
      · refine ⟨early.map fun (key, value) => (head :: key, value), ?_⟩
        intro character noColon
        rw [List.cons_append, separations, split character noColon, same noColon, if_neg separator]
        simp [Function.comp_def]

end Text

/-! ## Words -/

/-- Words in one of which a backslash stands, with a character behind it. -/
structure Escape where
  front : List Word
  kind : WordKind
  before : Text
  behind : Text
  place : Int
  error : Bool
  back : List Word

namespace Escape

variable (escape : Escape)

def word (character : Char) : Word :=
  ⟨escape.kind, escape.before ++ '\\' :: character :: escape.behind, escape.place, escape.error⟩

def words (character : Char) : List Word :=
  escape.front ++ escape.word character :: escape.back

/-- The text in front of the backslash. -/
def lead : Text :=
  Word.joined escape.front ++ escape.before

/-- The text behind the escaped character. -/
def rest : Text :=
  escape.behind ++ Word.joined escape.back

theorem joined_words (character : Char) :
    Word.joined (escape.words character) = escape.lead ++ '\\' :: character :: escape.rest := by
  simp [words, word, lead, rest, Word.joined_append, Word.joined_cons]

theorem length_words (first second : Char) :
    (escape.words first).length = (escape.words second).length := by
  simp [words]

/-- The separations of words with an escape: those by a colon in front of it and those by a
colon behind it. -/
theorem exists_separations (lessSyntax : Bool) :
    ∃ early late : List (Text × Text), ∀ character, (escape.kind = .text → character ≠ ':') →
      Word.separations lessSyntax (escape.words character) =
        early.map (fun (key, value) => (key, value ++ '\\' :: character :: escape.rest)) ++
          late.map fun (key, value) => (escape.lead ++ '\\' :: character :: key, value) := by
  obtain ⟨front, kind, before, behind, place, error, back⟩ := escape
  induction front with
  | nil =>
      by_cases isText : kind = .text
      · obtain ⟨early, split⟩ := Text.exists_separations_escaped lessSyntax before behind
        refine ⟨early,
          (Text.separations lessSyntax behind).map (fun (key, value) =>
              (key, value ++ Word.joined back)) ++
            (Word.separations lessSyntax back).map fun (key, value) => (behind ++ key, value),
          fun character noColon => ?_⟩
        rw [words, List.nil_append, Word.separations, word, Word.isText, isText]
        dsimp only [lead, rest]
        rw [if_pos (by decide), split character (noColon isText)]
        simp [Function.comp_def]
      · refine ⟨[],
          (Word.separations lessSyntax back).map fun (key, value) => (behind ++ key, value),
          fun character _ => ?_⟩
        rw [words, List.nil_append, Word.separations, word, Word.isText]
        dsimp only [lead]
        rw [if_neg (by simpa using isText)]
        simp [Function.comp_def]
  | cons first front induction =>
      obtain ⟨early, late, split⟩ := induction
      let here := if first.isText then Text.separations lessSyntax first.text else []
      refine ⟨here.map (fun (key, value) => (key, value ++ (Word.joined front ++ before))) ++
          early.map fun (key, value) => (first.text ++ key, value),
        late, fun character noColon => ?_⟩
      have inner := split character noColon
      have joined := joined_words ⟨front, kind, before, behind, place, error, back⟩ character
      dsimp only [words, word, lead, rest] at inner joined ⊢
      rw [List.cons_append, Word.separations, inner, joined]
      simp [here, Function.comp_def]

/-- Whether a word stands in front of the first separator is the same for any escaped
character that is no colon in a text word. -/
theorem map_isText_unseparated (lessSyntax : Bool) {first second : Char}
    (firstNoColon : escape.kind = .text → first ≠ ':')
    (secondNoColon : escape.kind = .text → second ≠ ':') :
    (Word.unseparated lessSyntax (escape.words first)).map Word.isText =
      (Word.unseparated lessSyntax (escape.words second)).map Word.isText := by
  have same : (Word.separations lessSyntax [escape.word first]).isEmpty =
      (Word.separations lessSyntax [escape.word second]).isEmpty := by
    obtain ⟨early, late, split⟩ :=
      exists_separations { escape with front := [], back := [] } lessSyntax
    have firstSplit := split first firstNoColon
    have secondSplit := split second secondNoColon
    dsimp only [words, word, List.nil_append] at firstSplit secondSplit
    rw [word, word, firstSplit, secondSplit]
    cases early <;> cases late <;> rfl
  unfold Word.unseparated words
  induction escape.front with
  | nil =>
      rw [List.nil_append, List.nil_append, List.takeWhile_cons, List.takeWhile_cons, same]
      split <;> rfl
  | cons head front induction =>
      rw [List.cons_append, List.cons_append, List.takeWhile_cons, List.takeWhile_cons]
      split
      · exact congrArg (head.isText :: ·) induction
      · rfl

end Escape

/-! ## Statements -/

/-- A statement without the texts of its key and its value. -/
def Statement.blurred : Statement → Statement
  | declaration content => declaration ⟨[], [], content.modifiers⟩
  | other => other

namespace Statement

variable {options : TokenizeOptions}

theorem ofSides_escaped_alone (lead : Text) (first second : Text) (hasCall : Bool) :
    ofSides options ⟨lead ++ '\\' :: first, none, hasCall⟩ =
      ofSides options ⟨lead ++ '\\' :: second, none, hasCall⟩ := by
  have head (behind : Text) : (Text.trim (lead ++ '\\' :: behind)).head? =
      (Text.trimStart lead).head?.or (some '\\') := by
    rw [Text.trim_append_cons Text.isBlank_backslash, List.head?_append, List.head?_cons]
  simp only [ofSides, head]

theorem blurred_ofSides_escaped_key (lead behind value : Text) (hasCall : Bool) :
    (ofSides options ⟨lead ++ '\\' :: behind, some value, hasCall⟩).blurred =
      let flagged := Flagged.ofValue options.ruleModifiers (Text.trim value)
      if Text.Blank value ∨ Text.Blank flagged.value then incomplete
      else declaration ⟨[], [], flagged.modifiers⟩ := by
  rw [ofSides_of_value]
  simp only [Text.not_blank_escaped, false_or]
  split <;> rfl

theorem exists_blurred_ofSides_escaped_value (known : options.ruleModifiers = defaultModifiers)
    (key value rest : Text) (hasCall : Bool) :
    ∃ statement, ∀ character, Text.isBlank character = false →
      Flagged.leavesEscape defaultModifiers character rest = true →
        (ofSides options ⟨key, some (value ++ '\\' :: character :: rest), hasCall⟩).blurred =
          statement := by
  obtain ⟨modifiers, flagged⟩ := Flagged.exists_modifiers_escaped value rest
  refine ⟨if Text.Blank key then incomplete else declaration ⟨[], [], modifiers⟩, ?_⟩
  intro character visible leaves
  obtain ⟨notBlank, same⟩ := flagged character visible leaves
  rw [ofSides_of_value, known]
  simp only [Text.not_blank_escaped, notBlank, or_false, ← same]
  split <;> rfl

end Statement

namespace Escape

/-- A character that means nothing in a statement if it is escaped. -/
structure SparesStatement (escape : Escape) (character : Char) : Prop where
  visible : Text.isBlank character = false
  noColon : escape.kind = .text → character ≠ ':'
  leaves : Flagged.leavesEscape defaultModifiers character escape.rest = true

variable {escape : Escape} {options : TokenizeOptions} {first second : Char}

/-- What kind of statement words with an escape are, and with which flags, does not depend on
the escaped character. -/
theorem blurred_ofWords_eq (known : options.ruleModifiers = defaultModifiers)
    (firstSpares : escape.SparesStatement first) (secondSpares : escape.SparesStatement second) :
    (Statement.ofWords options (escape.words first)).blurred =
      (Statement.ofWords options (escape.words second)).blurred := by
  obtain ⟨early, late, split⟩ := escape.exists_separations options.lessSyntax
  have blocked : (∃ word ∈ Word.unseparated options.lessSyntax (escape.words first),
        word.isText = false) ↔
      ∃ word ∈ Word.unseparated options.lessSyntax (escape.words second),
        word.isText = false := by
    rw [← List.mem_map, ← List.mem_map,
      escape.map_isText_unseparated _ firstSpares.noColon secondSpares.noColon]
  have called : (escape.words first).any (·.kind == .call) =
      (escape.words second).any (·.kind == .call) := by
    simp [words, word]
  simp only [Statement.ofWords_eq_ofSeparations, blocked, split first firstSpares.noColon,
    split second secondSpares.noColon]
  split
  next => rfl
  next =>
    rcases early with _ | ⟨⟨key, value⟩, _ | ⟨next, early⟩⟩
    · rcases late with _ | ⟨⟨key, value⟩, _ | ⟨next, late⟩⟩
      · -- Without a separator the statement is malformed or stands alone.
        simp only [List.map_nil, List.append_nil, Statement.ofSeparations, joined_words, called]
        rw [Statement.ofSides_escaped_alone]
      · simp only [List.map_nil, List.map_cons, List.nil_append, Statement.ofSeparations,
          Statement.blurred_ofSides_escaped_key]
      · rfl
    · cases late with
      | nil =>
          obtain ⟨statement, common⟩ :=
            Statement.exists_blurred_ofSides_escaped_value known key value escape.rest false
          simp only [List.map_nil, List.map_cons, List.append_nil, Statement.ofSeparations]
          rw [common first firstSpares.visible firstSpares.leaves,
            common second secondSpares.visible secondSpares.leaves]
      | cons next late => rfl
    · rfl

end Escape

/-! ## Headings -/

/-- Glyphs lengthen the growing piece, and what they cut off does not depend on it. -/
theorem Heading.Pieces.exists_all_foldl (glyphs : List Glyph) :
    ∃ (more : Text) (others : List Text), ∀ pieces : Pieces,
      (glyphs.foldl addGlyph pieces).all =
        pieces.finished ++ (pieces.current ++ more) :: others := by
  obtain ⟨first, others, rfl, noComma⟩ := exists_commaJoin glyphs
  refine ⟨first.map Glyph.character, others.map (·.map Glyph.character), fun pieces => ?_⟩
  rw [commaJoin, List.foldl_append, foldl_of_no_comma _ (noComma first List.mem_cons_self),
    all_foldl_commas _ fun piece member => noComma piece (List.mem_cons_of_mem _ member)]
  simp [all, append]

namespace Escape

variable (escape : Escape)

/-- The glyphs of a backslash and the character behind it. -/
def pair (character : Char) : List Glyph :=
  Word.glyphs ⟨escape.kind, ['\\', character], escape.place, escape.error⟩

theorem glyphs_word (character : Char) :
    (escape.word character).glyphs =
      Word.glyphs ⟨escape.kind, escape.before, escape.place, escape.error⟩ ++
        escape.pair character ++
          Word.glyphs ⟨escape.kind, escape.behind, escape.place, escape.error⟩ := by
  simp [Word.glyphs, Word.isText, word, pair]

theorem not_mem_pair {character : Char} (noComma : escape.kind = .text → character ≠ ',') :
    Glyph.text ',' ∉ escape.pair character := by
  cases isText : escape.kind with
  | text => simpa [pair, Word.glyphs, Word.isText, isText, eq_comm] using noComma isText
  | _ => simp [pair, Word.glyphs, Word.isText, isText]

/-- The selectors of words with an escape: one of them holds the escape, and the others do not
depend on the escaped character. -/
theorem exists_selectors :
    ∃ (early late : List Text) (before behind : Text), ∀ character,
      (escape.kind = .text → character ≠ ',') →
        Heading.selectorsOf (escape.words character) =
          early ++ Text.trim (before ++ '\\' :: character :: behind) :: late := by
  obtain ⟨front, kind, before, behind, place, error, back⟩ := escape
  let pieces := (Word.allGlyphs front ++ Word.glyphs ⟨kind, before, place, error⟩).foldl
    Heading.Pieces.addGlyph .empty
  obtain ⟨more, others, all⟩ := Heading.Pieces.exists_all_foldl
    (Word.glyphs ⟨kind, behind, place, error⟩ ++ Word.allGlyphs back)
  let trimmed (texts : List Text) := (texts.map Text.trim).filter (!·.isEmpty)
  refine ⟨trimmed pieces.finished, trimmed others, pieces.current, more, ?_⟩
  intro character noComma
  let escape : Escape := ⟨front, kind, before, behind, place, error, back⟩
  have cut : ((Word.allGlyphs (escape.words character)).foldl
        Heading.Pieces.addGlyph .empty).all =
      pieces.finished ++ (pieces.current ++ '\\' :: character :: more) :: others := by
    have glyphs : Word.allGlyphs (escape.words character) =
        (Word.allGlyphs front ++ Word.glyphs ⟨kind, before, place, error⟩) ++
          (escape.pair character ++
            (Word.glyphs ⟨kind, behind, place, error⟩ ++ Word.allGlyphs back)) := by
      rw [words, Word.allGlyphs_append, Word.allGlyphs_cons, glyphs_word]
      simp only [escape, List.append_assoc]
    have characters : (escape.pair character).map Glyph.character = ['\\', character] := by
      cases kind <;> rfl
    rw [glyphs, List.foldl_append, List.foldl_append,
      Heading.Pieces.foldl_of_no_comma _ (escape.not_mem_pair noComma), all, characters]
    simp [Heading.Pieces.append, pieces]
  have kept : (!(Text.trim (pieces.current ++ '\\' :: character :: more)).isEmpty) = true := by
    simp [Text.trim_append_cons Text.isBlank_backslash]
  rw [Heading.selectorsOf_eq_selectorsOfGlyphs, Heading.selectorsOfGlyphs, cut]
  dsimp only [trimmed]
  rw [List.map_append, List.map_cons, List.filter_append, List.filter_cons, if_pos kept]

variable {escape} {first second : Char}

/-- How a heading is classified, and the number of its selectors or values, does not depend on
an escaped character that is no comma in a text word. -/
theorem counts_ofWords_eq (firstNoComma : escape.kind = .text → first ≠ ',')
    (secondNoComma : escape.kind = .text → second ≠ ',') :
    let firstHeading := Heading.ofWords (escape.words first)
    let secondHeading := Heading.ofWords (escape.words second)
    firstHeading.selectors.map (·.length) = secondHeading.selectors.map (·.length) ∧
      firstHeading.atRule.map (·.values.length) = secondHeading.atRule.map (·.values.length) := by
  obtain ⟨early, late, before, behind, split⟩ := escape.exists_selectors
  have classify {head other : Text} (others : List Text) (more : List Text)
      (heads : head.head? = other.head?) (lengths : others.length = more.length)
      (text otherText : Text) :
      (Heading.ofSelectors text (head :: others)).selectors.map (·.length) =
          (Heading.ofSelectors otherText (other :: more)).selectors.map (·.length) ∧
        (Heading.ofSelectors text (head :: others)).atRule.map (·.values.length) =
          (Heading.ofSelectors otherText (other :: more)).atRule.map (·.values.length) := by
    simp only [Heading.ofSelectors, heads]
    split <;> simp [Heading.atRuleOf, lengths]
  simp only [Heading.ofWords_eq_ofSelectors, ← Heading.selectorsOf_eq_selectorsOfGlyphs,
    split first firstNoComma, split second secondNoComma]
  cases early with
  | nil =>
      refine classify late late ?_ rfl _ _
      simp only [Text.trim_append_cons Text.isBlank_backslash, List.head?_append, List.head?_cons]
  | cons head early => exact classify _ _ rfl (by simp) _ _

/-! ## Words that become more -/

/-- Where the escape stands, and what follows it in a word that is no text. -/
structure Stands (escape : Escape) (offset : Int) : Prop where
  level : escape.kind = .text → escape.place + escape.before.length = offset
  guarded : escape.kind ≠ .text → ∃ bar ∈ escape.behind, Text.IsBar bar

variable {escape : Escape} {offset : Int}

theorem exists_append (stands : escape.Stands offset) (more : List Word) :
    ∃ longer : Escape, longer.Stands offset ∧
      ∀ character, longer.words character = escape.words character ++ more := by
  refine ⟨{ escape with back := escape.back ++ more }, ⟨stands.level, stands.guarded⟩, ?_⟩
  intro character
  simp [words, word]

/-- Words that are merged, with more text behind them. -/
theorem exists_merged (stands : escape.Stands offset) (kept : Nat) {kind : WordKind}
    (notText : kind ≠ .text) {text : Text} (hasBar : ∃ bar ∈ text, Text.IsBar bar) (start : Int)
    (error : Bool) :
    ∃ merged : Escape, merged.Stands offset ∧ ∀ character,
      merged.words character = (escape.words character).take kept ++
        [⟨kind, Word.joined ((escape.words character).drop kept) ++ text,
          (((escape.words character).drop kept).head?.map (·.offset)).getD start, error⟩] := by
  obtain ⟨front, oldKind, before, behind, place, oldError, back⟩ := escape
  by_cases inFront : kept ≤ front.length
  · refine ⟨⟨front.take kept, kind, Word.joined (front.drop kept) ++ before,
      behind ++ Word.joined back ++ text,
      ((front.drop kept).head?.map (·.offset)).getD place, error, []⟩, ⟨?_, ?_⟩, ?_⟩
    · exact fun isText => absurd isText notText
    · intro _
      obtain ⟨bar, member, isBar⟩ := hasBar
      exact ⟨bar, List.mem_append_right _ member, isBar⟩
    · intro character
      simp only [words, List.take_append_of_le_length inFront,
        List.drop_append_of_le_length inFront, Word.joined_append, Word.joined_cons]
      cases front.drop kept <;> simp [word, Word.joined_cons]
  · obtain ⟨more, rfl⟩ : ∃ more, kept = front.length + (more + 1) :=
      ⟨kept - front.length - 1, by omega⟩
    let last : Word := ⟨kind, Word.joined (back.drop more) ++ text,
      ((back.drop more).head?.map (·.offset)).getD start, error⟩
    refine ⟨⟨front, oldKind, before, behind, place, oldError, back.take more ++ [last]⟩,
      ⟨stands.level, stands.guarded⟩, fun character => ?_⟩
    simp only [words, List.take_length_add_append, List.drop_length_add_append]
    simp [word, last]

end Escape
end Stylesheet
