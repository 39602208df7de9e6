import Stylesheet.Proofs.Lexing.Statement
import Stylesheet.Proofs.Modifier.Flags
import Stylesheet.Proofs.Scan.Reports

/-!
# Well-formed tokens

Whatever is read, every token that is emitted is well formed: its texts are trimmed, and
they are empty only where that has a meaning. A heading that is neither a list of selectors
nor an at-rule has nothing but blanks between its commas.
-/

namespace Stylesheet

/-- A text that is not blank and has no blanks around it. -/
structure Text.IsTrimmed (text : Text) : Prop where
  notEmpty : text ≠ []
  trimmed : text.trim = text

theorem Text.isTrimmed_trim {text : Text} (notEmpty : text.trim ≠ []) : text.trim.IsTrimmed :=
  ⟨notEmpty, trim_trim text⟩

/-! ## Declarations -/

/-- A declaration with a key and a value, all of whose flags are among the names. -/
structure Declaration.IsWellFormed (names : List Text) (declaration : Declaration) : Prop where
  key : declaration.key.IsTrimmed
  value : declaration.value.IsTrimmed
  modifiers (name : Text) (isFlagged : declaration.modifiers.contains name = true) : name ∈ names

theorem Declaration.isWellFormed_of_statementOf {scan : Scan} {words : List Word}
    {declaration : Declaration}
    (isDeclaration : scan.statementOf words = .declaration declaration) :
    declaration.IsWellFormed scan.options.ruleModifiers := by
  rw [Scan.statementOf] at isDeclaration
  split at isDeclaration
  · cases isDeclaration
  obtain ⟨key, value, -, keyFilled, valueFilled, rfl⟩ :=
    Statement.exists_of_declaration isDeclaration
  constructor
  · exact Text.isTrimmed_trim keyFilled
  · exact ⟨valueFilled, Flagged.trim_value_takeAll _ (Text.trim_trim value)⟩
  · intro name isFlagged
    rcases Flagged.contains_takeAll _ _ name isFlagged with isTaken | isName
    · cases isTaken
    · exact isName

/-! ## Headings -/

/-- An at-rule whose name has no blanks, and of whose values only the first may be empty. -/
structure AtRule.IsWellFormed (atRule : AtRule) : Prop where
  name : ∀ character ∈ atRule.name, Text.isBlank character = false
  values : ∃ first others, atRule.values = first :: others ∧ first.trim = first ∧
    ∀ other ∈ others, other.IsTrimmed

/-- A heading that is well formed, where it was recognised from the given words. -/
inductive Heading.IsWellFormed (words : List Word) : Heading → Prop
  /-- Nothing but blanks stands between the commas of the text words. -/
  | unclassified {text : Text} (trimmed : text.trim = text)
      (blank : ∀ word ∈ words, ∀ character ∈ word.text,
        Text.isBlank character = true ∨ word.isText = true ∧ character = ',') :
      IsWellFormed words ⟨text, none, none⟩
  | selectors {text first : Text} {others : List Text} (trimmed : text.trim = text)
      (each : ∀ selector ∈ first :: others, selector.IsTrimmed) (noAt : first.head? ≠ some '@') :
      IsWellFormed words ⟨text, some (first :: others), none⟩
  | atRule {text : Text} {atRule : AtRule} (trimmed : text.trim = text)
      (isWellFormed : atRule.IsWellFormed) : IsWellFormed words ⟨text, none, some atRule⟩

namespace Heading

theorem isTrimmed_of_mem_selectors {glyphs : List Glyph} :
    ∀ selector ∈ selectorsOfGlyphs glyphs, selector.IsTrimmed := by
  intro selector member
  obtain ⟨isPiece, visible⟩ := List.mem_filter.mp member
  obtain ⟨piece, -, rfl⟩ := List.mem_map.mp isPiece
  rw [Bool.not_eq_true', List.isEmpty_eq_false_iff] at visible
  exact Text.isTrimmed_trim visible

/-- Words without a selector hold nothing but blanks and the commas of text words. -/
theorem blank_of_no_selector {words : List Word}
    (noSelector : selectorsOfGlyphs (Word.allGlyphs words) = []) :
    ∀ word ∈ words, ∀ character ∈ word.text,
      Text.isBlank character = true ∨ word.isText = true ∧ character = ',' := by
  intro word isWord character inside
  have member : (if word.isText then Glyph.text character else .literal character) ∈
      Word.allGlyphs words :=
    List.mem_flatMap.mpr ⟨word, isWord, List.mem_map_of_mem inside⟩
  have blank := selectorsOfGlyphs_eq_nil_iff.mp noSelector _ member
  cases isText : word.isText with
  | true =>
      rw [isText] at blank
      rcases blank with blank | isComma
      · exact Or.inl blank
      · cases isComma
        exact Or.inr ⟨rfl, rfl⟩
  | false =>
      rw [isText] at blank
      rcases blank with blank | isComma
      · exact Or.inl blank
      · cases isComma

theorem isWellFormed_ofWords (words : List Word) : (ofWords words).IsWellFormed words := by
  have trimmed : (Word.trimmed words).trim = Word.trimmed words := Text.trim_trim _
  have each := @isTrimmed_of_mem_selectors (Word.allGlyphs words)
  rw [ofWords_eq_ofSelectors]
  cases selectors : selectorsOfGlyphs (Word.allGlyphs words) with
  | nil => exact .unclassified trimmed (blank_of_no_selector selectors)
  | cons first others =>
      rw [selectors] at each
      rw [ofSelectors]
      split
      next isAt =>
        obtain ⟨name, white, value, -, atRule, noBlank, -, valueTrimmed, -⟩ :=
          exists_atRuleOf (beq_iff_eq.mp isAt) (each first List.mem_cons_self).trimmed others
        rw [atRule]
        apply IsWellFormed.atRule trimmed
        constructor
        · exact noBlank
        · refine ⟨value, others, rfl, valueTrimmed, ?_⟩
          exact fun other member => each other (List.mem_cons_of_mem _ member)
      next noAt => exact .selectors trimmed each (by simpa using noAt)

end Heading

/-! ## Tokens -/

/-- A token that is well formed, where a heading is the text of the given words. -/
inductive Token.IsWellFormed (names : List Text) (words : List Word) : Token → Prop
  | code {text : Text} (offset : Int) (error : Bool) (isTrimmed : text.IsTrimmed) :
      IsWellFormed names words (.code text offset error)
  | rule {declaration : Declaration} (offset : Int) (error : Bool)
      (isWellFormed : declaration.IsWellFormed names) :
      IsWellFormed names words (.rule declaration offset error)
  | opening {heading : Heading} (offset : Int) (whole : heading.text = Word.trimmed words)
      (isWellFormed : heading.IsWellFormed words) :
      IsWellFormed names words (.opening heading offset)
  | closing (offset : Int) : IsWellFormed names words (.closing offset)

namespace Scan

variable {scan : Scan} {state : State} {words : List Word}

theorem isWellFormed_of_mem_emitWords {terminator : Text}
    (visible : ∀ last ∈ terminator.getLast?, Text.isBlank last = false) :
    ∀ token ∈ (scan.emitWords state terminator).tokens,
      token.IsWellFormed scan.options.ruleModifiers words := by
  have code : ∀ token ∈ (if (Word.trimmed state.words).isEmpty then [] else
      [Token.code (Word.trimmed state.words ++ terminator) (wordsOffset state.words)
        (isFaulty state.pendingError state.words)]),
      token.IsWellFormed scan.options.ruleModifiers words := by
    intro token member
    split at member
    · cases member
    next notEmpty =>
      rw [List.isEmpty_iff] at notEmpty
      obtain rfl := List.mem_singleton.mp member
      apply Token.IsWellFormed.code
      constructor
      · simp [notEmpty]
      · exact Text.trim_append_eq_self (Text.trim_trim _) notEmpty visible
  rw [emitWords_eq_emitted]
  cases statement : scan.statementOf state.words with
  | declaration content =>
      intro token member
      obtain rfl := List.mem_singleton.mp member
      exact .rule _ _ (Declaration.isWellFormed_of_statementOf statement)
  | standalone => exact code
  | malformed => exact code
  | incomplete => exact code

/-- A token that a step of the scan emits, and the words in front of where the step is
taken. -/
def Emits (scan : Scan) (words : List Word) (token : Token) : Prop :=
  ∃ before step after, scan.steps = before ++ step :: after ∧ token ∈ step.outcome.tokens ∧
    words = ((stateAfter {} before).addText scan.source step.offset).words

theorem exists_emits {token : Token} (member : token ∈ (scan.options.tokenize scan.source).tokens) :
    ∃ words, scan.Emits words token := by
  obtain ⟨step, isStep, emitted⟩ := List.mem_flatMap.mp member
  obtain ⟨before, after, split⟩ := List.append_of_mem isStep
  exact ⟨_, before, step, after, split, emitted, rfl⟩

theorem Emits.isWellFormed {token : Token} (emits : scan.Emits words token) :
    token.IsWellFormed scan.options.ruleModifiers words := by
  obtain ⟨before, step, after, split, emitted, rfl⟩ := emits
  cases emittedAt_of_step split token emitted with
  | @words _ terminator isTerminator member =>
      have visible : ∀ last ∈ terminator.getLast?, Text.isBlank last = false := by
        rcases isTerminator with rfl | rfl
        · intro last isLast
          cases isLast
        · intro last isLast
          obtain rfl : ';' = last := Option.some.inj isLast
          decide
      exact isWellFormed_of_mem_emitWords visible token member
  | stretch _ member =>
      obtain ⟨notEmpty, same⟩ := of_mem_emitSource member
      rw [same]
      exact .code _ _ (Text.isTrimmed_trim notEmpty)
  | opening same =>
      rw [same]
      exact .opening _ (Heading.text_ofWords _) (Heading.isWellFormed_ofWords _)
  | closing same =>
      rw [same]
      exact .closing _

end Scan

/-- Every token of a source is well formed, where a heading is the text of the words in front
of its brace. -/
theorem TokenizeOptions.tokenize_wellFormed (options : TokenizeOptions) (source : Text) :
    ∀ token ∈ (options.tokenize source).tokens,
      ∃ words, Scan.Emits ⟨options, source⟩ words token ∧
        token.IsWellFormed options.ruleModifiers words := by
  intro token member
  obtain ⟨words, emits⟩ := @Scan.exists_emits ⟨options, source⟩ token member
  exact ⟨words, emits, emits.isWellFormed⟩

/-- A value that is nothing but a flag makes no declaration: its statement is kept as code. -/
theorem TokenizeOptions.tokenize_wellFormed_flag_alone :
    let options : TokenizeOptions := {}
    let source : Text := "a\x7b b : !important ;\x7d".toList
    let code : Token := .code "b : !important;".toList 2 false
    code ∈ (options.tokenize source).tokens ∧
      ∃ words, Scan.Emits ⟨options, source⟩ words code ∧
        code.IsWellFormed options.ruleModifiers words := by
  intro options source code
  have member : code ∈ (options.tokenize source).tokens := by decide +kernel
  exact ⟨member, tokenize_wellFormed options source code member⟩

end Stylesheet
