import Stylesheet.Proofs.Scan.Rejoin

/-!
# Word by word

Where texts are alike, so are the words, the statements and the headings that are made
of them one by one, as long as the words that are looked into are the same.
-/

namespace Stylesheet

/-- Texts that are alike: putting them together, trimming them and taking off flags keeps
them so, and they are empty, or begin with `@`, together. -/
structure TextLikeness (names : List Text) where
  alike : Text → Text → Prop
  ruleAlike : AtRule → AtRule → Prop
  refl (text : Text) : alike text text
  append {first second firstBehind secondBehind : Text} (before : alike first second)
    (behind : alike firstBehind secondBehind) : alike (first ++ firstBehind) (second ++ secondBehind)
  trim {first second : Text} (same : alike first second) : alike first.trim second.trim
  isEmpty_eq {first second : Text} (same : alike first second) : first.isEmpty = second.isEmpty
  head_eq {first second : Text} (same : alike first second) :
    (first.head? == some '@') = (second.head? == some '@')
  flagged {first second : Text} (same : alike first second) :
    alike (Flagged.ofValue names first).value (Flagged.ofValue names second).value ∧
      (Flagged.ofValue names first).modifiers = (Flagged.ofValue names second).modifiers
  atRule {first second : Text} {firstOthers secondOthers : List Text} (same : alike first second)
    (others : List.Forall₂ alike firstOthers secondOthers) :
      ruleAlike (Heading.atRuleOf first firstOthers) (Heading.atRuleOf second secondOthers)

namespace TextLikeness

variable {names : List Text} (likeness : TextLikeness names)

/-! ## Statements -/

structure SidesAlike (first second : Sides) : Prop where
  key : likeness.alike first.key second.key
  value : Option.Rel likeness.alike first.value second.value
  hasCall : first.hasCall = second.hasCall

/-- Words that are alike. Their offsets are related as given. -/
structure WordAlike (near : Int → Int → Prop) (first second : Word) : Prop where
  kind : first.kind = second.kind
  error : first.error = second.error
  offset : near first.offset second.offset
  text : likeness.alike first.text second.text
  /-- Words that are looked into are the same. -/
  plain : first.isText = true → first.text = second.text

inductive StatementAlike : Statement → Statement → Prop
  | declaration {firstKey secondKey firstValue secondValue : Text} (modifiers : NameSet)
      (keys : likeness.alike firstKey secondKey)
      (values : likeness.alike firstValue secondValue) :
      StatementAlike (.declaration ⟨firstKey, firstValue, modifiers⟩)
        (.declaration ⟨secondKey, secondValue, modifiers⟩)
  | standalone : StatementAlike .standalone .standalone
  | malformed : StatementAlike .malformed .malformed
  | incomplete : StatementAlike .incomplete .incomplete

variable {likeness} {near : Int → Int → Prop}

theorem SidesAlike.append {first second : Sides} (alike : likeness.SidesAlike first second)
    {firstText secondText : Text} (same : likeness.alike firstText secondText) :
    likeness.SidesAlike (first.append firstText) (second.append secondText) := by
  obtain ⟨firstKey, firstValue, firstCall⟩ := first
  obtain ⟨secondKey, secondValue, secondCall⟩ := second
  obtain ⟨key, value, hasCall⟩ := alike
  cases value with
  | none => exact ⟨likeness.append key same, .none, hasCall⟩
  | some value => exact ⟨key, .some (likeness.append value same), hasCall⟩

theorem SidesAlike.add? (lessSyntax : Bool) {first second : Sides}
    (alike : likeness.SidesAlike first second) {firstWord secondWord : Word}
    (words : likeness.WordAlike near firstWord secondWord) :
    Option.Rel likeness.SidesAlike (first.add? lessSyntax firstWord)
      (second.add? lessSyntax secondWord) := by
  have sameText : firstWord.isText = secondWord.isText := by
    rw [Word.isText, Word.isText, words.kind]
  rw [Sides.add?, Sides.add?, ← sameText]
  split
  next isText =>
    rw [words.plain isText]
    obtain ⟨firstKey, firstValue, firstCall⟩ := first
    obtain ⟨secondKey, secondValue, secondCall⟩ := second
    rw [Sides.addText?, Sides.addText?]
    rcases Stylesheet.separated lessSyntax secondWord.text with ⟨before, _ | ⟨after, _ | ⟨other, pieces⟩⟩⟩
    · exact .some (alike.append (likeness.refl _))
    · obtain ⟨key, value, hasCall⟩ := alike
      cases value with
      | none => exact .some ⟨likeness.append key (likeness.refl _), .some (likeness.refl _), hasCall⟩
      | some value => exact .none
    · obtain ⟨key, value, hasCall⟩ := alike
      cases value <;> exact .none
  next opaque_ =>
    have appended := alike.append words.text
    obtain ⟨firstKey, firstValue, firstCall⟩ := first
    obtain ⟨secondKey, secondValue, secondCall⟩ := second
    obtain ⟨key, value, hasCall⟩ := alike
    rw [Sides.addOpaque?, Sides.addOpaque?]
    cases value with
    | none =>
        cases lessSyntax with
        | false => exact .none
        | true =>
            refine .some ⟨appended.key, appended.value, ?_⟩
            rw [words.kind]
            exact congrArg (· || _) hasCall
    | some value => exact .some appended

theorem sidesAlike_foldlM (lessSyntax : Bool) {firstWords secondWords : List Word}
    (words : List.Forall₂ (likeness.WordAlike near) firstWords secondWords) {first second : Sides}
    (alike : likeness.SidesAlike first second) :
    Option.Rel likeness.SidesAlike (firstWords.foldlM (Sides.add? lessSyntax) first)
      (secondWords.foldlM (Sides.add? lessSyntax) second) := by
  induction words generalizing first second with
  | nil => exact .some alike
  | @cons firstWord secondWord _ _ head tail induction =>
      have added := alike.add? lessSyntax head
      rw [List.foldlM_cons, List.foldlM_cons]
      generalize first.add? lessSyntax firstWord = firstNext at added
      generalize second.add? lessSyntax secondWord = secondNext at added
      cases added with
      | none => exact .none
      | some next => exact induction next

theorem statementAlike_ofSides {options : TokenizeOptions} (known : options.ruleModifiers = names)
    {first second : Sides} (alike : likeness.SidesAlike first second) :
    likeness.StatementAlike (.ofSides options first) (.ofSides options second) := by
  obtain ⟨firstKey, firstValue, firstCall⟩ := first
  obtain ⟨secondKey, secondValue, secondCall⟩ := second
  obtain ⟨key, value, hasCall⟩ := alike
  have keys := likeness.trim key
  cases value with
  | none =>
      obtain rfl : firstCall = secondCall := hasCall
      simp only [Statement.ofSides, likeness.head_eq keys]
      split
      · exact .standalone
      · exact .malformed
  | some value =>
      obtain ⟨left, modifiers⟩ := likeness.flagged (likeness.trim value)
      simp only [Statement.ofSides, known, likeness.isEmpty_eq keys, likeness.isEmpty_eq left,
        modifiers]
      split
      · exact .incomplete
      · exact .declaration _ keys left

theorem statementAlike_ofWords {options : TokenizeOptions} (known : options.ruleModifiers = names)
    {firstWords secondWords : List Word}
    (words : List.Forall₂ (likeness.WordAlike near) firstWords secondWords) :
    likeness.StatementAlike (.ofWords options firstWords) (.ofWords options secondWords) := by
  have start : likeness.SidesAlike .empty .empty := ⟨likeness.refl _, .none, rfl⟩
  have sides := sidesAlike_foldlM options.lessSyntax words start
  rw [Statement.ofWords, Statement.ofWords]
  generalize firstWords.foldlM (Sides.add? options.lessSyntax) Sides.empty = firstSides at sides
  generalize secondWords.foldlM (Sides.add? options.lessSyntax) Sides.empty = secondSides at sides
  cases sides with
  | none => exact .malformed
  | some alike => exact statementAlike_ofSides known alike

/-! ## Headings -/

variable (likeness)

inductive HeadingAlike : Heading → Heading → Prop
  | unclassified {first second : Text} (texts : likeness.alike first second) :
      HeadingAlike ⟨first, none, none⟩ ⟨second, none, none⟩
  | selectors {first second : Text} {firstSelectors secondSelectors : List Text}
      (texts : likeness.alike first second)
      (each : List.Forall₂ likeness.alike firstSelectors secondSelectors) :
      HeadingAlike ⟨first, some firstSelectors, none⟩ ⟨second, some secondSelectors, none⟩
  | atRule {first second : Text} {firstRule secondRule : AtRule}
      (texts : likeness.alike first second) (rules : likeness.ruleAlike firstRule secondRule) :
      HeadingAlike ⟨first, none, some firstRule⟩ ⟨second, none, some secondRule⟩

structure PiecesAlike (first second : Heading.Pieces) : Prop where
  finished : List.Forall₂ likeness.alike first.finished second.finished
  current : likeness.alike first.current second.current

variable {likeness}

theorem PiecesAlike.append {first second : Heading.Pieces}
    (alike : likeness.PiecesAlike first second) {firstText secondText : Text}
    (same : likeness.alike firstText secondText) :
    likeness.PiecesAlike (first.append firstText) (second.append secondText) :=
  ⟨alike.finished, likeness.append alike.current same⟩

theorem PiecesAlike.cut {first second : Heading.Pieces} (alike : likeness.PiecesAlike first second)
    (text : Text) : likeness.PiecesAlike (first.cut text) (second.cut text) :=
  ⟨List.rel_append alike.finished (.cons alike.current .nil), likeness.refl text⟩

theorem PiecesAlike.addWord {first second : Heading.Pieces}
    (alike : likeness.PiecesAlike first second) {firstWord secondWord : Word}
    (words : likeness.WordAlike near firstWord secondWord) :
    likeness.PiecesAlike (first.addWord firstWord) (second.addWord secondWord) := by
  have sameText : firstWord.isText = secondWord.isText := by
    rw [Word.isText, Word.isText, words.kind]
  rw [Heading.Pieces.addWord, Heading.Pieces.addWord, ← sameText]
  split
  next isText =>
    rw [words.plain isText]
    have appended := alike.append (likeness.refl (Text.split ',' secondWord.text).1)
    dsimp only
    generalize first.append _ = before at appended ⊢
    generalize second.append _ = behind at appended ⊢
    generalize (Text.split ',' secondWord.text).2 = pieces
    induction pieces generalizing before behind with
    | nil => exact appended
    | cons piece pieces induction => exact induction _ _ (appended.cut piece)
  next => exact alike.append words.text

theorem selectorsAlike {firstWords secondWords : List Word}
    (words : List.Forall₂ (likeness.WordAlike near) firstWords secondWords) :
    List.Forall₂ likeness.alike (Heading.selectorsOf firstWords)
      (Heading.selectorsOf secondWords) := by
  have folded (first second : Heading.Pieces) (alike : likeness.PiecesAlike first second) :
      likeness.PiecesAlike (firstWords.foldl Heading.Pieces.addWord first)
        (secondWords.foldl Heading.Pieces.addWord second) := by
    induction words generalizing first second with
    | nil => exact alike
    | cons head tail induction => exact induction _ _ (alike.addWord head)
  have last := folded .empty .empty ⟨.nil, likeness.refl _⟩
  have all : List.Forall₂ likeness.alike (firstWords.foldl Heading.Pieces.addWord .empty).all
      (secondWords.foldl Heading.Pieces.addWord .empty).all :=
    List.rel_append last.finished (.cons last.current .nil)
  rw [Heading.selectorsOf, Heading.selectorsOf]
  generalize (firstWords.foldl Heading.Pieces.addWord .empty).all = firstPieces at all
  generalize (secondWords.foldl Heading.Pieces.addWord .empty).all = secondPieces at all
  induction all with
  | nil => exact .nil
  | cons same _ induction =>
      have trimmed := likeness.trim same
      rw [List.map_cons, List.map_cons, List.filter_cons, List.filter_cons,
        likeness.isEmpty_eq trimmed]
      split
      · exact .cons trimmed induction
      · exact induction

theorem joinedAlike {firstWords secondWords : List Word}
    (words : List.Forall₂ (likeness.WordAlike near) firstWords secondWords) :
    likeness.alike (Word.joined firstWords) (Word.joined secondWords) := by
  induction words with
  | nil => exact likeness.refl _
  | cons head tail induction => exact likeness.append head.text induction

theorem headingAlike {firstWords secondWords : List Word}
    (words : List.Forall₂ (likeness.WordAlike near) firstWords secondWords) :
    likeness.HeadingAlike (.ofWords firstWords) (.ofWords secondWords) := by
  have texts := likeness.trim (joinedAlike words)
  have selectors := selectorsAlike words
  rw [Heading.ofWords, Heading.ofWords]
  generalize Heading.selectorsOf firstWords = firstSelectors at selectors
  generalize Heading.selectorsOf secondWords = secondSelectors at selectors
  cases selectors with
  | nil => exact .unclassified texts
  | cons same others =>
      dsimp only
      rw [likeness.head_eq same]
      split
      · exact .atRule texts (likeness.atRule same others)
      · exact .selectors texts (.cons same others)

/-! ## Tokens -/

variable (likeness near)

inductive TokenAlike : Token → Token → Prop
  | code {first second : Text} {firstOffset secondOffset : Int} (error : Bool)
      (texts : likeness.alike first second) (offsets : near firstOffset secondOffset) :
      TokenAlike (.code first firstOffset error) (.code second secondOffset error)
  | rule {firstKey secondKey firstValue secondValue : Text} {firstOffset secondOffset : Int}
      (modifiers : NameSet) (error : Bool) (keys : likeness.alike firstKey secondKey)
      (values : likeness.alike firstValue secondValue) (offsets : near firstOffset secondOffset) :
      TokenAlike (.rule ⟨firstKey, firstValue, modifiers⟩ firstOffset error)
        (.rule ⟨secondKey, secondValue, modifiers⟩ secondOffset error)
  | opening {first second : Heading} {firstOffset secondOffset : Int}
      (headings : likeness.HeadingAlike first second) (offsets : near firstOffset secondOffset) :
      TokenAlike (.opening first firstOffset) (.opening second secondOffset)
  | closing {firstOffset secondOffset : Int} (offsets : near firstOffset secondOffset) :
      TokenAlike (.closing firstOffset) (.closing secondOffset)

variable {likeness near}

theorem tokenAlike_openingOf {firstWords secondWords : List Word}
    (words : List.Forall₂ (likeness.WordAlike near) firstWords secondWords)
    (some_ : firstWords ≠ []) :
    likeness.TokenAlike near (.openingOf firstWords) (.openingOf secondWords) := by
  have headings := headingAlike words
  cases words with
  | nil => exact absurd rfl some_
  | cons head tail => exact .opening headings head.offset

end TextLikeness

/-! ## The likeness of scans -/

namespace Scan

variable {names : List Text} {texts : TextLikeness names} {near : Int → Int → Prop}

theorem statementOf_alike {options : TokenizeOptions} (known : options.ruleModifiers = names)
    (firstSource secondSource : Text) {firstWords secondWords : List Word}
    (words : List.Forall₂ (texts.WordAlike near) firstWords secondWords) :
    (firstWords.any (·.error) = secondWords.any (·.error)) ∧
      texts.StatementAlike (statementOf ⟨options, firstSource⟩ firstWords)
        (statementOf ⟨options, secondSource⟩ secondWords) := by
  have flagged : firstWords.any (·.error) = secondWords.any (·.error) := by
    induction words with
    | nil => rfl
    | cons head tail induction => rw [List.any_cons, List.any_cons, head.error, induction]
  refine ⟨flagged, ?_⟩
  simp only [statementOf, flagged]
  split
  · exact .malformed
  · exact TextLikeness.statementAlike_ofWords known words

theorem emitWords_alike {options : TokenizeOptions} (known : options.ruleModifiers = names)
    (firstSource secondSource : Text) {first second : State}
    (words : List.Forall₂ (texts.WordAlike near) first.words second.words)
    (pendingError : first.pendingError = second.pendingError) (terminator : Text) :
    let firstOutcome := emitWords ⟨options, firstSource⟩ first terminator
    let secondOutcome := emitWords ⟨options, secondSource⟩ second terminator
    List.Forall₂ (texts.TokenAlike near) firstOutcome.tokens secondOutcome.tokens ∧
      firstOutcome.kinds = secondOutcome.kinds := by
  obtain ⟨flagged, statements⟩ := statementOf_alike known firstSource secondSource words
  have trimmed := texts.trim (TextLikeness.joinedAlike words)
  obtain ⟨_, _, _, _, _, _, firstPending, firstWords⟩ := first
  obtain ⟨_, _, _, _, _, _, secondPending, secondWords⟩ := second
  obtain rfl : firstPending = secondPending := pendingError
  cases words with
  | nil => exact ⟨.nil, rfl⟩
  | @cons firstWord secondWord firstRest secondRest head tail =>
      simp only [emitWords, Word.trimmed, flagged]
      generalize statementOf _ (firstWord :: firstRest) = firstStatement at statements ⊢
      generalize statementOf _ (secondWord :: secondRest) = secondStatement at statements ⊢
      have emitted (needed error : Bool) (firstState secondState : State) :
          let whole (source : Text) (state : State) (text : Text) (offset : Int) : Outcome :=
            if text.isEmpty then { state }
            else
              (Outcome.onlyIf needed state fun state =>
                reportSettled ⟨options, source⟩ state .invalidRule offset).andThen fun state =>
                  { state, tokens := [.code (text ++ terminator) offset error] }
          let firstOutcome := whole firstSource firstState
            (Word.joined (firstWord :: firstRest)).trim firstWord.offset
          let secondOutcome := whole secondSource secondState
            (Word.joined (secondWord :: secondRest)).trim secondWord.offset
          List.Forall₂ (texts.TokenAlike near) firstOutcome.tokens secondOutcome.tokens ∧
            firstOutcome.kinds = secondOutcome.kinds := by
        have token := TextLikeness.TokenAlike.code error
          (texts.append trimmed (texts.refl terminator)) head.offset
        simp only [texts.isEmpty_eq trimmed]
        split
        · exact ⟨.nil, rfl⟩
        · simp only [Outcome.andThen, Outcome.onlyIf, reportSettled, report]
          cases needed <;> cases options.ignoreErrors <;> exact ⟨.cons token .nil, rfl⟩
      cases statements with
      | declaration modifiers keys values =>
          exact ⟨.cons (.rule modifiers firstPending keys values head.offset) .nil, rfl⟩
      | standalone => exact emitted ..
      | malformed => exact emitted ..
      | incomplete => exact emitted ..

/-- Offsets of two scans that stand for the same place: where text between two of them is
alike, and they come in the same order. -/
structure Levels (pair : Pair) (texts : TextLikeness names) (near : Int → Int → Prop) where
  level : Int → Int → Prop
  near_base (offset : Nat) : near (pair.firstBase + offset : Nat) (pair.secondBase + offset : Nat)
  near_of_level {firstOffset secondOffset : Int} (same : level firstOffset secondOffset) :
    near firstOffset secondOffset
  level_of_le {offset : Nat} (inside : offset ≤ pair.width) :
    level (pair.firstBase + offset : Nat) (pair.secondBase + offset : Nat)
  level_lt {firstStart secondStart firstStop secondStop : Int}
      (starts : level firstStart secondStart) (stops : level firstStop secondStop) :
    firstStart < firstStop ↔ secondStart < secondStop
  slice_alike {firstStart secondStart firstStop secondStop : Int}
      (starts : level firstStart secondStart) (stops : level firstStop secondStop) :
    texts.alike (pair.firstSource.slice firstStart firstStop)
      (pair.secondSource.slice secondStart secondStop)

/-- Offsets in the text that both scans read. -/
def Levels.window (pair : Pair) (texts : TextLikeness names) (near : Int → Int → Prop)
    (near_base : ∀ offset : Nat,
      near (pair.firstBase + offset : Nat) (pair.secondBase + offset : Nat)) :
    Levels pair texts near where
  level first second := ∃ offset ≤ pair.width,
    first = (pair.firstBase + offset : Nat) ∧ second = (pair.secondBase + offset : Nat)
  near_base := near_base
  near_of_level := by
    rintro _ _ ⟨offset, -, rfl, rfl⟩
    exact near_base offset
  level_of_le inside := ⟨_, inside, rfl, rfl⟩
  level_lt := by
    rintro _ _ _ _ ⟨start, -, rfl, rfl⟩ ⟨stop, -, rfl, rfl⟩
    rw [Int.ofNat_lt, Int.ofNat_lt, Nat.add_lt_add_iff_left, Nat.add_lt_add_iff_left]
  slice_alike := by
    rintro _ _ _ _ ⟨start, -, rfl, rfl⟩ ⟨stop, inside, rfl, rfl⟩
    rw [pair.slice_eq _ inside]
    exact texts.refl _

theorem wordAlike_mk (kind : WordKind) (text : Text) (error : Bool)
    {firstOffset secondOffset : Int} (offsets : near firstOffset secondOffset) :
    texts.WordAlike near ⟨kind, text, firstOffset, error⟩ ⟨kind, text, secondOffset, error⟩ :=
  ⟨rfl, rfl, offsets, texts.refl text, fun _ => rfl⟩

theorem wordAlike_merged (kind : WordKind) (opaque_ : kind ≠ .text) (error : Bool)
    {firstWords secondWords : List Word}
    (words : List.Forall₂ (texts.WordAlike near) firstWords secondWords)
    (some_ : firstWords ≠ []) :
    texts.WordAlike near (Word.merged kind error firstWords)
      (Word.merged kind error secondWords) := by
  have joined := TextLikeness.joinedAlike words
  cases words with
  | nil => exact absurd rfl some_
  | cons head tail =>
      refine ⟨rfl, rfl, head.offset, joined, fun isText => ?_⟩
      exact absurd (beq_iff_eq.mp isText) opaque_

theorem of_forall₂_concat {Entry : Type} {alike : Entry → Entry → Prop}
    {first second : List Entry} {firstLast secondLast : Entry}
    (all : List.Forall₂ alike (first ++ [firstLast]) (second ++ [secondLast])) :
    List.Forall₂ alike first second ∧ alike firstLast secondLast := by
  have reversed := List.forall₂_reverse_iff.mpr all
  rw [List.reverse_append, List.reverse_append] at reversed
  obtain ⟨last, rest⟩ := List.forall₂_cons.mp reversed
  exact ⟨List.forall₂_reverse_iff.mp rest, last⟩

/-- Where texts are alike word by word, scans are. -/
def Likeness.wordwise {pair : Pair} (levels : Levels pair texts near) (counted : Prop)
    (known : pair.options.ruleModifiers = names) : Likeness pair where
  held := List.Forall₂ (texts.WordAlike near)
  level := levels.level
  same := texts.TokenAlike near
  counted := counted
  held_nil := .nil
  held_word alike kind text offset error :=
    List.rel_append alike (.cons (wordAlike_mk kind text error (levels.near_base offset)) .nil)
  held_more alike more := by
    obtain ⟨words, last⟩ := of_forall₂_concat alike
    refine List.rel_append words (.cons ⟨rfl, rfl, last.offset, ?_, fun isText => ?_⟩ .nil)
    · exact texts.append last.text (texts.refl more)
    · exact congrArg (· ++ more) (last.plain isText)
  held_length _ _ _ alike := alike.length_eq
  held_merged _ _ _ alike _ opaque_ error kept some_ := by
    refine List.rel_append (List.forall₂_take kept alike)
      (.cons (wordAlike_merged _ opaque_ error (List.forall₂_drop kept alike) ?_) .nil)
    rwa [ne_eq, List.drop_eq_nil_iff, Nat.not_le]
  emitted alike pendingError terminator := emitWords_alike known _ _ alike pendingError terminator
  opening := TextLikeness.tokenAlike_openingOf
  closing offset := .closing (levels.near_base offset)
  level_of_le := levels.level_of_le
  level_lt := levels.level_lt
  stretch _ _ _ _ _ starts stops :=
    have trimmed := texts.trim (levels.slice_alike starts stops)
    ⟨texts.isEmpty_eq trimmed, fun error => .code error trimmed (levels.near_of_level starts)⟩

end Scan
end Stylesheet
