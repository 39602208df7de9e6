import Stylesheet.Proofs.Lexing.Statement
import Stylesheet.Proofs.Scan.Demand
import Stylesheet.Proofs.Text.Significant
import Stylesheet.Tokenizer

/-!
# Conservation of text

When statements are split, the tokens of a source hold its significant characters
outside the comments, each of them once and in order. What a step consumes is either
added to the words, written into tokens or passed over as a comment, and the words
that are dropped have been written into tokens.
-/

namespace Stylesheet

/-! ## Slices -/

@[simp] theorem Text.slice_self (source : Text) (offset : Int) :
    source.slice offset offset = [] := by
  simp [slice]

theorem Text.slice_append (source : Text) {start middle stop : Int} (nonneg : 0 ≤ start)
    (first : start ≤ middle) (second : middle ≤ stop) :
    source.slice start middle ++ source.slice middle stop = source.slice start stop := by
  obtain ⟨start, rfl⟩ := Int.eq_ofNat_of_zero_le nonneg
  obtain ⟨middle, rfl⟩ := Int.eq_ofNat_of_zero_le (Int.le_trans nonneg first)
  obtain ⟨stop, rfl⟩ := Int.eq_ofNat_of_zero_le (Int.le_trans (Int.natCast_nonneg middle) second)
  exact slice_append_slice source (Int.ofNat_le.mp first) (Int.ofNat_le.mp second)

theorem Text.slice_append_drop {source : Text} {start stop : Nat} (ordered : start ≤ stop) :
    source.slice start stop ++ source.drop stop = source.drop start := by
  have total : start + (stop - start) = stop := by omega
  rw [slice_natCast, ← total, ← List.drop_drop, total, List.take_append_drop]

theorem Text.length_slice {source : Text} {start stop : Nat} (ordered : start ≤ stop)
    (inside : stop ≤ source.length) : (source.slice start stop).length = stop - start := by
  rw [slice_natCast, List.length_take, List.length_drop]
  omega

/-! ## Statements -/

/-- The text of the two sides, with the separator between them. -/
def Sides.content (sides : Sides) : Text :=
  match sides.value with
  | none => sides.key
  | some value => sides.key ++ ':' :: value

theorem Sides.content_append (sides : Sides) (text : Text) :
    (sides.append text).content = sides.content ++ text := by
  obtain ⟨key, value, hasCall⟩ := sides
  cases value <;> simp [append, content]

/-- Putting pieces back keeps the text that they make up. -/
theorem join_attachExtends (head : Text) (pieces : List Text) :
    Text.join [':'] ((attachExtends head pieces).1 :: (attachExtends head pieces).2) =
      Text.join [':'] (head :: pieces) := by
  induction pieces generalizing head with
  | nil => rfl
  | cons piece pieces induction =>
      rw [attachExtends]
      split
      · rw [induction]
        cases pieces <;> simp [Text.join]
      · have inner := induction piece
        simp only [Text.join] at inner ⊢
        rw [inner]

theorem join_separated (lessSyntax : Bool) (text : Text) :
    Text.join [':'] ((separated lessSyntax text).1 :: (separated lessSyntax text).2) = text := by
  unfold separated
  cases lessSyntax with
  | false => exact Text.join_split ':' text
  | true => exact (join_attachExtends _ _).trans (Text.join_split ':' text)

theorem Sides.content_of_add? {lessSyntax : Bool} {sides next : Sides} {word : Word}
    (read : sides.add? lessSyntax word = some next) :
    next.content = sides.content ++ word.text := by
  unfold add? at read
  split at read
  · have whole := join_separated lessSyntax word.text
    unfold addText? at read
    split at read
    · cases read
      exact content_append sides word.text
    · next before after pieces noValue =>
      cases read
      rw [pieces] at whole
      simp [content, noValue, ← whole, Text.join]
    · cases read
  · unfold addOpaque? at read
    split at read
    · cases read
      exact content_append sides word.text
    · next noValue =>
      split at read
      · cases read
        simp [content, append, noValue]
      · cases read

theorem Sides.content_of_foldlM {lessSyntax : Bool} {words : List Word} {sides last : Sides}
    (read : words.foldlM (Sides.add? lessSyntax) sides = some last) :
    last.content = sides.content ++ Word.joined words := by
  induction words generalizing sides with
  | nil =>
      cases read
      simp
  | cons word words induction =>
      rw [List.foldlM_cons] at read
      obtain ⟨next, first, later⟩ := Option.bind_eq_some_iff.mp read
      rw [induction later, content_of_add? first, Word.joined_cons, List.append_assoc]

/-- A declaration is made of the texts on both sides of a colon. -/
theorem Statement.exists_of_declaration {options : TokenizeOptions} {words : List Word}
    {declaration : Declaration}
    (isDeclaration : ofWords options words = .declaration declaration) :
    ∃ key value : Text, key ++ ':' :: value = Word.joined words ∧
      let flagged := Flagged.ofValue options.ruleModifiers value.trim
      key.trim ≠ [] ∧ flagged.value ≠ [] ∧
        declaration = ⟨key.trim, flagged.value, flagged.modifiers⟩ := by
  unfold ofWords at isDeclaration
  split at isDeclaration
  · cases isDeclaration
  next sides read =>
    have content := Sides.content_of_foldlM read
    unfold ofSides at isDeclaration
    dsimp only at isDeclaration
    split at isDeclaration
    · split at isDeclaration <;> cases isDeclaration
    next value hasValue =>
      refine ⟨sides.key, value, by simpa [Sides.content, hasValue, Sides.empty] using content, ?_⟩
      split at isDeclaration
      · cases isDeclaration
      next filled =>
        cases isDeclaration
        rw [Bool.or_eq_true, not_or, List.isEmpty_iff, List.isEmpty_iff] at filled
        exact ⟨filled.1, filled.2, rfl⟩

/-- What a token writes of the source: blocks write their heading and their braces. -/
def Token.written : Token → Text
  | code text _ _ => text
  | rule declaration _ _ => declaration.key ++ ':' :: declaration.value
  | opening heading _ => heading.text ++ ['\x7b']
  | block heading _ _ => heading.text ++ ['\x7b']
  | closing _ => ['\x7d']
  | bare atRule => atRule.name

/-- Without flags, a declaration keeps everything significant. -/
theorem significant_of_declaration {options : TokenizeOptions} {words : List Word}
    {declaration : Declaration} (noFlags : options.ruleModifiers = [])
    (isDeclaration : Statement.ofWords options words = .declaration declaration) :
    Text.significant (declaration.key ++ ':' :: declaration.value) =
      Text.significant (Word.joined words) := by
  obtain ⟨key, value, whole, -, -, rfl⟩ := Statement.exists_of_declaration isDeclaration
  rw [← whole, noFlags, Text.significant_append, Text.significant_append, Text.significant_cons,
    Text.significant_cons ':' value]
  simp [Flagged.ofValue, Flagged.takeAll]

/-- Whether the reaction to a marker passes over text. -/
def Marker.isComment : Marker → Bool
  | comment | lineComment => true
  | _ => false

namespace Scan

variable {scan : Scan} {state : State}

/-- What an outcome has written so far, and the words that it still holds. -/
def Outcome.output (outcome : Outcome) : Text :=
  outcome.tokens.flatMap Token.written ++ Word.joined outcome.state.words

/-- A scan that splits statements and takes no flags off. -/
structure Plainly (scan : Scan) : Prop where
  splits : scan.options.splitRules = true
  noFlags : scan.options.ruleModifiers = []

/-! ## Emission -/

@[simp] theorem reportPending_tokens (fault : Fault) (offset : Int) :
    (scan.reportPending state fault offset).tokens = [] := by
  unfold reportPending report
  split <;> rfl

@[simp] theorem reportPending_words (fault : Fault) (offset : Int) :
    (scan.reportPending state fault offset).state.words = state.words := by
  rw [reportPending_state]

@[simp] theorem reportSettled_tokens (fault : Fault) (offset : Int) :
    (scan.reportSettled state fault offset).tokens = [] := by
  unfold reportSettled report
  split <;> rfl

@[simp] theorem onlyIf_reportSettled (scan : Scan) (state : State) (needed : Bool)
    (fault : Fault) (offset : Int) :
    (Outcome.onlyIf needed state fun state => scan.reportSettled state fault offset).state =
        state ∧
      (Outcome.onlyIf needed state fun state =>
        scan.reportSettled state fault offset).tokens = [] := by
  unfold Outcome.onlyIf
  split <;> simp

/-- Emitted words are written in full; only blanks and a semicolon come and go. -/
theorem significant_emitWords (plainly : scan.Plainly) (state : State) {terminator : Text}
    (isTerminator : Text.significant terminator = []) :
    Text.significant ((scan.emitWords state terminator).tokens.flatMap Token.written) =
      Text.significant (Word.joined state.words) := by
  unfold emitWords
  split
  next noWords => simp [noWords]
  next first words split =>
    dsimp only
    split
    next declaration isDeclaration =>
      have ofWords : Statement.ofWords scan.options state.words = .declaration declaration := by
        unfold statementOf at isDeclaration
        split at isDeclaration
        · cases isDeclaration
        · exact isDeclaration
      simpa [Token.written] using significant_of_declaration plainly.noFlags ofWords
    next =>
      split
      next nothing =>
        have blank : Text.significant (Word.trimmed state.words) = [] := by
          rw [List.isEmpty_iff.mp nothing, Text.significant_nil]
        rw [← Text.significant_trim (Word.joined state.words)]
        exact blank.symm
      next =>
        have code (text : Text) : Text.significant (Text.trim text ++ terminator) =
            Text.significant text := by
          rw [Text.significant_append, isTerminator, List.append_nil, Text.significant_trim]
        simp only [Outcome.andThen, Outcome.onlyIf]
        split <;> simpa [Token.written, Word.trimmed] using code (Word.joined state.words)

theorem significant_emitUpTo (plainly : scan.Plainly) (state : State) (stop : Int) :
    Text.significant ((scan.emitUpTo state stop).tokens.flatMap Token.written) =
      Text.significant (Word.joined state.words) ++
        Text.significant (scan.source.slice state.cursor stop) := by
  have whole := significant_emitWords plainly (state.addText scan.source stop)
    Text.significant_nil
  simpa [emitUpTo, plainly.splits, Outcome.mapState, State.addText] using whole

/-! ## Words -/

@[simp] theorem joined_addText (source : Text) (stop : Int) :
    Word.joined (state.addText source stop).words =
      Word.joined state.words ++ source.slice state.cursor stop := by
  simp [State.addText]

@[simp] theorem joined_takeWord (source : Text) (kind : WordKind) (stop : Int) (error : Bool) :
    Word.joined (state.takeWord source kind stop error).words =
      Word.joined state.words ++ source.slice state.cursor stop := by
  simp [State.takeWord]

@[simp] theorem joined_takeText (offset : Int) :
    Word.joined (scan.takeText state offset).words =
      Word.joined state.words ++ scan.source.slice state.cursor offset := by
  simp [takeText, State.moveTo]

@[simp] theorem cursor_takeText (offset : Int) :
    (scan.takeText state offset).cursor = offset := rfl

@[simp] theorem cursor_takeWord (source : Text) (kind : WordKind) (stop : Int) (error : Bool) :
    (state.takeWord source kind stop error).cursor = stop := rfl

theorem joined_collapse (source : Text) (offset : Int) (kind : WordKind)
    (mark : Option Int) :
    Word.joined (state.collapse source offset kind mark).words =
      Word.joined state.words ++ source.slice state.cursor (offset + 1) := by
  generalize count : (mark.bind fun mark =>
    if mark < state.words.length then some (place state.words.length (mark + 1))
    else none).getD 0 = kept
  have whole : Word.joined (state.words.take kept) ++ Word.joined (state.words.drop kept) =
      Word.joined state.words := by
    rw [← Word.joined_append, List.take_append_drop]
  simp only [State.collapse, count, Word.joined_append, Word.joined_cons, Word.joined_nil,
    List.append_nil, ← List.append_assoc, whole]

/-! ## Cursors -/

theorem landed_le_length {marker : Marker} {offset : Nat} {cursor : Int}
    (landed : Landed scan state offset marker cursor)
    (begins : scan.markerAt? offset = some marker) (reached : state.cursor ≤ offset) :
    cursor ≤ scan.source.length := by
  have fits := lt_length_of_markerAt? begins
  cases landed with
  | unmoved => omega
  | atParen => omega
  | behindOne single => omega
  | behindEscape => omega
  | behindLetters =>
      have : Marker.url.spelling.length = 4 := rfl
      omega
  | behindUrl found =>
      obtain ⟨long, ends⟩ := Url.endsAt_of_reach? found
      have fitting := ends.le_length
      rw [List.length_drop] at fitting
      omega
  | behindString found =>
      have ends := Quoted.endsAt_of_reach? found
      have fitting := ends.le_length
      have positive := ends.1
      rw [List.length_drop] at fitting
      omega
  | behindComment found =>
      obtain ⟨-, here⟩ := Text.isPrefix_of_findFrom? found
      have := here.length_le
      simp only [List.length_drop, List.length_cons, List.length_nil] at this
      omega
  | behindLine =>
      have : scan.lineEnd (offset + 2 : Nat) ≤ scan.source.length := Nat.min_le_right ..
      omega
  | behindInterpolation opens =>
      rcases opens with rfl | rfl
      all_goals
        have : offset + 2 ≤ scan.source.length := fits
        omega
  | atEnd => omega

/-- Nested constructs apart, the cursor never falls behind the marker. -/
theorem landed_forward {marker : Marker} {offset : Nat} {cursor : Int}
    (landed : Landed scan state offset marker cursor)
    (begins : scan.markerAt? offset = some marker) :
    (offset : Int) ≤ cursor ∨ cursor = state.cursor ∧
      (marker = .semicolon ∨ marker = .closeParen ∨ marker = .closeBrace) := by
  have fits := lt_length_of_markerAt? begins
  cases landed with
  | unmoved nested => exact Or.inr ⟨rfl, nested⟩
  | behindComment found =>
      have := (Text.isPrefix_of_findFrom? found).1
      left
      omega
  | behindLine =>
      have isLine : offset + 2 ≤ scan.source.length := fits
      have := scan.le_lineEnd isLine
      left
      omega
  | _ =>
      left
      omega

/-! ## Reactions -/

theorem output_readEscape (scan : Scan) (state : State) (offset : Int) :
    (scan.readEscape state offset).output = Word.joined state.words ++
      scan.source.slice state.cursor (scan.readEscape state offset).state.cursor := by
  simp [Outcome.output, readEscape]

theorem output_readUrl (scan : Scan) (state : State) (offset : Int) :
    (scan.readUrl state offset).output = Word.joined state.words ++
      (scan.source.slice state.cursor offset ++
        scan.source.slice offset (scan.readUrl state offset).state.cursor) := by
  unfold readUrl
  dsimp only
  split <;> simp [Outcome.output]

theorem output_readString (scan : Scan) (state : State) (quote : Quote) (offset : Int) :
    (scan.readString quote state offset).output = Word.joined state.words ++
      (scan.source.slice state.cursor offset ++
        scan.source.slice offset (scan.readString quote state offset).state.cursor) := by
  unfold readString
  dsimp only
  split
  · simp [Outcome.output]
  · split <;> simp [Outcome.output, Outcome.mapState]

theorem output_skipLine (scan : Scan) (state : State) (offset : Int) :
    (scan.skipLine state offset).output =
      Word.joined state.words ++ scan.source.slice state.cursor offset := by
  simp [Outcome.output, skipLine, State.moveTo]

theorem output_skipComment (scan : Scan) (state : State) (offset : Int) :
    (scan.skipComment state offset).output =
      Word.joined state.words ++ scan.source.slice state.cursor offset := by
  unfold skipComment
  dsimp only
  split <;> simp [Outcome.output, Outcome.mapState, State.moveTo]

theorem output_openCall (scan : Scan) (state : State) (offset : Int) :
    (scan.openCall state offset).output =
      Word.joined state.words ++ scan.source.slice state.cursor offset := by
  simp [Outcome.output, openCall]

theorem output_openInterpolation (scan : Scan) (state : State) (offset : Int) :
    (scan.openInterpolation state offset).output =
      Word.joined state.words ++ scan.source.slice state.cursor (offset + 2) := by
  simp [Outcome.output, openInterpolation]

theorem joined_collapseOutermost (scan : Scan) (state : State) (offset : Int)
    (kind : WordKind) (nest : Nest) :
    Word.joined (scan.collapseOutermost state offset kind nest).words =
      Word.joined state.words ++
        scan.source.slice state.cursor
          (scan.collapseOutermost state offset kind nest).cursor := by
  unfold collapseOutermost
  split
  · rw [joined_collapse, collapse_cursor]
  · simp

theorem significant_endStatement (plainly : scan.Plainly) (state : State) (offset : Int)
    (outside : ¬0 < state.calls.depth) :
    Text.significant (scan.endStatement state offset).output =
      Text.significant (Word.joined state.words) ++
        Text.significant (scan.source.slice state.cursor offset) := by
  have written := significant_emitWords plainly (state.addText scan.source offset)
    Text.significant_semicolon
  rw [endStatement, if_neg outside]
  simpa [Outcome.output, Outcome.onlyIf, Outcome.mapState, plainly.splits,
    State.beginStatement, State.forgetWords, State.settle] using written

theorem openBlock_of_splits (splits : scan.options.splitRules = true) (offset : Int) :
    scan.openBlock state offset =
      { state := { state.beginBody (offset + 1) with blockDepth := state.blockDepth + 1 }
        tokens := [.openingOf (state.addText scan.source offset).words] } := by
  simp only [openBlock, splits, Bool.not_true, Bool.false_and]
  rfl

theorem significant_openBlock (plainly : scan.Plainly) (state : State) (offset : Int) :
    Text.significant (scan.openBlock state offset).output =
      Text.significant (Word.joined state.words) ++
        (Text.significant (scan.source.slice state.cursor offset) ++ ['\x7b']) := by
  have brace : Text.significant ['\x7b'] = ['\x7b'] := by decide
  rw [openBlock_of_splits plainly.splits]
  simp [Outcome.output, Token.openingOf, Token.written, Heading.text_ofWords, brace,
    Word.trimmed, State.beginBody, State.beginStatement, State.forgetWords]

theorem significant_closeBlock (plainly : scan.Plainly) (state : State) (offset : Int) :
    Text.significant (scan.closeBlock state offset).output =
      Text.significant (Word.joined state.words) ++
        (Text.significant (scan.source.slice state.cursor offset) ++ ['\x7d']) := by
  have brace : Text.significant ['\x7d'] = ['\x7d'] := by decide
  have written := significant_emitUpTo plainly state offset
  simp [closeBlock, Outcome.output, Outcome.mapState, Outcome.andThen, written, brace,
    Token.written, State.beginBody, State.beginStatement, State.forgetWords]

theorem significant_endSource (plainly : scan.Plainly) (state : State) :
    Text.significant (scan.endSource state).output =
      Text.significant (Word.joined state.words) ++
        Text.significant (scan.source.slice state.cursor scan.source.length) := by
  have written := significant_emitUpTo plainly state scan.source.length
  simp [endSource, Outcome.output, Outcome.mapState, Outcome.andThen, written,
    State.moveTo, State.forgetWords]

/-- The offset up to which a reaction keeps the text: comments are passed over. -/
def keptUpTo (marker : Marker) (offset stop : Nat) : Nat :=
  if marker.isComment then offset else stop

/-- Whether a marker begins or ends a block in a state, or ends a statement. -/
def State.Breaks (state : State) (marker : Marker) : Prop :=
  marker = .openBrace ∨ marker = .semicolon ∧ ¬0 < state.calls.depth ∨
    marker = .closeBrace ∧ ¬0 < state.interpolations.depth

theorem slice_marker {marker : Marker} {offset : Nat} {character : Char}
    (begins : scan.markerAt? offset = some marker) (spelled : marker.spelling = [character]) :
    scan.source.slice offset (offset + 1 : Nat) = [character] := by
  have here := Marker.isPrefix_of_occursHere (markerAt?_eq_some_iff.mp begins).2
    (by rintro rfl; simp [Marker.spelling] at spelled)
  obtain ⟨rest, split⟩ := here
  rw [Text.slice_natCast, ← split, spelled]
  simp

section Reaction

variable {marker : Marker} {cursor offset stop : Nat} (place : state.cursor = cursor)
  (reached : cursor ≤ offset) (begins : scan.markerAt? offset = some marker)
  (landing : (scan.react marker state offset).state.cursor = stop)

include place reached begins landing

/-- Between two boundaries a reaction holds what it keeps. -/
theorem output_react (within : ¬state.Breaks marker) :
    (scan.react marker state offset).output =
      Word.joined state.words ++ scan.source.slice cursor (keptUpTo marker offset stop : Nat) := by
  have landed := scan.landed_react state marker offset
  rw [landing] at landed
  have forward := landed_forward landed begins
  rw [place] at forward
  have collapsed (kind : WordKind) (nest : Nest)
      (lands : (scan.collapseOutermost state offset kind nest).cursor = stop) :
      Word.joined (scan.collapseOutermost state offset kind nest).words =
        Word.joined state.words ++ scan.source.slice cursor stop := by
    rw [joined_collapseOutermost, lands, place]
  cases marker with
  | quote quote =>
      have behind : offset ≤ stop := by simpa using forward
      have output := scan.output_readString state quote offset
      simp only [react] at landing ⊢
      rw [output, landing, place, Text.slice_append_slice _ reached behind]
      rfl
  | comment =>
      simp only [react, output_skipComment, place]
      rfl
  | lineComment =>
      simp only [react, output_skipLine, place]
      rfl
  | openBrace => exact absurd (Or.inl rfl) within
  | closeBrace =>
      have inside : 0 < state.interpolations.depth :=
        Decidable.not_not.mp fun outside => within (Or.inr (Or.inr ⟨rfl, outside⟩))
      rw [react, closeBrace, if_pos inside] at landing ⊢
      exact collapsed .interpolation state.interpolations landing
  | semicolon =>
      have inside : 0 < state.calls.depth :=
        Decidable.not_not.mp fun outside => within (Or.inr (Or.inl ⟨rfl, outside⟩))
      rw [react, endStatement_inside scan state offset inside] at landing ⊢
      have stays : state.cursor = stop := landing
      obtain rfl : stop = cursor := by omega
      simp [Outcome.output, keptUpTo, Marker.isComment]
  | url =>
      have behind : offset ≤ stop := by simpa using forward
      have output := scan.output_readUrl state offset
      simp only [react] at landing ⊢
      rw [output, landing, place, Text.slice_append_slice _ reached behind]
      rfl
  | backslash =>
      have output := scan.output_readEscape state offset
      simp only [react] at landing ⊢
      rw [output, landing, place]
      rfl
  | openParen =>
      have stays : (offset : Int) = stop := landing
      obtain rfl : stop = offset := by omega
      rw [react, output_openCall, place]
      rfl
  | closeParen => exact collapsed .call state.calls landing
  | atInterpolation =>
      have next : ((offset : Int) + 2) = stop := landing
      obtain rfl : stop = offset + 2 := by omega
      rw [react, output_openInterpolation, place]
      rfl
  | hashInterpolation =>
      have next : ((offset : Int) + 2) = stop := landing
      obtain rfl : stop = offset + 2 := by omega
      rw [react, output_openInterpolation, place]
      rfl

/-- A reaction writes or holds what it keeps. -/
theorem significant_react (plainly : scan.Plainly) :
    Text.significant (scan.react marker state offset).output =
      Text.significant (Word.joined state.words) ++
        Text.significant (scan.source.slice cursor (keptUpTo marker offset stop : Nat)) := by
  by_cases breaks : state.Breaks marker
  · rcases breaks with rfl | ⟨rfl, outside⟩ | ⟨rfl, outside⟩
    · have next : ((offset : Int) + 1) = stop := landing
      obtain rfl : stop = offset + 1 := by omega
      rw [react, significant_openBlock plainly state, place, keptUpTo, if_neg (by decide),
        ← Text.slice_append_slice _ reached (Nat.le_succ offset), slice_marker begins rfl,
        Text.significant_append]
      rfl
    · rw [react, endStatement_state scan state offset outside] at landing
      have next : ((offset : Int) + 1) = stop := landing
      obtain rfl : stop = offset + 1 := by omega
      rw [react, significant_endStatement plainly state offset outside, place, keptUpTo,
        if_neg (by decide), ← Text.slice_append_slice _ reached (Nat.le_succ offset),
        slice_marker begins rfl, Text.significant_append, Text.significant_semicolon,
        List.append_nil]
    · rw [react, closeBrace, if_neg outside] at landing ⊢
      have next : ((offset : Int) + 1) = stop := landing
      obtain rfl : stop = offset + 1 := by omega
      rw [significant_closeBlock plainly state, place, keptUpTo, if_neg (by decide),
        ← Text.slice_append_slice _ reached (Nat.le_succ offset), slice_marker begins rfl,
        Text.significant_append]
      rfl
  · rw [output_react place reached begins landing breaks, Text.significant_append]

end Reaction

/-! ## Comments -/

/-- Whether a step passes over the character at an offset. -/
def Step.skips (step : Step) (offset : Nat) : Bool :=
  step.marker.any Marker.isComment && step.offset ≤ offset &&
    offset < step.outcome.state.cursor

/-- The characters of a text that no step passes over, where the text begins at an
offset of the source. -/
def kept (steps : List Step) (start : Nat) (text : Text) : Text :=
  ((text.zipIdx start).filter fun entry => !steps.any (·.skips entry.2)).map (·.1)

/-- The source without the comments that have been handled. -/
def withoutComments (scan : Scan) : Text :=
  kept scan.steps 0 scan.source

theorem kept_append (steps : List Step) (start : Nat) (first second : Text) :
    kept steps start (first ++ second) =
      kept steps start first ++ kept steps (start + first.length) second := by
  simp [kept, List.zipIdx_append]

/-- What is kept depends only on what the steps pass over within the text. -/
theorem kept_congr {first second : List Step} {start : Nat} {text : Text}
    (same : ∀ offset, start ≤ offset → offset < start + text.length →
      first.any (·.skips offset) = second.any (·.skips offset)) :
    kept first start text = kept second start text := by
  unfold kept
  congr 1
  apply List.filter_congr
  intro entry member
  obtain ⟨behind, before, -⟩ := List.mem_zipIdx member
  rw [same entry.2 behind before]

theorem kept_nil (start : Nat) (text : Text) : kept [] start text = text := by
  rw [kept, List.filter_eq_self.mpr (by simp), List.zipIdx_map_fst]

theorem length_kept_le (steps : List Step) (start : Nat) (text : Text) :
    (kept steps start text).length ≤ text.length := by
  rw [kept, List.length_map]
  exact Nat.le_trans (List.length_filter_le ..) (Nat.le_of_eq List.length_zipIdx)

theorem kept_eq_self {steps : List Step} {start : Nat} {text : Text}
    (passed : ∀ step ∈ steps, ∀ offset, start ≤ offset → offset < start + text.length →
      step.skips offset = false) : kept steps start text = text := by
  have same : kept steps start text = kept [] start text := by
    refine kept_congr fun offset behind before => List.any_eq_false.mpr fun step member => ?_
    rw [passed step member offset behind before]
    exact Bool.false_ne_true
  rw [same, kept_nil]

theorem kept_eq_nil {steps : List Step} {step : Step} {start : Nat} {text : Text}
    (isStep : step ∈ steps) (skipped : ∀ offset, start ≤ offset →
      offset < start + text.length → step.skips offset = true) :
    kept steps start text = [] := by
  have none : (text.zipIdx start).filter (fun entry => !steps.any (·.skips entry.2)) = [] := by
    apply List.filter_eq_nil_iff.mpr
    intro entry member
    have place := List.mem_zipIdx member
    have some_ : steps.any (·.skips entry.2) = true :=
      List.any_eq_true.mpr ⟨step, isStep, skipped entry.2 place.1 place.2.1⟩
    simp [some_]
  rw [kept, none, List.map_nil]

/-- A step that passes over nothing of a text may be left out. -/
theorem kept_cons {step : Step} {steps : List Step} {start : Nat} {text : Text}
    (passed : ∀ offset, start ≤ offset → step.skips offset = false) :
    kept (step :: steps) start text = kept steps start text := by
  refine kept_congr fun offset behind _ => ?_
  rw [List.any_cons, passed offset behind, Bool.false_or]

theorem skips_eq_false_of_before {step : Step} {offset : Nat} (before : offset < step.offset) :
    step.skips offset = false := by
  have : ¬step.offset ≤ offset := by omega
  simp [Step.skips, this]

/-! ## Runs -/

/-- No step goes back behind the cursor. -/
theorem le_offset_of_mem_stepsFrom {ahead : List (Marker × Nat)}
    (listed : ∀ entry ∈ ahead, scan.markerAt? entry.2 = some entry.1)
    (inside : state.cursor ≤ scan.source.length) {step : Step}
    (member : step ∈ scan.stepsFrom state ahead) : state.cursor ≤ step.offset := by
  induction ahead generalizing state with
  | nil =>
      obtain rfl := List.mem_singleton.mp member
      exact inside
  | cons entry ahead induction =>
      obtain ⟨marker, offset⟩ := entry
      have begins := listed _ List.mem_cons_self
      have later := fun entry member => listed entry (List.mem_cons_of_mem _ member)
      rw [stepsFrom] at member
      split at member
      next => exact induction later inside member
      next notConsumed =>
        have reached : state.cursor ≤ offset := by omega
        rcases List.mem_cons.mp member with rfl | inLater
        · exact reached
        · have landed := scan.landed_react state marker offset
          have further := induction later (landed_le_length landed begins reached) inLater
          rcases landed_forward landed begins with forward | ⟨stays, -⟩
          · omega
          · omega

/-- In front of all steps everything is kept. -/
theorem kept_drop {source : Text} {steps : List Step} {cursor stop : Nat} (further : cursor ≤ stop)
    (inside : stop ≤ source.length) (behind : ∀ step ∈ steps, stop ≤ step.offset) :
    kept steps cursor (source.drop cursor) =
      source.slice cursor stop ++ kept steps stop (source.drop stop) := by
  rw [← Text.slice_append_drop further, kept_append, Text.length_slice further inside,
    Nat.add_sub_of_le further]
  congr 1
  apply kept_eq_self
  intro step member offset _ before
  rw [Text.length_slice further inside] at before
  have later := behind step member
  exact skips_eq_false_of_before (by omega)

/-- What a step keeps comes before what the later steps keep. -/
theorem kept_step {marker : Marker} {cursor offset stop : Nat} {outcome : Outcome}
    {later : List Step} (reached : cursor ≤ offset) (further : cursor ≤ stop)
    (forward : marker.isComment = true → offset ≤ stop)
    (inside : stop ≤ scan.source.length) (landing : outcome.state.cursor = stop)
    (laterSteps : ∀ step ∈ later, stop ≤ step.offset) :
    kept (⟨some marker, offset, outcome⟩ :: later) cursor (scan.source.drop cursor) =
      scan.source.slice cursor (keptUpTo marker offset stop : Nat) ++
        kept later stop (scan.source.drop stop) := by
  cases isComment : marker.isComment with
  | false =>
      have passed : ∀ other, cursor ≤ other →
          Step.skips ⟨some marker, offset, outcome⟩ other = false := by
        intro other _
        simp [Step.skips, isComment]
      rw [kept_cons passed, keptUpTo, isComment]
      exact kept_drop further inside laterSteps
  | true =>
      have behind := forward isComment
      have none_ : kept (⟨some marker, offset, outcome⟩ :: later) offset
          (scan.source.slice offset stop) = [] := by
        apply kept_eq_nil List.mem_cons_self
        intro other after before
        rw [Text.length_slice behind inside] at before
        simp only [Step.skips, Option.any_some, isComment, Bool.true_and, landing,
          Bool.and_eq_true, decide_eq_true_eq]
        omega
      have passed : ∀ other, stop ≤ other →
          Step.skips ⟨some marker, offset, outcome⟩ other = false := by
        intro other after
        have : ¬(other : Int) < outcome.state.cursor := by omega
        simp [Step.skips, this]
      have ahead : ∀ step ∈ (⟨some marker, offset, outcome⟩ :: later : List Step),
          offset ≤ step.offset := by
        intro step member
        rcases List.mem_cons.mp member with rfl | inLater
        · exact Nat.le_refl offset
        · exact Nat.le_trans behind (laterSteps step inLater)
      rw [keptUpTo, isComment, kept_drop reached (Nat.le_trans behind inside) ahead,
        ← Text.slice_append_drop behind, kept_append, none_, List.nil_append,
        Text.length_slice behind inside, Nat.add_sub_of_le behind, kept_cons passed]
      rfl

/-- Where a reaction goes on, and all later steps with it. -/
theorem exists_stop {marker : Marker} {cursor offset : Nat} {ahead : List (Marker × Nat)}
    (place : state.cursor = cursor) (reached : cursor ≤ offset)
    (begins : scan.markerAt? offset = some marker)
    (listed : ∀ entry ∈ ahead, scan.markerAt? entry.2 = some entry.1) :
    ∃ stop : Nat, (scan.react marker state offset).state.cursor = stop ∧ cursor ≤ stop ∧
      stop ≤ scan.source.length ∧ (marker.isComment = true → offset ≤ stop) ∧
      ∀ step ∈ scan.stepsFrom (scan.react marker state offset).state ahead,
        stop ≤ step.offset := by
  have landed := scan.landed_react state marker offset
  have within := landed_le_length landed begins (by omega)
  have forward := landed_forward landed begins
  obtain ⟨stop, landing⟩ : ∃ stop : Nat, (scan.react marker state offset).state.cursor = stop :=
    Int.eq_ofNat_of_zero_le (landed_nonneg landed (by omega))
  have behind (step : Step)
      (member : step ∈ scan.stepsFrom (scan.react marker state offset).state ahead) :
      stop ≤ step.offset := by
    have later := le_offset_of_mem_stepsFrom listed within member
    omega
  have pastComment (isComment : marker.isComment = true) : offset ≤ stop := by
    rcases forward with forward | ⟨-, rfl | rfl | rfl⟩
    · omega
    all_goals cases isComment
  rw [landing] at within forward
  exact ⟨stop, landing, by omega, by omega, pastComment, behind⟩

theorem significant_stepsFrom (plainly : scan.Plainly) {cursor : Nat}
    {ahead : List (Marker × Nat)}
    (listed : ∀ entry ∈ ahead, scan.markerAt? entry.2 = some entry.1)
    (place : state.cursor = cursor) (inside : cursor ≤ scan.source.length) :
    Text.significant (((scan.stepsFrom state ahead).flatMap (·.outcome.tokens)).flatMap
        Token.written) =
      Text.significant (Word.joined state.words) ++
        Text.significant
          (kept (scan.stepsFrom state ahead) cursor (scan.source.drop cursor)) := by
  induction ahead generalizing state cursor with
  | nil =>
      have atEnd := significant_endSource plainly state
      have noWords : (scan.endSource state).state.words = [] := rfl
      have all : kept (scan.stepsFrom state []) cursor (scan.source.drop cursor) =
          scan.source.drop cursor := by
        apply kept_eq_self
        intro step member offset _ _
        obtain rfl := List.mem_singleton.mp member
        rfl
      have slice : scan.source.slice cursor scan.source.length = scan.source.drop cursor := by
        rw [Text.slice_natCast, ← List.length_drop, List.take_length]
      rw [all]
      rw [Outcome.output, noWords, Word.joined_nil, List.append_nil, place, slice] at atEnd
      simpa [stepsFrom] using atEnd
  | cons entry ahead induction =>
      obtain ⟨marker, offset⟩ := entry
      have begins := listed _ List.mem_cons_self
      have later := fun entry member => listed entry (List.mem_cons_of_mem _ member)
      rw [stepsFrom]
      split
      next => exact induction later place inside
      next notConsumed =>
        have reached : cursor ≤ offset := by omega
        obtain ⟨stop, landing, further, stopInside, pastComment, behind⟩ :=
          exists_stop place reached begins later
        have steps := induction later landing stopInside
        have step :=
          kept_step reached further pastComment stopInside landing behind
        have reaction := significant_react place reached begins landing plainly
        rw [step, Text.significant_append, ← List.append_assoc, ← reaction]
        simp only [List.flatMap_cons, List.flatMap_append, Text.significant_append, steps,
          Outcome.output, List.append_assoc]

end Scan

/-- The tokens of a source hold its significant characters outside the comments. -/
theorem significant_written (ignoreErrors lessSyntax : Bool) (source : Text) :
    let options : TokenizeOptions :=
      { splitRules := true, ignoreErrors, lessSyntax, ruleModifiers := [] }
    Text.significant ((options.tokenize source).tokens.flatMap Token.written) =
      Text.significant (Scan.withoutComments ⟨options, source⟩) := by
  intro options
  let scan : Scan := ⟨options, source⟩
  have plainly : scan.Plainly := ⟨rfl, rfl⟩
  have listed : ∀ entry ∈ scan.markers, scan.markerAt? entry.2 = some entry.1 :=
    fun _ member => Scan.markerAt?_of_mem_markers member
  have start : ({} : Scan.State).cursor = (0 : Nat) := rfl
  have whole := Scan.significant_stepsFrom plainly listed start (Nat.zero_le _)
  simpa [Scan.withoutComments, Scan.steps, TokenizeOptions.tokenize] using whole

end Stylesheet
