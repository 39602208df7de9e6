import Stylesheet.Proofs.Lexing.Assembly
import Stylesheet.Proofs.Scan.Conservation

/-!
# Scanning glyph by glyph

A scan of a plain source goes from place to place. At each place the words and the
text that is not consumed yet make up the content of the unfinished statement.
-/

namespace Stylesheet
namespace Scan

/-! ## Places -/

/-- The markers at and behind a place. -/
def markersFrom (scan : Scan) (place : Nat) : List (Marker × Nat) :=
  scan.markers.filter (place ≤ ·.2)

/-- The steps from a place on. -/
def stepsAt (scan : Scan) (state : State) (place : Nat) : List Step :=
  scan.stepsFrom state (scan.markersFrom place)

/-- The tokens and diagnostics of the steps from a place on. -/
def readingFrom (scan : Scan) (state : State) (place : Nat) : Reading :=
  let steps := scan.stepsAt state place
  ⟨steps.flatMap (·.outcome.tokens), steps.flatMap (·.outcome.diagnostics)⟩

variable {scan : Scan} {state : State} {place : Nat}

theorem filter_le_eq_of_lt {entries : List (Marker × Nat)} {place : Nat}
    (noneHere : ∀ entry ∈ entries, entry.2 ≠ place) :
    entries.filter (place ≤ ·.2) = entries.filter (place + 1 ≤ ·.2) := by
  apply List.filter_congr
  intro entry member
  have := noneHere entry member
  rw [decide_eq_decide]
  omega

theorem filter_le_eq_cons {entries : List (Marker × Nat)} {marker : Marker} {place : Nat}
    (ascending : entries.Pairwise fun first second => first.2 < second.2)
    (member : (marker, place) ∈ entries) :
    entries.filter (place ≤ ·.2) = (marker, place) :: entries.filter (place + 1 ≤ ·.2) := by
  induction entries with
  | nil => cases member
  | cons entry entries induction =>
      obtain ⟨first, later⟩ := List.pairwise_cons.mp ascending
      rcases List.mem_cons.mp member with rfl | inLater
      · have same : entries.filter (place ≤ ·.2) = entries.filter (place + 1 ≤ ·.2) := by
          apply filter_le_eq_of_lt
          intro other inLater
          have := first other inLater
          dsimp only at this
          omega
        rw [List.filter_cons_of_pos (by simp), List.filter_cons_of_neg (by simp), same]
      · have before := first _ inLater
        dsimp only at before
        rw [List.filter_cons_of_neg (by simp; omega), List.filter_cons_of_neg (by simp; omega)]
        exact induction later inLater

theorem markersFrom_zero : scan.markersFrom 0 = scan.markers := by
  simp [markersFrom]

theorem mem_markers_iff (noLess : scan.options.lessSyntax = false) {marker : Marker} :
    (marker, place) ∈ scan.markers ↔ scan.markerAt? place = some marker := by
  constructor
  · exact markerAt?_of_mem_markers
  · intro begins
    rcases mem_markers_or_hidden begins with member | ⟨rfl, -⟩
    · exact member
    · have lessSyntax := lessSyntax_of_markerAt? begins
      rw [noLess] at lessSyntax
      cases lessSyntax

theorem markersFrom_of_none (noMarker : scan.markerAt? place = none) :
    scan.markersFrom place = scan.markersFrom (place + 1) := by
  apply filter_le_eq_of_lt
  rintro ⟨marker, offset⟩ member rfl
  rw [markerAt?_of_mem_markers member] at noMarker
  cases noMarker

theorem markersFrom_of_some (noLess : scan.options.lessSyntax = false) {marker : Marker}
    (begins : scan.markerAt? place = some marker) :
    scan.markersFrom place = (marker, place) :: scan.markersFrom (place + 1) :=
  filter_le_eq_cons (pairwise_markers scan) ((mem_markers_iff noLess).mpr begins)

/-! ## Steps -/

theorem stepsAt_of_none (noMarker : scan.markerAt? place = none) :
    scan.stepsAt state place = scan.stepsAt state (place + 1) := by
  rw [stepsAt, markersFrom_of_none noMarker]
  rfl

theorem stepsAt_of_some (noLess : scan.options.lessSyntax = false) {marker : Marker}
    (begins : scan.markerAt? place = some marker) (reached : state.cursor ≤ place) :
    scan.stepsAt state place =
      let outcome := scan.react marker state place
      ⟨some marker, place, outcome⟩ :: scan.stepsAt outcome.state (place + 1) := by
  have notConsumed : ¬(place : Int) < state.cursor := by omega
  rw [stepsAt, markersFrom_of_some noLess begins, stepsFrom, if_neg notConsumed]
  rfl

/-- Nothing happens before the cursor. -/
theorem stepsAt_of_consumed (noLess : scan.options.lessSyntax = false) {later : Nat}
    (forward : place ≤ later) (consumed : (later : Int) ≤ state.cursor) :
    scan.stepsAt state place = scan.stepsAt state later := by
  induction forward with
  | refl => rfl
  | @step later forward induction =>
      rw [induction (by omega)]
      cases begins : scan.markerAt? later with
      | none => exact stepsAt_of_none begins
      | some marker =>
          have passed : (later : Int) < state.cursor := by omega
          rw [stepsAt, markersFrom_of_some noLess begins, stepsFrom, if_pos passed]
          rfl

theorem stepsAt_length :
    scan.stepsAt state scan.source.length =
      [⟨none, scan.source.length, scan.endSource state⟩] := by
  have nothing : scan.markersFrom scan.source.length = [] := by
    apply List.filter_eq_nil_iff.mpr
    rintro ⟨marker, offset⟩ member
    have fits := lt_length_of_markerAt? (markerAt?_of_mem_markers member)
    have positive := Marker.length_spelling_pos marker
    simp only [decide_eq_true_eq]
    omega
  rw [stepsAt, nothing, stepsFrom]

theorem readingFrom_of_some (noLess : scan.options.lessSyntax = false) {marker : Marker}
    (begins : scan.markerAt? place = some marker) (reached : state.cursor ≤ place) :
    scan.readingFrom state place =
      let outcome := scan.react marker state place
      let later := scan.readingFrom outcome.state (place + 1)
      ⟨outcome.tokens ++ later.tokens, outcome.diagnostics ++ later.diagnostics⟩ := by
  rw [readingFrom, stepsAt_of_some noLess begins reached]
  rfl

theorem readingFrom_length :
    scan.readingFrom state scan.source.length =
      ⟨(scan.endSource state).tokens, (scan.endSource state).diagnostics⟩ := by
  rw [readingFrom, stepsAt_length]
  simp

/-! ## Standing at a place -/

/-- The scan stands at a place, behind the content of an unfinished statement. -/
structure Standing (scan : Scan) (state : State) (place : Nat) (content : List Glyph) :
    Prop where
  behind : ∃ cursor : Nat, state.cursor = cursor ∧ cursor ≤ place ∧
    content = Word.allGlyphs state.words ++ (scan.source.slice cursor place).map .text
  inside : place ≤ scan.source.length
  filled : ∀ word ∈ state.words, word.isText = false → word.text ≠ []
  unflagged : ∀ word ∈ state.words, word.error = false
  settled : state.pendingError = false
  noCall : state.calls.depth = 0
  noInterpolation : state.interpolations.depth = 0

/-- A source that is read strictly. -/
def strictly (source : Text) : Scan := ⟨.strict, source⟩

/-- A reading is what a draft says, up to offsets. -/
def Meets (reading : Reading) (draft : Draft) : Prop :=
  reading.tokens.map Token.clearOffsets = draft.tokens ∧
    (reading.diagnostics = [] ↔ draft.sound = true)

variable {source : Text} {content : List Glyph}

theorem markerAt?_strictly (source : Text) (place : Nat) :
    (strictly source).markerAt? place = Marker.front? false (source.drop place) := rfl

theorem source_strictly (source : Text) : (strictly source).source = source := rfl

theorem noLess_strictly (source : Text) : (strictly source).options.lessSyntax = false := rfl

theorem slice_succ {start : Nat} (before : start ≤ place) {character : Char} {rest : Text}
    (here : source.drop place = character :: rest) :
    source.slice start (place + 1 : Nat) = source.slice start place ++ [character] := by
  rw [← Text.slice_append_slice source before (Nat.le_succ place),
    Text.slice_natCast source place, here]
  simp

/-- Reading strictly leaves a report wherever one is needed. -/
theorem quiet_onlyIf_reportSettled (needed : Bool) (state : State) (fault : Fault)
    (offset : Int) :
    (Outcome.onlyIf needed state fun state =>
        (strictly source).reportSettled state fault offset).diagnostics = [] ↔
      needed = false := by
  cases needed with
  | false => exact ⟨fun _ => rfl, fun _ => rfl⟩
  | true =>
      constructor
      · intro quiet
        cases quiet
      · intro notNeeded
        cases notNeeded

theorem emitUpTo_strictly (state : State) (stop : Int) :
    (strictly source).emitUpTo state stop =
      ((strictly source).emitWords (state.addText source stop) []).mapState State.settle := rfl

namespace Standing

theorem start (source : Text) : Standing (strictly source) {} 0 [] where
  behind := ⟨0, rfl, Nat.le_refl 0, by simp [Word.allGlyphs, Text.slice]⟩
  inside := Nat.zero_le _
  filled := by simp
  unflagged := by simp
  settled := rfl
  noCall := rfl
  noInterpolation := rfl

theorem plain (standing : Standing (strictly source) state place content)
    {character : Char} {rest : Text} (here : source.drop place = character :: rest) :
    Standing (strictly source) state (place + 1) (content ++ [.text character]) := by
  obtain ⟨cursor, atCursor, before, known⟩ := standing.behind
  have longer := slice_succ before here
  have length := congrArg List.length here
  rw [List.length_drop, List.length_cons] at length
  have inside : place + 1 ≤ source.length := by omega
  refine { standing with behind := ⟨cursor, atCursor, by omega, ?_⟩, inside }
  rw [source_strictly] at known ⊢
  rw [known, longer, List.map_append, List.append_assoc]
  rfl

theorem cursor_le (standing : Standing (strictly source) state place content) :
    state.cursor ≤ place := by
  obtain ⟨cursor, atCursor, before, -⟩ := standing.behind
  omega

theorem allGlyphs_addText (standing : Standing (strictly source) state place content) :
    Word.allGlyphs (state.addText source place).words = content := by
  obtain ⟨cursor, atCursor, before, known⟩ := standing.behind
  rw [known]
  simp [State.addText, Word.allGlyphs, Word.glyphs, Word.isText, atCursor, strictly]

theorem filled_addText (standing : Standing (strictly source) state place content) (stop : Int) :
    ∀ word ∈ (state.addText source stop).words, word.isText = false → word.text ≠ [] :=
  List.forall_mem_append.mpr ⟨standing.filled, by simp [Word.isText]⟩

theorem unflagged_addText (standing : Standing (strictly source) state place content)
    (stop : Int) : ∀ word ∈ (state.addText source stop).words, word.error = false :=
  List.forall_mem_append.mpr ⟨standing.unflagged, by simp⟩

theorem takeText (standing : Standing (strictly source) state place content) :
    Standing (strictly source) ((strictly source).takeText state place) place content := by
  refine { standing with
    behind := ⟨place, rfl, Nat.le_refl place, ?_⟩
    filled := standing.filled_addText place
    unflagged := standing.unflagged_addText place }
  have known := standing.allGlyphs_addText
  simp only [Scan.takeText, State.moveTo, strictly]
  rw [known]
  simp [Text.slice]

theorem takeTextWord (standing : Standing (strictly source) state place content)
    {stop : Nat} (forward : place ≤ stop) (inside : stop ≤ source.length) :
    Standing (strictly source) (state.takeWord source .text stop) stop
      (content ++ (source.slice place stop).map .text) := by
  obtain ⟨cursor, atCursor, before, known⟩ := standing.behind
  refine { standing with
    behind := ⟨stop, rfl, Nat.le_refl stop, ?_⟩
    inside
    filled := List.forall_mem_append.mpr ⟨standing.filled, by simp [Word.isText]⟩
    unflagged := List.forall_mem_append.mpr ⟨standing.unflagged, by simp⟩ }
  have whole := Text.slice_append_slice source before forward
  rw [source_strictly] at known ⊢
  rw [known, List.append_assoc, ← List.map_append, whole]
  simp [State.takeWord, Word.allGlyphs, Word.glyphs, Word.isText, atCursor, Text.slice]

theorem takeLiteral (standing : Standing (strictly source) state place content)
    {kind : WordKind} (notText : (kind == .text) = false) (atPlace : state.cursor = place)
    {stop : Nat} (forward : place < stop) (inside : stop ≤ source.length) :
    Standing (strictly source) (state.takeWord source kind stop) stop
      (content ++ (source.slice place stop).map .literal) := by
  obtain ⟨cursor, atCursor, before, known⟩ := standing.behind
  obtain rfl : cursor = place := by omega
  have notEmpty : source.slice cursor stop ≠ [] := by
    apply List.ne_nil_of_length_pos
    rw [Text.slice_natCast, List.length_take, List.length_drop]
    omega
  refine { standing with
    behind := ⟨stop, rfl, Nat.le_refl stop, ?_⟩
    inside
    filled := List.forall_mem_append.mpr ⟨standing.filled, by simp [atCursor, notEmpty]⟩
    unflagged := List.forall_mem_append.mpr ⟨standing.unflagged, by simp⟩ }
  rw [known]
  simp [State.takeWord, Word.allGlyphs, Word.glyphs, Word.isText, atCursor, Text.slice,
    notText, strictly]

/-! ### Emission -/

/-- A statement that ends at a place is emitted as its glyphs say. -/
theorem emitWords (standing : Standing (strictly source) state place content)
    (terminator : Text) :
    let emitted := (strictly source).emitWords (state.addText source place) terminator
    emitted.tokens.map Token.clearOffsets = emitGlyphs content terminator ∧
      (emitted.diagnostics = [] ↔ isWellFormed content = true) := by
  have glyphs := standing.allGlyphs_addText
  have joined := Word.map_character_allGlyphs (state.addText source place).words
  rw [glyphs] at joined
  have settled : (state.addText source place).pendingError = false := standing.settled
  have unflagged : (state.addText source place).words.any (·.error) = false := by
    apply List.any_eq_false.mpr
    intro word member
    simp [standing.unflagged_addText place word member]
  have statement : (strictly source).statementOf (state.addText source place).words =
      Statement.ofGlyphs .strict content := by
    rw [statementOf, unflagged, ← glyphs]
    exact Statement.ofWords_eq_ofGlyphs rfl (standing.filled_addText place)
  have text : Word.trimmed (state.addText source place).words =
      Text.trim (content.map Glyph.character) := by rw [Word.trimmed, joined]
  dsimp only
  unfold Scan.emitWords
  split
  next noWords => simp [State.addText] at noWords
  next first others words =>
    simp only [statement, settled, unflagged, text, Bool.or_self]
    unfold emitGlyphs isWellFormed
    cases Statement.ofGlyphs .strict content with
    | declaration declaration => exact ⟨rfl, by simp⟩
    | standalone | incomplete | malformed =>
        by_cases nothing : (Text.trim (content.map Glyph.character)).isEmpty = true <;>
          simp [Outcome.andThen, nothing, Token.clearOffsets, quiet_onlyIf_reportSettled]

/-! ### Boundaries -/

theorem renewed (standing : Standing (strictly source) state place content)
    {character : Char} {rest : Text} (here : source.drop place = character :: rest)
    {next : State} (atNext : next.cursor = (place + 1 : Nat)) (noWords : next.words = [])
    (settled : next.pendingError = false) (noCall : next.calls.depth = 0)
    (interpolations : next.interpolations.depth = state.interpolations.depth) :
    Standing (strictly source) next (place + 1) [] where
  behind := ⟨place + 1, atNext, Nat.le_refl _, by simp [noWords, Word.allGlyphs, Text.slice]⟩
  inside := (standing.plain here).inside
  filled := by simp [noWords]
  unflagged := by simp [noWords]
  settled := settled
  noCall := noCall
  noInterpolation := interpolations.trans standing.noInterpolation

theorem semicolon (standing : Standing (strictly source) state place content)
    {rest : Text} (here : source.drop place = ';' :: rest) :
    let outcome := (strictly source).react .semicolon state place
    outcome.tokens.map Token.clearOffsets = emitGlyphs content [';'] ∧
      (outcome.diagnostics = [] ↔ isWellFormed content = true) ∧
      outcome.state.blockDepth = state.blockDepth ∧
      Standing (strictly source) outcome.state (place + 1) [] := by
  have emitted := standing.emitWords [';']
  have outside : ¬0 < state.calls.depth := by
    rw [standing.noCall]
    exact Int.lt_irrefl 0
  have outcome : (strictly source).react .semicolon state place =
      (((strictly source).emitWords (state.addText source place) [';']).mapState
        State.settle).mapState (·.beginStatement ((place : Int) + 1)) := by
    rw [react, endStatement, if_neg outside]
    rfl
  rw [outcome]
  refine ⟨emitted.1, emitted.2, ?_, ?_⟩
  · simp [Outcome.mapState, State.beginStatement, State.forgetWords, State.settle, State.addText]
  · apply standing.renewed here
    · rfl
    · rfl
    · rfl
    · simp [Outcome.mapState, State.beginStatement, State.forgetWords, State.settle,
        State.addText, Nest.forgetMark, standing.noCall]
    · simp [Outcome.mapState, State.beginStatement, State.forgetWords, State.settle,
        State.addText, Nest.forgetMark]

theorem openBrace (standing : Standing (strictly source) state place content)
    {rest : Text} (here : source.drop place = '\x7b' :: rest) :
    let outcome := (strictly source).react .openBrace state place
    outcome.tokens.map Token.clearOffsets = [.opening (.ofGlyphs content) 0] ∧
      outcome.diagnostics = [] ∧
      outcome.state.blockDepth = state.blockDepth + 1 ∧
      Standing (strictly source) outcome.state (place + 1) [] := by
  have outcome : (strictly source).react .openBrace state place =
      { state :=
          { state.beginBody ((place : Int) + 1) with blockDepth := state.blockDepth + 1 }
        tokens := [.openingOf (state.addText source place).words] } :=
    openBlock_of_splits rfl place
  have glyphs := standing.allGlyphs_addText
  have heading : Heading.ofWords (state.addText source place).words = .ofGlyphs content := by
    rw [Heading.ofWords_eq_ofSelectors, glyphs, Heading.ofGlyphs, Word.trimmed,
      ← Word.map_character_allGlyphs, glyphs]
  rw [outcome]
  refine ⟨?_, rfl, rfl, ?_⟩
  · simp [Token.openingOf, Token.clearOffsets, heading]
  · apply standing.renewed here
    · rfl
    · rfl
    · exact standing.settled
    · exact standing.noCall
    · rfl

theorem closeBrace (standing : Standing (strictly source) state place content)
    {rest : Text} (here : source.drop place = '\x7d' :: rest) :
    let outcome := (strictly source).react .closeBrace state place
    outcome.tokens.map Token.clearOffsets = emitGlyphs content [] ++ [.closing 0] ∧
      (outcome.diagnostics = [] ↔
        (isWellFormed content && state.blockDepth != 0) = true) ∧
      outcome.state.blockDepth = state.blockDepth - 1 ∧
      Standing (strictly source) outcome.state (place + 1) [] := by
  have emitted := standing.emitWords []
  have outside : ¬0 < state.interpolations.depth := by
    rw [standing.noInterpolation]
    exact Int.lt_irrefl 0
  have outcome : (strictly source).react .closeBrace state place =
      (strictly source).closeBlock state place := by
    rw [react, Scan.closeBrace, if_neg outside]
  rw [outcome, closeBlock, emitUpTo_strictly]
  dsimp only [Outcome.mapState, Outcome.andThen]
  rw [emitWords_state]
  have depth : (state.addText source place).settle.blockDepth = state.blockDepth := rfl
  refine ⟨?_, ?_, ?_, ?_⟩
  · simp [emitted.1, Token.clearOffsets]
  · rw [depth, List.append_nil, List.append_eq_nil_iff, Bool.and_eq_true, emitted.2]
    apply and_congr Iff.rfl
    rw [quiet_onlyIf_reportSettled, bne, Bool.not_eq_true']
  · simp [State.settle, State.addText]
  · apply standing.renewed here
    · rfl
    · rfl
    · simp [State.beginBody, State.beginStatement, State.forgetWords, State.settle]
    · rfl
    · simp [State.beginBody, State.beginStatement, State.forgetWords, State.settle,
        State.addText, Nest.forgetMark]

theorem endSource (standing : Standing (strictly source) state source.length content) :
    Meets ⟨((strictly source).endSource state).tokens,
      ((strictly source).endSource state).diagnostics⟩ (assemble state.blockDepth content []) := by
  have emitted := standing.emitWords []
  have reported := onlyIf_reportSettled (strictly source) state (0 < state.blockDepth)
    .missingBlockEnd source.length
  rw [Scan.endSource]
  dsimp only [Outcome.mapState, Outcome.andThen]
  rw [source_strictly, reported.1, reported.2, emitUpTo_strictly]
  dsimp only [Outcome.mapState]
  refine ⟨emitted.1, ?_⟩
  rw [List.append_eq_nil_iff, emitted.2, assemble, Bool.and_eq_true, and_comm]
  apply and_congr Iff.rfl
  rw [quiet_onlyIf_reportSettled, Bool.not_eq_true']

theorem meets_end (standing : Standing (strictly source) state source.length content) :
    Meets ((strictly source).readingFrom state source.length)
      (assemble state.blockDepth content []) := by
  have last := @readingFrom_length (strictly source) state
  rw [source_strictly] at last
  rw [last]
  exact standing.endSource

end Standing

end Scan
end Stylesheet
