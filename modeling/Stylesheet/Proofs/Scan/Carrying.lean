import Stylesheet.Proofs.Lexing.Escape
import Stylesheet.Proofs.Scan.Emitted
import Stylesheet.Proofs.Scan.Reports
import Stylesheet.Proofs.Scan.Veiled

/-!
# Scans that carry an escape

The states of one scan may be the same but for the character behind a backslash in one of
their words. They stay so up to the end of the statement or the next brace of a block, and
there the words are emitted alike, unless the character is a separator in them or a flag
begins with it. From there on the states are equal.
-/

namespace Stylesheet
namespace Scan

/-! ## Reading on -/

/-- States that are the same but for the character behind the backslash at a place. -/
def Carry (place : Int) (states : Char → State) : Prop :=
  ∃ (state : State) (escape : Escape), escape.Stands place ∧
    ∀ character, states character = { state with words := escape.words character }

namespace Carry

variable {place : Int} {states : Char → State}

/-- What does not look at the words keeps them. -/
theorem change (carry : Carry place states) {act : State → State}
    (keeps : ∀ (state : State) (words : List Word),
      act { state with words := words } = { act state with words := words }) :
    Carry place fun character => act (states character) := by
  obtain ⟨state, escape, stands, same⟩ := carry
  refine ⟨act state, escape, stands, fun character => ?_⟩
  dsimp only
  rw [same, keeps]

theorem append (carry : Carry place states) (more : State → List Word)
    (blind : ∀ (state : State) (words : List Word),
      more { state with words := words } = more state) :
    Carry place fun character =>
      { states character with words := (states character).words ++ more (states character) } := by
  obtain ⟨state, escape, stands, same⟩ := carry
  obtain ⟨longer, later, extended⟩ := escape.exists_append stands (more state)
  refine ⟨state, longer, later, fun character => ?_⟩
  simp only [same, blind, extended]

theorem addText (carry : Carry place states) (source : Text) (stop : Int) :
    Carry place fun character => (states character).addText source stop :=
  carry.append (fun state => [⟨.text, source.slice state.cursor stop, state.cursor, false⟩])
    fun _ _ => rfl

theorem moveTo (carry : Carry place states) (offset : Int) :
    Carry place fun character => (states character).moveTo offset :=
  @change place states carry (·.moveTo offset) fun _ _ => rfl

theorem takeWord (carry : Carry place states) (source : Text) (kind : WordKind) (stop : Int)
    (error : Bool) :
    Carry place fun character => (states character).takeWord source kind stop error :=
  (carry.append (fun state => [⟨kind, source.slice state.cursor stop, state.cursor, error⟩])
    fun _ _ => rfl).moveTo stop

theorem takeText (carry : Carry place states) (scan : Scan) (offset : Int) :
    Carry place fun character => scan.takeText (states character) offset :=
  (carry.addText scan.source offset).moveTo offset

/-- What a nested construct encloses is merged, with its last character behind it. -/
theorem collapse (carry : Carry place states) (source : Text) (offset : Int) {kind : WordKind}
    (notText : kind ≠ .text) (mark : Option Int)
    (hasBar : ∀ character, ∃ bar ∈ source.slice (states character).cursor (offset + 1),
      Text.IsBar bar) :
    Carry place fun character => (states character).collapse source offset kind mark := by
  obtain ⟨state, escape, stands, same⟩ := carry
  simp only [same] at hasBar ⊢
  let held (character : Char) : State := { state with words := escape.words character }
  have kept (character : Char) : (held character).kept? mark = (held 'x').kept? mark := by
    rw [State.kept?, State.kept?, escape.length_words character 'x']
  obtain ⟨merged, later, words⟩ := escape.exists_merged stands (((held 'x').kept? mark).getD 0)
    notText (hasBar 'x') state.cursor ((held 'x').kept? mark).isNone
  refine ⟨{ state with cursor := offset + 1 }, merged, later, fun character => ?_⟩
  rw [words, ← kept character]
  rfl

end Carry

/-- Outcomes that emit nothing and report the same, with states that carry an escape. -/
def Carries (place : Int) (outcomes : Char → Outcome) : Prop :=
  ∃ (states : Char → State) (diagnostics : List Diagnostic), Carry place states ∧
    ∀ character, outcomes character = { state := states character, diagnostics }

theorem Carry.quiet {place : Int} {states : Char → State} (carry : Carry place states) :
    Carries place fun character => { state := states character } :=
  ⟨states, [], carry, fun _ => rfl⟩

theorem Carries.mapState {place : Int} {outcomes : Char → Outcome}
    (carries : Carries place outcomes) {act : State → State}
    (keeps : ∀ states, Carry place states → Carry place fun character => act (states character)) :
    Carries place fun character => (outcomes character).mapState act := by
  obtain ⟨states, diagnostics, carry, same⟩ := carries
  refine ⟨_, diagnostics, keeps states carry, fun character => ?_⟩
  dsimp only
  rw [same]
  rfl

section Reactions

variable {scan : Scan} {place : Int} {states : Char → State} (carry : Carry place states)

include carry

theorem carries_reportPending (fault : Fault) (offset : Int) :
    Carries place fun character => scan.reportPending (states character) fault offset := by
  unfold reportPending report
  split
  · exact carry.quiet
  · exact ⟨_, _, @Carry.change place states carry
      (fun state => { state with pendingError := state.pendingError || true }) fun _ _ => rfl,
      fun _ => rfl⟩

theorem Carry.exists_nests : ∃ state : State, ∀ character,
    (states character).calls = state.calls ∧
      (states character).interpolations = state.interpolations ∧
      (states character).words.length = state.words.length := by
  obtain ⟨state, escape, -, same⟩ := carry
  refine ⟨{ state with words := escape.words 'x' }, fun character => ?_⟩
  rw [same]
  exact ⟨rfl, rfl, escape.length_words ..⟩

theorem Carry.collapseOutermost {marker : Marker} {offset : Nat} {bar : Char}
    (begins : scan.markerAt? offset = some marker) (spelled : marker.spelling = [bar])
    (isBar : Text.IsBar bar) (nonneg : ∀ character, 0 ≤ (states character).cursor)
    (reached : ∀ character, (states character).cursor ≤ offset) {kind : WordKind}
    (notText : kind ≠ .text) (nest : Nest) :
    Carry place fun character => scan.collapseOutermost (states character) offset kind nest := by
  unfold Scan.collapseOutermost
  split
  · refine carry.collapse scan.source offset notText nest.mark fun character => ⟨bar, ?_, isBar⟩
    have behind : (offset : Int) ≤ (offset + 1 : Nat) := by omega
    have last := slice_marker begins spelled
    have split := Text.slice_append scan.source (nonneg character) (reached character) behind
    rw [last] at split
    rw [show (offset : Int) + 1 = (offset + 1 : Nat) from rfl, ← split]
    simp
  · exact carry

theorem carries_openInterpolation (offset : Int) :
    Carries place fun character => scan.openInterpolation (states character) offset := by
  obtain ⟨common, nests⟩ := carry.exists_nests
  simp only [openInterpolation, (nests _).2.1, (nests _).2.2]
  exact (@Carry.change place _ (carry.takeText scan (offset + 2))
    (fun state => { state with
      interpolations := common.interpolations.enter common.words.length }) fun _ _ => rfl).quiet

/-- The reaction to a marker within a statement keeps the escape. -/
theorem carries_react {marker : Marker} {offset : Nat}
    (begins : scan.markerAt? offset = some marker)
    (within : ¬(states 'x').Breaks marker)
    (nonneg : ∀ character, 0 ≤ (states character).cursor)
    (reached : ∀ character, (states character).cursor ≤ offset) :
    Carries place fun character => scan.react marker (states character) offset := by
  obtain ⟨common, nests⟩ := carry.exists_nests
  cases marker with
  | quote quote =>
      simp only [react, readString]
      split
      · exact ((carry.takeText scan offset).takeWord ..).quiet
      · split
        · exact ((carry.takeText scan offset).takeWord ..).quiet
        · exact (carries_reportPending (carry.takeText scan offset) _ _).mapState fun _ later =>
            later.takeWord ..
  | comment =>
      simp only [react, skipComment]
      split
      · exact ((carry.addText scan.source offset).moveTo _).quiet
      · exact (carries_reportPending (carry.addText scan.source offset) _ _).mapState
          fun _ later => later.moveTo _
  | openBrace => exact absurd (.inl rfl) within
  | closeBrace =>
      have nested : 0 < common.interpolations.depth := by
        rw [← (nests 'x').2.1]
        by_contra outside
        exact within (.inr (.inr ⟨rfl, outside⟩))
      have isBar : Text.IsBar '\x7d' := by constructor <;> decide
      have collapsed := carry.collapseOutermost begins rfl isBar nonneg reached
        (by decide : WordKind.interpolation ≠ .text) common.interpolations
      simp only [react, closeBrace, closeInterpolation, (nests _).2.1, if_pos nested]
      exact (@Carry.change place _ collapsed
        (fun state => { state with interpolations := common.interpolations.leave })
        fun _ _ => rfl).quiet
  | semicolon =>
      have nested : 0 < common.calls.depth := by
        rw [← (nests 'x').1]
        by_contra outside
        exact within (.inr (.inl ⟨rfl, outside⟩))
      simp only [react, endStatement, (nests _).1, if_pos nested]
      exact carry.quiet
  | url =>
      simp only [react, readUrl]
      split
      · exact ((carry.takeText scan offset).takeWord ..).quiet
      · exact carries_reportPending ((carry.takeText scan offset).takeWord ..) _ _
  | backslash => exact (carry.takeWord ..).quiet
  | openParen =>
      simp only [react, openCall, (nests _).1, (nests _).2.2]
      exact (@Carry.change place _ (carry.takeText scan offset)
        (fun state => { state with calls := common.calls.enter common.words.length })
        fun _ _ => rfl).quiet
  | closeParen =>
      have isBar : Text.IsBar ')' := by constructor <;> decide
      have collapsed := carry.collapseOutermost begins rfl isBar nonneg reached
        (by decide : WordKind.call ≠ .text) common.calls
      simp only [react, closeCall, (nests _).1]
      exact (@Carry.change place _ collapsed
        (fun state => { state with calls := common.calls.leave }) fun _ _ => rfl).quiet
  | lineComment => exact ((carry.addText ..).moveTo _).quiet
  | atInterpolation => exact carries_openInterpolation carry offset
  | hashInterpolation => exact carries_openInterpolation carry offset

end Reactions

/-! ## Emitting -/

/-- What is seen of an outcome where texts, offsets and states do not count. -/
def Outcome.seen (outcome : Outcome) : List Token.Shape × List FaultKind :=
  (outcome.tokens.map Token.shape, outcome.kinds)

theorem Outcome.seen_andThen (outcome : Outcome) (next : State → Outcome) :
    (outcome.andThen next).seen =
      (outcome.seen.1 ++ (next outcome.state).seen.1,
        outcome.seen.2 ++ (next outcome.state).seen.2) := by
  simp [seen, andThen, kinds]

theorem Outcome.seen_andThen_eq {first second : Outcome} {firstNext secondNext : State → Outcome}
    (outcomes : first.seen = second.seen)
    (behind : (firstNext first.state).seen = (secondNext second.state).seen) :
    (first.andThen firstNext).seen = (second.andThen secondNext).seen := by
  rw [seen_andThen, seen_andThen, outcomes, behind]

theorem Outcome.seen_mapState (outcome : Outcome) (change : State → State) :
    (outcome.mapState change).seen = outcome.seen := rfl

/-- The shapes of what words are emitted as, and what is reported of them, by what kind of
statement they are. -/
theorem seen_emitWords (scan : Scan) (state : State) (terminator : Text) :
    let statement := (scan.statementOf state.words).blurred
    let empty := (Word.trimmed state.words).isEmpty
    let faulty := isFaulty state.pendingError state.words
    (scan.emitWords state terminator).seen =
      (match statement with
        | .declaration content =>
            [{ typeName := "Rule".toList
               error := some state.pendingError
               modifiers := some content.modifiers }]
        | _ => if empty then [] else [{ typeName := "Code".toList, error := some faulty }],
      if scan.options.ignoreErrors then []
      else if statement == .malformed && !empty && !faulty then [.invalidRule]
      else []) := by
  rw [emitWords_eq_emitted]
  dsimp only
  unfold wordTokens wordReports Outcome.seen Outcome.kinds
  cases scan.statementOf state.words <;> cases (Word.trimmed state.words).isEmpty <;>
    cases isFaulty state.pendingError state.words <;> cases scan.options.ignoreErrors <;> rfl

section Emitting

variable {scan : Scan} {state : State} {escape : Escape} {first second : Char}

theorem blurred_statementOf_eq (known : scan.options.ruleModifiers = defaultModifiers)
    (firstSpares : escape.SparesStatement first) (secondSpares : escape.SparesStatement second) :
    (scan.statementOf (escape.words first)).blurred =
      (scan.statementOf (escape.words second)).blurred := by
  have errors (character : Char) : (escape.words character).any (·.error) =
      (escape.words 'x').any (·.error) := by
    simp [Escape.words, Escape.word]
  rw [statementOf, statementOf, errors first, errors second]
  split
  · rfl
  · exact Escape.blurred_ofWords_eq known firstSpares secondSpares

theorem seen_emitWords_eq (known : scan.options.ruleModifiers = defaultModifiers)
    (firstSpares : escape.SparesStatement first) (secondSpares : escape.SparesStatement second)
    (terminator : Text) :
    (scan.emitWords { state with words := escape.words first } terminator).seen =
      (scan.emitWords { state with words := escape.words second } terminator).seen := by
  have visible (character : Char) : (Word.trimmed (escape.words character)).isEmpty = false := by
    simp [Word.trimmed, Escape.joined_words, Text.trim_append_cons Text.isBlank_backslash]
  have faulty (character : Char) : isFaulty state.pendingError (escape.words character) =
      isFaulty state.pendingError (escape.words 'x') := by
    simp [isFaulty, Escape.words, Escape.word]
  simp only [seen_emitWords, blurred_statementOf_eq known firstSpares secondSpares, visible, faulty]

theorem shape_openingOf_eq (firstNoComma : escape.kind = .text → first ≠ ',')
    (secondNoComma : escape.kind = .text → second ≠ ',') :
    (Token.openingOf (escape.words first)).shape =
      (Token.openingOf (escape.words second)).shape := by
  obtain ⟨selectors, values⟩ := escape.counts_ofWords_eq firstNoComma secondNoComma
  rw [Token.openingOf, Token.openingOf, Token.shape_opening, Token.shape_opening,
    Heading.selectorCount, Heading.selectorCount, selectors, Heading.valueCount,
    Heading.valueCount, values]

end Emitting

/-! ## Escapes that mean something -/

end Scan

namespace Word

/-- Whether an offset lies in a text word. -/
def holds (word : Word) (offset : Int) : Bool :=
  word.isText && word.offset ≤ offset && offset < word.offset + word.text.length

/-- Whether an escaped character means nothing in words, where its backslash stands at an
offset. In the text words of a heading a comma separates; in those of a statement a colon
does, and a flag at the end may begin with the character. -/
def spares (options : TokenizeOptions) (isHeading : Bool) (offset : Int) (character : Char) :
    List Word → Bool
  | [] => true
  | word :: words =>
      let behind := word.text.drop (offset - word.offset + 2).toNat ++ joined words
      let here :=
        if isHeading then character != ','
        else !options.splitRules ||
          character != ':' && Flagged.leavesEscape options.ruleModifiers character behind
      (!word.holds offset || here) && spares options isHeading offset character words

end Word

namespace Escape

variable {escape : Escape} {options : TokenizeOptions} {offset : Int} {character : Char}

/-- What is asked of the word with the escape if it is a text word. -/
theorem of_spares {isHeading : Bool} (stands : escape.Stands offset) (isText : escape.kind = .text)
    (spares : Word.spares options isHeading offset character (escape.words character) = true) :
    (isHeading = true → character ≠ ',') ∧
      (isHeading = false → options.splitRules = true →
        character ≠ ':' ∧
          Flagged.leavesEscape options.ruleModifiers character escape.rest = true) := by
  have level := stands.level isText
  have later : Word.spares options isHeading offset character
      (escape.word character :: escape.back) = true := by
    revert spares
    rw [words]
    generalize escape.front = front
    intro spares
    induction front with
    | nil => exact spares
    | cons word front induction =>
        rw [List.cons_append, Word.spares, Bool.and_eq_true] at spares
        exact induction spares.2
  have holds : (escape.word character).holds offset = true := by
    simp only [Word.holds, word, Word.isText, isText, beq_self_eq_true, Bool.true_and,
      Bool.and_eq_true, decide_eq_true_eq, List.length_append, List.length_cons]
    omega
  have behind : (escape.word character).text.drop
      (offset - (escape.word character).offset + 2).toNat = escape.behind := by
    have count : (offset - escape.place + 2).toNat = escape.before.length + 2 := by omega
    simp only [word, count, List.drop_length_add_append]
    rfl
  rw [Word.spares, holds, behind, Bool.not_true, Bool.false_or, Bool.and_eq_true] at later
  obtain ⟨here, -⟩ := later
  constructor
  · rintro rfl
    simpa using here
  · rintro rfl splits
    simpa [splits, rest] using here

theorem noComma_of_spares (stands : escape.Stands offset)
    (spares : Word.spares options true offset character (escape.words character) = true) :
    escape.kind = .text → character ≠ ',' :=
  fun isText => (of_spares stands isText spares).1 rfl

theorem sparesStatement_of_isBar {bar : Char} (isBar : Text.IsBar bar) (noColon : bar ≠ ':') :
    escape.SparesStatement bar where
  visible := isBar.visible
  noColon _ := noColon
  leaves := Flagged.leavesEscape_of_isBar isBar isBar.visible List.mem_cons_self

theorem sparesStatement_of_spares (known : options.ruleModifiers = defaultModifiers)
    (splits : options.splitRules = true) (stands : escape.Stands offset)
    (visible : Text.isBlank character = false)
    (spares : Word.spares options false offset character (escape.words character) = true) :
    escape.SparesStatement character where
  visible := visible
  noColon isText := ((of_spares stands isText spares).2 rfl splits).1
  leaves := by
    by_cases isText : escape.kind = .text
    · rw [← known]
      exact ((of_spares stands isText spares).2 rfl splits).2
    · obtain ⟨bar, member, isBar⟩ := stands.guarded isText
      exact Flagged.leavesEscape_of_isBar isBar visible
        (List.mem_cons_of_mem _ (List.mem_append_left _ member))

end Escape

namespace Scan

/-! ## Boundaries -/

section Boundaries

variable (scan : Scan) (state : State)

/-- What is emitted in front of a heading has nothing to do with the words, and a block begins
without any. -/
theorem openBlock_words (words : List Word) (offset : Int) :
    (scan.openBlock { state with words := words } offset).state =
        (scan.openBlock state offset).state ∧
      (scan.emitAhead { state with words := words }).tokens = (scan.emitAhead state).tokens := by
  rw [openBlock_eq, openBlock_eq]
  simp only [emitAhead, Outcome.onlyIf, Outcome.andThen, emitSource_eq_emitted]
  split
  · split <;> exact ⟨rfl, rfl⟩
  · exact ⟨rfl, rfl⟩

theorem seen_openBlock (offset : Int) :
    (scan.openBlock state offset).seen =
      ((scan.emitAhead state).tokens.map Token.shape ++
        [(Token.openingOf (state.addText scan.source offset).words).shape], []) := by
  rw [Outcome.seen, Outcome.kinds, tokens_openBlock, diagnostics_openBlock, List.map_append]
  rfl

theorem seen_onlyIf_reportSettled (needed : Bool) (fault : Fault) (offset : Int) :
    (Outcome.onlyIf needed state fun state => scan.reportSettled state fault offset).seen =
      ([], if needed && !scan.options.ignoreErrors then [fault.kind] else []) := by
  unfold Outcome.onlyIf reportSettled report
  cases needed <;> cases scan.options.ignoreErrors <;> rfl

variable {scan state} {other : State}

theorem seen_closeBlock_eq (depth : state.blockDepth = other.blockDepth) (offset : Int)
    (emitted : (scan.emitUpTo state offset).seen = (scan.emitUpTo other offset).seen) :
    (scan.closeBlock state offset).seen = (scan.closeBlock other offset).seen := by
  have kept (state : State) : (scan.emitUpTo state offset).state.blockDepth = state.blockDepth := by
    rw [emitUpTo_state]
    split <;> rfl
  rw [closeBlock, closeBlock, Outcome.seen_mapState, Outcome.seen_mapState, Outcome.seen_andThen,
    Outcome.seen_andThen, Outcome.seen_andThen, Outcome.seen_andThen, seen_onlyIf_reportSettled,
    seen_onlyIf_reportSettled, emitted, Outcome.andThen, Outcome.andThen, kept, kept, depth]
  rfl

theorem seen_endSource_eq (depth : state.blockDepth = other.blockDepth)
    (emitted : (scan.emitUpTo state scan.source.length).seen =
      (scan.emitUpTo other scan.source.length).seen) :
    (scan.endSource state).seen = (scan.endSource other).seen := by
  rw [endSource, endSource, Outcome.seen_mapState, Outcome.seen_mapState, Outcome.seen_andThen,
    Outcome.seen_andThen, seen_onlyIf_reportSettled, seen_onlyIf_reportSettled,
    onlyIf_reportSettled_state, onlyIf_reportSettled_state, emitted, depth]

theorem isBar_x : Text.IsBar 'x' := by
  constructor <;> decide

section Carried

variable (known : scan.options.ruleModifiers = defaultModifiers) {place : Int}
  {states : Char → State} (carry : Carry place states) {character : Char}
  (visible : Text.isBlank character = false)

include known carry visible

/-- An escape in the words of a statement shows in nothing that it is emitted as. -/
theorem seen_emitText_eq (splits : scan.options.splitRules = true) {stop : Int}
    (spares : Word.spares scan.options false place character
      ((states character).addText scan.source stop).words = true) (terminator : Text) :
    (scan.emitWords ((states character).addText scan.source stop) terminator).seen =
      (scan.emitWords ((states 'x').addText scan.source stop) terminator).seen := by
  obtain ⟨text, escape, stands, same⟩ := carry.addText scan.source stop
  simp only [same] at spares ⊢
  exact seen_emitWords_eq known
    (Escape.sparesStatement_of_spares known splits stands visible spares)
    (Escape.sparesStatement_of_isBar isBar_x (by decide)) terminator

theorem seen_emitUpTo_eq {stop : Int}
    (spares : Word.spares scan.options false place character
      ((states character).addText scan.source stop).words = true) :
    (scan.emitUpTo (states character) stop).seen = (scan.emitUpTo (states 'x') stop).seen := by
  cases splits : scan.options.splitRules with
  | true =>
      rw [emitUpTo_of_splits _ _ splits, emitUpTo_of_splits _ _ splits, Outcome.seen_mapState,
        Outcome.seen_mapState, seen_emitText_eq known carry visible splits spares]
  | false =>
      obtain ⟨text, escape, -, same⟩ := carry
      simp only [emitUpTo_of_whole _ _ splits, Outcome.seen_mapState, same, emitSource_eq_emitted]
      rfl

theorem seen_emitEnded_eq {stop : Int}
    (spares : Word.spares scan.options false place character
      ((states character).addText scan.source stop).words = true) :
    (scan.emitEnded (states character) stop).seen = (scan.emitEnded (states 'x') stop).seen := by
  cases splits : scan.options.splitRules with
  | true =>
      rw [emitEnded_of_splits _ _ splits, emitEnded_of_splits _ _ splits, Outcome.seen_mapState,
        Outcome.seen_mapState, seen_emitText_eq known carry visible splits spares]
  | false =>
      rw [emitEnded_of_whole _ _ splits, emitEnded_of_whole _ _ splits]
      rfl

/-- At a boundary an escape in the words shows in nothing that is emitted, and the words are
forgotten. -/
theorem react_boundary_eq {marker : Marker} {offset : Nat} (breaks : (states 'x').Breaks marker)
    (spares : Word.spares scan.options (marker == .openBrace) place character
      ((states character).addText scan.source offset).words = true) :
    (scan.react marker (states character) offset).state =
        (scan.react marker (states 'x') offset).state ∧
      (scan.react marker (states character) offset).seen =
        (scan.react marker (states 'x') offset).seen := by
  obtain ⟨common, inner, -, states_eq⟩ := id carry
  rcases breaks with rfl | ⟨rfl, outside⟩ | ⟨rfl, outside⟩
  · obtain ⟨text, escape, stands, same⟩ := carry.addText scan.source offset
    have words (character : Char) : ((states character).addText scan.source offset).words =
        escape.words character := congrArg State.words (same character)
    have isHeading : (Marker.openBrace == .openBrace) = true := rfl
    rw [words, isHeading] at spares
    have heading := shape_openingOf_eq (escape.noComma_of_spares stands spares)
      (fun _ => (by decide : 'x' ≠ ','))
    have begun (character : Char) := scan.openBlock_words common (inner.words character) offset
    simp only [← states_eq] at begun
    rw [react, seen_openBlock, seen_openBlock, words, words, heading, (begun character).1,
      (begun character).2, (begun 'x').1, (begun 'x').2]
    exact ⟨rfl, rfl⟩
  · have emitted := seen_emitEnded_eq known carry visible spares
    have sameOutside : ¬0 < (states character).calls.depth := by
      rw [states_eq] at outside ⊢
      exact outside
    constructor
    · rw [react, endStatement_state _ _ _ outside, endStatement_state _ _ _ sameOutside,
        states_eq, states_eq 'x']
      split <;> rfl
    · rw [react, endStatement_outside _ _ _ outside, endStatement_outside _ _ _ sameOutside,
        Outcome.seen_mapState, Outcome.seen_mapState, emitted]
  · have emitted := seen_emitUpTo_eq known carry visible spares
    have sameOutside : ¬0 < (states character).interpolations.depth := by
      rw [states_eq] at outside ⊢
      exact outside
    rw [react, closeBrace, closeBrace, if_neg outside, if_neg sameOutside]
    constructor
    · rw [closeBlock_state, closeBlock_state, states_eq, states_eq 'x']
    · apply seen_closeBlock_eq _ _ emitted
      rw [states_eq, states_eq 'x']

end Carried

end Boundaries

/-! ## Whole scans -/

/-- Whether an escaped character means nothing in the statement or heading that it stands in,
where its backslash stands at an offset. This is asked of the words at the first boundary
behind it, which forgets them. -/
def sparesFrom (scan : Scan) (offset : Int) (character : Char) (state : State) : List Step → Bool
  | [] => true
  | step :: steps =>
      if offset ≤ step.offset && step.outcome.state.words.isEmpty then
        Word.spares scan.options (step.marker == some .openBrace) offset character
          (state.addText scan.source step.offset).words
      else sparesFrom scan offset character step.outcome.state steps

/-- Whether an escaped character means nothing in a source, where its backslash stands at an
offset. -/
def spares (scan : Scan) (offset : Int) (character : Char) : Bool :=
  scan.sparesFrom offset character {} scan.steps

theorem sparesFrom_of_forgets {scan : Scan} {offset : Int} {character : Char} {state : State}
    {step : Step} (reached : offset ≤ step.offset) (forgets : step.outcome.state.words = [])
    (steps : List Step) :
    scan.sparesFrom offset character state (step :: steps) =
      Word.spares scan.options (step.marker == some .openBrace) offset character
        (state.addText scan.source step.offset).words := by
  rw [sparesFrom, forgets, decide_eq_true reached, Bool.true_and, List.isEmpty_nil, if_pos rfl]

theorem sparesFrom_of_words {scan : Scan} {offset : Int} {character : Char} {state : State}
    {step : Step} (filled : step.outcome.state.words ≠ []) (steps : List Step) :
    scan.sparesFrom offset character state (step :: steps) =
      scan.sparesFrom offset character step.outcome.state steps := by
  rw [sparesFrom, List.isEmpty_eq_false_iff.mpr filled, Bool.and_false, if_neg Bool.false_ne_true]

/-- What is read behind an escape does not depend on the escaped character in the words. -/
theorem seen_course_eq {scan : Scan} (known : scan.options.ruleModifiers = defaultModifiers)
    {place : Nat} (inside : place ≤ scan.source.length) {character : Char}
    (visible : Text.isBlank character = false) {entries : List (Marker × Nat)}
    (begin_ : ∀ entry ∈ entries, scan.markerAt? entry.2 = some entry.1) {states : Char → State}
    (carry : Carry place states) (behind : place ≤ (states 'x').cursor)
    (spares : scan.sparesFrom place character (states character)
      (scan.stepsFrom (states character) entries) = true) :
    ((scan.course (states character) entries).andThen scan.endSource).seen =
      ((scan.course (states 'x') entries).andThen scan.endSource).seen := by
  induction entries generalizing states with
  | nil =>
      obtain ⟨common, escape, -, states_eq⟩ := id carry
      rw [stepsFrom, sparesFrom_of_forgets (Int.ofNat_le.mpr inside) rfl] at spares
      rw [course, course, Outcome.silent_andThen, Outcome.silent_andThen]
      apply seen_endSource_eq _ (seen_emitUpTo_eq known carry visible spares)
      rw [states_eq, states_eq 'x']
  | cons entry entries induction =>
      obtain ⟨marker, offset⟩ := entry
      obtain ⟨common, escape, -, states_eq⟩ := id carry
      have cursors (other : Char) : (states other).cursor = common.cursor := by rw [states_eq]
      have begins := begin_ _ List.mem_cons_self
      have later := fun entry member => begin_ entry (List.mem_cons_of_mem _ member)
      rw [cursors] at behind
      rw [course, course, cursors, cursors]
      rw [stepsFrom, cursors] at spares
      split
      next consumed =>
        rw [if_pos consumed] at spares
        exact induction later carry (cursors 'x' ▸ behind) spares
      next ahead =>
        have reached := Int.not_lt.mp ahead
        rw [if_neg ahead] at spares
        rw [Outcome.andThen_assoc, Outcome.andThen_assoc]
        by_cases breaks : (states 'x').Breaks marker
        · -- The words are emitted and forgotten, so both scans go on in the same state.
          have forgets : (scan.react marker (states character) offset).state.words = [] := by
            apply (fresh_react begins _).1
            rw [states_eq] at breaks ⊢
            exact breaks
          rw [sparesFrom_of_forgets (Int.le_trans behind reached) forgets] at spares
          obtain ⟨state, seen⟩ := react_boundary_eq known carry visible breaks spares
          apply Outcome.seen_andThen_eq seen
          rw [state]
        · obtain ⟨next, diagnostics, stillCarry, outcome⟩ := carries_react carry begins breaks
            (fun other => by rw [cursors]; omega) (fun other => by rw [cursors]; exact reached)
          dsimp only at outcome
          have filled : (scan.react marker (states character) offset).state.words ≠ [] := by
            obtain ⟨after, longer, -, next_eq⟩ := stillCarry
            rw [outcome, next_eq]
            simp [Escape.words]
          have forward := cursor_le_react begins (cursors 'x' ▸ reached)
          rw [cursors] at forward
          rw [sparesFrom_of_words filled] at spares
          simp only [outcome] at spares forward ⊢
          exact Outcome.seen_andThen_eq rfl
            (induction later stillCarry (Int.le_trans behind forward) spares)

end Scan
end Stylesheet
