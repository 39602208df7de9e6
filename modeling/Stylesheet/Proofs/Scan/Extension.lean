import Mathlib.Data.List.Infix
import Stylesheet.Proofs.Lexing.Bare
import Stylesheet.Proofs.Scan.Anchoring
import Stylesheet.Proofs.Scan.Unsplit

/-!
# Plain stylesheets in the extended syntax

A source without parentheses, quotes, line comments, interpolations and `:extend` has the
same tokens in both syntaxes. The extended one reports less: it lets statements stand alone
that begin with `@` and have no colon.
-/

namespace Stylesheet

/-- What the two syntaxes read in different ways, and what words are cut off by. -/
def extendedPhrases : List Text :=
  [['('], [')'], ['/', '/'], ['@', '\x7b'], ['#', '\x7b'], ['"'], ['\''], ":extend".toList]

/-- A source that both syntaxes read alike. -/
def Text.IsCommon (source : Text) : Prop :=
  ∀ phrase ∈ extendedPhrases, ¬phrase <:+: source

instance (source : Text) : Decidable source.IsCommon :=
  List.decidableBAll (fun phrase => ¬phrase <:+: source) extendedPhrases

/-! ## Markers -/

namespace Marker

/-- The markers that stand in the common part of both syntaxes. -/
def common : List Marker :=
  [comment, openBrace, closeBrace, semicolon, backslash]

theorem mem_common_of_occursHere {source : Text} (isCommon : source.IsCommon) {marker : Marker}
    {offset : Nat} (occurs : occursHere marker.spelling (source.drop offset) = true) :
    marker ∈ common := by
  by_cases isUrl : marker = .url
  · subst isUrl
    have inside : 3 < Marker.url.spelling.length := by decide
    have fourth := foldCase_getElem?_of_occursHere occurs inside
    obtain ⟨character, here, folded⟩ := Option.map_eq_some_iff.mp fourth
    obtain rfl := eq_of_foldCase folded (by decide)
    have member : '(' ∈ source := List.mem_of_getElem? here
    obtain ⟨front, back, split⟩ := List.append_of_mem member
    have isPhrase : ['('] ∈ extendedPhrases := by decide
    exact absurd ⟨front, back, by simp [split]⟩ (isCommon _ isPhrase)
  · have table : ∀ marker ∈ active true, marker ≠ .url → marker ∉ common →
        marker.spelling ∈ extendedPhrases := by decide
    refine Decidable.byContradiction fun apart => ?_
    have isPhrase := table marker (mem_active_true marker) isUrl apart
    exact isCommon _ isPhrase
      ((isPrefix_of_occursHere occurs isUrl).isInfix.trans (List.drop_suffix ..).isInfix)

/-- Both syntaxes find the same markers in a common source. -/
theorem listed_true_of_isCommon {source : Text} (isCommon : source.IsCommon) :
    listed true source = listed false source := by
  have nodup (lessSyntax : Bool) : (listed lessSyntax source).Nodup :=
    (pairwise_occurrences_active lessSyntax source).imp fun {first second} before same => by
      rw [same] at before
      exact Nat.lt_irrefl _ before
  have sameMembers : ∀ entry, entry ∈ listed true source ↔ entry ∈ listed false source := by
    rintro ⟨marker, offset⟩
    rw [listed, listed, mem_occurrences_iff, mem_occurrences_iff]
    constructor
    · rintro ⟨isActive, found⟩
      have occurs := (occursHere_of_mem_occurrences (mem_occurrences_iff.mpr ⟨isActive, found⟩)).2.2
      have subset : ∀ marker ∈ common, marker ∈ active false := by decide
      exact ⟨subset marker (mem_common_of_occursHere isCommon occurs), found⟩
    · rintro ⟨-, found⟩
      exact ⟨mem_active_true marker, found⟩
  refine ((List.perm_ext_iff_of_nodup (nodup true) (nodup false)).mpr sameMembers).eq_of_pairwise
    (fun first second _ _ before after => ?_)
    (pairwise_occurrences_active true source) (pairwise_occurrences_active false source)
  exact absurd before (Nat.lt_asymm after)

end Marker

namespace Scan

/-! ## Words -/

/-- All words are pieces of the source that are looked into, and no interpolation is open. -/
structure State.Bare (source : Text) (state : State) : Prop where
  words : ∀ word ∈ state.words, word.isText = true ∧ word.text <:+: source
  closed : ¬0 < state.interpolations.depth

variable {source : Text} {state : State}

theorem slice_isInfix (source : Text) (start stop : Int) : source.slice start stop <:+: source :=
  (List.take_prefix ..).isInfix.trans (List.drop_suffix ..).isInfix

namespace State.Bare

theorem addText (bare : state.Bare source) (stop : Int) :
    (state.addText source stop).Bare source where
  words word member := by
    rcases List.mem_append.mp member with before | here
    · exact bare.words word before
    · obtain rfl := List.mem_singleton.mp here
      exact ⟨rfl, slice_isInfix ..⟩
  closed := bare.closed

theorem isBare (bare : state.Bare source) (isCommon : source.IsCommon) :
    ∀ word ∈ state.words, word.IsBare := by
  intro word member
  obtain ⟨isText, isPiece⟩ := bare.words word member
  have isPhrase : ":extend".toList ∈ extendedPhrases := by decide
  exact ⟨isText, fun found => isCommon _ isPhrase (found.trans isPiece)⟩

theorem fresh {after : State} (words : after.words = [])
    (closed : ¬0 < after.interpolations.depth) : after.Bare source := by
  refine ⟨?_, closed⟩
  simp [words]

/-- Reacting to the markers of a common source takes pieces of it as text. -/
theorem react {scan : Scan} (bare : state.Bare scan.source) {marker : Marker}
    (isCommon : marker ∈ Marker.common) (offset : Nat) :
    (scan.react marker state offset).state.Bare scan.source := by
  have added := bare.addText offset
  simp only [Marker.common, List.mem_cons, List.not_mem_nil, or_false] at isCommon
  rcases isCommon with rfl | rfl | rfl | rfl | rfl
  · simp only [Scan.react, skipComment]
    split
    · exact ⟨added.words, added.closed⟩
    · simp only [Outcome.mapState, reportPending_state]
      exact ⟨added.words, added.closed⟩
  · obtain ⟨error, ahead⟩ := scan.exists_emitAhead_state state
    rw [Scan.react, openBlock_eq, Outcome.andThen, ahead]
    exact fresh rfl bare.closed
  · rw [Scan.react, closeBrace, if_neg bare.closed, closeBlock_state]
    exact fresh rfl bare.closed
  · by_cases nested : 0 < state.calls.depth
    · rw [Scan.react, endStatement_inside _ _ _ nested]
      exact bare
    · rw [Scan.react, endStatement_state _ _ _ nested]
      split <;> exact fresh rfl bare.closed
  · have taken := bare.addText (min ((offset : Int) + 2) scan.source.length)
    exact ⟨taken.words, taken.closed⟩

end State.Bare

end Scan

/-! ## Excused faults -/

/-- Whether a token is a statement that may stand alone in the extended syntax. -/
def Token.standsAlone : Token → Bool
  | code text _ _ => text.standsAlone
  | _ => false

/-- Whether a diagnostic is for a statement among the tokens that may stand alone. -/
def Diagnostic.isExcused (diagnostic : Diagnostic) (tokens : List Token) : Bool :=
  diagnostic.kind == .invalidRule &&
    tokens.any fun token => token.standsAlone && token.offset? == diagnostic.offset

theorem Diagnostic.isExcused_eq_false {diagnostic : Diagnostic} {tokens : List Token}
    (apart : diagnostic.kind = .invalidRule → ∀ token ∈ tokens, token.isBoundary = false →
      token.offset? ≠ diagnostic.offset) : diagnostic.isExcused tokens = false := by
  rw [Bool.eq_false_iff]
  intro excused
  rw [isExcused, Bool.and_eq_true, beq_iff_eq, List.any_eq_true] at excused
  obtain ⟨isRule, token, member, alone⟩ := excused
  rw [Bool.and_eq_true, beq_iff_eq] at alone
  have noBoundary : token.isBoundary = false := by
    cases token <;> first | rfl | exact absurd alone.1 Bool.false_ne_true
  exact apart isRule token member noBoundary alone.2

theorem Diagnostic.isExcused_append (diagnostic : Diagnostic) (first second : List Token) :
    diagnostic.isExcused (first ++ second) =
      (diagnostic.isExcused first || diagnostic.isExcused second) := by
  rw [isExcused, isExcused, isExcused, List.any_append, Bool.and_or_distrib_left]

namespace Scan
namespace Outcome

/-- The outcome without the faults that its own statements excuse. -/
def relieved (outcome : Outcome) : Outcome :=
  { outcome with diagnostics := outcome.diagnostics.filter (!·.isExcused outcome.tokens) }

/-- No statement of one outcome excuses a fault of the other. -/
structure Apart (first second : Outcome) : Prop where
  ahead : ∀ diagnostic ∈ first.diagnostics, diagnostic.isExcused second.tokens = false
  behind : ∀ diagnostic ∈ second.diagnostics, diagnostic.isExcused first.tokens = false

variable {outcome other : Outcome}

theorem relieved_andThen {next : State → Outcome} (apart : outcome.Apart (next outcome.state)) :
    (outcome.andThen next).relieved =
      outcome.relieved.andThen fun state => (next state).relieved := by
  simp only [relieved, andThen, List.filter_append, Diagnostic.isExcused_append]
  congr 2
  · refine List.filter_congr fun diagnostic member => ?_
    rw [apart.ahead diagnostic member, Bool.or_false]
  · refine List.filter_congr fun diagnostic member => ?_
    rw [apart.behind diagnostic member, Bool.false_or]

theorem relieved_of_no_fault
    (faultless : ∀ diagnostic ∈ outcome.diagnostics, diagnostic.kind ≠ .invalidRule) :
    outcome.relieved = outcome := by
  have whole : outcome.diagnostics.filter (!·.isExcused outcome.tokens) = outcome.diagnostics := by
    refine List.filter_eq_self.mpr fun diagnostic member => ?_
    rw [Diagnostic.isExcused_eq_false fun isRule => absurd isRule (faultless diagnostic member)]
    rfl
  rw [relieved, whole]

theorem Calm.relieved (calm : outcome.Calm) : outcome.relieved = outcome :=
  relieved_of_no_fault calm.faults

theorem apart_of_no_fault
    (faultless : ∀ diagnostic ∈ outcome.diagnostics, diagnostic.kind ≠ .invalidRule)
    (otherFaultless : ∀ diagnostic ∈ other.diagnostics, diagnostic.kind ≠ .invalidRule) :
    outcome.Apart other :=
  ⟨fun diagnostic member => Diagnostic.isExcused_eq_false fun isRule =>
      absurd isRule (faultless diagnostic member),
    fun diagnostic member => Diagnostic.isExcused_eq_false fun isRule =>
      absurd isRule (otherFaultless diagnostic member)⟩

theorem Calm.apart (calm : outcome.Calm) (other : Outcome) : outcome.Apart other where
  ahead diagnostic member := Diagnostic.isExcused_eq_false fun isRule =>
    absurd isRule (calm.faults diagnostic member)
  behind diagnostic _ := Diagnostic.isExcused_eq_false fun _ token member noBoundary => by
    rw [calm.tokens token member] at noBoundary
    cases noBoundary

theorem Apart.symm (apart : outcome.Apart other) : other.Apart outcome :=
  ⟨apart.behind, apart.ahead⟩

theorem relieved_andThen_calm {next : State → Outcome} (calm : ∀ state, (next state).Calm) :
    (outcome.andThen next).relieved = outcome.relieved.andThen next := by
  rw [relieved_andThen ((calm _).apart outcome).symm]
  exact congrArg _ (funext fun state => (calm state).relieved)

theorem andThen_congr {next later : State → Outcome}
    (same : next outcome.state = later outcome.state) :
    outcome.andThen next = outcome.andThen later := by
  rw [andThen, andThen, same]

/-- What is settled at different offsets is apart. -/
theorem Settles.apart {within beyond : Int → Prop} (settles : outcome.Settles within)
    (settlesOther : other.Settles beyond) (never : ∀ place, within place → ¬beyond place) :
    outcome.Apart other := by
  constructor
  · intro diagnostic member
    refine Diagnostic.isExcused_eq_false fun isRule token isToken noBoundary same => ?_
    obtain ⟨place, inside, here⟩ := settles.faults diagnostic member isRule
    obtain ⟨otherPlace, outside, there⟩ := settlesOther.tokens token isToken noBoundary
    rw [here, there, Option.some_inj] at same
    exact never place inside (same ▸ outside)
  · intro diagnostic member
    refine Diagnostic.isExcused_eq_false fun isRule token isToken noBoundary same => ?_
    obtain ⟨place, outside, here⟩ := settlesOther.faults diagnostic member isRule
    obtain ⟨otherPlace, inside, there⟩ := settles.tokens token isToken noBoundary
    rw [here, there, Option.some_inj] at same
    exact never place (same ▸ inside) outside

end Outcome

/-! ## Emission -/

section Emission

variable (options : TokenizeOptions) (source : Text)

/-- The scan of a source as a plain stylesheet. -/
def plainScan : Scan := ⟨{ options with lessSyntax := false }, source⟩

/-- The scan of a source in the extended syntax. -/
def extendedScan : Scan := ⟨{ options with lessSyntax := true }, source⟩

variable {options source} {state : State}

theorem standsAlone_append {text terminator : Text} (visible : text.isEmpty = false)
    (noColon : ':' ∉ terminator) : (text ++ terminator).standsAlone = text.standsAlone := by
  cases text with
  | nil => cases visible
  | cons first rest => simp [Text.standsAlone, noColon]

/-- A fault of words is excused by what they become, if they may stand alone. -/
theorem isExcused_of_mem_wordReports {statement : Statement} {words : List Word}
    {pendingError : Bool} {terminator : Text} (noColon : ':' ∉ terminator) {diagnostic : Diagnostic}
    (member : diagnostic ∈ wordReports source statement words pendingError) :
    words.any (·.error) = false ∧
      diagnostic.isExcused (wordTokens statement words pendingError terminator) =
        (Word.trimmed words).standsAlone := by
  unfold wordReports at member
  split at member
  next reported =>
    simp only [Bool.and_eq_true, beq_iff_eq, Bool.not_eq_true', isFaulty, Bool.or_eq_false_iff]
      at reported
    obtain ⟨⟨rfl, visible⟩, -, noError⟩ := reported
    obtain rfl := List.mem_singleton.mp member
    refine ⟨noError, ?_⟩
    simp [Diagnostic.isExcused, wordTokens, visible, Token.standsAlone, Token.offset?,
      standsAlone_append visible noColon, Diagnostic.ofFault, Diagnostic.locate, Fault.kind]
  next => cases member

/-- It is enough to compare what the two statements become and what is reported of them. -/
theorem emitWords_eq_relieved {first second : Statement} {terminator : Text}
    (firstIs : (extendedScan options source).statementOf state.words = first)
    (secondIs : (plainScan options source).statementOf state.words = second)
    (tokens : wordTokens first state.words state.pendingError terminator =
      wordTokens second state.words state.pendingError terminator)
    (reports : wordReports source first state.words state.pendingError =
      (wordReports source second state.words state.pendingError).filter
        (!·.isExcused (wordTokens second state.words state.pendingError terminator))) :
    (extendedScan options source).emitWords state terminator =
      ((plainScan options source).emitWords state terminator).relieved := by
  have filtered (ignores : Bool) (all : List Diagnostic) (keeps : Diagnostic → Bool) :
      (if ignores then [] else all.filter keeps) = (if ignores then [] else all).filter keeps := by
    cases ignores <;> rfl
  rw [emitWords_eq_emitted, emitWords_eq_emitted, firstIs, secondIs, tokens]
  refine congrArg (Outcome.mk state _) ?_
  exact (congrArg (if options.ignoreErrors then [] else ·) reports).trans (filtered ..)

/-- The words become the same token in both syntaxes, and its fault may be excused. -/
theorem emitWords_extended (bare : ∀ word ∈ state.words, word.IsBare) {terminator : Text}
    (noColon : ':' ∉ terminator) :
    (extendedScan options source).emitWords state terminator =
      ((plainScan options source).emitWords state terminator).relieved := by
  obtain ⟨extended, malformed⟩ := Statement.ofWords_extended options bare
  by_cases alone : state.words.any (·.error) = false ∧ (Word.trimmed state.words).standsAlone = true
  · obtain ⟨noError, stands⟩ := alone
    have extendedIs : (extendedScan options source).statementOf state.words = .standalone := by
      rw [statementOf, noError]
      exact extended.trans (if_pos stands)
    have plainIs : (plainScan options source).statementOf state.words = .malformed := by
      rw [statementOf, noError]
      exact malformed stands
    refine emitWords_eq_relieved extendedIs plainIs rfl
      (List.filter_eq_nil_iff.mpr fun diagnostic member => ?_).symm
    rw [(isExcused_of_mem_wordReports noColon member).2, stands]
    decide
  · have same : (extendedScan options source).statementOf state.words =
        (plainScan options source).statementOf state.words := by
      rw [statementOf, statementOf]
      split
      · rfl
      next noError =>
        refine extended.trans (if_neg fun stands => alone ⟨?_, stands⟩)
        simpa using noError
    refine emitWords_eq_relieved same rfl rfl
      (List.filter_eq_self.mpr fun diagnostic member => ?_).symm
    obtain ⟨noError, excused⟩ := isExcused_of_mem_wordReports noColon member
    rw [excused, Bool.not_eq_true', Bool.eq_false_iff]
    exact fun stands => alone ⟨noError, stands⟩

theorem emitEnded_extended (bare : state.Bare source) (isCommon : source.IsCommon) (stop : Int) :
    (extendedScan options source).emitEnded state stop =
      ((plainScan options source).emitEnded state stop).relieved := by
  have words := @emitWords_extended options source _ ((bare.addText stop).isBare isCommon) [';']
    (by decide)
  cases splits : options.splitRules with
  | true =>
      rw [emitEnded_of_splits _ _ (by exact splits), emitEnded_of_splits _ _ (by exact splits)]
      exact congrArg (Outcome.mapState · State.settle) words
  | false =>
      rw [emitEnded_of_whole _ _ (by exact splits), emitEnded_of_whole _ _ (by exact splits)]
      rfl

theorem emitUpTo_extended (bare : state.Bare source) (isCommon : source.IsCommon) (stop : Int) :
    (extendedScan options source).emitUpTo state stop =
      ((plainScan options source).emitUpTo state stop).relieved := by
  have words := @emitWords_extended options source _ ((bare.addText stop).isBare isCommon) []
    (by decide)
  cases splits : options.splitRules with
  | true =>
      rw [emitUpTo_of_splits _ _ (by exact splits), emitUpTo_of_splits _ _ (by exact splits)]
      exact congrArg (Outcome.mapState · State.settle) words
  | false =>
      rw [emitUpTo_of_whole _ _ (by exact splits), emitUpTo_of_whole _ _ (by exact splits),
        emitSource_eq_emitted, emitSource_eq_emitted]
      rfl

/-! ## Reactions -/

theorem closeBlock_extended (bare : state.Bare source) (isCommon : source.IsCommon) (offset : Int) :
    (extendedScan options source).closeBlock state offset =
      ((plainScan options source).closeBlock state offset).relieved := by
  have upTo := @emitUpTo_extended options source _ bare isCommon offset
  let next (state : State) : Outcome :=
    Outcome.andThen { state, tokens := [.closing offset] } fun state =>
      Outcome.onlyIf (state.blockDepth == 0) state fun state =>
        (plainScan options source).reportSettled state .unexpectedBlockEnd offset
  have calm (state : State) : (next state).Calm :=
    .andThen (.boundary rfl _) (calm_onlyIf_reportSettled .unexpectedBlockEnd (by decide) _ _)
  have closed (emitted : Outcome) (change : State → State) :
      (((emitted.andThen next).mapState change).relieved) =
        (emitted.relieved.andThen next).mapState change :=
    congrArg (Outcome.mapState · change) (Outcome.relieved_andThen_calm calm)
  rw [closeBlock, closeBlock, upTo, Outcome.andThen_assoc, Outcome.andThen_assoc]
  exact (closed _ _).symm

theorem endSource_extended (bare : state.Bare source) (isCommon : source.IsCommon) :
    (extendedScan options source).endSource state =
      ((plainScan options source).endSource state).relieved := by
  have upTo := @emitUpTo_extended options source _ bare isCommon source.length
  have calm := @calm_onlyIf_reportSettled (plainScan options source) state .missingBlockEnd (by decide)
    (0 < state.blockDepth) source.length
  let next (state : State) := (plainScan options source).emitUpTo state source.length
  have emitted := Outcome.relieved_andThen (calm.apart (next _))
  rw [calm.relieved] at emitted
  rw [endSource, endSource]
  refine (congrArg (Outcome.mapState · _) ?_).trans (congrArg (Outcome.mapState · _) emitted.symm)
  refine Outcome.andThen_congr ?_
  rw [onlyIf_reportSettled_state]
  exact upTo

theorem react_extended (bare : state.Bare source) (isCommon : source.IsCommon) {marker : Marker}
    {offset : Nat} (begins : (plainScan options source).markerAt? offset = some marker) :
    (extendedScan options source).react marker state offset =
      ((plainScan options source).react marker state offset).relieved := by
  have inside := Nat.le_of_add_right_le (lt_length_of_markerAt? begins)
  have isListed := Marker.mem_common_of_occursHere isCommon (markerAt?_eq_some_iff.mp begins).2
  simp only [Marker.common, List.mem_cons, List.not_mem_nil, or_false] at isListed
  rcases isListed with rfl | rfl | rfl | rfl | rfl
  · obtain ⟨-, tokens, kinds⟩ := (plainScan options source).skipComment_eq state inside
    exact (calm_of_reported tokens kinds (fault_glimpse_ne _ _ _)).relieved.symm
  · refine (Outcome.relieved_of_no_fault ?_).symm
    simp [react, diagnostics_openBlock]
  · rw [react, react, closeBrace, closeBrace, if_neg bare.closed, if_neg bare.closed]
    exact closeBlock_extended bare isCommon offset
  · by_cases nested : 0 < state.calls.depth
    · rw [react, react, endStatement_inside _ _ _ nested, endStatement_inside _ _ _ nested]
      rfl
    · rw [react, react, endStatement_outside _ _ _ nested, endStatement_outside _ _ _ nested,
        emitEnded_extended bare isCommon]
      rfl
  · rfl

/-! ## Runs -/

/-- From any state on, a fault is excused only by the statement that it is reported of. -/
theorem apart_course (anchored : state.Anchored) {marker : Marker} {offset : Nat}
    {entries : List (Marker × Nat)}
    (begins : (plainScan options source).markerAt? offset = some marker)
    (reached : state.cursor ≤ offset)
    (listed : ∀ entry ∈ entries, (plainScan options source).markerAt? entry.2 = some entry.1) :
    let outcome := (plainScan options source).react marker state offset
    outcome.Apart (((plainScan options source).course outcome.state entries).andThen
      (plainScan options source).endSource) := by
  intro outcome
  cases splits : options.splitRules with
  | true =>
      have rest := settles_course (by exact splits) (anchored.react begins reached) listed
      rcases settles_react (by exact splits) anchored begins reached with calm | ⟨settles, further⟩
      · exact calm.apart _
      · exact settles.apart rest fun place here later => by omega
  | false =>
      have whole : (plainScan options source).options.splitRules = false := splits
      exact Outcome.apart_of_no_fault (no_fault_react whole _ _ _) (no_fault_course whole _ _)

theorem course_extended (bare : state.Bare source) (anchored : state.Anchored)
    (isCommon : source.IsCommon) {entries : List (Marker × Nat)}
    (listed : ∀ entry ∈ entries, (plainScan options source).markerAt? entry.2 = some entry.1) :
    ((extendedScan options source).course state entries).andThen
        (extendedScan options source).endSource =
      (((plainScan options source).course state entries).andThen
        (plainScan options source).endSource).relieved := by
  induction entries generalizing state with
  | nil => exact endSource_extended bare isCommon
  | cons entry entries induction =>
      obtain ⟨marker, offset⟩ := entry
      have begins := listed _ List.mem_cons_self
      have listedLater := fun entry member => listed entry (List.mem_cons_of_mem _ member)
      have isListed : marker ∈ Marker.common :=
        Marker.mem_common_of_occursHere isCommon (markerAt?_eq_some_iff.mp begins).2
      rw [course, course]
      split
      next => exact induction bare anchored listedLater
      next notConsumed =>
        have reached := Int.not_lt.mp notConsumed
        have apart := apart_course anchored begins reached listedLater
        have bareLater : ((plainScan options source).react marker state offset).state.Bare source :=
          @State.Bare.react _ (plainScan options source) bare _ isListed offset
        have rest := induction bareLater (anchored.react begins reached) listedLater
        rw [Outcome.andThen_assoc, Outcome.andThen_assoc, Outcome.relieved_andThen apart,
          react_extended bare isCommon begins]
        exact Outcome.andThen_congr rest

end Emission

end Scan

namespace TokenizeOptions

/-- A common source has the same tokens in both syntaxes. The extended one reports what the
plain one reports, but for statements without a colon that begin with `@`. -/
theorem tokenize_extended (options : TokenizeOptions) {source : Text} (isCommon : source.IsCommon) :
    let plain := { options with lessSyntax := false }.tokenize source
    let extended := { options with lessSyntax := true }.tokenize source
    extended.tokens = plain.tokens ∧
      extended.diagnostics = plain.diagnostics.filter (!·.isExcused plain.tokens) := by
  have bare : Scan.State.Bare source {} := .fresh rfl (by decide)
  have listed : ∀ entry ∈ (Scan.plainScan options source).markers,
      (Scan.plainScan options source).markerAt? entry.2 = some entry.1 :=
    fun _ => Scan.markerAt?_of_mem_markers
  have sameMarkers : (Scan.extendedScan options source).markers =
      (Scan.plainScan options source).markers := Marker.listed_true_of_isCommon isCommon
  have whole : (Scan.extendedScan options source).whole =
      (Scan.plainScan options source).whole.relieved := by
    rw [Scan.whole, sameMarkers]
    exact Scan.course_extended bare .start isCommon listed
  rw [Scan.tokenize_eq_whole, Scan.tokenize_eq_whole]
  exact ⟨congrArg (·.tokens) whole, congrArg (·.diagnostics) whole⟩

/-- Two statements begin with `@` and are excused, one does not. -/
theorem tokenize_extended_at_statements :
    let source : Text := "@a b;c\x7b@d/*e*/;f;g:h\x7d".toList
    let plain := tokenize { ignoreErrors := false } source
    let extended := tokenize { ignoreErrors := false, lessSyntax := true } source
    source.IsCommon ∧ extended.tokens = plain.tokens ∧
      plain.diagnostics.map (·.offset) = [some 0, some 7, some 15] ∧
      extended.diagnostics.map (·.offset) = [some 15] := by
  intro source plain extended
  have isCommon : source.IsCommon := by decide +kernel
  obtain ⟨tokens, reports⟩ := tokenize_extended { ignoreErrors := false } isCommon
  refine ⟨isCommon, tokens, by decide +kernel, ?_⟩
  rw [show extended.diagnostics = _ from reports]
  decide +kernel

end TokenizeOptions
end Stylesheet
