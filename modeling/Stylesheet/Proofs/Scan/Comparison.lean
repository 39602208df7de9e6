import Stylesheet.Proofs.Scan.Emitted

/-!
# Two readings of one source

Scans that read one source with different options meet the same markers, as long as both
read the same syntax. Their states then differ in nothing but the flag for a pending error.
How the flags, the tokens and the reports of the two are related is left open here: it is
enough to know it of what is reported and of what is emitted at the end of a statement and
at the braces of a block.
-/

namespace Stylesheet
namespace Scan

/-- Whether the next statement has to carry an error flag is settled anew. -/
def State.flag (state : State) (error : Bool) : State :=
  { state with pendingError := error }

section Reactions

variable (scan : Scan) (state : State)

theorem exists_emitAhead_state : ∃ error, (scan.emitAhead state).state = state.flag error := by
  rcases scan.emitAhead_cases state with emits | silent
  · rw [emits, emitSource_state]
    split
    · exact ⟨state.pendingError, rfl⟩
    · exact ⟨false, rfl⟩
  · rw [silent]
    exact ⟨state.pendingError, rfl⟩

theorem readString_closed {quote : Quote} {offset : Int} {stop : Nat}
    (found : Quoted.end? scan.source quote.character offset = some stop) :
    scan.readString quote state offset =
      { state := (scan.takeText state offset).takeWord scan.source .string stop } := by
  simp only [readString, found]

theorem readString_open {quote : Quote} {offset : Int}
    (found : Quoted.end? scan.source quote.character offset = none) :
    scan.readString quote state offset =
      if scan.options.ignoreErrors then
        { state := (scan.takeText state offset).takeWord scan.source .text (offset + 1) }
      else
        (scan.reportPending (scan.takeText state offset) (.openString quote) offset).mapState
          fun state => state.takeWord scan.source .text scan.source.length true := by
  simp only [readString, found]

end Reactions

/-! ## Comparisons -/

/-- Two readings of one source, and how their flags, tokens and reports are related. -/
structure Comparison where
  firstOptions : TokenizeOptions
  secondOptions : TokenizeOptions
  source : Text
  flags : Bool → Bool → Prop
  tokens : List Token → List Token → Prop
  reports : List Diagnostic → List Diagnostic → Prop

namespace Comparison

variable (comparison : Comparison)

def first : Scan := ⟨comparison.firstOptions, comparison.source⟩

def second : Scan := ⟨comparison.secondOptions, comparison.source⟩

/-- Outcomes whose flags, tokens and reports are related, whatever else their states hold. -/
structure Outputs (first second : Outcome) : Prop where
  flags : comparison.flags first.state.pendingError second.state.pendingError
  tokens : comparison.tokens first.tokens second.tokens
  reports : comparison.reports first.diagnostics second.diagnostics

/-- Outcomes that moreover lead to states which differ in nothing but the flag. -/
structure Outcomes (first second : Outcome) : Prop extends comparison.Outputs first second where
  settled : second.state.settle = first.state.settle

/-- What a comparison rests on. -/
structure Sound : Prop where
  lessSyntax : comparison.secondOptions.lessSyntax = comparison.firstOptions.lessSyntax
  flags_settled : comparison.flags false false
  flags_raised {first second : Bool} (flags : comparison.flags first second) :
    comparison.flags (first || !comparison.firstOptions.ignoreErrors)
      (second || !comparison.secondOptions.ignoreErrors)
  tokens_nil : comparison.tokens [] []
  tokens_append {first second firstMore secondMore : List Token}
      (before : comparison.tokens first second) (behind : comparison.tokens firstMore secondMore) :
    comparison.tokens (first ++ firstMore) (second ++ secondMore)
  tokens_opening (heading : Heading) (offset : Int) :
    comparison.tokens [.opening heading offset] [.opening heading offset]
  tokens_closing (offset : Int) : comparison.tokens [.closing offset] [.closing offset]
  reports_nil : comparison.reports [] []
  reports_append {first second firstMore secondMore : List Diagnostic}
      (before : comparison.reports first second)
      (behind : comparison.reports firstMore secondMore) :
    comparison.reports (first ++ firstMore) (second ++ secondMore)
  /-- Faults of statements are reported by emission only. -/
  reports_fault {fault : Fault} (noRule : fault.kind ≠ .invalidRule) (first second : State)
      (offset : Int) (pending : Bool) :
    let diagnostic := Diagnostic.ofFault fault comparison.source offset
    comparison.reports (comparison.first.report first diagnostic pending).diagnostics
      (comparison.second.report second diagnostic pending).diagnostics
  ended {state : State} {error : Bool} (flags : comparison.flags state.pendingError error)
      (offset : Int) :
    comparison.Outputs (comparison.first.emitEnded state offset)
      (comparison.second.emitEnded (state.flag error) offset)
  ahead {state : State} {error : Bool} (flags : comparison.flags state.pendingError error) :
    comparison.Outputs (comparison.first.emitAhead state)
      (comparison.second.emitAhead (state.flag error))
  upTo {state : State} {error : Bool} (flags : comparison.flags state.pendingError error)
      (stop : Int) :
    comparison.Outputs (comparison.first.emitUpTo state stop)
      (comparison.second.emitUpTo (state.flag error) stop)

variable {comparison}

theorem Outcomes.exists_flag {first second : Outcome}
    (outcomes : comparison.Outcomes first second) :
    ∃ error, second.state = first.state.flag error ∧
      comparison.flags first.state.pendingError error := by
  refine ⟨second.state.pendingError, ?_, outcomes.flags⟩
  calc
    second.state = second.state.settle.flag second.state.pendingError := rfl
    _ = first.state.settle.flag second.state.pendingError := by rw [outcomes.settled]

theorem Outputs.mapState {first second : Outcome} {firstChange secondChange : State → State}
    (outputs : comparison.Outputs first second)
    (flags : comparison.flags (firstChange first.state).pendingError
      (secondChange second.state).pendingError) :
    comparison.Outputs (first.mapState firstChange) (second.mapState secondChange) :=
  ⟨flags, outputs.tokens, outputs.reports⟩

/-- Unless both readings treat errors alike, the first one reports them and finds every
string closed. -/
def Tolerates (comparison : Comparison) (diagnostics : List Diagnostic) : Prop :=
  comparison.secondOptions.ignoreErrors ≠ comparison.firstOptions.ignoreErrors →
    comparison.firstOptions.ignoreErrors = false ∧
      ∀ diagnostic ∈ diagnostics, diagnostic.kind ≠ .unterminatedString

theorem Tolerates.of_append {before behind : List Diagnostic}
    (tolerates : comparison.Tolerates (before ++ behind)) :
    comparison.Tolerates before ∧ comparison.Tolerates behind := by
  refine ⟨fun differ => ?_, fun differ => ?_⟩
  all_goals
    obtain ⟨reports, closed⟩ := tolerates differ
    exact ⟨reports, fun diagnostic member => closed diagnostic (by simp [member])⟩

namespace Sound

variable (sound : comparison.Sound) {state : State} {error : Bool}
  (flags : comparison.flags state.pendingError error)

include sound

/-! ## Outcomes -/

theorem andThen {first second : Outcome} {firstNext secondNext : State → Outcome}
    (before : comparison.Outputs first second)
    (behind : comparison.Outputs (firstNext first.state) (secondNext second.state)) :
    comparison.Outputs (first.andThen firstNext) (second.andThen secondNext) :=
  ⟨behind.flags, sound.tokens_append before.tokens behind.tokens,
    sound.reports_append before.reports behind.reports⟩

/-- What is reported for no later statement changes no state. -/
theorem onlyIf_reportSettled (fault : Fault) (noRule : fault.kind ≠ .invalidRule) (needed : Bool)
    (first second : State) (flags : comparison.flags first.pendingError second.pendingError)
    (offset : Int) :
    comparison.Outputs
      (.onlyIf needed first fun state => comparison.first.reportSettled state fault offset)
      (.onlyIf needed second fun state => comparison.second.reportSettled state fault offset) where
  flags := by
    rw [onlyIf_reportSettled_state, onlyIf_reportSettled_state]
    exact flags
  tokens := by
    rw [(Scan.onlyIf_reportSettled ..).2, (Scan.onlyIf_reportSettled ..).2]
    exact sound.tokens_nil
  reports := by
    cases needed with
    | false => exact sound.reports_nil
    | true => exact sound.reports_fault noRule first second offset false

include flags

/-- Nothing is emitted or reported. -/
theorem silent : comparison.Outcomes { state } { state := state.flag error } :=
  ⟨⟨flags, sound.tokens_nil, sound.reports_nil⟩, rfl⟩

theorem reportPending (fault : Fault) (noRule : fault.kind ≠ .invalidRule) (offset : Int) :
    comparison.Outcomes (comparison.first.reportPending state fault offset)
      (comparison.second.reportPending (state.flag error) fault offset) where
  flags := by
    rw [reportPending_state, reportPending_state]
    exact sound.flags_raised flags
  tokens := by
    rw [reportPending_tokens, reportPending_tokens]
    exact sound.tokens_nil
  reports := sound.reports_fault noRule state (state.flag error) offset true
  settled := by
    rw [reportPending_state, reportPending_state]
    rfl

/-! ## Reactions -/

theorem readString (quote : Quote) (offset : Int)
    (tolerates :
      comparison.Tolerates (comparison.first.readString quote state offset).diagnostics) :
    comparison.Outcomes (comparison.first.readString quote state offset)
      (comparison.second.readString quote (state.flag error) offset) := by
  cases found : Quoted.end? comparison.source quote.character offset with
  | some stop =>
      rw [readString_closed comparison.first _ found, readString_closed comparison.second _ found]
      exact sound.silent flags
  | none =>
      rw [readString_open comparison.first _ found] at tolerates
      rw [readString_open comparison.first _ found, readString_open comparison.second _ found]
      have taken : comparison.flags (comparison.first.takeText state offset).pendingError error :=
        flags
      have reported := sound.reportPending taken (.openString quote) (by simp [Fault.kind]) offset
      by_cases alike : comparison.secondOptions.ignoreErrors = comparison.firstOptions.ignoreErrors
      · rw [show comparison.second.options.ignoreErrors = comparison.first.options.ignoreErrors
          from alike]
        split
        · exact sound.silent flags
        · refine ⟨reported.toOutputs.mapState reported.flags, ?_⟩
          simp only [Outcome.mapState, reportPending_state]
          rfl
      · obtain ⟨reports, closed⟩ := tolerates alike
        have strict : comparison.first.options.ignoreErrors = false := reports
        refine absurd ?_ (closed (.ofFault (.openString quote) comparison.source offset) ?_)
        · rfl
        · simp only [strict, Outcome.mapState, Scan.reportPending, report, Bool.false_eq_true,
            if_false, List.mem_singleton]
          rfl

theorem readUrl (offset : Nat) :
    comparison.Outcomes (comparison.first.readUrl state offset)
      (comparison.second.readUrl (state.flag error) offset) := by
  unfold Scan.readUrl
  simp only [show comparison.second.source = comparison.first.source from rfl]
  split
  next stop found => exact sound.silent flags
  next fault place found =>
    have noRule : fault.kind ≠ .invalidRule := by
      rw [Url.eq_contentFault_of_findEnd found]
      exact Url.kind_contentFault_ne _
    have taken : comparison.flags ((comparison.first.takeText state offset).takeWord
        comparison.source .text (offset + 3)).pendingError error := flags
    exact sound.reportPending taken fault noRule place

theorem skipComment (offset : Int) :
    comparison.Outcomes (comparison.first.skipComment state offset)
      (comparison.second.skipComment (state.flag error) offset) := by
  unfold Scan.skipComment
  simp only [show comparison.second.source = comparison.first.source from rfl]
  split
  next => exact sound.silent flags
  next =>
    have added : comparison.flags (state.addText comparison.source offset).pendingError error :=
      flags
    have reported := sound.reportPending added .openComment (by decide) offset
    refine ⟨reported.toOutputs.mapState reported.flags, ?_⟩
    simp only [Outcome.mapState, reportPending_state]
    rfl

theorem endStatement (offset : Int) :
    comparison.Outcomes (comparison.first.endStatement state offset)
      (comparison.second.endStatement (state.flag error) offset) := by
  by_cases inside : 0 < state.calls.depth
  · rw [endStatement_inside _ _ _ inside, endStatement_inside _ (state.flag error) _ inside]
    exact sound.silent flags
  · have outside : ¬0 < (state.flag error).calls.depth := inside
    have ended := sound.ended flags offset
    constructor
    · rw [endStatement_outside _ _ _ inside, endStatement_outside _ _ _ outside]
      exact ended.mapState ended.flags
    · rw [endStatement_state _ _ _ inside, endStatement_state _ _ _ outside]
      split <;> split <;> rfl

theorem openBlock (offset : Int) :
    comparison.Outcomes (comparison.first.openBlock state offset)
      (comparison.second.openBlock (state.flag error) offset) := by
  have ahead := sound.ahead flags
  obtain ⟨firstError, firstState⟩ := comparison.first.exists_emitAhead_state state
  obtain ⟨secondError, secondState⟩ := comparison.second.exists_emitAhead_state (state.flag error)
  rw [openBlock_eq, openBlock_eq]
  refine ⟨sound.andThen ahead ⟨ahead.flags, ?_, sound.reports_nil⟩, ?_⟩
  · rw [firstState, secondState]
    exact sound.tokens_opening ..
  · simp only [Outcome.andThen, firstState, secondState]
    rfl

theorem closeBlock (offset : Int) :
    comparison.Outcomes (comparison.first.closeBlock state offset)
      (comparison.second.closeBlock (state.flag error) offset) := by
  have upTo := sound.upTo flags offset
  have depth (scan : Scan) (state : State) :
      (scan.emitUpTo state offset).state.blockDepth = state.blockDepth := by
    rw [emitUpTo_state]
    cases scan.options.splitRules <;> rfl
  refine ⟨?_, by rw [closeBlock_state, closeBlock_state]; rfl⟩
  rw [Scan.closeBlock, Scan.closeBlock]
  refine (sound.andThen (sound.andThen upTo ⟨upTo.flags, sound.tokens_closing offset,
    sound.reports_nil⟩) ?_).mapState ?_
  · simp only [Outcome.andThen, depth]
    exact sound.onlyIf_reportSettled .unexpectedBlockEnd (by decide) _ _ _ upTo.flags offset
  · simp only [Outcome.andThen, onlyIf_reportSettled_state]
    exact upTo.flags

theorem closeInterpolation (offset : Int) :
    comparison.Outcomes (comparison.first.closeInterpolation state offset)
      (comparison.second.closeInterpolation (state.flag error) offset) := by
  unfold Scan.closeInterpolation collapseOutermost
  rw [show (state.flag error).interpolations = state.interpolations from rfl]
  split <;> exact sound.silent flags

theorem closeCall (offset : Int) :
    comparison.Outcomes (comparison.first.closeCall state offset)
      (comparison.second.closeCall (state.flag error) offset) := by
  unfold Scan.closeCall collapseOutermost
  rw [show (state.flag error).calls = state.calls from rfl]
  split <;> exact sound.silent flags

theorem closeBrace (offset : Int) :
    comparison.Outcomes (comparison.first.closeBrace state offset)
      (comparison.second.closeBrace (state.flag error) offset) := by
  unfold Scan.closeBrace
  rw [show (state.flag error).interpolations = state.interpolations from rfl]
  split
  · exact sound.closeInterpolation flags offset
  · exact sound.closeBlock flags offset

/-- Both readings react alike to a marker. -/
theorem react (marker : Marker) (offset : Nat)
    (tolerates : comparison.Tolerates (comparison.first.react marker state offset).diagnostics) :
    comparison.Outcomes (comparison.first.react marker state offset)
      (comparison.second.react marker (state.flag error) offset) := by
  cases marker with
  | quote quote => exact sound.readString flags quote offset tolerates
  | comment => exact sound.skipComment flags offset
  | openBrace => exact sound.openBlock flags offset
  | closeBrace => exact sound.closeBrace flags offset
  | semicolon => exact sound.endStatement flags offset
  | url => exact sound.readUrl flags offset
  | backslash => exact sound.silent flags
  | openParen => exact sound.silent flags
  | closeParen => exact sound.closeCall flags offset
  | lineComment => exact sound.silent flags
  | atInterpolation => exact sound.silent flags
  | hashInterpolation => exact sound.silent flags

theorem endSource :
    comparison.Outcomes (comparison.first.endSource state)
      (comparison.second.endSource (state.flag error)) := by
  have upTo := sound.upTo flags comparison.source.length
  have reported := sound.onlyIf_reportSettled .missingBlockEnd (by decide) (0 < state.blockDepth) state
    (state.flag error) flags comparison.source.length
  constructor
  · rw [Scan.endSource, Scan.endSource]
    refine (sound.andThen reported ?_).mapState ?_
    · rw [onlyIf_reportSettled_state, onlyIf_reportSettled_state]
      exact upTo
    · simp only [Outcome.andThen, onlyIf_reportSettled_state]
      exact upTo.flags
  · simp only [Scan.endSource, Outcome.mapState, Outcome.andThen, onlyIf_reportSettled_state,
      emitUpTo_state]
    split <;> split <;> rfl

/-! ## Runs -/

/-- Both readings go on alike from marker to marker. -/
theorem course (entries : List (Marker × Nat))
    (tolerates : comparison.Tolerates (comparison.first.course state entries).diagnostics) :
    comparison.Outcomes (comparison.first.course state entries)
      (comparison.second.course (state.flag error) entries) := by
  induction entries generalizing state error with
  | nil => exact sound.silent flags
  | cons entry entries induction =>
      obtain ⟨marker, offset⟩ := entry
      rw [Scan.course] at tolerates ⊢
      rw [Scan.course, show (state.flag error).cursor = state.cursor from rfl]
      split at tolerates
      next consumed =>
        rw [if_pos consumed, if_pos consumed]
        exact induction flags tolerates
      next ahead =>
        rw [if_neg ahead, if_neg ahead]
        obtain ⟨here, later⟩ := tolerates.of_append
        have reacted := sound.react flags marker offset here
        obtain ⟨after, settled, afterFlags⟩ := reacted.exists_flag
        have rest := induction afterFlags later
        rw [← settled] at rest
        exact ⟨sound.andThen reacted.toOutputs rest.toOutputs, rest.settled⟩

/-- Both readings go on alike to the end of the source. -/
theorem courseToEnd (entries : List (Marker × Nat))
    (tolerates : comparison.Tolerates (comparison.first.course state entries).diagnostics) :
    comparison.Outputs
      ((comparison.first.course state entries).andThen comparison.first.endSource)
      ((comparison.second.course (state.flag error) entries).andThen
        comparison.second.endSource) := by
  have before := sound.course flags entries tolerates
  obtain ⟨after, settled, afterFlags⟩ := before.exists_flag
  have finish := sound.endSource afterFlags
  rw [← settled] at finish
  exact sound.andThen before.toOutputs finish.toOutputs

omit flags

/-- Both readings of the whole source are related as their parts are. -/
theorem tokenize (tolerates : comparison.Tolerates
      (comparison.firstOptions.tokenize comparison.source).diagnostics) :
    comparison.tokens (comparison.firstOptions.tokenize comparison.source).tokens
        (comparison.secondOptions.tokenize comparison.source).tokens ∧
      comparison.reports (comparison.firstOptions.tokenize comparison.source).diagnostics
        (comparison.secondOptions.tokenize comparison.source).diagnostics := by
  have sameMarkers : comparison.second.markers = comparison.first.markers := by
    rw [Comparison.first, Comparison.second, markers_eq, markers_eq, sound.lessSyntax]
  have secondWhole : comparison.second.whole =
      (comparison.second.course (State.flag {} false) comparison.first.markers).andThen
        comparison.second.endSource := by
    rw [whole, sameMarkers]
    rfl
  rw [tokenize_eq_whole] at tolerates ⊢
  rw [tokenize_eq_whole]
  change comparison.tokens _ comparison.second.whole.tokens ∧
    comparison.reports _ comparison.second.whole.diagnostics
  obtain ⟨inCourse, -⟩ := tolerates.of_append
  have outputs := sound.courseToEnd sound.flags_settled comparison.first.markers inCourse
  rw [secondWhole]
  exact ⟨outputs.tokens, outputs.reports⟩

end Sound

end Comparison
end Scan
end Stylesheet
