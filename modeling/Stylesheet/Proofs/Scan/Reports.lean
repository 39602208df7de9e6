import Stylesheet.Proofs.Scan.Anchoring

/-!
# What is reported

Every reaction goes on with the statement, or it is a boundary. In the first case at most
one fault is reported, and the next statement has to be flagged for it. At a boundary only a
statement that does not have to be flagged is reported, where it begins, and then what is
wrong with the braces.
-/

namespace Stylesheet

namespace FaultKind

/-- Whether a fault takes up the rest of the source. -/
def isFinal : FaultKind → Bool
  | unterminatedComment => true
  | unterminatedString => true
  | _ => false

/-- Whether a fault is one of a url. -/
def isUrl : FaultKind → Bool
  | unterminatedUrl => true
  | invalidUrl => true
  | _ => false

end FaultKind

namespace Scan

variable {scan : Scan} {state : State}

/-! ## Faults of a construct -/

/-- What may be wrong with the construct at an offset: the fault, where it is reported, and
where the scan goes on. -/
inductive Defect (scan : Scan) (offset : Nat) : Fault → Int → Int → Prop
  /-- A comment or a string that is never closed. -/
  | unclosed {fault : Fault} (isFinal : fault.kind.isFinal = true) :
      Defect scan offset fault offset scan.source.length
  /-- A url that is not closed properly. If it is its quoted address that is never closed,
  nothing but its parenthesis is found before the quote. -/
  | url {fault : Fault} {place : Nat} (isUrl : fault.kind.isUrl = true) (behind : offset ≤ place)
      (inside : place ≤ scan.source.length)
      (between : ∀ index marker, offset + 3 ≤ index → index < place →
        scan.markerAt? index = some marker → marker = .openParen) :
      Defect scan offset fault place (offset + 3)

/-- A reaction that goes on with the statement. -/
structure GoesOn (scan : Scan) (state : State) (offset : Nat) (outcome : Outcome) : Prop where
  tokens : outcome.tokens = []
  depth : outcome.state.blockDepth = state.blockDepth
  body : outcome.state.bodyStart = state.bodyStart
  statement : outcome.state.statementStart = state.statementStart
  reports :
    outcome.diagnostics = [] ∧ outcome.state.pendingError = state.pendingError ∨
      ∃ fault place, outcome.diagnostics = [.ofFault fault scan.source place] ∧
        outcome.state.pendingError = true ∧ Defect scan offset fault place outcome.state.cursor

theorem GoesOn.quiet {offset : Nat} {after : State}
    (depth : after.blockDepth = state.blockDepth) (body : after.bodyStart = state.bodyStart)
    (statement : after.statementStart = state.statementStart)
    (pending : after.pendingError = state.pendingError) :
    GoesOn scan state offset { state := after } :=
  ⟨rfl, depth, body, statement, .inl ⟨rfl, pending⟩⟩

/-! ## Urls -/

theorem foldCase_of_markerAt? {marker : Marker} {offset : Nat}
    (begins : scan.markerAt? offset = some marker) (index : Nat)
    (inside : index < marker.spelling.length) :
    scan.source[offset + index]?.map Marker.foldCase = marker.spelling[index]? :=
  Marker.foldCase_getElem?_of_occursHere (markerAt?_eq_some_iff.mp begins).2 inside

/-- Among the blanks that may stand before an address no marker is found. -/
theorem isBlank_of_markerAt? {marker : Marker} {offset : Nat}
    (begins : scan.markerAt? offset = some marker) :
    ∀ character ∈ scan.source[offset]?, Url.isBlank character = false := by
  intro character here
  have first := foldCase_of_markerAt? begins 0 (Marker.length_spelling_pos marker)
  have visible : ∀ marker ∈ Marker.active true, ∀ blank ∈ [' ', '\t', '\r', '\n'],
      some (Marker.foldCase blank) ≠ marker.spelling[0]? := by decide
  rw [Bool.eq_false_iff]
  intro blank
  refine visible marker (Marker.mem_active_true marker) character ?_ ?_
  · simpa [Url.isBlank, or_assoc] using blank
  · rw [← first, Nat.add_zero, here, Option.map_some]

/-- Nothing but a parenthesis is found where the one of a url stands. -/
theorem eq_openParen_of_markerAt? {marker : Marker} {offset : Nat}
    (isUrl : scan.markerAt? offset = some .url)
    (begins : scan.markerAt? (offset + 3) = some marker) : marker = .openParen := by
  have paren := foldCase_of_markerAt? isUrl 3 (by decide)
  have first := foldCase_of_markerAt? begins 0 (Marker.length_spelling_pos marker)
  have table : ∀ marker ∈ Marker.active true, marker.spelling[0]? = some '(' →
      marker = .openParen := by decide
  exact table marker (Marker.mem_active_true marker) (first.symm.trans paren)

theorem defect_of_findEnd {offset : Nat} {fault : Fault} {place : Int}
    (isUrl : scan.markerAt? offset = some .url)
    (fails : Url.findEnd scan.source offset = .error (fault, place)) :
    Defect scan offset fault place (offset + 3) := by
  have inside : offset + 4 ≤ scan.source.length := lt_length_of_markerAt? isUrl
  have here {fault : Fault} (isUrl : fault.kind.isUrl = true) :
      Defect scan offset fault offset (offset + 3) :=
    .url isUrl (Nat.le_refl _) (by omega) fun _ _ behind before _ => by omega
  have finds := Url.findsEnd scan.source offset
  rw [fails] at finds
  generalize content : scan.source.drop (offset + 4) = text at finds
  cases finds with
  | nothing _ => exact here rfl
  | badAddress _ _ stops =>
      rw [Url.eq_addressFault_of_unquotedEnd stops]
      refine here ?_
      unfold Url.addressFault
      split <;> rfl
  | openQuoted _ _ _ _ => exact here rfl
  | openString _ _ _ =>
      have short := (List.takeWhile_prefix Url.isBlank (l := text)).length_le
      rw [← content, List.length_drop, content] at short
      refine .url rfl (by omega) (by omega) fun index marker behind before begins => ?_
      rcases Nat.eq_or_lt_of_le behind with rfl | later
      · exact eq_openParen_of_markerAt? isUrl begins
      · -- Here stands one of the blanks in front of the quote.
        obtain ⟨distance, rfl⟩ := Nat.exists_eq_add_of_le (show offset + 4 ≤ index from later)
        have fits : distance < (text.takeWhile Url.isBlank).length := by omega
        have blank := List.all_eq_true.mp List.all_takeWhile _ (List.getElem_mem fits)
        have visible := isBlank_of_markerAt? begins (text.takeWhile Url.isBlank)[distance] (by
          rw [← List.getElem?_drop, content, (List.takeWhile_prefix Url.isBlank).getElem fits]
          exact List.getElem?_eq_getElem _)
        rw [blank] at visible
        cases visible

/-! ## Constructs -/

/-- Nothing is reported, or a fault is and the next statement has to be flagged. -/
theorem reportPending_cases (state : State) (fault : Fault) (offset : Int) :
    scan.reportPending state fault offset = { state } ∨
      scan.reportPending state fault offset =
        { state := { state with pendingError := true }
          diagnostics := [.ofFault fault scan.source offset] } := by
  cases ignores : scan.options.ignoreErrors <;> simp [reportPending, report, ignores]

theorem goesOn_readString (quote : Quote) (offset : Nat) :
    GoesOn scan state offset (scan.readString quote state offset) := by
  unfold readString
  dsimp only
  split
  · exact .quiet rfl rfl rfl rfl
  · split
    · exact .quiet rfl rfl rfl rfl
    · rcases scan.reportPending_cases (scan.takeText state offset) (.openString quote) offset with
        silent | reports
      · rw [silent]
        exact .quiet rfl rfl rfl rfl
      · rw [reports]
        exact ⟨rfl, rfl, rfl, rfl, .inr ⟨_, _, rfl, rfl, .unclosed rfl⟩⟩

theorem goesOn_skipComment (offset : Nat) :
    GoesOn scan state offset (scan.skipComment state offset) := by
  unfold skipComment
  dsimp only
  split
  · exact .quiet rfl rfl rfl rfl
  · rcases scan.reportPending_cases (state.addText scan.source offset) .openComment offset with
      silent | reports
    · rw [silent]
      exact .quiet rfl rfl rfl rfl
    · rw [reports]
      exact ⟨rfl, rfl, rfl, rfl, .inr ⟨_, _, rfl, rfl, .unclosed rfl⟩⟩

theorem goesOn_readUrl {offset : Nat} (begins : scan.markerAt? offset = some .url) :
    GoesOn scan state offset (scan.readUrl state offset) := by
  unfold readUrl
  dsimp only
  split
  · exact .quiet rfl rfl rfl rfl
  next fault place fails =>
    rcases scan.reportPending_cases
      ((scan.takeText state offset).takeWord scan.source .text (offset + 3)) fault place with
      silent | reports
    · rw [silent]
      exact .quiet rfl rfl rfl rfl
    · rw [reports]
      exact ⟨rfl, rfl, rfl, rfl, .inr ⟨_, _, rfl, rfl, defect_of_findEnd begins fails⟩⟩

/-- A reaction goes on with the statement, or it is a boundary outside of nested
constructs. -/
theorem react_cases (state : State) {marker : Marker} {offset : Nat}
    (begins : scan.markerAt? offset = some marker) :
    GoesOn scan state offset (scan.react marker state offset) ∨ marker = .openBrace ∨
      marker = .semicolon ∧ ¬0 < state.calls.depth ∨
      marker = .closeBrace ∧ ¬0 < state.interpolations.depth := by
  have collapsed (kind : WordKind) (nest : Nest) :
      let after := scan.collapseOutermost state offset kind nest
      after.blockDepth = state.blockDepth ∧ after.bodyStart = state.bodyStart ∧
        after.statementStart = state.statementStart ∧ after.pendingError = state.pendingError := by
    unfold collapseOutermost
    split <;> exact ⟨rfl, rfl, rfl, rfl⟩
  have quiet {after : State} (same : after.blockDepth = state.blockDepth ∧
      after.bodyStart = state.bodyStart ∧ after.statementStart = state.statementStart ∧
      after.pendingError = state.pendingError) :
      GoesOn scan state offset { state := after } :=
    .quiet same.1 same.2.1 same.2.2.1 same.2.2.2
  cases marker with
  | quote quote => exact .inl (goesOn_readString quote offset)
  | comment => exact .inl (goesOn_skipComment offset)
  | openBrace => exact .inr (.inl rfl)
  | closeBrace =>
      by_cases nested : 0 < state.interpolations.depth
      · rw [react, closeBrace, if_pos nested]
        exact .inl (quiet (collapsed .interpolation state.interpolations))
      · exact .inr (.inr (.inr ⟨rfl, nested⟩))
  | semicolon =>
      by_cases nested : 0 < state.calls.depth
      · rw [react, endStatement_inside _ _ _ nested]
        exact .inl (.quiet rfl rfl rfl rfl)
      · exact .inr (.inr (.inl ⟨rfl, nested⟩))
  | url => exact .inl (goesOn_readUrl begins)
  | backslash => exact .inl (.quiet rfl rfl rfl rfl)
  | openParen => exact .inl (.quiet rfl rfl rfl rfl)
  | closeParen => exact .inl (quiet (collapsed .call state.calls))
  | lineComment => exact .inl (.quiet rfl rfl rfl rfl)
  | atInterpolation => exact .inl (.quiet rfl rfl rfl rfl)
  | hashInterpolation => exact .inl (.quiet rfl rfl rfl rfl)

section Boundaries

variable {marker : Marker} {offset : Nat} (begins : scan.markerAt? offset = some marker)

include begins

/-- Between two boundaries a reaction goes on with the statement. -/
theorem goesOn_react (within : ¬state.Breaks marker) :
    GoesOn scan state offset (scan.react marker state offset) :=
  (react_cases state begins).resolve_right within

/-- Between two boundaries the words grow by what a reaction keeps. -/
theorem joined_react {cursor stop : Nat} (place : state.cursor = cursor) (reached : cursor ≤ offset)
    (landing : (scan.react marker state offset).state.cursor = stop)
    (within : ¬state.Breaks marker) :
    Word.joined (scan.react marker state offset).state.words =
      Word.joined state.words ++ scan.source.slice cursor (keptUpTo marker offset stop : Nat) := by
  have held := output_react place reached begins landing within
  rwa [Outcome.output, (goesOn_react begins within).tokens, List.flatMap_nil,
    List.nil_append] at held

/-- Behind a boundary a statement begins, and no word has been read of it. -/
theorem fresh_react (breaks : state.Breaks marker) :
    let after := (scan.react marker state offset).state
    after.words = [] ∧ after.cursor = offset + 1 ∧ after.statementStart = offset + 1 ∧
      (after.bodyStart = state.bodyStart ∨ after.bodyStart = offset + 1) := by
  rcases breaks with rfl | ⟨rfl, outside⟩ | ⟨rfl, outside⟩
  · exact ⟨rfl, rfl, rfl, .inr rfl⟩
  · rw [react, endStatement_state _ _ _ outside]
    exact ⟨rfl, rfl, rfl, .inl (by split <;> rfl)⟩
  · rw [react, closeBrace, if_neg outside, closeBlock_state]
    exact ⟨rfl, rfl, rfl, .inr rfl⟩

end Boundaries

/-! ## Emitted tokens -/

/-- What a token may be that is emitted up to an offset: the words of a statement, a stretch
of the source, or the beginning or the end of a block. -/
inductive EmittedAt (scan : Scan) (state : State) (offset : Nat) (token : Token) : Prop
  | words (splits : scan.options.splitRules = true) {terminator : Text}
      (isTerminator : terminator = [] ∨ terminator = [';'])
      (member : token ∈ (scan.emitWords (state.addText scan.source offset) terminator).tokens)
  | stretch (whole : scan.options.splitRules = false) {start stop : Int}
      (member : token ∈ (scan.emitSource state start stop).tokens)
  | opening (same : token = .openingOf (state.addText scan.source offset).words)
  | closing (same : token = .closing offset)

theorem emittedAt_of_mem_emitUpTo {offset : Nat} {token : Token}
    (member : token ∈ (scan.emitUpTo state offset).tokens) : EmittedAt scan state offset token := by
  cases splits : scan.options.splitRules with
  | true =>
      rw [emitUpTo_of_splits _ _ splits] at member
      exact .words splits (Or.inl rfl) member
  | false =>
      rw [emitUpTo_of_whole _ _ splits] at member
      exact .stretch splits member

theorem emittedAt_of_mem_react {marker : Marker} {offset : Nat}
    (begins : scan.markerAt? offset = some marker) {token : Token}
    (member : token ∈ (scan.react marker state offset).tokens) :
    EmittedAt scan state offset token := by
  rcases react_cases state begins with goesOn | rfl | ⟨rfl, outside⟩ | ⟨rfl, outside⟩
  · rw [goesOn.tokens] at member
    cases member
  · rw [react, tokens_openBlock] at member
    rcases List.mem_append.mp member with ahead | opened
    · rw [emitAhead, Outcome.onlyIf] at ahead
      split at ahead
      next whole =>
        rw [Bool.and_eq_true, Bool.not_eq_true'] at whole
        exact .stretch whole.1 ahead
      next => cases ahead
    · exact .opening (List.mem_singleton.mp opened)
  · rw [react, endStatement_outside _ _ _ outside] at member
    cases splits : scan.options.splitRules with
    | true =>
        rw [emitEnded_of_splits _ _ splits] at member
        exact .words splits (Or.inr rfl) member
    | false =>
        rw [emitEnded_of_whole _ _ splits] at member
        cases member
  · rw [react, closeBrace, if_neg outside, tokens_closeBlock] at member
    rcases List.mem_append.mp member with ahead | closed
    · exact emittedAt_of_mem_emitUpTo ahead
    · exact .closing (List.mem_singleton.mp closed)

theorem emittedAt_of_step {before after : List Step} {step : Step}
    (split : scan.steps = before ++ step :: after) :
    ∀ token ∈ step.outcome.tokens, EmittedAt scan (stateAfter {} before) step.offset token := by
  intro token member
  rcases step_cases split with ⟨-, offset, outcome⟩ | ⟨marker, -, begins, outcome⟩
  · rw [outcome, tokens_endSource] at member
    rw [offset]
    exact emittedAt_of_mem_emitUpTo member
  · rw [outcome] at member
    exact emittedAt_of_mem_react begins member

/-! ## Faults of a statement -/

/-- What may be reported of the statement that is being read: nothing, or that it is
malformed, if it does not have to be flagged. -/
def OfStatement (scan : Scan) (state : State) (diagnostics : List Diagnostic) : Prop :=
  diagnostics = [] ∨ diagnostics = [.ofFault .invalidRule scan.source state.statementStart] ∧
    scan.options.splitRules = true ∧ state.pendingError = false

section Strict

variable (strict : scan.options.ignoreErrors = false)

include strict

theorem reportSettled_of_strict (fault : Fault) (offset : Int) :
    scan.reportSettled state fault offset =
      { state, diagnostics := [.ofFault fault scan.source offset] } := by
  simp [reportSettled, report, strict]

theorem ofStatement_emitWords (anchored : state.Anchored) (splits : scan.options.splitRules = true)
    (stop : Int) (terminator : Text) :
    OfStatement scan state
      (scan.emitWords (state.addText scan.source stop) terminator).diagnostics := by
  rw [emitWords_eq_emitted, if_neg (by simp [strict])]
  dsimp only
  unfold wordReports
  split
  next malformed =>
    refine .inr ⟨?_, splits, ?_⟩
    · rw [State.wordsOffset_addText, anchored.starts]
    · simp only [isFaulty, Bool.and_eq_true, Bool.not_eq_true', Bool.or_eq_false_iff] at malformed
      exact malformed.2.1
  next => exact .inl rfl

theorem ofStatement_emitUpTo (anchored : state.Anchored) (stop : Int) :
    OfStatement scan state (scan.emitUpTo state stop).diagnostics := by
  cases splits : scan.options.splitRules with
  | true =>
      rw [emitUpTo_of_splits _ _ splits]
      exact ofStatement_emitWords strict anchored splits stop []
  | false =>
      rw [emitUpTo_of_whole _ _ splits, emitSource_eq_emitted]
      exact .inl rfl

theorem ofStatement_endStatement (anchored : state.Anchored) (outside : ¬0 < state.calls.depth)
    (offset : Int) : OfStatement scan state (scan.endStatement state offset).diagnostics := by
  rw [endStatement_outside _ _ _ outside]
  cases splits : scan.options.splitRules with
  | true =>
      rw [emitEnded_of_splits _ _ splits]
      exact ofStatement_emitWords strict anchored splits offset [';']
  | false =>
      rw [emitEnded_of_whole _ _ splits]
      exact .inl rfl

theorem diagnostics_closeBlock (offset : Int) :
    (scan.closeBlock state offset).diagnostics =
      (scan.emitUpTo state offset).diagnostics ++
        if state.blockDepth = 0 then [.ofFault .unexpectedBlockEnd scan.source offset] else [] := by
  have depth : (scan.emitUpTo state offset).state.blockDepth = state.blockDepth := by
    rw [emitUpTo_state]
    split <;> rfl
  simp only [closeBlock, Outcome.mapState, Outcome.andThen, Outcome.onlyIf, depth,
    reportSettled_of_strict strict, List.append_nil, beq_iff_eq]
  split <;> rfl

theorem diagnostics_endSource :
    (scan.endSource state).diagnostics =
      (if 0 < state.blockDepth then [.ofFault .missingBlockEnd scan.source scan.source.length]
        else []) ++ (scan.emitUpTo state scan.source.length).diagnostics := by
  simp only [endSource, Outcome.mapState, Outcome.andThen, Outcome.onlyIf,
    reportSettled_of_strict strict, decide_eq_true_eq]
  split <;> rfl

end Strict

end Scan
end Stylesheet
