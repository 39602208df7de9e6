import Stylesheet.Proofs.Scan.Emitted

/-!
# Where a statement begins

The first word of a statement begins where the statement does; while there is no word, the
cursor still stands there. So what the words of a statement become, and what is reported of
them, bears the offset behind the last boundary, which no later statement has.
-/

namespace Stylesheet
namespace Scan

/-! ## Words -/

namespace State

/-- The offset where the words begin, or where they will begin. -/
def wordsStart (state : State) : Int :=
  (state.words.head?.map (·.offset)).getD state.cursor

/-- The statement that is being read begins where its words do. -/
structure Anchored (state : State) : Prop where
  starts : state.wordsStart = state.statementStart
  reached : state.statementStart ≤ state.cursor

variable {state : State}

theorem wordsStart_of_words {after : State} {word : Word} {more : List Word}
    (grown : after.words = state.words ++ word :: more) (here : word.offset = state.cursor) :
    after.wordsStart = state.wordsStart := by
  rw [wordsStart, wordsStart, grown]
  cases state.words with
  | nil => exact here
  | cons first others => rfl

theorem wordsOffset_addText (source : Text) (stop : Int) :
    wordsOffset (state.addText source stop).words = state.wordsStart := by
  rw [addText, wordsOffset, wordsStart]
  cases state.words <;> rfl

/-- Words that are merged begin where they began before. -/
theorem wordsStart_collapse (source : Text) (offset : Int) (kind : WordKind)
    (mark : Option Int) :
    (state.collapse source offset kind mark).wordsStart = state.wordsStart := by
  rw [← @wordsOffset_addText state source (offset + 1), wordsStart, collapse_words, wordsOffset]
  cases words : (state.addText source (offset + 1)).words with
  | nil => simp [addText] at words
  | cons first others => cases (state.kept? mark).getD 0 <;> rfl

end State

variable {scan : Scan} {state : State}

theorem wordsStart_collapseOutermost (offset : Int) (kind : WordKind) (nest : Nest) :
    (scan.collapseOutermost state offset kind nest).wordsStart = state.wordsStart ∧
      (scan.collapseOutermost state offset kind nest).statementStart = state.statementStart := by
  unfold collapseOutermost
  split
  · exact ⟨State.wordsStart_collapse .., rfl⟩
  · exact ⟨rfl, rfl⟩

/-- A reaction goes on with the statement, or begins another behind the marker. -/
theorem begins_react {marker : Marker} {offset : Nat}
    (begins : scan.markerAt? offset = some marker) :
    let after := (scan.react marker state offset).state
    after.wordsStart = state.wordsStart ∧ after.statementStart = state.statementStart ∨
      after.words = [] ∧ after.cursor = (offset + 1 : Nat) ∧
        after.statementStart = (offset + 1 : Nat) := by
  have inside := Nat.le_of_add_right_le (lt_length_of_markerAt? begins)
  have grown {after : State} {word : Word} {more : List Word}
      (words : after.words = state.words ++ word :: more) (here : word.offset = state.cursor)
      (same : after.statementStart = state.statementStart) :
      after.wordsStart = state.wordsStart ∧ after.statementStart = state.statementStart :=
    ⟨State.wordsStart_of_words words here, same⟩
  cases marker with
  | quote quote =>
      rw [react, (scan.readString_eq state quote inside).1]
      exact .inl (grown (List.append_assoc ..) rfl rfl)
  | comment =>
      rw [react, (scan.skipComment_eq state inside).1]
      exact .inl (grown rfl rfl rfl)
  | openBrace => exact .inr ⟨rfl, rfl, rfl⟩
  | closeBrace =>
      simp only [react, closeBrace]
      split
      · exact .inl (wordsStart_collapseOutermost ..)
      · rw [closeBlock_state]
        exact .inr ⟨rfl, rfl, rfl⟩
  | semicolon =>
      by_cases nested : 0 < state.calls.depth
      · rw [react, endStatement_inside scan state offset nested]
        exact .inl ⟨rfl, rfl⟩
      · rw [react, endStatement_state scan state offset nested]
        exact .inr ⟨rfl, rfl, rfl⟩
  | url =>
      rw [react, (scan.readUrl_eq state offset).1]
      exact .inl (grown (List.append_assoc ..) rfl rfl)
  | backslash => exact .inl (grown rfl rfl rfl)
  | openParen => exact .inl (grown rfl rfl rfl)
  | closeParen => exact .inl (wordsStart_collapseOutermost ..)
  | lineComment => exact .inl (grown rfl rfl rfl)
  | atInterpolation => exact .inl (grown rfl rfl rfl)
  | hashInterpolation => exact .inl (grown rfl rfl rfl)

theorem State.Anchored.react (anchored : state.Anchored) {marker : Marker} {offset : Nat}
    (begins : scan.markerAt? offset = some marker) (reached : state.cursor ≤ offset) :
    (scan.react marker state offset).state.Anchored := by
  rcases @begins_react scan state _ _ begins with ⟨starts, same⟩ | ⟨words, cursor, starts⟩
  · refine ⟨starts.trans (anchored.starts.trans same.symm), ?_⟩
    rw [same]
    exact Int.le_trans anchored.reached (cursor_le_react begins reached)
  · refine ⟨?_, Int.le_of_eq (starts.trans cursor.symm)⟩
    rw [State.wordsStart, words, starts, ← cursor]
    rfl

/-- The statement that is being read begins no earlier than the one before. -/
theorem State.Anchored.statementStart_le (anchored : state.Anchored) {marker : Marker}
    {offset : Nat} (begins : scan.markerAt? offset = some marker)
    (reached : state.cursor ≤ offset) :
    state.statementStart ≤ (scan.react marker state offset).state.statementStart := by
  rcases @begins_react scan state _ _ begins with ⟨-, same⟩ | ⟨-, -, starts⟩
  · exact Int.le_of_eq same.symm
  · have := anchored.reached
    omega

theorem State.Anchored.start : State.Anchored {} :=
  ⟨rfl, Int.le_refl 0⟩

/-! ## Statements and their faults -/

namespace Outcome

/-- Neither is a statement emitted nor a fault of one reported. -/
structure Calm (outcome : Outcome) : Prop where
  tokens : ∀ token ∈ outcome.tokens, token.isBoundary = true
  faults : ∀ diagnostic ∈ outcome.diagnostics, diagnostic.kind ≠ .invalidRule

/-- Statements are emitted, and their faults reported, within certain offsets only. -/
structure Settles (outcome : Outcome) (within : Int → Prop) : Prop where
  tokens : ∀ token ∈ outcome.tokens, token.isBoundary = false →
    ∃ place, within place ∧ token.offset? = some place
  faults : ∀ diagnostic ∈ outcome.diagnostics, diagnostic.kind = .invalidRule →
    ∃ place, within place ∧ diagnostic.offset = some place

variable {outcome : Outcome} {within wider : Int → Prop}

theorem Calm.silent (state : State) : Calm { state } :=
  ⟨by simp, by simp⟩

theorem Calm.boundary {token : Token} (isBoundary : token.isBoundary = true) (state : State) :
    Calm { state, tokens := [token] } :=
  ⟨by simpa using isBoundary, by simp⟩

theorem Calm.settles (calm : outcome.Calm) (within : Int → Prop) : outcome.Settles within where
  tokens token member noBoundary := by
    rw [calm.tokens token member] at noBoundary
    cases noBoundary
  faults diagnostic member isRule := absurd isRule (calm.faults diagnostic member)

theorem Calm.andThen {next : State → Outcome} (before : outcome.Calm)
    (behind : (next outcome.state).Calm) : (outcome.andThen next).Calm where
  tokens token member := by
    rcases List.mem_append.mp member with here | later
    · exact before.tokens token here
    · exact behind.tokens token later
  faults diagnostic member := by
    rcases List.mem_append.mp member with here | later
    · exact before.faults diagnostic here
    · exact behind.faults diagnostic later

theorem Settles.mono (settles : outcome.Settles within)
    (widens : ∀ place, within place → wider place) : outcome.Settles wider where
  tokens token member noBoundary := by
    obtain ⟨place, inside, here⟩ := settles.tokens token member noBoundary
    exact ⟨place, widens place inside, here⟩
  faults diagnostic member isRule := by
    obtain ⟨place, inside, here⟩ := settles.faults diagnostic member isRule
    exact ⟨place, widens place inside, here⟩

theorem Settles.andThen {next : State → Outcome} (before : outcome.Settles within)
    (behind : (next outcome.state).Settles within) : (outcome.andThen next).Settles within where
  tokens token member := by
    rcases List.mem_append.mp member with here | later
    · exact before.tokens token here
    · exact behind.tokens token later
  faults diagnostic member := by
    rcases List.mem_append.mp member with here | later
    · exact before.faults diagnostic here
    · exact behind.faults diagnostic later

theorem Settles.mapState (settles : outcome.Settles within) (change : State → State) :
    (outcome.mapState change).Settles within :=
  ⟨settles.tokens, settles.faults⟩

end Outcome

theorem fault_glimpse_ne (options : TokenizeOptions) (marker : Marker) (text : Text) :
    (glimpse options marker text).fault ≠ some .invalidRule := by
  cases marker with
  | quote quote =>
      unfold glimpse
      dsimp only
      split <;> simp
  | comment =>
      unfold glimpse
      dsimp only
      split <;> simp
  | url =>
      unfold glimpse
      dsimp only
      split
      · simp
      · exact fun same => Url.kind_contentFault_ne _ (Option.some.inj same)
  | _ => simp [glimpse]

/-- What is reported of a construct is no fault of a statement. -/
theorem calm_of_reported {outcome : Outcome} {options : TokenizeOptions} {fault : Option FaultKind}
    (noTokens : outcome.tokens = []) (kinds : outcome.kinds = reported options fault)
    (noRule : fault ≠ some .invalidRule) : outcome.Calm where
  tokens := by simp [noTokens]
  faults diagnostic member isRule := by
    have isReported : FaultKind.invalidRule ∈ reported options fault := by
      rw [← kinds, ← isRule]
      exact List.mem_map_of_mem member
    unfold reported at isReported
    split at isReported
    · cases isReported
    · exact noRule (Option.mem_toList.mp isReported)

theorem calm_onlyIf_reportSettled (fault : Fault) (noRule : fault.kind ≠ .invalidRule)
    (needed : Bool) (offset : Int) :
    (Outcome.onlyIf needed state fun state => scan.reportSettled state fault offset).Calm where
  tokens := by simp
  faults diagnostic member := by
    cases needed with
    | false => cases member
    | true =>
        simp only [Outcome.onlyIf, if_true, reportSettled, report] at member
        split at member
        · cases member
        · obtain rfl := List.mem_singleton.mp member
          exact noRule

/-- The words of a statement are settled where they begin. -/
theorem settles_emitWords (scan : Scan) (state : State) (terminator : Text) :
    (scan.emitWords state terminator).Settles (· = wordsOffset state.words) := by
  rw [emitWords_eq_emitted]
  constructor
  · intro token member _
    refine ⟨_, rfl, ?_⟩
    dsimp only at member
    unfold wordTokens at member
    split at member
    · obtain rfl := List.mem_singleton.mp member
      rfl
    · split at member
      · cases member
      · obtain rfl := List.mem_singleton.mp member
        rfl
  · intro diagnostic member _
    refine ⟨_, rfl, ?_⟩
    dsimp only at member
    unfold wordReports at member
    split at member
    · cases member
    · split at member
      · obtain rfl := List.mem_singleton.mp member
        rfl
      · cases member

section Splitting

variable (splits : scan.options.splitRules = true)

include splits

theorem settles_emitUpTo (anchored : state.Anchored) (stop : Int) :
    (scan.emitUpTo state stop).Settles (· = state.statementStart) := by
  rw [emitUpTo_of_splits _ _ splits]
  have settles := settles_emitWords scan (state.addText scan.source stop) []
  rw [State.wordsOffset_addText, anchored.starts] at settles
  exact settles.mapState _

theorem settles_endStatement (anchored : state.Anchored) (offset : Int) :
    (scan.endStatement state offset).Settles (· = state.statementStart) := by
  by_cases nested : 0 < state.calls.depth
  · rw [endStatement_inside _ _ _ nested]
    exact (Outcome.Calm.silent state).settles _
  · have settles := settles_emitWords scan (state.addText scan.source offset) [';']
    rw [State.wordsOffset_addText, anchored.starts] at settles
    rw [endStatement_outside _ _ _ nested, emitEnded_of_splits _ _ splits]
    exact (settles.mapState _).mapState _

theorem settles_closeBlock (anchored : state.Anchored) (offset : Int) :
    (scan.closeBlock state offset).Settles (· = state.statementStart) := by
  rw [closeBlock]
  refine Outcome.Settles.mapState (.andThen (.andThen (settles_emitUpTo splits anchored offset)
    ((Outcome.Calm.boundary rfl _).settles _)) ?_) _
  exact (calm_onlyIf_reportSettled .unexpectedBlockEnd (by decide) _ _).settles _

theorem settles_endSource (anchored : state.Anchored) :
    (scan.endSource state).Settles (· = state.statementStart) := by
  rw [endSource]
  refine Outcome.Settles.mapState
    (.andThen ((calm_onlyIf_reportSettled .missingBlockEnd (by decide) _ _).settles _) ?_) _
  rw [onlyIf_reportSettled_state]
  exact settles_emitUpTo splits anchored _

/-- A reaction that settles a statement begins another one further on. -/
theorem settles_react (anchored : state.Anchored) {marker : Marker} {offset : Nat}
    (begins : scan.markerAt? offset = some marker) (reached : state.cursor ≤ offset) :
    let outcome := scan.react marker state offset
    outcome.Calm ∨ outcome.Settles (· = state.statementStart) ∧
      state.statementStart < outcome.state.statementStart := by
  have inside := Nat.le_of_add_right_le (lt_length_of_markerAt? begins)
  have further : state.statementStart < (offset + 1 : Nat) := by
    have := anchored.reached
    omega
  cases marker with
  | quote quote =>
      obtain ⟨-, tokens, kinds⟩ := scan.readString_eq state quote inside
      exact .inl (calm_of_reported tokens kinds (fault_glimpse_ne _ _ _))
  | comment =>
      obtain ⟨-, tokens, kinds⟩ := scan.skipComment_eq state inside
      exact .inl (calm_of_reported tokens kinds (fault_glimpse_ne _ _ _))
  | openBrace =>
      left
      rw [react, openBlock_of_splits splits]
      exact .boundary rfl _
  | closeBrace =>
      simp only [react, closeBrace]
      split
      · exact .inl (.silent _)
      · refine .inr ⟨settles_closeBlock splits anchored offset, ?_⟩
        rw [closeBlock_state]
        exact further
  | semicolon =>
      by_cases nested : 0 < state.calls.depth
      · rw [react, endStatement_inside _ _ _ nested]
        exact .inl (.silent _)
      · refine .inr ⟨settles_endStatement splits anchored offset, ?_⟩
        rw [react, endStatement_state _ _ _ nested]
        exact further
  | url =>
      obtain ⟨-, tokens, kinds⟩ := scan.readUrl_eq state offset
      exact .inl (calm_of_reported tokens kinds (fault_glimpse_ne _ _ _))
  | backslash => exact .inl (.silent _)
  | openParen => exact .inl (.silent _)
  | closeParen => exact .inl (.silent _)
  | lineComment => exact .inl (.silent _)
  | atInterpolation => exact .inl (.silent _)
  | hashInterpolation => exact .inl (.silent _)

/-- The statements from a state on are settled no earlier than the one that is being read. -/
theorem settles_course (anchored : state.Anchored) {entries : List (Marker × Nat)}
    (listed : ∀ entry ∈ entries, scan.markerAt? entry.2 = some entry.1) :
    ((scan.course state entries).andThen scan.endSource).Settles (state.statementStart ≤ ·) := by
  induction entries generalizing state with
  | nil =>
      rw [course, Outcome.silent_andThen]
      exact (settles_endSource splits anchored).mono fun _ => Int.le_of_eq ∘ Eq.symm
  | cons entry entries induction =>
      obtain ⟨marker, offset⟩ := entry
      have listedLater := fun entry member => listed entry (List.mem_cons_of_mem _ member)
      rw [course]
      split
      next => exact induction anchored listedLater
      next notConsumed =>
        have begins := listed _ List.mem_cons_self
        have reached := Int.not_lt.mp notConsumed
        have rest := induction (anchored.react begins reached) listedLater
        rw [Outcome.andThen_assoc]
        refine .andThen ?_ (rest.mono fun place => Int.le_trans ?_)
        · rcases settles_react splits anchored begins reached with calm | ⟨settles, -⟩
          · exact calm.settles _
          · exact settles.mono fun _ => Int.le_of_eq ∘ Eq.symm
        · exact anchored.statementStart_le begins reached

end Splitting

end Scan
end Stylesheet
