import Stylesheet.Proofs.Scan.Abreast
import Stylesheet.Proofs.Scan.Regrouping

/-!
# What is emitted

The words of a statement become at most one token, and at most one fault is reported of
them. Both are read off the words, what kind of statement they are, and the flag for a
pending error. The end of a statement, the braces of a block and the end of the source emit
either words or a stretch of the source.
-/

namespace Stylesheet

/-- Whether a token begins or ends a block. -/
def Token.isBoundary : Token → Bool
  | opening _ _ => true
  | block _ _ _ => true
  | closing _ => true
  | _ => false

theorem Token.isClosing_of_no_boundary {tokens : List Token}
    (noBoundary : tokens.filter isBoundary = []) : ∀ token ∈ tokens, token.isClosing = false := by
  intro token member
  have inside := List.filter_eq_nil_iff.mp noBoundary token member
  cases token with
  | closing offset => exact absurd rfl inside
  | _ => rfl

namespace Scan

/-! ## Words -/

/-- The offset of the first word. -/
def wordsOffset (words : List Word) : Int :=
  (words.head?.map (·.offset)).getD 0

/-- Whether a statement has to be flagged. -/
def isFaulty (pendingError : Bool) (words : List Word) : Bool :=
  pendingError || words.any (·.error)

/-- The token that the words of a statement become. -/
def wordTokens (statement : Statement) (words : List Word) (pendingError : Bool)
    (terminator : Text) : List Token :=
  match statement with
  | .declaration content => [.rule content (wordsOffset words) pendingError]
  | _ =>
      if (Word.trimmed words).isEmpty then []
      else
        [.code (Word.trimmed words ++ terminator) (wordsOffset words) (isFaulty pendingError words)]

/-- What is reported of the words of a statement, if errors are not ignored. -/
def wordReports (source : Text) (statement : Statement) (words : List Word) (pendingError : Bool) :
    List Diagnostic :=
  if statement == .malformed && !(Word.trimmed words).isEmpty && !isFaulty pendingError words then
    [.ofFault .invalidRule source (wordsOffset words)]
  else []

theorem emitWords_eq_emitted (scan : Scan) (state : State) (terminator : Text) :
    let statement := scan.statementOf state.words
    scan.emitWords state terminator =
      { state
        tokens := wordTokens statement state.words state.pendingError terminator
        diagnostics :=
          if scan.options.ignoreErrors then []
          else wordReports scan.source statement state.words state.pendingError } := by
  have emitted (statement : Statement) (text : Text) (offset : Int) (faulty : Bool) :
      (if text.isEmpty then { state }
        else
          (Outcome.onlyIf (statement == .malformed && !faulty) state fun state =>
            scan.reportSettled state .invalidRule offset).andThen fun state =>
              { state, tokens := [.code (text ++ terminator) offset faulty] }) =
        { state
          tokens := if text.isEmpty then [] else [.code (text ++ terminator) offset faulty]
          diagnostics :=
            if scan.options.ignoreErrors then []
            else if statement == .malformed && !text.isEmpty && !faulty then
              [.ofFault .invalidRule scan.source offset]
            else [] : Outcome } := by
    simp only [Outcome.onlyIf, reportSettled, report, Outcome.andThen]
    cases text <;> cases faulty <;> cases statement <;> cases scan.options.ignoreErrors <;> simp
  rw [emitWords_eq]
  dsimp only
  cases scan.statementOf state.words with
  | declaration content => cases scan.options.ignoreErrors <;> rfl
  | standalone => exact emitted ..
  | malformed => exact emitted ..
  | incomplete => exact emitted ..

theorem filter_wordTokens (statement : Statement) (words : List Word) (pendingError : Bool)
    (terminator : Text) :
    (wordTokens statement words pendingError terminator).filter Token.isBoundary = [] := by
  unfold wordTokens
  split
  · rfl
  · split <;> rfl

/-! ## Stretches of the source -/

/-- The token that a stretch of the source becomes. -/
def stretchTokens (text : Text) (offset : Int) (pendingError : Bool) : List Token :=
  if text.isEmpty then [] else [.code text offset pendingError]

theorem emitSource_eq_emitted (scan : Scan) (state : State) (start stop : Int) :
    let text := (scan.source.slice start stop).trim
    scan.emitSource state start stop =
      { state := if text.isEmpty then state else state.settle
        tokens := stretchTokens text start state.pendingError } := by
  unfold emitSource stretchTokens
  dsimp only
  split <;> rfl

theorem of_mem_emitSource {scan : Scan} {state : State} {start stop : Int} {token : Token}
    (member : token ∈ (scan.emitSource state start stop).tokens) :
    (scan.source.slice start stop).trim ≠ [] ∧
      token = .code (scan.source.slice start stop).trim start state.pendingError := by
  rw [emitSource_eq_emitted] at member
  dsimp only [stretchTokens] at member
  split at member
  · cases member
  next visible => exact ⟨by simpa using visible, List.mem_singleton.mp member⟩

theorem filter_stretchTokens (text : Text) (offset : Int) (pendingError : Bool) :
    (stretchTokens text offset pendingError).filter Token.isBoundary = [] := by
  unfold stretchTokens
  split <;> rfl

/-! ## Boundaries -/

section Boundaries

variable (scan : Scan) (state : State)

/-- What the end of a statement emits. -/
def emitEnded (stop : Int) : Outcome :=
  Outcome.onlyIf scan.options.splitRules state fun state =>
    (scan.emitWords (state.addText scan.source stop) [';']).mapState State.settle

/-- What a block emits in front of its heading. -/
def emitAhead : Outcome :=
  Outcome.onlyIf (!scan.options.splitRules && state.bodyStart < state.statementStart) state
    fun state => scan.emitSource state state.bodyStart state.statementStart

theorem endStatement_outside (offset : Int) (outside : ¬0 < state.calls.depth) :
    scan.endStatement state offset =
      (scan.emitEnded state offset).mapState (·.beginStatement (offset + 1)) := by
  rw [endStatement, if_neg outside]
  rfl

theorem openBlock_eq (offset : Int) :
    scan.openBlock state offset =
      (scan.emitAhead state).andThen fun state =>
        { state := { state.beginBody (offset + 1) with blockDepth := state.blockDepth + 1 }
          tokens := [.openingOf (state.addText scan.source offset).words] } := rfl

theorem emitAhead_cases :
    scan.emitAhead state = scan.emitSource state state.bodyStart state.statementStart ∨
      scan.emitAhead state = { state } := by
  rw [emitAhead, Outcome.onlyIf]
  split
  · exact Or.inl rfl
  · exact Or.inr rfl

theorem tokens_openBlock (offset : Int) :
    (scan.openBlock state offset).tokens =
      (scan.emitAhead state).tokens ++ [.openingOf (state.addText scan.source offset).words] := by
  have sameWords : ((scan.emitAhead state).state.addText scan.source offset).words =
      (state.addText scan.source offset).words := by
    rcases scan.emitAhead_cases state with emits | silent
    · rw [emits]
      exact emitSource_addText_words ..
    · rw [silent]
  rw [openBlock_eq, Outcome.andThen, sameWords]

theorem diagnostics_openBlock (offset : Int) : (scan.openBlock state offset).diagnostics = [] := by
  rw [openBlock_eq, Outcome.andThen, List.append_nil]
  rcases scan.emitAhead_cases state with ahead | ahead
  · rw [ahead, emitSource_eq_emitted]
  · rw [ahead]

theorem emitEnded_of_splits (splits : scan.options.splitRules = true) (stop : Int) :
    scan.emitEnded state stop =
      (scan.emitWords (state.addText scan.source stop) [';']).mapState State.settle := by
  rw [emitEnded, splits]
  rfl

theorem emitEnded_of_whole (whole : scan.options.splitRules = false) (stop : Int) :
    scan.emitEnded state stop = { state } := by
  rw [emitEnded, whole]
  rfl

theorem emitAhead_of_splits (splits : scan.options.splitRules = true) :
    scan.emitAhead state = { state } := by
  rw [emitAhead, splits]
  rfl

theorem emitAhead_of_whole (whole : scan.options.splitRules = false) :
    scan.emitAhead state =
      Outcome.onlyIf (state.bodyStart < state.statementStart) state fun state =>
        scan.emitSource state state.bodyStart state.statementStart := by
  rw [emitAhead, whole]
  rfl

theorem emitUpTo_of_splits (splits : scan.options.splitRules = true) (stop : Int) :
    scan.emitUpTo state stop =
      (scan.emitWords (state.addText scan.source stop) []).mapState State.settle := by
  rw [emitUpTo, if_pos splits]

theorem emitUpTo_of_whole (whole : scan.options.splitRules = false) (stop : Int) :
    scan.emitUpTo state stop =
      (scan.emitSource state state.bodyStart stop).mapState State.settle := by
  rw [emitUpTo, if_neg (by simp [whole])]

/-! ### Statements hold no boundary -/

theorem filter_emitUpTo (stop : Int) :
    (scan.emitUpTo state stop).tokens.filter Token.isBoundary = [] := by
  cases splits : scan.options.splitRules with
  | true =>
      rw [emitUpTo_of_splits _ _ splits, emitWords_eq_emitted]
      exact filter_wordTokens ..
  | false =>
      rw [emitUpTo_of_whole _ _ splits, emitSource_eq_emitted]
      exact filter_stretchTokens ..

theorem filter_endStatement (outside : ¬0 < state.calls.depth) (offset : Int) :
    (scan.endStatement state offset).tokens.filter Token.isBoundary = [] := by
  rw [endStatement_outside _ _ _ outside]
  cases splits : scan.options.splitRules with
  | true =>
      rw [emitEnded_of_splits _ _ splits, emitWords_eq_emitted]
      exact filter_wordTokens ..
  | false =>
      rw [emitEnded_of_whole _ _ splits]
      rfl

theorem filter_emitAhead : (scan.emitAhead state).tokens.filter Token.isBoundary = [] := by
  rcases scan.emitAhead_cases state with emits | silent
  · rw [emits, emitSource_eq_emitted]
    exact filter_stretchTokens ..
  · rw [silent]
    rfl

end Boundaries

end Scan
end Stylesheet
