import Stylesheet.Proofs.Literal.Url
import Stylesheet.Scan.Steps

/-!
# Where a reaction leaves the cursor

Reporting and emitting leave the words and the cursor alone. Every reaction either
leaves the cursor where it is, which happens inside nested constructs only, or puts
it at a place that the marker and the source behind it determine.
-/

namespace Stylesheet
namespace Scan

variable (scan : Scan) (state : State)

/-! ## Reporting and emitting -/

@[simp] theorem reportSettled_state (fault : Fault) (offset : Int) :
    (scan.reportSettled state fault offset).state = state := by
  unfold reportSettled report
  split
  · rfl
  · simp

theorem reportPending_state (fault : Fault) (offset : Int) :
    (scan.reportPending state fault offset).state =
      { state with
        pendingError := state.pendingError || !scan.options.ignoreErrors } := by
  unfold reportPending report
  split
  next ignores => simp [ignores]
  next reports => simp [reports]

@[simp] theorem reportPending_cursor (fault : Fault) (offset : Int) :
    (scan.reportPending state fault offset).state.cursor = state.cursor := by
  rw [reportPending_state]

@[simp] theorem emitWords_state (terminator : Text) :
    (scan.emitWords state terminator).state = state := by
  unfold emitWords
  split
  · rfl
  · split
    · rfl
    · dsimp only
      split
      · rfl
      · simp only [Outcome.andThen, Outcome.onlyIf]
        split
        · exact reportSettled_state ..
        · rfl

/-! ## Boundaries -/

theorem endStatement_state (offset : Int) (outside : ¬0 < state.calls.depth) :
    (scan.endStatement state offset).state =
      (if scan.options.splitRules then state.settle else state).beginStatement
        (offset + 1) := by
  rw [endStatement, if_neg outside]
  cases scan.options.splitRules <;>
    simp [Outcome.onlyIf, Outcome.mapState, State.addText, State.settle,
      State.beginStatement, State.forgetWords]

theorem endStatement_inside (offset : Int) (inside : 0 < state.calls.depth) :
    scan.endStatement state offset = { state } := by
  rw [endStatement, if_pos inside]

theorem collapse_cursor (source : Text) (offset : Int) (kind : WordKind)
    (mark : Option Int) : (state.collapse source offset kind mark).cursor = offset + 1 := rfl

theorem collapseOutermost_cursor (offset : Int) (kind : WordKind) (nest : Nest) :
    (scan.collapseOutermost state offset kind nest).cursor =
      if nest.depth = 1 then offset + 1 else state.cursor := by
  unfold collapseOutermost
  split <;> rfl

/-! ## Landings -/

/-- Where the cursor can be after the reaction to a marker. -/
inductive Landed (scan : Scan) (state : State) (offset : Nat) : Marker → Int → Prop
  /-- A boundary or an end inside a nested construct. -/
  | unmoved {marker : Marker}
      (nested : marker = .semicolon ∨ marker = .closeParen ∨ marker = .closeBrace) :
      Landed scan state offset marker state.cursor
  /-- The parenthesis that opens a call belongs to the call. -/
  | atParen : Landed scan state offset .openParen offset
  /-- A marker that is one character. -/
  | behindOne {marker : Marker} (single : marker.spelling.length = 1) :
      Landed scan state offset marker (offset + 1 : Nat)
  | behindEscape :
      Landed scan state offset .backslash (min (offset + 2) scan.source.length : Nat)
  | behindLetters : Landed scan state offset .url (offset + 3 : Nat)
  | behindUrl {count : Nat}
      (reached : Url.reach? (scan.source.drop offset) = some count) :
      Landed scan state offset .url (offset + count : Nat)
  | behindString {quote : Quote} {count : Nat}
      (reached : Quoted.reach? quote.character (scan.source.drop (offset + 1)) = some count) :
      Landed scan state offset (.quote quote) (offset + 1 + count : Nat)
  | behindComment {stop : Nat}
      (found : Text.findFrom? ['*', '/'] scan.source (offset + 2 : Nat) = some stop) :
      Landed scan state offset .comment (stop + 2 : Nat)
  | behindLine : Landed scan state offset .lineComment (scan.lineEnd (offset + 2 : Nat))
  | behindInterpolation {marker : Marker}
      (opens : marker = .atInterpolation ∨ marker = .hashInterpolation) :
      Landed scan state offset marker (offset + 2 : Nat)
  /-- A comment or a string that is never closed. -/
  | atEnd {marker : Marker} (unclosed : marker = .comment ∨ ∃ quote, marker = .quote quote) :
      Landed scan state offset marker scan.source.length

/-- Every reaction lands at one of these places. -/
theorem landed_react (marker : Marker) (offset : Nat) :
    Landed scan state offset marker (scan.react marker state offset).state.cursor := by
  cases marker with
  | quote quote =>
      simp only [react, readString]
      cases ends : Quoted.end? scan.source quote.character offset with
      | some stop =>
          rw [Quoted.end?_natCast (Url.character_ne_backslash quote)] at ends
          obtain ⟨count, reached, rfl⟩ := Option.map_eq_some_iff.mp ends
          exact .behindString reached
      | none =>
          dsimp only
          split
          · exact .behindOne rfl
          · exact .atEnd (Or.inr ⟨quote, rfl⟩)
  | comment =>
      have position : ((offset : Int) + 2) = ((offset + 2 : Nat) : Int) := rfl
      simp only [react, skipComment, position]
      cases found : Text.findFrom? ['*', '/'] scan.source (offset + 2 : Nat) with
      | some stop => exact .behindComment found
      | none => exact .atEnd (Or.inl rfl)
  | openBrace => exact .behindOne rfl
  | closeBrace =>
      simp only [react, closeBrace]
      split
      · simp only [closeInterpolation, collapseOutermost_cursor]
        split
        · exact .behindOne rfl
        · exact .unmoved (by simp)
      · exact .behindOne rfl
  | semicolon =>
      by_cases inside : 0 < state.calls.depth
      · rw [react, endStatement_inside scan state offset inside]
        exact .unmoved (by simp)
      · rw [react, endStatement_state scan state offset inside]
        exact .behindOne rfl
  | url =>
      simp only [react, readUrl]
      cases ends : Url.findEnd scan.source offset with
      | ok stop =>
          obtain ⟨count, reached, rfl⟩ := Url.findEnd_eq_ok_iff.mp ends
          exact .behindUrl reached
      | error fault =>
          simp only [reportPending_cursor]
          exact .behindLetters
  | backslash =>
      have position : min ((offset : Int) + 2) (scan.source.length : Int) =
          ((min (offset + 2) scan.source.length : Nat) : Int) := by omega
      simp only [react, readEscape, State.takeWord, position]
      exact .behindEscape
  | openParen => exact .atParen
  | closeParen =>
      simp only [react, closeCall, collapseOutermost_cursor]
      split
      · exact .behindOne rfl
      · exact .unmoved (by simp)
  | lineComment => exact .behindLine
  | atInterpolation => exact .behindInterpolation (Or.inl rfl)
  | hashInterpolation => exact .behindInterpolation (Or.inr rfl)

end Scan
end Stylesheet
