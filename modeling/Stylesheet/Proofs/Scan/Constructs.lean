import Stylesheet.Proofs.Scan.Emitted

/-!
# Nested constructs

Calls and interpolations are counted apart, each with a mark for the outermost one. A marker
enters or leaves one of them or none; a boundary loses the marks, and where a block is closed
no call stays open. So no count falls below zero, and a mark is kept only while something is
open.
-/

namespace Stylesheet
namespace Scan

/-- What a reaction makes of the calls and the interpolations. -/
inductive Turns (state : State) (marker : Marker) (after : State) : Prop
  | stays (calls : after.calls = state.calls)
      (interpolations : after.interpolations = state.interpolations)
  | entersCall (isParen : marker = .openParen) {index : Nat}
      (calls : after.calls = state.calls.enter index)
      (interpolations : after.interpolations = state.interpolations)
  | leavesCall (isParen : marker = .closeParen) (calls : after.calls = state.calls.leave)
      (interpolations : after.interpolations = state.interpolations)
  | entersInterpolation (opens : marker = .atInterpolation ∨ marker = .hashInterpolation)
      {index : Nat} (calls : after.calls = state.calls)
      (interpolations : after.interpolations = state.interpolations.enter index)
  | leavesInterpolation (nested : 0 < state.interpolations.depth)
      (calls : after.calls = state.calls)
      (interpolations : after.interpolations = state.interpolations.leave)
  /-- The end of a statement, or the beginning of a block. -/
  | losesMarks (calls : after.calls = state.calls.forgetMark)
      (interpolations : after.interpolations = state.interpolations.forgetMark)
  /-- The end of a block. -/
  | startsOver (calls : after.calls = {})
      (interpolations : after.interpolations = state.interpolations.forgetMark)

theorem collapseOutermost_nests (scan : Scan) (state : State) (offset : Int) (kind : WordKind)
    (nest : Nest) :
    (scan.collapseOutermost state offset kind nest).calls = state.calls ∧
      (scan.collapseOutermost state offset kind nest).interpolations = state.interpolations := by
  unfold collapseOutermost
  split <;> exact ⟨rfl, rfl⟩

theorem turns_react {scan : Scan} (state : State) {marker : Marker} {offset : Nat}
    (begins : scan.markerAt? offset = some marker) :
    Turns state marker (scan.react marker state offset).state := by
  have inside := Nat.le_of_add_right_le (lt_length_of_markerAt? begins)
  cases marker with
  | quote quote =>
      rw [react, (scan.readString_eq state quote inside).1]
      exact .stays rfl rfl
  | comment =>
      rw [react, (scan.skipComment_eq state inside).1]
      exact .stays rfl rfl
  | openBrace =>
      rw [react, openBlock_eq, Outcome.andThen]
      rcases scan.emitAhead_cases state with emits | silent
      · rw [emits, emitSource_state]
        split <;> exact .losesMarks rfl rfl
      · rw [silent]
        exact .losesMarks rfl rfl
  | closeBrace =>
      rw [react, closeBrace]
      split
      next nested =>
        exact .leavesInterpolation nested (scan.collapseOutermost_nests state ..).1 rfl
      next =>
        rw [closeBlock_state]
        exact .startsOver rfl rfl
  | semicolon =>
      by_cases nested : 0 < state.calls.depth
      · rw [react, endStatement_inside _ _ _ nested]
        exact .stays rfl rfl
      · rw [react, endStatement_state _ _ _ nested]
        split <;> exact .losesMarks rfl rfl
  | url =>
      rw [react, (scan.readUrl_eq state offset).1]
      exact .stays rfl rfl
  | backslash => exact .stays rfl rfl
  | openParen => exact .entersCall rfl rfl rfl
  | closeParen => exact .leavesCall rfl rfl (scan.collapseOutermost_nests state ..).2
  | lineComment => exact .stays rfl rfl
  | atInterpolation => exact .entersInterpolation (.inl rfl) rfl rfl
  | hashInterpolation => exact .entersInterpolation (.inr rfl) rfl rfl

namespace Nest

/-- The count is not negative, and there is a mark only if something is open. -/
structure Counted (nest : Nest) : Prop where
  nonneg : 0 ≤ nest.depth
  marked : nest.mark.isSome = true → 1 ≤ nest.depth

variable {nest : Nest}

theorem Counted.closed : Counted {} :=
  ⟨Int.le_refl 0, by simp⟩

theorem Counted.enter (counted : nest.Counted) (index : Nat) : (nest.enter index).Counted where
  nonneg := Int.le_add_one counted.nonneg
  marked _ := Int.le_add_of_nonneg_left counted.nonneg

theorem Counted.forgetMark (counted : nest.Counted) : nest.forgetMark.Counted :=
  ⟨counted.nonneg, by simp [Nest.forgetMark]⟩

/-- A mark that is still there is that of a construct around the one that is closed. -/
theorem Counted.leave (counted : nest.Counted) : nest.leave.Counted where
  nonneg := Int.le_max_right ..
  marked isMarked := by
    simp only [Nest.leave] at isMarked ⊢
    split at isMarked
    next => cases isMarked
    next notOutermost =>
      have open_ := counted.marked isMarked
      omega

end Nest

theorem Turns.counted {state after : State} {marker : Marker} (turns : Turns state marker after)
    (calls : state.calls.Counted) (interpolations : state.interpolations.Counted) :
    after.calls.Counted ∧ after.interpolations.Counted := by
  cases turns with
  | stays sameCalls sameInterpolations =>
      rw [sameCalls, sameInterpolations]
      exact ⟨calls, interpolations⟩
  | entersCall _ entered same =>
      rw [entered, same]
      exact ⟨calls.enter _, interpolations⟩
  | leavesCall _ left same =>
      rw [left, same]
      exact ⟨calls.leave, interpolations⟩
  | entersInterpolation _ same entered =>
      rw [same, entered]
      exact ⟨calls, interpolations.enter _⟩
  | leavesInterpolation _ same left =>
      rw [same, left]
      exact ⟨calls, interpolations.leave⟩
  | losesMarks callsLost interpolationsLost =>
      rw [callsLost, interpolationsLost]
      exact ⟨calls.forgetMark, interpolations.forgetMark⟩
  | startsOver none_ lost =>
      rw [none_, lost]
      exact ⟨.closed, interpolations.forgetMark⟩

end Scan
end Stylesheet
