import Mathlib.Data.List.Induction
import Mathlib.Data.List.TakeWhile
import Stylesheet.Proofs.Scan.Reports
import Stylesheet.Proofs.Token.Errors

/-!
# Pending errors

When a comment, a string or a url is not closed properly, the next statement that is emitted
should carry an error flag. The flag is kept until a statement is emitted, but the end of a
statement takes it down even if the statement was blank and nothing was emitted. So a
statement carries the flag if and only if no blank statement ended behind the last such
fault, or if one of its words is flagged itself.
-/

namespace Stylesheet

/-- Whether the next statement has to be flagged for a fault. -/
def FaultKind.isPending (kind : FaultKind) : Bool :=
  kind.isFinal || kind.isUrl

namespace Scan

namespace Step

/-- Whether a fault is reported for which the next statement has to be flagged. -/
def raises (step : Step) : Bool :=
  step.outcome.diagnostics.any (·.kind.isPending)

/-- Whether a statement is emitted. -/
def emits (step : Step) : Bool :=
  step.outcome.tokens.any (!·.isBoundary)

/-- Whether a statement ends, blank or not: at a semicolon if rules are split, where a block
is closed, or at the end of the source. -/
def ends (options : TokenizeOptions) (step : Step) : Bool :=
  match step.marker with
  | some .semicolon => options.splitRules && step.outcome.state.statementStart == step.offset + 1
  | some .closeBrace => step.outcome.state.statementStart == step.offset + 1
  | some _ => false
  | none => true

end Step

variable {scan : Scan}

/-! ## Since a step -/

/-- There is a step of one kind, and all steps behind it are of another. -/
def Since (first kept : Step → Prop) (steps : List Step) : Prop :=
  ∃ earlier step later, steps = earlier ++ step :: later ∧ first step ∧ ∀ other ∈ later, kept other

section Since

variable {first kept alike : Step → Prop} {steps : List Step} {step : Step}

theorem not_since_nil : ¬Since first kept [] := by
  rintro ⟨earlier, step, later, same, -⟩
  simp at same

theorem since_concat_iff :
    Since first kept (steps ++ [step]) ↔ first step ∨ Since first kept steps ∧ kept step := by
  constructor
  · rintro ⟨earlier, other, later, same, isFirst, keeps⟩
    rcases List.eq_nil_or_concat later with rfl | ⟨others, last, rfl⟩
    · obtain ⟨-, lastSame⟩ := List.append_inj' same rfl
      obtain rfl := (List.cons.inj lastSame).1
      exact Or.inl isFirst
    · rw [List.concat_eq_append] at same keeps
      rw [← List.cons_append, ← List.append_assoc] at same
      obtain ⟨rfl, lastSame⟩ := List.append_inj' same rfl
      obtain rfl := (List.cons.inj lastSame).1
      have within : ∀ item ∈ others, kept item :=
        fun item member => keeps item (List.mem_append_left _ member)
      exact Or.inr ⟨⟨earlier, other, others, rfl, isFirst, within⟩, keeps step (by simp)⟩
  · rintro (isFirst | ⟨⟨earlier, other, later, rfl, isFirst, keeps⟩, keepsLast⟩)
    · exact ⟨steps, step, [], rfl, isFirst, by simp⟩
    · refine ⟨earlier, other, later ++ [step], by simp, isFirst, ?_⟩
      intro item member
      rcases List.mem_append.mp member with inLater | isLast
      · exact keeps item inLater
      · obtain rfl := List.mem_singleton.mp isLast
        exact keepsLast

/-- What lies before a step of the first kind does not matter. -/
theorem since_append_iff {before behind : List Step} (isFirst : first step)
    (same : ∀ other ∈ behind, kept other ↔ alike other) :
    Since first kept (before ++ step :: behind) ↔ Since first alike (step :: behind) := by
  induction behind using List.reverseRecOn with
  | nil =>
      have alone : Since first alike [step] := ⟨[], step, [], rfl, isFirst, by simp⟩
      exact iff_of_true (since_concat_iff.mpr (.inl isFirst)) alone
  | append_singleton behind last induction =>
      have inner := induction fun other member => same other (List.mem_append_left _ member)
      rw [← List.cons_append, ← List.append_assoc, since_concat_iff, since_concat_iff, inner,
        same last (by simp)]

end Since

/-! ## States along a scan -/

theorem State.Anchored.course {state : State} (anchored : state.Anchored)
    {entries : List (Marker × Nat)}
    (begin_ : ∀ entry ∈ entries, scan.markerAt? entry.2 = some entry.1) :
    (scan.course state entries).state.Anchored := by
  induction entries generalizing state with
  | nil => exact anchored
  | cons entry entries induction =>
      obtain ⟨marker, offset⟩ := entry
      have later := fun entry member => begin_ entry (List.mem_cons_of_mem _ member)
      rw [Scan.course]
      split
      · exact induction anchored later
      next notConsumed =>
        have begins := begin_ _ List.mem_cons_self
        exact induction (anchored.react begins (Int.not_lt.mp notConsumed)) later

section Steps

variable {before after : List Step} {step : Step} (split : scan.steps = before ++ step :: after)

include split

theorem anchored_stateAfter : (stateAfter {} before).Anchored := by
  obtain ⟨front, back, entries, reached, -, -, -⟩ := exists_of_stepsFrom_eq split
  rw [← reached]
  refine State.Anchored.start.course fun entry member => markerAt?_of_mem_markers ?_
  rw [entries]
  exact List.mem_append_left _ member

theorem cursor_le_offset {marker : Marker} (isMarker : step.marker = some marker) :
    (stateAfter {} before).cursor ≤ step.offset := by
  obtain ⟨-, -, -, -, -, reached, -⟩ := exists_of_step_marker split isMarker
  exact reached

end Steps

/-! ## The flag after a step -/

variable {state : State}

theorem OfStatement.any_isPending {diagnostics : List Diagnostic}
    (ofStatement : OfStatement scan state diagnostics) :
    diagnostics.any (·.kind.isPending) = false := by
  rcases ofStatement with rfl | ⟨rfl, -⟩ <;> rfl

@[simp] theorem State.pendingError_forgetWords :
    state.forgetWords.pendingError = state.pendingError := rfl

@[simp] theorem State.pendingError_beginBody (offset : Int) :
    (state.beginBody offset).pendingError = state.pendingError := rfl

@[simp] theorem State.pendingError_settle : state.settle.pendingError = false := rfl

/-- The flag is up after a step if the step raises it, or if it was up before and the step
neither emits nor ends a statement. -/
def Step.Carries (options : TokenizeOptions) (pendingError : Bool) (step : Step) : Prop :=
  step.outcome.state.pendingError =
    (step.raises || pendingError && !(step.emits || step.ends options))

theorem carries_goesOn {marker : Marker} {offset : Nat}
    (anchored : state.Anchored) (reached : state.cursor ≤ offset)
    (goesOn : GoesOn scan state offset (scan.react marker state offset)) :
    Step.Carries scan.options state.pendingError
      ⟨some marker, offset, scan.react marker state offset⟩ := by
  have noEnd : Step.ends scan.options ⟨some marker, offset, scan.react marker state offset⟩ =
      false := by
    have before := anchored.reached
    have starts : (scan.react marker state offset).state.statementStart ≠ offset + 1 := by
      rw [goesOn.statement]
      omega
    cases marker <;> simp [Step.ends, starts]
  have noStatement : Step.emits ⟨some marker, offset, scan.react marker state offset⟩ = false := by
    rw [Step.emits, goesOn.tokens]
    rfl
  rw [Step.Carries, noEnd, noStatement, Step.raises]
  obtain ⟨-, -, -, -, reports⟩ := goesOn
  generalize scan.react marker state offset = outcome at *
  rcases reports with ⟨silent, same⟩ | ⟨fault, place, reports, pending, defect⟩
  · simp [silent, same]
  · have isPending : fault.kind.isPending = true := by
      generalize outcome.state.cursor = cursor at defect
      cases defect with
      | unclosed isFinal => simp [FaultKind.isPending, isFinal]
      | url isUrl => simp [FaultKind.isPending, isUrl]
    simp [reports, pending, isPending, Diagnostic.ofFault, Diagnostic.locate]

theorem carries_openBlock (offset : Nat) :
    Step.Carries scan.options state.pendingError
      ⟨some .openBrace, offset, scan.openBlock state offset⟩ := by
  have noEnd : Step.ends scan.options ⟨some .openBrace, offset, scan.openBlock state offset⟩ =
      false := rfl
  rw [Step.Carries, noEnd, Step.raises, Step.emits, diagnostics_openBlock, tokens_openBlock,
    openBlock_eq]
  rcases scan.emitAhead_cases state with ahead | ahead
  · rw [ahead, emitSource_eq_emitted]
    unfold stretchTokens
    cases (scan.source.slice state.bodyStart state.statementStart).trim.isEmpty with
    | true => simp [Outcome.andThen, Token.openingOf, Token.isBoundary]
    | false => simp [Outcome.andThen, Token.isBoundary]
  · rw [ahead]
    simp [Outcome.andThen, Token.openingOf, Token.isBoundary]

section Strict

variable (strict : scan.options.ignoreErrors = false)

include strict

theorem carries_endStatement (anchored : state.Anchored) (outside : ¬0 < state.calls.depth)
    (offset : Nat) :
    Step.Carries scan.options state.pendingError
      ⟨some .semicolon, offset, scan.endStatement state offset⟩ := by
  have noFault := (ofStatement_endStatement strict anchored outside offset).any_isPending
  rw [Step.Carries, Step.raises, noFault, Step.ends, endStatement_state _ _ _ outside]
  cases splits : scan.options.splitRules with
  | true => simp [State.beginStatement]
  | false =>
      have noStatement : Step.emits ⟨some .semicolon, offset, scan.endStatement state offset⟩ =
          false := by
        rw [Step.emits, endStatement_outside _ _ _ outside, emitEnded_of_whole _ _ splits]
        rfl
      rw [noStatement]
      simp [State.beginStatement]

theorem carries_closeBlock (anchored : state.Anchored) (offset : Nat) :
    Step.Carries scan.options state.pendingError
      ⟨some .closeBrace, offset, scan.closeBlock state offset⟩ := by
  have noFault : (scan.closeBlock state offset).diagnostics.any (·.kind.isPending) = false := by
    rw [diagnostics_closeBlock strict, List.any_append,
      (ofStatement_emitUpTo strict anchored offset).any_isPending]
    split <;> rfl
  rw [Step.Carries, Step.raises, noFault, Step.ends, closeBlock_state]
  simp

theorem carries_endSource (anchored : state.Anchored) :
    Step.Carries scan.options state.pendingError
      ⟨none, scan.source.length, scan.endSource state⟩ := by
  have noFault : (scan.endSource state).diagnostics.any (·.kind.isPending) = false := by
    rw [diagnostics_endSource strict, List.any_append,
      (ofStatement_emitUpTo strict anchored scan.source.length).any_isPending]
    split <;> rfl
  rw [Step.Carries, Step.raises, noFault]
  simp [Step.ends, endSource, Outcome.mapState, Outcome.andThen, emitUpTo_state,
    State.moveTo]

theorem pendingError_step {before after : List Step} {step : Step}
    (split : scan.steps = before ++ step :: after) :
    step.Carries scan.options (stateAfter {} before).pendingError := by
  have anchored := anchored_stateAfter split
  rcases step_cases split with ⟨isEnd, atEnd, ended⟩ | ⟨marker, isMarker, begins, reacted⟩
  · obtain ⟨marker?, offset, outcome⟩ := step
    dsimp only at isEnd atEnd ended
    subst isEnd atEnd ended
    exact carries_endSource strict anchored
  · have reached := cursor_le_offset split isMarker
    obtain ⟨marker?, offset, outcome⟩ := step
    dsimp only at isMarker begins reached reacted
    subst isMarker reacted
    rcases react_cases (stateAfter {} before) begins with
      goesOn | rfl | ⟨rfl, outside⟩ | ⟨rfl, outside⟩
    · exact carries_goesOn anchored reached goesOn
    · exact carries_openBlock offset
    · exact carries_endStatement strict anchored outside offset
    · rw [react, closeBrace, if_neg outside]
      exact carries_closeBlock strict anchored offset

/-- After some steps the flag is up if and only if a step has raised it and no statement was
emitted and none ended since. -/
theorem pendingError_stateAfter_iff {before after : List Step}
    (split : scan.steps = before ++ after) :
    (stateAfter {} before).pendingError = true ↔
      Since (·.raises = true) (fun step => step.emits = false ∧ step.ends scan.options = false)
        before := by
  induction before using List.reverseRecOn generalizing after with
  | nil => exact iff_of_false Bool.false_ne_true not_since_nil
  | append_singleton before step induction =>
      rw [List.append_assoc, List.singleton_append] at split
      rw [stateAfter_concat, pendingError_step strict split, since_concat_iff, ← induction split,
        Bool.or_eq_true, Bool.and_eq_true, Bool.not_eq_true', Bool.or_eq_false_iff]

end Strict

/-! ## The flag of a statement -/

/-- The words of a statement are flagged if the flag is up, or if one of them is flagged. -/
theorem isFlagged_of_mem_wordTokens {words : List Word} {pendingError : Bool} {terminator : Text}
    {token : Token}
    (member : token ∈ wordTokens (scan.statementOf words) words pendingError terminator) :
    token.isFlagged = isFaulty pendingError words := by
  cases kind : scan.statementOf words with
  | declaration content =>
      rw [kind] at member
      obtain rfl := List.mem_singleton.mp member
      have noError : words.any (·.error) = false := by
        cases faulty : words.any (·.error) with
        | false => rfl
        | true =>
            rw [statementOf, if_pos faulty] at kind
            cases kind
      rw [isFaulty, noError, Bool.or_false]
      rfl
  | _ =>
      rw [kind] at member
      simp only [wordTokens] at member
      split at member
      · cases member
      · obtain rfl := List.mem_singleton.mp member
        rfl

theorem EmittedAt.isFlagged_eq {offset : Nat} {token : Token}
    (emitted : EmittedAt scan state offset token) (inside : token.isBoundary = false) :
    token.isFlagged =
      (state.pendingError || scan.options.splitRules && state.words.any (·.error)) := by
  cases emitted with
  | words splits isTerminator member =>
      rw [emitWords_eq_emitted] at member
      rw [isFlagged_of_mem_wordTokens member, splits, isFaulty]
      simp [State.addText]
  | stretch whole member =>
      obtain ⟨-, rfl⟩ := of_mem_emitSource member
      simp [whole, Token.isFlagged]
  | opening same =>
      subst same
      cases inside
  | closing same =>
      subst same
      cases inside

/-- The first statement that is emitted behind some steps. -/
theorem exists_first_statement {steps : List Step} {token : Token}
    (first : (steps.flatMap (·.outcome.tokens)).find? (!·.isBoundary) = some token) :
    ∃ last later, steps = steps.takeWhile (!·.emits) ++ last :: later ∧
      token ∈ last.outcome.tokens ∧ token.isBoundary = false := by
  induction steps with
  | nil => cases first
  | cons step steps induction =>
      rw [List.flatMap_cons, List.find?_append] at first
      cases found : step.outcome.tokens.find? (!·.isBoundary) with
      | some other =>
          rw [found] at first
          cases first
          have member := List.mem_of_find?_eq_some found
          have inside := List.find?_some found
          have emits : step.emits = true := List.any_eq_true.mpr ⟨token, member, inside⟩
          rw [List.takeWhile_cons_of_neg (by simp [emits])]
          exact ⟨step, steps, rfl, member, by simpa using inside⟩
      | none =>
          rw [found, Option.none_or] at first
          have silent : step.emits = false := by
            rw [Step.emits, List.any_eq_false]
            exact List.find?_eq_none.mp found
          obtain ⟨last, later, parts, member, inside⟩ := induction first
          rw [List.takeWhile_cons_of_pos (by simp [silent])]
          exact ⟨last, later, congrArg (step :: ·) parts, member, inside⟩

/-- Behind a fault for which a statement has to be flagged, the first statement that is
emitted is flagged if and only if no statement has ended blank since such a fault was
reported, or if one of its words is flagged. -/
theorem first_isFlagged_iff (strict : scan.options.ignoreErrors = false) {before after : List Step}
    {step : Step} (split : scan.steps = before ++ step :: after) (raises : step.raises = true)
    {token : Token}
    (first : (after.flatMap (·.outcome.tokens)).find? (!·.isBoundary) = some token) :
    let silent := after.takeWhile (!·.emits)
    token.isFlagged = true ↔
      Since (·.raises = true) (·.ends scan.options = false) (step :: silent) ∨
        scan.options.splitRules = true ∧
          (stateAfter {} (before ++ step :: silent)).words.any (·.error) = true := by
  intro silent
  obtain ⟨last, rest, parts, member, inside⟩ := exists_first_statement first
  have whole : scan.steps = (before ++ step :: silent) ++ last :: rest := by
    rw [split, List.append_assoc, List.cons_append, ← parts]
  have quiet (other : Step) (inSilent : other ∈ silent) :
      other.emits = false ∧ other.ends scan.options = false ↔ other.ends scan.options = false := by
    have noStatement := List.mem_takeWhile_imp inSilent
    rw [Bool.not_eq_true'] at noStatement
    exact and_iff_right noStatement
  rw [(emittedAt_of_step whole token member).isFlagged_eq inside, Bool.or_eq_true,
    Bool.and_eq_true, pendingError_stateAfter_iff strict whole, since_append_iff raises quiet]

/-- A heading that takes a broken url, and a statement in its block. -/
def flaggedBody : Scan :=
  ⟨{ ignoreErrors := false }, "a url(b c)\x7bd:e\x7d".toList⟩

theorem first_isFlagged_iff_body :
    ∃ step after token, flaggedBody.options.ignoreErrors = false ∧
      flaggedBody.steps = [] ++ step :: after ∧ step.raises = true ∧
        (after.flatMap (·.outcome.tokens)).find? (!·.isBoundary) = some token ∧
          token.isFlagged = true := by
  have split : flaggedBody.steps = [] ++ flaggedBody.steps[0] :: flaggedBody.steps.drop 1 := rfl
  have raises : flaggedBody.steps[0].raises = true := by decide +kernel
  have first : ((flaggedBody.steps.drop 1).flatMap (·.outcome.tokens)).find? (!·.isBoundary) =
      some (.rule ⟨['d'], ['e'], .empty⟩ 11 true) := by decide +kernel
  refine ⟨_, _, _, rfl, split, raises, first, ?_⟩
  exact (first_isFlagged_iff rfl split raises first).mpr
    (.inl ⟨[], _, _, rfl, raises, by decide +kernel⟩)

/-- The same with a blank statement in front. -/
def forgottenBody : Scan :=
  ⟨{ ignoreErrors := false }, "a url(b c)\x7b;d:e\x7d".toList⟩

/-- A blank statement that ends loses the flag. -/
theorem not_forall_first_isFlagged :
    ¬∀ (scan : Scan) (before after : List Step) (step : Step) (token : Token),
      scan.options.ignoreErrors = false → scan.steps = before ++ step :: after →
        step.raises = true →
          (after.flatMap (·.outcome.tokens)).find? (!·.isBoundary) = some token →
            token.isFlagged = true := by
  intro always
  have lost := always forgottenBody [] (forgottenBody.steps.drop 1) forgottenBody.steps[0]
    ((forgottenBody.steps.drop 1).flatMap (·.outcome.tokens))[1] rfl (by decide +kernel)
    (by decide +kernel) (by decide +kernel)
  revert lost
  decide +kernel

end Scan
end Stylesheet
