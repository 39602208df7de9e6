import Stylesheet.Proofs.Scan.Ascent

/-!
# Tiling the source

Where rules are not split, the tokens of a source lie side by side in it. Code is cut out of
the source as it stands, and a heading is put together from words, which leave out comments.
So two accounts are kept of what has been read since the last boundary: the stretch of the
source, and the words. Which of them becomes a token is decided by the next boundary.
-/

namespace Stylesheet

namespace Scan

/-! ## Comments in headings -/

/-- Whether a step begins another statement right behind its marker: at a brace of a block,
or at a semicolon that ends a statement. -/
def Step.isBoundary (step : Step) : Bool :=
  step.outcome.state.statementStart == step.offset + 1

/-- Whether the first boundary among some steps opens a block. -/
def endsInHeading : List Step → Bool
  | [] => false
  | step :: steps =>
      if step.isBoundary then step.marker == some .openBrace else endsInHeading steps

/-- The comments behind which a block is opened before a statement ends or a block is
closed. -/
def headingComments : List Step → List Step
  | [] => []
  | step :: steps =>
      if step.marker.any Marker.isComment && endsInHeading steps then
        step :: headingComments steps
      else headingComments steps

/-- The source without the comments in its headings. -/
def withoutHeadingComments (scan : Scan) : Text :=
  kept (headingComments scan.steps) 0 scan.source

theorem headingComments_subset (steps : List Step) : headingComments steps ⊆ steps := by
  induction steps with
  | nil => exact List.Subset.refl []
  | cons step steps induction =>
      rw [headingComments]
      split
      · exact List.cons_subset_cons step induction
      · exact List.subset_cons_of_subset step induction

variable {scan : Scan} {state : State}

theorem isBoundary_react (grounded : state.Grounded scan.source) {marker : Marker} {offset : Nat}
    (begins : scan.markerAt? offset = some marker) (reached : state.cursor ≤ offset) :
    Step.isBoundary ⟨some marker, offset, scan.react marker state offset⟩ = true ↔
      state.Breaks marker := by
  rw [Step.isBoundary, beq_iff_eq]
  constructor
  · intro fresh
    by_contra within
    have goesOn := goesOn_react begins within
    have started := grounded.reached
    rw [goesOn.statement] at fresh
    dsimp only at fresh
    omega
  · exact fun breaks => (fresh_react begins breaks).2.2.1

/-! ## What is written -/

theorem withoutBlanks_emitSource (start stop : Int) :
    Text.withoutBlanks ((scan.emitSource state start stop).tokens.flatMap Token.written) =
      Text.withoutBlanks (scan.source.slice start stop) := by
  rw [emitSource_eq_emitted, ← Text.withoutBlanks_trim (scan.source.slice start stop)]
  dsimp only [stretchTokens]
  split
  next nothing => rw [List.isEmpty_iff.mp nothing, List.flatMap_nil]
  next => rw [List.flatMap_singleton, Token.written]

section Whole

variable (whole : scan.options.splitRules = false)

include whole

theorem withoutBlanks_emitUpTo (stop : Int) :
    Text.withoutBlanks ((scan.emitUpTo state stop).tokens.flatMap Token.written) =
      Text.withoutBlanks (scan.source.slice state.bodyStart stop) := by
  rw [emitUpTo_of_whole _ _ whole]
  exact withoutBlanks_emitSource _ _

theorem withoutBlanks_emitAhead (inBody : state.bodyStart ≤ state.statementStart) :
    Text.withoutBlanks ((scan.emitAhead state).tokens.flatMap Token.written) =
      Text.withoutBlanks (scan.source.slice state.bodyStart state.statementStart) := by
  rw [emitAhead_of_whole _ _ whole, Outcome.onlyIf]
  split
  · exact withoutBlanks_emitSource _ _
  next apart =>
    have same : state.bodyStart = state.statementStart := by
      simp only [decide_eq_true_eq] at apart
      omega
    rw [same, Text.slice_self]
    rfl

theorem withoutBlanks_openBlock (inBody : state.bodyStart ≤ state.statementStart) (offset : Int) :
    Text.withoutBlanks ((scan.openBlock state offset).tokens.flatMap Token.written) =
      Text.withoutBlanks (scan.source.slice state.bodyStart state.statementStart) ++
        (Text.withoutBlanks (Word.joined state.words) ++
          (Text.withoutBlanks (scan.source.slice state.cursor offset) ++ ['\x7b'])) := by
  have heading : Text.withoutBlanks
      (Token.openingOf (state.addText scan.source offset).words).written =
        Text.withoutBlanks (Word.joined state.words) ++
          (Text.withoutBlanks (scan.source.slice state.cursor offset) ++ ['\x7b']) := by
    have brace : Text.withoutBlanks ['\x7b'] = ['\x7b'] := by decide
    rw [Token.openingOf, Token.written, Heading.text_ofWords, Word.trimmed,
      Text.withoutBlanks_append, Text.withoutBlanks_trim, joined_addText,
      Text.withoutBlanks_append, brace, List.append_assoc]
  rw [tokens_openBlock, List.flatMap_append, Text.withoutBlanks_append,
    withoutBlanks_emitAhead whole inBody, List.flatMap_singleton, heading]

end Whole

/-! ## What is still to be written -/

/-- What has been read and is in no token, where the given steps are still to come: the
statements of the body, and then the words of a heading or the stretch of the source. -/
def pending (scan : Scan) (state : State) (later : List Step) : Text :=
  scan.source.slice state.bodyStart state.statementStart ++
    if endsInHeading later then Word.joined state.words
    else scan.source.slice state.statementStart state.cursor

/-- The stretch of the source is pending, unless a heading is read. -/
theorem pending_eq_slice (grounded : state.Grounded scan.source) {later : List Step}
    (noHeading : endsInHeading later = false) :
    scan.pending state later = scan.source.slice state.bodyStart state.cursor := by
  rw [pending, noHeading]
  exact Text.slice_append scan.source grounded.nonneg grounded.inBody grounded.reached

/-- Behind a boundary only statements of the body are pending. -/
theorem pending_of_fresh (noWords : state.words = []) (fresh : state.cursor = state.statementStart)
    (later : List Step) :
    scan.pending state later = scan.source.slice state.bodyStart state.statementStart := by
  rw [pending, noWords, fresh, Text.slice_self, Word.joined_nil, ite_self, List.append_nil]

/-- A boundary is no comment, so what it consumes is kept. -/
theorem kept_boundary {marker : Marker} {cursor offset : Nat} {outcome : Outcome}
    {later : List Step} (breaks : state.Breaks marker) (reached : cursor ≤ offset)
    (inside : offset + 1 ≤ scan.source.length) (behind : ∀ step ∈ later, offset + 1 ≤ step.offset) :
    kept (headingComments (⟨some marker, offset, outcome⟩ :: later)) cursor
        (scan.source.drop cursor) =
      scan.source.slice cursor offset ++ (scan.source.slice offset (offset + 1 : Nat) ++
        kept (headingComments later) (offset + 1) (scan.source.drop (offset + 1))) := by
  have noComment : (some marker).any Marker.isComment = false := by
    rcases breaks with rfl | ⟨rfl, -⟩ | ⟨rfl, -⟩ <;> rfl
  have comments : ∀ step ∈ headingComments later, offset + 1 ≤ step.offset :=
    fun step member => behind step (headingComments_subset later member)
  rw [headingComments, noComment, Bool.false_and, if_neg Bool.false_ne_true,
    kept_drop (Nat.le_succ_of_le reached) inside comments,
    ← Text.slice_append_slice _ reached (Nat.le_succ offset), List.append_assoc]

section Reaction

variable {marker : Marker} {cursor offset stop : Nat} {later : List Step}
  (grounded : state.Grounded scan.source) (place : state.cursor = cursor)
  (reached : cursor ≤ offset) (begins : scan.markerAt? offset = some marker)
  (landing : (scan.react marker state offset).state.cursor = stop)
  (further : cursor ≤ stop) (inside : stop ≤ scan.source.length)
  (behind : ∀ step ∈ later, stop ≤ step.offset)

include grounded place reached begins landing further inside behind

/-- Between two boundaries, what is kept is pending. -/
theorem pending_react (within : ¬state.Breaks marker)
    (forward : marker.isComment = true → offset ≤ stop) :
    let step : Step := ⟨some marker, offset, scan.react marker state offset⟩
    scan.pending step.outcome.state later ++
        kept (headingComments later) stop (scan.source.drop stop) =
      scan.pending state (step :: later) ++
        kept (headingComments (step :: later)) cursor (scan.source.drop cursor) := by
  intro step
  have goesOn := goesOn_react begins within
  have ahead : endsInHeading (step :: later) = endsInHeading later := by
    rw [endsInHeading, if_neg]
    rw [isBoundary_react grounded begins (by omega)]
    exact within
  have comments : ∀ other ∈ headingComments later, stop ≤ other.offset :=
    fun other member => behind other (headingComments_subset later member)
  cases heading : endsInHeading later with
  | true =>
      have held := joined_react begins place reached landing within
      have same : kept (headingComments (step :: later)) cursor (scan.source.drop cursor) =
          kept (step :: headingComments later) cursor (scan.source.drop cursor) := by
        rw [headingComments, heading, Bool.and_true]
        split
        · rfl
        next noComment =>
          rw [kept_cons]
          intro other _
          simp [Step.skips, noComment]
      rw [same, kept_step reached further forward inside landing comments, pending, pending, ahead,
        heading, if_pos rfl, if_pos rfl, goesOn.body, goesOn.statement, held]
      simp only [List.append_assoc]
  | false =>
      have same : headingComments (step :: later) = headingComments later := by
        rw [headingComments, heading, Bool.and_false]
        rfl
      have nonneg := grounded.cursor_nonneg
      have grown := Text.slice_append scan.source (grounded.nonneg)
        (Int.le_trans grounded.inBody grounded.reached) (place ▸ Int.ofNat_le.mpr further)
      have after := grounded.react begins (by omega)
      rw [same, kept_drop further inside comments, pending_eq_slice after heading,
        pending_eq_slice grounded (ahead.trans heading), goesOn.body, landing, ← grown, place,
        List.append_assoc]

/-- At a boundary, what was pending is written, or it stays in the body. -/
theorem written_react (whole : scan.options.splitRules = false) (breaks : state.Breaks marker) :
    let step : Step := ⟨some marker, offset, scan.react marker state offset⟩
    Text.withoutBlanks (step.outcome.tokens.flatMap Token.written) ++
        Text.withoutBlanks (scan.pending step.outcome.state later ++
          kept (headingComments later) stop (scan.source.drop stop)) =
      Text.withoutBlanks (scan.pending state (step :: later) ++
        kept (headingComments (step :: later)) cursor (scan.source.drop cursor)) := by
  intro step
  obtain ⟨noWords, lands, begun, -⟩ := fresh_react begins breaks
  have ahead : endsInHeading (step :: later) = (some marker == some .openBrace) := by
    rw [endsInHeading, if_pos ((isBoundary_react grounded begins (by omega)).mpr breaks)]
  have body := Text.slice_append scan.source grounded.nonneg
    (Int.le_trans grounded.inBody grounded.reached) (place ▸ Int.ofNat_le.mpr reached)
  obtain rfl : stop = offset + 1 := by omega
  rw [kept_boundary breaks reached inside behind, pending_of_fresh noWords (lands.trans begun.symm),
    begun]
  rcases breaks with rfl | ⟨rfl, outside⟩ | ⟨rfl, outside⟩
  · -- The words are written as a heading, behind the statements of the body.
    have brace : Text.withoutBlanks ['\x7b'] = ['\x7b'] := by decide
    have opened : step.outcome = scan.openBlock state offset := rfl
    have bodyBegins : step.outcome.state.bodyStart = offset + 1 := rfl
    rw [bodyBegins, Text.slice_self, List.nil_append, pending, ahead, slice_marker begins rfl,
      opened, withoutBlanks_openBlock whole grounded.inBody]
    simp only [beq_self_eq_true, if_true, Text.withoutBlanks_append, brace, place,
      List.append_assoc]
  · -- Nothing is written: the statement stays in the body.
    have ended : step.outcome = scan.endStatement state offset := rfl
    rw [endStatement_outside _ _ _ outside, emitEnded_of_whole _ _ whole] at ended
    have sameBody : step.outcome.state.bodyStart = state.bodyStart := by
      rw [ended]
      rfl
    have none_ : step.outcome.tokens = [] := by
      rw [ended]
      rfl
    have started := grounded.reached
    have inBody := grounded.inBody
    have statement := Text.slice_append scan.source grounded.nonneg
      (show state.bodyStart ≤ offset by omega) (Int.le_of_lt (Int.lt_succ (offset : Int)))
    rw [none_, sameBody, pending_eq_slice grounded ahead, ← statement, ← body, place]
    simp only [List.flatMap_nil, Text.withoutBlanks_nil, List.nil_append, List.append_assoc]
    rfl
  · -- The stretch of the source is written, and a closing brace behind it.
    have brace : Text.withoutBlanks ['\x7d'] = ['\x7d'] := by decide
    have closed : step.outcome = scan.closeBlock state offset := if_neg outside
    have bodyBegins : step.outcome.state.bodyStart = offset + 1 := by
      rw [closed, closeBlock_state]
    rw [bodyBegins, Text.slice_self, List.nil_append, pending_eq_slice grounded ahead,
      slice_marker begins rfl, closed, tokens_closeBlock, List.flatMap_append,
      Text.withoutBlanks_append, withoutBlanks_emitUpTo whole, ← body, List.flatMap_singleton,
      Token.written, place]
    simp only [Text.withoutBlanks_append, brace, List.append_assoc]

end Reaction

/-! ## Runs -/

/-- The tokens from a state on write what is pending and what is kept of the rest. -/
theorem withoutBlanks_stepsFrom (whole : scan.options.splitRules = false)
    (grounded : state.Grounded scan.source) {cursor : Nat} (place : state.cursor = cursor)
    {ahead : List (Marker × Nat)}
    (listed : ∀ entry ∈ ahead, scan.markerAt? entry.2 = some entry.1) :
    let steps := scan.stepsFrom state ahead
    Text.withoutBlanks ((steps.flatMap (·.outcome.tokens)).flatMap Token.written) =
      Text.withoutBlanks (scan.pending state steps ++
        kept (headingComments steps) cursor (scan.source.drop cursor)) := by
  induction ahead generalizing state cursor with
  | nil =>
      have noHeading : endsInHeading (scan.stepsFrom state []) = false := by
        rw [stepsFrom, endsInHeading]
        split <;> rfl
      have noComments : headingComments (scan.stepsFrom state []) = [] := rfl
      have inside := place ▸ grounded.inside
      have rest : kept [] cursor (scan.source.drop cursor) =
          scan.source.slice cursor scan.source.length := by
        rw [kept_drop (Int.ofNat_le.mp inside) (Nat.le_refl _) (by simp), List.drop_length]
        exact List.append_nil _
      have body := Text.slice_append scan.source grounded.nonneg
        (Int.le_trans grounded.inBody grounded.reached) grounded.inside
      dsimp only
      rw [pending_eq_slice grounded noHeading, noComments, rest, ← place, body, stepsFrom,
        List.flatMap_singleton, tokens_endSource, withoutBlanks_emitUpTo whole]
  | cons entry ahead induction =>
      obtain ⟨marker, offset⟩ := entry
      have begins := listed _ List.mem_cons_self
      have later := fun entry member => listed entry (List.mem_cons_of_mem _ member)
      rw [stepsFrom]
      split
      next => exact induction grounded place later
      next notConsumed =>
        have reached : cursor ≤ offset := by omega
        obtain ⟨stop, landing, further, inside, forward, behind⟩ :=
          exists_stop place reached begins later
        have steps := induction (grounded.react begins (by omega)) landing later
        dsimp only at steps ⊢
        rw [List.flatMap_cons, List.flatMap_append, Text.withoutBlanks_append, steps]
        by_cases breaks : state.Breaks marker
        · exact written_react grounded place reached begins landing further inside behind whole
            breaks
        · have none_ := (goesOn_react begins breaks).tokens
          have moved := pending_react grounded place reached begins landing further inside behind
            breaks forward
          dsimp only at moved
          rw [none_, moved]
          rfl

/-! ## Code -/

/-- A token that begins or ends a block, or else code as it stands in the source. -/
def IsCut (source : Text) (token : Token) : Prop :=
  token.isBoundary = true ∨
    ∃ start stop error, token = .code (source.slice start stop).trim start error

theorem isCut_of_step (whole : scan.options.splitRules = false) {before after : List Step}
    {step : Step} (split : scan.steps = before ++ step :: after) :
    ∀ token ∈ step.outcome.tokens, IsCut scan.source token := by
  intro token emitted
  cases emittedAt_of_step split token emitted with
  | words splits _ _ =>
      rw [whole] at splits
      cases splits
  | stretch _ member => exact Or.inr ⟨_, _, _, (of_mem_emitSource member).2⟩
  | opening same =>
      rw [same]
      exact Or.inl rfl
  | closing same =>
      rw [same]
      exact Or.inl rfl

end Scan

/-- Where rules are not split, the tokens of a source write it without the comments in its
headings, each character once and in order, but for blanks. Code is cut out of the source as
it stands, with its comments. -/
theorem TokenizeOptions.tokenize_tiles (options : TokenizeOptions) (source : Text) :
    let unsplit := { options with splitRules := false }
    Text.withoutBlanks ((unsplit.tokenize source).tokens.flatMap Token.written) =
        Text.withoutBlanks (Scan.withoutHeadingComments ⟨unsplit, source⟩) ∧
      ∀ token ∈ (unsplit.tokenize source).tokens, Scan.IsCut source token := by
  intro unsplit
  let scan : Scan := ⟨unsplit, source⟩
  have listed : ∀ entry ∈ scan.markers, scan.markerAt? entry.2 = some entry.1 :=
    fun _ member => Scan.markerAt?_of_mem_markers member
  constructor
  · have start : ({} : Scan.State).cursor = (0 : Nat) := rfl
    have tiled := @Scan.withoutBlanks_stepsFrom scan _ rfl (.start source) _ start _ listed
    have nothing : scan.pending {} scan.steps = [] := by
      rw [Scan.pending_of_fresh rfl rfl]
      exact Text.slice_self source 0
    dsimp only at tiled
    rw [← Scan.steps, nothing] at tiled
    exact tiled
  · intro token member
    obtain ⟨step, isStep, emitted⟩ := List.mem_flatMap.mp member
    obtain ⟨before, after, split⟩ := List.append_of_mem isStep
    exact @Scan.isCut_of_step scan rfl _ _ _ split token emitted

example :
    Scan.withoutHeadingComments
        ⟨{ splitRules := false }, "a/*b*/ \x7b c/*d*/:e; /*f*/ \x7d /*g*/".toList⟩ =
      "a \x7b c/*d*/:e; /*f*/ \x7d /*g*/".toList := by
  decide +kernel

end Stylesheet
