import Mathlib.Data.List.Induction
import Stylesheet.Proofs.Scan.Ascent
import Stylesheet.Proofs.Scan.Constructs

/-!
# Coherent states

Between two steps a state is coherent. The beginning of the body, the beginning of the
statement and the cursor are offsets of the source in this order. The words ascend from the
beginning of the statement to the cursor, and together they are the source in between without
the comments that have been passed over. No count of nested constructs is negative, and a mark
is kept only for a construct that is open.
-/

namespace Stylesheet
namespace Scan

variable {scan : Scan} {state : State}

/-! ## The order of words -/

/-- The words ascend, and none begins behind the cursor. -/
structure State.Ordered (state : State) : Prop where
  ascends : state.words.Pairwise fun first second => first.offset ≤ second.offset
  behind : ∀ word ∈ state.words, word.offset ≤ state.cursor

namespace State.Ordered

theorem of_words {after : State} (words : after.words = []) : after.Ordered := by
  constructor <;> simp [words]

theorem congr (ordered : state.Ordered) {after : State} (words : after.words = state.words)
    (cursor : after.cursor = state.cursor) : after.Ordered := by
  refine ⟨words ▸ ordered.ascends, fun word member => ?_⟩
  rw [cursor]
  exact ordered.behind word (words ▸ member)

theorem moveTo (ordered : state.Ordered) {offset : Int} (further : state.cursor ≤ offset) :
    (state.moveTo offset).Ordered :=
  ⟨ordered.ascends, fun word member => Int.le_trans (ordered.behind word member) further⟩

/-- A word may be added that begins at the cursor. -/
theorem append (ordered : state.Ordered) {word : Word} (here : word.offset = state.cursor) :
    State.Ordered { state with words := state.words ++ [word] } where
  ascends := by
    refine List.pairwise_append.mpr ⟨ordered.ascends, List.pairwise_singleton .., ?_⟩
    intro first member second isWord
    obtain rfl := List.mem_singleton.mp isWord
    exact here ▸ ordered.behind first member
  behind other member := by
    rcases List.mem_append.mp member with before | isWord
    · exact ordered.behind other before
    · obtain rfl := List.mem_singleton.mp isWord
      exact Int.le_of_eq here

theorem addText (ordered : state.Ordered) (source : Text) (stop : Int) :
    (state.addText source stop).Ordered :=
  ordered.append rfl

theorem takeWord (ordered : state.Ordered) (source : Text) (kind : WordKind) {stop : Int}
    (error : Bool) (further : state.cursor ≤ stop) :
    (state.takeWord source kind stop error).Ordered := by
  have added := @append state ordered
    ⟨kind, source.slice state.cursor stop, state.cursor, error⟩ rfl
  exact added.moveTo further

theorem takeText (ordered : state.Ordered) (scan : Scan) {offset : Int}
    (further : state.cursor ≤ offset) : (scan.takeText state offset).Ordered :=
  (ordered.addText scan.source offset).moveTo further

/-- The words from a place on may be merged into one that begins where the first of them
does. -/
theorem merge (ordered : state.Ordered) {kept : Nat} (inside : kept < state.words.length)
    (kind : WordKind) (error : Bool) :
    State.Ordered { state with
      words := state.words.take kept ++ [.merged kind error (state.words.drop kept)] } := by
  have parts := List.take_append_drop kept state.words
  rw [List.drop_eq_getElem_cons inside] at parts ⊢
  generalize state.words.take kept = front at parts
  generalize state.words[kept] = first at parts
  have isWord : first ∈ state.words := parts ▸ List.mem_append_right _ List.mem_cons_self
  obtain ⟨frontAscends, -, across⟩ := List.pairwise_append.mp (parts ▸ ordered.ascends)
  constructor
  · refine List.pairwise_append.mpr ⟨frontAscends, List.pairwise_singleton .., ?_⟩
    intro word member merged isMerged
    obtain rfl := List.mem_singleton.mp isMerged
    exact across word member first List.mem_cons_self
  · intro word member
    rcases List.mem_append.mp member with inFront | isMerged
    · exact ordered.behind word (parts ▸ List.mem_append_left _ inFront)
    · obtain rfl := List.mem_singleton.mp isMerged
      exact ordered.behind first isWord

theorem collapse (ordered : state.Ordered) (source : Text) {offset : Int} (kind : WordKind)
    (mark : Option Int) (further : state.cursor ≤ offset + 1) :
    (state.collapse source offset kind mark).Ordered := by
  have inside : (state.kept? mark).getD 0 < (state.addText source (offset + 1)).words.length := by
    have within := state.kept?_le mark
    rw [Abreast.addText_words, List.length_append, List.length_singleton]
    omega
  have merged := (ordered.addText source (offset + 1)).merge inside kind (state.kept? mark).isNone
  constructor
  · rw [State.collapse_words]
    exact merged.ascends
  · intro word member
    rw [State.collapse_words] at member
    exact Int.le_trans (merged.behind word member) further

theorem collapseOutermost (ordered : state.Ordered) {offset : Int} (kind : WordKind)
    (nest : Nest) (further : state.cursor ≤ offset + 1) :
    (scan.collapseOutermost state offset kind nest).Ordered := by
  unfold Scan.collapseOutermost
  split
  · exact ordered.collapse scan.source kind nest.mark further
  · exact ordered

end State.Ordered

theorem ordered_react (ordered : state.Ordered) {marker : Marker} {offset : Nat}
    (begins : scan.markerAt? offset = some marker) (reached : state.cursor ≤ offset) :
    (scan.react marker state offset).state.Ordered := by
  have long := lt_length_of_markerAt? begins
  have inside := Nat.le_of_add_right_le long
  have ahead (count : Nat) : (offset : Int) ≤ (offset + count : Nat) :=
    Int.ofNat_le.mpr (Nat.le_add_right ..)
  have beyond (count : Nat) : state.cursor ≤ (offset + count : Nat) :=
    Int.le_trans reached (ahead count)
  have taken := ordered.takeText scan reached
  by_cases breaks : state.Breaks marker
  · exact .of_words (fresh_react begins breaks).1
  cases marker with
  | quote quote =>
      rw [react, (scan.readString_eq state quote inside).1]
      exact (taken.takeWord scan.source _ _ (ahead _)).congr rfl rfl
  | comment =>
      rw [react, (scan.skipComment_eq state inside).1]
      exact ((ordered.addText scan.source offset).moveTo (beyond _)).congr rfl rfl
  | openBrace => exact absurd (.inl rfl) breaks
  | closeBrace =>
      simp only [react, closeBrace]
      split
      · exact (ordered.collapseOutermost .interpolation _ (beyond 1)).congr rfl rfl
      next outside => exact absurd (.inr (.inr ⟨rfl, outside⟩)) breaks
  | semicolon =>
      by_cases nested : 0 < state.calls.depth
      · rw [react, endStatement_inside _ _ _ nested]
        exact ordered
      · exact absurd (.inr (.inl ⟨rfl, nested⟩)) breaks
  | url =>
      rw [react, (scan.readUrl_eq state offset).1]
      exact (taken.takeWord scan.source _ _ (ahead _)).congr rfl rfl
  | backslash =>
      rw [react, scan.readEscape_eq state inside]
      exact ordered.takeWord scan.source _ _ (beyond _)
  | openParen => exact taken.congr rfl rfl
  | closeParen => exact (ordered.collapseOutermost .call _ (beyond 1)).congr rfl rfl
  | lineComment =>
      rw [react, scan.skipLine_eq state long]
      exact (ordered.addText scan.source offset).moveTo (beyond _)
  | atInterpolation => exact (ordered.takeText scan (beyond 2)).congr rfl rfl
  | hashInterpolation => exact (ordered.takeText scan (beyond 2)).congr rfl rfl

/-! ## The text of a statement -/

/-- The steps that have been taken from an offset on. -/
def takenFrom (start : Int) (taken : List Step) : List Step :=
  taken.filter (start ≤ ·.offset)

theorem takenFrom_concat {start : Int} (taken : List Step) {step : Step}
    (behind : start ≤ step.offset) :
    takenFrom start (taken ++ [step]) = takenFrom start taken ++ [step] := by
  simp [takenFrom, behind]

/-- The source from the beginning of the statement up to the cursor, without the comments
that have been passed over since. -/
def statementText (scan : Scan) (taken : List Step) (state : State) : Text :=
  kept (takenFrom state.statementStart taken) state.statementStart.toNat
    (scan.source.slice state.statementStart state.cursor)

/-- Behind a boundary there is no text yet. -/
theorem statementText_of_fresh (fresh : state.cursor = state.statementStart) (taken : List Step) :
    scan.statementText taken state = [] := by
  rw [statementText, fresh, Text.slice_self]
  rfl

section Reaction

variable {marker : Marker} {cursor offset stop : Nat} {outcome : Outcome}
  (reached : cursor ≤ offset) (further : cursor ≤ stop) (inside : stop ≤ scan.source.length)
  (forward : marker.isComment = true → offset ≤ stop) (landing : outcome.state.cursor = stop)

include reached further inside forward landing

/-- What is kept of the stretch that a step has consumed. -/
theorem kept_singleton :
    kept [⟨some marker, offset, outcome⟩] cursor (scan.source.slice cursor stop) =
      scan.source.slice cursor (keptUpTo marker offset stop : Nat) := by
  have rest := @kept_step scan marker cursor offset stop outcome [] reached further forward inside
    landing (by simp)
  have behind : kept [⟨some marker, offset, outcome⟩] stop (scan.source.drop stop) =
      scan.source.drop stop := by
    refine kept_eq_self fun step member other after _ => ?_
    obtain rfl := List.mem_singleton.mp member
    have notBefore : ¬(other : Int) < outcome.state.cursor := by omega
    simp [Step.skips, notBefore]
  rw [← Text.slice_append_drop further, kept_append, Text.length_slice further inside,
    Nat.add_sub_of_le further, behind, kept_nil] at rest
  exact List.append_cancel_right rest

/-- The text of a statement grows by what a step keeps. -/
theorem kept_concat {start : Nat} (started : start ≤ cursor) {taken : List Step}
    (passed : ∀ step ∈ taken, step.outcome.state.cursor ≤ cursor) :
    kept (taken ++ [⟨some marker, offset, outcome⟩]) start (scan.source.slice start stop) =
      kept taken start (scan.source.slice start cursor) ++
        scan.source.slice cursor (keptUpTo marker offset stop : Nat) := by
  have width := Text.length_slice started (Nat.le_trans further inside)
  rw [← Text.slice_append_slice _ started further, kept_append, width, Nat.add_sub_of_le started,
    ← kept_singleton reached further inside forward landing]
  -- Before the cursor the step passes over nothing, and behind it the steps before do not.
  congr 1
  · refine kept_congr fun other _ before => ?_
    have notSkipped : Step.skips ⟨some marker, offset, outcome⟩ other = false :=
      skips_eq_false_of_before (show other < offset by omega)
    simp [notSkipped]
  · refine kept_congr fun other behind _ => ?_
    have notSkipped : taken.any (·.skips other) = false := by
      refine List.any_eq_false.mpr fun step member => ?_
      have consumed := passed step member
      have notBefore : ¬(other : Int) < step.outcome.state.cursor := by omega
      simp [Step.skips, notBefore]
    rw [List.any_append, notSkipped, Bool.false_or]

end Reaction

/-! ## Coherence -/

/-- What holds of a state between two steps, where the given steps have been taken. -/
structure State.Coherent (scan : Scan) (taken : List Step) (state : State) : Prop
    extends state.Ordered where
  nonneg : 0 ≤ state.bodyStart
  inBody : state.bodyStart ≤ state.statementStart
  reached : state.statementStart ≤ state.cursor
  inside : state.cursor ≤ scan.source.length
  /-- While there is no word, nothing of the statement has been passed over either. -/
  untouched : state.words = [] → state.cursor = state.statementStart
  starts : ∀ first ∈ state.words.head?, first.offset = state.statementStart
  text : Word.joined state.words = scan.statementText taken state
  /-- No step has gone further than the cursor. -/
  passed : ∀ step ∈ taken, step.outcome.state.cursor ≤ state.cursor
  calls : state.calls.Counted
  interpolations : state.interpolations.Counted

theorem State.Anchored.untouched (anchored : state.Anchored) (noWords : state.words = []) :
    state.cursor = state.statementStart := by
  have starts := anchored.starts
  rwa [State.wordsStart, noWords] at starts

theorem State.Anchored.offset_head (anchored : state.Anchored) :
    ∀ first ∈ state.words.head?, first.offset = state.statementStart := by
  intro first isFirst
  have starts := anchored.starts
  rwa [State.wordsStart, isFirst] at starts

namespace State.Coherent

variable {taken : List Step}

theorem start (scan : Scan) : State.Coherent scan [] {} where
  ascends := .nil
  behind := by simp
  nonneg := Int.le_refl 0
  inBody := Int.le_refl 0
  reached := Int.le_refl 0
  inside := Int.natCast_nonneg _
  untouched _ := rfl
  starts := by simp
  text := (statementText_of_fresh rfl []).symm
  passed := by simp
  calls := .closed
  interpolations := .closed

theorem grounded (coherent : state.Coherent scan taken) : state.Grounded scan.source where
  starts := by
    rw [State.wordsStart]
    cases words : state.words with
    | nil => exact coherent.untouched words
    | cons first others => exact coherent.starts first (by rw [words]; rfl)
  reached := coherent.reached
  nonneg := coherent.nonneg
  inBody := coherent.inBody
  fits := by
    have started := Int.le_trans coherent.nonneg coherent.inBody
    have short := Text.length_slice_le scan.source started coherent.reached
    rw [coherent.text]
    exact Int.le_trans (Int.ofNat_le.mpr (length_kept_le ..)) short
  inside := coherent.inside

section Reaction

variable (coherent : state.Coherent scan taken) {marker : Marker} {offset : Nat}
  (begins : scan.markerAt? offset = some marker) (reached : state.cursor ≤ offset)

include coherent begins reached

theorem text_react :
    let step : Step := ⟨some marker, offset, scan.react marker state offset⟩
    Word.joined step.outcome.state.words =
      scan.statementText (taken ++ [step]) step.outcome.state := by
  intro step
  by_cases breaks : state.Breaks marker
  · obtain ⟨noWords, cursor, statement, -⟩ := fresh_react begins breaks
    rw [statementText_of_fresh (cursor.trans statement.symm), noWords]
    rfl
  -- The statement goes on, so the step is one more of those that have been taken in it.
  have goesOn := goesOn_react begins breaks
  have nonneg := Int.le_trans coherent.nonneg coherent.inBody
  obtain ⟨start, isStart⟩ := Int.eq_ofNat_of_zero_le nonneg
  obtain ⟨cursor, place⟩ := Int.eq_ofNat_of_zero_le (Int.le_trans nonneg coherent.reached)
  have started : start ≤ cursor := Int.ofNat_le.mp (isStart ▸ place ▸ coherent.reached)
  have ahead : cursor ≤ offset := Int.ofNat_le.mp (place ▸ reached)
  obtain ⟨stop, landing, further, inside, forward, -⟩ :=
    @exists_stop scan state marker cursor offset [] place ahead begins (by simp)
  have grown := joined_react begins place ahead landing breaks
  rw [coherent.text] at grown
  have later := takenFrom_concat taken (Int.le_trans coherent.reached reached :
    state.statementStart ≤ step.offset)
  have passed : ∀ earlier ∈ takenFrom state.statementStart taken,
      earlier.outcome.state.cursor ≤ cursor :=
    fun earlier member => place ▸ coherent.passed earlier (List.mem_filter.mp member).1
  rw [grown, statementText, statementText, goesOn.statement, later, landing, place]
  generalize takenFrom state.statementStart taken = earlier at passed
  rw [isStart, Int.toNat_natCast]
  exact (kept_concat ahead further inside forward landing started passed).symm

theorem react :
    let step : Step := ⟨some marker, offset, scan.react marker state offset⟩
    step.outcome.state.Coherent scan (taken ++ [step]) := by
  intro step
  have grounded : step.outcome.state.Grounded scan.source :=
    coherent.grounded.react begins reached
  obtain ⟨calls, interpolations⟩ :=
    (turns_react state begins).counted coherent.calls coherent.interpolations
  exact {
    toOrdered := ordered_react coherent.toOrdered begins reached
    nonneg := grounded.nonneg
    inBody := grounded.inBody
    reached := grounded.reached
    inside := grounded.inside
    untouched := grounded.untouched
    starts := grounded.offset_head
    text := coherent.text_react begins reached
    passed := by
      intro earlier member
      rcases List.mem_append.mp member with before | isStep
      · exact Int.le_trans (coherent.passed earlier before) (cursor_le_react begins reached)
      · obtain rfl := List.mem_singleton.mp isStep
        exact Int.le_refl _
    calls
    interpolations }

end Reaction

end State.Coherent

/-! ## Runs -/

/-- Between two steps of a scan its state is coherent. -/
theorem coherent_stateAfter (scan : Scan) {before after : List Step} {step : Step}
    (split : scan.steps = before ++ step :: after) :
    (stateAfter {} before).Coherent scan before := by
  induction before using List.reverseRecOn generalizing step after with
  | nil => exact .start scan
  | append_singleton before last induction =>
      rw [List.append_assoc, List.singleton_append] at split
      obtain ⟨marker, offset, begins, reached, rfl⟩ := exists_reaction split
      rw [stateAfter_concat]
      exact (induction split).react begins reached

/-- An interpolation that ends while a call with a comment in it is still open. -/
def entangled : Scan :=
  ⟨{ lessSyntax := true }, "a;@\x7bd(/*;*/e\x7dg".toList⟩

theorem coherent_stateAfter_entangled :
    let taken := entangled.steps.take 5
    let state := stateAfter {} taken
    (∃ step after, entangled.steps = taken ++ step :: after) ∧
      (state.statementStart = 2 ∧ Word.joined state.words = "@\x7bd(e\x7d".toList ∧
        state.cursor = 13 ∧ state.calls = ⟨1, some 1⟩ ∧ state.interpolations = {}) ∧
      state.Coherent entangled taken := by
  intro taken state
  have split : entangled.steps = taken ++ entangled.steps[5] :: entangled.steps.drop 6 := by
    decide +kernel
  exact ⟨⟨_, _, split⟩, by decide +kernel, coherent_stateAfter entangled split⟩

end Scan
end Stylesheet
