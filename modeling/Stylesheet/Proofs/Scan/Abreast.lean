import Stylesheet.Proofs.Scan.Likeness

/-!
# Scans that stay abreast

Two scans that find the same at a marker react to it alike, so they stay abreast from
one marker to the next and emit the same tokens.
-/

namespace Stylesheet
namespace Scan

variable {pair : Pair} {likeness : Likeness pair} {place : Nat} {first second : State}

/-! ## Reading on -/

namespace Abreast

/-- Both scans add the text before a place, and go on at another. -/
theorem text (abreast : Abreast likeness place first second) {offset stop : Nat}
    (behind : place ≤ offset) (forward : offset ≤ stop) (inside : stop ≤ pair.width) :
    Abreast likeness stop
      ((first.addText pair.firstSource (pair.firstBase + offset : Nat)).moveTo
        (pair.firstBase + stop : Nat))
      ((second.addText pair.secondSource (pair.secondBase + offset : Nat)).moveTo
        (pair.secondBase + stop : Nat)) :=
  have kindred := abreast.kindred
  renew inside
    ⟨kindred.calls, kindred.interpolations, kindred.nested, kindred.pendingError, kindred.depth,
      kindred.body, kindred.statement⟩
    rfl rfl (abreast.held_addText behind (Nat.le_trans forward inside))

/-- Both scans take the text before a place, and a word behind it. -/
theorem literal (abreast : Abreast likeness place first second) {offset stop : Nat}
    (behind : place ≤ offset) (forward : offset ≤ stop) (inside : stop ≤ pair.width)
    (kind : WordKind) (error : Bool) :
    Abreast likeness stop
      ((pair.first.takeText first (pair.firstBase + offset : Nat)).takeWord pair.firstSource kind
        (pair.firstBase + stop : Nat) error)
      ((pair.second.takeText second (pair.secondBase + offset : Nat)).takeWord pair.secondSource
        kind (pair.secondBase + stop : Nat) error) := by
  have kindred := abreast.kindred
  refine renew inside
    ⟨kindred.calls, kindred.interpolations, kindred.nested, kindred.pendingError, kindred.depth,
      kindred.body, kindred.statement⟩ rfl rfl ?_
  have text := abreast.held_addText behind (Nat.le_trans forward inside)
  have same := pair.slice_eq offset inside
  have word := likeness.held_word text kind
    (pair.secondSource.slice (pair.secondBase + offset : Nat) (pair.secondBase + stop : Nat))
    offset error
  rw [← same] at word
  conv at word => arg 3; rw [same]
  exact word

theorem afterReports (abreast : Abreast likeness place first second)
    (reports : List FaultKind) :
    Abreast likeness place (first.afterReports reports) (second.afterReports reports) :=
  have kindred := abreast.kindred
  abreast.recast
    ⟨kindred.calls, kindred.interpolations, kindred.nested, by
      rw [State.afterReports, State.afterReports, kindred.pendingError], kindred.depth,
      kindred.body, kindred.statement⟩ rfl rfl rfl rfl

/-- Both scans count what they have opened alike. -/
theorem recount (abreast : Abreast likeness place first second) {firstCalls secondCalls : Nest}
    {firstInterpolations secondInterpolations : Nest} (calls : firstCalls = secondCalls)
    (interpolations : firstInterpolations = secondInterpolations)
    (nested : 0 < firstInterpolations.depth → pair.options.lessSyntax = true) :
    Abreast likeness place
      { first with calls := firstCalls, interpolations := firstInterpolations }
      { second with calls := secondCalls, interpolations := secondInterpolations } :=
  have kindred := abreast.kindred
  abreast.recast
    ⟨calls, interpolations, nested, kindred.pendingError, kindred.depth, kindred.body,
      kindred.statement⟩ rfl rfl rfl rfl

end Abreast

/-! ## Collapsing -/

namespace State

/-- How many words stay in front of a nested construct. -/
def kept? (state : State) (mark : Option Int) : Option Nat :=
  mark.bind fun mark =>
    if mark < state.words.length then some (Stylesheet.place state.words.length (mark + 1))
    else none

theorem kept?_le (state : State) (mark : Option Int) :
    (state.kept? mark).getD 0 ≤ state.words.length := by
  unfold kept?
  cases mark with
  | none => exact Nat.zero_le _
  | some mark =>
      simp only [Option.bind_some]
      split
      next before =>
        simp only [Option.getD_some, Stylesheet.place]
        split <;> omega
      next => exact Nat.zero_le _

/-- Collapsing merges words and the text behind them. -/
theorem collapse_words (source : Text) (state : State) (offset : Int) (kind : WordKind)
    (mark : Option Int) :
    let words := (state.addText source (offset + 1)).words
    let kept := (state.kept? mark).getD 0
    (state.collapse source offset kind mark).words =
      words.take kept ++ [Word.merged kind (state.kept? mark).isNone (words.drop kept)] := by
  have within := state.kept?_le mark
  simp only [Abreast.addText_words]
  rw [List.take_append_of_le_length within, List.drop_append_of_le_length within]
  simp only [collapse, kept?, Word.merged, Word.joined, List.flatMap_append,
    List.flatMap_singleton]
  generalize List.drop _ state.words = nested
  cases nested <;> rfl

end State

namespace Abreast

theorem collapse (abreast : Abreast likeness place first second)
    (lessSyntax : pair.options.lessSyntax = true) {offset : Nat} (behind : place ≤ offset)
    (inside : offset + 1 ≤ pair.width) {kind : WordKind} (opaque_ : kind ≠ .text)
    (mark : Option Int) :
    Abreast likeness (offset + 1)
      (first.collapse pair.firstSource (pair.firstBase + offset : Nat) kind mark)
      (second.collapse pair.secondSource (pair.secondBase + offset : Nat) kind mark) := by
  have kindred := abreast.kindred
  refine renew inside
    ⟨kindred.calls, kindred.interpolations, kindred.nested, kindred.pendingError, kindred.depth,
      kindred.body, kindred.statement⟩ rfl rfl ?_
  have lengths := abreast.length_eq lessSyntax
  have kept : first.kept? mark = second.kept? mark := by
    rw [State.kept?, State.kept?, lengths]
  have text := abreast.held_addText (Nat.le_succ_of_le behind) inside
  have some_ : (first.kept? mark).getD 0 <
      (first.addText pair.firstSource (pair.firstBase + (offset + 1) : Nat)).words.length := by
    rw [addText_words, List.length_append, List.length_singleton]
    exact Nat.lt_succ_of_le (first.kept?_le mark)
  have merged := likeness.held_merged lessSyntax text opaque_ (first.kept? mark).isNone some_
  rw [State.collapse_words, State.collapse_words, ← kept]
  exact merged

end Abreast

/-! ## Statements and blocks -/

section Boundaries

variable (scan : Scan) (state : State)

theorem onlyIf_reportSettled_state (needed : Bool) (fault : Fault) (offset : Int) :
    (Outcome.onlyIf needed state fun state => scan.reportSettled state fault offset).state =
      state :=
  (onlyIf_reportSettled ..).1

theorem emitSource_state (start stop : Int) :
    (scan.emitSource state start stop).state =
      if (scan.source.slice start stop).trim.isEmpty then state else state.settle := by
  unfold emitSource
  dsimp only
  split <;> rfl

theorem emitUpTo_state (stop : Int) :
    (scan.emitUpTo state stop).state =
      (if scan.options.splitRules then state.addText scan.source stop else state).settle := by
  unfold emitUpTo
  cases scan.options.splitRules with
  | true =>
      rw [if_pos rfl, if_pos rfl, Outcome.mapState, emitWords_state]
  | false =>
      rw [if_neg Bool.false_ne_true, if_neg Bool.false_ne_true, Outcome.mapState,
        emitSource_state]
      split <;> rfl

/-- A block that is closed leaves nothing behind. -/
theorem closeBlock_state (offset : Int) :
    (scan.closeBlock state offset).state =
      { cursor := offset + 1
        blockDepth := state.blockDepth - 1
        interpolations := state.interpolations.forgetMark
        bodyStart := offset + 1
        statementStart := offset + 1 } := by
  have reported (after : State) :=
    onlyIf_reportSettled_state scan after (after.blockDepth == 0) .unexpectedBlockEnd offset
  simp only [closeBlock, Outcome.mapState, Outcome.andThen, reported, emitUpTo_state]
  cases scan.options.splitRules <;> rfl

theorem tokens_closeBlock (offset : Int) :
    (scan.closeBlock state offset).tokens =
      (scan.emitUpTo state offset).tokens ++ [.closing offset] := by
  simp only [closeBlock, Outcome.mapState, Outcome.andThen, onlyIf_reportSettled,
    List.append_nil]

theorem tokens_endSource :
    (scan.endSource state).tokens = (scan.emitUpTo state scan.source.length).tokens := by
  simp only [endSource, Outcome.mapState, Outcome.andThen, onlyIf_reportSettled,
    List.nil_append]

theorem emitSource_addText_words (start stop offset : Int) :
    ((scan.emitSource state start stop).state.addText scan.source offset).words =
      (state.addText scan.source offset).words := by
  rw [emitSource_state]
  cases (scan.source.slice start stop).trim.isEmpty <;> rfl

end Boundaries

namespace Kindred

theorem settle (kindred : Kindred likeness first second) :
    Kindred likeness first.settle second.settle :=
  ⟨kindred.calls, kindred.interpolations, kindred.nested, rfl, kindred.depth, kindred.body,
    kindred.statement⟩

theorem beginStatement (kindred : Kindred likeness first second) {stop : Nat}
    (inside : stop ≤ pair.width) :
    Kindred likeness (first.beginStatement (pair.firstBase + stop : Nat))
      (second.beginStatement (pair.secondBase + stop : Nat)) :=
  ⟨congrArg Nest.forgetMark kindred.calls, congrArg Nest.forgetMark kindred.interpolations,
    kindred.nested, kindred.pendingError, kindred.depth, kindred.body,
    fun _ => likeness.level_of_le inside⟩

/-- Both scans emit the same stretch of their sources, or nothing. -/
theorem emitSource (kindred : Kindred likeness first second)
    (whole : pair.options.splitRules = false)
    {firstStart secondStart firstStop secondStop : Int}
    (starts : likeness.level firstStart secondStart)
    (stops : likeness.level firstStop secondStop) :
    let firstOutcome := pair.first.emitSource first firstStart firstStop
    let secondOutcome := pair.second.emitSource second secondStart secondStop
    Kindred likeness firstOutcome.state secondOutcome.state ∧
      likeness.Matches firstOutcome secondOutcome := by
  obtain ⟨sameEmpty, same⟩ := likeness.stretch whole starts stops
  dsimp only [Scan.emitSource, Pair.first, Pair.second]
  by_cases empty : (pair.secondSource.slice secondStart secondStop).trim.isEmpty = true
  · rw [if_pos empty, if_pos (sameEmpty.trans empty)]
    exact ⟨kindred, .silent ..⟩
  · rw [if_neg empty, if_neg (sameEmpty ▸ empty)]
    refine ⟨kindred.settle, .one ?_ ..⟩
    rw [kindred.pendingError]
    exact same _

theorem beginBody (kindred : Kindred likeness first second) {stop : Nat}
    (inside : stop ≤ pair.width) {firstDepth secondDepth : Int}
    (depth : likeness.counted → firstDepth = secondDepth) :
    Kindred likeness
      { first.beginBody (pair.firstBase + stop : Nat) with blockDepth := firstDepth }
      { second.beginBody (pair.secondBase + stop : Nat) with blockDepth := secondDepth } :=
  have begun := kindred.beginStatement inside
  ⟨begun.calls, begun.interpolations, begun.nested, begun.pendingError, depth,
    fun _ => likeness.level_of_le inside, begun.statement⟩

end Kindred

namespace Abreast

/-- A statement begins. -/
theorem fresh {stop : Nat} (inside : stop ≤ pair.width) (kindred : Kindred likeness first second)
    (firstCursor : first.cursor = (pair.firstBase + stop : Nat))
    (secondCursor : second.cursor = (pair.secondBase + stop : Nat))
    (noFirst : first.words = []) (noSecond : second.words = []) :
    Abreast likeness stop first second :=
  renew inside kindred firstCursor secondCursor (by
    rw [noFirst, noSecond]
    exact likeness.held_nil)

theorem emitWords (abreast : Abreast likeness place first second) {offset : Nat}
    (behind : place ≤ offset) (inside : offset ≤ pair.width) (terminator : Text) :
    likeness.Matches
      (pair.first.emitWords (first.addText pair.firstSource (pair.firstBase + offset : Nat))
        terminator)
      (pair.second.emitWords (second.addText pair.secondSource (pair.secondBase + offset : Nat))
        terminator) := by
  obtain ⟨tokens, kinds⟩ := likeness.emitted (abreast.held_addText behind inside)
    abreast.kindred.pendingError terminator
  exact ⟨tokens, fun _ => kinds⟩

theorem endStatement (abreast : Abreast likeness place first second) {offset : Nat}
    (behind : place ≤ offset) (inside : offset + 1 ≤ pair.width) :
    let firstOutcome := pair.first.endStatement first (pair.firstBase + offset : Nat)
    let secondOutcome := pair.second.endStatement second (pair.secondBase + offset : Nat)
    (∃ later, Abreast likeness later firstOutcome.state secondOutcome.state) ∧
      likeness.Matches firstOutcome secondOutcome := by
  have kindred := abreast.kindred
  by_cases nested : 0 < first.calls.depth
  · have secondNested : 0 < second.calls.depth := kindred.calls ▸ nested
    rw [endStatement_inside _ _ _ nested, endStatement_inside _ _ _ secondNested]
    exact ⟨⟨place, abreast⟩, .silent ..⟩
  · have secondOutside : ¬0 < second.calls.depth := kindred.calls ▸ nested
    refine ⟨⟨offset + 1, ?_⟩, ?_⟩
    · rw [endStatement_state _ _ _ nested, endStatement_state _ _ _ secondOutside]
      have settled (split : Bool) : Kindred likeness (if split then first.settle else first)
          (if split then second.settle else second) := by
        cases split with
        | true => exact kindred.settle
        | false => exact kindred
      exact fresh inside ((settled _).beginStatement inside) rfl rfl rfl rfl
    · rw [Scan.endStatement, Scan.endStatement, if_neg nested, if_neg secondOutside]
      refine .mapState (.onlyIf rfl fun _ => .mapState ?_)
      exact abreast.emitWords behind (Nat.le_of_succ_le inside) _

theorem openBlock (abreast : Abreast likeness place first second) {offset : Nat}
    (behind : place ≤ offset) (inside : offset + 1 ≤ pair.width) :
    let firstOutcome := pair.first.openBlock first (pair.firstBase + offset : Nat)
    let secondOutcome := pair.second.openBlock second (pair.secondBase + offset : Nat)
    (∃ later, Abreast likeness later firstOutcome.state secondOutcome.state) ∧
      likeness.Matches firstOutcome secondOutcome := by
  have heading := likeness.opening (abreast.held_addText behind (Nat.le_of_succ_le inside))
    (by simp [addText_words])
  have sameNeed : (!pair.options.splitRules && decide (first.bodyStart < first.statementStart)) =
      (!pair.options.splitRules && decide (second.bodyStart < second.statementStart)) := by
    cases whole : pair.options.splitRules with
    | true => rfl
    | false =>
        have kindred := abreast.kindred
        rw [Bool.not_false, Bool.true_and, Bool.true_and, decide_eq_decide]
        exact likeness.level_lt (kindred.body whole) (kindred.statement whole)
  simp only [Scan.openBlock]
  rw [show pair.first.options = pair.options from rfl,
    show pair.second.options = pair.options from rfl, ← sameNeed]
  cases needed : !pair.options.splitRules && decide (first.bodyStart < first.statementStart) with
  | false =>
      refine ⟨⟨offset + 1, ?_⟩, .andThen (.silent ..) (.one heading ..)⟩
      refine fresh inside (abreast.kindred.beginBody inside fun counted => ?_) rfl rfl rfl rfl
      exact congrArg (· + 1) (abreast.kindred.depth counted)
  | true =>
      have whole : pair.options.splitRules = false := by
        simpa using (Bool.and_eq_true_iff.mp needed).1
      obtain ⟨kindred, emitted⟩ := abreast.kindred.emitSource whole
        (abreast.kindred.body whole) (abreast.kindred.statement whole)
      have later : likeness.same
          (.openingOf ((pair.first.emitSource first first.bodyStart
            first.statementStart).state.addText pair.firstSource
              (pair.firstBase + offset : Nat)).words)
          (.openingOf ((pair.second.emitSource second second.bodyStart
            second.statementStart).state.addText pair.secondSource
              (pair.secondBase + offset : Nat)).words) := by
        have firstWords (offset : Int) :
            ((pair.first.emitSource first first.bodyStart first.statementStart).state.addText
              pair.firstSource offset).words = (first.addText pair.firstSource offset).words :=
          emitSource_addText_words ..
        have secondWords (offset : Int) :
            ((pair.second.emitSource second second.bodyStart second.statementStart).state.addText
              pair.secondSource offset).words = (second.addText pair.secondSource offset).words :=
          emitSource_addText_words ..
        rw [firstWords, secondWords]
        exact heading
      refine ⟨⟨offset + 1, ?_⟩, .andThen emitted (.one later ..)⟩
      refine fresh inside (kindred.beginBody inside fun counted => ?_) rfl rfl rfl rfl
      exact congrArg (· + 1) (kindred.depth counted)

theorem emitUpTo (abreast : Abreast likeness place first second) {offset : Nat}
    (behind : place ≤ offset) (inside : offset ≤ pair.width) :
    likeness.Matches (pair.first.emitUpTo first (pair.firstBase + offset : Nat))
      (pair.second.emitUpTo second (pair.secondBase + offset : Nat)) := by
  simp only [Scan.emitUpTo]
  rw [show pair.first.options = pair.options from rfl,
    show pair.second.options = pair.options from rfl]
  cases whole : pair.options.splitRules with
  | true => exact .mapState (abreast.emitWords behind inside _)
  | false =>
      exact .mapState (abreast.kindred.emitSource whole (abreast.kindred.body whole)
        (likeness.level_of_le inside)).2

theorem closeBlock (abreast : Abreast likeness place first second) {offset : Nat}
    (behind : place ≤ offset) (inside : offset + 1 ≤ pair.width) :
    let firstOutcome := pair.first.closeBlock first (pair.firstBase + offset : Nat)
    let secondOutcome := pair.second.closeBlock second (pair.secondBase + offset : Nat)
    (∃ later, Abreast likeness later firstOutcome.state secondOutcome.state) ∧
      likeness.Matches firstOutcome secondOutcome := by
  have kindred := abreast.kindred
  constructor
  · refine ⟨offset + 1, ?_⟩
    rw [closeBlock_state, closeBlock_state]
    refine fresh inside ⟨rfl, congrArg Nest.forgetMark kindred.interpolations,
      kindred.nested, rfl, ?_, fun _ => likeness.level_of_le inside,
      fun _ => likeness.level_of_le inside⟩ rfl rfl rfl rfl
    exact fun counted => congrArg (· - 1) (kindred.depth counted)
  · have emitted := abreast.emitUpTo behind (Nat.le_of_succ_le inside)
    have depth (scan : Scan) (state : State) (stop : Int) :
        (scan.emitUpTo state stop).state.blockDepth = state.blockDepth := by
      rw [emitUpTo_state]
      cases scan.options.splitRules <;> rfl
    rw [Scan.closeBlock, Scan.closeBlock]
    refine .mapState (.andThen (.andThen emitted (.one (likeness.closing offset) ..))
      (.onlyIf_reportSettled (fun counted => ?_) ..))
    simp only [Outcome.andThen, depth, kindred.depth counted]

end Abreast

/-! ## Reactions -/

/-- Both scans find a marker at an offset behind their bases, and the same behind it. -/
structure Pair.Sees (pair : Pair) (marker : Marker) (offset : Nat) : Prop where
  firstBegins : pair.first.markerAt? (pair.firstBase + offset) = some marker
  secondBegins : pair.second.markerAt? (pair.secondBase + offset) = some marker
  sameCount : (glimpse pair.options marker (pair.firstSource.drop (pair.firstBase + offset))).count =
    (glimpse pair.options marker (pair.secondSource.drop (pair.secondBase + offset))).count
  sameFault : (glimpse pair.options marker
      (pair.firstSource.drop (pair.firstBase + offset))).fault.isSome =
    (glimpse pair.options marker (pair.secondSource.drop (pair.secondBase + offset))).fault.isSome
  sameReports : reported pair.options
      (glimpse pair.options marker (pair.firstSource.drop (pair.firstBase + offset))).fault =
    reported pair.options
      (glimpse pair.options marker (pair.secondSource.drop (pair.secondBase + offset))).fault
  inside : offset +
    (glimpse pair.options marker (pair.firstSource.drop (pair.firstBase + offset))).count ≤ pair.width

theorem lessSyntax_of_begins {scan : Scan} {marker : Marker} {offset : Nat}
    (begins : scan.markerAt? offset = some marker) (extended : marker ∈ Marker.extended) :
    scan.options.lessSyntax = true := by
  have isActive := (markerAt?_eq_some_iff.mp begins).1
  cases less : scan.options.lessSyntax with
  | true => rfl
  | false =>
      have apart : ∀ other ∈ Marker.extended, other ∉ Marker.active false := by decide
      rw [less] at isActive
      exact absurd isActive (apart marker extended)

theorem wordKind_eq {found other : Glimpse} (same : found.fault.isSome = other.fault.isSome)
    (whole : WordKind) : found.wordKind whole = other.wordKind whole := by
  rw [Glimpse.wordKind, Glimpse.wordKind, same]

theorem Abreast.openInterpolation (abreast : Abreast likeness place first second)
    (lessSyntax : pair.options.lessSyntax = true) {offset : Nat} (behind : place ≤ offset)
    (inside : offset + 2 ≤ pair.width) :
    let firstOutcome := pair.first.openInterpolation first (pair.firstBase + offset : Nat)
    let secondOutcome := pair.second.openInterpolation second (pair.secondBase + offset : Nat)
    (∃ later, Abreast likeness later firstOutcome.state secondOutcome.state) ∧
      likeness.Matches firstOutcome secondOutcome := by
  have taken := abreast.text (Nat.le_add_right_of_le behind) (Nat.le_refl (offset + 2)) inside
  refine ⟨⟨offset + 2, ?_⟩, .silent ..⟩
  exact taken.recount abreast.kindred.calls
    (by rw [abreast.kindred.interpolations, abreast.length_eq lessSyntax]) fun _ => lessSyntax

/-- Both scans close a nested construct. -/
theorem Abreast.collapseOutermost (abreast : Abreast likeness place first second)
    (lessSyntax : pair.options.lessSyntax = true) {offset : Nat} (behind : place ≤ offset)
    (inside : offset + 1 ≤ pair.width) {kind : WordKind} (opaque_ : kind ≠ .text) (nest : Nest) :
    ∃ later, Abreast likeness later
      (pair.first.collapseOutermost first (pair.firstBase + offset : Nat) kind nest)
      (pair.second.collapseOutermost second (pair.secondBase + offset : Nat) kind nest) := by
  unfold Scan.collapseOutermost
  split
  · exact ⟨offset + 1, abreast.collapse lessSyntax behind inside opaque_ nest.mark⟩
  · exact ⟨place, abreast⟩

section Constructs

variable {offset : Nat}

/-- Both scans have taken a construct, and they report the same of it. -/
theorem Abreast.taken {firstTaken secondTaken : State} {firstOutcome secondOutcome : Outcome}
    {firstReports secondReports : List FaultKind}
    (abreast : Abreast likeness place firstTaken secondTaken)
    (firstReads : firstOutcome.state = firstTaken.afterReports firstReports ∧
      firstOutcome.tokens = [] ∧ firstOutcome.kinds = firstReports)
    (secondReads : secondOutcome.state = secondTaken.afterReports secondReports ∧
      secondOutcome.tokens = [] ∧ secondOutcome.kinds = secondReports)
    (same : firstReports = secondReports) :
    (∃ later, Abreast likeness later firstOutcome.state secondOutcome.state) ∧
      likeness.Matches firstOutcome secondOutcome := by
  obtain ⟨firstState, firstTokens, firstKinds⟩ := firstReads
  obtain ⟨secondState, secondTokens, secondKinds⟩ := secondReads
  subst same
  rw [firstState, secondState]
  exact ⟨⟨place, abreast.afterReports _⟩,
    .quiet firstTokens secondTokens (firstKinds.trans secondKinds.symm)⟩

theorem Abreast.readString (abreast : Abreast likeness place first second)
    (behind : place ≤ offset) {quote : Quote} (sees : pair.Sees (.quote quote) offset) :
    let firstOutcome := pair.first.readString quote first (pair.firstBase + offset : Nat)
    let secondOutcome := pair.second.readString quote second (pair.secondBase + offset : Nat)
    (∃ later, Abreast likeness later firstOutcome.state secondOutcome.state) ∧
      likeness.Matches firstOutcome secondOutcome := by
  have firstReads := pair.first.readString_eq first quote
    (Nat.le_of_add_right_le (lt_length_of_markerAt? sees.firstBegins))
  have secondReads := pair.second.readString_eq second quote
    (Nat.le_of_add_right_le (lt_length_of_markerAt? sees.secondBegins))
  simp only [Pair.first, Pair.second, Nat.add_assoc, ← sees.sameCount, ← sees.sameReports,
    ← wordKind_eq sees.sameFault] at firstReads secondReads
  exact (abreast.literal behind (Nat.le_add_right ..) sees.inside _ _).taken firstReads
    secondReads rfl

theorem Abreast.readUrl (abreast : Abreast likeness place first second) (behind : place ≤ offset)
    (sees : pair.Sees .url offset) :
    let firstOutcome := pair.first.readUrl first (pair.firstBase + offset : Nat)
    let secondOutcome := pair.second.readUrl second (pair.secondBase + offset : Nat)
    (∃ later, Abreast likeness later firstOutcome.state secondOutcome.state) ∧
      likeness.Matches firstOutcome secondOutcome := by
  have firstReads := pair.first.readUrl_eq first (pair.firstBase + offset)
  have secondReads := pair.second.readUrl_eq second (pair.secondBase + offset)
  simp only [Pair.first, Pair.second, Nat.add_assoc, ← sees.sameCount, ← sees.sameReports,
    ← wordKind_eq sees.sameFault] at firstReads secondReads
  exact (abreast.literal behind (Nat.le_add_right ..) sees.inside _ _).taken firstReads
    secondReads rfl

theorem Abreast.skipComment (abreast : Abreast likeness place first second)
    (behind : place ≤ offset) (sees : pair.Sees .comment offset) :
    let firstOutcome := pair.first.skipComment first (pair.firstBase + offset : Nat)
    let secondOutcome := pair.second.skipComment second (pair.secondBase + offset : Nat)
    (∃ later, Abreast likeness later firstOutcome.state secondOutcome.state) ∧
      likeness.Matches firstOutcome secondOutcome := by
  have firstReads := pair.first.skipComment_eq first
    (Nat.le_of_add_right_le (lt_length_of_markerAt? sees.firstBegins))
  have secondReads := pair.second.skipComment_eq second
    (Nat.le_of_add_right_le (lt_length_of_markerAt? sees.secondBegins))
  simp only [Pair.first, Pair.second, Nat.add_assoc, ← sees.sameCount, ← sees.sameReports]
    at firstReads secondReads
  exact (abreast.text behind (Nat.le_add_right ..) sees.inside).taken firstReads secondReads rfl

theorem Abreast.closeBrace (abreast : Abreast likeness place first second)
    (behind : place ≤ offset) (inside : offset + 1 ≤ pair.width) :
    let firstOutcome := pair.first.closeBrace first (pair.firstBase + offset : Nat)
    let secondOutcome := pair.second.closeBrace second (pair.secondBase + offset : Nat)
    (∃ later, Abreast likeness later firstOutcome.state secondOutcome.state) ∧
      likeness.Matches firstOutcome secondOutcome := by
  simp only [Scan.closeBrace, ← abreast.kindred.interpolations]
  by_cases nested : 0 < first.interpolations.depth
  · have lessSyntax := abreast.kindred.nested nested
    obtain ⟨later, collapsed⟩ := abreast.collapseOutermost lessSyntax behind inside
      (by decide : WordKind.interpolation ≠ .text) first.interpolations
    rw [if_pos nested, if_pos nested, closeInterpolation, closeInterpolation,
      ← abreast.kindred.interpolations]
    exact ⟨⟨later, collapsed.recount collapsed.kindred.calls rfl fun _ => lessSyntax⟩,
      .silent ..⟩
  · rw [if_neg nested, if_neg nested]
    exact abreast.closeBlock behind inside

theorem Abreast.openCall (abreast : Abreast likeness place first second)
    (lessSyntax : pair.options.lessSyntax = true) (behind : place ≤ offset)
    (inside : offset + 1 ≤ pair.width) :
    let firstOutcome := pair.first.openCall first (pair.firstBase + offset : Nat)
    let secondOutcome := pair.second.openCall second (pair.secondBase + offset : Nat)
    (∃ later, Abreast likeness later firstOutcome.state secondOutcome.state) ∧
      likeness.Matches firstOutcome secondOutcome := by
  have taken := abreast.text behind (Nat.le_refl offset) (Nat.le_of_succ_le inside)
  refine ⟨⟨offset, ?_⟩, .silent ..⟩
  exact taken.recount (by rw [abreast.kindred.calls, abreast.length_eq lessSyntax])
    abreast.kindred.interpolations abreast.kindred.nested

theorem Abreast.closeCall (abreast : Abreast likeness place first second)
    (lessSyntax : pair.options.lessSyntax = true) (behind : place ≤ offset)
    (inside : offset + 1 ≤ pair.width) :
    let firstOutcome := pair.first.closeCall first (pair.firstBase + offset : Nat)
    let secondOutcome := pair.second.closeCall second (pair.secondBase + offset : Nat)
    (∃ later, Abreast likeness later firstOutcome.state secondOutcome.state) ∧
      likeness.Matches firstOutcome secondOutcome := by
  obtain ⟨later, collapsed⟩ := abreast.collapseOutermost lessSyntax behind inside
    (by decide : WordKind.call ≠ .text) second.calls
  simp only [Scan.closeCall, abreast.kindred.calls]
  exact ⟨⟨later, collapsed.recount rfl collapsed.kindred.interpolations
    collapsed.kindred.nested⟩, .silent ..⟩

end Constructs

/-- Scans that find the same react alike. -/
theorem Abreast.react (abreast : Abreast likeness place first second) {marker : Marker}
    {offset : Nat} (behind : place ≤ offset) (sees : pair.Sees marker offset) :
    let firstOutcome := pair.first.react marker first (pair.firstBase + offset : Nat)
    let secondOutcome := pair.second.react marker second (pair.secondBase + offset : Nat)
    (∃ later, Abreast likeness later firstOutcome.state secondOutcome.state) ∧
      likeness.Matches firstOutcome secondOutcome := by
  have firstInside := lt_length_of_markerAt? sees.firstBegins
  have secondInside := lt_length_of_markerAt? sees.secondBegins
  have lessSyntax := @lessSyntax_of_begins pair.first marker _ sees.firstBegins
  cases marker with
  | quote quote => exact abreast.readString behind sees
  | url => exact abreast.readUrl behind sees
  | comment => exact abreast.skipComment behind sees
  | openBrace => exact abreast.openBlock behind sees.inside
  | closeBrace => exact abreast.closeBrace behind sees.inside
  | semicolon => exact abreast.endStatement behind sees.inside
  | openParen => exact abreast.openCall (lessSyntax (by decide)) behind sees.inside
  | closeParen => exact abreast.closeCall (lessSyntax (by decide)) behind sees.inside
  | atInterpolation =>
      exact abreast.openInterpolation (lessSyntax (by decide)) behind sees.inside
  | hashInterpolation =>
      exact abreast.openInterpolation (lessSyntax (by decide)) behind sees.inside
  | backslash =>
      simp only [Scan.react]
      rw [readEscape_eq _ _ (Nat.le_of_add_right_le firstInside),
        readEscape_eq _ _ (Nat.le_of_add_right_le secondInside), Nat.add_assoc, Nat.add_assoc,
        Pair.first, Pair.second, ← sees.sameCount]
      exact ⟨⟨_, abreast.text (Nat.le_add_right_of_le behind) (Nat.le_refl _) sees.inside⟩,
        .silent ..⟩
  | lineComment =>
      simp only [Scan.react]
      rw [skipLine_eq _ _ firstInside, skipLine_eq _ _ secondInside, Nat.add_assoc, Nat.add_assoc,
        Pair.first, Pair.second, ← sees.sameCount]
      exact ⟨⟨_, abreast.text behind (Nat.le_add_right ..) sees.inside⟩, .silent ..⟩

/-! ## Runs -/

/-- Scans that find the same at each marker that they handle stay abreast. What the first
one handles leaves its cursor within a bound. -/
theorem Abreast.course (abreast : Abreast likeness place first second)
    (entries : List (Marker × Nat)) (bound : Int)
    (begin_ : ∀ entry ∈ entries,
      pair.first.markerAt? (pair.firstBase + entry.2) = some entry.1)
    (sees : ∀ front marker offset back, entries = front ++ (marker, offset) :: back →
      let firstState := (pair.first.course first (front.map (Marker.moved pair.firstBase))).state
      let secondState :=
        (pair.second.course second (front.map (Marker.moved pair.secondBase))).state
      firstState.cursor ≤ (pair.firstBase + offset : Nat) →
        secondState.cursor ≤ (pair.secondBase + offset : Nat) →
          (pair.first.react marker firstState (pair.firstBase + offset : Nat)).state.cursor ≤
              bound →
            pair.Sees marker offset)
    (bounded : (pair.first.course first
      (entries.map (Marker.moved pair.firstBase))).state.cursor ≤ bound) :
    let firstOutcome := pair.first.course first (entries.map (Marker.moved pair.firstBase))
    let secondOutcome := pair.second.course second (entries.map (Marker.moved pair.secondBase))
    (∃ later, Abreast likeness later firstOutcome.state secondOutcome.state) ∧
      likeness.Matches firstOutcome secondOutcome := by
  induction entries generalizing place first second with
  | nil => exact ⟨⟨place, abreast⟩, .silent ..⟩
  | cons entry entries induction =>
      obtain ⟨marker, offset⟩ := entry
      have beginLater := fun entry member => begin_ entry (List.mem_cons_of_mem _ member)
      simp only [List.map_cons, Marker.moved, Scan.course] at bounded ⊢
      by_cases consumed : offset < place
      · have passed := (abreast.firstPace offset).mpr consumed
        have secondPassed := (abreast.secondPace offset).mpr consumed
        rw [if_pos passed] at bounded
        rw [if_pos passed, if_pos secondPassed]
        refine induction abreast beginLater (fun front other later back split => ?_) bounded
        have seesOther := sees ((marker, offset) :: front) other later back (by rw [split]; rfl)
        simp only [List.map_cons, Marker.moved, Scan.course, if_pos passed,
          if_pos secondPassed] at seesOther
        exact seesOther
      · have firstNotConsumed := (abreast.firstPace offset).not.mpr consumed
        have secondNotConsumed := (abreast.secondPace offset).not.mpr consumed
        rw [if_neg firstNotConsumed] at bounded
        rw [if_neg firstNotConsumed, if_neg secondNotConsumed]
        have reached := Int.not_lt.mp firstNotConsumed
        have listed : ∀ entry ∈ entries.map (Marker.moved pair.firstBase),
            pair.first.markerAt? entry.2 = some entry.1 := by
          intro entry member
          obtain ⟨inner, isInner, rfl⟩ := List.mem_map.mp member
          exact beginLater inner isInner
        have landed := Int.le_trans (cursor_le_course listed) bounded
        obtain ⟨⟨later, next⟩, here⟩ := abreast.react (Nat.not_lt.mp consumed)
          (sees [] marker offset entries rfl reached (Int.not_lt.mp secondNotConsumed) landed)
        have seesLater (front : List (Marker × Nat)) (other : Marker) (behind : Nat)
            (back : List (Marker × Nat)) (split : entries = front ++ (other, behind) :: back) := by
          have seesOther := sees ((marker, offset) :: front) other behind back (by rw [split]; rfl)
          simp only [List.map_cons, Marker.moved, Scan.course, if_neg firstNotConsumed,
            if_neg secondNotConsumed] at seesOther
          exact seesOther
        obtain ⟨last, rest⟩ := induction next beginLater seesLater bounded
        exact ⟨last, here.andThen rest⟩

/-- Scans that come to the end of their sources side by side end alike. -/
theorem Abreast.endSource (abreast : Abreast likeness place first second)
    (firstEnd : pair.firstSource.length = pair.firstBase + pair.width)
    (secondEnd : pair.secondSource.length = pair.secondBase + pair.width) :
    likeness.Matches (pair.first.endSource first) (pair.second.endSource second) := by
  have emitted := abreast.emitUpTo abreast.inside (Nat.le_refl pair.width)
  rw [← firstEnd, ← secondEnd] at emitted
  rw [Scan.endSource, Scan.endSource]
  refine .mapState (.andThen (.onlyIf_reportSettled (fun counted => ?_) ..) ?_)
  · rw [abreast.kindred.depth counted]
  · rw [onlyIf_reportSettled_state, onlyIf_reportSettled_state]
    exact emitted

end Scan
end Stylesheet
