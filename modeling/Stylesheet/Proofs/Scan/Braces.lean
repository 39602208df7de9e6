import Stylesheet.Proofs.Scan.Ascent
import Stylesheet.Proofs.Scan.Reports
import Stylesheet.Proofs.Scan.Unsplit
import Stylesheet.Proofs.Token.Folding

/-!
# What is reported of braces

A scan counts the openings less the closings that it has emitted. It reports the closings
that the count meets at zero, and at the end whether the count is positive. Nesting matches
braces instead. The two agree up to the first closing without an open block; behind it the
count is one too low.
-/

namespace Stylesheet

/-- Whether a fault is one of the braces of blocks. -/
def FaultKind.isBrace : FaultKind → Bool
  | unexpectedBlockEnd => true
  | missingBlockEnd => true
  | unmatchedBlockEnd => true
  | _ => false

/-- What is reported of braces. -/
def braceReports (diagnostics : List Diagnostic) : List Diagnostic :=
  diagnostics.filter (·.kind.isBrace)

theorem braceReports_append (first second : List Diagnostic) :
    braceReports (first ++ second) = braceReports first ++ braceReports second :=
  List.filter_append ..

theorem filter_kind {kind : FaultKind} (isBrace : kind.isBrace = true)
    {diagnostics : List Diagnostic} :
    diagnostics.filter (·.kind = kind) = (braceReports diagnostics).filter (·.kind = kind) := by
  rw [braceReports, List.filter_filter]
  refine List.filter_congr fun diagnostic _ => ?_
  by_cases same : diagnostic.kind = kind
  · simp [same, isBrace]
  · simp [same]

/-- Tokens that are no boundaries change no count. -/
theorem Token.of_no_boundary {tokens : List Token}
    (noBoundary : tokens.filter Token.isBoundary = []) :
    balance tokens = 0 ∧ (∀ count, closingsAtZero count tokens = []) ∧ flatten tokens = tokens := by
  induction tokens with
  | nil => exact ⟨rfl, fun _ => rfl, rfl⟩
  | cons token tokens induction =>
      rw [List.filter_cons] at noBoundary
      split at noBoundary
      · cases noBoundary
      next inside =>
        obtain ⟨level, noClosings, areFlat⟩ := induction noBoundary
        cases token with
        | code text offset error => simp [level, noClosings, areFlat, rise, closingsAtZero,
            isClosing, flatten, flattenOne]
        | rule declaration offset error => simp [level, noClosings, areFlat, rise, closingsAtZero,
            isClosing, flatten, flattenOne]
        | bare atRule => simp [level, noClosings, areFlat, rise, closingsAtZero,
            isClosing, flatten, flattenOne]
        | _ => exact absurd rfl inside

namespace Scan

open Token (balance closingsAtZero)

variable {scan : Scan} {state : State}

/-- An outcome that keeps the count of open blocks, and reports the closings that the count
meets at zero. -/
structure Counts (source : Text) (before : State) (outcome : Outcome) : Prop where
  depth : outcome.state.blockDepth = before.blockDepth + balance outcome.tokens
  areFlat : Token.flatten outcome.tokens = outcome.tokens
  reports : braceReports outcome.diagnostics =
    (closingsAtZero before.blockDepth outcome.tokens).map (.ofFault .unexpectedBlockEnd source)

namespace Counts

variable {source : Text} {outcome : Outcome}

/-- Statements count for nothing. -/
theorem of_no_boundary (depth : outcome.state.blockDepth = state.blockDepth)
    (noBoundary : outcome.tokens.filter Token.isBoundary = [])
    (quiet : braceReports outcome.diagnostics = []) : Counts source state outcome := by
  obtain ⟨level, noClosings, areFlat⟩ := Token.of_no_boundary noBoundary
  exact ⟨by rw [depth, level, Int.add_zero], areFlat, by rw [quiet, noClosings, List.map_nil]⟩

theorem silent (source : Text) (state : State) : Counts source state { state } :=
  of_no_boundary rfl rfl rfl

theorem andThen {next : State → Outcome} (first : Counts source state outcome)
    (second : Counts source outcome.state (next outcome.state)) :
    Counts source state (outcome.andThen next) where
  depth := by
    rw [Outcome.andThen, Token.balance_append, ← Int.add_assoc, ← first.depth]
    exact second.depth
  areFlat := by
    rw [Outcome.andThen, Token.flatten_append, first.areFlat, second.areFlat]
  reports := by
    rw [Outcome.andThen, braceReports_append, first.reports, second.reports,
      Token.closingsAtZero_append, List.map_append, first.depth]

end Counts

theorem braceReports_ofStatement {diagnostics : List Diagnostic}
    (ofStatement : OfStatement scan state diagnostics) : braceReports diagnostics = [] := by
  rcases ofStatement with rfl | ⟨rfl, -⟩ <;> rfl

theorem isBrace_of_defect {offset : Nat} {fault : Fault} {place cursor : Int}
    (defect : Defect scan offset fault place cursor) : fault.kind.isBrace = false := by
  cases defect <;> cases fault <;> simp_all [Fault.kind, FaultKind.isFinal, FaultKind.isUrl,
    FaultKind.isBrace]

section Strict

variable (strict : scan.options.ignoreErrors = false)

include strict

theorem counts_closeBlock (anchored : state.Anchored) (offset : Int) :
    Counts scan.source state (scan.closeBlock state offset) := by
  obtain ⟨level, noClosings, areFlat⟩ :=
    Token.of_no_boundary (scan.filter_emitUpTo state offset)
  constructor
  · rw [closeBlock_state, tokens_closeBlock, Token.balance_append, level]
    rfl
  · rw [tokens_closeBlock, Token.flatten_append, areFlat]
    rfl
  · rw [diagnostics_closeBlock strict, braceReports_append,
      braceReports_ofStatement (ofStatement_emitUpTo strict anchored offset), tokens_closeBlock,
      Token.closingsAtZero_append, noClosings, level, Int.add_zero]
    by_cases zero : state.blockDepth = 0
    · rw [zero]
      rfl
    · simp [zero, closingsAtZero, braceReports]

omit strict in
theorem counts_openBlock (offset : Int) :
    Counts scan.source state (scan.openBlock state offset) := by
  obtain ⟨level, noClosings, areFlat⟩ :=
    Token.of_no_boundary (scan.filter_emitAhead state)
  have depth : (scan.emitAhead state).state.blockDepth = state.blockDepth := by
    obtain ⟨error, flagged⟩ := scan.exists_emitAhead_state state
    rw [flagged]
    rfl
  constructor
  · rw [tokens_openBlock, Token.balance_append, level]
    exact (congrArg (· + 1) depth).trans (by rfl)
  · rw [tokens_openBlock, Token.flatten_append, areFlat]
    rfl
  · rw [diagnostics_openBlock, tokens_openBlock, Token.closingsAtZero_append, noClosings]
    rfl

theorem counts_react (anchored : state.Anchored) {marker : Marker} {offset : Nat}
    (begins : scan.markerAt? offset = some marker) :
    Counts scan.source state (scan.react marker state offset) := by
  rcases react_cases state begins with
    goesOn | rfl | ⟨rfl, outside⟩ | ⟨rfl, outside⟩
  · refine .of_no_boundary goesOn.depth (by rw [goesOn.tokens]; rfl) ?_
    rcases goesOn.reports with ⟨none_, -⟩ | ⟨fault, place, reports, -, defect⟩
    · rw [none_]
      rfl
    · rw [reports]
      exact List.filter_cons_of_neg (Bool.eq_false_iff.mp (isBrace_of_defect defect))
  · exact counts_openBlock offset
  · refine .of_no_boundary ?_ (filter_endStatement scan state outside offset)
      (braceReports_ofStatement (ofStatement_endStatement strict anchored outside offset))
    rw [react, endStatement_state _ _ _ outside]
    split <;> rfl
  · rw [react, closeBrace, if_neg outside]
    exact counts_closeBlock strict anchored offset

theorem counts_course (anchored : state.Anchored) {entries : List (Marker × Nat)}
    (begin_ : ∀ entry ∈ entries, scan.markerAt? entry.2 = some entry.1) :
    Counts scan.source state (scan.course state entries) ∧
      (scan.course state entries).state.Anchored := by
  induction entries generalizing state with
  | nil => exact ⟨.silent .., anchored⟩
  | cons entry entries induction =>
      obtain ⟨marker, offset⟩ := entry
      have begins := begin_ _ List.mem_cons_self
      have later := fun entry member => begin_ entry (List.mem_cons_of_mem _ member)
      rw [course]
      split
      · exact induction anchored later
      next notConsumed =>
        have reached := Int.not_lt.mp notConsumed
        obtain ⟨rest, finally_⟩ := induction (anchored.react begins reached) later
        exact ⟨(counts_react strict anchored begins).andThen rest, finally_⟩

end Strict

/-- What is reported of braces is read off the running count of the tokens. -/
theorem counts_whole (scan : Scan) (strict : scan.options.ignoreErrors = false) :
    Token.flatten scan.whole.tokens = scan.whole.tokens ∧
      braceReports scan.whole.diagnostics =
        (closingsAtZero 0 scan.whole.tokens).map (.ofFault .unexpectedBlockEnd scan.source) ++
          if 0 < balance scan.whole.tokens then
            [.ofFault .missingBlockEnd scan.source scan.source.length]
          else [] := by
  obtain ⟨counts, anchored⟩ := counts_course strict .start
    fun entry (member : entry ∈ scan.markers) => markerAt?_of_mem_markers member
  generalize run : scan.course {} scan.markers = outcome at counts anchored
  obtain ⟨level, noClosings, areFlat⟩ :=
    Token.of_no_boundary (scan.filter_emitUpTo outcome.state scan.source.length)
  have tokens : scan.whole.tokens =
      outcome.tokens ++ (scan.emitUpTo outcome.state scan.source.length).tokens := by
    rw [whole, run, Outcome.andThen, tokens_endSource]
  have depth : outcome.state.blockDepth = balance scan.whole.tokens := by
    rw [counts.depth, tokens, Token.balance_append, level, Int.add_zero]
    exact Int.zero_add _
  constructor
  · rw [tokens, Token.flatten_append, counts.areFlat, areFlat]
  · rw [← depth, tokens, Token.closingsAtZero_append, noClosings, List.append_nil, whole, run,
      Outcome.andThen, braceReports_append, counts.reports, diagnostics_endSource strict,
      braceReports_append, braceReports_ofStatement (ofStatement_emitUpTo strict anchored _),
      List.append_nil]
    split <;> rfl

end Scan

/-! ## Readings -/

/-- Whether what is reported of braces is what matching them finds: a closing is reported
where it stands if it finds no open block, and at the end it is reported if and only if a
block is left open. -/
def Reading.MatchesBraces (reading : Reading) : Prop :=
  (reading.diagnostics.filter (·.kind = .unexpectedBlockEnd)).map (·.offset) =
      (Nesting.strays {} reading.tokens).map some ∧
    ((∃ diagnostic ∈ reading.diagnostics, diagnostic.kind = .missingBlockEnd) ↔
      (Nesting.feedAll {} reading.tokens).opened ≠ [])

section Reports

variable {source : Text} {diagnostics : List Diagnostic} {places : List Int} {isOpen : Prop}
  [Decidable isOpen]
  (reports : braceReports diagnostics = places.map (.ofFault .unexpectedBlockEnd source) ++
    if isOpen then [.ofFault .missingBlockEnd source source.length] else [])

include reports

theorem filter_unexpected :
    diagnostics.filter (·.kind = .unexpectedBlockEnd) =
      places.map (.ofFault .unexpectedBlockEnd source) := by
  have closings : (places.map (Diagnostic.ofFault .unexpectedBlockEnd source)).filter
      (·.kind = .unexpectedBlockEnd) = places.map (.ofFault .unexpectedBlockEnd source) := by
    rw [List.filter_eq_self]
    simp [Diagnostic.ofFault, Diagnostic.locate, Fault.kind]
  rw [filter_kind rfl, reports, List.filter_append, closings]
  split <;> simp [Diagnostic.ofFault, Diagnostic.locate, Fault.kind]

theorem filter_missing :
    diagnostics.filter (·.kind = .missingBlockEnd) =
      if isOpen then [.ofFault .missingBlockEnd source source.length] else [] := by
  have closings : (places.map (Diagnostic.ofFault .unexpectedBlockEnd source)).filter
      (·.kind = .missingBlockEnd) = [] := by
    simp [Diagnostic.ofFault, Diagnostic.locate, Fault.kind]
  rw [filter_kind rfl, reports, List.filter_append, closings]
  split <;> rfl

theorem exists_missing_iff :
    (∃ diagnostic ∈ diagnostics, diagnostic.kind = .missingBlockEnd) ↔ isOpen := by
  have none_ : ¬isOpen ↔ diagnostics.filter (·.kind = .missingBlockEnd) = [] := by
    rw [filter_missing reports]
    split <;> simp [*]
  rw [← not_iff_not, none_, List.filter_eq_nil_iff]
  simp

theorem no_brace_fault_iff :
    (∀ diagnostic ∈ diagnostics,
        diagnostic.kind ≠ .unexpectedBlockEnd ∧ diagnostic.kind ≠ .missingBlockEnd) ↔
      places = [] ∧ ¬isOpen := by
  have noClosings : places = [] ↔ diagnostics.filter (·.kind = .unexpectedBlockEnd) = [] := by
    rw [filter_unexpected reports, List.map_eq_nil_iff]
  rw [noClosings, ← exists_missing_iff reports, List.filter_eq_nil_iff]
  simp only [decide_eq_true_eq, not_exists, not_and, ← forall_and]

/-- Closings without a block are not found before blocks are nested. -/
theorem ne_unmatched : ∀ diagnostic ∈ diagnostics, diagnostic.kind ≠ .unmatchedBlockEnd := by
  have none_ : diagnostics.filter (·.kind = .unmatchedBlockEnd) = [] := by
    rw [filter_kind rfl, reports, List.filter_append]
    split <;> simp [Diagnostic.ofFault, Diagnostic.locate, Fault.kind]
  simpa using List.filter_eq_nil_iff.mp none_

end Reports

namespace TokenizeOptions

variable (options : TokenizeOptions) (source : Text)

/-- If errors are not ignored, the closings that a running count of the tokens meets at zero
are reported, and at the end whether the count is positive. This is what matching finds if
and only if, behind the first closing without an open block, no outermost block is closed
and no other one is left open alone. -/
theorem tokenize_tallies :
    let flat := { options with ignoreErrors := false }.tokenize source
    braceReports flat.diagnostics =
        (Token.closingsAtZero 0 flat.tokens).map (.ofFault .unexpectedBlockEnd source) ++
          (if 0 < Token.balance flat.tokens then
            [.ofFault .missingBlockEnd source source.length] else []) ∧
      (flat.MatchesBraces ↔ Nesting.KeepsOutermost 0 (Nesting.level {} flat.tokens).2) := by
  obtain ⟨-, reports⟩ :=
    Scan.counts_whole ⟨{ options with ignoreErrors := false }, source⟩ rfl
  have ascends := (Scan.climbs_whole ⟨{ options with ignoreErrors := false }, source⟩).ordered
  rw [Scan.tokenize_eq_whole]
  generalize Scan.whole ⟨{ options with ignoreErrors := false }, source⟩ = outcome
    at reports ascends
  dsimp only at reports ⊢
  refine ⟨reports, ?_⟩
  have places (first second : List Int) :
      (first.map (Diagnostic.ofFault .unexpectedBlockEnd source)).map (·.offset) =
        second.map some ↔ first = second := by
    rw [List.map_map]
    exact List.map_inj_right fun _ _ => Option.some.inj
  have tallies := Nesting.tallies_iff {} ascends
  rw [← tallies, Nesting.Tallies, Reading.MatchesBraces, filter_unexpected reports,
    exists_missing_iff reports, places, List.length_nil, Int.natCast_zero, Int.zero_add]

/-- Brace reports and brace matching may differ: a closing without an open block makes the
count stay behind. -/
theorem not_forall_matchesBraces :
    ¬∀ (options : TokenizeOptions) (source : Text),
      ({ options with ignoreErrors := false }.tokenize source).MatchesBraces := by
  intro all
  have reports := (all {} ['\x7d', 'a', '\x7b', '\x7d']).1
  revert reports
  decide +kernel

/-- If errors are not ignored, no fault of a brace is reported if and only if the tokens are
well nested. Then nothing more is reported of the tree, no opening and no closing is left in
it at any level, and it can be made flat again. -/
theorem tokenize_wellNested :
    let strict := { options with ignoreErrors := false }
    let flat := strict.tokenize source
    let tree := strict.tree source
    ((∀ diagnostic ∈ flat.diagnostics,
        diagnostic.kind ≠ .unexpectedBlockEnd ∧ diagnostic.kind ≠ .missingBlockEnd) ↔
      Token.IsWellNested flat.tokens) ∧
    (Token.IsWellNested flat.tokens →
      (∀ diagnostic ∈ tree.diagnostics, diagnostic.kind ≠ .unmatchedBlockEnd) ∧
        (∀ entry ∈ Token.preorder 0 tree.tokens,
            entry.2.isClosing = false ∧ entry.2.isOpening = false) ∧
          Token.flatten tree.tokens = flat.tokens.map Token.forgetClosing) := by
  obtain ⟨areFlat, reports⟩ :=
    Scan.counts_whole ⟨{ options with ignoreErrors := false }, source⟩ rfl
  intro strict flat tree
  have read : flat = ⟨_, _⟩ := Scan.tokenize_eq_whole strict source
  have isTree : tree = ⟨Token.nest flat.tokens,
      flat.diagnostics ++
        (Nesting.forest {} flat.tokens).2.map (.ofFault .unmatchedBlockEnd source)⟩ := rfl
  rw [isTree, read]
  dsimp only
  constructor
  · rw [no_brace_fault_iff reports, Token.closingsAtZero_eq_nil_iff (Int.le_refl 0),
      Token.isWellNested_iff]
    refine and_congr_right fun up => ?_
    have nonneg := up _ (List.prefix_refl _)
    rw [Int.zero_add] at nonneg
    exact ⟨fun level => Int.le_antisymm (Int.not_lt.mp level) nonneg,
      fun level => Int.not_lt.mpr (Int.le_of_eq level)⟩
  · intro isWellNested
    have noBlock := Token.flatten_eq_self_iff.mp areFlat
    obtain ⟨noStrays, flatAgain⟩ := isWellNested.nest areFlat
    rw [noStrays, List.map_nil, List.append_nil]
    refine ⟨ne_unmatched reports, ?_, flatAgain⟩
    exact Token.forall_mem_preorder_nest noBlock 0

/-- One block inside of another. -/
theorem tokenize_wellNested_block :
    let strict : TokenizeOptions := { ignoreErrors := false }
    let source := ['a', '\x7b', 'b', '\x7b', '\x7d', '\x7d']
    (strict.tokenize source).diagnostics = [] ∧ (strict.tree source).tokens ≠ [] ∧
      (∀ entry ∈ Token.preorder 0 (strict.tree source).tokens,
          entry.2.isClosing = false ∧ entry.2.isOpening = false) ∧
        Token.flatten (strict.tree source).tokens =
          (strict.tokenize source).tokens.map Token.forgetClosing := by
  intro strict source
  have balanced := tokenize_wellNested {} source
  have isWellNested := balanced.1.mp (by decide +kernel)
  exact ⟨by decide +kernel, by decide +kernel, (balanced.2 isWellNested).2⟩

end TokenizeOptions
end Stylesheet
