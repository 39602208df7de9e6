import Stylesheet.Proofs.Scan.Braces

/-!
# The order of reports

What is wrong with a construct is reported where it stands, but what is wrong with a
statement where it begins, once it has ended. The reports are in order all the same, because
a statement that begins before the last report has to be flagged and is not reported.
-/

namespace Stylesheet

/-- Where a diagnostic was found, if its line is the one of that offset. -/
def Diagnostic.placeIn? (source : Text) (diagnostic : Diagnostic) : Option Int :=
  diagnostic.offset.filter fun place => diagnostic.line == some (lineNumber source place : Int)

theorem Diagnostic.placeIn?_ofFault (fault : Fault) (source : Text) (place : Int) :
    (ofFault fault source place).placeIn? source = some place := by
  simp [placeIn?, ofFault, locate]

theorem Diagnostic.placeIn?_eq_some_iff {source : Text} {diagnostic : Diagnostic} {place : Int} :
    diagnostic.placeIn? source = some place ↔
      diagnostic.offset = some place ∧ diagnostic.line = some (lineNumber source place : Int) := by
  simp [placeIn?, Option.filter_eq_some_iff]

theorem countP_le_one {Item : Type} {test : Item → Bool} {items : List Item}
    (apart : items.Pairwise fun first second => test first = true → test second = false) :
    items.countP test ≤ 1 := by
  induction items with
  | nil => exact Nat.zero_le 1
  | cons item items induction =>
      obtain ⟨alone, later⟩ := List.pairwise_cons.mp apart
      rw [List.countP_cons]
      split
      next passes =>
        have none_ : items.countP test = 0 :=
          List.countP_eq_zero.mpr fun other member => by simp [alone other member passes]
        omega
      next => exact induction later

namespace Scan

variable {scan : Scan} {state : State}

/-- Diagnostics in order, from a low place up to a high one. -/
def Mounts (scan : Scan) (low high : Int) (diagnostics : List Diagnostic) : Prop :=
  Climbs (Diagnostic.placeIn? scan.source) (· ≤ ·) low high diagnostics

namespace Mounts

variable {low high : Int} {diagnostics : List Diagnostic}

theorem placed (mounts : scan.Mounts low high diagnostics) :
    ∀ diagnostic ∈ diagnostics, ∃ place : Int, diagnostic.offset = some place ∧ low ≤ place ∧
      place ≤ high ∧ diagnostic.line = some (lineNumber scan.source place : Int) := by
  intro diagnostic member
  obtain ⟨place, here, behind, ahead⟩ := mounts.within diagnostic member
  obtain ⟨offset, line⟩ := Diagnostic.placeIn?_eq_some_iff.mp here
  exact ⟨place, offset, behind, ahead, line⟩

theorem ordered_offsets (mounts : scan.Mounts low high diagnostics) :
    diagnostics.Pairwise fun first second =>
      ∀ place ∈ first.offset, ∀ later ∈ second.offset, place ≤ later := by
  have placeIn? {diagnostic : Diagnostic} (member : diagnostic ∈ diagnostics) {place : Int}
      (here : diagnostic.offset = some place) : diagnostic.placeIn? scan.source = some place := by
    obtain ⟨_, offset, -, -, line⟩ := mounts.placed diagnostic member
    cases offset.symm.trans here
    exact Diagnostic.placeIn?_eq_some_iff.mpr ⟨here, line⟩
  exact mounts.ordered.imp_of_mem fun inFirst inSecond ordered place here later there =>
    ordered place (placeIn? inFirst here) later (placeIn? inSecond there)

theorem one {fault : Fault} {place : Int} (behind : low ≤ place)
    (ahead : place ≤ high) : scan.Mounts low high [.ofFault fault scan.source place] :=
  Climbs.one (Diagnostic.placeIn?_ofFault ..) behind ahead

theorem ofStatement (ofStatement : OfStatement scan state diagnostics)
    (behind : scan.options.splitRules = true → state.pendingError = false →
      low ≤ state.statementStart)
    (ahead : state.statementStart ≤ high) : scan.Mounts low high diagnostics := by
  rcases ofStatement with rfl | ⟨rfl, splits, fresh⟩
  · exact Climbs.nil
  · exact .one (behind splits fresh) ahead

end Mounts

/-- A state in front of some markers, from which nothing is reported before a low place. -/
structure State.Poised (scan : Scan) (entries : List (Marker × Nat)) (low : Int) (state : State) :
    Prop extends state.Grounded scan.source where
  lowInside : low ≤ scan.source.length
  ahead : ∀ entry ∈ entries, state.cursor ≤ entry.2 → entry.1 ≠ .openParen → low ≤ entry.2
  fresh : scan.options.splitRules = true → state.pendingError = false →
    low ≤ state.statementStart

/-! ## Reactions -/

namespace Defect

variable {offset : Nat} {fault : Fault} {place cursor : Int}

theorem place_bounds (defect : Defect scan offset fault place cursor)
    (inside : offset ≤ scan.source.length) :
    (offset : Int) ≤ place ∧ place ≤ scan.source.length := by
  cases defect with
  | unclosed isFinal => omega
  | url isUrl behind within between => omega

/-- Where the scan goes on, nothing but a parenthesis is found before the place that has been
reported. -/
theorem place_le (defect : Defect scan offset fault place cursor) {index : Nat} {marker : Marker}
    (begins : scan.markerAt? index = some marker) (reached : cursor ≤ index)
    (noParen : marker ≠ .openParen) : place ≤ index := by
  cases defect with
  | unclosed isFinal =>
      have fits := lt_length_of_markerAt? begins
      have positive := Marker.length_spelling_pos marker
      omega
  | @url place isUrl behind within between =>
      have notBefore : ¬index < place := fun before =>
        noParen (between index marker (by omega) before begins)
      omega

end Defect

/-- Behind a boundary another statement begins. -/
theorem State.Grounded.poised_boundary (grounded : state.Grounded scan.source)
    (entries : List (Marker × Nat)) {offset : Nat} (inside : offset ≤ scan.source.length)
    (cursor : state.cursor = offset + 1) (statement : state.statementStart = offset + 1) :
    state.Poised scan entries offset where
  toGrounded := grounded
  lowInside := Int.ofNat_le.mpr inside
  ahead entry _ behind _ := by omega
  fresh _ _ := by omega

section Strict

variable {entries : List (Marker × Nat)} {low : Int} {marker : Marker} {offset : Nat}
  (poised : state.Poised scan ((marker, offset) :: entries) low)
  (begins : scan.markerAt? offset = some marker)
  (begin_ : ∀ entry ∈ entries, scan.markerAt? entry.2 = some entry.1)
  (reached : state.cursor ≤ offset)

include poised begins reached

include begin_ in
theorem poised_goesOn (goesOn : GoesOn scan state offset (scan.react marker state offset)) :
    ∃ next, low ≤ next ∧ scan.Mounts low next (scan.react marker state offset).diagnostics ∧
      (scan.react marker state offset).state.Poised scan entries next := by
  have grounded := poised.toGrounded.react begins reached
  rcases goesOn.reports with ⟨none_, pending⟩ | ⟨fault, place, reports, pending, defect⟩
  · refine ⟨low, Int.le_refl low, none_ ▸ Climbs.nil,
      { toGrounded := grounded, lowInside := poised.lowInside, ahead := ?_, fresh := ?_ }⟩
    · intro entry member behind noParen
      exact poised.ahead entry (.tail _ member)
        (Int.le_trans (cursor_le_react begins reached) behind) noParen
    · rw [pending, goesOn.statement]
      exact poised.fresh
  · have noParen : marker ≠ .openParen := by
      rintro rfl
      cases reports
    have behind := poised.ahead _ List.mem_cons_self reached noParen
    obtain ⟨later, inside⟩ :=
      defect.place_bounds (Nat.le_of_add_right_le (lt_length_of_markerAt? begins))
    have lower : low ≤ place := Int.le_trans behind later
    refine ⟨place, lower, ?_,
      { toGrounded := grounded, lowInside := inside, ahead := ?_, fresh := ?_ }⟩
    · rw [reports]
      exact .one lower (Int.le_refl place)
    · exact fun entry member => defect.place_le (begin_ entry member)
    · rw [pending]
      simp

variable (strict : scan.options.ignoreErrors = false)

include begin_ strict in
/-- What a reaction reports is behind what was reported before it, and so is what will be
reported behind it. -/
theorem poised_react :
    ∃ next, low ≤ next ∧ scan.Mounts low next (scan.react marker state offset).diagnostics ∧
      (scan.react marker state offset).state.Poised scan entries next := by
  have inside := Nat.le_of_add_right_le (lt_length_of_markerAt? begins)
  have started : state.statementStart ≤ offset := Int.le_trans poised.reached reached
  have grounded := poised.toGrounded.react begins reached
  rcases react_cases state begins with
    goesOn | rfl | ⟨rfl, outside⟩ | ⟨rfl, outside⟩
  · exact poised_goesOn poised begins begin_ reached goesOn
  · refine ⟨offset, poised.ahead _ List.mem_cons_self reached (by simp), ?_,
      grounded.poised_boundary entries inside rfl rfl⟩
    rw [react, diagnostics_openBlock]
    exact Climbs.nil
  · have after := endStatement_state scan state offset outside
    refine ⟨offset, poised.ahead _ List.mem_cons_self reached (by simp), ?_,
      grounded.poised_boundary entries inside (by rw [react, after]; rfl)
        (by rw [react, after]; rfl)⟩
    exact .ofStatement (ofStatement_endStatement strict poised.toAnchored outside offset)
      poised.fresh started
  · have reacts : scan.react .closeBrace state offset = scan.closeBlock state offset := by
      rw [react, closeBrace, if_neg outside]
    have after := scan.closeBlock_state state offset
    have behind := poised.ahead _ List.mem_cons_self reached (by simp)
    have statement := Mounts.ofStatement
      (ofStatement_emitUpTo strict poised.toAnchored offset) poised.fresh started
    refine ⟨offset, behind, ?_, grounded.poised_boundary entries inside (by rw [reacts, after])
      (by rw [reacts, after])⟩
    rw [reacts, diagnostics_closeBlock strict]
    refine Climbs.append statement ?_ behind (Int.le_refl _)
    split
    · exact Mounts.one (Int.le_refl _) (Int.le_refl _)
    · exact Climbs.nil

end Strict

/-! ## Runs -/

theorem OfStatement.isFinal_eq_false {diagnostics : List Diagnostic}
    (ofStatement : OfStatement scan state diagnostics) :
    ∀ diagnostic ∈ diagnostics, diagnostic.kind.isFinal = false := by
  rcases ofStatement with rfl | ⟨rfl, -⟩
  · simp
  · simp [Diagnostic.ofFault, Diagnostic.locate, Fault.kind, FaultKind.isFinal]

section Runs

variable (strict : scan.options.ignoreErrors = false) {entries : List (Marker × Nat)}
  (begin_ : ∀ entry ∈ entries, scan.markerAt? entry.2 = some entry.1)

include strict begin_

/-- Blocks that are left open apart, everything is reported in order. -/
theorem mounts_course {low : Int} (poised : state.Poised scan entries low) :
    scan.Mounts low scan.source.length
      (((scan.course state entries).andThen scan.endSource).diagnostics.filter
        (·.kind ≠ .missingBlockEnd)) := by
  induction entries generalizing state low with
  | nil =>
      have inside := Int.le_trans poised.reached poised.inside
      have statement := Mounts.ofStatement
        (ofStatement_emitUpTo strict poised.toAnchored scan.source.length) poised.fresh inside
      have none_ : (if 0 < state.blockDepth then
          [Diagnostic.ofFault .missingBlockEnd scan.source scan.source.length] else []).filter
            (·.kind ≠ .missingBlockEnd) = [] := by
        split <;> rfl
      rw [course, Outcome.silent_andThen, diagnostics_endSource strict, List.filter_append, none_]
      exact statement.filter _
  | cons entry entries induction =>
      obtain ⟨marker, offset⟩ := entry
      have begins := begin_ _ List.mem_cons_self
      have later := fun entry member => begin_ entry (List.mem_cons_of_mem _ member)
      rw [course]
      split
      next consumed =>
        exact induction later
          { poised with ahead := fun entry member => poised.ahead entry (.tail _ member) }
      next notConsumed =>
        obtain ⟨next, further, here, after⟩ :=
          poised_react poised begins later (Int.not_lt.mp notConsumed) strict
        rw [Outcome.andThen_assoc, Outcome.andThen, List.filter_append]
        exact Climbs.append (here.filter _) (induction later after) further after.lowInside

/-- Behind a fault that takes up the rest of the source, nothing is reported but blocks that
are left open. -/
theorem missing_of_consumed (anchored : state.Anchored)
    (consumed : state.cursor = scan.source.length) (pending : state.pendingError = true) :
    ∀ diagnostic ∈ ((scan.course state entries).andThen scan.endSource).diagnostics,
      diagnostic.kind = .missingBlockEnd := by
  have passed : scan.course state entries = { state } := by
    refine course_of_consumed fun entry member => ?_
    have fits := lt_length_of_markerAt? (begin_ entry member)
    have positive := Marker.length_spelling_pos entry.1
    omega
  have statement : (scan.emitUpTo state scan.source.length).diagnostics = [] := by
    rcases ofStatement_emitUpTo strict anchored scan.source.length with none_ | ⟨-, -, fresh⟩
    · exact none_
    · rw [pending] at fresh
      cases fresh
  rw [passed, Outcome.silent_andThen, diagnostics_endSource strict, statement, List.append_nil]
  intro diagnostic member
  split at member
  · obtain rfl := List.mem_singleton.mp member
    rfl
  · cases member

omit begin_ in
/-- A reaction reports no fault that takes up the rest of the source, or only one. -/
theorem final_react (anchored : state.Anchored) {marker : Marker} {offset : Nat}
    (begins : scan.markerAt? offset = some marker) :
    let outcome := scan.react marker state offset
    (∀ diagnostic ∈ outcome.diagnostics, diagnostic.kind.isFinal = false) ∨
      (∃ diagnostic, outcome.diagnostics = [diagnostic]) ∧
        outcome.state.cursor = scan.source.length ∧ outcome.state.pendingError = true := by
  rcases react_cases state begins with
    goesOn | rfl | ⟨rfl, outside⟩ | ⟨rfl, outside⟩
  · rcases goesOn.reports with ⟨none_, -⟩ | ⟨fault, place, reports, pending, defect⟩
    · left
      simp [none_]
    · generalize landing : (scan.react marker state offset).state.cursor = cursor at defect
      cases defect with
      | unclosed isFinal => exact .inr ⟨⟨_, reports⟩, landing, pending⟩
      | url isUrl behind inside between =>
          left
          rw [reports]
          intro diagnostic member
          obtain rfl := List.mem_singleton.mp member
          revert isUrl
          cases fault <;> simp [Diagnostic.ofFault, Diagnostic.locate, Fault.kind,
            FaultKind.isUrl, FaultKind.isFinal]
  · left
    rw [react, diagnostics_openBlock]
    simp
  · exact .inl (ofStatement_endStatement strict anchored outside offset).isFinal_eq_false
  · left
    rw [react, closeBrace, if_neg outside, diagnostics_closeBlock strict]
    intro diagnostic member
    rcases List.mem_append.mp member with statement | brace
    · exact (ofStatement_emitUpTo strict anchored offset).isFinal_eq_false diagnostic statement
    · split at brace
      · obtain rfl := List.mem_singleton.mp brace
        rfl
      · cases brace

theorem finals_course (anchored : state.Anchored) :
    ((scan.course state entries).andThen scan.endSource).diagnostics.Pairwise fun first second =>
      first.kind.isFinal = true → second.kind = .missingBlockEnd := by
  induction entries generalizing state with
  | nil =>
      refine List.pairwise_iff_forall_sublist.mpr fun {first second} both isFinal => ?_
      have member := both.subset List.mem_cons_self
      rw [course, Outcome.silent_andThen, diagnostics_endSource strict] at member
      rcases List.mem_append.mp member with brace | statement
      · split at brace
        · obtain rfl := List.mem_singleton.mp brace
          cases isFinal
        · cases brace
      · rw [(ofStatement_emitUpTo strict anchored _).isFinal_eq_false first statement] at isFinal
        cases isFinal
  | cons entry entries induction =>
      obtain ⟨marker, offset⟩ := entry
      have begins := begin_ _ List.mem_cons_self
      have later := fun entry member => begin_ entry (List.mem_cons_of_mem _ member)
      rw [course]
      split
      next consumed => exact induction later anchored
      next notConsumed =>
        have after := anchored.react begins (Int.not_lt.mp notConsumed)
        rw [Outcome.andThen_assoc, Outcome.andThen, List.pairwise_append]
        rcases final_react strict anchored begins with none_ | ⟨⟨only, reports⟩, consumed, pending⟩
        · refine ⟨?_, induction later after, fun first member _ _ isFinal => ?_⟩
          · refine List.pairwise_iff_forall_sublist.mpr fun {first second} both isFinal => ?_
            rw [none_ first (both.subset List.mem_cons_self)] at isFinal
            cases isFinal
          · rw [none_ first member] at isFinal
            cases isFinal
        · refine ⟨?_, induction later after, fun _ _ other member _ => ?_⟩
          · rw [reports]
            exact List.pairwise_singleton ..
          · exact missing_of_consumed strict later after consumed pending other member

end Runs

theorem mounts_whole (scan : Scan) (strict : scan.options.ignoreErrors = false) :
    scan.Mounts 0 scan.source.length
      (scan.whole.diagnostics.filter (·.kind ≠ .missingBlockEnd)) := by
  have poised : State.Poised scan scan.markers 0 {} :=
    { toGrounded := .start scan.source
      lowInside := Int.natCast_nonneg _
      ahead := fun entry _ _ _ => Int.natCast_nonneg entry.2
      fresh := fun _ _ => Int.le_refl 0 }
  exact mounts_course strict (fun _ member => markerAt?_of_mem_markers member) poised

theorem finals_whole (scan : Scan) (strict : scan.options.ignoreErrors = false) :
    scan.whole.diagnostics.Pairwise fun first second =>
      first.kind.isFinal = true → second.kind = .missingBlockEnd :=
  finals_course strict (fun _ member => markerAt?_of_mem_markers member) .start

end Scan

namespace TokenizeOptions

/-- If errors are not ignored, everything that is reported is reported where it was found,
with the line that is there, and in order; only blocks that are left open, which are reported
once at the end, may come before the fault of the last statement. A string or a comment that
is never closed is the last fault but for these. -/
theorem tokenize_reports_in_order (options : TokenizeOptions) (source : Text) :
    let reports := ({ options with ignoreErrors := false }.tokenize source).diagnostics
    (∀ diagnostic ∈ reports, ∃ place : Int, diagnostic.offset = some place ∧ 0 ≤ place ∧
      place ≤ source.length ∧ diagnostic.line = some (lineNumber source place : Int)) ∧
    ((reports.filter (·.kind ≠ .missingBlockEnd)).Pairwise fun first second =>
      ∀ place ∈ first.offset, ∀ later ∈ second.offset, place ≤ later) ∧
    reports.countP (·.kind = .missingBlockEnd) ≤ 1 ∧
    reports.countP (·.kind.isFinal) ≤ 1 ∧
    ∀ before diagnostic after, reports = before ++ diagnostic :: after →
      diagnostic.kind.isFinal = true → ∀ other ∈ after, other.kind = .missingBlockEnd := by
  generalize isStrict : { options with ignoreErrors := false } = strict
  have errors : strict.ignoreErrors = false := by rw [← isStrict]
  have mounts := Scan.mounts_whole ⟨strict, source⟩ errors
  have finals := Scan.finals_whole ⟨strict, source⟩ errors
  have missing := filter_missing (Scan.counts_whole ⟨strict, source⟩ errors).2
  rw [Scan.tokenize_eq_whole]
  generalize (Scan.whole ⟨strict, source⟩).diagnostics = reports at mounts finals missing
  dsimp only at mounts finals missing ⊢
  refine ⟨fun diagnostic member => ?_, mounts.ordered_offsets, ?_, ?_, ?_⟩
  · by_cases isMissing : diagnostic.kind = .missingBlockEnd
    · have among : diagnostic ∈ reports.filter (·.kind = .missingBlockEnd) :=
        List.mem_filter.mpr ⟨member, by simpa using isMissing⟩
      rw [missing] at among
      split at among
      · obtain rfl := List.mem_singleton.mp among
        exact ⟨source.length, rfl, Int.natCast_nonneg _, Int.le_refl _, rfl⟩
      · cases among
    · exact mounts.placed diagnostic (List.mem_filter.mpr ⟨member, by simpa using isMissing⟩)
  · rw [List.countP_eq_length_filter, missing]
    split <;> simp
  · refine countP_le_one (finals.imp fun only isFinal => ?_)
    rw [only isFinal]
    simp [FaultKind.isFinal]
  · rintro before diagnostic after rfl isFinal other member
    rw [List.pairwise_append, List.pairwise_cons] at finals
    exact finals.2.1.1 other member isFinal

/-- Behind a string that is never closed only the open block is reported. -/
theorem tokenize_reports_in_order_open :
    let reports := ({ ignoreErrors := false : TokenizeOptions }.tokenize
      ['a', ';', 'b', '\x7b', '"']).diagnostics
    reports.map (·.kind) = [.invalidRule, .unterminatedString, .missingBlockEnd] ∧
      ∀ other ∈ reports.drop 2, other.kind = .missingBlockEnd := by
  intro reports
  have split : reports =
      reports.take 1 ++ reports.get ⟨1, by decide +kernel⟩ :: reports.drop 2 := by
    decide +kernel
  have ordered := tokenize_reports_in_order {} ['a', ';', 'b', '\x7b', '"']
  exact ⟨by decide +kernel, ordered.2.2.2.2 _ _ _ split (by decide +kernel)⟩

end TokenizeOptions
end Stylesheet
