import Stylesheet.Proofs.Scan.Comparison

/-!
# Reading with and without splitting

Where rules are not split, the contents of a block are read like those of any other. The
blocks are the same, and nothing is reported less than the faults of statements.
-/

namespace Stylesheet

namespace Scan

/-- The reading of a source that splits rules beside the one that does not. -/
def splitting (options : TokenizeOptions) (source : Text) : Comparison where
  firstOptions := { options with splitRules := true }
  secondOptions := { options with splitRules := false }
  source
  flags _ _ := True
  tokens first second := first.filter Token.isBoundary = second.filter Token.isBoundary
  reports first second := second = first.filter (·.kind != .invalidRule)

/-! ## Emission -/

theorem filter_wordReports (source : Text) (statement : Statement) (words : List Word)
    (pendingError : Bool) :
    (wordReports source statement words pendingError).filter (·.kind != .invalidRule) = [] := by
  unfold wordReports
  split <;> rfl

variable (options : TokenizeOptions) (source : Text)

/-- The words of a statement become nothing that counts. -/
theorem splitting_emitWords (state : State) (terminator : Text) {second : Outcome}
    (tokens : second.tokens.filter Token.isBoundary = []) (reports : second.diagnostics = []) :
    (splitting options source).Outputs
      (((splitting options source).first.emitWords state terminator).mapState State.settle)
      second := by
  rw [emitWords_eq_emitted]
  refine ⟨trivial, ?_, ?_⟩
  · exact (filter_wordTokens ..).trans tokens.symm
  · refine reports.trans (Eq.symm ?_)
    dsimp only [Outcome.mapState]
    split
    · rfl
    · exact filter_wordReports ..

theorem splitting_sound : (splitting options source).Sound where
  lessSyntax := rfl
  flags_settled := trivial
  flags_raised _ := trivial
  tokens_nil := rfl
  tokens_append before behind :=
    (List.filter_append ..).trans
      ((congrArg₂ (· ++ ·) before behind).trans (List.filter_append ..).symm)
  tokens_opening _ _ := rfl
  tokens_closing _ := rfl
  reports_nil := rfl
  reports_append before behind :=
    (congrArg₂ (· ++ ·) before behind).trans (List.filter_append ..).symm
  reports_fault {fault} noRule first second offset pending := by
    have kept : ([Diagnostic.ofFault fault source offset].filter (·.kind != .invalidRule)) =
        [Diagnostic.ofFault fault source offset] :=
      List.filter_cons_of_pos (bne_iff_ne.mpr noRule)
    change (if options.ignoreErrors then { state := second } else _ : Outcome).diagnostics =
      (if options.ignoreErrors then { state := first } else _ : Outcome).diagnostics.filter _
    split
    · rfl
    · exact kept.symm
  ended {state error} _ offset := by
    rw [emitEnded_of_splits _ _ rfl, emitEnded_of_whole _ _ rfl]
    exact splitting_emitWords options source _ _ rfl rfl
  ahead {state error} _ := by
    rw [emitAhead_of_splits _ _ rfl, emitAhead_of_whole _ _ rfl, Outcome.onlyIf]
    split
    · rw [emitSource_eq_emitted]
      exact ⟨trivial, (filter_stretchTokens ..).symm, rfl⟩
    · exact ⟨trivial, rfl, rfl⟩
  upTo {state error} _ stop := by
    rw [emitUpTo_of_splits _ _ rfl, emitUpTo_of_whole _ _ rfl, emitSource_eq_emitted]
    exact splitting_emitWords options source _ _ (filter_stretchTokens ..) rfl

/-! ## Reactions -/

/-- Where rules are not split, no fault of a statement is reported. -/
theorem no_fault_of_outputs {first second : Outcome}
    (outputs : (splitting options source).Outputs first second) :
    ∀ diagnostic ∈ second.diagnostics, diagnostic.kind ≠ .invalidRule := by
  intro diagnostic member
  have reports : second.diagnostics = first.diagnostics.filter (·.kind != .invalidRule) :=
    outputs.reports
  rw [reports, List.mem_filter] at member
  exact bne_iff_ne.mp member.2

theorem second_splitting {scan : Scan} (whole : scan.options.splitRules = false) :
    (splitting scan.options scan.source).second = scan := by
  obtain ⟨⟨splitRules, ignoreErrors, lessSyntax, ruleModifiers⟩, source⟩ := scan
  obtain rfl : splitRules = false := whole
  rfl

theorem no_fault_react {scan : Scan} (whole : scan.options.splitRules = false) (marker : Marker)
    (state : State) (offset : Nat) :
    ∀ diagnostic ∈ (scan.react marker state offset).diagnostics,
      diagnostic.kind ≠ .invalidRule := by
  have flags : (splitting scan.options scan.source).flags state.pendingError state.pendingError :=
    trivial
  have outcomes := (splitting_sound scan.options scan.source).react flags marker offset
    fun differ => absurd rfl differ
  rw [second_splitting whole] at outcomes
  exact no_fault_of_outputs _ _ outcomes.toOutputs

theorem no_fault_course {scan : Scan} (whole : scan.options.splitRules = false) (state : State)
    (entries : List (Marker × Nat)) :
    ∀ diagnostic ∈ ((scan.course state entries).andThen scan.endSource).diagnostics,
      diagnostic.kind ≠ .invalidRule := by
  have flags : (splitting scan.options scan.source).flags state.pendingError state.pendingError :=
    trivial
  have outputs := (splitting_sound scan.options scan.source).courseToEnd flags entries
    fun differ => absurd rfl differ
  rw [second_splitting whole] at outputs
  exact no_fault_of_outputs _ _ outputs

end Scan

namespace TokenizeOptions

/-- Whether rules are split changes neither the blocks nor what is reported of anything else
than statements. -/
theorem tokenize_unsplit (options : TokenizeOptions) (source : Text) :
    let split := { options with splitRules := true }.tokenize source
    let unsplit := { options with splitRules := false }.tokenize source
    split.tokens.filter Token.isBoundary = unsplit.tokens.filter Token.isBoundary ∧
      unsplit.diagnostics = split.diagnostics.filter (·.kind != .invalidRule) :=
  (Scan.splitting_sound options source).tokenize fun differ => absurd rfl differ

end TokenizeOptions
end Stylesheet
