import Stylesheet.Proofs.Scan.Comparison
import Stylesheet.Proofs.Token.Errors

/-!
# Reading with and without reports

Whether errors are reported or repaired silently makes no difference for what is read, as
long as every string is closed: the tokens are the same but for their flags.
-/

namespace Stylesheet
namespace Scan

/-- The strict reading of a source beside the lenient one. -/
def leniency (options : TokenizeOptions) (source : Text) : Comparison where
  firstOptions := { options with ignoreErrors := false }
  secondOptions := { options with ignoreErrors := true }
  source
  flags _ second := second = false
  tokens := List.Forall₂ Token.Relieves
  reports _ second := second = []

section Emission

open Token (Relieves)

theorem relieves_code (text : Text) (offset : Int) {first second : Bool}
    (onlyIf : second = true → first = true) :
    Relieves (.code text offset first) (.code text offset second) :=
  ⟨rfl, fun _ => .cons onlyIf .nil⟩

theorem relieves_wordTokens (statement : Statement) (words : List Word) (pendingError : Bool)
    (terminator : Text) :
    List.Forall₂ Relieves (wordTokens statement words pendingError terminator)
      (wordTokens statement words false terminator) := by
  have code : List.Forall₂ Relieves
      (if (Word.trimmed words).isEmpty then [] else
        [.code (Word.trimmed words ++ terminator) (wordsOffset words)
          (isFaulty pendingError words)])
      (if (Word.trimmed words).isEmpty then [] else
        [.code (Word.trimmed words ++ terminator) (wordsOffset words) (isFaulty false words)]) := by
    split
    · exact .nil
    · refine .cons (relieves_code _ _ fun flagged => ?_) .nil
      rw [isFaulty, Bool.false_or] at flagged
      rw [isFaulty, flagged, Bool.or_true]
  cases statement with
  | declaration content => exact .cons ⟨rfl, fun _ => .cons (absurd · Bool.false_ne_true) .nil⟩ .nil
  | standalone => exact code
  | malformed => exact code
  | incomplete => exact code

variable (options : TokenizeOptions) (source : Text) (state : State)

theorem leniency_emitWords (terminator : Text) :
    (leniency options source).Outputs
      ((leniency options source).first.emitWords state terminator)
      ((leniency options source).second.emitWords (state.flag false) terminator) := by
  rw [emitWords_eq_emitted, emitWords_eq_emitted]
  exact ⟨rfl, relieves_wordTokens .., rfl⟩

theorem leniency_emitSource (start stop : Int) :
    (leniency options source).Outputs
      ((leniency options source).first.emitSource state start stop)
      ((leniency options source).second.emitSource (state.flag false) start stop) := by
  rw [emitSource_eq_emitted, emitSource_eq_emitted]
  refine ⟨?_, ?_, rfl⟩
  · change State.pendingError (if _ then state.flag false else (state.flag false).settle) = false
    split <;> rfl
  · change List.Forall₂ Relieves (stretchTokens (source.slice start stop).trim start _)
      (stretchTokens (source.slice start stop).trim start false)
    unfold stretchTokens
    split
    · exact .nil
    · exact .cons (relieves_code _ _ (absurd · Bool.false_ne_true)) .nil

theorem leniency_onlyIf (needed : Bool) {firstAct secondAct : State → Outcome}
    (act : (leniency options source).Outputs (firstAct state) (secondAct (state.flag false))) :
    (leniency options source).Outputs (.onlyIf needed state firstAct)
      (.onlyIf needed (state.flag false) secondAct) := by
  cases needed with
  | true => exact act
  | false => exact ⟨rfl, .nil, rfl⟩

theorem leniency_sound : (leniency options source).Sound where
  lessSyntax := rfl
  flags_settled := rfl
  flags_raised flags := by
    rw [flags]
    rfl
  tokens_nil := .nil
  tokens_append before behind := List.rel_append before behind
  tokens_opening heading offset := .cons ⟨rfl, fun _ => .cons id .nil⟩ .nil
  tokens_closing offset := .cons ⟨rfl, fun _ => .cons id .nil⟩ .nil
  reports_nil := rfl
  reports_append before behind := by
    rw [before, behind]
    rfl
  reports_fault _ _ _ _ _ := rfl
  ended {state error} flags offset := by
    obtain rfl : error = false := flags
    have words := leniency_emitWords options source (state.addText source offset) [';']
    exact leniency_onlyIf options source state options.splitRules (words.mapState rfl)
  ahead {state error} flags := by
    obtain rfl : error = false := flags
    exact leniency_onlyIf options source state _ (leniency_emitSource ..)
  upTo {state error} flags stop := by
    obtain rfl : error = false := flags
    cases splits : options.splitRules with
    | true =>
        have words := leniency_emitWords options source (state.addText source stop) []
        rw [emitUpTo_of_splits _ _ (by exact splits), emitUpTo_of_splits _ _ (by exact splits)]
        exact words.mapState rfl
    | false =>
        rw [emitUpTo_of_whole _ _ (by exact splits), emitUpTo_of_whole _ _ (by exact splits)]
        exact (leniency_emitSource ..).mapState rfl

end Emission

end Scan

namespace TokenizeOptions

open Token (preorder clearAllErrors)

/-- Where every string is closed, a lenient reading has the tokens of the strict one, but for
flags. It flags nothing that the strict one does not flag, and reports nothing. -/
theorem read_lenient (options : TokenizeOptions) (form : Form) (source : Text)
    (closed : ∀ diagnostic ∈
      ({ options with ignoreErrors := false }.read form source).diagnostics,
        diagnostic.kind ≠ .unterminatedString) :
    let strict := { options with ignoreErrors := false }.read form source
    let lenient := { options with ignoreErrors := true }.read form source
    clearAllErrors lenient.tokens = clearAllErrors strict.tokens ∧
      List.Forall₂ (fun entry other => entry.2.isFlagged = true → other.2.isFlagged = true)
        (preorder 0 lenient.tokens) (preorder 0 strict.tokens) ∧
      lenient.diagnostics = [] := by
  have flatClosed : ∀ diagnostic ∈
      ({ options with ignoreErrors := false }.tokenize source).diagnostics,
        diagnostic.kind ≠ .unterminatedString := by
    intro diagnostic member
    cases form with
    | flat => exact closed diagnostic member
    | tree => exact closed diagnostic (List.mem_append_left _ member)
  obtain ⟨tokens, reports⟩ :=
    (Scan.leniency_sound options source).tokenize fun _ => ⟨rfl, flatClosed⟩
  cases form with
  | flat =>
      exact ⟨Token.Relieves.clearAll_eq tokens, Token.Relieves.preorder tokens 0, reports⟩
  | tree =>
      have nested := Token.nest_of_forall₂ Token.Relieves.nests tokens
      refine ⟨Token.Relieves.clearAll_eq nested, Token.Relieves.preorder nested 0, ?_⟩
      exact (List.append_nil _).trans reports

/-- A url, a statement, a brace and a comment are at fault, and only flags differ. -/
theorem read_lenient_repaired :
    let source := "a\x7bb:url(c d);e;\x7d\x7d f /*".toList
    let strict := read { ignoreErrors := false } .tree source
    let lenient := read {} .tree source
    strict.diagnostics.map (·.kind) =
        [.invalidUrl, .invalidRule, .unexpectedBlockEnd, .unterminatedComment,
          .unmatchedBlockEnd] ∧
      lenient.tokens ≠ strict.tokens ∧
      clearAllErrors lenient.tokens = clearAllErrors strict.tokens ∧ lenient.diagnostics = [] := by
  intro source strict lenient
  have closed : ∀ diagnostic ∈ strict.diagnostics, diagnostic.kind ≠ .unterminatedString := by
    decide +kernel
  obtain ⟨same, -, unreported⟩ := read_lenient {} .tree source closed
  exact ⟨by decide +kernel, by decide +kernel, same, unreported⟩

end TokenizeOptions
end Stylesheet
