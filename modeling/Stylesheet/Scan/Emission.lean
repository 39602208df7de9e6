import Stylesheet.Scan.State
import Stylesheet.Statement

/-!
# Emission of statements

A finished statement becomes a rule if it is a declaration, and code otherwise.
If rules are not split, a stretch of the source becomes code as it stands.
-/

namespace Stylesheet
namespace Scan

/-- What the words of a statement are. A word from the repair of an error makes
the statement malformed. -/
def statementOf (scan : Scan) (words : List Word) : Statement :=
  if words.any (·.error) then .malformed else .ofWords scan.options words

/-- Emit the words of the statement, with a terminator behind them if they are
no rule. A blank statement emits nothing. A malformed statement is reported
unless it is flagged for an error that has been reported already. -/
def emitWords (scan : Scan) (state : State) (terminator : Text) : Outcome :=
  match state.words with
  | [] => { state }
  | first :: _ =>
      let text := Word.trimmed state.words
      let flagged := state.pendingError || state.words.any (·.error)
      match scan.statementOf state.words with
      | .declaration content =>
          { state, tokens := [.rule content first.offset state.pendingError] }
      | other =>
          if text.isEmpty then { state }
          else
            let reported := Outcome.onlyIf (other == .malformed && !flagged) state
              fun state => scan.reportSettled state .invalidRule first.offset
            reported.andThen fun state =>
              { state, tokens := [.code (text ++ terminator) first.offset flagged] }

/-- Emit a stretch of the source as code, unless it is blank. -/
def emitSource (scan : Scan) (state : State) (start stop : Int) : Outcome :=
  let text := (scan.source.slice start stop).trim
  if text.isEmpty then { state }
  else { state := state.settle, tokens := [.code text start state.pendingError] }

/-- Emit what has been read up to `stop`. -/
def emitUpTo (scan : Scan) (state : State) (stop : Int) : Outcome :=
  let emitted :=
    if scan.options.splitRules then
      scan.emitWords (state.addText scan.source stop) []
    else scan.emitSource state state.bodyStart stop
  emitted.mapState State.settle

end Scan
end Stylesheet
