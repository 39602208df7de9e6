import Stylesheet.Heading
import Stylesheet.Scan.Emission
import Stylesheet.Url

/-!
# Reactions to markers

Every marker has a reaction, which takes the state at the marker to an outcome.
Constructs whose contents must not be looked into are consumed at once; nested
constructs are counted, and merged into one word when the outermost one ends.
-/

namespace Stylesheet
namespace Scan

/-! ## Escapes, strings and urls -/

/-- Add the text before an offset as a word, and consume it. -/
def takeText (scan : Scan) (state : State) (offset : Int) : State :=
  (state.addText scan.source offset).moveTo offset

/-- Keep the backslash and the character behind it in a text word. -/
def readEscape (scan : Scan) (state : State) (offset : Int) : Outcome :=
  { state := state.takeWord scan.source .text (min (offset + 2) scan.source.length) }

/-- Take a url as one word. If it has a fault only its three letters are taken,
so that reading goes on at the parenthesis. -/
def readUrl (scan : Scan) (state : State) (offset : Int) : Outcome :=
  let state := scan.takeText state offset
  match Url.findEnd scan.source offset with
  | .ok stop => { state := state.takeWord scan.source .url stop }
  | .error (fault, place) =>
      scan.reportPending (state.takeWord scan.source .text (offset + 3)) fault place

/-- Take a string as one word. A quote without its partner is taken alone if
errors are ignored; if not, the rest of the source becomes a flagged word. -/
def readString (scan : Scan) (quote : Quote) (state : State) (offset : Int) : Outcome :=
  let state := scan.takeText state offset
  match Quoted.end? scan.source quote.character offset with
  | some stop => { state := state.takeWord scan.source .string stop }
  | none =>
      if scan.options.ignoreErrors then
        { state := state.takeWord scan.source .text (offset + 1) }
      else
        (scan.reportPending state (.openString quote) offset).mapState fun state =>
          state.takeWord scan.source .text scan.source.length true

/-! ## Comments -/

/-- The offset behind the first line break at or after the place of an offset. -/
def lineEnd (scan : Scan) (offset : Int) : Nat :=
  let first := place scan.source.length offset
  let line := (scan.source.drop first).takeWhile fun character =>
    character != '\n' && character != '\r'
  min (first + line.length + 1) scan.source.length

/-- Pass over the rest of the line. -/
def skipLine (scan : Scan) (state : State) (offset : Int) : Outcome :=
  { state := (state.addText scan.source offset).moveTo (scan.lineEnd (offset + 2)) }

/-- Pass over a comment, or over the rest of the source if it is never closed. -/
def skipComment (scan : Scan) (state : State) (offset : Int) : Outcome :=
  let state := state.addText scan.source offset
  match Text.findFrom? ['*', '/'] scan.source (offset + 2) with
  | some stop => { state := state.moveTo (stop + 2) }
  | none =>
      (scan.reportPending state .openComment offset).mapState
        (·.moveTo scan.source.length)

/-! ## Calls and interpolation -/

/-- Open a parenthesis. -/
def openCall (scan : Scan) (state : State) (offset : Int) : Outcome :=
  { state :=
      { scan.takeText state offset with
        calls := state.calls.enter state.words.length } }

/-- Open an interpolation, whose two characters stay in the text before it. -/
def openInterpolation (scan : Scan) (state : State) (offset : Int) : Outcome :=
  { state :=
      { scan.takeText state (offset + 2) with
        interpolations := state.interpolations.enter state.words.length } }

/-- Merge what the outermost of a nested construct encloses, when it is that one
which ends at an offset. -/
def collapseOutermost (scan : Scan) (state : State) (offset : Int) (kind : WordKind)
    (nest : Nest) : State :=
  if nest.depth = 1 then state.collapse scan.source offset kind nest.mark else state

/-- Close a parenthesis. -/
def closeCall (scan : Scan) (state : State) (offset : Int) : Outcome :=
  { state :=
      { scan.collapseOutermost state offset .call state.calls with
        calls := state.calls.leave } }

/-- Close an interpolation. -/
def closeInterpolation (scan : Scan) (state : State) (offset : Int) : Outcome :=
  { state :=
      { scan.collapseOutermost state offset .interpolation state.interpolations with
        interpolations := state.interpolations.leave } }

/-! ## Statements and blocks -/

/-- End the statement, unless a parenthesis is open. -/
def endStatement (scan : Scan) (state : State) (offset : Int) : Outcome :=
  if 0 < state.calls.depth then { state }
  else
    let emitted := Outcome.onlyIf scan.options.splitRules state fun state =>
      (scan.emitWords (state.addText scan.source offset) [';']).mapState State.settle
    emitted.mapState (·.beginStatement (offset + 1))

/-- Open a block. If rules are not split, the statements before its heading are
emitted first. -/
def openBlock (scan : Scan) (state : State) (offset : Int) : Outcome :=
  let pendingCode :=
    !scan.options.splitRules && state.bodyStart < state.statementStart
  let emitted := Outcome.onlyIf pendingCode state fun state =>
    scan.emitSource state state.bodyStart state.statementStart
  emitted.andThen fun state =>
    { state :=
        { state.beginBody (offset + 1) with blockDepth := state.blockDepth + 1 }
      tokens := [.openingOf (state.addText scan.source offset).words] }

/-- Close a block, whether or not one is open. -/
def closeBlock (scan : Scan) (state : State) (offset : Int) : Outcome :=
  let closed := (scan.emitUpTo state offset).andThen fun state =>
    { state, tokens := [.closing offset] }
  let reported := closed.andThen fun state =>
    Outcome.onlyIf (state.blockDepth == 0) state fun state =>
      scan.reportSettled state .unexpectedBlockEnd offset
  reported.mapState fun state =>
    { state.beginBody (offset + 1) with
      blockDepth := state.blockDepth - 1
      calls := {} }

/-- Close an interpolation if one is open, and a block otherwise. -/
def closeBrace (scan : Scan) (state : State) (offset : Int) : Outcome :=
  if 0 < state.interpolations.depth then scan.closeInterpolation state offset
  else scan.closeBlock state offset

/-- Report blocks that are still open, and emit the last statement. -/
def endSource (scan : Scan) (state : State) : Outcome :=
  let length := scan.source.length
  let reported := Outcome.onlyIf (0 < state.blockDepth) state fun state =>
    scan.reportSettled state .missingBlockEnd length
  let emitted := reported.andThen fun state => scan.emitUpTo state length
  emitted.mapState fun state => state.forgetWords.moveTo length

/-- The reaction to a marker. -/
def react (scan : Scan) : Marker → State → Int → Outcome
  | .quote mark => scan.readString mark
  | .comment => scan.skipComment
  | .openBrace => scan.openBlock
  | .closeBrace => scan.closeBrace
  | .semicolon => scan.endStatement
  | .url => scan.readUrl
  | .backslash => scan.readEscape
  | .openParen => scan.openCall
  | .closeParen => scan.closeCall
  | .lineComment => scan.skipLine
  | .atInterpolation => scan.openInterpolation
  | .hashInterpolation => scan.openInterpolation

end Scan
end Stylesheet
