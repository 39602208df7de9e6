import Stylesheet.Diagnostic
import Stylesheet.Options.Tokenizing
import Stylesheet.Token.Basic
import Stylesheet.Word

/-!
# Scan states

A scan goes through a source from marker to marker. Its state holds the words of
the statement that is being read, the levels of nesting, and the offsets of the
last boundaries. All of these are integers, because a state may also be set up by
hand: a negative offset counts from the end of the source, a negative mark from
the end of the words. What a part of a scan produces is an outcome: the state after
it, the tokens that it emits and the diagnostics that it reports.
-/

namespace Stylesheet

/-- A source that is to be read with certain options. -/
structure Scan where
  options : TokenizeOptions
  source : Text
  deriving DecidableEq

namespace Scan

/-- A construct that can be nested in itself within one statement. -/
structure Nest where
  /-- How many are open. -/
  depth : Int := 0
  /-- The index among the words of the text before the outermost one. -/
  mark : Option Int := none
  deriving DecidableEq

namespace Nest

/-- Open one more. The outermost one leaves its mark. -/
def enter (nest : Nest) (index : Nat) : Nest :=
  { depth := nest.depth + 1
    mark := if nest.depth = 0 then some (index : Int) else nest.mark }

/-- Close one, if any is open. The outermost one takes its mark along. -/
def leave (nest : Nest) : Nest :=
  { depth := max (nest.depth - 1) 0
    mark := if nest.depth = 1 then none else nest.mark }

/-- Lose the mark, but keep count. -/
def forgetMark (nest : Nest) : Nest :=
  { nest with mark := none }

end Nest

structure State where
  /-- The first offset that is not consumed. -/
  cursor : Int := 0
  /-- How many blocks are open; negative after too many closing braces. -/
  blockDepth : Int := 0
  /-- The open parentheses. -/
  calls : Nest := {}
  /-- The open interpolations. -/
  interpolations : Nest := {}
  /-- The offset behind the last brace of a block. -/
  bodyStart : Int := 0
  /-- The offset behind the last brace of a block or end of a statement. -/
  statementStart : Int := 0
  /-- Whether the next statement has to carry an error flag. -/
  pendingError : Bool := false
  /-- The words of the statement that is being read. -/
  words : List Word := []
  deriving DecidableEq

namespace State

/-- Add a text word that ends at `stop`. It begins at the given offset, or else
at the first offset that is not consumed. Nothing is consumed, and empty words
are kept: the first word gives a statement its offset even if it is blank. -/
def addText (source : Text) (state : State) (stop : Int)
    (start : Int := state.cursor) : State :=
  { state with words := state.words ++ [⟨.text, source.slice start stop, start, false⟩] }

/-- Add a word that ends at `stop`, and consume it. -/
def takeWord (source : Text) (state : State) (kind : WordKind) (stop : Int)
    (error : Bool := false) : State :=
  { state with
    words := state.words ++ [⟨kind, source.slice state.cursor stop, state.cursor, error⟩]
    cursor := stop }

/-- Go on at an offset. -/
def moveTo (state : State) (offset : Int) : State :=
  { state with cursor := offset }

/-- Forget the words of the statement, and the marks among them. -/
def forgetWords (state : State) : State :=
  { state with
    words := []
    calls := state.calls.forgetMark
    interpolations := state.interpolations.forgetMark }

/-- Begin a statement at an offset. -/
def beginStatement (state : State) (offset : Int) : State :=
  { state.forgetWords with cursor := offset, statementStart := offset }

/-- Begin the contents of a block, or what follows it, at an offset. -/
def beginBody (state : State) (offset : Int) : State :=
  { state.beginStatement offset with bodyStart := offset }

/-- No statement has to be flagged any more. -/
def settle (state : State) : State :=
  { state with pendingError := false }

/-- Replace the words behind a mark, and the text up to and including the
character at `offset`, by one word. If the mark is lost all words are replaced,
and the new word is flagged. -/
def collapse (source : Text) (state : State) (offset : Int) (kind : WordKind)
    (mark : Option Int) : State :=
  let kept := mark.bind fun mark =>
    if mark < state.words.length then some (place state.words.length (mark + 1)) else none
  let nested := state.words.drop (kept.getD 0)
  let word : Word :=
    { kind
      text := Word.joined nested ++ source.slice state.cursor (offset + 1)
      offset := (nested.head?.map (·.offset)).getD state.cursor
      error := kept.isNone }
  { state with
    words := state.words.take (kept.getD 0) ++ [word]
    cursor := offset + 1 }

end State

/-- What a part of a scan leads to. -/
structure Outcome where
  state : State
  tokens : List Token := []
  diagnostics : List Diagnostic := []
  deriving DecidableEq

namespace Outcome

/-- Go on from the state of an outcome. -/
def andThen (outcome : Outcome) (next : State → Outcome) : Outcome :=
  let following := next outcome.state
  { state := following.state
    tokens := outcome.tokens ++ following.tokens
    diagnostics := outcome.diagnostics ++ following.diagnostics }

/-- Change the state of an outcome and nothing else. -/
def mapState (outcome : Outcome) (change : State → State) : Outcome :=
  { outcome with state := change outcome.state }

/-- Do something only if it is needed. -/
def onlyIf (needed : Bool) (state : State) (act : State → Outcome) : Outcome :=
  if needed then act state else { state }

end Outcome

/-- Report a diagnostic, unless errors are ignored. If it is pending, the next
statement has to carry an error flag. -/
def report (scan : Scan) (state : State) (diagnostic : Diagnostic) (pending : Bool) :
    Outcome :=
  if scan.options.ignoreErrors then { state }
  else
    { state := { state with pendingError := state.pendingError || pending }
      diagnostics := [diagnostic] }

/-- Report a fault that the next statement has to be flagged for. -/
def reportPending (scan : Scan) (state : State) (fault : Fault) (offset : Int) : Outcome :=
  scan.report state (.ofFault fault scan.source offset) true

/-- Report a fault that concerns no later statement. -/
def reportSettled (scan : Scan) (state : State) (fault : Fault) (offset : Int) : Outcome :=
  scan.report state (.ofFault fault scan.source offset) false

end Scan
end Stylesheet
