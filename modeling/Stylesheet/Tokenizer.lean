import Stylesheet.Scan.Steps
import Stylesheet.Token.Nesting

/-!
# Tokenizing

A source is read into flat tokens or into a tree. Reading never fails: faults
are repaired, and reported unless errors are ignored.
-/

namespace Stylesheet

/-- The two forms of a token list. -/
inductive Form
  | flat
  | tree
  deriving DecidableEq

/-- The call that reads a source into a form at once, as it is named in messages. -/
def Form.call : Form → Text
  | flat => "tokenize".toList
  | tree => "tree".toList

/-- The tokens of a source, and what is reported about it. -/
structure Reading where
  tokens : List Token
  diagnostics : List Diagnostic
  deriving DecidableEq

namespace TokenizeOptions

/-- Read a source into flat tokens. -/
def tokenize (options : TokenizeOptions) (source : Text) : Reading :=
  let steps := Scan.steps ⟨options, source⟩
  { tokens := steps.flatMap (·.outcome.tokens)
    diagnostics := steps.flatMap (·.outcome.diagnostics) }

/-- Read a source into a tree. What is reported about the nesting comes last. -/
def tree (options : TokenizeOptions) (source : Text) : Reading :=
  let flat := options.tokenize source
  { tokens := Token.nest flat.tokens
    diagnostics := flat.diagnostics ++
      Token.strayClosings options.ignoreErrors source flat.tokens }

/-- Read a source into the given form. -/
def read (options : TokenizeOptions) (form : Form) (source : Text) : Reading :=
  match form with
  | .flat => options.tokenize source
  | .tree => options.tree source

/-- The options for reading a source at once with settings. -/
def ofCall (inForce : TokenizeOptions) (form : Form) (pairs : List (Text × Json)) :
    Except OptionFault TokenizeOptions := do
  Settings.refuse form.call ["source".toList] (Settings.ofPairs pairs)
  inForce.ofSettings pairs

end TokenizeOptions

end Stylesheet
