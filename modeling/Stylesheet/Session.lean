import Stylesheet.Tokenizer

/-!
# Sessions

A session keeps the options that are in force when none are given. A context
replaces them until it is left, and then brings back the options that it
replaced. Tokenizers have a name, keep the options they were made with, and
remember what their last reading reported.
-/

namespace Stylesheet

/-- A tokenizer that has a name. -/
structure Tokenizer where
  options : TokenizeOptions
  /-- What the last reading reported. -/
  diagnostics : List Diagnostic := []
  deriving DecidableEq

structure Session where
  /-- The options in force. -/
  current : TokenizeOptions := {}
  /-- The options that the open contexts replaced, innermost first. -/
  replaced : List TokenizeOptions := []
  /-- The tokenizers, the one made last first. -/
  tokenizers : List (Text × Tokenizer) := []
  deriving DecidableEq

namespace Session

inductive Step
  | currentOptions
  | setOptions (settings : Settings)
  | resetOptions
  /-- Open a context. -/
  | enter (settings : Settings)
  /-- Leave the innermost context. -/
  | leave
  /-- Make a tokenizer from base options, or those in force, and settings. -/
  | create (name : Text) (base : Option Settings) (settings : Settings)
  /-- Read a source with a tokenizer. -/
  | read (name : Text) (form : Form) (source : Text)
  /-- Read a source with the options in force and settings. -/
  | readOnce (form : Form) (source : Text) (settings : Settings)
  /-- What the last reading of a tokenizer reported. -/
  | diagnostics (name : Text)
  | tokenizerOptions (name : Text)
  /-- Fail with the first report of the last reading, if there is any. -/
  | raise (name : Text)

inductive Answer
  | options (options : TokenizeOptions)
  | tokens (tokens : List Token)
  | diagnostics (diagnostics : List Diagnostic)
  | done

/-- Why a step fails. A step that fails changes nothing. -/
inductive Failure
  | options (fault : OptionFault)
  | raised (diagnostic : Diagnostic)
  | unknownTokenizer (name : Text)
  /-- There is no context to leave. -/
  | noContext

/-- The tokenizer with a name. -/
def find (session : Session) (name : Text) : Except Failure Tokenizer :=
  match session.tokenizers.lookup name with
  | some tokenizer => .ok tokenizer
  | none => .error (.unknownTokenizer name)

/-- Give a name to a tokenizer. A tokenizer that had the name is forgotten. -/
def put (session : Session) (name : Text) (tokenizer : Tokenizer) : Session :=
  { session with
    tokenizers := (name, tokenizer) :: session.tokenizers.filter (·.1 != name) }

/-- The options that settings stand for. -/
def optionsOf (settings : Settings) : Except Failure TokenizeOptions :=
  (TokenizeOptions.ofPairs settings).mapError .options

/-- Put options in force, and answer with them. -/
def inForce (session : Session) (options : TokenizeOptions) : Session × Answer :=
  ({ session with current := options }, .options options)

/-- Take one step. -/
def step (session : Session) : Step → Except Failure (Session × Answer)
  | .currentOptions => .ok (session, .options session.current)
  | .setOptions settings => return session.inForce (← optionsOf settings)
  | .resetOptions => .ok (session.inForce {})
  | .enter settings => do
      let options ← optionsOf settings
      return { session with replaced := session.current :: session.replaced }.inForce options
  | .leave =>
      match session.replaced with
      | [] => .error .noContext
      | previous :: outer => .ok ({ session with replaced := outer }.inForce previous)
  | .create name base settings => do
      let base ← match base with
        | some base => optionsOf base
        | none => .ok session.current
      let options ← (base.ofBase settings).mapError .options
      return (session.put name ⟨options, []⟩, .options options)
  | .read name form source => do
      let tokenizer ← session.find name
      let reading := tokenizer.options.read form source
      return (session.put name { tokenizer with diagnostics := reading.diagnostics },
        .tokens reading.tokens)
  | .readOnce form source settings => do
      let options ← (session.current.ofCall form settings).mapError .options
      return (session, .tokens (options.read form source).tokens)
  | .diagnostics name => return (session, .diagnostics (← session.find name).diagnostics)
  | .tokenizerOptions name => return (session, .options (← session.find name).options)
  | .raise name => do
      match (← session.find name).diagnostics with
      | [] => return (session, .done)
      | first :: _ => .error (.raised first)

/-- Take a step if it succeeds, and stay as before if it fails. -/
def stepOrStay (session : Session) (step : Step) : Session × Except Failure Answer :=
  match session.step step with
  | .ok (next, answer) => (next, .ok answer)
  | .error failure => (session, .error failure)

/-- Take steps one after the other, and collect their answers. -/
def run (session : Session) : List Step → List (Except Failure Answer)
  | [] => []
  | step :: steps =>
      let (next, answer) := session.stepOrStay step
      answer :: run next steps

end Session
end Stylesheet
