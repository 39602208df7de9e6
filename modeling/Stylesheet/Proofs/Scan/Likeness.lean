import Mathlib.Data.List.Forall2
import Stylesheet.Proofs.Scan.Course

/-!
# Two scans side by side

Two scans read the same text, each from its own base on. What they have read before may
differ, as long as it is alike: a likeness says which words, offsets and tokens are
alike, and that reading on keeps them so. Scans whose states are alike stay alike.
-/

namespace Stylesheet

/-- Words merged into one, which begins where the first of them begins. -/
def Word.merged (kind : WordKind) (error : Bool) (words : List Word) : Word :=
  ⟨kind, joined words, (words.head?.map (·.offset)).getD 0, error⟩

namespace Scan

/-- Two scans with the same options that read the same text from their bases on, for
`width` characters. -/
structure Pair where
  options : TokenizeOptions
  firstSource : Text
  secondSource : Text
  firstBase : Nat
  secondBase : Nat
  width : Nat
  sameText : (firstSource.drop firstBase).take width = (secondSource.drop secondBase).take width

namespace Pair

variable (pair : Pair)

def first : Scan := ⟨pair.options, pair.firstSource⟩

def second : Scan := ⟨pair.options, pair.secondSource⟩

theorem slice_eq (start : Nat) {stop : Nat} (inside : stop ≤ pair.width) :
    pair.firstSource.slice (pair.firstBase + start : Nat) (pair.firstBase + stop : Nat) =
      pair.secondSource.slice (pair.secondBase + start : Nat) (pair.secondBase + stop : Nat) := by
  have window (source : Text) (base : Nat) :
      source.slice (base + start : Nat) (base + stop : Nat) =
        (((source.drop base).take pair.width).drop start).take (stop - start) := by
    rw [Text.slice_natCast, List.drop_take, List.take_take, List.drop_drop]
    congr 1
    omega
  rw [window, window, pair.sameText]

end Pair

/-! ## Likeness -/

/-- What is alike in two scans, and stays so. -/
structure Likeness (pair : Pair) where
  /-- Words that say the same. -/
  held : List Word → List Word → Prop
  /-- Offsets of the same place. -/
  level : Int → Int → Prop
  same : Token → Token → Prop
  /-- Whether the two scans have opened equally many blocks, and report the same. -/
  counted : Prop
  held_nil : held [] []
  held_word {firstWords secondWords : List Word} (alike : held firstWords secondWords)
      (kind : WordKind) (text : Text) (offset : Nat) (error : Bool) :
    held (firstWords ++ [⟨kind, text, (pair.firstBase + offset : Nat), error⟩])
      (secondWords ++ [⟨kind, text, (pair.secondBase + offset : Nat), error⟩])
  held_more {firstWords secondWords : List Word} {firstText secondText : Text}
      {firstOffset secondOffset : Int}
      (alike : held (firstWords ++ [⟨.text, firstText, firstOffset, false⟩])
        (secondWords ++ [⟨.text, secondText, secondOffset, false⟩])) (more : Text) :
    held (firstWords ++ [⟨.text, firstText ++ more, firstOffset, false⟩])
      (secondWords ++ [⟨.text, secondText ++ more, secondOffset, false⟩])
  held_length (lessSyntax : pair.options.lessSyntax = true) {firstWords secondWords : List Word}
      (alike : held firstWords secondWords) : firstWords.length = secondWords.length
  held_merged (lessSyntax : pair.options.lessSyntax = true) {firstWords secondWords : List Word}
      (alike : held firstWords secondWords) {kind : WordKind} (opaque_ : kind ≠ .text)
      (error : Bool) {kept : Nat} (some_ : kept < firstWords.length) :
    held (firstWords.take kept ++ [Word.merged kind error (firstWords.drop kept)])
      (secondWords.take kept ++ [Word.merged kind error (secondWords.drop kept)])
  emitted {first second : State} (alike : held first.words second.words)
      (pendingError : first.pendingError = second.pendingError) (terminator : Text) :
    List.Forall₂ same (pair.first.emitWords first terminator).tokens
        (pair.second.emitWords second terminator).tokens ∧
      (pair.first.emitWords first terminator).kinds =
        (pair.second.emitWords second terminator).kinds
  opening {firstWords secondWords : List Word} (alike : held firstWords secondWords)
      (some_ : firstWords ≠ []) :
    same (.openingOf firstWords) (.openingOf secondWords)
  closing (offset : Nat) :
    same (.closing (pair.firstBase + offset : Nat)) (.closing (pair.secondBase + offset : Nat))
  level_of_le {offset : Nat} (inside : offset ≤ pair.width) :
    level (pair.firstBase + offset : Nat) (pair.secondBase + offset : Nat)
  level_lt {firstStart secondStart firstStop secondStop : Int}
      (starts : level firstStart secondStart) (stops : level firstStop secondStop) :
    firstStart < firstStop ↔ secondStart < secondStop
  stretch (whole : pair.options.splitRules = false)
      {firstStart secondStart firstStop secondStop : Int}
      (starts : level firstStart secondStart) (stops : level firstStop secondStop) :
    let firstText := (pair.firstSource.slice firstStart firstStop).trim
    let secondText := (pair.secondSource.slice secondStart secondStop).trim
    firstText.isEmpty = secondText.isEmpty ∧
      ∀ error, same (.code firstText firstStart error) (.code secondText secondStart error)

variable {pair : Pair}

/-- Outcomes with the same tokens and reports. -/
structure Likeness.Matches (likeness : Likeness pair) (first second : Outcome) : Prop where
  tokens : List.Forall₂ likeness.same first.tokens second.tokens
  kinds : likeness.counted → first.kinds = second.kinds

namespace Likeness.Matches

variable {likeness : Likeness pair} {first second : Outcome}

theorem quiet {first second : Outcome} (noFirst : first.tokens = []) (noSecond : second.tokens = [])
    (kinds : first.kinds = second.kinds) : likeness.Matches first second where
  tokens := by
    rw [noFirst, noSecond]
    exact .nil
  kinds _ := kinds

theorem silent (first second : State) : likeness.Matches { state := first } { state := second } :=
  quiet rfl rfl rfl

theorem andThen {firstNext secondNext : State → Outcome} (before : likeness.Matches first second)
    (behind : likeness.Matches (firstNext first.state) (secondNext second.state)) :
    likeness.Matches (first.andThen firstNext) (second.andThen secondNext) where
  tokens := List.rel_append before.tokens behind.tokens
  kinds counted := by
    simp only [Outcome.kinds, Outcome.andThen, List.map_append]
    exact congrArg₂ (· ++ ·) (before.kinds counted) (behind.kinds counted)

theorem mapState {firstChange secondChange : State → State}
    (before : likeness.Matches first second) :
    likeness.Matches (first.mapState firstChange) (second.mapState secondChange) :=
  ⟨before.tokens, before.kinds⟩

theorem one {firstToken secondToken : Token} (same : likeness.same firstToken secondToken)
    (first second : State) :
    likeness.Matches { state := first, tokens := [firstToken] }
      { state := second, tokens := [secondToken] } :=
  ⟨.cons same .nil, fun _ => rfl⟩

theorem reportSettled (fault : Fault) (first second : State) (firstOffset secondOffset : Int) :
    likeness.Matches (pair.first.reportSettled first fault firstOffset)
      (pair.second.reportSettled second fault secondOffset) := by
  have both (ignores : pair.first.options.ignoreErrors = pair.second.options.ignoreErrors) :
      likeness.Matches (pair.first.reportSettled first fault firstOffset)
        (pair.second.reportSettled second fault secondOffset) := by
    unfold Scan.reportSettled report
    rw [ignores]
    split
    · exact silent ..
    · exact quiet rfl rfl rfl
  exact both rfl

theorem onlyIf {firstNeeded secondNeeded : Bool} {firstState secondState : State}
    {firstAct secondAct : State → Outcome} (needed : firstNeeded = secondNeeded)
    (act : firstNeeded = true → likeness.Matches (firstAct firstState) (secondAct secondState)) :
    likeness.Matches (.onlyIf firstNeeded firstState firstAct)
      (.onlyIf secondNeeded secondState secondAct) := by
  subst needed
  cases firstNeeded with
  | false => exact silent ..
  | true => exact act rfl

/-- A report that only one of the scans makes does not count where nothing is counted. -/
theorem onlyIf_reportSettled {firstNeeded secondNeeded : Bool}
    (needed : likeness.counted → firstNeeded = secondNeeded) (fault : Fault)
    (first second : State) (firstOffset secondOffset : Int) :
    likeness.Matches
      (.onlyIf firstNeeded first fun state => pair.first.reportSettled state fault firstOffset)
      (.onlyIf secondNeeded second fun state =>
        pair.second.reportSettled state fault secondOffset) where
  tokens := by
    rw [(Scan.onlyIf_reportSettled ..).2, (Scan.onlyIf_reportSettled ..).2]
    exact .nil
  kinds counted :=
    (onlyIf (needed counted) fun _ => reportSettled fault first second firstOffset
      secondOffset).kinds counted

end Likeness.Matches

/-! ## States -/

/-- States that are alike but for what has been read last. -/
structure Kindred (likeness : Likeness pair) (first second : State) : Prop where
  calls : first.calls = second.calls
  interpolations : first.interpolations = second.interpolations
  nested : 0 < first.interpolations.depth → pair.options.lessSyntax = true
  pendingError : first.pendingError = second.pendingError
  depth : likeness.counted → first.blockDepth = second.blockDepth
  body : pair.options.splitRules = false → likeness.level first.bodyStart second.bodyStart
  statement : pair.options.splitRules = false →
    likeness.level first.statementStart second.statementStart

/-- Both scans have gone on to a place of the text that they both read. One of them may
still have text to read from before its base. -/
structure Abreast (likeness : Likeness pair) (place : Nat) (first second : State) : Prop where
  kindred : Kindred likeness first second
  inside : place ≤ pair.width
  firstNonneg : 0 ≤ first.cursor
  secondNonneg : 0 ≤ second.cursor
  firstPace : ∀ offset : Nat, ((pair.firstBase + offset : Nat) : Int) < first.cursor ↔
    offset < place
  secondPace : ∀ offset : Nat, ((pair.secondBase + offset : Nat) : Int) < second.cursor ↔
    offset < place
  held : likeness.held
    (first.addText pair.firstSource (pair.firstBase + place : Nat)).words
    (second.addText pair.secondSource (pair.secondBase + place : Nat)).words

namespace Abreast

variable {likeness : Likeness pair} {place : Nat} {first second : State}

theorem addText_words (source : Text) (state : State) (stop : Int) :
    (state.addText source stop).words =
      state.words ++ [⟨.text, source.slice state.cursor stop, state.cursor, false⟩] := rfl

/-- States that have just read something. -/
theorem renew {stop : Nat} (inside : stop ≤ pair.width) (kindred : Kindred likeness first second)
    (firstCursor : first.cursor = (pair.firstBase + stop : Nat))
    (secondCursor : second.cursor = (pair.secondBase + stop : Nat))
    (held : likeness.held first.words second.words) : Abreast likeness stop first second where
  kindred := kindred
  inside := inside
  firstNonneg := by omega
  secondNonneg := by omega
  firstPace offset := by omega
  secondPace offset := by omega
  held := by
    rw [addText_words, addText_words, firstCursor, secondCursor, Text.slice_self, Text.slice_self]
    exact likeness.held_word held .text [] stop false

/-- States that have read nothing more. -/
theorem recast (abreast : Abreast likeness place first second) {firstAfter secondAfter : State}
    (kindred : Kindred likeness firstAfter secondAfter)
    (firstCursor : firstAfter.cursor = first.cursor)
    (secondCursor : secondAfter.cursor = second.cursor) (firstWords : firstAfter.words = first.words)
    (secondWords : secondAfter.words = second.words) :
    Abreast likeness place firstAfter secondAfter where
  kindred := kindred
  inside := abreast.inside
  firstNonneg := firstCursor ▸ abreast.firstNonneg
  secondNonneg := secondCursor ▸ abreast.secondNonneg
  firstPace := firstCursor ▸ abreast.firstPace
  secondPace := secondCursor ▸ abreast.secondPace
  held := by
    have held := abreast.held
    rw [addText_words, addText_words] at held ⊢
    rwa [firstWords, secondWords, firstCursor, secondCursor]

/-- The words with the text up to a later offset behind them. -/
theorem held_addText (abreast : Abreast likeness place first second) {offset : Nat}
    (behind : place ≤ offset) (inside : offset ≤ pair.width) :
    likeness.held (first.addText pair.firstSource (pair.firstBase + offset : Nat)).words
      (second.addText pair.secondSource (pair.secondBase + offset : Nat)).words := by
  have firstReached := (abreast.firstPace place).not.mpr (Nat.lt_irrefl place)
  have secondReached := (abreast.secondPace place).not.mpr (Nat.lt_irrefl place)
  have later (base : Nat) : ((base + place : Nat) : Int) ≤ (base + offset : Nat) :=
    Int.ofNat_le.mpr (Nat.add_le_add_left behind base)
  rw [addText_words, addText_words,
    ← Text.slice_append _ abreast.firstNonneg (Int.not_lt.mp firstReached) (later _),
    ← Text.slice_append _ abreast.secondNonneg (Int.not_lt.mp secondReached) (later _),
    pair.slice_eq _ inside]
  exact likeness.held_more abreast.held _

theorem length_eq (abreast : Abreast likeness place first second)
    (lessSyntax : pair.options.lessSyntax = true) : first.words.length = second.words.length := by
  have lengths := likeness.held_length lessSyntax abreast.held
  rw [addText_words, addText_words] at lengths
  simpa using lengths

end Abreast

end Scan
end Stylesheet
