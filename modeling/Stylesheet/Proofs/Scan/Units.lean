import Stylesheet.Proofs.Scan.Standing

/-!
# Scanning unit by unit

The scan of a plain source takes one unit of the source after the other: a plain
character, an escape, a literal or a boundary. What it emits is what the glyphs are
assembled to. A scan that handles no comment and reports nothing finds glyphs everywhere.
-/

namespace Stylesheet
namespace Scan

variable {scan : Scan} {state : State} {place : Nat} {source : Text} {content : List Glyph}

/-! ## Units -/

theorem front?_backslash (rest : Text) :
    Marker.front? false ('\\' :: rest) = some .backslash :=
  Marker.front?_eq_some_iff.mpr ⟨by decide, by simp [Marker.occursHere, Marker.ignoresCase,
    Marker.spelling]⟩

/-- A reaction that only takes words leads from place to place in silence. -/
structure Silent (scan : Scan) (state : State) (place : Nat) (next : State) (stop : Nat) :
    Prop where
  steps : ∃ marker, scan.stepsAt state place =
    ⟨some marker, place, { state := next }⟩ :: scan.stepsAt next stop
  depth : next.blockDepth = state.blockDepth

theorem Silent.readingFrom_eq {next : State} {stop : Nat}
    (silent : Silent scan state place next stop) :
    scan.readingFrom state place = scan.readingFrom next stop := by
  obtain ⟨marker, steps⟩ := silent.steps
  rw [readingFrom, readingFrom, steps]
  rfl

theorem silent_of_react {marker : Marker} {next : State} {stop : Nat}
    (begins : Marker.front? false (source.drop place) = some marker)
    (reached : state.cursor ≤ place)
    (reaction : (strictly source).react marker state place = { state := next })
    (forward : place < stop) (atStop : next.cursor = stop)
    (depth : next.blockDepth = state.blockDepth) :
    Silent (strictly source) state place next stop := by
  refine ⟨⟨marker, ?_⟩, depth⟩
  rw [stepsAt_of_some (noLess_strictly source) begins reached, reaction]
  dsimp only
  rw [stepsAt_of_consumed (noLess_strictly source) forward (by omega)]

theorem react_backslash (source : Text) (state : State) (place : Nat) :
    (strictly source).react .backslash state place =
      { state := state.takeWord source .text (min (place + 2) source.length : Nat) } := by
  have stop : min ((place : Int) + 2) (source.length : Int) =
      ((min (place + 2) source.length : Nat) : Int) := by omega
  rw [← stop]
  rfl

theorem silent_escape (standing : Standing (strictly source) state place content)
    {rest : Text} (here : source.drop place = '\\' :: rest) :
    let stop := min (place + 2) source.length
    let next := state.takeWord source .text stop
    Silent (strictly source) state place next stop ∧
      Standing (strictly source) next stop
        (content ++ ('\\' :: rest.take 1).map .text) := by
  have length := congrArg List.length here
  rw [List.length_drop, List.length_cons] at length
  have taken : source.slice place (min (place + 2) source.length : Nat) =
      '\\' :: rest.take 1 := by
    rw [Text.slice_natCast, here]
    cases rest with
    | nil =>
        have count : min (place + 2) source.length - place = 1 := by
          rw [List.length_nil] at length
          omega
        rw [count]
        rfl
    | cons character rest =>
        have count : min (place + 2) source.length - place = 2 := by
          rw [List.length_cons] at length
          omega
        rw [count]
        rfl
  refine ⟨?_, ?_⟩
  · have begins := front?_backslash rest
    rw [← here] at begins
    exact silent_of_react begins standing.cursor_le (react_backslash source state place)
      (by omega) rfl rfl
  · rw [← taken]
    exact standing.takeTextWord (by omega) (Nat.min_le_right ..)

theorem silent_literal (standing : Standing (strictly source) state place content)
    {text rest : Text} (isLiteral : literalReach? text = some text.length)
    (here : source.drop place = text ++ rest) :
    ∃ next, Silent (strictly source) state place next (place + text.length) ∧
      Standing (strictly source) next (place + text.length)
        (content ++ text.map .literal) := by
  have positive := pos_of_literalReach? isLiteral
  have length := congrArg List.length here
  rw [List.length_drop, List.length_append] at length
  have inside : place + text.length ≤ source.length := by omega
  have forward : place < place + text.length := by omega
  have taken : source.slice place (place + text.length : Nat) = text := by
    rw [Text.slice_natCast, here, Nat.add_sub_cancel_left, List.take_left]
  have reached := literalReach?_of_isPrefix isLiteral
    ((List.take_prefix text.length text).trans (List.prefix_append text rest))
  rw [← here] at reached
  have known (kind : WordKind) (notText : (kind == .text) = false) :
      Standing (strictly source)
        (((strictly source).takeText state place).takeWord source kind
          (place + text.length : Nat)) (place + text.length) (content ++ text.map .literal) := by
    have whole := standing.takeText.takeLiteral notText rfl forward inside
    rwa [taken] at whole
  unfold literalReach? at reached
  split at reached
  next quote begins =>
    obtain ⟨inner, found, total⟩ := Option.map_eq_some_iff.mp reached
    have ends : Quoted.end? source quote.character place = some (place + text.length) := by
      rw [List.drop_drop] at found
      rw [Quoted.end?_natCast (Url.character_ne_backslash quote), found, Option.map_some, ← total]
      congr 1
      omega
    have reaction : (strictly source).react (.quote quote) state place =
        { state := ((strictly source).takeText state place).takeWord source .string
            (place + text.length : Nat) } := by
      rw [react, readString, source_strictly, ends]
    exact ⟨_, silent_of_react begins standing.cursor_le reaction forward rfl rfl,
      known .string rfl⟩
  next begins =>
    have ends : Url.findEnd source place = .ok (place + text.length : Nat) :=
      Url.findEnd_eq_ok_iff.mpr ⟨text.length, reached, rfl⟩
    have reaction : (strictly source).react .url state place =
        { state := ((strictly source).takeText state place).takeWord source .url
            (place + text.length : Nat) } := by
      rw [react, readUrl, source_strictly, ends]
    exact ⟨_, silent_of_react begins standing.cursor_le reaction forward rfl rfl,
      known .url rfl⟩
  next => cases reached

/-! ## Runs -/

/-- A step emits what is put in front of a draft. -/
theorem meets_of_react {marker : Marker} {tokens : List Token} {sound : Bool} {draft : Draft}
    (begins : (strictly source).markerAt? place = some marker) (reached : state.cursor ≤ place)
    (emits : ((strictly source).react marker state place).tokens.map Token.clearOffsets = tokens)
    (reports : ((strictly source).react marker state place).diagnostics = [] ↔ sound = true)
    (later : Meets ((strictly source).readingFrom
      ((strictly source).react marker state place).state (place + 1)) draft) :
    Meets ((strictly source).readingFrom state place) (draft.prepend tokens sound) := by
  rw [readingFrom_of_some (noLess_strictly source) begins reached]
  refine ⟨?_, ?_⟩
  · rw [List.map_append, emits, later.1]
    rfl
  · rw [List.append_eq_nil_iff, reports, later.2, Draft.prepend, Bool.and_eq_true]

theorem meets_boundary (standing : Standing (strictly source) state place content)
    {character : Char} (isBoundary : character ∈ Glyph.boundaries) {rest : Text}
    (here : source.drop place = character :: rest) {glyphs : List Glyph}
    (later : ∀ {next : State}, Standing (strictly source) next (place + 1) [] →
      Meets ((strictly source).readingFrom next (place + 1))
        (assemble next.blockDepth [] glyphs)) :
    Meets ((strictly source).readingFrom state place)
      (assemble state.blockDepth content (.boundary character :: glyphs)) := by
  have front (marker : Marker) (isActive : marker ∈ Marker.active false)
      (spelled : marker.spelling = [character])
      (asWritten : Marker.ignoresCase marker.spelling = false) :
      (strictly source).markerAt? place = some marker := by
    rw [markerAt?_strictly, here]
    refine Marker.front?_eq_some_iff.mpr ⟨isActive, ?_⟩
    rw [Marker.occursHere, asWritten, spelled]
    simp
  rw [assemble]
  simp only [Glyph.boundaries, List.mem_cons, List.not_mem_nil, or_false] at isBoundary
  rcases isBoundary with rfl | rfl | rfl
  · obtain ⟨tokens, diagnostics, depth, renewed⟩ := standing.semicolon here
    rw [if_pos rfl, ← depth]
    exact meets_of_react (front .semicolon (by decide) rfl rfl) standing.cursor_le tokens
      diagnostics (later renewed)
  · obtain ⟨tokens, diagnostics, depth, renewed⟩ := standing.openBrace here
    rw [if_neg (by decide), if_pos rfl, ← depth]
    exact meets_of_react (front .openBrace (by decide) rfl rfl) standing.cursor_le tokens
      (by simp [diagnostics]) (later renewed)
  · obtain ⟨tokens, diagnostics, depth, renewed⟩ := standing.closeBrace here
    rw [if_neg (by decide), if_neg (by decide), ← depth]
    exact meets_of_react (front .closeBrace (by decide) rfl rfl) standing.cursor_le tokens
      diagnostics (later renewed)

theorem drop_of_eq_append (text : Text) {rest : Text} (here : source.drop place = text ++ rest) :
    source.drop (place + text.length) = rest := by
  rw [← List.drop_drop, here, List.drop_left]

/-- A source is read as its glyphs are assembled. -/
theorem meets_assemble {text : Text} {glyphs : List Glyph} {isOpen : Bool}
    (lexed : Lexed text glyphs isOpen)
    (standing : Standing (strictly source) state place content)
    (here : source.drop place = text) :
    Meets ((strictly source).readingFrom state place)
      (assemble state.blockDepth content glyphs) := by
  induction lexed generalizing state place content with
  | nil =>
      have inside : place ≤ source.length := standing.inside
      have length := congrArg List.length here
      rw [List.length_drop, List.length_nil] at length
      obtain rfl : place = source.length := by omega
      exact standing.meets_end
  | dangling =>
      obtain ⟨silent, next⟩ := silent_escape standing here
      have length := congrArg List.length here
      rw [List.length_drop, List.length_singleton] at length
      have atEnd : min (place + 2) source.length = source.length := by omega
      rw [atEnd] at silent next
      rw [silent.readingFrom_eq, ← silent.depth, assemble_cons (isContent_map_text ['\\'])]
      exact next.meets_end
  | @plain character rest _ _ noMarker behind induction =>
      have noMarkerHere : (strictly source).markerAt? place = none := by
        rw [markerAt?_strictly, here, noMarker]
      rw [readingFrom, stepsAt_of_none noMarkerHere, assemble_cons (isContent_map_text [character])]
      exact induction (standing.plain here) (drop_of_eq_append [character] here)
  | @escape character rest glyphs _ behind induction =>
      obtain ⟨silent, next⟩ := silent_escape standing here
      have length := congrArg List.length here
      rw [List.length_drop, List.length_cons, List.length_cons] at length
      have twoLater : min (place + 2) source.length = place + 2 := by omega
      rw [twoLater] at silent next
      have whole : assemble state.blockDepth content (.text '\\' :: .text character :: glyphs) =
          assemble state.blockDepth (content ++ ['\\', character].map .text) glyphs :=
        assemble_append _ _ (isContent_map_text ['\\', character])
      rw [silent.readingFrom_eq, whole, ← silent.depth]
      exact induction next (drop_of_eq_append ['\\', character] here)
  | @boundary character rest _ _ isBoundary behind induction =>
      have later := drop_of_eq_append [character] here
      exact meets_boundary standing isBoundary here fun next => induction next later
  | @literal text rest _ _ isLiteral behind induction =>
      obtain ⟨next, silent, standingNext⟩ := silent_literal standing isLiteral here
      rw [silent.readingFrom_eq, ← silent.depth, assemble_append _ _ (isContent_map_literal text)]
      exact induction standingNext (drop_of_eq_append _ here)

theorem exists_literalReach? {marker : Marker}
    (begins : Marker.front? false (source.drop place) = some marker)
    (isLiteral : marker = .url ∨ ∃ quote, marker = .quote quote)
    (unreported : ((strictly source).react marker state place).diagnostics = []) :
    ∃ count, literalReach? (source.drop place) = some count := by
  unfold literalReach?
  rw [begins]
  rcases isLiteral with rfl | ⟨quote, rfl⟩
  · dsimp only
    rw [react, readUrl, source_strictly] at unreported
    cases ends : Url.findEnd source place with
    | ok stop =>
        obtain ⟨count, reached, -⟩ := Url.findEnd_eq_ok_iff.mp ends
        exact ⟨count, reached⟩
    | error fault =>
        rw [ends] at unreported
        cases unreported
  · dsimp only
    rw [react, readString, source_strictly] at unreported
    have known := Quoted.end?_natCast (Url.character_ne_backslash quote) source place
    rw [List.drop_drop]
    cases reached : Quoted.reach? quote.character (source.drop (place + 1)) with
    | some count => exact ⟨count + 1, rfl⟩
    | none =>
        rw [reached, Option.map_none] at known
        rw [known] at unreported
        cases unreported

/-- Nothing is reported from a place on, and no comment is handled. -/
def Clean (scan : Scan) (state : State) (place : Nat) : Prop :=
  ∀ step ∈ scan.stepsAt state place,
    step.outcome.diagnostics = [] ∧ step.marker ≠ some .comment

theorem Clean.behind {next : State} {stop : Nat} (clean : Clean scan state place)
    (silent : Silent scan state place next stop) : Clean scan next stop := by
  obtain ⟨marker, steps⟩ := silent.steps
  intro step member
  exact clean step (steps ▸ List.mem_cons_of_mem _ member)

/-- From a place on, one unit is read, and the scan stands behind it. -/
def ReadsUnit (source : Text) (place : Nat) : Prop :=
  ∃ stop next content, place < stop ∧ Standing (strictly source) next stop content ∧
    Clean (strictly source) next stop ∧ ∀ {glyphs isOpen},
      Lexed (source.drop stop) glyphs isOpen →
        ∃ known stillOpen, Lexed (source.drop place) known stillOpen

section Units

variable (standing : Standing (strictly source) state place content)
  (clean : Clean (strictly source) state place)

include standing clean

theorem readsUnit_plain {character : Char} {rest : Text}
    (here : source.drop place = character :: rest)
    (noMarker : Marker.front? false (character :: rest) = none) :
    ReadsUnit source place := by
  have noMarkerHere : (strictly source).markerAt? place = none := by
    rw [markerAt?_strictly, here, noMarker]
  rw [Clean, stepsAt_of_none noMarkerHere] at clean
  refine ⟨place + 1, state, _, Nat.lt_succ_self place, standing.plain here, clean, ?_⟩
  have next : source.drop (place + 1) = rest := drop_of_eq_append [character] here
  intro glyphs isOpen behind
  rw [next] at behind
  rw [here]
  exact ⟨_, _, .plain noMarker behind⟩

theorem readsUnit_escape {character : Char} {rest : Text}
    (here : source.drop place = '\\' :: character :: rest) : ReadsUnit source place := by
  obtain ⟨silent, next⟩ := silent_escape standing here
  have length := congrArg List.length here
  rw [List.length_drop, List.length_cons, List.length_cons] at length
  have twoLater : min (place + 2) source.length = place + 2 := by omega
  rw [twoLater] at silent next
  refine ⟨place + 2, _, _, by omega, next, clean.behind silent, ?_⟩
  have later : source.drop (place + 2) = rest := drop_of_eq_append ['\\', character] here
  intro glyphs isOpen behind
  rw [later] at behind
  rw [here]
  exact ⟨_, _, .escape character behind⟩

theorem readsUnit_literal {count : Nat} (reached : literalReach? (source.drop place) = some count) :
    ReadsUnit source place := by
  have inside := le_length_of_literalReach? reached
  have positive := pos_of_literalReach? reached
  have taken : ((source.drop place).take count).length = count := by
    rw [List.length_take]
    omega
  have isLiteral := (literalReach?_of_isPrefix reached (List.prefix_refl _)).trans
    (congrArg some taken.symm)
  have split := (List.take_append_drop count (source.drop place)).symm
  obtain ⟨next, silent, standingNext⟩ := silent_literal standing isLiteral split
  refine ⟨_, next, _, by rw [taken]; omega, standingNext, clean.behind silent, ?_⟩
  intro glyphs isOpen behind
  rw [drop_of_eq_append _ split] at behind
  rw [split]
  exact ⟨_, _, .literal isLiteral behind⟩

theorem readsUnit_boundary {marker : Marker} {character : Char} {rest : Text}
    (here : source.drop place = character :: rest)
    (begins : Marker.front? false (character :: rest) = some marker)
    (isBoundary : character ∈ Glyph.boundaries)
    (renewed : Standing (strictly source)
      ((strictly source).react marker state place).state (place + 1) []) :
    ReadsUnit source place := by
  have beginsHere : (strictly source).markerAt? place = some marker := by
    rw [markerAt?_strictly, here, begins]
  have steps := stepsAt_of_some (noLess_strictly source) beginsHere standing.cursor_le
  refine ⟨place + 1, _, _, Nat.lt_succ_self place, renewed, ?_, ?_⟩
  · intro step member
    exact clean step (steps ▸ List.mem_cons_of_mem _ member)
  · have next : source.drop (place + 1) = rest := drop_of_eq_append [character] here
    intro glyphs isOpen behind
    rw [next] at behind
    rw [here]
    exact ⟨_, _, .boundary isBoundary behind⟩

/-- At every place but the end, and before a dangling backslash, a unit is read. -/
theorem readsUnit_or_dangling (inside : place < source.length) :
    ReadsUnit source place ∨ source.drop place = ['\\'] := by
  cases here : source.drop place with
  | nil =>
      have length := congrArg List.length here
      rw [List.length_drop, List.length_nil] at length
      omega
  | cons character rest =>
      cases front : Marker.front? false (character :: rest) with
      | none => exact Or.inl (readsUnit_plain standing clean here front)
      | some marker =>
          have begins : (strictly source).markerAt? place = some marker := by
            rw [markerAt?_strictly, here, front]
          have first := clean ⟨some marker, place, (strictly source).react marker state place⟩
            (stepsAt_of_some (noLess_strictly source) begins standing.cursor_le ▸
              List.mem_cons_self)
          have literal (isLiteral : marker = .url ∨ ∃ quote, marker = .quote quote) :
              ReadsUnit source place := by
            obtain ⟨count, reached⟩ := exists_literalReach? begins isLiteral first.1
            exact readsUnit_literal standing clean reached
          obtain ⟨isActive, occurs⟩ := Marker.front?_eq_some_iff.mp front
          have single {spelled : Char} (spelling : marker.spelling = [spelled]) :
              spelled = character := by
            have isPrefix := Marker.isPrefix_of_occursHere occurs
              (by rintro rfl; simp [Marker.spelling] at spelling)
            rw [spelling, List.cons_prefix_cons] at isPrefix
            exact isPrefix.1
          cases marker with
          | quote quote => exact Or.inl (literal (Or.inr ⟨quote, rfl⟩))
          | url => exact Or.inl (literal (Or.inl rfl))
          | comment => exact absurd rfl first.2
          | backslash =>
              obtain rfl := single rfl
              cases rest with
              | nil => exact Or.inr rfl
              | cons escaped rest => exact Or.inl (readsUnit_escape standing clean here)
          | semicolon =>
              obtain rfl := single rfl
              exact Or.inl (readsUnit_boundary standing clean here front (by decide)
                (standing.semicolon here).2.2.2)
          | openBrace =>
              obtain rfl := single rfl
              exact Or.inl (readsUnit_boundary standing clean here front (by decide)
                (standing.openBrace here).2.2.2)
          | closeBrace =>
              obtain rfl := single rfl
              exact Or.inl (readsUnit_boundary standing clean here front (by decide)
                (standing.closeBrace here).2.2.2)
          | _ => simp [Marker.active, Marker.plain] at isActive

end Units

/-- Where no comment is handled and nothing is reported, the source has glyphs. -/
theorem exists_lexed (standing : Standing (strictly source) state place content)
    (clean : Clean (strictly source) state place) :
    ∃ glyphs isOpen, Lexed (source.drop place) glyphs isOpen := by
  -- The induction is on what is left of the source: a unit is never empty.
  generalize size : source.length - place = count
  induction count using Nat.strongRecOn generalizing state place content with
  | _ count induction =>
      by_cases inside : place < source.length
      · rcases readsUnit_or_dangling standing clean inside with unit | dangling
        · obtain ⟨stop, next, _, forward, standingNext, cleanNext, extend⟩ := unit
          obtain ⟨glyphs, isOpen, lexed⟩ := induction _ (by omega) standingNext cleanNext rfl
          exact extend lexed
        · rw [dangling]
          exact ⟨_, _, .dangling⟩
      · rw [List.drop_of_length_le (by omega)]
        exact ⟨_, _, .nil⟩

/-- A source with glyphs is tokenized as they are assembled. -/
theorem meets_tokenize {glyphs : List Glyph} {isOpen : Bool}
    (lexed : Lexed source glyphs isOpen) :
    Meets (TokenizeOptions.strict.tokenize source) (assemble 0 [] glyphs) := by
  have whole := meets_assemble lexed (Standing.start source) rfl
  rw [readingFrom, stepsAt, markersFrom_zero] at whole
  exact whole

end Scan
end Stylesheet
