import Stylesheet.Proofs.Scan.Constructs
import Stylesheet.Proofs.Scan.Reports
import Stylesheet.Proofs.Scan.Wordwise

/-!
# Reading on behind a block

A block that is closed leaves nothing behind: what follows is read as if the source
began there. In plain stylesheets that are split into rules, the same holds behind a
semicolon.
-/

namespace Stylesheet

namespace Token

mutual

/-- The token with every offset, its own and those inside, moved on. -/
def moved (distance : Int) : Token → Token
  | code text offset error => code text (distance + offset) error
  | rule declaration offset error => rule declaration (distance + offset) error
  | opening heading offset => opening heading (distance + offset)
  | block heading offset children =>
      block heading (distance + offset) (allMoved distance children)
  | closing offset => closing (distance + offset)
  | bare atRule => bare atRule

def allMoved (distance : Int) : List Token → List Token
  | [] => []
  | token :: tokens => moved distance token :: allMoved distance tokens

end

end Token

/-! ## The same texts at other offsets -/

/-- Texts that are the same. -/
def TextLikeness.exact (names : List Text) : TextLikeness names where
  alike := Eq
  ruleAlike := Eq
  refl _ := rfl
  append before behind := by rw [before, behind]
  trim same := by rw [same]
  isEmpty_eq same := by rw [same]
  head_eq same := by rw [same]
  flagged same := by
    rw [same]
    exact ⟨rfl, rfl⟩
  atRule same others := by
    rw [List.forall₂_eq_eq_eq] at others
    rw [same, others]

namespace TextLikeness

variable {names : List Text} {distance : Int}

theorem eq_of_headingAlike {first second : Heading}
    (alike : (exact names).HeadingAlike first second) : first = second := by
  cases alike with
  | unclassified texts =>
      obtain rfl := texts
      rfl
  | selectors texts each =>
      obtain rfl := texts
      have same : List.Forall₂ Eq _ _ := each
      rw [List.forall₂_eq_eq_eq] at same
      rw [same]
  | atRule texts rules =>
      obtain rfl := texts
      obtain rfl := rules
      rfl

theorem eq_moved_of_tokenAlike {first second : Token}
    (alike : (exact names).TokenAlike (fun first second => first = distance + second)
      first second) : first = second.moved distance := by
  cases alike with
  | code error texts offsets => rw [offsets, Token.moved, show _ = _ from texts]
  | rule modifiers error keys values offsets =>
      rw [offsets, Token.moved, show _ = _ from keys, show _ = _ from values]
  | opening headings offsets => rw [offsets, Token.moved, eq_of_headingAlike headings]
  | closing offsets => rw [offsets, Token.moved]

theorem eq_map_moved {first second : List Token}
    (alike : List.Forall₂ ((exact names).TokenAlike fun first second => first = distance + second)
      first second) : first = second.map (Token.moved distance) := by
  induction alike with
  | nil => rfl
  | cons head _ induction => rw [List.map_cons, eq_moved_of_tokenAlike head, induction]

end TextLikeness

namespace Scan

/-- A source that another one ends with is read at later offsets. -/
def Levels.shifted (options : TokenizeOptions) (front rest : Text) :
    Levels (.ending options front [] rest) (.exact options.ruleModifiers)
      fun first second => first = front.length + second :=
  .window _ _ _ fun offset => by simp [Pair.ending]

/-- Nothing is left of what has been read before an offset. -/
structure Clear (options : TokenizeOptions) (state : State) (offset : Nat) : Prop where
  cursor : state.cursor = offset
  calls : state.calls = {}
  interpolations : state.interpolations = {}
  settled : state.pendingError = false
  noWords : state.words = []
  body : options.splitRules = false → state.bodyStart = offset
  statement : state.statementStart = offset

/-- From a clear state on, a scan emits what the rest of the source is read into. -/
theorem Clear.tokens {options : TokenizeOptions} {front : Text} {state : State}
    (clear : Clear options state front.length) (rest : Text) :
    ((course ⟨options, front ++ rest⟩ state
        ((Marker.listed options.lessSyntax rest).map (Marker.moved front.length))).andThen
      (endSource ⟨options, front ++ rest⟩)).tokens =
        (options.tokenize rest).tokens.map (Token.moved front.length) := by
  have shallow : ¬0 < state.interpolations.depth := by
    rw [clear.interpolations]
    exact Int.lt_irrefl 0
  have abreast : Abreast (.wordwise (.shifted options front rest) False rfl) 0 state {} :=
    .fresh (Nat.zero_le _)
      ⟨clear.calls, clear.interpolations, fun nested => absurd nested shallow, clear.settled,
        False.elim, fun whole => ⟨0, Nat.zero_le _, clear.body whole, rfl⟩,
        fun _ => ⟨0, Nat.zero_le _, clear.statement, rfl⟩⟩
      clear.cursor rfl clear.noWords rfl
  have whole := (rejoin abreast).tokens
  rw [List.length_nil, Marker.map_moved_zero] at whole
  rw [tokenize_eq_whole]
  exact TextLikeness.eq_map_moved whole

/-- A step behind which nothing is left is followed by the tokens of what is left. -/
theorem tokens_behind_step {options : TokenizeOptions} {source : Text} {before after : List Step}
    {step : Step} {marker : Marker} {character : Char}
    (split : steps ⟨options, source⟩ = before ++ step :: after)
    (isMarker : step.marker = some marker) (here : source[step.offset]? = some character)
    (last : Marker.ends options.lessSyntax character = true)
    (clear : Clear options step.outcome.state (step.offset + 1)) :
    after.flatMap (·.outcome.tokens) =
      (options.tokenize (source.drop (step.offset + 1))).tokens.map
        (Token.moved (step.offset + 1)) := by
  obtain ⟨front, back, entries, -, -, -, -, rfl⟩ := exists_of_step_marker split isMarker
  have inside := (List.getElem?_eq_some_iff.mp here).1
  have length : (source.take (step.offset + 1)).length = step.offset + 1 := by
    rw [List.length_take]
    omega
  have whole := List.take_append_drop (step.offset + 1) source
  have seam : Marker.Seam options.lessSyntax (source.take (step.offset + 1))
      (source.drop (step.offset + 1)) := by
    rw [List.take_add_one, here]
    exact Marker.seam_of_ends last
  have ascending := pairwise_markers ⟨options, source⟩
  have behind : back = (Marker.listed options.lessSyntax (source.drop (step.offset + 1))).map
      (Marker.moved (step.offset + 1)) := by
    have both : (front ++ [(marker, step.offset)]) ++ back =
        Marker.listed options.lessSyntax (source.take (step.offset + 1)) ++
          (Marker.listed options.lessSyntax (source.drop (step.offset + 1))).map
            (Marker.moved (step.offset + 1)) := by
      have joined := Marker.listed_append seam
      rw [whole, length] at joined
      rw [← joined, ← markers_eq, entries, List.append_assoc, List.singleton_append]
    rw [entries, List.pairwise_append, List.pairwise_cons] at ascending
    refine (@eq_of_append_eq_append _ _ _ _ (step.offset + 1) both ?_ ?_ ?_ ?_).2
    · intro entry member
      rcases List.mem_append.mp member with inFront | isLast
      · have := ascending.2.2 entry inFront _ List.mem_cons_self
        dsimp only at this
        omega
      · obtain rfl := List.mem_singleton.mp isLast
        exact Nat.lt_succ_self _
    · exact fun entry member => ascending.2.1.1 entry member
    · intro entry member
      rw [← length]
      exact (Marker.occursHere_of_mem_occurrences (show (entry.1, entry.2) ∈ _ from member)).2.1
    · intro entry member
      obtain ⟨inner, -, rfl⟩ := List.mem_map.mp member
      exact Nat.le_add_right ..
  have later := @Clear.tokens options (source.take (step.offset + 1)) _ (length.symm ▸ clear)
    (source.drop (step.offset + 1))
  rw [whole, length] at later
  rw [(output_stepsFrom _ _ _).1, behind, later]
  rfl

/-! ## Boundaries -/

/-- No more constructs are closed than are open, and none is nested in plain
stylesheets. -/
structure Shallow (lessSyntax : Bool) (state : State) : Prop where
  nonneg : 0 ≤ state.interpolations.depth
  noCall : lessSyntax = false → state.calls.depth = 0
  noInterpolation : lessSyntax = false → state.interpolations.depth = 0

theorem Shallow.react {scan : Scan} {state : State} {marker : Marker} {offset : Nat}
    (shallow : Shallow scan.options.lessSyntax state)
    (begins : scan.markerAt? offset = some marker) :
    Shallow scan.options.lessSyntax (scan.react marker state offset).state := by
  obtain ⟨nonneg, noCall, noInterpolation⟩ := shallow
  have extended (isExtended : marker ∈ Marker.extended) {property : Prop} :
      scan.options.lessSyntax = false → property := fun plainly => by
    rw [lessSyntax_of_begins begins isExtended] at plainly
    cases plainly
  cases turns_react state begins with
  | stays calls interpolations =>
      exact ⟨interpolations ▸ nonneg, calls ▸ noCall, interpolations ▸ noInterpolation⟩
  | entersCall isParen _ interpolations =>
      have isExtended : marker ∈ Marker.extended := isParen ▸ by decide
      exact ⟨interpolations ▸ nonneg, extended isExtended, interpolations ▸ noInterpolation⟩
  | leavesCall isParen _ interpolations =>
      have isExtended : marker ∈ Marker.extended := isParen ▸ by decide
      exact ⟨interpolations ▸ nonneg, extended isExtended, interpolations ▸ noInterpolation⟩
  | entersInterpolation opens calls interpolations =>
      have isExtended : marker ∈ Marker.extended := by rcases opens with rfl | rfl <;> decide
      exact ⟨interpolations ▸ Int.le_add_one nonneg, calls ▸ noCall, extended isExtended⟩
  | leavesInterpolation nested calls interpolations =>
      refine ⟨interpolations ▸ Int.le_max_right .., calls ▸ noCall, fun plainly => ?_⟩
      have nothing := noInterpolation plainly
      omega
  | losesMarks calls interpolations =>
      exact ⟨interpolations ▸ nonneg, calls ▸ noCall, interpolations ▸ noInterpolation⟩
  | startsOver calls interpolations =>
      exact ⟨interpolations ▸ nonneg, fun _ => calls ▸ rfl, interpolations ▸ noInterpolation⟩

theorem Shallow.course {scan : Scan} {state : State} {entries : List (Marker × Nat)}
    (shallow : Shallow scan.options.lessSyntax state)
    (begin_ : ∀ entry ∈ entries, scan.markerAt? entry.2 = some entry.1) :
    Shallow scan.options.lessSyntax (scan.course state entries).state := by
  induction entries generalizing state with
  | nil => exact shallow
  | cons entry entries induction =>
      have later := fun entry member => begin_ entry (List.mem_cons_of_mem _ member)
      rw [Scan.course]
      split
      · exact induction shallow later
      · exact induction (shallow.react (begin_ _ List.mem_cons_self)) later

/-! ## Closing tokens -/

/-- A closing token comes from a brace that closes a block, and it is the last token of
the reaction to it. -/
theorem closing_of_mem_react {scan : Scan} {state : State} {marker : Marker} {offset : Nat}
    (begins : scan.markerAt? offset = some marker) {token : Token}
    (member : token ∈ (scan.react marker state offset).tokens) (isClosing : token.isClosing = true) :
    marker = .closeBrace ∧ ¬0 < state.interpolations.depth := by
  have apart {tokens : List Token} (noBoundary : tokens.filter Token.isBoundary = [])
      (member : token ∈ tokens) : False := by
    rw [Token.isClosing_of_no_boundary noBoundary token member] at isClosing
    cases isClosing
  rcases react_cases state begins with goesOn | rfl | ⟨rfl, outside⟩ | ⟨rfl, outside⟩
  · rw [goesOn.tokens] at member
    cases member
  · rw [Scan.react, tokens_openBlock] at member
    rcases List.mem_append.mp member with ahead | opened
    · exact (apart (scan.filter_emitAhead state) ahead).elim
    · obtain rfl := List.mem_singleton.mp opened
      cases isClosing
  · exact (apart (scan.filter_endStatement state outside offset) member).elim
  · exact ⟨rfl, outside⟩

theorem exists_of_flatMap_eq {Entry Output : Type} {outputs : Entry → List Output}
    {entries : List Entry} {front back : List Output} {output : Output}
    (split : entries.flatMap outputs = front ++ output :: back) :
    ∃ before entry after inner outer, entries = before ++ entry :: after ∧
      outputs entry = inner ++ output :: outer ∧ back = outer ++ after.flatMap outputs := by
  induction entries generalizing front with
  | nil => simp at split
  | cons entry entries induction =>
      rw [List.flatMap_cons] at split
      rcases List.append_eq_append_iff.mp split with ⟨more, rfl, later⟩ | ⟨more, here, later⟩
      · obtain ⟨before, other, after, inner, outer, rfl, inside, rfl⟩ := induction later
        exact ⟨entry :: before, other, after, inner, outer, rfl, inside, rfl⟩
      · cases more with
        | nil =>
            obtain ⟨before, other, after, inner, outer, rfl, inside, rfl⟩ :=
              @induction [] later.symm
            exact ⟨entry :: before, other, after, inner, outer, rfl, inside, rfl⟩
        | cons first more =>
            obtain ⟨rfl, rfl⟩ := List.cons.inj later
            exact ⟨[], entry, entries, front, more, rfl, here, rfl⟩

theorem getElem?_of_markerAt? {scan : Scan} {marker : Marker} {offset : Nat} {character : Char}
    (begins : scan.markerAt? offset = some marker) (spelled : marker.spelling = [character])
    (noUrl : marker ≠ .url) : scan.source[offset]? = some character := by
  have occurs := (markerAt?_eq_some_iff.mp begins).2
  obtain ⟨rest, split⟩ := Marker.isPrefix_of_occursHere occurs noUrl
  rw [spelled] at split
  have first : (scan.source.drop offset)[0]? = some character := by
    rw [← split]
    rfl
  simpa using first

variable {options : TokenizeOptions} {source : Text}

/-- The state in which a step of a scan reacts to its marker. -/
theorem exists_step_state {before after : List Step} {step : Step} {marker : Marker}
    (split : steps ⟨options, source⟩ = before ++ step :: after)
    (isMarker : step.marker = some marker) :
    ∃ state, step.outcome = react ⟨options, source⟩ marker state step.offset ∧
      markerAt? ⟨options, source⟩ step.offset = some marker ∧
      Shallow options.lessSyntax state := by
  obtain ⟨front, back, entries, reached, -, -, outcome, -⟩ := exists_of_step_marker split isMarker
  have listed : ∀ entry ∈ front ++ (marker, step.offset) :: back,
      markerAt? ⟨options, source⟩ entry.2 = some entry.1 := by
    rw [← entries]
    exact fun entry member => markerAt?_of_mem_markers member
  have shallow : Shallow options.lessSyntax (stateAfter {} before) := by
    rw [← reached]
    exact @Shallow.course ⟨options, source⟩ _ _
      ⟨Int.le_refl 0, fun _ => rfl, fun _ => rfl⟩
      fun entry member => listed entry (List.mem_append_left _ member)
  exact ⟨_, outcome, listed _ (List.mem_append_right _ List.mem_cons_self), shallow⟩

theorem Nest.eq_empty {nest : Nest} (nothing : nest.depth = 0) : nest.forgetMark = {} := by
  rw [Nest.forgetMark, nothing]

theorem tokens_behind_closing {front later : List Token} {offset : Int}
    (split : (options.tokenize source).tokens = front ++ .closing offset :: later) :
    ∃ place : Nat, offset = place ∧ source[place]? = some '\x7d' ∧
      later = (options.tokenize (source.drop (place + 1))).tokens.map
        (Token.moved (place + 1 : Nat)) := by
  obtain ⟨before, step, after, inner, outer, isStep, emitted, rfl⟩ :=
    @exists_of_flatMap_eq Step _ (·.outcome.tokens) _ _ _ _ split
  have member : Token.closing offset ∈ step.outcome.tokens := by simp [emitted]
  cases isMarker : step.marker with
  | none =>
      rcases step_cases isStep with ⟨-, -, outcome⟩ | ⟨marker, some_, -⟩
      · rw [outcome, tokens_endSource] at member
        have none_ := Token.isClosing_of_no_boundary (filter_emitUpTo ..) _ member
        cases none_
      · rw [isMarker] at some_
        cases some_
  | some marker =>
      obtain ⟨state, outcome, begins, shallow⟩ := exists_step_state isStep isMarker
      rw [outcome] at member
      obtain ⟨rfl, outside⟩ := closing_of_mem_react begins member rfl
      have closes : step.outcome = closeBlock ⟨options, source⟩ state step.offset := by
        rw [outcome, Scan.react, closeBrace, if_neg outside]
      have here := getElem?_of_markerAt? begins rfl (by decide)
      have flat : state.interpolations.depth = 0 :=
        Int.le_antisymm (Int.not_lt.mp outside) shallow.nonneg
      have clear : Clear options step.outcome.state (step.offset + 1) := by
        rw [closes, closeBlock_state]
        exact ⟨rfl, rfl, Nest.eq_empty flat, rfl, rfl, fun _ => rfl, rfl⟩
      rw [closes, tokens_closeBlock] at emitted
      have notEmitted := Token.isClosing_of_no_boundary
        (filter_emitUpTo ⟨options, source⟩ state step.offset)
      have last : outer = [] ∧ offset = step.offset := by
        rcases List.append_eq_append_iff.mp emitted with ⟨more, -, tail⟩ | ⟨more, inside, tail⟩
        · cases more with
          | nil =>
              obtain ⟨closing, rfl⟩ := List.cons.inj tail
              exact ⟨rfl, (Token.closing.inj closing).symm⟩
          | cons first more => simp at tail
        · cases more with
          | nil =>
              obtain ⟨closing, rfl⟩ := List.cons.inj tail
              exact ⟨rfl, Token.closing.inj closing⟩
          | cons first more =>
              obtain ⟨rfl, -⟩ := List.cons.inj tail
              have none_ := notEmitted (.closing offset) (by rw [inside]; simp)
              cases none_
      refine ⟨step.offset, last.2, here, ?_⟩
      rw [last.1, List.nil_append]
      exact tokens_behind_step isStep isMarker here (by cases options.lessSyntax <;> decide) clear

theorem tokens_behind_semicolon (noLess : options.lessSyntax = false)
    (splits : options.splitRules = true) {before after : List Step} {step : Step}
    (isStep : steps ⟨options, source⟩ = before ++ step :: after)
    (isMarker : step.marker = some .semicolon) :
    after.flatMap (·.outcome.tokens) =
      (options.tokenize (source.drop (step.offset + 1))).tokens.map
        (Token.moved (step.offset + 1 : Nat)) := by
  obtain ⟨state, outcome, begins, shallow⟩ := exists_step_state isStep isMarker
  have here := getElem?_of_markerAt? begins rfl (by decide)
  have outside : ¬0 < state.calls.depth := by
    rw [shallow.noCall noLess]
    exact Int.lt_irrefl 0
  refine tokens_behind_step isStep isMarker here (by rw [noLess]; decide) ?_
  rw [outcome, Scan.react, endStatement_state _ _ _ outside]
  simp only [splits, if_true]
  exact ⟨rfl, Nest.eq_empty (shallow.noCall noLess), Nest.eq_empty (shallow.noInterpolation noLess),
    rfl, rfl, fun whole => absurd (splits.symm.trans whole) (by decide), rfl⟩

end Scan

/-- Behind a block that is closed, a source is read as if it began there, whatever came
before. In plain stylesheets that are split into rules, so it is behind every semicolon
that is handled. -/
theorem tokenize_resumes (options : TokenizeOptions) (source : Text) :
    (∀ (front later : List Token) (offset : Int),
      (options.tokenize source).tokens = front ++ .closing offset :: later →
        ∃ place : Nat, offset = place ∧ source[place]? = some '\x7d' ∧
          later = (options.tokenize (source.drop (place + 1))).tokens.map
            (Token.moved (place + 1 : Nat))) ∧
    (options.lessSyntax = false → options.splitRules = true →
      ∀ (before after : List Scan.Step) (step : Scan.Step),
        Scan.steps ⟨options, source⟩ = before ++ step :: after →
          step.marker = some .semicolon →
            after.flatMap (·.outcome.tokens) =
              (options.tokenize (source.drop (step.offset + 1))).tokens.map
                (Token.moved (step.offset + 1 : Nat))) :=
  ⟨fun _ _ _ split => Scan.tokens_behind_closing split,
    fun noLess splits _ _ _ isStep isMarker =>
      Scan.tokens_behind_semicolon noLess splits isStep isMarker⟩

/-- Behind a brace too many, and behind a semicolon, nothing is left of what came before. -/
theorem tokenize_resumes_unbalanced :
    let source := "a(b\x7d;c:d".toList
    ((TokenizeOptions.tokenize {} source).tokens =
        [.code "a(b".toList 0 false] ++ .closing 3 ::
          (TokenizeOptions.tokenize {} (source.drop 4)).tokens.map (Token.moved 4)) ∧
      (Scan.steps ⟨{}, source⟩).drop 2 ≠ [] ∧
        ((Scan.steps ⟨{}, source⟩).drop 2).flatMap (·.outcome.tokens) =
          (TokenizeOptions.tokenize {} (source.drop 5)).tokens.map (Token.moved 5) := by
  intro source
  have split : (TokenizeOptions.tokenize {} source).tokens =
      [.code "a(b".toList 0 false] ++ .closing 3 :: [.rule ⟨['c'], ['d'], .empty⟩ 5 false] := by
    decide +kernel
  have steps : Scan.steps ⟨{}, source⟩ = (Scan.steps ⟨{}, source⟩).take 1 ++
      (Scan.steps ⟨{}, source⟩)[1] :: (Scan.steps ⟨{}, source⟩).drop 2 := by
    decide +kernel
  obtain ⟨place, offset, -, later⟩ := (tokenize_resumes {} source).1 _ _ _ split
  obtain rfl : place = 3 := by omega
  refine ⟨?_, by decide +kernel, ?_⟩
  · rw [split, later]
    rfl
  · exact (tokenize_resumes {} source).2 rfl rfl _ _ _ steps (by decide +kernel)

end Stylesheet
