import Mathlib.Data.List.Infix
import Stylesheet.Proofs.Scan.Veiled

/-!
# What stands in a call

A call with balanced parentheses is merged into one word. What stands in it changes neither
the tokens that a source is read into, but for their texts, nor the reports.
-/

namespace Stylesheet

namespace Text

/-- How much deeper in parentheses one is behind a character. -/
def parenStep (character : Char) : Int :=
  if character = '(' then 1 else if character = ')' then -1 else 0

/-- How much deeper in parentheses one is behind a text. -/
def parenNet : Text → Int
  | [] => 0
  | character :: text => parenStep character + parenNet text

@[simp] theorem parenNet_append (first second : Text) :
    parenNet (first ++ second) = parenNet first + parenNet second := by
  induction first with
  | nil => exact (Int.zero_add _).symm
  | cons character first induction =>
      rw [List.cons_append, parenNet, parenNet, induction, Int.add_assoc]

@[simp] theorem parenNet_singleton (character : Char) :
    parenNet [character] = parenStep character :=
  Int.add_zero _

/-- Parentheses that are closed as often as they are opened, and never before. -/
structure Balanced (text : Text) : Prop where
  within : ∀ front, front <+: text → 0 ≤ parenNet front
  settled : parenNet text = 0

/-- What may stand in the parentheses of a call. -/
structure IsArgument (text : Text) : Prop where
  balanced : Balanced text
  tame : Tame text
  plain : ∀ character ∈ text, character ≠ '\x7b' ∧ character ≠ '\x7d' ∧ character ≠ '/'
  noUrl : ∀ behind, behind <:+ text → Marker.occursHere Marker.url.spelling behind = false

theorem isArgument_iff {text : Text} : text.IsArgument ↔
    ((∀ front ∈ text.inits, 0 ≤ parenNet front) ∧ parenNet text = 0) ∧ text.Tame ∧
      (∀ character ∈ text, character ≠ '\x7b' ∧ character ≠ '\x7d' ∧ character ≠ '/') ∧
        ∀ behind ∈ text.tails, Marker.occursHere Marker.url.spelling behind = false := by
  simp only [List.mem_inits, List.mem_tails]
  exact ⟨fun ⟨⟨within, settled⟩, tame, plain, noUrl⟩ => ⟨⟨within, settled⟩, tame, plain, noUrl⟩,
    fun ⟨⟨within, settled⟩, tame, plain, noUrl⟩ => ⟨⟨within, settled⟩, tame, plain, noUrl⟩⟩

instance (text : Text) : Decidable text.IsArgument :=
  decidable_of_iff' _ isArgument_iff

/-- The only markers in an argument are semicolons and parentheses. -/
theorem IsArgument.marker {text behind : Text} (isArgument : IsArgument text)
    (inside : behind <:+ text) {marker : Marker}
    (occurs : Marker.occursHere marker.spelling behind = true) :
    marker = .semicolon ∨ marker = .openParen ∨ marker = .closeParen := by
  have table : ∀ marker ∈ Marker.active true,
      (marker = .semicolon ∨ marker = .openParen ∨ marker = .closeParen) ∨ marker = .url ∨
        marker.spelling.any (['"', '\'', '\\', '\x7b', '\x7d', '/'].contains ·) = true := by
    decide
  rcases table marker (Marker.mem_active_true marker) with isNested | rfl | spelled
  · exact isNested
  · rw [isArgument.noUrl behind inside] at occurs
    cases occurs
  · by_cases isUrl : marker = .url
    · rw [isUrl, isArgument.noUrl behind inside] at occurs
      cases occurs
    · obtain ⟨character, spelled, bad⟩ := List.any_eq_true.mp spelled
      have member := inside.subset
        ((Marker.isPrefix_of_occursHere occurs isUrl).subset spelled)
      obtain ⟨noDouble, noSingle, noBackslash⟩ := isArgument.tame character member
      obtain ⟨noOpen, noClose, noSlash⟩ := isArgument.plain character member
      simp only [List.contains_iff_mem, List.mem_cons, List.not_mem_nil, or_false] at bad
      rcases bad with rfl | rfl | rfl | rfl | rfl | rfl
      exacts [(noDouble rfl).elim, (noSingle rfl).elim, (noBackslash rfl).elim, (noOpen rfl).elim,
        (noClose rfl).elim, (noSlash rfl).elim]

end Text

namespace Marker

/-- The markers of an argument are found character by character. -/
theorem listed_cons_of_isArgument {text front behind : Text} {character : Char}
    (isArgument : text.IsArgument) (split : text = front ++ character :: behind) :
    listed true (character :: behind) =
      listed true [character] ++ (listed true behind).map (moved 1) := by
  have seam : Seam true [character] behind := by
    intro marker _ before tail here notEmpty occurs
    obtain ⟨rfl, rfl⟩ : before = [] ∧ tail = [character] := by
      cases before with
      | nil => exact ⟨rfl, here.symm⟩
      | cons head before =>
          obtain ⟨-, nothing⟩ := List.append_eq_nil_iff.mp (List.cons.inj here).2.symm
          exact absurd nothing notEmpty
    have single : marker.spelling.length = 1 := by
      rcases isArgument.marker ⟨front, split.symm⟩ occurs with rfl | rfl | rfl <;> rfl
    exact ⟨occursHere_of_append occurs (Nat.le_of_eq single), Nat.le_of_eq single⟩
  exact listed_append seam

/-- What is found at a character of an argument. -/
theorem listed_singleton_of_isArgument {text : Text} {character : Char}
    (isArgument : text.IsArgument) (member : character ∈ text) :
    listed true [character] = [] ∧ Text.parenStep character = 0 ∨
      ∃ marker, listed true [character] = [(marker, 0)] ∧ marker.spelling = [character] ∧
        (marker = .semicolon ∨ marker = .openParen ∨ marker = .closeParen) := by
  have shown {marker : Marker} {offset : Nat}
      (listed : (marker, offset) ∈ Marker.listed true [character]) :
      offset = 0 ∧ marker.spelling = [character] ∧
        (marker = .semicolon ∨ marker = .openParen ∨ marker = .closeParen) := by
    obtain ⟨-, inside, occurs⟩ := occursHere_of_mem_occurrences listed
    obtain rfl : offset = 0 := Nat.lt_one_iff.mp inside
    obtain ⟨front, behind, split⟩ := List.append_of_mem member
    have whole := occursHere_append behind occurs
    have isNested := isArgument.marker ⟨front, split.symm⟩ whole
    have noUrl : marker ≠ .url := by rcases isNested with rfl | rfl | rfl <;> decide
    have single : marker.spelling.length = 1 := by
      rcases isNested with rfl | rfl | rfl <;> rfl
    exact ⟨rfl, (isPrefix_of_occursHere occurs noUrl).eq_of_length single, isNested⟩
  by_cases isSemicolon : character = ';'
  · subst isSemicolon
    exact .inr ⟨.semicolon, by decide, rfl, by decide⟩
  by_cases isOpen : character = '('
  · subst isOpen
    exact .inr ⟨.openParen, by decide, rfl, by decide⟩
  by_cases isClose : character = ')'
  · subst isClose
    exact .inr ⟨.closeParen, by decide, rfl, by decide⟩
  refine .inl ⟨List.eq_nil_iff_forall_not_mem.mpr fun entry listed => ?_, ?_⟩
  · obtain ⟨marker, offset⟩ := entry
    obtain ⟨-, spelled, rfl | rfl | rfl⟩ := shown listed
    · exact isSemicolon (List.cons.inj spelled).1.symm
    · exact isOpen (List.cons.inj spelled).1.symm
    · exact isClose (List.cons.inj spelled).1.symm
  · rw [Text.parenStep, if_neg isOpen, if_neg isClose]

end Marker

namespace Scan

/-! ## Inside a call -/

/-- A state inside the parentheses of a call, where `outer` is the state at the opening
one. All that has been read since then are nested words. -/
inductive Argument (source : Text) (outer : State) (mark start place : Nat) (depth : Int) :
    State → Prop
  | intro (nested : List Word) (cursor : Nat) (behind : start ≤ cursor) (reached : cursor ≤ place)
      (begins : (nested.head?.map (·.offset)).getD (cursor : Int) = start)
      (text : Word.joined nested = source.slice start cursor) :
      Argument source outer mark start place depth
        { outer with
          words := outer.words ++ nested
          cursor := cursor
          calls := ⟨depth, some mark⟩ }

namespace Argument

variable (options : TokenizeOptions) {source : Text} {outer state : State} {mark start place : Nat}
  {depth : Int}

theorem mono (argument : Argument source outer mark start place depth state) :
    Argument source outer mark start (place + 1) depth state := by
  obtain ⟨nested, cursor, behind, reached, begins, text⟩ := argument
  exact ⟨nested, cursor, behind, Nat.le_succ_of_le reached, begins, text⟩

theorem cursor_le (argument : Argument source outer mark start place depth state) :
    state.cursor ≤ place := by
  obtain ⟨_, _, _, reached, _, _⟩ := argument
  exact Int.ofNat_le.mpr reached

/-- A call that has just been opened. -/
theorem begin_ (mark : Nat) (here : outer.cursor = start) :
    Argument source outer mark start (start + 1) 1 { outer with calls := ⟨1, some mark⟩ } := by
  have begun : Argument source outer mark start (start + 1) 1 { outer with
      words := outer.words ++ []
      cursor := (start : Int)
      calls := ⟨1, some mark⟩ } :=
    .intro [] start (Nat.le_refl _) (Nat.le_succ _) rfl
      (by rw [Text.slice_natCast, Nat.sub_self, List.take_zero]; rfl)
  rwa [List.append_nil, ← here] at begun

/-- Nothing inside a call ends it, or the statement. -/
theorem react (argument : Argument source outer mark start place depth state) {marker : Marker}
    {character : Char} (spelled : marker.spelling = [character])
    (isNested : marker = .semicolon ∨ marker = .openParen ∨ marker = .closeParen)
    (inside : 1 ≤ depth) (stays : 1 ≤ depth + Text.parenStep character) :
    ∃ later, Scan.react ⟨options, source⟩ marker state place = { state := later } ∧
      Argument source outer mark start (place + 1) (depth + Text.parenStep character) later := by
  rcases isNested with rfl | rfl | rfl <;> cases spelled
  · have nested : 0 < state.calls.depth := by
      obtain ⟨_, _, _, _, _, _⟩ := argument
      exact inside
    have noStep : Text.parenStep ';' = 0 := rfl
    rw [noStep, Int.add_zero]
    exact ⟨state, endStatement_inside _ _ _ nested, argument.mono⟩
  · obtain ⟨nested, cursor, behind, reached, begins, text⟩ := argument
    have notOutermost : ¬depth = 0 := by omega
    refine ⟨{ outer with
      words := outer.words ++ (nested ++ [⟨.text, source.slice cursor place, cursor, false⟩])
      cursor := place
      calls := ⟨depth + 1, some mark⟩ }, ?_,
      .intro _ place (Nat.le_trans behind reached) (Nat.le_succ _) ?_ ?_⟩
    · simp [Scan.react, openCall, takeText, State.addText, State.moveTo, Nest.enter,
        notOutermost]
    · cases nested with
      | nil => exact begins
      | cons word nested => exact begins
    · rw [Word.joined_append, text, Word.joined_cons, Word.joined_nil, List.append_nil,
        Text.slice_append_slice _ behind reached]
  · obtain ⟨nested, cursor, behind, reached, begins, text⟩ := argument
    have notOutermost : ¬depth = 1 := by
      rintro rfl
      exact absurd stays (by decide)
    refine ⟨{ outer with
      words := outer.words ++ nested
      cursor := cursor
      calls := ⟨depth - 1, some mark⟩ }, ?_,
      .intro nested cursor behind (Nat.le_succ_of_le reached) begins text⟩
    have left : max (depth - 1) 0 = depth - 1 := max_eq_left (by omega)
    simp [Scan.react, closeCall, collapseOutermost, Nest.leave, notOutermost, left]

/-- A character of an argument leads on inside the call. -/
theorem next (argument : Argument source outer mark start place depth state) {text : Text}
    {character : Char} (isArgument : text.IsArgument) (member : character ∈ text)
    (inside : 1 ≤ depth) (stays : 1 ≤ depth + Text.parenStep character) :
    ∃ later, Scan.course ⟨options, source⟩ state
        ((Marker.listed true [character]).map (Marker.moved place)) = { state := later } ∧
      Argument source outer mark start (place + 1) (depth + Text.parenStep character) later := by
  rcases Marker.listed_singleton_of_isArgument isArgument member with
    ⟨nothing, noStep⟩ | ⟨marker, single, spelled, isNested⟩
  · rw [nothing, noStep, Int.add_zero]
    exact ⟨state, rfl, argument.mono⟩
  · obtain ⟨later, reacts, goesOn⟩ := argument.react options spelled isNested inside stays
    refine ⟨later, ?_, goesOn⟩
    rw [single, List.map_singleton, Marker.moved, Nat.add_zero, Scan.course,
      if_neg (Int.not_lt.mpr argument.cursor_le), reacts]
    rfl

/-- The whole argument of a call leads to the parenthesis that closes the call. -/
theorem course {text front behind : Text} (isArgument : text.IsArgument)
    (split : text = front ++ behind)
    (argument : Argument source outer mark start (start + 1 + front.length)
      (1 + Text.parenNet front) state) :
    ∃ later, Scan.course ⟨options, source⟩ state
        ((Marker.listed true behind).map (Marker.moved (start + 1 + front.length))) =
          { state := later } ∧
      Argument source outer mark start (start + 1 + text.length) 1 later := by
  induction behind generalizing front state with
  | nil =>
      rw [List.append_nil] at split
      rw [← split, isArgument.balanced.settled] at argument
      exact ⟨state, rfl, split ▸ argument⟩
  | cons character behind induction =>
      have member : character ∈ text := by simp [split]
      have further : text = front ++ [character] ++ behind := by simp [split]
      have inside := isArgument.balanced.within front ⟨_, split.symm⟩
      have stays := isArgument.balanced.within (front ++ [character]) ⟨_, further.symm⟩
      rw [Text.parenNet_append, Text.parenNet_singleton] at stays
      obtain ⟨later, here, goesOn⟩ :=
        argument.next options isArgument member (by omega) (by omega)
      have place : start + 1 + front.length + 1 = start + 1 + (front ++ [character]).length := by
        simp only [List.length_append, List.length_singleton]
        omega
      have net : 1 + Text.parenNet front + Text.parenStep character =
          1 + Text.parenNet (front ++ [character]) := by
        rw [Text.parenNet_append, Text.parenNet_singleton, Int.add_assoc]
      rw [place, net] at goesOn
      obtain ⟨last, rest, ends⟩ := induction further goesOn
      refine ⟨last, ?_, ends⟩
      rw [Marker.listed_cons_of_isArgument isArgument split, List.map_append, Scan.course_append,
        here, Outcome.silent_andThen, List.map_map, ← rest]
      refine congrArg _ (List.map_congr_left fun entry _ => ?_)
      simp only [Function.comp_apply, Marker.moved, ← place, Nat.add_assoc]

/-- At the parenthesis that closes the call, all that has been read becomes one word. -/
theorem close (argument : Argument source outer mark start place 1 state)
    (marks : outer.words.length = mark + 1) :
    Scan.react ⟨options, source⟩ .closeParen state place =
      { state := { outer with
          words := outer.words ++ [⟨.call, source.slice start (place + 1 : Nat), start, false⟩]
          cursor := (place + 1 : Nat)
          calls := {} } } := by
  obtain ⟨nested, cursor, behind, reached, begins, text⟩ := argument
  generalize isState : ({ outer with
    words := outer.words ++ nested
    cursor := (cursor : Int)
    calls := ⟨1, some (mark : Int)⟩ } : State) = state
  have kept : state.kept? (some (mark : Int)) = some outer.words.length := by
    have inside : (mark : Int) < state.words.length := by
      simp only [← isState, List.length_append]
      omega
    have index : (mark : Int) + 1 = (outer.words.length : Nat) := by omega
    rw [State.kept?, Option.bind_some, if_pos inside, index, place_natCast]
  have merged : (state.collapse source place .call (some mark)).words =
      outer.words ++ [⟨.call, source.slice start (place + 1 : Nat), start, false⟩] := by
    have last : (place : Int) + 1 = (place + 1 : Nat) := rfl
    have stateWords : state.words = outer.words ++ nested := by rw [← isState]
    have stateCursor : state.cursor = (cursor : Nat) := by rw [← isState]
    rw [State.collapse_words, kept, Option.getD_some, Option.isNone_some, Abreast.addText_words,
      stateWords, stateCursor, last, List.append_assoc, List.take_left, List.drop_left]
    congr 2
    rw [Word.merged, Word.joined_append, text, Word.joined_cons, Word.joined_nil, List.append_nil,
      Text.slice_append_slice _ behind (Nat.le_succ_of_le reached)]
    congr 1
    cases nested with
    | nil => exact begins
    | cons word nested => exact begins
  have calls : state.calls = ⟨1, some mark⟩ := by rw [← isState]
  have collapsed : state.collapse source place .call (some mark) =
      { state with
        words := (state.collapse source place .call (some mark)).words
        cursor := (place + 1 : Nat) } := rfl
  simp only [Scan.react, closeCall, collapseOutermost, calls, if_true]
  rw [collapsed, merged, ← isState]
  rfl

end Argument

/-! ## A call as a word -/

variable {options : TokenizeOptions} {front inner rest : Text}

/-- A call is merged into one word, with all that it encloses. -/
theorem course_call (lessSyntax : options.lessSyntax = true) (isArgument : inner.IsArgument)
    {state : State} (reached : state.cursor ≤ front.length) (outside : state.calls.depth = 0) :
    let source := front ++ '(' :: (inner ++ ')' :: rest)
    let covered := front ++ '(' :: (inner ++ [')'])
    course ⟨options, source⟩ state ((.openParen, front.length) ::
        ((Marker.listed options.lessSyntax (inner ++ [')'])).map
            (Marker.moved (front.length + 1)) ++
          (Marker.listed options.lessSyntax rest).map (Marker.moved covered.length))) =
      course ⟨options, source⟩
        (state.takeCovered source .call front.length covered.length {})
        ((Marker.listed options.lessSyntax rest).map (Marker.moved covered.length)) := by
  intro source covered
  let outer := (state.addText source front.length).moveTo front.length
  have marks : outer.words.length = state.words.length + 1 := List.length_append
  have opened : react ⟨options, source⟩ .openParen state front.length =
      { state := { outer with calls := ⟨1, some state.words.length⟩ } } := by
    simp only [react, openCall, takeText, Nest.enter, outside, if_true, outer]
    rfl
  have begun : Argument source outer state.words.length front.length
      (front.length + 1) 1 { outer with calls := ⟨1, some state.words.length⟩ } := .begin_ _ rfl
  obtain ⟨later, inside, closing⟩ :=
    @Argument.course options source outer _ _ _ inner [] inner isArgument rfl begun
  have seam : Marker.Seam true inner [')'] := Marker.seam_of_opens fun first isFirst => by
    cases isFirst
    decide
  have last : Marker.listed true [')'] = [(.closeParen, 0)] := by decide
  have stop : front.length + 1 + inner.length + 1 = covered.length := by
    simp only [covered, List.length_append, List.length_cons, List.length_nil]
    omega
  rw [course, if_neg (Int.not_lt.mpr reached), opened, Outcome.silent_andThen, lessSyntax,
    Marker.listed_append seam, last, List.map_append, List.append_assoc, course_append]
  rw [List.length_nil, Nat.add_zero] at inside
  rw [inside, Outcome.silent_andThen]
  simp only [List.map_cons, List.map_nil, Marker.moved, Nat.add_zero, List.singleton_append]
  rw [course, if_neg (Int.not_lt.mpr closing.cursor_le), closing.close options marks,
    Outcome.silent_andThen, stop]
  rfl

/-! ## In front of a call -/

/-- The parenthesis at an offset is handled, and no other one is open there. -/
def OpensCall (scan : Scan) (offset : Nat) : Prop :=
  ∃ before step after, scan.steps = before ++ step :: after ∧ step.marker = some .openParen ∧
    step.offset = offset ∧ (stateAfter {} before).calls.depth = 0

instance (scan : Scan) (offset : Nat) : Decidable (scan.OpensCall offset) :=
  decidable_of_iff' _ exists_append_cons_iff

theorem OpensCall.mem_markers {scan : Scan} {offset : Nat} (opens : OpensCall scan offset) :
    (.openParen, offset) ∈ scan.markers := by
  obtain ⟨before, step, after, split, isParen, rfl, -⟩ := opens
  obtain ⟨ahead, behind, entries, -⟩ := exists_of_step_marker split isParen
  rw [entries]
  simp

/-- The parenthesis is reached by the markers in front of it. -/
theorem OpensCall.reached {source : Text} {offset : Nat}
    (opens : OpensCall ⟨options, source⟩ offset) {before after : List (Marker × Nat)}
    (listed : Marker.listed options.lessSyntax source = before ++ (.openParen, offset) :: after) :
    (course ⟨options, source⟩ {} before).state.cursor ≤ offset ∧
      (course ⟨options, source⟩ {} before).state.calls.depth = 0 := by
  obtain ⟨earlier, step, later, split, isParen, rfl, outside⟩ := opens
  obtain ⟨reached, cursor⟩ := reached_of_step split isParen listed
  rw [reached]
  exact ⟨cursor, outside⟩

theorem exists_listed_paren {lessSyntax : Bool} (opens : Marker.ends lessSyntax '(' = true)
    (closes : Marker.ends lessSyntax ')' = true)
    (handled : (.openParen, front.length) ∈
      Marker.listed lessSyntax (front ++ '(' :: (inner ++ ')' :: rest))) :
    ∃ before, Marker.listed lessSyntax (front ++ ['(']) =
        before ++ [(.openParen, front.length)] ∧
      ∀ entry ∈ before, entry.2 < front.length := by
  have ascending := Marker.pairwise_occurrences_active lessSyntax (front ++ ['('])
  rw [listed_covered opens closes] at handled
  rcases List.mem_append.mp handled with isFront | behind
  · obtain ⟨before, after, split⟩ := List.append_of_mem isFront
    rw [show Marker.occurrences _ _ _ = _ from split, List.pairwise_append,
      List.pairwise_cons] at ascending
    obtain rfl : after = [] := by
      refine List.eq_nil_iff_forall_not_mem.mpr fun entry member => ?_
      have further := ascending.2.1.1 entry member
      have fits := fits_of_mem_listed (split ▸ by simp [member] :
        entry ∈ Marker.listed lessSyntax (front ++ ['(']))
      have positive := Marker.length_spelling_pos entry.1
      rw [List.length_append, List.length_singleton] at fits
      dsimp only at further
      omega
    exact ⟨before, split, fun entry member => ascending.2.2 entry member _ List.mem_cons_self⟩
  · exfalso
    rcases List.mem_append.mp behind with behind | behind <;>
    · obtain ⟨entry, -, equal⟩ := List.mem_map.mp behind
      have place := congrArg Prod.snd equal
      simp only [Marker.moved, List.length_append, List.length_cons] at place
      omega

variable {first second : Text}

/-- A url right in front of an argument is at fault, whatever the argument, if the
parenthesis is still handled. -/
theorem glimpse_url_argument {before : Text} (isArgument : inner.IsArgument)
    (letters : before.length = 3)
    (inside : (glimpse options .url (before ++ '(' :: (inner ++ ')' :: rest))).count ≤ 3) :
    glimpse options .url (before ++ '(' :: (inner ++ ')' :: rest)) =
      ⟨3, some Fault.invalidUrl.kind⟩ := by
  have dropped : (before ++ '(' :: (inner ++ ')' :: rest)).drop 4 = inner ++ ')' :: rest := by
    rw [List.drop_append, letters, List.drop_of_length_le (by omega)]
    rfl
  simp only [glimpse] at inside ⊢
  cases reached : Url.reach? (before ++ '(' :: (inner ++ ')' :: rest)) with
  | some count =>
      have long := (Url.endsAt_of_reach? reached).1
      rw [reached] at inside
      exact absurd long (by simpa using Nat.le_succ_of_le inside)
  | none =>
      rw [Url.reach?, dropped, Option.map_eq_none_iff] at reached
      rw [dropped, Url.contentFault_of_tame isArgument.tame reached]

/-- A marker that begins in front of a parenthesis and takes it along is that of a url. -/
theorem eq_url_of_occursHere_paren {marker : Marker} {text : Text} (some_ : 0 < text.length)
    (occurs : Marker.occursHere marker.spelling (text ++ ['(']) = true)
    (exceeds : text.length < marker.spelling.length) : marker = .url ∧ text.length = 3 := by
  have total := Marker.length_le_of_occursHere occurs
  rw [List.length_append, List.length_singleton] at total
  have whole : marker.spelling = text.map Marker.foldCase ++ ['('] := by
    have same := (Marker.occursHere_iff.mp occurs).eq_of_length (by
      rw [List.length_map, List.length_append, List.length_singleton]
      omega)
    rw [same, List.map_append]
    rfl
  have table : ∀ marker ∈ Marker.active true, marker.spelling.getLast? = some '(' →
      1 < marker.spelling.length → marker = .url := by decide
  obtain rfl := table marker (Marker.mem_active_true marker)
    (by rw [whole, List.getLast?_concat]) (by omega)
  have four : Marker.url.spelling.length = 4 := rfl
  exact ⟨rfl, by omega⟩

/-- Where the reaction to the letters of a url lands in front of an argument, they are at
fault. -/
theorem glimpse_url_of_landed (isArgument : inner.IsArgument) {offset : Nat}
    (letters : (front.drop offset).length = 3) {state : State}
    (landed : (react ⟨options, front ++ '(' :: (inner ++ ')' :: rest)⟩ .url state
      offset).state.cursor ≤ front.length) :
    glimpse options .url ((front ++ '(' :: (inner ++ ')' :: rest)).drop offset) =
      ⟨3, some Fault.invalidUrl.kind⟩ := by
  have place : offset + 3 = front.length := by
    rw [List.length_drop] at letters
    omega
  simp only [Scan.react] at landed
  rw [(readUrl_eq ⟨options, _⟩ state offset).1] at landed
  have count : offset + (glimpse options .url
      ((front ++ '(' :: (inner ++ ')' :: rest)).drop offset)).count ≤ front.length :=
    Int.ofNat_le.mp landed
  rw [List.drop_append_of_le_length (by omega)] at count ⊢
  exact glimpse_url_argument isArgument letters (by omega)

/-- What is found in front of a call is the same for all arguments. -/
theorem sees_call (firstArgument : first.IsArgument) (secondArgument : second.IsArgument)
    {marker : Marker} {offset : Nat} (before : offset < front.length)
    (begins : Marker.front? options.lessSyntax ((front ++ ['(']).drop offset) = some marker)
    {firstState secondState : State}
    (firstLanded : (react ⟨options, front ++ '(' :: (first ++ ')' :: rest)⟩ marker firstState
      offset).state.cursor ≤ front.length)
    (secondLanded : (react ⟨options, front ++ '(' :: (second ++ ')' :: rest)⟩ marker secondState
      offset).state.cursor ≤ front.length) :
    (Pair.beginning options front ('(' :: (first ++ ')' :: rest))
      ('(' :: (second ++ ')' :: rest))).Sees marker offset := by
  have length : (front.drop offset).length = front.length - offset := List.length_drop ..
  have dropped : (front ++ ['(']).drop offset = front.drop offset ++ ['('] :=
    List.drop_append_of_le_length (Nat.le_of_lt before)
  obtain ⟨isActive, occurs⟩ := Marker.front?_eq_some_iff.mp begins
  rw [dropped] at occurs
  by_cases fits : marker.spelling.length ≤ (front.drop offset).length
  · have begins : Marker.front? options.lessSyntax (front.drop offset) = some marker :=
      Marker.front?_eq_some_iff.mpr ⟨isActive, Marker.occursHere_of_append occurs fits⟩
    exact Pair.sees_veiled (by decide) firstArgument.tame secondArgument.tame (.inr (by simp))
      begins (Pair.count_le_of_landed begins (by omega) firstLanded)
  -- The parenthesis belongs to a url whose letters stand in front of it.
  · obtain ⟨rfl, letters⟩ := eq_url_of_occursHere_paren (by omega) occurs (Nat.not_le.mp fits)
    have firstFound := glimpse_url_of_landed firstArgument letters firstLanded
    have secondFound := glimpse_url_of_landed secondArgument letters secondLanded
    have begin_ (inner : Text) : markerAt? ⟨options, front ++ '(' :: (inner ++ ')' :: rest)⟩
        offset = some .url := by
      have joined : front ++ '(' :: (inner ++ ')' :: rest) =
          front ++ ['('] ++ (inner ++ ')' :: rest) := by simp
      rw [joined]
      exact (Pair.markerAt?_of_front? _ begins).1
    constructor <;> simp only [Pair.beginning, Nat.zero_add]
    · exact begin_ first
    · exact begin_ second
    · rw [firstFound, secondFound]
    · rw [firstFound, secondFound]
    · rw [firstFound, secondFound]
    · rw [firstFound]
      dsimp only
      omega

end Scan

/-- What stands in a call does not matter: neither for the tokens, but for their texts, nor
for the reports, if the call is opened whatever stands in it. -/
theorem shapes_tokenize_call (options : TokenizeOptions)
    (known : options.ruleModifiers = defaultModifiers) (front first second rest : Text)
    (firstArgument : first.IsArgument) (secondArgument : second.IsArgument)
    (firstOpens : Scan.OpensCall ⟨options, front ++ '(' :: (first ++ ')' :: rest)⟩ front.length)
    (secondOpens : Scan.OpensCall ⟨options, front ++ '(' :: (second ++ ')' :: rest)⟩
      front.length) :
    let firstOutput := options.tokenize (front ++ '(' :: (first ++ ')' :: rest))
    let secondOutput := options.tokenize (front ++ '(' :: (second ++ ')' :: rest))
    firstOutput.tokens.map Token.shape = secondOutput.tokens.map Token.shape ∧
      firstOutput.diagnostics.map (·.kind) = secondOutput.diagnostics.map (·.kind) := by
  have member := firstOpens.mem_markers
  have lessSyntax : options.lessSyntax = true :=
    Scan.lessSyntax_of_begins (Scan.markerAt?_of_mem_markers member) (by decide)
  have ends : Marker.ends options.lessSyntax '(' = true ∧
      Marker.ends options.lessSyntax ')' = true := by
    rw [lessSyntax]
    decide
  have listed (inner : Text) := Scan.listed_covered ends.1 ends.2 front inner rest
  obtain ⟨before, isFront, earlier⟩ := Scan.exists_listed_paren ends.1 ends.2 member
  simp only [isFront, List.append_assoc, List.singleton_append] at listed
  have begin_ (inner : Text) : ∀ entry ∈ before,
      Scan.markerAt? ⟨options, front ++ '(' :: (inner ++ ')' :: rest)⟩ entry.2 = some entry.1 :=
    fun entry isEntry => Scan.markerAt?_of_mem_markers (by
      rw [Scan.markers_eq, listed inner]
      exact List.mem_append_left _ isEntry)
  obtain ⟨firstCursor, firstOutside⟩ := firstOpens.reached (listed first)
  obtain ⟨secondCursor, secondOutside⟩ := secondOpens.reached (listed second)
  have departed := Scan.depart
    (.wordwise (.window _ .veiled (fun _ _ => True) fun _ => trivial) True known) (begin_ first)
    (fun front_ marker offset behind split _ reached landed => by
      have isEntry : (marker, offset) ∈ before := by
        rw [split]
        simp
      have isListed : (marker, offset) ∈ Marker.listed options.lessSyntax (front ++ ['(']) := by
        rw [isFront]
        exact List.mem_append_left _ isEntry
      exact Scan.sees_call firstArgument secondArgument (earlier _ isEntry)
        (Scan.Pair.mem_listed isListed) landed (Scan.cursor_react_le
          (fun entry member => begin_ second entry (by rw [split]; simp [member])) reached
            (split ▸ secondCursor)))
    firstCursor
  refine Scan.shapes_of_takeCovered known (by decide) (by decide) (listed first) (listed second)
    departed (by decide : WordKind.call ≠ .text) {} fun inner member => ?_
  rcases List.mem_cons.mp member with rfl | member
  · exact Scan.course_call lessSyntax firstArgument firstCursor firstOutside
  · obtain rfl := List.mem_singleton.mp member
    exact Scan.course_call lessSyntax secondArgument secondCursor secondOutside

/-- Neither a semicolon nor a comma in a call ends anything outside of it, not even in the
heading of a block. -/
theorem shapes_tokenize_call_nested :
    let options : TokenizeOptions := { lessSyntax := true, splitRules := true }
    let source (inner : Text) := ".a when (url('b'))\x7bc:@\x7bd\x7d".toList ++
      '(' :: (inner ++ ')' :: ";e:f !important\x7d".toList)
    let shapes (inner : Text) := (options.tokenize (source inner)).tokens.map Token.shape
    shapes "g;h:(i,j):".toList = shapes [] ∧
      (shapes []).map (·.modifiers) =
        [none, some .empty, some (NameSet.insert .empty "important".toList), none] := by
  intro options source shapes
  have same := shapes_tokenize_call options rfl ".a when (url('b'))\x7bc:@\x7bd\x7d".toList
    "g;h:(i,j):".toList [] ";e:f !important\x7d".toList (by decide) (by decide)
    (by decide +kernel) (by decide +kernel)
  exact ⟨same.1, by decide +kernel⟩

/-- A parenthesis that opens a call with one argument may belong to a url with another. -/
theorem not_forall_shapes_tokenize_call :
    ¬∀ (options : TokenizeOptions) (front first second rest : Text),
      options.lessSyntax = true → options.ruleModifiers = defaultModifiers →
      first.IsArgument → second.IsArgument → (∀ character ∈ first ++ second,
        character ≠ '\r' ∧ character ≠ '\n') →
      Scan.OpensCall ⟨options, front ++ '(' :: (first ++ ')' :: rest)⟩ front.length →
        let firstOutput := options.tokenize (front ++ '(' :: (first ++ ')' :: rest))
        let secondOutput := options.tokenize (front ++ '(' :: (second ++ ')' :: rest))
        firstOutput.tokens.map Token.shape = secondOutput.tokens.map Token.shape ∧
          firstOutput.diagnostics.map (·.kind) = secondOutput.diagnostics.map (·.kind) := by
  intro claimed
  have same := (claimed { lessSyntax := true, ignoreErrors := false } "url".toList "a b".toList
    "ab".toList [] rfl rfl (by decide) (by decide) (by decide) (by decide +kernel)).1
  exact absurd same (by decide +kernel)

end Stylesheet
