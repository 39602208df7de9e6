import Stylesheet.Proofs.Literal.Escaped
import Stylesheet.Proofs.Marker.Behind
import Stylesheet.Proofs.Scan.Backslashes
import Stylesheet.Proofs.Scan.Carrying

/-!
# Escaped characters

A backslash that a scan handles takes the character behind it along. The character shows in
no token, but for its texts, and in no report, unless what is made of the words later on
looks at it: at a comma in a heading, at a colon in a statement, or at a flag at its end.
-/

namespace Stylesheet

/-! ## Sources with the same blanks -/

theorem Text.map_isBlank_slice {first second : Text}
    (blanks : first.map isBlank = second.map isBlank) (start stop : Int) :
    (first.slice start stop).map isBlank = (second.slice start stop).map isBlank := by
  have lengths := congrArg List.length blanks
  rw [List.length_map, List.length_map] at lengths
  simp only [slice, List.map_take, List.map_drop, blanks, lengths]

theorem Text.isEmpty_trim_eq {first second : Text}
    (blanks : first.map isBlank = second.map isBlank) :
    (trim first).isEmpty = (trim second).isEmpty := by
  have flags (text : Text) : Blank text ↔ ∀ flag ∈ text.map isBlank, flag = true := by
    simp [Blank]
  rw [Bool.eq_iff_iff, isEmpty_trim_iff, isEmpty_trim_iff, flags, flags, blanks]

namespace Scan

theorem Outcome.seen_eq_iff {first second : Outcome} :
    first.seen = second.seen ↔
      List.Forall₂ (fun first second => first.shape = second.shape) first.tokens second.tokens ∧
        first.kinds = second.kinds := by
  rw [seen, seen, Prod.mk.injEq, ← List.forall₂_eq_eq_eq, List.forall₂_map_left_iff,
    List.forall₂_map_right_iff]

/-- What words are emitted as does not depend on the source. -/
theorem seen_emitWords_congr (options : TokenizeOptions) (firstSource secondSource : Text)
    {first second : State} (words : first.words = second.words)
    (pendingError : first.pendingError = second.pendingError) (terminator : Text) :
    (emitWords ⟨options, firstSource⟩ first terminator).seen =
      (emitWords ⟨options, secondSource⟩ second terminator).seen := by
  rw [seen_emitWords, seen_emitWords, words, pendingError]
  rfl

/-- Scans that have the same words, where their sources are the same but for some characters
that are no blanks. -/
def Likeness.verbatim {pair : Pair} (bases : pair.firstBase = pair.secondBase)
    (blanks : pair.firstSource.map Text.isBlank = pair.secondSource.map Text.isBlank) :
    Likeness pair where
  held := Eq
  level := Eq
  same first second := first.shape = second.shape
  counted := True
  held_nil := rfl
  held_word alike kind text offset error := by rw [alike, bases]
  held_more alike more := by
    obtain ⟨rfl, last⟩ := List.append_inj' alike rfl
    cases List.singleton_inj.mp last
    rfl
  held_length _ _ _ alike := congrArg List.length alike
  held_merged _ _ _ alike _ _ error kept _ := by rw [alike]
  emitted {first second} alike pendingError terminator :=
    Outcome.seen_eq_iff.mp (seen_emitWords_congr pair.options pair.firstSource pair.secondSource
      alike pendingError terminator)
  opening alike _ := by rw [alike]
  closing offset := rfl
  level_of_le _ := by rw [bases]
  level_lt starts stops := by rw [starts, stops]
  stretch _ _ _ _ _ starts stops := by
    rw [starts, stops]
    exact ⟨Text.isEmpty_trim_eq (Text.map_isBlank_slice blanks _ _), fun error => rfl⟩

theorem Likeness.Matches.seen_eq {pair : Pair} {bases : pair.firstBase = pair.secondBase}
    {blanks : pair.firstSource.map Text.isBlank = pair.secondSource.map Text.isBlank}
    {first second : Outcome} (alike : (verbatim bases blanks).Matches first second) :
    first.seen = second.seen :=
  Outcome.seen_eq_iff.mpr ⟨alike.tokens, alike.kinds trivial⟩

/-! ## In front of an escape -/

variable {options : TokenizeOptions} {front rest : Text} {character : Char}

/-- What is left open in front of an escape is left open whatever is escaped. -/
theorem Pair.sees_escaped (settled : Text.endsOpen front = false) {marker : Marker} {offset : Nat}
    (begins : Marker.front? options.lessSyntax (front.drop offset) = some marker)
    (wrong : marker = .url → Url.isForbidden character = true →
      Url.runsOn (front.drop (offset + 4)) = true → Url.goesWrong options.ignoreErrors rest = true)
    (inside : offset + (glimpse options marker
      (front.drop offset ++ '\\' :: character :: rest)).count ≤ front.length) :
    (beginning options front ('\\' :: character :: rest) ('\\' :: 'x' :: rest)).Sees
      marker offset := by
  have occurs := (Marker.front?_eq_some_iff.mp begins).2
  have settledBehind (noEscape : marker ≠ .backslash) :
      Text.endsOpen (front.drop (offset + marker.spelling.length)) = false := by
    obtain ⟨last, noBackslash, ends⟩ := Marker.exists_endsAt occurs noEscape
      (Marker.length_spelling_pos marker) (Nat.le_refl _)
    exact (Text.EndsAt.endsOpen_drop ends.of_drop noBackslash).trans settled
  apply sees_of_open begins inside (List.cons_ne_nil _ _)
  · rintro quote rfl unclosed
    have settledInner : Text.endsOpen (front.drop (offset + 1)) = false := settledBehind nofun
    cases reached : Quoted.reach? quote.character (front.drop (offset + 1)) with
    | some count =>
        rw [Quoted.reach?_append_of_eq_some reached] at unclosed
        cases unclosed
    | none =>
        have passes := @Quoted.reach?_escaped _ rest quote settledInner reached
        rwa [passes] at unclosed ⊢
  · rintro rfl unclosed
    exact Url.contentReach?_escaped (settledBehind nofun) (by decide) (by decide) (wrong rfl)
      unclosed

theorem blanks_escaped (visible : Text.isBlank character = false) (front rest : Text) :
    (front ++ '\\' :: character :: rest).map Text.isBlank =
      (front ++ '\\' :: 'x' :: rest).map Text.isBlank := by
  have other : Text.isBlank 'x' = false := by decide
  simp only [List.map_append, List.map_cons, visible, other]

variable (options front rest) in
/-- Scans that have the same words in front of an escape. -/
def Likeness.ahead (visible : Text.isBlank character = false) :
    Likeness (.beginning options front ('\\' :: character :: rest) ('\\' :: 'x' :: rest)) :=
  .verbatim rfl (blanks_escaped visible front rest)

/-- A handled marker is a step. -/
theorem mem_steps_of_handled {scan : Scan} {before after : List (Marker × Nat)} {marker : Marker}
    {offset : Nat} (split : scan.markers = before ++ (marker, offset) :: after)
    (reached : (scan.course {} before).state.cursor ≤ offset) :
    ∃ step ∈ scan.steps, step.marker = some marker ∧ step.offset = offset := by
  rw [steps, split, stepsFrom_append, stepsFrom, if_neg (Int.not_lt.mpr reached)]
  exact ⟨_, List.mem_append_right _ List.mem_cons_self, rfl, rfl⟩

/-- Whether an escaped character means nothing in an unquoted address that is left open in
front of it. If an address cannot hold the character, it has to go wrong behind it as well. -/
def sparesAddresses (scan : Scan) (place : Nat) (character : Char) : Bool :=
  !Url.isForbidden character || scan.steps.all fun step =>
    step.marker != some .url || place ≤ step.offset ||
      !Url.runsOn ((scan.source.take place).drop (step.offset + 4)) ||
      Url.goesWrong scan.options.ignoreErrors (scan.source.drop (place + 2))

theorem goesWrong_of_sparesAddresses {before after : List (Marker × Nat)} {offset : Nat}
    (closed : sparesAddresses ⟨options, front ++ '\\' :: character :: rest⟩ front.length character =
      true)
    (split : markers ⟨options, front ++ '\\' :: character :: rest⟩ =
      before ++ (.url, offset) :: after)
    (reached :
      (course ⟨options, front ++ '\\' :: character :: rest⟩ {} before).state.cursor ≤ offset)
    (inFront : offset < front.length) (forbidden : Url.isForbidden character = true)
    (runs : Url.runsOn (front.drop (offset + 4)) = true) :
    Url.goesWrong options.ignoreErrors rest = true := by
  obtain ⟨step, member, isUrl, isOffset⟩ := mem_steps_of_handled split reached
  rw [sparesAddresses, forbidden, Bool.not_true, Bool.false_or, List.all_eq_true] at closed
  have wrong := closed step member
  rw [isUrl, isOffset, decide_eq_false (Nat.not_le.mpr inFront), List.take_left, runs] at wrong
  simpa using wrong

/-- Scans come to an escape abreast, whatever is escaped. -/
theorem depart_escape (visible : Text.isBlank character = false) {later : List (Marker × Nat)}
    (listed : Marker.listed options.lessSyntax (front ++ '\\' :: character :: rest) =
      Marker.listed options.lessSyntax front ++ (.backslash, front.length) :: later)
    (closed : sparesAddresses ⟨options, front ++ '\\' :: character :: rest⟩ front.length character =
      true) :
    let firstOutcome := course ⟨options, front ++ '\\' :: character :: rest⟩ {}
      (Marker.listed options.lessSyntax front)
    let secondOutcome := course ⟨options, front ++ '\\' :: 'x' :: rest⟩ {}
      (Marker.listed options.lessSyntax front)
    firstOutcome.state.cursor ≤ front.length →
      (∃ place, Abreast (Likeness.ahead options front rest visible) place firstOutcome.state
        secondOutcome.state) ∧
          (Likeness.ahead options front rest visible).Matches firstOutcome secondOutcome := by
  intro firstOutcome secondOutcome cursor
  have settled : Text.endsOpen front = false := by
    have taken := @endsOpen_of_handled ⟨options, front ++ '\\' :: character :: rest⟩ _ _ _ _ listed
      cursor
    rwa [List.take_left] at taken
  apply depart _ (fun entry member => (Pair.markerAt?_of_front? _ (Pair.mem_listed member)).1) _
    cursor
  intro before marker offset after split firstState secondState reached _ landed
  have member : (marker, offset) ∈ Marker.listed options.lessSyntax front := by
    rw [split]
    simp
  have begins := Pair.mem_listed member
  have fits : offset + marker.spelling.length ≤ front.length := fits_of_mem_listed member
  have positive := Marker.length_spelling_pos marker
  apply Pair.sees_escaped settled begins
  · rintro rfl forbidden runs
    rw [split, List.append_assoc, List.cons_append] at listed
    exact goesWrong_of_sparesAddresses closed listed reached (by omega) forbidden runs
  · exact Pair.count_le_of_landed begins fits landed

/-! ## The markers around an escape -/

theorem listed_backslash (lessSyntax : Bool) (rest : Text) :
    Marker.listed lessSyntax ('\\' :: rest) =
      (.backslash, 0) :: (Marker.listed lessSyntax rest).map (Marker.moved 1) := by
  have ends : Marker.ends lessSyntax '\\' = true := by cases lessSyntax <;> decide
  have alone : Marker.listed lessSyntax ['\\'] = [(.backslash, 0)] := by
    cases lessSyntax <;> decide
  have seam : Marker.Seam lessSyntax ['\\'] rest := @Marker.seam_of_ends _ _ [] _ ends
  have split := Marker.listed_append seam
  rwa [alone] at split

/-- An escaped character may begin one marker, and changes none of those behind it, but for
three slashes. -/
theorem listed_escape {lessSyntax : Bool}
    (noSlashes : lessSyntax = true → ¬"///".toList <+: character :: rest) :
    ∃ escaped : List (Marker × Nat), (∀ entry ∈ escaped, entry.2 = front.length + 1) ∧
      Marker.listed lessSyntax (front ++ '\\' :: character :: rest) =
        Marker.listed lessSyntax front ++ (.backslash, front.length) :: (escaped ++
          (Marker.listed lessSyntax rest).map (Marker.moved (front.length + 2))) := by
  have opens : Marker.opens lessSyntax '\\' = true := by cases lessSyntax <;> decide
  have seam : Marker.Seam lessSyntax front ('\\' :: character :: rest) :=
    Marker.seam_of_opens fun first isFirst => by
      cases isFirst
      exact opens
  refine ⟨(Marker.front? lessSyntax (character :: rest)).toList.map fun marker =>
    (marker, front.length + 1), by simp, ?_⟩
  rw [Marker.listed_append seam, listed_backslash, Marker.listed_cons noSlashes]
  simp [Marker.moved, Function.comp_def]
  intro marker offset _
  omega

/-! ## Behind an escape -/

/-- The state behind an escape, where some text in front of it has not been read before. -/
def State.escaped (state : State) (lead : Text) (stop : Int) (character : Char) : State :=
  { state with
    words := state.words ++ [⟨.text, lead ++ ['\\', character], state.cursor, false⟩]
    cursor := stop }

theorem carry_escaped {state : State} {lead : Text} {place : Nat}
    (level : state.cursor + lead.length = place) (stop : Int) :
    Carry place (state.escaped lead stop) :=
  ⟨{ state with cursor := stop }, ⟨state.words, .text, lead, [], state.cursor, false, []⟩,
    ⟨fun _ => level, fun opaque_ => absurd rfl opaque_⟩, fun _ => rfl⟩

theorem react_escape {state : State} (nonneg : 0 ≤ state.cursor)
    (reached : state.cursor ≤ front.length) :
    let source := front ++ '\\' :: character :: rest
    react ⟨options, source⟩ .backslash state front.length =
      { state := state.escaped (source.slice state.cursor front.length)
          (front.length + 2 : Nat) character } := by
  intro source
  have length : source.length = front.length + 2 + rest.length := by
    simp only [source, List.length_append, List.length_cons]
    omega
  have both : glimpse options .backslash (source.drop front.length) = ⟨2, none⟩ := by
    rw [glimpse, List.length_drop, length]
    congr 1
    omega
  have behind : source.slice front.length (front.length + 2 : Nat) = ['\\', character] := by
    rw [Text.slice_natCast, List.drop_left, Nat.add_sub_cancel_left]
    rfl
  rw [react, readEscape_eq _ _ (by dsimp only; omega)]
  dsimp only
  rw [both, State.takeWord, State.escaped, ← behind,
    Text.slice_append _ nonneg reached (Int.ofNat_le.mpr (Nat.le_add_right _ 2))]

/-- What stands in front of an escape has no say in whether it is spared. -/
theorem sparesFrom_course {scan : Scan} {place : Nat} {entries : List (Marker × Nat)}
    (before : ∀ entry ∈ entries, entry.2 < place) (state : State) (later : List (Marker × Nat)) :
    let reached := (scan.course state entries).state
    scan.sparesFrom place character state (scan.stepsFrom state (entries ++ later)) =
      scan.sparesFrom place character reached (scan.stepsFrom reached later) := by
  induction entries generalizing state with
  | nil => rfl
  | cons entry entries induction =>
      have inFront := before _ List.mem_cons_self
      have induction := induction fun other member => before other (List.mem_cons_of_mem _ member)
      rw [List.cons_append, stepsFrom, course]
      split
      next => exact induction state
      next =>
        have notBehind : ¬(place : Int) ≤ entry.2 := by omega
        rw [sparesFrom, decide_eq_false notBehind, Bool.false_and, if_neg Bool.false_ne_true]
        exact induction _

theorem stepsFrom_of_consumed {scan : Scan} {state : State} {entries : List (Marker × Nat)}
    (consumed : ∀ entry ∈ entries, (entry.2 : Int) < state.cursor) (later : List (Marker × Nat)) :
    scan.stepsFrom state (entries ++ later) = scan.stepsFrom state later := by
  induction entries with
  | nil => rfl
  | cons entry entries induction =>
      rw [List.cons_append, stepsFrom, if_pos (consumed entry List.mem_cons_self)]
      exact induction fun other member => consumed other (List.mem_cons_of_mem _ member)

section Whole

variable (noSlashes : options.lessSyntax = true → ¬"///".toList <+: character :: rest)

include noSlashes

/-- A scan with an escape, in front of it and behind it. -/
theorem whole_escape :
    let scan : Scan := ⟨options, front ++ '\\' :: character :: rest⟩
    let outset := scan.course {} (Marker.listed options.lessSyntax front)
    0 ≤ outset.state.cursor → outset.state.cursor ≤ front.length →
      let escaped := outset.state.escaped (scan.source.slice outset.state.cursor front.length)
        (front.length + 2 : Nat) character
      let later := (Marker.listed options.lessSyntax rest).map (Marker.moved (front.length + 2))
      scan.whole = outset.andThen (fun _ => (scan.course escaped later).andThen scan.endSource) ∧
        scan.spares front.length character =
          scan.sparesFrom front.length character escaped (scan.stepsFrom escaped later) := by
  intro scan outset nonneg reached escaped later
  obtain ⟨entries, besides, listed⟩ := @listed_escape front rest character _ noSlashes
  have consumed : ∀ entry ∈ entries, (entry.2 : Int) < escaped.cursor := by
    intro entry member
    rw [besides entry member]
    exact Int.ofNat_lt.mpr (Nat.lt_succ_self _)
  have inFront : ∀ entry ∈ Marker.listed options.lessSyntax front, entry.2 < front.length := by
    intro entry member
    have fits := fits_of_mem_listed member
    have positive := Marker.length_spelling_pos entry.1
    omega
  have reaction : scan.react .backslash outset.state front.length = { state := escaped } :=
    react_escape nonneg reached
  have notConsumed : ¬(front.length : Int) < outset.state.cursor := Int.not_lt.mpr reached
  constructor
  · rw [Scan.whole, markers_eq, listed, course_append, Outcome.andThen_assoc]
    have behind : scan.course outset.state ((.backslash, front.length) :: (entries ++ later)) =
        scan.course escaped later := by
      rw [course, if_neg notConsumed, reaction, Outcome.silent_andThen, course_append,
        course_of_consumed consumed, Outcome.silent_andThen]
    rw [Outcome.andThen, behind]
    rfl
  · have filled : escaped.words ≠ [] := by simp [escaped, State.escaped]
    rw [spares, steps, markers_eq, listed, sparesFrom_course inFront, stepsFrom,
      if_neg notConsumed, reaction, sparesFrom_of_words filled, stepsFrom_of_consumed consumed]

end Whole

variable (options front rest) in
/-- Scans that have the same words behind an escape. -/
def Likeness.behind (visible : Text.isBlank character = false) :
    Likeness (.ending options (front ++ ['\\', character]) (front ++ ['\\', 'x']) rest) :=
  .verbatim (by simp [Pair.ending])
    (by simpa [Pair.ending] using blanks_escaped visible front rest)

/-- Where two scans come to an escape abreast, they have read the same, and they go on abreast
behind it as if both had escaped the same character. -/
theorem Abreast.escape {visible : Text.isBlank character = false} {place : Nat}
    {first second : State}
    (abreast : Abreast (Likeness.ahead options front rest visible) place first second) :
    let lead := (front ++ '\\' :: character :: rest).slice first.cursor front.length
    let otherLead := (front ++ '\\' :: 'x' :: rest).slice second.cursor front.length
    first.cursor + lead.length = front.length ∧ second.cursor = first.cursor ∧
      Abreast (Likeness.behind options front rest visible) 0
        (first.escaped lead (front.length + 2 : Nat) 'x')
        (second.escaped otherLead (front.length + 2 : Nat) 'x') := by
  intro lead otherLead
  have kindred := abreast.kindred
  have text := abreast.held_addText abreast.inside (Nat.le_refl _)
  simp only [Pair.beginning, Nat.zero_add, addText_words] at text
  obtain ⟨words, last⟩ := List.append_inj' text rfl
  obtain ⟨-, sameLead, cursors, -⟩ := Word.mk.inj (List.singleton_inj.mp last)
  have notPassed := (abreast.firstPace front.length).not.mpr (Nat.not_lt.mpr abreast.inside)
  simp only [Pair.beginning, Nat.zero_add] at notPassed
  obtain ⟨start, isStart⟩ := Int.eq_ofNat_of_zero_le abreast.firstNonneg
  refine ⟨?_, cursors.symm, ?_⟩
  · simp only [lead, isStart, Text.slice_natCast, List.length_take, List.length_drop,
      List.length_append, List.length_cons]
    omega
  · refine renew (Nat.zero_le _)
      ⟨kindred.calls, kindred.interpolations, kindred.nested, kindred.pendingError,
        kindred.depth, kindred.body, kindred.statement⟩ ?_ ?_ ?_
    · simp [State.escaped, Pair.ending]
    · simp [State.escaped, Pair.ending]
    · simp only [State.escaped]
      rw [words, cursors, show lead = otherLead from sameLead]
      rfl

end Scan

/-- An escaped character shows in no token, but for its texts, and in no report. This holds
unless it is a comma in a heading, a colon in a statement, the beginning of a flag at its end or a
character that ends an unquoted address, and unless it is the first of three slashes. -/
theorem shapes_tokenize_escape (options : TokenizeOptions)
    (known : options.ruleModifiers = defaultModifiers) (front rest : Text) (character : Char)
    (visible : Text.isBlank character = false)
    (handled : ∃ step ∈ Scan.steps ⟨options, front ++ '\\' :: character :: rest⟩,
      step.marker = some .backslash ∧ step.offset = front.length)
    (spared : Scan.spares ⟨options, front ++ '\\' :: character :: rest⟩ front.length character =
      true)
    (closed : Scan.sparesAddresses ⟨options, front ++ '\\' :: character :: rest⟩ front.length
      character = true)
    (noSlashes : options.lessSyntax = true → ¬"///".toList <+: character :: rest) :
    let firstOutput := options.tokenize (front ++ '\\' :: character :: rest)
    let secondOutput := options.tokenize (front ++ '\\' :: 'x' :: rest)
    firstOutput.tokens.map Token.shape = secondOutput.tokens.map Token.shape ∧
      firstOutput.diagnostics.map (·.kind) = secondOutput.diagnostics.map (·.kind) := by
  let scan (escaped : Char) : Scan := ⟨options, front ++ '\\' :: escaped :: rest⟩
  obtain ⟨step, member, isMarker, place⟩ := handled
  obtain ⟨before, after, split⟩ := List.append_of_mem member
  obtain ⟨entries, -, listed⟩ := @Scan.listed_escape front rest character _ noSlashes
  obtain ⟨reached, cursor⟩ := Scan.reached_of_step split isMarker (place ▸ listed)
  rw [← reached, place] at cursor
  have otherSlashes : options.lessSyntax = true → ¬"///".toList <+: 'x' :: rest := by
    rintro - ⟨later, same⟩
    cases same
  obtain ⟨⟨last, abreast⟩, before⟩ := Scan.depart_escape visible listed closed cursor
  obtain ⟨level, sameCursor, behind⟩ := abreast.escape
  have nonneg := abreast.firstNonneg
  obtain ⟨firstWhole, sparing⟩ := Scan.whole_escape noSlashes nonneg cursor
  obtain ⟨secondWhole, -⟩ := Scan.whole_escape otherSlashes (sameCursor ▸ nonneg)
    (sameCursor ▸ cursor)
  have later : ∀ entry ∈ (Marker.listed options.lessSyntax rest).map
      (Marker.moved (front.length + 2)), (scan character).markerAt? entry.2 = some entry.1 := by
    intro entry member
    apply Scan.markerAt?_of_mem_markers
    rw [Scan.markers_eq, listed]
    simp [member]
  -- The words with the escaped character are read on, and then those with the other one.
  have inside : front.length ≤ (scan character).source.length := by simp [scan]
  have carried := Scan.seen_course_eq known inside visible later (Scan.carry_escaped level _)
    (Int.ofNat_le.mpr (Nat.le_add_right _ 2)) (sparing ▸ spared)
  have joined (escaped : Char) : front ++ ['\\', escaped] ++ rest =
      front ++ '\\' :: escaped :: rest := by simp
  have length (escaped : Char) : (front ++ ['\\', escaped]).length = front.length + 2 := by simp
  have rejoined := (Scan.rejoin behind).seen_eq
  rw [joined, joined, length, length] at rejoined
  have whole : (Scan.whole (scan character)).seen = (Scan.whole (scan 'x')).seen := by
    rw [firstWhole, secondWhole]
    exact Scan.Outcome.seen_andThen_eq before.seen_eq (carried.trans rejoined)
  rw [Scan.tokenize_eq_whole, Scan.tokenize_eq_whole]
  exact Prod.ext_iff.mp whole

/-- An escaped quote shows nowhere, although a url is left open in front of it: the url goes
wrong behind the quote as well. -/
theorem shapes_tokenize_escape_quote :
    let options : TokenizeOptions := { ignoreErrors := false }
    let source (character : Char) :=
      "a\x7bb:url(c".toList ++ '\\' :: character :: "d e);f:g !important\x7d".toList
    let output (character : Char) := options.tokenize (source character)
    (output '"').tokens.map Token.shape = (output 'x').tokens.map Token.shape ∧
      (output '"').diagnostics.map (·.kind) = [.invalidUrl] := by
  intro options source output
  have same := shapes_tokenize_escape options rfl "a\x7bb:url(c".toList
    "d e);f:g !important\x7d".toList '"' (by decide) (by decide +kernel) (by decide +kernel)
    (by decide +kernel) nofun
  exact ⟨same.1, by decide +kernel⟩

/-- Whether an escape that is handled shows in the tokens, apart from their texts, or in the
reports. -/
def TokenizeOptions.ShowsEscape (options : TokenizeOptions) (front : Text) (character : Char)
    (rest : Text) : Prop :=
  options.ruleModifiers = defaultModifiers ∧ Text.isBlank character = false ∧
    (∃ step ∈ Scan.steps ⟨options, front ++ '\\' :: character :: rest⟩,
      step.marker = some .backslash ∧ step.offset = front.length) ∧
    ¬((options.tokenize (front ++ '\\' :: character :: rest)).tokens.map Token.shape =
        (options.tokenize (front ++ '\\' :: 'x' :: rest)).tokens.map Token.shape ∧
      (options.tokenize (front ++ '\\' :: character :: rest)).diagnostics.map (·.kind) =
        (options.tokenize (front ++ '\\' :: 'x' :: rest)).diagnostics.map (·.kind))
  deriving Decidable

/-- A comma in a heading, a colon in a statement, the flag behind a backslash, and a quote in the
address of a url show although they are escaped. -/
theorem showsEscape_separators :
    TokenizeOptions.ShowsEscape {} "a".toList ',' "b\x7b\x7d".toList ∧
      TokenizeOptions.ShowsEscape {} "a\x7bb".toList ':' "c\x7d".toList ∧
      TokenizeOptions.ShowsEscape {} "a\x7bb:c".toList '!' "important\x7d".toList ∧
      TokenizeOptions.ShowsEscape { ignoreErrors := false } "a\x7bb:url(c".toList '"'
        "d)\x7d".toList := by
  decide +kernel

end Stylesheet
