import Stylesheet.Proofs.Scan.Veiled

/-!
# What stands in a string

A string is taken as one word. What stands in it changes neither the tokens that a source
is read into, but for their texts, nor the reports.
-/

namespace Stylesheet
namespace Scan

variable {options : TokenizeOptions} {front inner rest : Text} {quote : Quote}

theorem ends_quote (lessSyntax : Bool) (quote : Quote) :
    Marker.ends lessSyntax quote.character = true := by
  cases lessSyntax <;> cases quote <;> decide

theorem opens_quote (lessSyntax : Bool) (quote : Quote) :
    Marker.opens lessSyntax quote.character = true := by
  cases lessSyntax <;> cases quote <;> decide

theorem listed_quote (lessSyntax : Bool) (quote : Quote) :
    Marker.listed lessSyntax [quote.character] = [(.quote quote, 0)] := by
  cases lessSyntax <;> cases quote <;> decide

theorem listed_front_quote (lessSyntax : Bool) (front : Text) (quote : Quote) :
    Marker.listed lessSyntax (front ++ [quote.character]) =
      Marker.listed lessSyntax front ++ [(.quote quote, front.length)] := by
  have seam : Marker.Seam lessSyntax front [quote.character] :=
    Marker.seam_of_opens fun first isFirst => by
      cases isFirst
      exact opens_quote lessSyntax quote
  rw [Marker.listed_append seam, listed_quote]
  rfl

theorem reach?_string (tame : inner.Tame) (quote : Quote) (rest : Text) :
    Quoted.reach? quote.character (inner ++ quote.character :: rest) = some (inner.length + 1) := by
  rw [Quoted.reach?_tame_append tame, Quoted.reach?_cons_of_ne (Url.character_ne_backslash quote),
    if_pos rfl, Option.map_some]

/-- A string is consumed at once, with all the markers in it. -/
theorem course_string (tame : inner.Tame) {state : State} (reached : state.cursor ≤ front.length) :
    let source := front ++ quote.character :: (inner ++ quote.character :: rest)
    let covered := front ++ quote.character :: (inner ++ [quote.character])
    course ⟨options, source⟩ state ((.quote quote, front.length) ::
        ((Marker.listed options.lessSyntax (inner ++ [quote.character])).map
            (Marker.moved (front.length + 1)) ++
          (Marker.listed options.lessSyntax rest).map (Marker.moved covered.length))) =
      course ⟨options, source⟩
        (state.takeCovered source .string front.length covered.length state.calls)
        ((Marker.listed options.lessSyntax rest).map (Marker.moved covered.length)) := by
  intro source covered
  have inside : front.length ≤ source.length := by
    rw [List.length_append]
    exact Nat.le_add_right _ _
  have found : glimpse options (.quote quote) (source.drop front.length) =
      ⟨covered.length - front.length, none⟩ := by
    rw [List.drop_left, glimpse, List.drop_one, List.tail_cons, reach?_string tame]
    simp only [covered, List.length_append, List.length_cons, List.length_nil]
    congr 1
    omega
  have stop : front.length + (covered.length - front.length) = covered.length := by
    simp only [covered, List.length_append]
    omega
  obtain ⟨after, noTokens, noKinds⟩ := readString_eq ⟨options, source⟩ state quote inside
  simp only [found, stop, reported_none] at after noKinds
  have taken : react ⟨options, source⟩ (.quote quote) state front.length =
      { state := state.takeCovered source .string front.length covered.length state.calls } :=
    Outcome.eq_of_quiet (after.trans (State.afterReports_nil _)) noTokens noKinds
  rw [course, if_neg (Int.not_lt.mpr reached), taken, Outcome.silent_andThen, course_append,
    course_of_consumed, Outcome.silent_andThen]
  intro entry member
  obtain ⟨earlier, isInner, rfl⟩ := List.mem_map.mp member
  have fits := fits_of_mem_listed isInner
  have positive := Marker.length_spelling_pos earlier.1
  simp only [List.length_append, List.length_singleton] at fits
  simp only [Marker.moved, State.takeCovered, State.takeWord, covered, List.length_append,
    List.length_cons, List.length_nil]
  omega

end Scan

/-- What stands in a string does not matter: neither for the tokens, but for their texts,
nor for the reports. -/
theorem shapes_tokenize_string (options : TokenizeOptions)
    (known : options.ruleModifiers = defaultModifiers) (front first second rest : Text)
    (quote : Quote) (firstTame : first.Tame) (secondTame : second.Tame) (noParen : ')' ∉ second)
    (handled : ∃ step ∈ Scan.steps
        ⟨options, front ++ quote.character :: (first ++ quote.character :: rest)⟩,
      step.marker = some (.quote quote) ∧ step.offset = front.length) :
    let firstOutput :=
      options.tokenize (front ++ quote.character :: (first ++ quote.character :: rest))
    let secondOutput :=
      options.tokenize (front ++ quote.character :: (second ++ quote.character :: rest))
    firstOutput.tokens.map Token.shape = secondOutput.tokens.map Token.shape ∧
      firstOutput.diagnostics.map (·.kind) = secondOutput.diagnostics.map (·.kind) := by
  obtain ⟨step, member, isMarker, place⟩ := handled
  obtain ⟨before, after, split⟩ := List.append_of_mem member
  have opens : quote.character ∈ Text.covers := by cases quote <;> decide
  have closes : quote.character ∈ Text.uncovers := by cases quote <;> decide
  have listed (inner : Text) := (Scan.listed_covered (Scan.ends_quote options.lessSyntax quote)
    (Scan.ends_quote options.lessSyntax quote) front inner rest)
  simp only [Scan.listed_front_quote _ front, List.append_assoc, List.singleton_append] at listed
  obtain ⟨reached, cursor⟩ := Scan.reached_of_step split isMarker (place ▸ listed first)
  rw [← reached, place] at cursor
  have departed := Scan.depart
    (.wordwise (.window _ .veiled (fun _ _ => True) fun _ => trivial) True known)
    (fun entry member => (Scan.Pair.markerAt?_of_front? _ (Scan.Pair.mem_listed member)).1)
    (fun earlier marker offset later split _ _ landed => by
      have member : (marker, offset) ∈ Marker.listed options.lessSyntax front := by
        rw [split]
        simp
      have begins := Scan.Pair.mem_listed member
      exact Scan.Pair.sees_veiled opens firstTame secondTame (.inl noParen) begins
        (Scan.Pair.count_le_of_landed begins (Scan.fits_of_mem_listed member) landed)) cursor
  obtain ⟨last, abreast⟩ := departed.1
  let state := (Scan.course
    ⟨options, front ++ quote.character :: (first ++ quote.character :: rest)⟩ {}
      (Marker.listed options.lessSyntax front)).state
  have notPassed := (abreast.secondPace front.length).not.mpr (Nat.not_lt.mpr abreast.inside)
  simp only [Scan.Pair.beginning, Nat.zero_add, Int.not_lt] at notPassed
  refine Scan.shapes_of_takeCovered known opens closes (listed first) (listed second) departed
    (by decide : WordKind.string ≠ .text) state.calls fun inner member => ?_
  rcases List.mem_cons.mp member with rfl | member
  · exact Scan.course_string firstTame cursor
  · obtain rfl := List.mem_singleton.mp member
    dsimp only [state]
    rw [abreast.kindred.calls]
    exact Scan.course_string secondTame notPassed

/-- Neither a brace nor a comment comes out of a string, not even if another string is left
open before it. -/
theorem shapes_tokenize_string_open :
    let options : TokenizeOptions := { lessSyntax := true }
    let source (inner : Text) :=
      "a\x7bb:'c;d:".toList ++ '"' :: (inner ++ '"' :: " !important\x7d".toList)
    let shapes (inner : Text) := (options.tokenize (source inner)).tokens.map Token.shape
    shapes "e\x7d\x7b".toList = shapes "/* url(".toList ∧
      (shapes "e\x7d\x7b".toList).map (·.modifiers) =
        [none, some .empty, some (NameSet.insert .empty "important".toList), none] := by
  intro options source shapes
  have same := shapes_tokenize_string options rfl "a\x7bb:'c;d:".toList "e\x7d\x7b".toList
    "/* url(".toList " !important\x7d".toList .double (by decide) (by decide) (by decide)
    (by decide +kernel)
  exact ⟨same.1, by decide +kernel⟩

end Stylesheet
