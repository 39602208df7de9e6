import Stylesheet.Proofs.Scan.Abreast

/-!
# Scans whose sources begin alike

As long as two sources are the same, their scans find the same markers. They stay abreast
as long as each construct that begins there also ends there, or is left open by both.
-/

namespace Stylesheet

theorem Text.find?_of_isPrefix {phrase text other : Text} {index : Nat}
    (found : find? phrase text = some index)
    (same : text.take (index + phrase.length) <+: other) : find? phrase other = some index := by
  induction text generalizing index other with
  | nil =>
      unfold find? at found
      split at found
      next empty =>
        cases found
        rw [List.isEmpty_iff.mp empty]
        cases other <;> rfl
      next => cases found
  | cons character rest induction =>
      have fits := (isPrefix_of_find? found).length_le
      unfold find? at found
      split at found
      next here =>
        cases found
        obtain ⟨later, split⟩ := List.isPrefixOf_iff_prefix.mp here
        rw [← split, Nat.zero_add, List.take_left] at same
        cases other with
        | nil =>
            rw [List.prefix_nil.mp same]
            rfl
        | cons head other =>
            rw [find?, if_pos (List.isPrefixOf_iff_prefix.mpr same)]
      next notHere =>
        obtain ⟨inner, foundLater, rfl⟩ := Option.map_eq_some_iff.mp found
        rw [List.length_drop, List.length_cons] at fits
        rw [Nat.add_right_comm, List.take_succ_cons] at same
        have window : phrase.length ≤ (character :: rest.take (inner + phrase.length)).length := by
          rw [List.length_cons, List.length_take]
          omega
        have notFirst : ¬phrase.isPrefixOf other = true := by
          rw [List.isPrefixOf_iff_prefix]
          intro first
          refine notHere (List.isPrefixOf_iff_prefix.mpr ?_)
          exact (List.prefix_of_prefix_length_le first same window).trans
            (List.cons_prefix_cons.mpr ⟨rfl, List.take_prefix ..⟩)
        obtain ⟨later, rfl⟩ := same
        rw [List.cons_append] at notFirst ⊢
        rw [find?, if_neg notFirst, induction foundLater (List.prefix_append ..), Option.map_some]

namespace Scan

/-! ## What is closed -/

theorem lineReach_of_isPrefix {text other : Text} (closed : lineReach text < text.length)
    (same : text.take (lineReach text) <+: other) : lineReach other = lineReach text := by
  rcases lineReach_cases text with whole | ⟨line, lineBreak, rest, rfl, inner, breaks⟩
  · omega
  · have reached := lineReach_append_break inner breaks
    rw [reached, List.take_append, List.take_of_length_le (Nat.le_succ _),
      Nat.add_sub_cancel_left, List.take_one, List.head?_cons, Option.toList_some] at same
    obtain ⟨more, rfl⟩ := same
    rw [List.append_assoc, List.singleton_append, reached, reached]

/-- Where nothing is at fault, a reaction looks no further than it reaches. -/
theorem glimpse_of_isPrefix {options : TokenizeOptions} {marker : Marker} {text other : Text}
    (closed : (glimpse options marker text).fault = none)
    (same : text.take (glimpse options marker text).count <+: other)
    (escapes : marker = .backslash → 2 ≤ text.length)
    (line : marker = .lineComment → (glimpse options marker text).count < text.length) :
    glimpse options marker other = glimpse options marker text := by
  cases marker with
  | quote quote =>
      simp only [glimpse] at closed same ⊢
      cases reached : Quoted.reach? quote.character (text.drop 1) with
      | none =>
          rw [reached] at closed
          cases closed
      | some count =>
          rw [reached] at same
          have inner := Text.drop_isPrefix_drop same 1
          rw [List.drop_take, Nat.add_sub_cancel_left] at inner
          rw [Quoted.reach?_of_isPrefix reached inner]
  | comment =>
      simp only [glimpse] at closed same ⊢
      cases found : Text.find? ['*', '/'] (text.drop 2) with
      | none => simp [found] at closed
      | some count =>
          rw [found] at same
          dsimp only at same
          have inner := Text.drop_isPrefix_drop same 2
          rw [List.drop_take, Nat.add_assoc, Nat.add_sub_cancel_left] at inner
          rw [Text.find?_of_isPrefix found inner]
  | url =>
      simp only [glimpse] at closed same ⊢
      cases reached : Url.reach? text with
      | none => simp [reached] at closed
      | some count =>
          rw [reached] at same
          rw [Url.reach?_of_isPrefix reached same]
  | backslash =>
      have two := escapes rfl
      simp only [glimpse] at same ⊢
      have long := same.length_le
      rw [List.length_take] at long
      congr 1
      omega
  | lineComment =>
      have inside := line rfl
      simp only [glimpse] at inside same ⊢
      have inner := Text.drop_isPrefix_drop same 2
      rw [List.drop_take, Nat.add_sub_cancel_left] at inner
      rw [lineReach_of_isPrefix (by rw [List.length_drop]; omega) inner]
  | openBrace => rfl
  | closeBrace => rfl
  | semicolon => rfl
  | openParen => rfl
  | closeParen => rfl
  | atInterpolation => rfl
  | hashInterpolation => rfl

/-- A reaction that lands within a bound consumes nothing behind it. -/
theorem add_count_le_of_react {scan : Scan} {state : State} {marker : Marker} {offset bound : Nat}
    (begins : scan.markerAt? offset = some marker)
    (fits : offset + marker.spelling.length ≤ bound)
    (landed : (scan.react marker state offset).state.cursor ≤ bound) :
    offset + (glimpse scan.options marker (scan.source.drop offset)).count ≤ bound := by
  have inside := lt_length_of_markerAt? begins
  cases marker with
  | quote quote =>
      simp only [Scan.react] at landed
      rw [(scan.readString_eq state quote (Nat.le_of_add_right_le inside)).1] at landed
      exact Int.ofNat_le.mp landed
  | comment =>
      simp only [Scan.react] at landed
      rw [(scan.skipComment_eq state (Nat.le_of_add_right_le inside)).1] at landed
      exact Int.ofNat_le.mp landed
  | url =>
      simp only [Scan.react] at landed
      rw [(scan.readUrl_eq state offset).1] at landed
      exact Int.ofNat_le.mp landed
  | backslash =>
      simp only [Scan.react] at landed
      rw [scan.readEscape_eq state (Nat.le_of_add_right_le inside)] at landed
      exact Int.ofNat_le.mp landed
  | lineComment =>
      simp only [Scan.react] at landed
      rw [scan.skipLine_eq state inside] at landed
      exact Int.ofNat_le.mp landed
  | openBrace => exact fits
  | closeBrace => exact fits
  | semicolon => exact fits
  | openParen => exact fits
  | closeParen => exact fits
  | atInterpolation => exact fits
  | hashInterpolation => exact fits

/-! ## Setting out -/

/-- The scans of two sources that begin with the same text. -/
def Pair.beginning (options : TokenizeOptions) (front firstRest secondRest : Text) : Pair where
  options := options
  firstSource := front ++ firstRest
  secondSource := front ++ secondRest
  firstBase := 0
  secondBase := 0
  width := front.length
  sameText := by simp

variable {options : TokenizeOptions} {front firstRest secondRest : Text}

namespace Pair

theorem markerAt?_of_front? {marker : Marker} {offset : Nat} (rest : Text)
    (begins : Marker.front? options.lessSyntax (front.drop offset) = some marker) :
    markerAt? ⟨options, front ++ rest⟩ offset = some marker ∧
      offset + marker.spelling.length ≤ front.length := by
  have fits := Marker.length_le_of_occursHere (Marker.front?_eq_some_iff.mp begins).2
  have positive := Marker.length_spelling_pos marker
  rw [List.length_drop] at fits
  refine ⟨?_, by omega⟩
  rw [markerAt?, List.drop_append_of_le_length (by omega)]
  exact Marker.front?_append_of_eq_some rest begins

/-- What a reaction consumes where it lands within a bound. -/
theorem count_le_of_landed {marker : Marker} {offset bound : Nat} {state : State}
    (begins : Marker.front? options.lessSyntax (front.drop offset) = some marker)
    (fits : offset + marker.spelling.length ≤ bound)
    (landed : (react ⟨options, front ++ firstRest⟩ marker state offset).state.cursor ≤ bound) :
    offset + (glimpse options marker (front.drop offset ++ firstRest)).count ≤ bound := by
  obtain ⟨firstBegins, inside⟩ := markerAt?_of_front? firstRest begins
  have count := @add_count_le_of_react ⟨options, front ++ firstRest⟩ _ _ _ _ firstBegins fits
    landed
  rwa [List.drop_append_of_le_length (Nat.le_of_add_right_le inside)] at count

/-- What is found where the sources are the same. -/
theorem sees_beginning {marker : Marker} {offset : Nat}
    (begins : Marker.front? options.lessSyntax (front.drop offset) = some marker)
    (inside : offset +
      (glimpse options marker (front.drop offset ++ firstRest)).count ≤ front.length)
    (sameCount : (glimpse options marker (front.drop offset ++ firstRest)).count =
      (glimpse options marker (front.drop offset ++ secondRest)).count)
    (sameFault : (glimpse options marker (front.drop offset ++ firstRest)).fault.isSome =
      (glimpse options marker (front.drop offset ++ secondRest)).fault.isSome)
    (sameReports :
      reported options (glimpse options marker (front.drop offset ++ firstRest)).fault =
        reported options (glimpse options marker (front.drop offset ++ secondRest)).fault) :
    (beginning options front firstRest secondRest).Sees marker offset := by
  obtain ⟨firstBegins, fits⟩ := markerAt?_of_front? firstRest begins
  obtain ⟨secondBegins, -⟩ := markerAt?_of_front? secondRest begins
  have dropped (rest : Text) : (front ++ rest).drop offset = front.drop offset ++ rest :=
    List.drop_append_of_le_length (by omega)
  constructor <;> simp only [beginning, Nat.zero_add, dropped] <;> assumption

theorem sees_of_same {marker : Marker} {offset : Nat}
    (begins : Marker.front? options.lessSyntax (front.drop offset) = some marker)
    (inside : offset +
      (glimpse options marker (front.drop offset ++ firstRest)).count ≤ front.length)
    (same : glimpse options marker (front.drop offset ++ firstRest) =
      glimpse options marker (front.drop offset ++ secondRest)) :
    (beginning options front firstRest secondRest).Sees marker offset :=
  sees_beginning begins inside (by rw [same]) (by rw [same]) (by rw [same])

/-- What is closed where the sources are the same is closed in both. -/
theorem sees_of_closed {marker : Marker} {offset : Nat}
    (begins : Marker.front? options.lessSyntax (front.drop offset) = some marker)
    (inside : offset +
      (glimpse options marker (front.drop offset ++ firstRest)).count ≤ front.length)
    (closed : (glimpse options marker (front.drop offset ++ firstRest)).fault = none)
    (escapes : marker = .backslash → 2 ≤ (front.drop offset ++ firstRest).length)
    (line : marker = .lineComment → firstRest ≠ []) :
    (beginning options front firstRest secondRest).Sees marker offset := by
  have fits := (markerAt?_of_front? firstRest begins).2
  have positive := Marker.length_spelling_pos marker
  have length : (front.drop offset).length = front.length - offset := List.length_drop ..
  have same : (front.drop offset ++ firstRest).take
      (glimpse options marker (front.drop offset ++ firstRest)).count <+:
        front.drop offset ++ secondRest := by
    rw [List.take_append_of_le_length (by omega)]
    exact (List.take_prefix ..).trans (List.prefix_append ..)
  refine sees_of_same begins inside (glimpse_of_isPrefix closed same escapes fun isLine => ?_).symm
  have some_ := List.length_pos_iff.mpr (line isLine)
  rw [List.length_append]
  omega

/-- What is left open where the sources are the same is left open in both, if that is so for
strings and urls. -/
theorem sees_of_open {marker : Marker} {offset : Nat}
    (begins : Marker.front? options.lessSyntax (front.drop offset) = some marker)
    (inside : offset +
      (glimpse options marker (front.drop offset ++ firstRest)).count ≤ front.length)
    (more : firstRest ≠ [])
    (strings : ∀ quote : Quote, marker = .quote quote →
      Quoted.reach? quote.character (front.drop (offset + 1) ++ firstRest) = none →
        Quoted.reach? quote.character (front.drop (offset + 1) ++ secondRest) = none)
    (urls : marker = .url →
      Url.contentReach? (front.drop (offset + 4) ++ firstRest) = none →
        Url.contentReach? (front.drop (offset + 4) ++ secondRest) = none ∧
          (options.ignoreErrors = false →
            Url.contentFault (front.drop (offset + 4) ++ firstRest) =
              Url.contentFault (front.drop (offset + 4) ++ secondRest))) :
    (beginning options front firstRest secondRest).Sees marker offset := by
  have fits := (markerAt?_of_front? firstRest begins).2
  have positive := Marker.length_spelling_pos marker
  have some_ := List.length_pos_iff.mpr more
  have length : (front.drop offset ++ firstRest).length =
      front.length - offset + firstRest.length := by
    rw [List.length_append, List.length_drop]
  have dropped (width : Nat) (within : offset + width ≤ front.length) (rest : Text) :
      (front.drop offset ++ rest).drop width = front.drop (offset + width) ++ rest := by
    rw [List.drop_append_of_le_length (by rw [List.length_drop]; omega), List.drop_drop]
  cases closed : (glimpse options marker (front.drop offset ++ firstRest)).fault with
  | none => exact sees_of_closed begins inside closed (fun _ => by omega) fun _ => more
  | some fault =>
      obtain ⟨_, found, leftOpen⟩ := exists_leftOpen (Option.isSome_of_mem closed)
      cases leftOpen with
      | @string quote unclosed =>
          rw [dropped 1 fits] at unclosed
          cases ignores : options.ignoreErrors with
          | false =>
              -- The string would reach up to the end of the source.
              simp only [found, ignores, if_neg Bool.false_ne_true] at inside
              omega
          | true =>
              refine sees_of_same begins inside ?_
              simp only [glimpse, dropped 1 fits, unclosed, strings quote rfl unclosed, ignores,
                if_pos]
      | comment _ =>
          rw [found] at inside
          dsimp only at inside
          omega
      | url unclosed =>
          rw [Url.reach?, dropped 4 fits, Option.map_eq_none_iff] at unclosed
          obtain ⟨unclosedToo, sameFault⟩ := urls rfl unclosed
          apply sees_beginning begins inside <;>
            simp only [glimpse, Url.reach?, dropped 4 fits, unclosed, unclosedToo,
              Option.map_none, Option.isSome_some]
          cases ignores : options.ignoreErrors with
          | true => simp [reported, ignores]
          | false => rw [sameFault ignores]

end Pair

/-- Scans that have not read anything are abreast. -/
theorem Abreast.outset (likeness : Likeness (.beginning options front firstRest secondRest)) :
    Abreast likeness 0 {} {} :=
  have level := likeness.level_of_le (Nat.zero_le _)
  .fresh (Nat.zero_le _)
    ⟨rfl, rfl, fun nested => absurd nested (Int.lt_irrefl 0), rfl, fun _ => rfl, fun _ => level,
      fun _ => level⟩ rfl rfl rfl rfl

/-- Scans that find the same where their sources are the same stay abreast there. -/
theorem depart (likeness : Likeness (.beginning options front firstRest secondRest))
    {entries : List (Marker × Nat)} {bound : Nat}
    (begin_ : ∀ entry ∈ entries,
      markerAt? ⟨options, front ++ firstRest⟩ entry.2 = some entry.1)
    (sees : ∀ (before : List (Marker × Nat)) (marker : Marker) (offset : Nat)
        (after : List (Marker × Nat)), entries = before ++ (marker, offset) :: after →
      let firstState := (course ⟨options, front ++ firstRest⟩ {} before).state
      let secondState := (course ⟨options, front ++ secondRest⟩ {} before).state
      firstState.cursor ≤ offset → secondState.cursor ≤ offset →
        (react ⟨options, front ++ firstRest⟩ marker firstState offset).state.cursor ≤ bound →
          (Pair.beginning options front firstRest secondRest).Sees marker offset)
    (bounded : (course ⟨options, front ++ firstRest⟩ {} entries).state.cursor ≤ bound) :
    let firstOutcome := course ⟨options, front ++ firstRest⟩ {} entries
    let secondOutcome := course ⟨options, front ++ secondRest⟩ {} entries
    (∃ later, Abreast likeness later firstOutcome.state secondOutcome.state) ∧
      likeness.Matches firstOutcome secondOutcome := by
  have whole := (Abreast.outset likeness).course entries bound
  simp only [Pair.beginning, Marker.map_moved_zero, Nat.zero_add] at whole
  exact whole begin_ sees bounded

end Scan
end Stylesheet
