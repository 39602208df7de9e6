import Stylesheet.Proofs.Literal.Hidden
import Stylesheet.Proofs.Scan.Astride
import Stylesheet.Proofs.Scan.Units

/-!
# Nothing is left to escape

Where a scan comes to the end of a text without a comment or an escape that reaches
further, no backslash that has not been handled takes along what stands behind the text.
-/

namespace Stylesheet

namespace Text

theorem endsOpen_append_of_not_mem {before : Text} (noBackslash : '\\' ∉ before) (text : Text) :
    endsOpen (before ++ text) = endsOpen text := by
  induction before with
  | nil => rfl
  | cons character before induction =>
      rw [List.mem_cons, not_or] at noBackslash
      rw [List.cons_append, ← List.nil_append (character :: _),
        endsOpen_append_cons (Ne.symm noBackslash.1), induction noBackslash.2]

theorem EndsAt.of_append {text rest : Text} {count : Nat} {last : Char}
    (ends : EndsAt (text ++ rest) count last) (inside : count ≤ text.length) :
    text.EndsAt count last := by
  obtain ⟨positive, found⟩ := ends
  rw [List.getElem?_append_left (by omega)] at found
  exact ⟨positive, found⟩

/-- What ends with another character leaves nothing to escape. -/
theorem EndsAt.endsOpen_drop {text : Text} {count : Nat} {last : Char}
    (ends : text.EndsAt count last) (noBackslash : last ≠ '\\') :
    endsOpen (text.drop count) = endsOpen text := by
  obtain ⟨positive, found⟩ := ends
  obtain ⟨inside, here⟩ := List.getElem?_eq_some_iff.mp found
  have split := List.take_append_drop (count - 1) text
  rw [List.drop_eq_getElem_cons inside, here, Nat.sub_add_cancel positive] at split
  conv => rhs; rw [← split]
  exact (endsOpen_append_cons noBackslash _ _).symm

/-- What has no backslash in it does not change what is left to escape behind it. -/
theorem endsOpen_drop_eq {text : Text} {start stop : Nat} (before : start ≤ stop)
    (noBackslash : ∀ index, start ≤ index → index < stop → text[index]? ≠ some '\\') :
    endsOpen (text.drop start) = endsOpen (text.drop stop) := by
  have between : '\\' ∉ (text.drop start).take (stop - start) := by
    intro member
    obtain ⟨index, here⟩ := List.mem_iff_getElem?.mp member
    rw [List.getElem?_take, List.getElem?_drop] at here
    split at here
    next inside => exact noBackslash _ (Nat.le_add_right ..) (by omega) here
    next => cases here
  have split := List.take_append_drop (stop - start) (text.drop start)
  rw [List.drop_drop, Nat.add_sub_cancel' before] at split
  rw [← split, endsOpen_append_of_not_mem between]

end Text

/-- No marker but a backslash has a backslash in it. -/
theorem Marker.exists_endsAt {marker : Marker} {text : Text} {count : Nat}
    (occurs : occursHere marker.spelling text = true) (noEscape : marker ≠ .backslash)
    (positive : 0 < count) (inside : count ≤ marker.spelling.length) :
    ∃ last, last ≠ '\\' ∧ text.EndsAt count last := by
  have table : ∀ marker ∈ active true, marker ≠ .backslash → '\\' ∉ marker.spelling := by decide
  have fits := length_le_of_occursHere occurs
  have within : count - 1 < text.length := by omega
  refine ⟨text[count - 1], fun isBackslash => ?_, positive, List.getElem?_eq_getElem within⟩
  refine @ne_of_occursHere marker text 0 (count - 1) '\\' occurs (by omega)
    (table marker (mem_active_true marker) noEscape) ?_
  rw [Nat.zero_add, List.getElem?_eq_getElem within, isBackslash]

theorem Marker.endsOpen_drop {marker : Marker} {text : Text} {count : Nat}
    (occurs : occursHere marker.spelling text = true) (noEscape : marker ≠ .backslash)
    (positive : 0 < count) (inside : count ≤ marker.spelling.length) :
    Text.endsOpen (text.drop count) = Text.endsOpen text := by
  obtain ⟨last, noBackslash, ends⟩ := exists_endsAt occurs noEscape positive inside
  exact ends.endsOpen_drop noBackslash

namespace Scan

variable {options : TokenizeOptions} {front rest : Text} {marker : Marker}

theorem stepsFrom_append (scan : Scan) (state : State) (front back : List (Marker × Nat)) :
    scan.stepsFrom state (front ++ back) =
      (scan.stepsFrom state front).dropLast ++
        scan.stepsFrom (scan.course state front).state back := by
  have some_ (state : State) (entries : List (Marker × Nat)) :
      scan.stepsFrom state entries ≠ [] := by
    induction entries generalizing state with
    | nil => simp [stepsFrom]
    | cons entry entries induction =>
        rw [stepsFrom]
        split
        · exact induction state
        · simp
  induction front generalizing state with
  | nil => rfl
  | cons entry front induction =>
      rw [List.cons_append, stepsFrom, stepsFrom, course]
      split
      · exact induction state
      · rw [List.dropLast_cons_of_ne_nil (some_ _ _), List.cons_append, Outcome.andThen]
        exact congrArg _ (induction _)

theorem Landed.of_nested {scan : Scan} {state : State} {offset : Nat} {cursor : Int}
    (landed : Landed scan state offset marker cursor)
    (nested : marker = .semicolon ∨ marker = .closeParen ∨ marker = .closeBrace) :
    cursor = state.cursor ∧
        (marker = .semicolon ∨ marker = .closeParen ∨ marker = .closeBrace) ∨
      cursor = (offset + 1 : Nat) := by
  cases landed with
  | unmoved _ => exact .inl ⟨rfl, nested⟩
  | behindOne _ => exact .inr rfl
  | behindInterpolation opens | atEnd opens => rcases nested with rfl | rfl | rfl <;> simp at opens
  | _ => simp at nested

/-- A reaction in a plain stylesheet leaves the cursor where it is, or behind all that it
has looked at. -/
theorem cursor_react {scan : Scan} {state : State} {offset : Nat}
    (begins : scan.markerAt? offset = some marker) (noCall : marker ≠ .openParen) :
    (scan.react marker state offset).state.cursor = state.cursor ∧
        (marker = .semicolon ∨ marker = .closeParen ∨ marker = .closeBrace) ∨
      (scan.react marker state offset).state.cursor =
        (offset + (glimpse scan.options marker (scan.source.drop offset)).count : Nat) := by
  have inside := lt_length_of_markerAt? begins
  cases marker with
  | quote quote =>
      simp only [Scan.react]
      rw [(scan.readString_eq state quote (Nat.le_of_add_right_le inside)).1]
      exact .inr rfl
  | comment =>
      simp only [Scan.react]
      rw [(scan.skipComment_eq state (Nat.le_of_add_right_le inside)).1]
      exact .inr rfl
  | url =>
      simp only [Scan.react]
      rw [(scan.readUrl_eq state offset).1]
      exact .inr rfl
  | backslash =>
      simp only [Scan.react]
      rw [scan.readEscape_eq state (Nat.le_of_add_right_le inside)]
      exact .inr rfl
  | lineComment =>
      simp only [Scan.react]
      rw [scan.skipLine_eq state inside]
      exact .inr rfl
  | openParen => exact absurd rfl noCall
  | openBrace => exact .inr rfl
  | closeBrace => exact (scan.landed_react state _ offset).of_nested (by simp)
  | semicolon => exact (scan.landed_react state _ offset).of_nested (by simp)
  | closeParen => exact (scan.landed_react state _ offset).of_nested (by simp)
  | atInterpolation => exact .inr rfl
  | hashInterpolation => exact .inr rfl

/-- What is looked at does not end with a backslash, unless that is escaped or the text ends
with what is looked at. -/
theorem endsAt_glimpse_or {lessSyntax : Bool} {text : Text}
    (begins : Marker.front? lessSyntax text = some marker) (noEscape : marker ≠ .backslash) :
    (∃ last, last ≠ '\\' ∧ text.EndsAt (glimpse options marker text).count last) ∨
      (glimpse options marker text).count = text.length ∧
        (marker = .lineComment ∨
          marker = .comment ∧ Text.find? ['*', '/'] (text.drop 2) = none ∨
          (∃ quote, marker = .quote quote) ∧ options.ignoreErrors = false) := by
  have occurs := (Marker.front?_eq_some_iff.mp begins).2
  have spelled {count : Nat} (positive : 0 < count) (inside : count ≤ marker.spelling.length) :=
    Marker.exists_endsAt occurs noEscape positive inside
  cases marker with
  | quote quote =>
      simp only [glimpse]
      cases reached : Quoted.reach? quote.character (text.drop 1) with
      | some count =>
          exact .inl ⟨_, Url.character_ne_backslash quote,
            (Quoted.endsAt_of_reach? reached).of_drop⟩
      | none =>
          cases options.ignoreErrors with
          | true => exact .inl (spelled Nat.one_pos (Nat.le_refl 1))
          | false => exact .inr ⟨rfl, .inr (.inr ⟨⟨quote, rfl⟩, rfl⟩)⟩
  | comment =>
      simp only [glimpse]
      cases found : Text.find? ['*', '/'] (text.drop 2) with
      | none => exact .inr ⟨rfl, by simp⟩
      | some count =>
          exact .inl ⟨'/', by decide, (Text.endsAt_of_find? ['*'] found).of_drop⟩
  | url =>
      simp only [glimpse]
      cases reached : Url.reach? text with
      | some count => exact .inl ⟨')', by decide, (Url.endsAt_of_reach? reached).2⟩
      | none => exact .inl (spelled (Nat.succ_pos 2) (Nat.le_succ 3))
  | lineComment =>
      have fits := Marker.length_le_of_occursHere occurs
      simp only [glimpse]
      rcases endsAt_lineReach_or (text.drop 2) with ⟨lineBreak, breaks, ends⟩ | whole
      · refine .inl ⟨lineBreak, ?_, ends.of_drop⟩
        rintro rfl
        cases breaks
      · rw [whole, List.length_drop]
        exact .inr ⟨Nat.add_sub_cancel' fits, by simp⟩
  | backslash => exact absurd rfl noEscape
  | _ => exact .inl (spelled (Marker.length_spelling_pos _) (Nat.le_refl _))

/-- What is looked at in plain stylesheets does not end with a backslash, unless that is
escaped. -/
theorem endsAt_glimpse (ignores : options.ignoreErrors = true) {text : Text}
    (begins : Marker.front? false text = some marker) (noEscape : marker ≠ .backslash)
    (closed : marker = .comment → Text.find? ['*', '/'] (text.drop 2) ≠ none) :
    ∃ last, last ≠ '\\' ∧ text.EndsAt (glimpse options marker text).count last := by
  rcases @endsAt_glimpse_or options _ _ _ begins noEscape with
    ends | ⟨-, rfl | ⟨rfl, unclosed⟩ | ⟨-, strict⟩⟩
  · exact ends
  · exact absurd (Marker.front?_eq_some_iff.mp begins).1 (by decide)
  · exact absurd unclosed (closed rfl)
  · rw [ignores] at strict
    cases strict

/-- A step that takes nothing along from behind a place: it is no escape right in front of
it, and no comment before it that is left open. -/
structure Step.Closes (source : Text) (place : Nat) (step : Step) : Prop where
  escape : step.marker = some .backslash → step.offset + 1 ≠ place
  comment : step.marker = some .comment → step.offset < place →
    Text.findFrom? ['*', '/'] source (step.offset + 2) ≠ none

theorem findFrom?_behind (phrase source : Text) (offset : Nat) :
    Text.findFrom? phrase source (offset + 2) =
      (Text.find? phrase ((source.drop offset).drop 2)).map (offset + 2 + ·) := by
  have position : ((offset : Int) + 2) = ((offset + 2 : Nat) : Int) := rfl
  simp only [Text.findFrom?, position, place_natCast, List.drop_drop]

variable {state : State} {offset : Nat}

/-- What a reaction consumes in front of a place does not change whether the text there is
left open. -/
theorem endsOpen_drop_count (ignores : options.ignoreErrors = true)
    (here : Marker.front? false (front.drop offset) = some marker)
    (inside : offset + (glimpse options marker (front.drop offset ++ rest)).count ≤ front.length)
    (closes : Step.Closes (front ++ rest) front.length
      ⟨some marker, offset, react ⟨options, front ++ rest⟩ marker state offset⟩) :
    0 < (glimpse options marker (front.drop offset ++ rest)).count ∧
      Text.endsOpen (front.drop
          (offset + (glimpse options marker (front.drop offset ++ rest)).count)) =
        Text.endsOpen (front.drop offset) := by
  have length : (front.drop offset).length = front.length - offset := List.length_drop ..
  have occurs := (Marker.front?_eq_some_iff.mp here).2
  have fits := Marker.length_le_of_occursHere occurs
  have positive := Marker.length_spelling_pos marker
  rw [← List.drop_drop]
  by_cases isEscape : marker = .backslash
  · subst isEscape
    have notLast : offset + 1 ≠ front.length := closes.escape rfl
    obtain ⟨later, split⟩ := Marker.isPrefix_of_occursHere occurs (by decide)
    cases later with
    | nil =>
        rw [← split] at length
        simp only [Marker.spelling, List.append_nil, List.length_singleton] at length
        omega
    | cons escaped later =>
        rw [← split]
        simp [Marker.spelling, glimpse, Text.endsOpen]
  · obtain ⟨last, noBackslash, ends⟩ := endsAt_glimpse ignores
      (Marker.front?_append_of_eq_some rest here) isEscape fun isComment unclosed => by
        refine closes.comment (congrArg some isComment) (show offset < front.length by omega) ?_
        rw [findFrom?_behind, List.drop_append_of_le_length (by dsimp only; omega), unclosed,
          Option.map_none]
    exact ⟨ends.1, (ends.of_append (by omega)).endsOpen_drop noBackslash⟩

theorem exists_landing (noLess : options.lessSyntax = false) (ignores : options.ignoreErrors = true)
    (here : Marker.front? false (front.drop offset) = some marker)
    (closes : Step.Closes (front ++ rest) front.length
      ⟨some marker, offset, react ⟨options, front ++ rest⟩ marker state offset⟩)
    (landed : (react ⟨options, front ++ rest⟩ marker state offset).state.cursor ≤ front.length) :
    (react ⟨options, front ++ rest⟩ marker state offset).state.cursor = state.cursor ∧
        front[offset]? ≠ some '\\' ∨
      ∃ stop > offset,
        (react ⟨options, front ++ rest⟩ marker state offset).state.cursor = (stop : Nat) ∧
          Text.endsOpen (front.drop stop) = Text.endsOpen (front.drop offset) := by
  obtain ⟨begins, fits⟩ := Pair.markerAt?_of_front? rest (noLess ▸ here)
  have dropped : (front ++ rest).drop offset = front.drop offset ++ rest :=
    List.drop_append_of_le_length (by omega)
  have noCall : marker ≠ .openParen := by
    rintro rfl
    exact absurd (Marker.front?_eq_some_iff.mp here).1 (by decide)
  rcases cursor_react begins noCall with ⟨stays, nested⟩ | moved
  · refine .inl ⟨stays, fun isBackslash => ?_⟩
    obtain ⟨inside, isHead⟩ := List.getElem?_eq_some_iff.mp isBackslash
    rw [List.drop_eq_getElem_cons inside, isHead, front?_backslash] at here
    cases here
    simp at nested
  · dsimp only at moved
    rw [dropped] at moved
    rw [moved] at landed
    obtain ⟨some_, same⟩ := endsOpen_drop_count ignores here (Int.ofNat_le.mp landed) closes
    exact .inr ⟨_, Nat.lt_add_of_pos_right some_, moved, same⟩

/-- Where the course of the markers of a text ends in front of what stands behind the text,
nothing is left to escape. -/
theorem endsOpen_of_course (noLess : options.lessSyntax = false)
    (ignores : options.ignoreErrors = true) {entries : List (Marker × Nat)} {start : Nat}
    (reached : state.cursor = start)
    (listed : ∀ entry ∈ entries, entry ∈ Marker.listed false front)
    (rises : entries.Pairwise fun earlier later => earlier.2 < later.2)
    (covers : ∀ offset, start ≤ offset → front[offset]? = some '\\' →
      (.backslash, offset) ∈ entries)
    (closes : ∀ step ∈ stepsFrom ⟨options, front ++ rest⟩ state entries,
      step.Closes (front ++ rest) front.length)
    (bounded : (course ⟨options, front ++ rest⟩ state entries).state.cursor ≤ front.length) :
    Text.endsOpen (front.drop start) = false := by
  induction entries generalizing state start with
  | nil =>
      have noMore (index : Nat) (inside : start ≤ index) : front[index]? ≠ some '\\' := by
        intro here
        cases covers index inside here
      rw [Text.endsOpen_drop_eq (Nat.le_add_right start front.length) fun index inside _ =>
        noMore index inside, List.drop_eq_nil_of_le (Nat.le_add_left ..)]
      rfl
  | cons entry entries induction =>
      obtain ⟨marker, offset⟩ := entry
      obtain ⟨behind, risesLater⟩ := List.pairwise_cons.mp rises
      have listedLater := fun entry member => listed entry (List.mem_cons_of_mem _ member)
      have coversLater {stop : Nat} (further : start ≤ stop)
          (notFirst : stop ≤ offset → front[offset]? ≠ some '\\') :
          ∀ later, stop ≤ later → front[later]? = some '\\' → (.backslash, later) ∈ entries := by
        intro later inside here
        refine (List.mem_cons.mp (covers later (Nat.le_trans further inside) here)).resolve_left ?_
        intro same
        obtain rfl : later = offset := congrArg Prod.snd same
        exact notFirst inside here
      rw [stepsFrom] at closes
      rw [course] at bounded
      by_cases consumed : (offset : Int) < state.cursor
      · rw [if_pos consumed] at closes bounded
        exact induction reached listedLater risesLater (coversLater (Nat.le_refl _) (by omega)) closes
          bounded
      · rw [if_neg consumed] at closes bounded
        have closesLater := fun step member => closes step (List.mem_cons_of_mem _ member)
        have begins : ∀ entry ∈ entries,
            markerAt? ⟨options, front ++ rest⟩ entry.2 = some entry.1 := fun entry member =>
          (Pair.markerAt?_of_front? rest (noLess ▸ Pair.mem_listed (listedLater entry member))).1
        rcases exists_landing noLess ignores (Pair.mem_listed (listed _ List.mem_cons_self))
            (closes _ List.mem_cons_self) (Int.le_trans (cursor_le_course begins) bounded) with
          ⟨stays, notHere⟩ | ⟨stop, further, moved, same⟩
        · exact induction (stays.trans reached) listedLater risesLater
            (coversLater (Nat.le_refl _) fun _ => notHere) closesLater bounded
        · have settled := induction moved listedLater risesLater
            (coversLater (by omega) (by omega)) closesLater bounded
          have noneBefore (index : Nat) (inside : start ≤ index) (earlier : index < offset) :
              front[index]? ≠ some '\\' := by
            intro here
            rcases List.mem_cons.mp (covers index inside here) with isFirst | later
            · obtain rfl : index = offset := congrArg Prod.snd isFirst
              exact Nat.lt_irrefl _ earlier
            · exact Nat.lt_asymm earlier (behind _ later)
          rw [Text.endsOpen_drop_eq (by omega) noneBefore, ← same, settled]

end Scan
end Stylesheet
