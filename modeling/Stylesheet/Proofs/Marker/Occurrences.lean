import Stylesheet.Marker.Search

/-!
# What the marker search finds

Every marker is pursued by itself: which hits one marker has does not depend on
the others. A listed hit is an occurrence, and an occurrence that is not listed
overlaps an earlier hit of the same marker. No two active markers occur at the
same place, so the hits of a source have strictly rising offsets.
-/

namespace Stylesheet
namespace Marker

/-! ## One marker at a time -/

namespace Pursuit

variable {Mark : Type}

/-- The offsets at which a marker is hit. -/
def trail (pursuit : Pursuit Mark) (offset : Nat) : Text → List Nat
  | [] => []
  | character :: rest =>
      let here := if pursuit.isHit (character :: rest) then [offset] else []
      here ++ trail (pursuit.advance (character :: rest)) (offset + 1) rest

@[simp] theorem advance_mark (pursuit : Pursuit Mark) (text : Text) :
    (pursuit.advance text).mark = pursuit.mark := by
  unfold advance; split <;> rfl

@[simp] theorem advance_spelling (pursuit : Pursuit Mark) (text : Text) :
    (pursuit.advance text).spelling = pursuit.spelling := by
  unfold advance; split <;> rfl

theorem advance_pending_of_isHit {pursuit : Pursuit Mark} {text : Text}
    (hit : pursuit.isHit text = true) :
    (pursuit.advance text).pending = pursuit.spelling.length - 1 := by
  rw [advance, if_pos hit]

theorem advance_pending_of_not_isHit {pursuit : Pursuit Mark} {text : Text}
    (miss : ¬pursuit.isHit text = true) :
    (pursuit.advance text).pending = pursuit.pending - 1 := by
  rw [advance, if_neg miss]

theorem isHit_iff {pursuit : Pursuit Mark} {text : Text} :
    pursuit.isHit text = true ↔
      pursuit.pending = 0 ∧ occursHere pursuit.spelling text = true := by
  simp [isHit]

theorem mem_hits_iff {pursuits : List (Pursuit Mark)} {offset : Nat} {text : Text}
    {mark : Mark} {found : Nat} :
    (mark, found) ∈ hits pursuits offset text ↔
      ∃ pursuit ∈ pursuits, pursuit.mark = mark ∧ found ∈ pursuit.trail offset text := by
  induction text generalizing pursuits offset with
  | nil => simp [hits, trail]
  | cons character rest induction =>
      simp only [hits, trail, List.mem_append, induction, List.mem_map, List.mem_filter]
      constructor
      · rintro (⟨pursuit, ⟨member, hit⟩, equal⟩ | ⟨_, ⟨pursuit, member, rfl⟩, rfl, later⟩)
        · cases equal
          exact ⟨pursuit, member, rfl, Or.inl (by simp [hit])⟩
        · exact ⟨pursuit, member, (pursuit.advance_mark _).symm, Or.inr later⟩
      · rintro ⟨pursuit, member, rfl, here | later⟩
        · split at here
          next hit =>
            refine Or.inl ⟨pursuit, ⟨member, hit⟩, ?_⟩
            rw [List.mem_singleton.mp here]
          next => simp at here
        · exact Or.inr ⟨_, ⟨pursuit, member, rfl⟩, pursuit.advance_mark _, later⟩

theorem occursHere_of_mem_trail {pursuit : Pursuit Mark} {offset : Nat} {text : Text}
    {found : Nat} (member : found ∈ pursuit.trail offset text) :
    ∃ index < text.length, found = offset + index ∧
      occursHere pursuit.spelling (text.drop index) = true := by
  induction text generalizing pursuit offset with
  | nil => simp [trail] at member
  | cons character rest induction =>
      rcases List.mem_append.mp member with here | later
      · split at here
        next hit =>
          refine ⟨0, by simp, List.mem_singleton.mp here, ?_⟩
          exact (isHit_iff.mp hit).2
        next => simp at here
      · obtain ⟨index, inside, rfl, occurs⟩ := induction later
        refine ⟨index + 1, by simpa using inside, by omega, ?_⟩
        simpa using occurs

/-- What is still to be passed over holds no hit. -/
theorem add_pending_le_of_mem_trail {pursuit : Pursuit Mark} {offset : Nat} {text : Text}
    {found : Nat} (member : found ∈ pursuit.trail offset text) :
    offset + pursuit.pending ≤ found := by
  induction text generalizing pursuit offset with
  | nil => simp [trail] at member
  | cons character rest induction =>
      rcases List.mem_append.mp member with here | later
      · split at here
        next hit =>
          have idle := (isHit_iff.mp hit).1
          have equal := List.mem_singleton.mp here
          omega
        next => simp at here
      · have bound := induction later
        by_cases hit : pursuit.isHit (character :: rest) = true
        · have idle := (isHit_iff.mp hit).1
          omega
        · rw [advance_pending_of_not_isHit hit] at bound
          omega

theorem pairwise_trail (pursuit : Pursuit Mark) (offset : Nat) (text : Text)
    (nonempty : 0 < pursuit.spelling.length) :
    (pursuit.trail offset text).Pairwise
      fun first second => first + pursuit.spelling.length ≤ second := by
  induction text generalizing pursuit offset with
  | nil => exact .nil
  | cons character rest induction =>
      have later := induction (pursuit.advance (character :: rest)) (offset + 1)
        (by rwa [advance_spelling])
      rw [advance_spelling] at later
      by_cases hit : pursuit.isHit (character :: rest) = true
      · rw [trail, if_pos hit]
        refine List.pairwise_cons.mpr ⟨fun found member => ?_, later⟩
        have bound := add_pending_le_of_mem_trail member
        rw [advance_pending_of_isHit hit] at bound
        omega
      · rw [trail, if_neg hit]
        exact later

/-- An occurrence that is not hit lies in what is passed over: at the start, or
behind an earlier hit. -/
theorem mem_trail_or_hidden (pursuit : Pursuit Mark) (offset : Nat) (text : Text)
    {index : Nat} (inside : index < text.length)
    (occurs : occursHere pursuit.spelling (text.drop index) = true) :
    offset + index ∈ pursuit.trail offset text ∨ index < pursuit.pending ∨
      ∃ earlier < index, offset + earlier ∈ pursuit.trail offset text ∧
        index < earlier + pursuit.spelling.length := by
  induction text generalizing pursuit offset index with
  | nil => simp at inside
  | cons character rest induction =>
      cases index with
      | zero =>
          by_cases idle : pursuit.pending = 0
          · have hit := isHit_iff.mpr ⟨idle, occurs⟩
            simp only [List.drop_zero] at hit
            exact Or.inl (by simp [trail, hit])
          · exact Or.inr (Or.inl (by omega))
      | succ index =>
          have step := induction (pursuit.advance (character :: rest)) (offset + 1)
            (by simpa using inside) (by simpa using occurs)
          have shift (number : Nat) : offset + 1 + number = offset + (number + 1) := by omega
          simp only [shift, advance_spelling] at step
          have mem_of_later {found : Nat}
              (later : found ∈ (pursuit.advance (character :: rest)).trail (offset + 1) rest) :
              found ∈ pursuit.trail offset (character :: rest) :=
            List.mem_append_right _ later
          rcases step with hit | passed | ⟨earlier, before, hit, overlap⟩
          · exact Or.inl (mem_of_later hit)
          · by_cases hit : pursuit.isHit (character :: rest) = true
            · rw [advance_pending_of_isHit hit] at passed
              refine Or.inr (Or.inr ⟨0, by omega, ?_, by omega⟩)
              simp [trail, hit]
            · rw [advance_pending_of_not_isHit hit] at passed
              exact Or.inr (Or.inl (by omega))
          · exact Or.inr (Or.inr ⟨earlier + 1, by omega, mem_of_later hit, by omega⟩)

/-! ## The order of the hits -/

theorem le_of_mem_hits {pursuits : List (Pursuit Mark)} {offset : Nat} {text : Text}
    {hit : Mark × Nat} (member : hit ∈ hits pursuits offset text) : offset ≤ hit.2 := by
  obtain ⟨pursuit, -, -, found⟩ := mem_hits_iff.mp (show (hit.1, hit.2) ∈ _ from member)
  obtain ⟨index, -, equal, -⟩ := occursHere_of_mem_trail found
  omega

/-- If no two markers occur at one place, the offsets of the hits rise strictly. -/
theorem pairwise_hits (pursuits : List (Pursuit Mark)) (offset : Nat) (text : Text)
    (exclusive : pursuits.Pairwise fun first second => ∀ text,
      occursHere first.spelling text = true → occursHere second.spelling text = false) :
    (hits pursuits offset text).Pairwise fun first second => first.2 < second.2 := by
  induction text generalizing pursuits offset with
  | nil => exact .nil
  | cons character rest induction =>
      rw [hits, List.pairwise_append]
      refine ⟨?_, induction _ _ ?_, ?_⟩
      · rw [List.pairwise_map]
        refine (exclusive.filter _).imp_of_mem fun {first second} one two never => ?_
        have firstOccurs := (isHit_iff.mp (List.mem_filter.mp one).2).2
        have secondOccurs := (isHit_iff.mp (List.mem_filter.mp two).2).2
        rw [never _ firstOccurs] at secondOccurs
        cases secondOccurs
      · rw [List.pairwise_map]
        simpa only [advance_spelling] using exclusive
      · intro here isHere later isLater
        obtain ⟨pursuit, -, rfl⟩ := List.mem_map.mp isHere
        exact le_of_mem_hits isLater

/-! ## The ranking -/

theorem perm_insertByLength (pursuit : Pursuit Mark) (pursuits : List (Pursuit Mark)) :
    (insertByLength pursuit pursuits).Perm (pursuit :: pursuits) := by
  induction pursuits with
  | nil => exact .refl _
  | cons other others induction =>
      rw [insertByLength]
      split
      · exact .refl _
      · exact (induction.cons other).trans (.swap ..)

theorem perm_ranked (spelling : Mark → Text) (marks : List Mark) :
    (ranked spelling marks).Perm (marks.map fun mark => ⟨mark, spelling mark, 0⟩) := by
  have general (pursuits : List (Pursuit Mark)) :
      (marks.foldl (fun pursuits mark => insertByLength ⟨mark, spelling mark, 0⟩ pursuits)
        pursuits).Perm (marks.map (fun mark => ⟨mark, spelling mark, 0⟩) ++ pursuits) := by
    induction marks generalizing pursuits with
    | nil => exact .refl _
    | cons mark marks induction =>
        refine (induction _).trans ?_
        refine ((perm_insertByLength _ pursuits).append_left _).trans ?_
        exact List.perm_middle
  simpa only [ranked, List.append_nil] using general []

end Pursuit

/-! ## All occurrences -/

section Occurrences

variable {Mark : Type} {spelling : Mark → Text} {marks : List Mark} {source : Text}

theorem mem_occurrences_iff {mark : Mark} {offset : Nat} :
    (mark, offset) ∈ occurrences spelling marks source ↔
      mark ∈ marks ∧ offset ∈ Pursuit.trail ⟨mark, spelling mark, 0⟩ 0 source := by
  rw [occurrences, Pursuit.mem_hits_iff]
  constructor
  · rintro ⟨pursuit, member, rfl, found⟩
    have listed := (Pursuit.perm_ranked spelling marks).mem_iff.mp member
    obtain ⟨mark, isMark, rfl⟩ := List.mem_map.mp listed
    exact ⟨isMark, found⟩
  · rintro ⟨isMark, found⟩
    refine ⟨_, (Pursuit.perm_ranked spelling marks).mem_iff.mpr ?_, rfl, found⟩
    exact List.mem_map.mpr ⟨mark, isMark, rfl⟩

theorem occursHere_of_mem_occurrences {mark : Mark} {offset : Nat}
    (member : (mark, offset) ∈ occurrences spelling marks source) :
    mark ∈ marks ∧ offset < source.length ∧
      occursHere (spelling mark) (source.drop offset) = true := by
  obtain ⟨isMark, found⟩ := mem_occurrences_iff.mp member
  obtain ⟨index, inside, equal, occurs⟩ := Pursuit.occursHere_of_mem_trail found
  obtain rfl : offset = index := by omega
  exact ⟨isMark, inside, occurs⟩

/-- An occurrence that is not listed overlaps an earlier listed one of its marker. -/
theorem mem_occurrences_or_overlapped {mark : Mark} {offset : Nat} (isMark : mark ∈ marks)
    (inside : offset < source.length)
    (occurs : occursHere (spelling mark) (source.drop offset) = true) :
    (mark, offset) ∈ occurrences spelling marks source ∨
      ∃ earlier < offset, (mark, earlier) ∈ occurrences spelling marks source ∧
        offset < earlier + (spelling mark).length := by
  simp only [mem_occurrences_iff, isMark, true_and]
  rcases Pursuit.mem_trail_or_hidden ⟨mark, spelling mark, 0⟩ 0 source inside occurs with
    hit | passed | ⟨earlier, before, hit, overlap⟩
  · exact Or.inl (by simpa using hit)
  · exact absurd passed (Nat.not_lt_zero _)
  · exact Or.inr ⟨earlier, before, by simpa using hit, overlap⟩

theorem not_overlapping_of_mem_occurrences {mark : Mark} {first second : Nat}
    (firstMember : (mark, first) ∈ occurrences spelling marks source)
    (secondMember : (mark, second) ∈ occurrences spelling marks source)
    (before : first < second) : first + (spelling mark).length ≤ second := by
  by_cases nonempty : 0 < (spelling mark).length
  · have apart := Pursuit.pairwise_trail ⟨mark, spelling mark, 0⟩ 0 source nonempty
    rw [List.pairwise_iff_getElem] at apart
    obtain ⟨i, iInside, rfl⟩ := List.mem_iff_getElem.mp (mem_occurrences_iff.mp firstMember).2
    obtain ⟨j, jInside, rfl⟩ := List.mem_iff_getElem.mp (mem_occurrences_iff.mp secondMember).2
    rcases Nat.lt_trichotomy i j with less | rfl | greater
    · exact apart i j iInside jInside less
    · omega
    · have reversed := apart j i jInside iInside greater
      omega
  · omega

end Occurrences

/-! ## Active markers -/

theorem map_foldCase_spelling (marker : Marker) :
    marker.spelling.map foldCase = marker.spelling := by
  cases marker with
  | quote mark => cases mark <;> rfl
  | _ => rfl

theorem length_spelling_pos (marker : Marker) : 0 < marker.spelling.length := by
  cases marker <;> simp [spelling]

theorem mem_active_true (marker : Marker) : marker ∈ active true := by
  cases marker with
  | quote mark => cases mark <;> decide
  | _ => decide

theorem spelling_isPrefix_of_occursHere {marker : Marker} {text : Text}
    (occurs : occursHere marker.spelling text = true) :
    marker.spelling <+: text.map foldCase := by
  unfold occursHere at occurs
  split at occurs
  · rw [List.isPrefixOf_iff_prefix, List.map_take] at occurs
    exact occurs.trans (List.take_prefix _ _)
  · rw [List.isPrefixOf_iff_prefix] at occurs
    rw [← map_foldCase_spelling marker]
    exact occurs.map foldCase

/-- All spellings but that of a url stand as they are. -/
theorem isPrefix_of_occursHere {marker : Marker} {text : Text}
    (occurs : occursHere marker.spelling text = true) (noUrl : marker ≠ .url) :
    marker.spelling <+: text := by
  have asWritten : ignoresCase marker.spelling = false := by
    have table : ∀ marker ∈ active true, marker ≠ .url →
        ignoresCase marker.spelling = false := by decide
    exact table marker (mem_active_true marker) noUrl
  rw [occursHere, asWritten] at occurs
  exact List.isPrefixOf_iff_prefix.mp occurs

theorem length_le_of_occursHere {marker : Marker} {text : Text}
    (occurs : occursHere marker.spelling text = true) :
    marker.spelling.length ≤ text.length := by
  simpa using (spelling_isPrefix_of_occursHere occurs).length_le

theorem foldCase_getElem?_of_occursHere {marker : Marker} {source : Text} {offset index : Nat}
    (occurs : occursHere marker.spelling (source.drop offset) = true)
    (inside : index < marker.spelling.length) :
    source[offset + index]?.map foldCase = marker.spelling[index]? := by
  obtain ⟨rest, equal⟩ := spelling_isPrefix_of_occursHere occurs
  have within : (marker.spelling ++ rest)[index]? = marker.spelling[index]? :=
    List.getElem?_append_left inside
  rw [← within, equal, List.getElem?_map, List.getElem?_drop]

/-- Inside a marker there are only the characters that it is spelled with. -/
theorem ne_of_occursHere {marker : Marker} {source : Text} {offset index : Nat} {character : Char}
    (occurs : occursHere marker.spelling (source.drop offset) = true)
    (inside : index < marker.spelling.length) (absent : foldCase character ∉ marker.spelling) :
    source[offset + index]? ≠ some character := by
  intro here
  have letter := foldCase_getElem?_of_occursHere occurs inside
  rw [here] at letter
  exact absent (List.mem_of_getElem? letter.symm)

private theorem eq_of_spelling_isPrefix {first second : Marker}
    (isPrefix : first.spelling <+: second.spelling) : first = second := by
  have table : ∀ first ∈ active true, ∀ second ∈ active true,
      first.spelling.isPrefixOf second.spelling = true → first = second := by decide
  exact table first (mem_active_true first) second (mem_active_true second)
    (List.isPrefixOf_iff_prefix.mpr isPrefix)

/-- No two markers occur at one place. -/
theorem eq_of_occursHere {first second : Marker} {text : Text}
    (firstOccurs : occursHere first.spelling text = true)
    (secondOccurs : occursHere second.spelling text = true) : first = second := by
  rcases List.prefix_or_prefix_of_prefix (spelling_isPrefix_of_occursHere firstOccurs)
    (spelling_isPrefix_of_occursHere secondOccurs) with before | after
  · exact eq_of_spelling_isPrefix before
  · exact (eq_of_spelling_isPrefix after).symm

/-- The offsets of the active markers rise strictly. -/
theorem pairwise_occurrences_active (lessSyntax : Bool) (source : Text) :
    (occurrences spelling (active lessSyntax) source).Pairwise
      fun first second => first.2 < second.2 := by
  apply Pursuit.pairwise_hits
  have distinct : (active lessSyntax).Pairwise (· ≠ ·) := by
    cases lessSyntax <;> decide
  have exclusive : ((active lessSyntax).map fun marker =>
      (⟨marker, marker.spelling, 0⟩ : Pursuit Marker)).Pairwise fun first second =>
        ∀ text, occursHere first.spelling text = true →
          occursHere second.spelling text = false := by
    rw [List.pairwise_map]
    refine distinct.imp fun different text firstOccurs => ?_
    rw [← Bool.not_eq_true]
    exact fun secondOccurs => different (eq_of_occursHere firstOccurs secondOccurs)
  refine ((Pursuit.perm_ranked spelling (active lessSyntax)).pairwise_iff ?_).mpr exclusive
  intro first second never text secondOccurs
  rw [← Bool.not_eq_true]
  intro firstOccurs
  rw [never text firstOccurs] at secondOccurs
  cases secondOccurs

/-- The only marker that can overlap itself is the one of line comments. -/
theorem eq_lineComment_of_overlap {marker : Marker} {source : Text} {first second : Nat}
    (firstOccurs : occursHere marker.spelling (source.drop first) = true)
    (secondOccurs : occursHere marker.spelling (source.drop second) = true)
    (before : first < second) (overlap : second < first + marker.spelling.length) :
    marker = .lineComment ∧ second = first + 1 := by
  obtain ⟨shift, rfl⟩ := Nat.exists_eq_add_of_lt before
  have inside : shift + 1 < marker.spelling.length := by omega
  have head := foldCase_getElem?_of_occursHere secondOccurs (length_spelling_pos marker)
  have inner := foldCase_getElem?_of_occursHere firstOccurs inside
  rw [Nat.add_zero, Nat.add_assoc, inner] at head
  have table : ∀ marker ∈ active true, ∀ shift < 3, shift + 1 < marker.spelling.length →
      marker.spelling[shift + 1]? = marker.spelling[0]? →
      marker = .lineComment ∧ shift = 0 := by decide
  have short : ∀ marker ∈ active true, marker.spelling.length ≤ 4 := by decide
  have bound := short marker (mem_active_true marker)
  obtain ⟨isLine, rfl⟩ := table marker (mem_active_true marker) shift (by omega) inside head
  exact ⟨isLine, rfl⟩

end Marker
end Stylesheet
