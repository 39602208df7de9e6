import Stylesheet.Proofs.Marker.Front

/-!
# The listing of markers

Which list the search returns is said here without the search: the list is ordered, every entry
is an occurrence, entries of one marker keep apart, and an occurrence is left out only if an
earlier entry of its marker runs into it. One list alone has these properties, and the search
returns it. The offsets in the listing of the active markers rise strictly, so that ties never
have to be broken there.
-/

namespace Stylesheet
namespace Marker

/-- Whether a written text spells a marker. The case of letters counts, but for the marker of a
url. -/
def Spells (written marker : Text) : Prop :=
  if marker = url.spelling then written.map Char.toLower = marker else written = marker

/-- Whether a marker stands at an offset of a source. -/
def OccursAt (source marker : Text) (offset : Nat) : Prop :=
  ∃ before written behind, source = before ++ written ++ behind ∧ before.length = offset ∧
    Spells written marker

/-- The order in a listing: by offset, at one offset the longer marker first, and of markers of
one length the one that is listed first. -/
def Precedes (markers : List Text) (first second : Text × Nat) : Prop :=
  first.2 < second.2 ∨ first.2 = second.2 ∧
    (second.1.length < first.1.length ∨ first.1.length = second.1.length ∧
      markers.idxOf first.1 < markers.idxOf second.1)

/-- What a list of markers with their offsets has to be. -/
structure IsListing (markers : List Text) (source : Text) (found : List (Text × Nat)) : Prop where
  ordered : found.Pairwise (Precedes markers)
  sound : ∀ marker offset, (marker, offset) ∈ found →
    marker ∈ markers ∧ OccursAt source marker offset
  apart : ∀ marker first second, (marker, first) ∈ found → (marker, second) ∈ found →
    first < second → first + marker.length ≤ second
  complete : ∀ marker ∈ markers, ∀ offset, OccursAt source marker offset →
    (marker, offset) ∉ found →
    ∃ earlier < offset, (marker, earlier) ∈ found ∧ offset < earlier + marker.length

/-! ## Spellings -/

theorem foldCase_eq_toLower (character : Char) : foldCase character = character.toLower := by
  by_cases capital : 'A' ≤ character ∧ character ≤ 'Z'
  · have table : ∀ code < 91, 65 ≤ code →
        foldCase (Char.ofNat code) = (Char.ofNat code).toLower := by decide
    have bounds := bounds_of_capital capital
    have equal := table character.toNat (Nat.lt_succ_of_le bounds.2) bounds.1
    rwa [Char.ofNat_toNat] at equal
  · have isLower : character.toLower = character := dif_neg capital
    rw [foldCase_eq_self capital, isLower]

theorem occursHere_iff_spells {marker text : Text} :
    occursHere marker text = true ↔
      ∃ written behind, text = written ++ behind ∧ Spells written marker := by
  unfold occursHere Spells ignoresCase
  by_cases isUrl : marker = url.spelling
  · have folds : foldCase = Char.toLower := funext foldCase_eq_toLower
    simp only [isUrl, beq_self_eq_true, if_true, List.isPrefixOf_iff_prefix, folds]
    constructor
    · intro isStart
      refine ⟨text.take url.spelling.length, text.drop url.spelling.length,
        (List.take_append_drop ..).symm, (isStart.eq_of_length_le ?_).symm⟩
      rw [List.length_map, List.length_take]
      exact Nat.min_le_left ..
    · rintro ⟨written, behind, rfl, spells⟩
      have size : written.length = url.spelling.length := by rw [← spells, List.length_map]
      rw [← size, List.take_left]
      exact spells ▸ List.prefix_refl _
  · rw [if_neg (by simpa using isUrl)]
    simp only [isUrl, if_false, List.isPrefixOf_iff_prefix]
    constructor
    · rintro ⟨behind, rfl⟩
      exact ⟨marker, behind, rfl, rfl⟩
    · rintro ⟨written, behind, rfl, rfl⟩
      exact List.prefix_append ..

theorem occursAt_iff {source marker : Text} {offset : Nat} :
    OccursAt source marker offset ↔
      offset ≤ source.length ∧ occursHere marker (source.drop offset) = true := by
  rw [occursHere_iff_spells]
  constructor
  · rintro ⟨before, written, behind, rfl, rfl, spells⟩
    refine ⟨by simp, written, behind, ?_, spells⟩
    rw [List.append_assoc, List.drop_left]
  · rintro ⟨inside, written, behind, split, spells⟩
    refine ⟨source.take offset, written, behind, ?_, List.length_take_of_le inside, spells⟩
    rw [List.append_assoc, ← split, List.take_append_drop]

/-- No marker but an empty one stands behind the end. -/
theorem lt_length_of_occursAt {source marker : Text} {offset : Nat} (nonempty : marker ≠ [])
    (occurs : OccursAt source marker offset) : offset < source.length := by
  obtain ⟨before, written, behind, rfl, rfl, spells⟩ := occurs
  have visible : written ≠ [] := by
    rintro rfl
    unfold Spells at spells
    split at spells <;> exact nonempty spells.symm
  have size := List.length_pos_iff.mpr visible
  simp only [List.length_append]
  omega

/-! ## The order of the search -/

namespace Pursuit

variable {Mark : Type}

/-- Longer markers come first; those of one length are ordered by a relation. -/
def Outranks (listed : Mark → Mark → Prop) (first second : Pursuit Mark) : Prop :=
  second.spelling.length < first.spelling.length ∨
    first.spelling.length = second.spelling.length ∧ listed first.mark second.mark

theorem pairwise_insertByLength {listed : Mark → Mark → Prop} {pursuit : Pursuit Mark}
    {pursuits : List (Pursuit Mark)} (sorted : pursuits.Pairwise (Outranks listed))
    (last : ∀ other ∈ pursuits, listed other.mark pursuit.mark) :
    (insertByLength pursuit pursuits).Pairwise (Outranks listed) := by
  induction pursuits with
  | nil => exact List.pairwise_singleton ..
  | cons other others induction =>
      rw [List.pairwise_cons] at sorted
      rw [insertByLength]
      split
      next longer =>
        refine List.pairwise_cons.mpr ⟨fun next member => Or.inl ?_, List.pairwise_cons.mpr sorted⟩
        rcases List.mem_cons.mp member with rfl | member
        · exact longer
        · rcases sorted.1 next member with shorter | ⟨equal, -⟩ <;> omega
      next notLonger =>
        have tail := induction sorted.2 fun next member => last next (List.mem_cons_of_mem _ member)
        refine List.pairwise_cons.mpr ⟨fun next member => ?_, tail⟩
        rcases List.mem_cons.mp ((perm_insertByLength pursuit others).mem_iff.mp member) with
          rfl | member
        · rcases Nat.lt_or_eq_of_le (Nat.le_of_not_lt notLonger) with shorter | equal
          · exact Or.inl shorter
          · exact Or.inr ⟨equal.symm, last other List.mem_cons_self⟩
        · exact sorted.1 next member

/-- The ranking keeps the order of markers of one length. -/
theorem pairwise_ranked {spelling : Mark → Text} {marks : List Mark}
    {listed : Mark → Mark → Prop} (inOrder : marks.Pairwise listed) :
    (ranked spelling marks).Pairwise (Outranks listed) := by
  have general (pursuits : List (Pursuit Mark)) (sorted : pursuits.Pairwise (Outranks listed))
      (before : ∀ other ∈ pursuits, ∀ mark ∈ marks, listed other.mark mark) :
      (marks.foldl (fun pursuits mark => insertByLength ⟨mark, spelling mark, 0⟩ pursuits)
        pursuits).Pairwise (Outranks listed) := by
    induction marks generalizing pursuits with
    | nil => exact sorted
    | cons mark marks induction =>
        rw [List.pairwise_cons] at inOrder
        apply induction inOrder.2
        · exact pairwise_insertByLength sorted fun other member =>
            before other member mark List.mem_cons_self
        · intro other member later isLater
          rcases List.mem_cons.mp ((perm_insertByLength _ pursuits).mem_iff.mp member) with
            rfl | member
          · exact inOrder.1 later isLater
          · exact before other member later (List.mem_cons_of_mem _ isLater)
  exact general [] .nil (by simp)

/-- Hits at one offset come in the order of their markers. -/
theorem pairwise_hits_of_pairwise (ranks : Mark → Mark → Prop) {pursuits : List (Pursuit Mark)}
    (offset : Nat) (text : Text)
    (sorted : pursuits.Pairwise fun first second => ranks first.mark second.mark) :
    (hits pursuits offset text).Pairwise fun first second =>
      first.2 < second.2 ∨ first.2 = second.2 ∧ ranks first.1 second.1 := by
  induction text generalizing pursuits offset with
  | nil => exact .nil
  | cons character rest induction =>
      rw [hits, List.pairwise_append]
      refine ⟨?_, induction _ ?_, ?_⟩
      · rw [List.pairwise_map]
        exact (sorted.filter _).imp fun ranked => Or.inr ⟨rfl, ranked⟩
      · rw [List.pairwise_map]
        simpa only [advance_mark] using sorted
      · intro here isHere later isLater
        obtain ⟨pursuit, -, rfl⟩ := List.mem_map.mp isHere
        exact Or.inl (le_of_mem_hits isLater)

end Pursuit

/-- In a list without repetitions, what comes first has the lower index. -/
theorem pairwise_idxOf {markers : List Text} (distinct : markers.Nodup) :
    markers.Pairwise fun first second => markers.idxOf first < markers.idxOf second := by
  rw [List.pairwise_iff_getElem]
  intro first second firstInside secondInside before
  rw [distinct.idxOf_getElem first firstInside, distinct.idxOf_getElem second secondInside]
  exact before

theorem precedes_occurrences {markers : List Text} (distinct : markers.Nodup) (source : Text) :
    (occurrences id markers source).Pairwise (Precedes markers) := by
  let ranks (first second : Text) : Prop :=
    second.length < first.length ∨ first.length = second.length ∧
      markers.idxOf first < markers.idxOf second
  have ranked : (Pursuit.ranked id markers).Pairwise (Pursuit.Outranks _) :=
    Pursuit.pairwise_ranked (pairwise_idxOf distinct)
  refine Pursuit.pairwise_hits_of_pairwise ranks 0 source ?_
  refine ranked.imp_of_mem fun {first second} firstMember secondMember outranks => ?_
  have asSpelled {pursuit : Pursuit Text} (member : pursuit ∈ Pursuit.ranked id markers) :
      pursuit.spelling = pursuit.mark := by
    obtain ⟨mark, -, rfl⟩ :=
      List.mem_map.mp ((Pursuit.perm_ranked id markers).mem_iff.mp member)
    rfl
  unfold Pursuit.Outranks at outranks
  rwa [asSpelled firstMember, asSpelled secondMember] at outranks

/-! ## One listing -/

theorem isListing_occurrences {markers : List Text} (distinct : markers.Nodup)
    (nonempty : ∀ marker ∈ markers, marker ≠ []) (source : Text) :
    IsListing markers source (occurrences id markers source) where
  ordered := precedes_occurrences distinct source
  sound marker offset member := by
    obtain ⟨isMarker, inside, occurs⟩ := occursHere_of_mem_occurrences member
    exact ⟨isMarker, occursAt_iff.mpr ⟨Nat.le_of_lt inside, occurs⟩⟩
  apart _ _ _ firstMember secondMember before :=
    not_overlapping_of_mem_occurrences firstMember secondMember before
  complete marker isMarker offset occurs missing := by
    have inside := lt_length_of_occursAt (nonempty marker isMarker) occurs
    have here : occursHere (id marker) (source.drop offset) = true := (occursAt_iff.mp occurs).2
    rcases mem_occurrences_or_overlapped isMarker inside here with member | overlapped
    · exact absurd member missing
    · exact overlapped

/-- Of two listings each holds what the other holds: whether an occurrence is listed is settled
by the entries in front of it. -/
theorem IsListing.mem_of_mem {markers : List Text} {source : Text}
    {first second : List (Text × Nat)} (isFirst : IsListing markers source first)
    (isSecond : IsListing markers source second) {marker : Text} (offset : Nat)
    (member : (marker, offset) ∈ first) : (marker, offset) ∈ second := by
  induction offset using Nat.strongRecOn generalizing first second with
  | ind offset induction =>
      by_cases listed : (marker, offset) ∈ second
      · exact listed
      · obtain ⟨isMarker, occurs⟩ := isFirst.sound marker offset member
        obtain ⟨earlier, before, entry, overlap⟩ :=
          isSecond.complete marker isMarker offset occurs listed
        have apart := isFirst.apart marker earlier offset
          (induction earlier before isSecond isFirst entry) member before
        omega

theorem Precedes.irrefl (markers : List Text) (hit : Text × Nat) :
    ¬Precedes markers hit hit := by
  unfold Precedes
  omega

theorem Precedes.asymm {markers : List Text} {first second : Text × Nat}
    (precedes : Precedes markers first second) : ¬Precedes markers second first := by
  unfold Precedes at precedes ⊢
  omega

theorem IsListing.unique {markers : List Text} {source : Text} {first second : List (Text × Nat)}
    (isFirst : IsListing markers source first) (isSecond : IsListing markers source second) :
    first = second := by
  have nodup {found : List (Text × Nat)} (isListing : IsListing markers source found) :
      found.Nodup := by
    refine isListing.ordered.imp ?_
    rintro hit _ precedes rfl
    exact Precedes.irrefl markers hit precedes
  have same : first.Perm second := by
    rw [List.perm_ext_iff_of_nodup (nodup isFirst) (nodup isSecond)]
    exact fun hit => ⟨isFirst.mem_of_mem isSecond hit.2, isSecond.mem_of_mem isFirst hit.2⟩
  exact same.eq_of_pairwise (fun _ _ _ _ forth back => absurd back forth.asymm)
    isFirst.ordered isSecond.ordered

/-! ## Active markers -/

/-- Ties between active markers never have to be broken. -/
theorem ascends_occurrences_active (lessSyntax : Bool) (source : Text) :
    (occurrences id ((active lessSyntax).map spelling) source).Pairwise
      fun first second => first.2 < second.2 := by
  have distinct : ((active lessSyntax).map spelling).Nodup := by cases lessSyntax <;> decide
  have exists_of_mem {hit : Text × Nat}
      (member : hit ∈ occurrences id ((active lessSyntax).map spelling) source) :
      ∃ marker, spelling marker = hit.1 ∧
        occursHere (spelling marker) (source.drop hit.2) = true := by
    obtain ⟨isMarker, -, occurs⟩ := occursHere_of_mem_occurrences member
    obtain ⟨marker, -, spelled⟩ := List.mem_map.mp isMarker
    exact ⟨marker, spelled, spelled ▸ occurs⟩
  refine (precedes_occurrences distinct source).imp_of_mem
    fun {first second} firstMember secondMember precedes => ?_
  rcases precedes with before | ⟨tie, ranks⟩
  · exact before
  · obtain ⟨marker, spelled, occurs⟩ := exists_of_mem firstMember
    obtain ⟨other, otherSpelled, otherOccurs⟩ := exists_of_mem secondMember
    rw [tie] at occurs
    rw [← spelled, ← otherSpelled, eq_of_occursHere occurs otherOccurs] at ranks
    omega

/-- The search returns the one listing there is, for every list of markers. In the listing of
the active markers the offsets rise strictly. -/
theorem eq_occurrences_iff_isListing (source : Text) :
    (∀ markers : List Text, markers.Nodup → (∀ marker ∈ markers, marker ≠ []) → ∀ found,
      found = occurrences id markers source ↔ IsListing markers source found) ∧
    ∀ lessSyntax, (occurrences id ((active lessSyntax).map spelling) source).Pairwise
      fun first second => first.2 < second.2 := by
  refine ⟨fun markers distinct nonempty found => ?_, fun lessSyntax =>
    ascends_occurrences_active lessSyntax source⟩
  have isListing := isListing_occurrences distinct nonempty source
  constructor
  · rintro rfl
    exact isListing
  · intro other
    exact other.unique isListing

/-- Slashes that overlap, one marker that begins another, and a url in capital letters beside a
marker that is looked for as it stands. -/
theorem eq_occurrences_iff_isListing_ties :
    let markers := ["/".toList, "//".toList, "URL(".toList, "url(".toList]
    markers.Nodup ∧ (∀ marker ∈ markers, marker ≠ []) ∧
      IsListing markers "///URL(url(".toList
        [("//".toList, 0), ("/".toList, 0), ("/".toList, 1), ("/".toList, 2),
          ("URL(".toList, 3), ("url(".toList, 3), ("url(".toList, 7)] := by
  refine ⟨by decide, by decide, ?_⟩
  exact ((eq_occurrences_iff_isListing _).1 _ (by decide) (by decide) _).mp (by decide +kernel)

end Marker
end Stylesheet
