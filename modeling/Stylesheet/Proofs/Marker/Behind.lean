import Stylesheet.Proofs.Scan.Astride

/-!
# Markers behind a character

A character in front of a text may begin a marker, and else it changes no markers of the
text. The one exception are three slashes in the extended syntax: the second one cannot
begin a line comment any more if the first one does.
-/

namespace Stylesheet
namespace Marker

namespace Pursuit

variable {Mark : Type} {pursuit : Pursuit Mark}

/-- What is still to be passed over does not matter if nothing occurs there. -/
theorem trail_of_quiet {offset : Nat} {text : Text}
    (quiet : ∀ index < pursuit.pending, occursHere pursuit.spelling (text.drop index) = false) :
    pursuit.trail offset text = pursuit.rested.trail offset text := by
  induction text generalizing pursuit offset with
  | nil => rfl
  | cons character rest induction =>
      obtain ⟨mark, spelling, pending⟩ := pursuit
      cases pending with
      | zero => rfl
      | succ pending =>
          have nothing : occursHere spelling (character :: rest) = false := quiet 0 (by simp)
          have later := @induction ⟨mark, spelling, pending⟩ (offset + 1) fun index before =>
            quiet (index + 1) (Nat.succ_lt_succ before)
          simpa [trail, isHit, advance, rested, nothing] using later

theorem trail_succ (pursuit : Pursuit Mark) (offset : Nat) (text : Text) :
    pursuit.trail (offset + 1) text = (pursuit.trail offset text).map (1 + ·) := by
  induction text generalizing pursuit offset with
  | nil => rfl
  | cons character rest induction =>
      rw [trail, trail, induction, List.map_append]
      congr 1
      split <;> simp [Nat.add_comm]

end Pursuit

variable {lessSyntax : Bool} {character : Char} {rest : Text}

theorem isPrefix_slashes (first : occursHere lineComment.spelling (character :: rest) = true)
    (second : occursHere lineComment.spelling (rest.drop 0) = true) :
    "///".toList <+: character :: rest := by
  obtain ⟨later, split⟩ := isPrefix_of_occursHere first (by decide)
  obtain ⟨last, behind⟩ := isPrefix_of_occursHere second (by decide)
  obtain ⟨rfl, rfl⟩ := List.cons.inj split
  obtain ⟨-, rfl⟩ := List.cons.inj behind
  exact ⟨last, rfl⟩

/-- The next hits of a marker are the same behind a hit of it, but for three slashes. -/
theorem trail_advance {marker : Marker} (isActive : marker ∈ active lessSyntax)
    (noSlashes : lessSyntax = true → ¬"///".toList <+: character :: rest) (offset : Nat) :
    Pursuit.trail (Pursuit.advance ⟨marker, marker.spelling, 0⟩ (character :: rest)) offset rest =
      Pursuit.trail ⟨marker, marker.spelling, 0⟩ offset rest := by
  have quiet : ∀ index <
      (Pursuit.advance ⟨marker, marker.spelling, 0⟩ (character :: rest)).pending,
        occursHere marker.spelling (rest.drop index) = false := by
    intro index before
    by_contra occurs
    rw [Bool.not_eq_false] at occurs
    by_cases hit : (Pursuit.mk marker marker.spelling 0).isHit (character :: rest) = true
    · rw [Pursuit.advance_pending_of_isHit hit] at before
      have overlaps := @eq_lineComment_of_overlap marker (character :: rest) 0 (index + 1)
        (Pursuit.isHit_iff.mp hit).2 occurs (Nat.succ_pos index) (by dsimp only at before; omega)
      obtain ⟨rfl, atFirst⟩ := overlaps
      obtain rfl : index = 0 := by omega
      refine noSlashes ?_ (isPrefix_slashes (Pursuit.isHit_iff.mp hit).2 occurs)
      cases lessSyntax with
      | true => rfl
      | false => exact absurd isActive (by decide)
    · rw [Pursuit.advance_pending_of_not_isHit hit] at before
      exact Nat.not_lt_zero _ before
  have passed := @Pursuit.trail_of_quiet _
    (Pursuit.advance ⟨marker, marker.spelling, 0⟩ (character :: rest)) offset rest
    (by simpa using quiet)
  rw [passed, Pursuit.rested_advance]
  rfl

theorem listed_cons (noSlashes : lessSyntax = true → ¬"///".toList <+: character :: rest) :
    listed lessSyntax (character :: rest) =
      ((front? lessSyntax (character :: rest)).toList.map fun marker => (marker, 0)) ++
        (listed lessSyntax rest).map (moved 1) := by
  refine eq_of_mem_iff (pairwise_occurrences_active lessSyntax _) ?_ ?_
  · refine List.pairwise_append.mpr ⟨?_, ?_, ?_⟩
    · cases front? lessSyntax (character :: rest) <;> simp
    · exact List.pairwise_map.mpr ((pairwise_occurrences_active lessSyntax rest).imp
        (Nat.add_lt_add_left · 1))
    · intro first isFirst second isSecond
      obtain ⟨marker, -, rfl⟩ := List.mem_map.mp isFirst
      obtain ⟨inner, -, rfl⟩ := List.mem_map.mp isSecond
      exact Nat.lt_of_lt_of_le Nat.zero_lt_one (Nat.le_add_right 1 inner.2)
  · rintro ⟨marker, offset⟩
    have passed (isActive : marker ∈ active lessSyntax) :
        Pursuit.trail (Pursuit.advance ⟨marker, marker.spelling, 0⟩ (character :: rest)) 1 rest =
          (Pursuit.trail ⟨marker, marker.spelling, 0⟩ 0 rest).map (1 + ·) := by
      rw [trail_advance isActive noSlashes, Pursuit.trail_succ]
    rw [listed, mem_occurrences_iff, List.mem_append, List.mem_map, List.mem_map]
    constructor
    · rintro ⟨isActive, found⟩
      rw [Pursuit.trail, List.mem_append] at found
      rcases found with here | later
      · split at here
        next hit =>
          refine .inl ⟨marker, ?_, by rw [List.mem_singleton.mp here]⟩
          exact Option.mem_toList.mpr
            (front?_eq_some_iff.mpr ⟨isActive, (Pursuit.isHit_iff.mp hit).2⟩)
        next => cases here
      · rw [passed isActive, List.mem_map] at later
        obtain ⟨inner, found, rfl⟩ := later
        exact .inr ⟨(marker, inner), mem_occurrences_iff.mpr ⟨isActive, found⟩, rfl⟩
    · rintro (⟨found, isFront, same⟩ | ⟨⟨found, inner⟩, isLater, same⟩)
      · cases same
        obtain ⟨isActive, occurs⟩ := front?_eq_some_iff.mp (Option.mem_toList.mp isFront)
        refine ⟨isActive, ?_⟩
        rw [Pursuit.trail, if_pos (Pursuit.isHit_iff.mpr ⟨rfl, occurs⟩)]
        exact List.mem_append_left _ (List.mem_singleton_self 0)
      · cases same
        obtain ⟨isActive, found⟩ := mem_occurrences_iff.mp isLater
        refine ⟨isActive, ?_⟩
        rw [Pursuit.trail, passed isActive]
        exact List.mem_append_right _ (List.mem_map_of_mem found)

end Marker
end Stylesheet
