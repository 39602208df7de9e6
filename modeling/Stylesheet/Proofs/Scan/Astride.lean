import Mathlib.Data.List.Sort
import Stylesheet.Proofs.Scan.Outset
import Stylesheet.Proofs.Scan.Rejoin
import Stylesheet.Proofs.Scan.Standing

/-!
# Markers astride a seam

In plain stylesheets markers never overlap, so every one that occurs is listed. Where two
texts are put together, the markers of both stay, and at most one more comes up, which
begins in the first text and ends in the second.
-/

namespace Stylesheet
namespace Marker

/-- A marker ends before the next one begins. -/
theorem apart_of_front? {text : Text} {first second : Marker} {start stop : Nat}
    (firstBegins : front? false (text.drop start) = some first)
    (secondBegins : front? false (text.drop stop) = some second) (before : start < stop) :
    start + first.spelling.length ≤ stop := by
  obtain ⟨firstActive, firstOccurs⟩ := front?_eq_some_iff.mp firstBegins
  obtain ⟨secondActive, secondOccurs⟩ := front?_eq_some_iff.mp secondBegins
  by_contra overlap
  obtain ⟨shift, rfl⟩ := Nat.exists_eq_add_of_lt before
  have inner := foldCase_getElem?_of_occursHere firstOccurs
    (by omega : shift + 1 < first.spelling.length)
  have head := foldCase_getElem?_of_occursHere secondOccurs (length_spelling_pos second)
  rw [Nat.add_zero, Nat.add_assoc, inner] at head
  have table : ∀ first ∈ active false, ∀ second ∈ active false, ∀ shift < 3,
      first.spelling[shift + 1]? = second.spelling[0]? →
        first.spelling.length ≤ shift + 1 := by decide
  have short : ∀ marker ∈ active false, marker.spelling.length ≤ 4 := by decide
  have bound := short first firstActive
  have := table first firstActive second secondActive shift (by omega) head
  omega

theorem mem_listed_false_iff {text : Text} {marker : Marker} {offset : Nat} :
    (marker, offset) ∈ listed false text ↔ front? false (text.drop offset) = some marker :=
  @Scan.mem_markers_iff ⟨{}, text⟩ offset rfl marker

/-- The markers that begin in one text and end in the one behind it. -/
def astride (front back : Text) : List (Marker × Nat) :=
  (listed false (front ++ back)).filter fun entry =>
    entry.2 < front.length ∧ front.length < entry.2 + entry.1.spelling.length

variable {front back : Text}

theorem mem_astride_iff {marker : Marker} {offset : Nat} :
    (marker, offset) ∈ astride front back ↔
      front? false ((front ++ back).drop offset) = some marker ∧ offset < front.length ∧
        front.length < offset + marker.spelling.length := by
  rw [astride, List.mem_filter, mem_listed_false_iff, decide_eq_true_eq]

/-- Where two texts are put together, at most one marker comes up. -/
theorem astride_eq (front back : Text) :
    astride front back = [] ∨ ∃ entry, astride front back = [entry] := by
  have alone : (astride front back).Pairwise fun _ _ => False := by
    refine List.Pairwise.imp_of_mem ?_
      ((pairwise_occurrences_active false (front ++ back)).filter _)
    rintro ⟨first, start⟩ ⟨second, stop⟩ isFirst isSecond before
    obtain ⟨firstBegins, -, past⟩ := mem_astride_iff.mp isFirst
    obtain ⟨secondBegins, inside, -⟩ := mem_astride_iff.mp isSecond
    have := apart_of_front? firstBegins secondBegins before
    omega
  match isAstride : astride front back with
  | [] => exact .inl rfl
  | [entry] => exact .inr ⟨entry, rfl⟩
  | first :: second :: others =>
      rw [isAstride, List.pairwise_cons] at alone
      exact (alone.1 second List.mem_cons_self).elim

theorem eq_of_mem_iff {first second : List (Marker × Nat)}
    (firstRises : first.Pairwise fun earlier later => earlier.2 < later.2)
    (secondRises : second.Pairwise fun earlier later => earlier.2 < later.2)
    (same : ∀ entry, entry ∈ first ↔ entry ∈ second) : first = second := by
  have irrefl : Std.Irrefl fun earlier later : Marker × Nat => earlier.2 < later.2 :=
    ⟨fun entry => Nat.lt_irrefl entry.2⟩
  have antisymm : Std.Antisymm fun earlier later : Marker × Nat => earlier.2 < later.2 :=
    ⟨fun _ _ before after => absurd after (Nat.lt_asymm before)⟩
  exact List.Pairwise.eq_of_mem_iff firstRises secondRises same

/-- The markers of two texts that are put together. -/
theorem listed_false_append (front back : Text) :
    listed false (front ++ back) =
      listed false front ++ (astride front back ++
        (listed false back).map (moved front.length)) := by
  have inFront {marker : Marker} {offset : Nat}
      (listedFront : (marker, offset) ∈ listed false front) :
      front? false ((front ++ back).drop offset) = some marker ∧
        offset + marker.spelling.length ≤ front.length :=
    @Scan.Pair.markerAt?_of_front? {} _ _ _ back (mem_listed_false_iff.mp listedFront)
  refine eq_of_mem_iff (pairwise_occurrences_active false _) ?_ ?_
  · refine List.pairwise_append.mpr ⟨pairwise_occurrences_active false front,
      List.pairwise_append.mpr
        ⟨(pairwise_occurrences_active false _).filter _, ?_, ?_⟩, ?_⟩
    · exact List.pairwise_map.mpr ((pairwise_occurrences_active false back).imp
        (Nat.add_lt_add_left · front.length))
    · rintro ⟨first, start⟩ isFirst entry isSecond
      obtain ⟨inner, -, rfl⟩ := List.mem_map.mp isSecond
      exact Nat.lt_add_right _ (mem_astride_iff.mp isFirst).2.1
    · rintro ⟨first, start⟩ isFirst ⟨second, stop⟩ later
      obtain ⟨firstBegins, fits⟩ := inFront isFirst
      have positive := length_spelling_pos first
      rcases List.mem_append.mp later with isAstride | isSecond
      · obtain ⟨secondBegins, -, past⟩ := mem_astride_iff.mp isAstride
        rcases Nat.lt_trichotomy start stop with before | rfl | behind
        · exact before
        · obtain rfl := Option.some.inj (firstBegins.symm.trans secondBegins)
          omega
        · have := apart_of_front? secondBegins firstBegins behind
          omega
      · obtain ⟨inner, -, same⟩ := List.mem_map.mp isSecond
        have place := congrArg Prod.snd same
        simp only [moved] at place
        omega
  · rintro ⟨marker, offset⟩
    rw [mem_listed_false_iff, List.mem_append, List.mem_append, mem_astride_iff]
    constructor
    · intro begins
      by_cases before : offset < front.length
      · by_cases fits : offset + marker.spelling.length ≤ front.length
        · refine .inl (mem_listed_false_iff.mpr ?_)
          obtain ⟨isActive, occurs⟩ := front?_eq_some_iff.mp begins
          rw [List.drop_append_of_le_length (Nat.le_of_lt before)] at occurs
          exact front?_eq_some_iff.mpr
            ⟨isActive, occursHere_of_append occurs (by rw [List.length_drop]; omega)⟩
        · exact .inr (.inl ⟨begins, before, Nat.not_le.mp fits⟩)
      · obtain ⟨inner, rfl⟩ := Nat.exists_eq_add_of_le (Nat.not_lt.mp before)
        rw [Scan.Pair.drop_append_add] at begins
        exact .inr (.inr (List.mem_map.mpr
          ⟨(marker, inner), mem_listed_false_iff.mpr begins, rfl⟩))
    · rintro (listedFront | isAstride | listedBack)
      · exact (inFront listedFront).1
      · exact isAstride.1
      · obtain ⟨⟨inner, place⟩, isInner, same⟩ := List.mem_map.mp listedBack
        cases same
        rw [Scan.Pair.drop_append_add]
        exact mem_listed_false_iff.mp isInner

end Marker
end Stylesheet
