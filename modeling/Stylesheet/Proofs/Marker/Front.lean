import Stylesheet.Proofs.Marker.Occurrences
import Stylesheet.Proofs.Text.Blank

/-!
# The marker in front of a text

Whether a marker begins at a place depends on the few characters that follow. Text
behind a place matters only if it begins with a character that may stand inside a
marker.
-/

namespace Stylesheet
namespace Marker

/-- The active marker that a text begins with. -/
def front? (lessSyntax : Bool) (text : Text) : Option Marker :=
  (active lessSyntax).find? fun marker => occursHere marker.spelling text

theorem front?_eq_some_iff {lessSyntax : Bool} {marker : Marker} {text : Text} :
    front? lessSyntax text = some marker ↔
      marker ∈ active lessSyntax ∧ occursHere marker.spelling text = true := by
  unfold front?
  constructor
  · intro found
    have occurs := List.find?_some found
    exact ⟨List.mem_of_find?_eq_some found, occurs⟩
  · rintro ⟨isActive, occurs⟩
    cases found : (active lessSyntax).find? fun marker => occursHere marker.spelling text with
    | none => exact absurd occurs (List.find?_eq_none.mp found marker isActive)
    | some other =>
        have otherOccurs := List.find?_some found
        rw [eq_of_occursHere occurs otherOccurs]

theorem front?_eq_none_iff {lessSyntax : Bool} {text : Text} :
    front? lessSyntax text = none ↔
      ∀ marker ∈ active lessSyntax, ¬occursHere marker.spelling text = true := by
  unfold front?
  exact List.find?_eq_none

/-! ## Case -/

theorem foldCase_eq_self {character : Char} (noCapital : ¬('A' ≤ character ∧ character ≤ 'Z')) :
    foldCase character = character := by
  have folds : ('A' ≤ character && character ≤ 'Z') = false := by
    rw [Bool.eq_false_iff]
    intro both
    apply noCapital
    simpa using both
  rw [foldCase, folds]
  rfl

theorem bounds_of_capital {character : Char} (capital : 'A' ≤ character ∧ character ≤ 'Z') :
    65 ≤ character.toNat ∧ character.toNat ≤ 90 :=
  ⟨UInt32.le_iff_toNat_le.mp capital.1, UInt32.le_iff_toNat_le.mp capital.2⟩

/-- Only small letters are reached from another character. -/
theorem eq_of_foldCase {character folded : Char} (equal : foldCase character = folded)
    (noLetter : folded.toNat < 97 ∨ 122 < folded.toNat) : character = folded := by
  by_cases capital : 'A' ≤ character ∧ character ≤ 'Z'
  · exfalso
    have bounds := bounds_of_capital capital
    have folds : ('A' ≤ character && character ≤ 'Z') = true := by simpa using capital
    have code : folded.toNat = character.toNat + 32 := by
      have valid : (character.toNat + 32).isValidChar := Or.inl (by omega)
      rw [← equal, foldCase, if_pos folds, Char.ofNat, dif_pos valid]
      rfl
    omega
  · rwa [foldCase_eq_self capital] at equal

theorem foldCase_of_isBlank {character : Char} (blank : Text.isBlank character = true) :
    foldCase character = character := by
  apply foldCase_eq_self
  intro capital
  have bounds := bounds_of_capital capital
  simp only [Text.isBlank, CodeRange.anyContains, Text.blankRanges, List.any_cons,
    List.any_nil, CodeRange.contains, Bool.or_eq_true, Bool.and_eq_true,
    decide_eq_true_eq, Bool.false_eq_true, or_false] at blank
  omega

/-- All markers may be looked for up to case: only one of them has letters. -/
theorem occursHere_iff {marker : Marker} {text : Text} :
    occursHere marker.spelling text = true ↔ marker.spelling <+: text.map foldCase := by
  refine ⟨spelling_isPrefix_of_occursHere, fun same => ?_⟩
  unfold occursHere
  split
  · rw [List.isPrefixOf_iff_prefix, List.map_take]
    exact List.prefix_take_iff.mpr ⟨same, Nat.le_refl _⟩
  next asWritten =>
    have noLetters : ∀ marker ∈ active true, ¬ignoresCase marker.spelling = true →
        ∀ character ∈ marker.spelling, character.toNat < 97 ∨ 122 < character.toNat := by
      decide
    have plainSpelling := noLetters marker (mem_active_true marker) asWritten
    rw [List.isPrefixOf_iff_prefix]
    generalize marker.spelling = spelling at same plainSpelling
    clear asWritten noLetters
    induction spelling generalizing text with
    | nil => exact List.nil_prefix
    | cons character spelling induction =>
        cases text with
        | nil => simp at same
        | cons head text =>
            rw [List.map_cons, List.cons_prefix_cons] at same
            have equal := eq_of_foldCase same.1.symm (plainSpelling character List.mem_cons_self)
            rw [equal, List.cons_prefix_cons]
            exact ⟨rfl, induction same.2 fun other member =>
              plainSpelling other (List.mem_cons_of_mem _ member)⟩

/-! ## What follows -/

/-- Whether a character cannot stand inside a marker, behind its first character. -/
def inert (character : Char) : Bool :=
  (active false).all fun marker => !marker.spelling.tail.contains (foldCase character)

theorem occursHere_append {marker : Marker} {text : Text} (more : Text)
    (occurs : occursHere marker.spelling text = true) :
    occursHere marker.spelling (text ++ more) = true := by
  rw [occursHere_iff, List.map_append]
  exact (occursHere_iff.mp occurs).trans (List.prefix_append ..)

theorem occursHere_of_append {marker : Marker} {text more : Text}
    (occurs : occursHere marker.spelling (text ++ more) = true)
    (fits : marker.spelling.length ≤ text.length) :
    occursHere marker.spelling text = true := by
  rw [occursHere_iff, List.map_append] at occurs
  exact occursHere_iff.mpr
    (List.prefix_of_prefix_length_le occurs (List.prefix_append ..) (by simpa using fits))

theorem front?_eq_none_of_append {text more : Text} {lessSyntax : Bool}
    (noMarker : front? lessSyntax (text ++ more) = none) : front? lessSyntax text = none := by
  rw [front?_eq_none_iff] at noMarker ⊢
  intro marker isActive occurs
  exact noMarker marker isActive (occursHere_append more occurs)

theorem front?_append_of_eq_some {lessSyntax : Bool} {marker : Marker} {text : Text}
    (more : Text) (found : front? lessSyntax text = some marker) :
    front? lessSyntax (text ++ more) = some marker := by
  rw [front?_eq_some_iff] at found ⊢
  exact ⟨found.1, occursHere_append more found.2⟩

/-- No marker comes up where text is put behind another that begins inertly. -/
theorem front?_append_eq_none {character : Char} {rest more : Text}
    (noMarker : front? false (character :: rest) = none)
    (isInert : ∀ head ∈ more.head?, inert head = true) :
    front? false (character :: rest ++ more) = none := by
  rw [front?_eq_none_iff] at noMarker ⊢
  intro marker isActive occurs
  by_cases fits : marker.spelling.length ≤ (character :: rest).length
  · exact noMarker marker isActive (occursHere_of_append occurs fits)
  · cases more with
    | nil =>
        rw [List.append_nil] at occurs
        exact noMarker marker isActive occurs
    | cons head more =>
        have headInert := isInert head rfl
        have notInside := List.all_eq_true.mp headInert marker isActive
        have inside : (marker.spelling.tail)[rest.length]? = some (foldCase head) := by
          obtain ⟨later, split⟩ := occursHere_iff.mp occurs
          have index : rest.length + 1 < marker.spelling.length := by
            simp only [List.length_cons] at fits
            omega
          rw [List.getElem?_tail, ← List.getElem?_append_left index, split]
          simp
        have member := List.mem_of_getElem? inside
        simp [member] at notInside

/-! ## Single characters -/

theorem front?_eq_none_of_first {character : Char} {rest : Text}
    (noFirst : ∀ marker ∈ active false, marker.spelling.head? ≠ some (foldCase character)) :
    front? false (character :: rest) = none := by
  rw [front?_eq_none_iff]
  intro marker isActive occurs
  obtain ⟨later, split⟩ := occursHere_iff.mp occurs
  cases spelled : marker.spelling with
  | nil =>
      have positive := length_spelling_pos marker
      rw [spelled] at positive
      cases positive
  | cons head tail =>
      rw [spelled, List.map_cons, List.cons_append] at split
      apply noFirst marker isActive
      rw [spelled, (List.cons.inj split).1]
      rfl

theorem isBlank_of_mem_spelling {marker : Marker} (isActive : marker ∈ active false)
    {character : Char} (member : character ∈ marker.spelling) :
    Text.isBlank character = false := by
  have visible : ∀ other ∈ active false, ∀ inner ∈ other.spelling,
      Text.isBlank inner = false := by decide
  exact visible marker isActive character member

theorem front?_eq_none_of_isBlank {character : Char} {rest : Text}
    (blank : Text.isBlank character = true) : front? false (character :: rest) = none := by
  apply front?_eq_none_of_first
  rw [foldCase_of_isBlank blank]
  intro marker isActive first
  have visible := isBlank_of_mem_spelling isActive (List.mem_of_mem_head? first)
  rw [visible] at blank
  cases blank

theorem inert_of_isBlank {character : Char} (blank : Text.isBlank character = true) :
    inert character = true := by
  rw [inert, foldCase_of_isBlank blank, List.all_eq_true]
  intro marker isActive
  rw [Bool.not_eq_true', ← Bool.not_eq_true, List.contains_iff_mem]
  intro member
  have visible := isBlank_of_mem_spelling isActive (List.mem_of_mem_tail member)
  rw [visible] at blank
  cases blank

end Marker
end Stylesheet
