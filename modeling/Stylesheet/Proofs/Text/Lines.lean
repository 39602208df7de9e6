import Mathlib.Data.List.TakeWhile
import Stylesheet.Line

/-!
# The lines of offsets

An offset has the line of the first place at or behind it where no blank stands. A later
offset stands for the same place or for one further on, however many line breaks are among
the blanks in between. So lines never go back.
-/

namespace Stylesheet

/-- The characters that are passed over before lines are counted. -/
def lineBlanks : List Char := [' ', '\t', '\n', '\r', '\x00', '\x0b']

theorem isLineBlank_iff {character : Char} :
    isLineBlank character = true ↔ character ∈ lineBlanks := by
  simp [isLineBlank, lineBlanks, or_assoc]

/-- The offset of a source that is closest to an integer. -/
def clamped (source : Text) (offset : Int) : Int :=
  max 0 (min offset source.length)

/-- The place whose line an offset has: nothing but blanks stands before it, and no blank at
it. It may be the end of the source. -/
structure StandsFor (source : Text) (offset : Int) (place : Nat) : Prop where
  behind : clamped source offset ≤ place
  inside : place ≤ source.length
  passed : ∀ index : Nat, clamped source offset ≤ index → index < place →
    ∃ blank ∈ lineBlanks, source[index]? = some blank
  stops : ∀ character ∈ source[place]?, character ∉ lineBlanks

namespace StandsFor

/-- A later offset stands for no earlier place: that place would have been passed over on the
way from the earlier offset, but no blank stands there. -/
theorem place_le {source : Text} {first second : Int} {firstPlace secondPlace : Nat}
    (firstStands : StandsFor source first firstPlace)
    (secondStands : StandsFor source second secondPlace) (ordered : first ≤ second) :
    firstPlace ≤ secondPlace := by
  refine Nat.le_of_not_lt fun before => ?_
  have clamps : clamped source first ≤ clamped source second := by
    unfold clamped
    omega
  obtain ⟨blank, isBlank, here⟩ :=
    firstStands.passed secondPlace (Int.le_trans clamps secondStands.behind) before
  exact secondStands.stops blank here isBlank

theorem of_append {front blanks rest : Text} {offset : Int}
    (clamps : clamped (front ++ (blanks ++ rest)) offset = front.length)
    (areBlank : ∀ character ∈ blanks, character ∈ lineBlanks)
    (stops : ∀ character ∈ rest.head?, character ∉ lineBlanks) :
    StandsFor (front ++ (blanks ++ rest)) offset (front.length + blanks.length) where
  behind := by omega
  inside := by
    rw [List.length_append, List.length_append]
    omega
  passed index behind before := by
    have within : index - front.length < blanks.length := by omega
    refine ⟨blanks[index - front.length], areBlank _ (List.getElem_mem within), ?_⟩
    rw [List.getElem?_append_right (by omega), List.getElem?_append_left within,
      List.getElem?_eq_getElem within]
  stops := by
    have place : (front ++ (blanks ++ rest))[front.length + blanks.length]? = rest.head? := by
      rw [← List.append_assoc, ← List.length_append, List.getElem?_append_right (Nat.le_refl _),
        Nat.sub_self, List.head?_eq_getElem?]
    rw [place]
    exact stops

end StandsFor

/-- The line of an offset is found by counting the line breaks before the place that it
stands for. -/
theorem exists_standsFor (source : Text) (offset : Int) :
    ∃ place, StandsFor source offset place ∧
      lineNumber source offset = 1 + (source.take place).count '\n' := by
  let front := source.take offset.toNat
  let blanks := (source.drop offset.toNat).takeWhile isLineBlank
  let rest := (source.drop offset.toNat).dropWhile isLineBlank
  have split : front ++ (blanks ++ rest) = source := by
    rw [List.takeWhile_append_dropWhile, List.take_append_drop]
  have clamps : clamped source offset = front.length := by
    rw [clamped, List.length_take]
    omega
  have areBlank (character : Char) (member : character ∈ blanks) : character ∈ lineBlanks :=
    isLineBlank_iff.mp (List.mem_takeWhile_imp member)
  have stops (character : Char) (first : character ∈ rest.head?) : character ∉ lineBlanks := by
    have visible := List.head?_dropWhile_not isLineBlank (source.drop offset.toNat)
    rw [show (source.drop offset.toNat).dropWhile isLineBlank = rest from rfl, first] at visible
    simpa [← isLineBlank_iff] using visible
  have counted : source.take (front.length + blanks.length) = front ++ blanks := by
    rw [← split, ← List.append_assoc, ← List.length_append, List.take_left]
  refine ⟨front.length + blanks.length, ?_, ?_⟩
  · rw [← split] at clamps ⊢
    exact .of_append clamps areBlank stops
  · rw [counted, lineNumber, Nat.add_comm]

/-- Lines are numbered from one up to one more than there are line breaks, and never go back
from an offset to a later one. The line of an offset is that of the place it stands for. -/
theorem lineNumber_ascends (source : Text) {first second : Int} (ordered : first ≤ second) :
    (1 ≤ lineNumber source first ∧ lineNumber source first ≤ lineNumber source second ∧
        lineNumber source second ≤ 1 + source.count '\n') ∧
      ∃ place, StandsFor source first place ∧
        lineNumber source first = 1 + (source.take place).count '\n' := by
  obtain ⟨firstPlace, firstStands, firstLine⟩ := exists_standsFor source first
  obtain ⟨secondPlace, secondStands, secondLine⟩ := exists_standsFor source second
  have further := firstStands.place_le secondStands ordered
  have lines := (List.take_sublist_take_left (l := source) further).count_le '\n'
  have all := (List.take_sublist secondPlace source).count_le '\n'
  exact ⟨⟨by omega, by omega, by omega⟩, firstPlace, firstStands, firstLine⟩

theorem lineNumber_ascends_blanks :
    let source := "a;\n \n\x0b\u0085\nb".toList
    (2 : Int) ≤ 7 ∧ (lineNumber source 2 = 3 ∧ lineNumber source 7 = 4) ∧
      (1 ≤ lineNumber source 2 ∧ lineNumber source 2 ≤ lineNumber source 7 ∧
          lineNumber source 7 ≤ 1 + source.count '\n') ∧
        ∃ place, StandsFor source 2 place ∧
          lineNumber source 2 = 1 + (source.take place).count '\n' :=
  ⟨by decide, by decide, lineNumber_ascends _ (by decide)⟩

end Stylesheet
