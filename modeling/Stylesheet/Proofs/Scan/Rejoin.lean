import Stylesheet.Proofs.Scan.Abreast

/-!
# Scans whose sources end alike

Behind the place where two sources become the same, their scans find the same markers.
If they come there abreast, they stay abreast to the end.
-/

namespace Stylesheet
namespace Scan

namespace Pair

variable (options : TokenizeOptions) (firstFront secondFront rest : Text)

/-- The scans of two sources that end with the same text. -/
def ending : Pair where
  options := options
  firstSource := firstFront ++ rest
  secondSource := secondFront ++ rest
  firstBase := firstFront.length
  secondBase := secondFront.length
  width := rest.length
  sameText := by simp

variable {options firstFront secondFront rest}

theorem drop_append_add (front rest : Text) (offset : Nat) :
    (front ++ rest).drop (front.length + offset) = rest.drop offset := by
  rw [← List.drop_drop, List.drop_left]

theorem markerAt?_append (front rest : Text) (offset : Nat) :
    markerAt? ⟨options, front ++ rest⟩ (front.length + offset) =
      Marker.front? options.lessSyntax (rest.drop offset) := by
  rw [markerAt?, drop_append_add]
  rfl

theorem sees_ending {marker : Marker} {offset : Nat}
    (begins : Marker.front? options.lessSyntax (rest.drop offset) = some marker) :
    (ending options firstFront secondFront rest).Sees marker offset := by
  have occurs := (Marker.front?_eq_some_iff.mp begins).2
  have length := count_glimpse_le options occurs
  have inside := Marker.length_le_of_occursHere occurs
  have positive := Marker.length_spelling_pos marker
  rw [List.length_drop] at length inside
  constructor <;> simp only [ending, drop_append_add]
  · rw [first, markerAt?_append, begins]
  · rw [second, markerAt?_append, begins]
  · omega

theorem mem_listed {lessSyntax : Bool} {text : Text} {entry : Marker × Nat}
    (member : entry ∈ Marker.listed lessSyntax text) :
    Marker.front? lessSyntax (text.drop entry.2) = some entry.1 := by
  obtain ⟨isActive, -, occurs⟩ := Marker.occursHere_of_mem_occurrences member
  exact Marker.front?_eq_some_iff.mpr ⟨isActive, occurs⟩

end Pair

/-- What is left of two sources that end alike leads to the same. -/
theorem rejoin {options : TokenizeOptions} {firstFront secondFront rest : Text}
    {likeness : Likeness (.ending options firstFront secondFront rest)} {first second : State}
    (abreast : Abreast likeness 0 first second) :
    likeness.Matches
      ((course ⟨options, firstFront ++ rest⟩ first
        ((Marker.listed options.lessSyntax rest).map (Marker.moved firstFront.length))).andThen
          (endSource ⟨options, firstFront ++ rest⟩))
      ((course ⟨options, secondFront ++ rest⟩ second
        ((Marker.listed options.lessSyntax rest).map (Marker.moved secondFront.length))).andThen
          (endSource ⟨options, secondFront ++ rest⟩)) := by
  obtain ⟨⟨later, next⟩, here⟩ := abreast.course (Marker.listed options.lessSyntax rest) _
    (fun entry member => (Pair.sees_ending (Pair.mem_listed member)).firstBegins)
    (fun front marker offset back split _ _ _ => Pair.sees_ending
      (@Pair.mem_listed _ _ (marker, offset) (by rw [split]; simp))) (Int.le_refl _)
  exact here.andThen (next.endSource List.length_append List.length_append)

end Scan
end Stylesheet
