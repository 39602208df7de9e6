import Stylesheet.Proofs.Marker.Front

/-!
# Markers on both sides of a seam

Where no marker reaches over from one text into the next, the markers of both texts
together are those of the first and then those of the second, moved behind it.
-/

namespace Stylesheet
namespace Marker

theorem occursHere_append_of_occursHere {spelling text : Text} (more : Text)
    (occurs : occursHere spelling text = true) : occursHere spelling (text ++ more) = true := by
  unfold occursHere at occurs ⊢
  split at occurs
  next folds =>
    rw [if_pos folds]
    rw [List.isPrefixOf_iff_prefix] at occurs ⊢
    rw [List.take_append, List.map_append]
    exact occurs.trans (List.prefix_append ..)
  next asWritten =>
    rw [if_neg asWritten]
    rw [List.isPrefixOf_iff_prefix] at occurs ⊢
    exact occurs.trans (List.prefix_append ..)

/-- A marker with its offset, moved to a later place. -/
def moved {Mark : Type} (distance : Nat) (entry : Mark × Nat) : Mark × Nat :=
  (entry.1, distance + entry.2)

theorem map_moved_zero {Mark : Type} (entries : List (Mark × Nat)) :
    entries.map (moved 0) = entries := by
  refine (List.map_congr_left fun entry _ => ?_).trans (List.map_id entries)
  rw [moved, Nat.zero_add]
  rfl

namespace Pursuit

variable {Mark : Type}

/-- No hit of a marker at the end of a text reaches into the text behind it. -/
def Stops (spelling front back : Text) : Prop :=
  ∀ before tail, front = before ++ tail → tail ≠ [] →
    occursHere spelling (tail ++ back) = true →
      occursHere spelling tail = true ∧ spelling.length ≤ tail.length

theorem Stops.tail {spelling back rest : Text} {character : Char}
    (stops : Stops spelling (character :: rest) back) : Stops spelling rest back := by
  intro before tail split notEmpty occurs
  exact stops (character :: before) tail (by rw [split]; rfl) notEmpty occurs

theorem hits_moved (pursuits : List (Pursuit Mark)) (distance offset : Nat) (text : Text) :
    hits pursuits (distance + offset) text = (hits pursuits offset text).map (moved distance) := by
  induction text generalizing pursuits offset with
  | nil => rfl
  | cons character rest induction =>
      rw [hits, hits, List.map_append, Nat.add_assoc, induction, List.map_map]
      rfl

/-- A pursuit that has nothing to pass over. -/
def rested (pursuit : Pursuit Mark) : Pursuit Mark :=
  { pursuit with pending := 0 }

@[simp] theorem rested_advance (pursuit : Pursuit Mark) (text : Text) :
    (pursuit.advance text).rested = pursuit.rested := by
  unfold advance rested
  split <;> rfl

theorem hits_append {front back : Text} {pursuits : List (Pursuit Mark)} (offset : Nat)
    (fits : ∀ pursuit ∈ pursuits, pursuit.pending ≤ front.length)
    (stops : ∀ pursuit ∈ pursuits, Stops pursuit.spelling front back) :
    hits pursuits offset (front ++ back) =
      hits pursuits offset front ++ hits (pursuits.map rested) (offset + front.length) back := by
  induction front generalizing pursuits offset with
  | nil =>
      have idle : pursuits.map rested = pursuits := by
        refine (List.map_congr_left fun pursuit member => ?_).trans (List.map_id pursuits)
        have nothing := Nat.le_zero.mp (fits pursuit member)
        obtain ⟨mark, spelling, pending⟩ := pursuit
        cases nothing
        rfl
      rw [idle]
      rfl
  | cons character rest induction =>
      have sameHit : ∀ pursuit ∈ pursuits,
          pursuit.isHit (character :: rest ++ back) = pursuit.isHit (character :: rest) := by
        intro pursuit member
        rw [Bool.eq_iff_iff, isHit_iff, isHit_iff]
        refine and_congr_right fun _ => ⟨fun occurs => ?_, fun occurs => ?_⟩
        · exact (stops pursuit member [] _ rfl (by simp) occurs).1
        · exact occursHere_append_of_occursHere back occurs
      have sameAdvance : ∀ pursuit ∈ pursuits,
          pursuit.advance (character :: rest ++ back) = pursuit.advance (character :: rest) := by
        intro pursuit member
        rw [advance, advance, sameHit pursuit member]
      have fitsLater : ∀ pursuit ∈ pursuits.map (·.advance (character :: rest)),
          pursuit.pending ≤ rest.length := by
        intro advanced member
        obtain ⟨pursuit, isPursuit, rfl⟩ := List.mem_map.mp member
        by_cases hit : pursuit.isHit (character :: rest) = true
        · have inside := (stops pursuit isPursuit [] _ rfl (by simp)
            (occursHere_append_of_occursHere back (isHit_iff.mp hit).2)).2
          rw [advance_pending_of_isHit hit]
          rw [List.length_cons] at inside
          omega
        · have inside := fits pursuit isPursuit
          rw [advance_pending_of_not_isHit hit]
          rw [List.length_cons] at inside
          omega
      have stopsLater : ∀ pursuit ∈ pursuits.map (·.advance (character :: rest)),
          Stops pursuit.spelling rest back := by
        intro advanced member
        obtain ⟨pursuit, isPursuit, rfl⟩ := List.mem_map.mp member
        rw [advance_spelling]
        exact (stops pursuit isPursuit).tail
      have later := induction (offset + 1) fitsLater stopsLater
      have total : offset + 1 + rest.length = offset + (rest.length + 1) := by omega
      have restedLater : (pursuits.map (·.advance (character :: rest))).map rested =
          pursuits.map rested := by
        rw [List.map_map]
        exact List.map_congr_left fun pursuit _ => rested_advance pursuit _
      rw [List.cons_append, hits, hits, ← List.cons_append,
        List.filter_congr fun pursuit member => sameHit pursuit member,
        List.map_congr_left sameAdvance, later, restedLater, total, List.append_assoc]
      rfl

end Pursuit

/-! ## Seams -/

/-- The active markers of a text, with their offsets. -/
def listed (lessSyntax : Bool) (text : Text) : List (Marker × Nat) :=
  occurrences spelling (active lessSyntax) text

/-- No marker reaches over from one text into the next. -/
def Seam (lessSyntax : Bool) (front back : Text) : Prop :=
  ∀ marker ∈ active lessSyntax, Pursuit.Stops marker.spelling front back

variable {lessSyntax : Bool} {front back : Text}

theorem listed_append (seam : Seam lessSyntax front back) :
    listed lessSyntax (front ++ back) =
      listed lessSyntax front ++ (listed lessSyntax back).map (moved front.length) := by
  have idle : ∀ pursuit ∈ Pursuit.ranked spelling (active lessSyntax),
      ∃ marker ∈ active lessSyntax, pursuit = ⟨marker, marker.spelling, 0⟩ := by
    intro pursuit member
    obtain ⟨marker, isActive, equal⟩ :=
      List.mem_map.mp ((Pursuit.perm_ranked spelling (active lessSyntax)).mem_iff.mp member)
    exact ⟨marker, isActive, equal.symm⟩
  have rested : (Pursuit.ranked spelling (active lessSyntax)).map Pursuit.rested =
      Pursuit.ranked spelling (active lessSyntax) := by
    refine (List.map_congr_left fun pursuit member => ?_).trans (List.map_id _)
    obtain ⟨marker, -, rfl⟩ := idle pursuit member
    rfl
  have fits : ∀ pursuit ∈ Pursuit.ranked spelling (active lessSyntax),
      pursuit.pending ≤ front.length := by
    intro pursuit member
    obtain ⟨marker, -, rfl⟩ := idle pursuit member
    exact Nat.zero_le _
  have stops : ∀ pursuit ∈ Pursuit.ranked spelling (active lessSyntax),
      Pursuit.Stops pursuit.spelling front back := by
    intro pursuit member
    obtain ⟨marker, isActive, rfl⟩ := idle pursuit member
    exact seam marker isActive
  have split := Pursuit.hits_append 0 fits stops
  rw [rested, Nat.zero_add] at split
  have shifted := Pursuit.hits_moved (Pursuit.ranked spelling (active lessSyntax))
    front.length 0 back
  rw [Nat.add_zero] at shifted
  rw [listed, listed, listed, occurrences, occurrences, occurrences, split, shifted]

/-- Whether no active marker goes on behind its first character with a character. -/
def opens (lessSyntax : Bool) (character : Char) : Bool :=
  (active lessSyntax).all fun marker => !marker.spelling.tail.contains (foldCase character)

/-- Whether no active marker goes on behind a character. -/
def ends (lessSyntax : Bool) (character : Char) : Bool :=
  (active lessSyntax).all fun marker => !marker.spelling.dropLast.contains (foldCase character)

theorem seam_of_opens (head : ∀ first ∈ back.head?, opens lessSyntax first = true) :
    Seam lessSyntax front back := by
  rintro marker isActive before tail - notEmpty occurs
  by_cases fits : marker.spelling.length ≤ tail.length
  · exact ⟨occursHere_of_append occurs fits, fits⟩
  · exfalso
    cases back with
    | nil =>
        rw [List.append_nil] at occurs
        exact fits (length_le_of_occursHere occurs)
    | cons first back =>
        have notInside := List.all_eq_true.mp (head first rfl) marker isActive
        obtain ⟨width, length⟩ := Nat.exists_eq_succ_of_ne_zero fun none_ =>
          notEmpty (List.length_eq_zero_iff.mp none_)
        have spelled := @foldCase_getElem?_of_occursHere _ _ 0 tail.length
          occurs (by omega)
        rw [Nat.zero_add, List.getElem?_append_right (Nat.le_refl _), Nat.sub_self, length,
          Nat.succ_eq_add_one, ← List.getElem?_tail] at spelled
        simp [List.mem_of_getElem? spelled.symm] at notInside

theorem seam_of_ends {before : Text} {last : Char} (finish : ends lessSyntax last = true) :
    Seam lessSyntax (before ++ [last]) back := by
  intro marker isActive earlier tail split notEmpty occurs
  by_cases fits : marker.spelling.length ≤ tail.length
  · exact ⟨occursHere_of_append occurs fits, fits⟩
  · exfalso
    have notInside := List.all_eq_true.mp finish marker isActive
    obtain ⟨inner, final, rfl⟩ : ∃ inner final, tail = inner ++ [final] :=
      ⟨_, _, (List.dropLast_concat_getLast notEmpty).symm⟩
    obtain rfl : last = final := by
      rw [← List.append_assoc] at split
      exact List.singleton_inj.mp (List.append_inj' split rfl).2
    simp only [List.length_append, List.length_singleton, Nat.not_le] at fits
    have spelled := @foldCase_getElem?_of_occursHere _ _ 0 inner.length
      occurs (by omega)
    have within : marker.spelling.dropLast[inner.length]? = marker.spelling[inner.length]? := by
      rw [List.getElem?_dropLast, if_pos (by omega)]
    rw [← within] at spelled
    rw [Nat.zero_add, List.append_assoc, List.getElem?_append_right (Nat.le_refl _),
      Nat.sub_self] at spelled
    simp [List.mem_of_getElem? spelled.symm] at notInside

end Marker
end Stylesheet
