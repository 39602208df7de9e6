import Stylesheet.Proofs.Scan.Resuming
import Stylesheet.Proofs.Scan.Settled

/-!
# Backslashes that are handled

A backslash that a scan handles is not escaped itself: an even number of backslashes stands
in front of it. This is so in both syntaxes, and whether or not errors are repaired.
-/

namespace Stylesheet

namespace Text

theorem EndsAt.endsOpen_take {text : Text} {count : Nat} {last : Char}
    (ends : text.EndsAt count last) (noBackslash : last ≠ '\\') :
    endsOpen (text.take count) = false := by
  obtain ⟨positive, found⟩ := ends
  obtain ⟨before, rfl⟩ := Nat.exists_eq_succ_of_ne_zero (Nat.pos_iff_ne_zero.mp positive)
  rw [Nat.succ_sub_one] at found
  rw [List.take_add_one, found, Option.toList_some, endsOpen_append_singleton,
    beq_eq_false_iff_ne.mpr noBackslash, Bool.false_and]

end Text

namespace Scan

variable {scan : Scan} {state : State} {marker : Marker} {offset : Nat}

/-- A scan has not left an escape half read, and has all backslashes that it has not consumed
ahead of it. -/
structure Tidy (scan : Scan) (state : State) (entries : List (Marker × Nat)) : Prop where
  whole : ∃ place : Nat, state.cursor = place ∧
    (place < scan.source.length → Text.endsOpen (scan.source.take place) = false)
  ahead : ∀ offset : Nat, state.cursor ≤ offset → scan.source[offset]? = some '\\' →
    (.backslash, offset) ∈ entries

namespace Tidy

variable {entries : List (Marker × Nat)}

theorem start (scan : Scan) : Tidy scan {} scan.markers where
  whole := ⟨0, rfl, fun _ => rfl⟩
  ahead offset _ here := by
    obtain ⟨inside, isBackslash⟩ := List.getElem?_eq_some_iff.mp here
    have occurs : Marker.occursHere Marker.backslash.spelling (scan.source.drop offset) = true := by
      rw [List.drop_eq_getElem_cons inside, isBackslash]
      rfl
    have isActive : Marker.backslash ∈ Marker.active scan.options.lessSyntax := by
      cases scan.options.lessSyntax <;> decide
    rcases Marker.mem_occurrences_or_overlapped isActive inside occurs with member | overlapped
    · exact member
    · obtain ⟨earlier, before, -, within⟩ := overlapped
      simp only [Marker.spelling, List.length_singleton] at within
      omega

/-- No escape is half read where the next marker is handled. -/
theorem endsOpen_take (tidy : Tidy scan state ((marker, offset) :: entries))
    (rises : ∀ entry ∈ entries, offset < entry.2) (reached : state.cursor ≤ offset)
    (inside : offset < scan.source.length) :
    Text.endsOpen (scan.source.take offset) = false := by
  obtain ⟨place, isPlace, settled⟩ := tidy.whole
  rcases Nat.eq_or_lt_of_le (Int.ofNat_le.mp (isPlace ▸ reached)) with rfl | before
  · exact settled inside
  · have last : offset - 1 < scan.source.length := by omega
    have ends : scan.source.EndsAt offset scan.source[offset - 1] :=
      ⟨by omega, List.getElem?_eq_getElem last⟩
    apply ends.endsOpen_take
    intro isBackslash
    have listed := tidy.ahead (offset - 1) (by omega)
      ((List.getElem?_eq_getElem last).trans (congrArg some isBackslash))
    rcases List.mem_cons.mp listed with same | later
    · have := congrArg Prod.snd same
      dsimp only at this
      omega
    · have := rises _ later
      dsimp only at this
      omega

theorem skip (tidy : Tidy scan state ((marker, offset) :: entries))
    (consumed : (offset : Int) < state.cursor) : Tidy scan state entries where
  whole := tidy.whole
  ahead place reached here := by
    rcases List.mem_cons.mp (tidy.ahead place reached here) with same | later
    · have := congrArg Prod.snd same
      dsimp only at this
      omega
    · exact later

/-- A reaction leaves no escape half read. -/
theorem exists_cursor_react (tidy : Tidy scan state ((marker, offset) :: entries))
    (begins : scan.markerAt? offset = some marker)
    (rises : ∀ entry ∈ entries, offset < entry.2) (reached : state.cursor ≤ offset) :
    ∃ place : Nat, (scan.react marker state offset).state.cursor = place ∧
      (marker = .backslash → offset < place) ∧
      (place < scan.source.length → Text.endsOpen (scan.source.take place) = false) := by
  have inside := lt_length_of_markerAt? begins
  have positive := Marker.length_spelling_pos marker
  have settled := tidy.endsOpen_take rises reached (by omega)
  by_cases isEscape : marker = .backslash
  · subst isEscape
    have here := getElem?_of_markerAt? begins rfl (by decide)
    refine ⟨min (offset + 2) scan.source.length, ?_, fun _ => by omega, fun before => ?_⟩
    · change min ((offset : Int) + 2) scan.source.length = _
      omega
    · have next : offset + 1 < scan.source.length := by omega
      rw [Nat.min_eq_left (by omega), List.take_add_one, List.getElem?_eq_getElem next,
        Option.toList_some, Text.endsOpen_append_singleton, List.take_add_one, here,
        Option.toList_some, Text.endsOpen_append_singleton, settled]
      simp
  by_cases isParen : marker = .openParen
  · subst isParen
    exact ⟨offset, rfl, nofun, fun _ => settled⟩
  rcases cursor_react begins isParen with ⟨stays, -⟩ | lands
  · obtain ⟨place, isPlace, whole⟩ := tidy.whole
    exact ⟨place, stays.trans isPlace, fun same => absurd same isEscape, whole⟩
  · refine ⟨_, lands, fun same => absurd same isEscape, fun before => ?_⟩
    rcases @endsAt_glimpse_or scan.options _ _ _ begins isEscape with
      ⟨last, noBackslash, ends⟩ | ⟨atEnd, -⟩
    · exact ends.of_drop.endsOpen_take noBackslash
    · rw [atEnd, List.length_drop] at before
      omega

theorem react (tidy : Tidy scan state ((marker, offset) :: entries))
    (begins : scan.markerAt? offset = some marker)
    (rises : ∀ entry ∈ entries, offset < entry.2) (reached : state.cursor ≤ offset) :
    Tidy scan (scan.react marker state offset).state entries := by
  obtain ⟨place, isPlace, passes, settled⟩ := tidy.exists_cursor_react begins rises reached
  refine ⟨⟨place, isPlace, settled⟩, fun later behind here => ?_⟩
  have forward := cursor_le_react begins reached
  rcases List.mem_cons.mp (tidy.ahead later (Int.le_trans forward behind) here) with same | member
  · cases same
    have := passes rfl
    omega
  · exact member

end Tidy

/-- A backslash that is handled is not escaped. -/
theorem endsOpen_of_handled {before after : List (Marker × Nat)}
    (split : scan.markers = before ++ (marker, offset) :: after)
    (reached : (scan.course {} before).state.cursor ≤ offset) :
    Text.endsOpen (scan.source.take offset) = false := by
  have rises : scan.markers.Pairwise fun first second => first.2 < second.2 :=
    Marker.pairwise_occurrences_active scan.options.lessSyntax scan.source
  have begin_ : ∀ entry ∈ scan.markers, scan.markerAt? entry.2 = some entry.1 :=
    fun entry member => markerAt?_of_mem_markers member
  have tidy := Tidy.start scan
  rw [split] at rises begin_ tidy
  clear split
  generalize ({} : State) = state at reached tidy
  induction before generalizing state with
  | nil =>
      have inside := lt_length_of_markerAt? (begin_ _ List.mem_cons_self)
      have positive := Marker.length_spelling_pos marker
      dsimp only at inside
      exact tidy.endsOpen_take (List.pairwise_cons.mp rises).1 reached (by omega)
  | cons entry before induction =>
      obtain ⟨first, start⟩ := entry
      obtain ⟨behind, risesLater⟩ := List.pairwise_cons.mp rises
      have later := fun entry member => begin_ entry (List.mem_cons_of_mem _ member)
      rw [course] at reached
      split at reached
      next consumed => exact induction risesLater later state reached (tidy.skip consumed)
      next ahead =>
        exact induction risesLater later _ reached
          (tidy.react (begin_ _ List.mem_cons_self) behind (Int.not_lt.mp ahead))

end Scan
end Stylesheet
