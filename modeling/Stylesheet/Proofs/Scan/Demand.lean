import Stylesheet.Proofs.Marker.Front
import Stylesheet.Proofs.Scan.Glimpse

/-!
# Searching on demand

A scan finds all markers before it starts and passes over those that are already
consumed. A reader that searches from its cursor each time would pick the same
markers, with one exception in the extended syntax. If the cursor has just been put
between the first and the second of three slashes, the first two slashes hide the
line comment that the last two begin.
-/

namespace Stylesheet
namespace Scan

/-! ## The search -/

/-- The active marker that begins at an offset. -/
def markerAt? (scan : Scan) (offset : Nat) : Option Marker :=
  (Marker.active scan.options.lessSyntax).find? fun marker =>
    Marker.occursHere marker.spelling (scan.source.drop offset)

/-- Whether an offset may be handled next: it is not consumed, and it lies behind
the one that was handled before. -/
def eligible (previous : Option Nat) (cursor : Int) (offset : Nat) : Bool :=
  cursor ≤ offset && previous.all (· < offset)

/-- The first marker that may be handled next, wherever the source has it. -/
def search (scan : Scan) (previous : Option Nat) (cursor : Int) : Option (Marker × Nat) :=
  let first := (List.range scan.source.length).find? fun offset =>
    eligible previous cursor offset && (scan.markerAt? offset).isSome
  first.bind fun offset => (scan.markerAt? offset).map (·, offset)

/-- The marker that a step reacts to, or nothing at the end of the source. -/
def Step.target (step : Step) : Option (Marker × Nat) :=
  step.marker.map (·, step.offset)

/-- The offset that was handled last, after some more steps. -/
def lastOffset (previous : Option Nat) (steps : List Step) : Option Nat :=
  steps.foldl (fun _ step => some step.offset) previous

/-- The state that some steps lead to. -/
def stateAfter (state : State) (steps : List Step) : State :=
  steps.foldl (fun _ step => step.outcome.state) state

theorem stateAfter_concat (state : State) (steps : List Step) (step : Step) :
    stateAfter state (steps ++ [step]) = step.outcome.state := by
  rw [stateAfter, List.foldl_append]
  rfl

/-- The last reaction has put the cursor behind the first of three slashes. -/
def HidesLineComment (scan : Scan) (previous : Option Nat) (cursor : Int) : Prop :=
  scan.options.lessSyntax = true ∧ ∃ offset : Nat, cursor = offset + 1 ∧
    (∀ handled ∈ previous, handled ≤ offset) ∧ ['/', '/', '/'] <+: scan.source.drop offset

variable {scan : Scan}

theorem eligible_iff {previous : Option Nat} {cursor : Int} {offset : Nat} :
    eligible previous cursor offset = true ↔
      cursor ≤ offset ∧ ∀ handled ∈ previous, handled < offset := by
  cases previous <;> simp [eligible]

theorem markerAt?_eq_some_iff {marker : Marker} {offset : Nat} :
    scan.markerAt? offset = some marker ↔
      marker ∈ Marker.active scan.options.lessSyntax ∧
        Marker.occursHere marker.spelling (scan.source.drop offset) = true :=
  Marker.front?_eq_some_iff

theorem lt_length_of_markerAt? {marker : Marker} {offset : Nat}
    (begins : scan.markerAt? offset = some marker) :
    offset + marker.spelling.length ≤ scan.source.length := by
  have fits := Marker.length_le_of_occursHere (markerAt?_eq_some_iff.mp begins).2
  have positive := Marker.length_spelling_pos marker
  rw [List.length_drop] at fits
  omega

theorem search_eq_some_iff {previous : Option Nat} {cursor : Int} {marker : Marker}
    {offset : Nat} :
    scan.search previous cursor = some (marker, offset) ↔
      scan.markerAt? offset = some marker ∧ eligible previous cursor offset = true ∧
        ∀ earlier < offset, eligible previous cursor earlier = true →
          scan.markerAt? earlier = none := by
  simp only [search, Option.bind_eq_some_iff, Option.map_eq_some_iff, Prod.mk.injEq,
    List.find?_range_eq_some, Bool.and_eq_true, List.mem_range]
  constructor
  · rintro ⟨_, ⟨⟨isEligible, -⟩, -, first⟩, _, begins, rfl, rfl⟩
    refine ⟨begins, isEligible, fun earlier before earlierEligible => ?_⟩
    simpa [earlierEligible] using first earlier before
  · rintro ⟨begins, isEligible, first⟩
    have fits := lt_length_of_markerAt? begins
    have positive := Marker.length_spelling_pos marker
    refine ⟨offset, ⟨⟨isEligible, by rw [begins]; rfl⟩, by omega, ?_⟩,
      marker, begins, rfl, rfl⟩
    intro earlier before
    cases earlierEligible : eligible previous cursor earlier with
    | false => rfl
    | true => simp [first earlier before earlierEligible]

theorem search_eq_none_iff {previous : Option Nat} {cursor : Int} :
    scan.search previous cursor = none ↔
      ∀ offset, eligible previous cursor offset = true → scan.markerAt? offset = none := by
  constructor
  · intro nothing offset isEligible
    cases begins : scan.markerAt? offset with
    | none => rfl
    | some marker =>
        have fits := lt_length_of_markerAt? begins
        have positive := Marker.length_spelling_pos marker
        unfold search at nothing
        cases first : (List.range scan.source.length).find? fun offset =>
            eligible previous cursor offset && (scan.markerAt? offset).isSome with
        | none =>
            have never := List.find?_eq_none.mp first offset (List.mem_range.mpr (by omega))
            simp [isEligible, begins] at never
        | some earlier =>
            have found := List.find?_some first
            rw [Bool.and_eq_true, Option.isSome_iff_exists] at found
            obtain ⟨-, other, otherBegins⟩ := found
            simp [first, otherBegins] at nothing
  · intro never
    cases found : scan.search previous cursor with
    | none => rfl
    | some target =>
        obtain ⟨marker, offset⟩ := target
        obtain ⟨begins, isEligible, -⟩ := search_eq_some_iff.mp found
        rw [never _ isEligible] at begins
        cases begins

/-! ## The markers that are left -/

theorem markerAt?_of_mem_markers {marker : Marker} {offset : Nat}
    (member : (marker, offset) ∈ scan.markers) : scan.markerAt? offset = some marker := by
  obtain ⟨isActive, -, occurs⟩ := Marker.occursHere_of_mem_occurrences member
  exact markerAt?_eq_some_iff.mpr ⟨isActive, occurs⟩

theorem pairwise_markers (scan : Scan) :
    scan.markers.Pairwise fun first second => first.2 < second.2 :=
  Marker.pairwise_occurrences_active ..

/-- A marker that was not found up front is a line comment right behind another. -/
theorem mem_markers_or_hidden {marker : Marker} {offset : Nat}
    (begins : scan.markerAt? offset = some marker) :
    (marker, offset) ∈ scan.markers ∨ marker = .lineComment ∧
      ∃ earlier, offset = earlier + 1 ∧ (Marker.lineComment, earlier) ∈ scan.markers := by
  have fits := lt_length_of_markerAt? begins
  have positive := Marker.length_spelling_pos marker
  obtain ⟨isActive, occurs⟩ := markerAt?_eq_some_iff.mp begins
  rcases Marker.mem_occurrences_or_overlapped isActive (by omega) occurs with
    found | ⟨earlier, before, found, overlap⟩
  · exact Or.inl found
  · have earlierOccurs := (Marker.occursHere_of_mem_occurrences found).2.2
    obtain ⟨rfl, next⟩ := Marker.eq_lineComment_of_overlap earlierOccurs occurs before overlap
    exact Or.inr ⟨rfl, earlier, next, found⟩

theorem markerAt?_lineComment_iff (lessSyntax : scan.options.lessSyntax = true)
    {offset : Nat} :
    scan.markerAt? offset = some .lineComment ↔ ['/', '/'] <+: scan.source.drop offset := by
  rw [markerAt?_eq_some_iff, lessSyntax, ← List.isPrefixOf_iff_prefix]
  exact ⟨fun begins => begins.2, fun occurs => ⟨by decide, occurs⟩⟩

theorem lessSyntax_of_markerAt? {offset : Nat}
    (begins : scan.markerAt? offset = some .lineComment) :
    scan.options.lessSyntax = true := by
  have isActive := (markerAt?_eq_some_iff.mp begins).1
  cases less : scan.options.lessSyntax with
  | true => rfl
  | false =>
      rw [less] at isActive
      revert isActive
      decide

/-- What holds between two steps, when `ahead` are the markers that are left. -/
structure Underway (scan : Scan) (previous : Option Nat) (state : State)
    (ahead : List (Marker × Nat)) : Prop where
  nonneg : 0 ≤ state.cursor
  passed : ∀ entry ∈ scan.markers, entry ∈ ahead ∨ (entry.2 : Int) < state.cursor ∨
    ∃ handled ∈ previous, entry.2 ≤ handled
  listed : ∀ entry ∈ ahead, entry ∈ scan.markers
  behind : ∀ entry ∈ ahead, ∀ handled ∈ previous, handled < entry.2
  ascending : ahead.Pairwise fun first second => first.2 < second.2
  /-- The reaction to a line comment consumes it. -/
  lineConsumed : ∀ handled ∈ previous, (Marker.lineComment, handled) ∈ scan.markers →
    ((handled + 1 : Nat) : Int) < state.cursor
  /-- A cursor that has been put between slashes stands behind the first one. -/
  firstSlash : ∀ offset : Nat, state.cursor = ((offset + 1 + 1 : Nat) : Int) →
    (∀ handled ∈ previous, handled ≤ offset + 1) →
    ['/', '/', '/'] <+: scan.source.drop (offset + 1) → scan.source[offset]? ≠ some '/'

namespace Underway

variable {previous : Option Nat} {state : State} {ahead : List (Marker × Nat)}

theorem start (scan : Scan) : Underway scan none {} scan.markers where
  nonneg := Int.le_refl 0
  passed _ member := Or.inl member
  listed _ member := member
  behind := by simp
  ascending := pairwise_markers scan
  lineConsumed := by simp
  firstSlash offset place := by
    have zero : (0 : Int) = ((offset + 1 + 1 : Nat) : Int) := place
    omega

theorem skip {marker : Marker} {offset : Nat}
    (underway : Underway scan previous state ((marker, offset) :: ahead))
    (consumed : (offset : Int) < state.cursor) : Underway scan previous state ahead where
  nonneg := underway.nonneg
  passed entry member := by
    rcases underway.passed entry member with left | gone
    · rcases List.mem_cons.mp left with rfl | left
      · exact Or.inr (Or.inl consumed)
      · exact Or.inl left
    · exact Or.inr gone
  listed entry member := underway.listed entry (List.mem_cons_of_mem _ member)
  behind entry member := underway.behind entry (List.mem_cons_of_mem _ member)
  ascending := (List.pairwise_cons.mp underway.ascending).2
  lineConsumed := underway.lineConsumed
  firstSlash := underway.firstSlash

/-- An occurrence that may be handled is left, unless an earlier line comment hides it. -/
theorem mem_ahead (underway : Underway scan previous state ahead) {marker : Marker}
    {offset : Nat} (member : (marker, offset) ∈ scan.markers)
    (isEligible : eligible previous state.cursor offset = true) :
    (marker, offset) ∈ ahead := by
  obtain ⟨reached, later⟩ := eligible_iff.mp isEligible
  rcases underway.passed _ member with left | consumed | ⟨handled, isHandled, before⟩
  · exact left
  · have contradiction : (offset : Int) < state.cursor := consumed
    omega
  · have after := later handled isHandled
    have contradiction : offset ≤ handled := before
    omega

/-- A search finds a line comment behind another one only if the cursor hides it. -/
theorem hides_of_hider (underway : Underway scan previous state ahead) {earlier : Nat}
    (found : scan.search previous state.cursor = some (.lineComment, earlier + 1))
    (hider : (Marker.lineComment, earlier) ∈ scan.markers) :
    scan.HidesLineComment previous state.cursor := by
  obtain ⟨begins, isEligible, first⟩ := search_eq_some_iff.mp found
  obtain ⟨reached, later⟩ := eligible_iff.mp isEligible
  have hiderBegins := markerAt?_of_mem_markers hider
  have handledBefore : ∀ handled ∈ previous, handled ≤ earlier := by
    intro handled isHandled
    have := later handled isHandled
    omega
  have passedOver : ¬state.cursor ≤ earlier := by
    intro notConsumed
    have notEligible : ¬∀ handled ∈ previous, handled < earlier := by
      intro allBefore
      have nothing := first earlier (Nat.lt_succ_self earlier)
        (eligible_iff.mpr ⟨notConsumed, allBefore⟩)
      rw [hiderBegins] at nothing
      cases nothing
    apply notEligible
    intro handled isHandled
    rcases Nat.lt_or_eq_of_le (handledBefore handled isHandled) with before | rfl
    · exact before
    · have consumed := underway.lineConsumed handled isHandled hider
      omega
  have lessSyntax := lessSyntax_of_markerAt? begins
  refine ⟨lessSyntax, earlier, by omega, handledBefore, ?_⟩
  have second := (markerAt?_lineComment_iff lessSyntax).mp begins
  have first := (markerAt?_lineComment_iff lessSyntax).mp hiderBegins
  obtain ⟨rest, split⟩ := second
  obtain ⟨tail, firstSplit⟩ := first
  refine ⟨rest, ?_⟩
  have shifted : scan.source.drop (earlier + 1) = '/' :: tail := by
    rw [← List.drop_drop, ← firstSplit]
    rfl
  rw [shifted] at split
  rw [← firstSplit]
  injection split with _ tailSplit
  rw [← tailSplit]
  rfl

/-- Where slashes hide a line comment, a search finds it, and no listed marker begins there. -/
theorem next_ne_search_of_hides (underway : Underway scan previous state ahead)
    (hides : scan.HidesLineComment previous state.cursor) :
    ahead.find? (fun entry => state.cursor ≤ entry.2) ≠ scan.search previous state.cursor := by
  intro same
  obtain ⟨lessSyntax, offset, place, handledBefore, slashes⟩ := hides
  have second : ['/', '/'] <+: scan.source.drop (offset + 1) := by
    obtain ⟨rest, split⟩ := slashes
    exact ⟨rest, by rw [← List.drop_drop, ← split]; rfl⟩
  have first : ['/', '/'] <+: scan.source.drop offset := by
    obtain ⟨rest, split⟩ := slashes
    exact ⟨'/' :: rest, by rw [← split]; rfl⟩
  have begins := (markerAt?_lineComment_iff lessSyntax).mpr second
  have found : scan.search previous state.cursor = some (.lineComment, offset + 1) := by
    refine search_eq_some_iff.mpr ⟨begins, ?_, ?_⟩
    · refine eligible_iff.mpr ⟨by omega, fun handled isHandled => ?_⟩
      have := handledBefore handled isHandled
      omega
    · intro earlier before earlierEligible
      have := (eligible_iff.mp earlierEligible).1
      omega
  rw [found] at same
  have secondListed := underway.listed _ (List.mem_of_find?_eq_some same)
  have firstBegins := (markerAt?_lineComment_iff lessSyntax).mpr first
  rcases mem_markers_or_hidden firstBegins with firstListed | ⟨-, before, rfl, beforeListed⟩
  · have apart := Marker.not_overlapping_of_mem_occurrences firstListed secondListed
      (Nat.lt_succ_self offset)
    simp [Marker.spelling] at apart
  · have beforeSlash := (markerAt?_lineComment_iff lessSyntax).mp
      (markerAt?_of_mem_markers beforeListed)
    refine underway.firstSlash before place handledBefore slashes ?_
    obtain ⟨rest, split⟩ := beforeSlash
    have head : (scan.source.drop before)[0]? = some '/' := by rw [← split]; rfl
    simpa using head

/-- Where a search finds a marker that is still to be handled, that one is handled next. -/
theorem next_eq_some_of_search (underway : Underway scan previous state ahead) {marker : Marker}
    {offset : Nat} (found : scan.search previous state.cursor = some (marker, offset))
    (left : (marker, offset) ∈ ahead) :
    ahead.find? (fun entry => state.cursor ≤ entry.2) = some (marker, offset) := by
  obtain ⟨-, isEligible, first⟩ := search_eq_some_iff.mp found
  obtain ⟨before, after, split⟩ := List.append_of_mem left
  refine List.find?_eq_some_iff_append.mpr
    ⟨by simpa using (eligible_iff.mp isEligible).1, before, after, split, ?_⟩
  intro entry member
  have isLeft : entry ∈ ahead := by
    rw [split]
    exact List.mem_append_left _ member
  have ascending := underway.ascending
  rw [split] at ascending
  have earlier : entry.2 < offset :=
    (List.pairwise_append.mp ascending).2.2 entry member _ List.mem_cons_self
  have entryBegins := markerAt?_of_mem_markers (underway.listed entry isLeft)
  by_cases reached : state.cursor ≤ entry.2
  · have nothing := first entry.2 earlier
      (eligible_iff.mpr ⟨reached, underway.behind entry isLeft⟩)
    rw [entryBegins] at nothing
    cases nothing
  · simpa using reached

theorem next_eq_search_of_not_hides (underway : Underway scan previous state ahead)
    (visible : ¬scan.HidesLineComment previous state.cursor) :
    ahead.find? (fun entry => state.cursor ≤ entry.2) = scan.search previous state.cursor := by
  cases found : scan.search previous state.cursor with
  | none =>
      refine List.find?_eq_none.mpr fun entry member reached => ?_
      have never := search_eq_none_iff.mp found entry.2 (eligible_iff.mpr
        ⟨of_decide_eq_true reached, underway.behind entry member⟩)
      rw [markerAt?_of_mem_markers (underway.listed entry member)] at never
      cases never
  | some target =>
      obtain ⟨marker, offset⟩ := target
      obtain ⟨begins, isEligible, -⟩ := search_eq_some_iff.mp found
      rcases mem_markers_or_hidden begins with isListed | ⟨rfl, earlier, rfl, hider⟩
      · exact underway.next_eq_some_of_search found (underway.mem_ahead isListed isEligible)
      · exact absurd (underway.hides_of_hider found hider) visible

/-- The marker that is handled next is the one that a search finds, unless a line
comment is hidden. -/
theorem next_eq_search_iff (underway : Underway scan previous state ahead) :
    ahead.find? (fun entry => state.cursor ≤ entry.2) = scan.search previous state.cursor ↔
      ¬scan.HidesLineComment previous state.cursor :=
  ⟨fun same hides => underway.next_ne_search_of_hides hides same,
    underway.next_eq_search_of_not_hides⟩

end Underway

/-! ## Reactions -/

theorem le_lineEnd (scan : Scan) {offset : Nat} (inside : offset ≤ scan.source.length) :
    offset ≤ scan.lineEnd offset := by
  rw [lineEnd_eq scan inside]
  exact Nat.le_add_right ..

theorem slash_ne_before_lineEnd (scan : Scan) {offset : Nat}
    (inside : offset ≤ scan.source.length) :
    scan.lineEnd offset = scan.source.length ∨
      scan.source[scan.lineEnd offset - 1]? ≠ some '/' := by
  rw [lineEnd_eq scan inside]
  rcases endsAt_lineReach_or (scan.source.drop offset) with ⟨lineBreak, breaks, ends⟩ | whole
  · right
    rw [ends.of_drop.2]
    rintro ⟨⟩
    cases breaks
  · left
    rw [whole, List.length_drop]
    omega

/-- A cursor in front of slashes has not been put there behind another slash. -/
theorem slash_ne_before_landing {state : State} {marker : Marker} {offset before : Nat}
    {cursor : Int} (landed : Landed scan state offset marker cursor)
    (begins : scan.markerAt? offset = some marker) (reached : state.cursor ≤ offset)
    (landing : cursor = ((before + 1 + 1 : Nat) : Int)) (handled : offset ≤ before + 1)
    (slashes : ['/', '/', '/'] <+: scan.source.drop (before + 1)) :
    scan.source[before]? ≠ some '/' := by
  have slashAt (index : Nat) (inside : index < 3) :
      scan.source[before + 1 + index]? = some '/' := by
    obtain ⟨rest, split⟩ := slashes
    rw [← List.getElem?_drop, ← split]
    match index with
    | 0 | 1 | 2 => rfl
  have firstSlash : scan.source[before + 1]? = some '/' := slashAt 0 (by omega)
  have length : before + 4 ≤ scan.source.length := by
    have := (List.getElem?_eq_some_iff.mp (slashAt 2 (by omega))).1
    omega
  have noSlash (index : Nat) (inside : index < marker.spelling.length)
      (absent : '/' ∉ marker.spelling) : scan.source[offset + index]? ≠ some '/' :=
    Marker.ne_of_occursHere (markerAt?_eq_some_iff.mp begins).2 inside absent
  cases landed with
  | unmoved => omega
  | atParen => omega
  | behindOne single =>
      have table : ∀ marker ∈ Marker.active true, marker.spelling.length = 1 →
          '/' ∉ marker.spelling := by decide
      obtain rfl : offset = before + 1 := by omega
      exact absurd firstSlash
        (noSlash 0 (by omega) (table marker (Marker.mem_active_true marker) single))
  | behindEscape =>
      obtain rfl : offset = before := by omega
      exact noSlash 0 (by decide) (by decide)
  | behindLetters =>
      obtain rfl : before = offset + 1 := by omega
      exact absurd firstSlash (noSlash 2 (by decide) (by decide))
  | @behindUrl count found =>
      obtain ⟨positive, -, last⟩ := Url.endsAt_of_reach? found
      have place : offset + (count - 1) = before + 1 := by omega
      rw [List.getElem?_drop, place, firstSlash] at last
      cases last
  | @behindString quote count found =>
      obtain ⟨positive, last⟩ := Quoted.endsAt_of_reach? found
      have place : offset + 1 + (count - 1) = before + 1 := by omega
      rw [List.getElem?_drop, place, firstSlash] at last
      cases quote <;> cases last
  | @behindComment stop found =>
      obtain rfl : stop = before := by omega
      obtain ⟨rest, split⟩ := (Text.isPrefix_of_findFrom? found).2
      intro slash
      have star : (scan.source.drop stop)[0]? = some '*' := by
        rw [← split]
        rfl
      rw [List.getElem?_drop, Nat.add_zero, slash] at star
      cases star
  | behindLine =>
      have fits : offset + 2 ≤ scan.source.length := by omega
      rcases scan.slash_ne_before_lineEnd fits with atEnd | noSlashBefore
      · omega
      · have place : scan.lineEnd (offset + 2 : Nat) - 1 = before + 1 := by omega
        rw [place] at noSlashBefore
        exact absurd firstSlash noSlashBefore
  | behindInterpolation opens =>
      obtain rfl : offset = before := by omega
      rcases opens with rfl | rfl
      · exact noSlash 0 (by decide) (by decide)
      · exact noSlash 0 (by decide) (by decide)
  | atEnd => omega

theorem landed_nonneg {state : State} {marker : Marker} {offset : Nat} {cursor : Int}
    (landed : Landed scan state offset marker cursor) (nonneg : 0 ≤ state.cursor) :
    0 ≤ cursor := by
  cases landed with
  | unmoved => exact nonneg
  | _ => omega

/-- A reaction keeps the invariant. -/
theorem Underway.react {previous : Option Nat} {state : State} {marker : Marker}
    {offset : Nat} {ahead : List (Marker × Nat)}
    (underway : Underway scan previous state ((marker, offset) :: ahead))
    (reached : state.cursor ≤ offset) :
    Underway scan (some offset) (scan.react marker state offset).state ahead := by
  have landed := scan.landed_react state marker offset
  have member := underway.listed _ List.mem_cons_self
  have begins := markerAt?_of_mem_markers member
  have ascending := List.pairwise_cons.mp underway.ascending
  constructor
  case nonneg => exact landed_nonneg landed underway.nonneg
  case passed =>
    intro entry isMarker
    have handledBefore : entry.2 ≤ offset → ∃ handled ∈ some offset, entry.2 ≤ handled :=
      fun before => ⟨offset, rfl, before⟩
    rcases underway.passed entry isMarker with left | consumed | ⟨handled, isHandled, before⟩
    · rcases List.mem_cons.mp left with rfl | left
      · exact Or.inr (Or.inr (handledBefore (Nat.le_refl _)))
      · exact Or.inl left
    · exact Or.inr (Or.inr (handledBefore (by omega)))
    · have := underway.behind _ List.mem_cons_self handled isHandled
      exact Or.inr (Or.inr (handledBefore (by omega)))
  case listed => exact fun entry left => underway.listed entry (List.mem_cons_of_mem _ left)
  case behind =>
    rintro entry left handled ⟨⟩
    exact ascending.1 entry left
  case ascending => exact ascending.2
  case lineConsumed =>
    rintro handled ⟨⟩ isLine
    rw [markerAt?_of_mem_markers isLine] at begins
    cases begins
    have fits : offset + 2 ≤ scan.source.length :=
      lt_length_of_markerAt? (markerAt?_of_mem_markers isLine)
    have line : (scan.react .lineComment state offset).state.cursor =
        (scan.lineEnd (offset + 2 : Nat) : Int) := rfl
    have further := scan.le_lineEnd fits
    omega
  case firstSlash =>
    intro before landing handled slashes
    exact slash_ne_before_landing landed begins reached landing (handled offset rfl) slashes

/-! ## Runs -/

theorem target_eq_search_iff_of_underway {previous : Option Nat} {state : State}
    {ahead : List (Marker × Nat)} (underway : Underway scan previous state ahead)
    {before after : List Step} {step : Step}
    (split : scan.stepsFrom state ahead = before ++ step :: after) :
    step.target = scan.search (lastOffset previous before) (stateAfter state before).cursor ↔
      ¬scan.HidesLineComment (lastOffset previous before) (stateAfter state before).cursor := by
  induction ahead generalizing previous state before with
  | nil =>
      cases before with
      | nil =>
          obtain rfl := (List.cons.inj split).1
          exact underway.next_eq_search_iff
      | cons first before => simp [stepsFrom] at split
  | cons entry ahead induction =>
      obtain ⟨marker, offset⟩ := entry
      rw [stepsFrom] at split
      by_cases consumed : (offset : Int) < state.cursor
      · rw [if_pos consumed] at split
        exact induction (underway.skip consumed) split
      · rw [if_neg consumed] at split
        have reached : state.cursor ≤ offset := by omega
        cases before with
        | nil =>
            obtain rfl := (List.cons.inj split).1
            have next := underway.next_eq_search_iff
            rwa [List.find?_cons_of_pos (by simpa using reached)] at next
        | cons first before =>
            obtain ⟨rfl, later⟩ := List.cons.inj split
            exact induction (underway.react reached) later

/-- Every step of a scan handles the marker that a search from the cursor finds, or
ends the scan if there is none, except for line comments that the cursor hides. -/
theorem target_eq_search_iff (scan : Scan) {before after : List Step} {step : Step}
    (split : scan.steps = before ++ step :: after) :
    step.target = scan.search (lastOffset none before) (stateAfter {} before).cursor ↔
      ¬scan.HidesLineComment (lastOffset none before) (stateAfter {} before).cursor :=
  target_eq_search_iff_of_underway (.start scan) split

/-- A comment, and a line comment apart from it. -/
def separated : Scan :=
  ⟨{ lessSyntax := true }, ['/', '*', '*', '/', ' ', '/', '/', 'x']⟩

theorem search_separated : separated.search (some 0) 4 = some (.lineComment, 5) := by
  have split : separated.steps =
      separated.steps.take 1 ++ separated.steps[1] :: separated.steps.drop 2 := by decide
  have place : (stateAfter {} (separated.steps.take 1)).cursor = 4 := by decide
  have visible : ¬separated.HidesLineComment (some 0) 4 := by
    rintro ⟨-, offset, cursor, -, slashes⟩
    obtain rfl : offset = 3 := by omega
    revert slashes
    decide
  rw [← place] at visible
  have found := (target_eq_search_iff separated split).mpr visible
  rw [place] at found
  exact found.symm

/-- The same without the space between them. -/
def adjacent : Scan :=
  ⟨{ lessSyntax := true }, ['/', '*', '*', '/', '/', '/', 'x']⟩

/-- Scanning and searching from the cursor differ: the line comment is lost. -/
theorem not_forall_target_eq_search :
    ¬∀ (scan : Scan) (before after : List Step) (step : Step),
      scan.steps = before ++ step :: after →
        step.target = scan.search (lastOffset none before) (stateAfter {} before).cursor := by
  intro always
  have lost := always adjacent (adjacent.steps.take 1) [] adjacent.steps[1] (by decide)
  revert lost
  decide

end Scan
end Stylesheet
