import Stylesheet.Proofs.Marker.Seam
import Stylesheet.Proofs.Scan.Conservation
import Stylesheet.Proofs.Scan.Demand
import Stylesheet.Proofs.Scan.Glimpse
import Stylesheet.Tokenizer

/-!
# The course of a scan

What some markers lead to, one after the other, is one outcome. A scan is the course of
all its markers and then the end of its source.
-/

namespace Stylesheet
namespace Scan

/-- What the given markers lead to. -/
def course (scan : Scan) (state : State) : List (Marker × Nat) → Outcome
  | [] => { state }
  | (marker, offset) :: entries =>
      if (offset : Int) < state.cursor then course scan state entries
      else (scan.react marker state offset).andThen (course scan · entries)

/-- What the whole source leads to. -/
def whole (scan : Scan) : Outcome :=
  (scan.course {} scan.markers).andThen scan.endSource

theorem markers_eq (options : TokenizeOptions) (source : Text) :
    markers ⟨options, source⟩ = Marker.listed options.lessSyntax source := rfl

variable {scan : Scan} {state : State}

theorem Outcome.andThen_assoc (outcome : Outcome) (next later : State → Outcome) :
    (outcome.andThen next).andThen later =
      outcome.andThen fun state => (next state).andThen later := by
  simp [Outcome.andThen]

theorem Outcome.silent_andThen (state : State) (next : State → Outcome) :
    Outcome.andThen { state } next = next state := rfl

theorem course_append (state : State) (front back : List (Marker × Nat)) :
    scan.course state (front ++ back) = (scan.course state front).andThen (scan.course · back) := by
  induction front generalizing state with
  | nil => simp [course, Outcome.andThen]
  | cons entry front induction =>
      obtain ⟨marker, offset⟩ := entry
      rw [List.cons_append, course, course]
      split
      · exact induction state
      · rw [Outcome.andThen_assoc]
        simp only [induction]

theorem output_stepsFrom (scan : Scan) (state : State) (entries : List (Marker × Nat)) :
    let outcome := (scan.course state entries).andThen scan.endSource
    (scan.stepsFrom state entries).flatMap (·.outcome.tokens) = outcome.tokens ∧
      (scan.stepsFrom state entries).flatMap (·.outcome.diagnostics) = outcome.diagnostics := by
  induction entries generalizing state with
  | nil => simp [stepsFrom, course, Outcome.andThen]
  | cons entry entries induction =>
      obtain ⟨marker, offset⟩ := entry
      rw [stepsFrom, course]
      split
      · exact induction state
      · obtain ⟨tokens, diagnostics⟩ := induction (scan.react marker state offset).state
        simp only [List.flatMap_cons, tokens, diagnostics, Outcome.andThen, List.append_assoc,
          and_self]

theorem tokenize_eq_whole (options : TokenizeOptions) (source : Text) :
    options.tokenize source =
      ⟨(whole ⟨options, source⟩).tokens, (whole ⟨options, source⟩).diagnostics⟩ := by
  obtain ⟨tokens, diagnostics⟩ :=
    output_stepsFrom ⟨options, source⟩ {} (markers ⟨options, source⟩)
  rw [TokenizeOptions.tokenize, steps, tokens, diagnostics, whole]

/-! ## Steps in the course -/

/-- What is said of an entry and of those before it can be tried out place by place. -/
theorem exists_append_cons_iff {Entry : Type} {entries : List Entry}
    {test : List Entry → Entry → Prop} :
    (∃ before entry after, entries = before ++ entry :: after ∧ test before entry) ↔
      ∃ index, ∃ inside : index < entries.length, test (entries.take index) entries[index] := by
  constructor
  · rintro ⟨before, entry, after, rfl, passes⟩
    refine ⟨before.length, by simp, ?_⟩
    simpa using passes
  · rintro ⟨index, inside, passes⟩
    have split := List.take_append_drop index entries
    rw [List.drop_eq_getElem_cons inside] at split
    exact ⟨_, _, _, split.symm, passes⟩

/-- A step of a scan stands behind a part of the course. -/
theorem exists_of_stepsFrom_eq {entries : List (Marker × Nat)} {before after : List Step}
    {step : Step} (split : scan.stepsFrom state entries = before ++ step :: after) :
    ∃ front back, entries = front ++ back ∧
      (scan.course state front).state = stateAfter state before ∧
      (scan.course state front).tokens = before.flatMap (·.outcome.tokens) ∧
      (∀ entry ∈ back.head?, (stateAfter state before).cursor ≤ entry.2) ∧
      scan.stepsFrom (stateAfter state before) back = step :: after := by
  induction entries generalizing state before with
  | nil =>
      obtain rfl : before = [] := by
        cases before with
        | nil => rfl
        | cons first before => simp [stepsFrom] at split
      exact ⟨[], [], rfl, rfl, rfl, by simp, split⟩
  | cons entry entries induction =>
      obtain ⟨marker, offset⟩ := entry
      rw [stepsFrom] at split
      by_cases consumed : (offset : Int) < state.cursor
      · rw [if_pos consumed] at split
        obtain ⟨front, back, rfl, reached, tokens, next, steps⟩ := induction split
        refine ⟨(marker, offset) :: front, back, rfl, ?_, ?_, next, steps⟩
        · rw [course, if_pos consumed, reached]
        · rw [course, if_pos consumed, tokens]
      · rw [if_neg consumed] at split
        cases before with
        | nil =>
            refine ⟨[], (marker, offset) :: entries, rfl, rfl, rfl, ?_, ?_⟩
            · rintro entry ⟨⟩
              exact Int.not_lt.mp consumed
            · rw [stateAfter, List.foldl_nil, stepsFrom, if_neg consumed]
              exact split
        | cons first before =>
            obtain ⟨rfl, later⟩ := List.cons.inj split
            obtain ⟨front, back, rfl, reached, tokens, next, steps⟩ := induction later
            refine ⟨(marker, offset) :: front, back, rfl, ?_, ?_, next, steps⟩
            · rw [course, if_neg consumed, Outcome.andThen]
              exact reached
            · rw [course, if_neg consumed, Outcome.andThen, List.flatMap_cons, tokens]

/-- The reaction to a marker stands right behind the course of the markers before it. -/
theorem exists_of_step_marker {entries : List (Marker × Nat)} {before after : List Step}
    {step : Step} {marker : Marker}
    (split : scan.stepsFrom state entries = before ++ step :: after)
    (isMarker : step.marker = some marker) :
    ∃ front back, entries = front ++ (marker, step.offset) :: back ∧
      (scan.course state front).state = stateAfter state before ∧
      (scan.course state front).tokens = before.flatMap (·.outcome.tokens) ∧
      (stateAfter state before).cursor ≤ step.offset ∧
      step.outcome = scan.react marker (stateAfter state before) step.offset ∧
      after = scan.stepsFrom step.outcome.state back := by
  obtain ⟨front, back, rfl, reached, tokens, next, steps⟩ := exists_of_stepsFrom_eq split
  cases back with
  | nil =>
      rw [stepsFrom] at steps
      obtain rfl := (List.cons.inj steps).1
      cases isMarker
  | cons entry back =>
      obtain ⟨other, offset⟩ := entry
      have notConsumed : ¬(offset : Int) < (stateAfter state before).cursor :=
        Int.not_lt.mpr (next _ rfl)
      rw [stepsFrom, if_neg notConsumed] at steps
      obtain ⟨rfl, rfl⟩ := List.cons.inj steps
      cases isMarker
      exact ⟨front, back, rfl, reached, tokens, next _ rfl, rfl, rfl⟩

/-- A step reacts to a marker or ends the source, from where the steps before it have led. -/
theorem step_cases {before after : List Step} {step : Step}
    (split : scan.steps = before ++ step :: after) :
    step.marker = none ∧ step.offset = scan.source.length ∧
        step.outcome = scan.endSource (stateAfter {} before) ∨
      ∃ marker, step.marker = some marker ∧ scan.markerAt? step.offset = some marker ∧
        step.outcome = scan.react marker (stateAfter {} before) step.offset := by
  cases isMarker : step.marker with
  | none =>
      obtain ⟨front, back, -, -, -, next, steps⟩ := exists_of_stepsFrom_eq split
      cases back with
      | nil =>
          rw [stepsFrom] at steps
          obtain rfl := (List.cons.inj steps).1
          exact Or.inl ⟨rfl, rfl, rfl⟩
      | cons entry back =>
          have notConsumed : ¬(entry.2 : Int) < (stateAfter {} before).cursor :=
            Int.not_lt.mpr (next _ rfl)
          rw [stepsFrom, if_neg notConsumed] at steps
          obtain rfl := (List.cons.inj steps).1
          cases isMarker
  | some marker =>
      obtain ⟨front, back, entries, -, -, -, outcome, -⟩ := exists_of_step_marker split isMarker
      have listed : (marker, step.offset) ∈ scan.markers := by
        rw [entries]
        exact List.mem_append_right _ List.mem_cons_self
      exact Or.inr ⟨marker, rfl, markerAt?_of_mem_markers listed, outcome⟩

/-- Only the last step ends the source: one with another behind it reacts to a marker. -/
theorem exists_reaction {before after : List Step} {step later : Step}
    (split : scan.steps = before ++ step :: later :: after) :
    ∃ marker offset, scan.markerAt? offset = some marker ∧
      (stateAfter {} before).cursor ≤ offset ∧
      step = ⟨some marker, offset, scan.react marker (stateAfter {} before) offset⟩ := by
  obtain ⟨front, back, entries, -, -, next, steps⟩ := exists_of_stepsFrom_eq split
  cases back with
  | nil => simp [stepsFrom] at steps
  | cons entry back =>
      obtain ⟨marker, offset⟩ := entry
      have reached : (stateAfter {} before).cursor ≤ offset := next _ rfl
      have listed : (marker, offset) ∈ scan.markers := by
        rw [entries]
        exact List.mem_append_right _ List.mem_cons_self
      rw [stepsFrom, if_neg (Int.not_lt.mpr reached)] at steps
      exact ⟨marker, offset, markerAt?_of_mem_markers listed, reached, (List.cons.inj steps).1.symm⟩

/-- Where markers ascend, those before an offset are the same however they are split off. -/
theorem eq_of_append_eq_append {front back first second : List (Marker × Nat)} {place : Nat}
    (same : front ++ back = first ++ second)
    (frontBefore : ∀ entry ∈ front, entry.2 < place) (backBehind : ∀ entry ∈ back, place ≤ entry.2)
    (firstBefore : ∀ entry ∈ first, entry.2 < place)
    (secondBehind : ∀ entry ∈ second, place ≤ entry.2) : front = first ∧ back = second := by
  have keeps {before behind : List (Marker × Nat)} (earlier : ∀ entry ∈ before, entry.2 < place)
      (later : ∀ entry ∈ behind, place ≤ entry.2) :
      (before ++ behind).filter (·.2 < place) = before := by
    rw [List.filter_append, List.filter_eq_self.mpr (by simpa using earlier),
      List.filter_eq_nil_iff.mpr (by simpa using later), List.append_nil]
  have fronts : front = first := by
    rw [← keeps frontBefore backBehind, same, keeps firstBefore secondBehind]
  subst fronts
  exact ⟨rfl, List.append_cancel_left same⟩

/-! ## The cursor -/

theorem cursor_le_react {marker : Marker} {offset : Nat}
    (begins : scan.markerAt? offset = some marker) (reached : state.cursor ≤ offset) :
    state.cursor ≤ (scan.react marker state offset).state.cursor := by
  rcases landed_forward (scan.landed_react state marker offset) begins with forward | ⟨stays, -⟩
  · omega
  · omega

/-- The cursor never goes back. -/
theorem cursor_le_course {entries : List (Marker × Nat)}
    (begin_ : ∀ entry ∈ entries, scan.markerAt? entry.2 = some entry.1) :
    state.cursor ≤ (scan.course state entries).state.cursor := by
  induction entries generalizing state with
  | nil => exact Int.le_refl _
  | cons entry entries induction =>
      obtain ⟨marker, offset⟩ := entry
      have later := fun entry member => begin_ entry (List.mem_cons_of_mem _ member)
      rw [course]
      split
      · exact induction later
      next notConsumed =>
        exact Int.le_trans
          (cursor_le_react (begin_ _ List.mem_cons_self) (Int.not_lt.mp notConsumed))
          (induction later)

/-- Where a course ends behind a reaction, the reaction has not landed further on. -/
theorem cursor_react_le {before after : List (Marker × Nat)} {marker : Marker} {offset : Nat}
    {bound : Int} (begin_ : ∀ entry ∈ after, scan.markerAt? entry.2 = some entry.1)
    (reached : (scan.course state before).state.cursor ≤ offset)
    (bounded : (scan.course state (before ++ (marker, offset) :: after)).state.cursor ≤ bound) :
    (scan.react marker (scan.course state before).state offset).state.cursor ≤ bound := by
  rw [course_append, Outcome.andThen, course, if_neg (Int.not_lt.mpr reached)] at bounded
  exact Int.le_trans (cursor_le_course begin_) bounded

theorem course_of_consumed {entries : List (Marker × Nat)}
    (consumed : ∀ entry ∈ entries, (entry.2 : Int) < state.cursor) :
    scan.course state entries = { state } := by
  induction entries with
  | nil => rfl
  | cons entry entries induction =>
      rw [course, if_pos (consumed entry List.mem_cons_self)]
      exact induction fun other member => consumed other (List.mem_cons_of_mem _ member)

end Scan
end Stylesheet
