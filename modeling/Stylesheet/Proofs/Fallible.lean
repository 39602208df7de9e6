/-!
# Computations that may fail

A chain of computations stops at the first that fails. If each of them fails with the first of
some flaws, so does the chain with the first of all flaws in a row; and what holds of everything
that the last one can give holds of everything that the chain can give.
-/

namespace Stylesheet

section Fallible

variable {Fault Content Result : Type}

/-! ## The first flaw -/

/-- A computation that fails with the first of some flaws, and succeeds if there is none. -/
def StopsAt (flaws : List Fault) (computed : Except Fault Content) : Prop :=
  match flaws with
  | [] => ∃ content, computed = .ok content
  | flaw :: _ => computed = .error flaw

theorem StopsAt.bind {first second : List Fault} {computed : Except Fault Content}
    {next : Content → Except Fault Result} (stops : StopsAt first computed)
    (behind : ∀ content, computed = .ok content → StopsAt second (next content)) :
    StopsAt (first ++ second) (computed >>= next) := by
  cases first with
  | nil =>
      obtain ⟨content, rfl⟩ := stops
      exact behind content rfl
  | cons flaw flaws =>
      obtain rfl : computed = .error flaw := stops
      rfl

theorem StopsAt.map {flaws : List Fault} {computed : Except Fault Content}
    (stops : StopsAt flaws computed) (change : Content → Result) :
    StopsAt flaws (computed.map change) := by
  cases flaws with
  | nil =>
      obtain ⟨content, rfl⟩ := stops
      exact ⟨change content, rfl⟩
  | cons flaw flaws =>
      obtain rfl : computed = .error flaw := stops
      rfl

theorem StopsAt.mapError {Outer : Type} {flaws : List Fault} {computed : Except Fault Content}
    (stops : StopsAt flaws computed) (change : Fault → Outer) :
    StopsAt (flaws.map change) (computed.mapError change) := by
  cases flaws with
  | nil =>
      obtain ⟨content, rfl⟩ := stops
      exact ⟨content, rfl⟩
  | cons flaw flaws =>
      obtain rfl : computed = .error flaw := stops
      rfl

theorem StopsAt.mapM {Item : Type} {flawsOf : Item → List Fault}
    {compute : Item → Except Fault Content} {items : List Item}
    (each : ∀ item ∈ items, StopsAt (flawsOf item) (compute item)) :
    StopsAt (items.flatMap flawsOf) (items.mapM compute) := by
  induction items with
  | nil => exact ⟨[], rfl⟩
  | cons item items induction =>
      have others := induction fun other member => each other (List.mem_cons_of_mem _ member)
      rw [List.mapM_cons, List.flatMap_cons]
      refine (each item List.mem_cons_self).bind fun content _ => ?_
      exact others.map (content :: ·)

/-! ## What is given -/

/-- Everything that a computation can give has some property. -/
def Gives (property : Content → Prop) (computed : Except Fault Content) : Prop :=
  ∀ content, computed = .ok content → property content

theorem Gives.bind {property : Result → Prop} (computed : Except Fault Content)
    {next : Content → Except Fault Result} (behind : ∀ content, Gives property (next content)) :
    Gives property (computed >>= next) := by
  intro result got
  cases computed with
  | error fault => cases got
  | ok content => exact behind content result got

theorem gives_ok {property : Content → Prop} {content : Content} (holds : property content) :
    Gives property (Except.ok content : Except Fault Content) := by
  rintro _ ⟨⟩
  exact holds

end Fallible

end Stylesheet
