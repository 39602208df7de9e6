import Stylesheet.Text.Blank

/-!
# Trimming

Trimming takes blanks off both ends and nothing else.
-/

namespace Stylesheet
namespace Text

/-- What holds of all the characters of a text is decided by going through the text. -/
instance (property : Char → Prop) [DecidablePred property] (text : Text) :
    Decidable (∀ character ∈ text, property character) :=
  List.decidableBAll property text

/-- A text in which there is nothing to see. -/
def Blank (text : Text) : Prop :=
  ∀ character ∈ text, isBlank character = true
  deriving Decidable

theorem blank_nil : Blank [] := by
  intro character member
  cases member

theorem Blank.head {character : Char} {rest : Text} (blank : Blank (character :: rest)) :
    isBlank character = true :=
  blank character List.mem_cons_self

theorem Blank.tail {character : Char} {rest : Text} (blank : Blank (character :: rest)) :
    Blank rest :=
  fun other member => blank other (List.mem_cons_of_mem _ member)

theorem blank_append {first second : Text} :
    Blank (first ++ second) ↔ Blank first ∧ Blank second := by
  constructor
  · intro blank
    exact ⟨fun character member => blank character (List.mem_append_left _ member),
      fun character member => blank character (List.mem_append_right _ member)⟩
  · rintro ⟨firstBlank, secondBlank⟩ character member
    rcases List.mem_append.mp member with inFirst | inSecond
    · exact firstBlank character inFirst
    · exact secondBlank character inSecond

theorem blank_singleton {character : Char} : Blank [character] ↔ isBlank character = true := by
  simp [Blank]

theorem trimStart_append_of_blank {front : Text} (blank : Blank front) (text : Text) :
    trimStart (front ++ text) = trimStart text := by
  induction front with
  | nil => rfl
  | cons character front induction =>
      rw [trimStart, List.cons_append, List.dropWhile_cons_of_pos blank.head]
      exact induction blank.tail

theorem exists_append_trimStart (text : Text) :
    ∃ front, Blank front ∧ text = front ++ trimStart text := by
  refine ⟨text.takeWhile isBlank, ?_, List.takeWhile_append_dropWhile.symm⟩
  intro character member
  exact List.all_eq_true.mp List.all_takeWhile character member

theorem exists_trimEnd_append (text : Text) :
    ∃ back, Blank back ∧ text = trimEnd text ++ back := by
  induction text with
  | nil => exact ⟨[], blank_nil, rfl⟩
  | cons character rest induction =>
      obtain ⟨back, blank, split⟩ := induction
      rw [trimEnd_cons]
      split
      next ends =>
        obtain ⟨nothing, isBlank⟩ := Bool.and_eq_true_iff.mp ends
        rw [List.isEmpty_iff.mp nothing, List.nil_append] at split
        refine ⟨character :: back, ?_, by rw [← split]; rfl⟩
        intro other member
        rcases List.mem_cons.mp member with rfl | inBack
        · exact isBlank
        · exact blank other inBack
      next => exact ⟨back, blank, by rw [List.cons_append, ← split]⟩

theorem length_trimEnd_le (text : Text) : (trimEnd text).length ≤ text.length := by
  obtain ⟨back, -, split⟩ := exists_trimEnd_append text
  conv => rhs; rw [split]
  simp

/-- A text is its trimmed part between blanks. -/
theorem exists_append_trim_append (text : Text) :
    ∃ front back, Blank front ∧ Blank back ∧ text = front ++ (trim text ++ back) := by
  obtain ⟨front, frontBlank, startSplit⟩ := exists_append_trimStart text
  obtain ⟨back, backBlank, endSplit⟩ := exists_trimEnd_append (trimStart text)
  exact ⟨front, back, frontBlank, backBlank, startSplit.trans (by rw [trim, ← endSplit])⟩

theorem trim_blank_append {front : Text} (blank : Blank front) (text : Text) :
    trim (front ++ text) = trim text := by
  rw [trim, trim, trimStart_append_of_blank blank]

theorem trimEnd_of_blank {text : Text} (blank : Blank text) : trimEnd text = [] := by
  induction text with
  | nil => rfl
  | cons character rest induction =>
      rw [trimEnd_cons, induction blank.tail, blank.head]
      rfl

theorem trimEnd_append_of_blank {back : Text} (blank : Blank back) (text : Text) :
    trimEnd (text ++ back) = trimEnd text := by
  induction text with
  | nil => exact trimEnd_of_blank blank
  | cons character rest induction =>
      rw [List.cons_append, trimEnd_cons, trimEnd_cons, induction]

theorem trim_of_blank {text : Text} (blank : Blank text) : trim text = [] := by
  have whole := trim_blank_append blank []
  rwa [List.append_nil] at whole

theorem trim_append_blank {back : Text} (blank : Blank back) (text : Text) :
    trim (text ++ back) = trim text := by
  obtain ⟨front, frontBlank, split⟩ := exists_append_trimStart text
  rw [trim, trim]
  cases start : trimStart text with
  | nil =>
      rw [start, List.append_nil] at split
      have whole := trim_of_blank (blank_append.mpr ⟨split ▸ frontBlank, blank⟩)
      rw [trim] at whole
      rw [whole]
      rfl
  | cons character rest =>
      have kept : trimStart (text ++ back) = trimStart text ++ back := by
        conv => lhs; rw [split]
        rw [List.append_assoc, trimStart_append_of_blank frontBlank, start]
        have visible : isBlank character = false := by
          have head := List.head?_dropWhile_not isBlank text
          rw [← trimStart, start] at head
          simpa using head
        rw [List.cons_append, trimStart, List.dropWhile_cons_of_neg (by simp [visible])]
      rw [kept, trimEnd_append_of_blank blank, start]

theorem blank_of_trim_eq_nil {text : Text} (empty : trim text = []) : Blank text := by
  obtain ⟨front, back, frontBlank, backBlank, split⟩ := exists_append_trim_append text
  rw [split, empty]
  exact blank_append.mpr ⟨frontBlank, blank_append.mpr ⟨blank_nil, backBlank⟩⟩

/-! ## Trimmed texts -/

theorem trimEnd_eq_self {text : Text}
    (visible : ∀ last ∈ text.getLast?, isBlank last = false) : trimEnd text = text := by
  induction text with
  | nil => rfl
  | cons character rest induction =>
      rw [trimEnd_cons]
      cases rest with
      | nil =>
          have alone := visible character rfl
          rw [alone, Bool.and_false]
          rfl
      | cons next rest =>
          have inner := induction fun last found => visible last (by
            rw [List.getLast?_cons_cons]
            exact found)
          rw [inner]
          rfl

theorem isBlank_getLast?_of_trimEnd {text : Text} (trimmed : trimEnd text = text) :
    ∀ last ∈ text.getLast?, isBlank last = false := by
  intro last found
  obtain ⟨before, rfl⟩ := List.getLast?_eq_some_iff.mp found
  cases blank : isBlank last with
  | false => rfl
  | true =>
      rw [trimEnd_append_of_blank (blank_singleton.mpr blank)] at trimmed
      have shorter := length_trimEnd_le before
      rw [trimmed, List.length_append, List.length_singleton] at shorter
      omega

theorem trim_eq_self_iff {text : Text} :
    trim text = text ↔ (∀ first ∈ text.head?, isBlank first = false) ∧
      ∀ last ∈ text.getLast?, isBlank last = false := by
  constructor
  · intro trimmed
    have start : trimStart text = text := by
      rw [← trimmed, trim, trimStart_trimEnd_trimStart]
    have finish : trimEnd text = text := by
      conv => rhs; rw [← trimmed, trim, start]
    refine ⟨?_, ?_⟩
    · intro first found
      have head := List.head?_dropWhile_not isBlank text
      rw [← trimStart, start, found] at head
      simpa using head
    · exact isBlank_getLast?_of_trimEnd finish
  · rintro ⟨firstVisible, lastVisible⟩
    have start : trimStart text = text := by
      cases text with
      | nil => rfl
      | cons first rest =>
          rw [trimStart, List.dropWhile_cons_of_neg (by simp [firstVisible first rfl])]
    rw [trim, start, trimEnd_eq_self lastVisible]

theorem trim_append_eq_self {text back : Text} (trimmed : trim text = text)
    (notEmpty : text ≠ []) (visible : ∀ last ∈ back.getLast?, isBlank last = false) :
    trim (text ++ back) = text ++ back := by
  obtain ⟨firstVisible, lastVisible⟩ := trim_eq_self_iff.mp trimmed
  refine trim_eq_self_iff.mpr ⟨?_, ?_⟩
  · cases text with
    | nil => exact absurd rfl notEmpty
    | cons first rest => exact firstVisible
  · intro last found
    rw [List.getLast?_append] at found
    cases backLast : back.getLast? with
    | none =>
        rw [backLast] at found
        exact lastVisible last found
    | some other =>
        rw [backLast] at found
        cases found
        exact visible last backLast

theorem getLast?_trim {text : Text} {last : Char} (ends : text.getLast? = some last)
    (isVisible : isBlank last = false) : (trim text).getLast? = some last := by
  obtain ⟨front, back, frontBlank, backBlank, split⟩ := exists_append_trim_append text
  have notBlank {blank : Text} (isBlank : Blank blank) : blank.getLast? ≠ some last := by
    intro found
    rw [isBlank last (List.mem_of_getLast? found)] at isVisible
    cases isVisible
  rw [split, List.getLast?_append, List.getLast?_append] at ends
  cases backLast : back.getLast? with
  | some other =>
      rw [backLast] at ends
      exact absurd (backLast.trans ends) (notBlank backBlank)
  | none =>
      rw [backLast, Option.none_or] at ends
      cases found : (trim text).getLast? with
      | some other =>
          rw [found] at ends
          exact ends
      | none =>
          rw [found, Option.none_or] at ends
          exact absurd ends (notBlank frontBlank)

/-- Something visible behind a text that is not blank is kept. -/
theorem length_trim_lt {text : Text} (notBlank : ¬Blank text) {character : Char}
    (isVisible : isBlank character = false) (more : Text) :
    (trim text).length < (trim (text ++ character :: more)).length := by
  obtain ⟨front, back, frontBlank, backBlank, split⟩ := exists_append_trim_append text
  obtain ⟨white, whiteBlank, moreSplit⟩ := exists_trimEnd_append (character :: more)
  have kept : trimEnd (character :: more) = character :: trimEnd more := by
    rw [trimEnd_cons, isVisible, Bool.and_false, if_neg Bool.false_ne_true]
  have notEmpty : trim text ≠ [] := fun empty => notBlank (blank_of_trim_eq_nil empty)
  have whole : text ++ character :: more =
      front ++ ((trim text ++ (back ++ trimEnd (character :: more))) ++ white) := by
    conv => lhs; rw [split, moreSplit]
    simp only [List.append_assoc]
  have stays : trim (trim text ++ (back ++ trimEnd (character :: more))) =
      trim text ++ (back ++ trimEnd (character :: more)) := by
    apply trim_append_eq_self (trim_trim text) notEmpty
    intro last found
    rw [List.getLast?_append, kept, List.getLast?_cons, Option.some_or] at found
    apply isBlank_getLast?_of_trimEnd (trimEnd_trimEnd (character :: more))
    rwa [kept, List.getLast?_cons]
  rw [whole, trim_blank_append frontBlank, trim_append_blank whiteBlank, stays, kept]
  simp only [List.length_append, List.length_cons]
  omega

end Text
end Stylesheet
