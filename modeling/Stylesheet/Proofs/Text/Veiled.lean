import Mathlib.Data.List.Find
import Stylesheet.Proofs.Modifier.Flags

/-!
# Texts that hide something

Texts may be the same but for what stands between quotes or parentheses. Trimming them,
and taking flags off them, then leaves texts that are the same but for that as well.
-/

namespace Stylesheet

namespace Text

/-- The characters that something hidden begins with. -/
def covers : List Char := ['"', '\'', '(']

/-- The characters that something hidden ends with. -/
def uncovers : List Char := ['"', '\'', ')']

/-- Texts that are the same but for what they hide. -/
inductive Veiled : Text → Text → Prop
  | nil : Veiled [] []
  | keep {first second : Text} (character : Char) (veiled : Veiled first second) :
      Veiled (character :: first) (character :: second)
  | hide {first second : Text} {opening closing : Char} (opens : opening ∈ covers)
      (closes : closing ∈ uncovers) (firstInner secondInner : Text)
      (veiled : Veiled first second) :
      Veiled (opening :: (firstInner ++ closing :: first))
        (opening :: (secondInner ++ closing :: second))

theorem isBlank_of_mem_covers {opening : Char} (opens : opening ∈ covers) :
    isBlank opening = false := by
  have all : ∀ opening ∈ covers, isBlank opening = false := by decide
  exact all opening opens

theorem isBlank_of_mem_uncovers {closing : Char} (closes : closing ∈ uncovers) :
    isBlank closing = false := by
  have all : ∀ closing ∈ uncovers, isBlank closing = false := by decide
  exact all closing closes

theorem mem_flagless_of_mem_uncovers {closing : Char} (closes : closing ∈ uncovers) :
    closing ∈ flagless := by
  have all : ∀ closing ∈ uncovers, closing ∈ flagless := by decide
  exact all closing closes

/-- What stands in front of a character that shows is not trimmed at its back. -/
theorem trimEnd_append_cons {visible : Char} (shows : isBlank visible = false)
    (before behind : Text) :
    trimEnd (before ++ visible :: behind) = before ++ visible :: trimEnd behind := by
  induction before with
  | nil => rw [List.nil_append, trimEnd_cons, shows, Bool.and_false, if_neg Bool.false_ne_true,
      List.nil_append]
  | cons character before induction =>
      rw [List.cons_append, trimEnd_cons, induction, List.isEmpty_eq_false_iff.mpr (by simp),
        Bool.false_and, if_neg Bool.false_ne_true, List.cons_append]

namespace Veiled

variable {first second : Text}

theorem refl (text : Text) : Veiled text text := by
  induction text with
  | nil => exact nil
  | cons character text induction => exact induction.keep character

theorem symm (veiled : Veiled first second) : Veiled second first := by
  induction veiled with
  | nil => exact nil
  | keep character _ induction => exact induction.keep character
  | hide opens closes firstInner secondInner _ induction =>
      exact induction.hide opens closes secondInner firstInner

theorem append {firstBehind secondBehind : Text} (before : Veiled first second)
    (behind : Veiled firstBehind secondBehind) :
    Veiled (first ++ firstBehind) (second ++ secondBehind) := by
  induction before with
  | nil => exact behind
  | keep character _ induction => exact induction.keep character
  | hide opens closes firstInner secondInner _ induction =>
      simp only [List.cons_append, List.append_assoc]
      exact induction.hide opens closes firstInner secondInner

theorem head?_eq (veiled : Veiled first second) : first.head? = second.head? := by
  cases veiled <;> rfl

theorem isEmpty_eq (veiled : Veiled first second) : first.isEmpty = second.isEmpty := by
  cases veiled <;> rfl

/-! ## Trimming -/

theorem trimStart (veiled : Veiled first second) : Veiled first.trimStart second.trimStart := by
  unfold Text.trimStart
  induction veiled with
  | nil => exact nil
  | keep character veiled induction =>
      rw [List.dropWhile_cons, List.dropWhile_cons]
      split
      · exact induction
      · exact veiled.keep character
  | hide opens closes firstInner secondInner veiled =>
      have shows := Bool.eq_false_iff.mp (isBlank_of_mem_covers opens)
      rw [List.dropWhile_cons_of_neg shows, List.dropWhile_cons_of_neg shows]
      exact veiled.hide opens closes firstInner secondInner

theorem trimEnd (veiled : Veiled first second) : Veiled first.trimEnd second.trimEnd := by
  induction veiled with
  | nil => exact nil
  | keep character _ induction =>
      rw [trimEnd_cons, trimEnd_cons, induction.isEmpty_eq]
      split
      · exact nil
      · exact induction.keep character
  | @hide first second opening closing opens closes firstInner secondInner _ induction =>
      have shows := isBlank_of_mem_uncovers closes
      have hidden (inner behind : Text) :
          Text.trimEnd (opening :: (inner ++ closing :: behind)) =
            opening :: (inner ++ closing :: behind.trimEnd) :=
        trimEnd_append_cons shows (opening :: inner) behind
      rw [hidden, hidden]
      exact induction.hide opens closes firstInner secondInner

theorem trim (veiled : Veiled first second) : Veiled first.trim second.trim :=
  veiled.trimStart.trimEnd

/-! ## Cutting -/

theorem eq_of_flagless (veiled : Veiled first second)
    (noFlagless : ∀ character ∈ flagless, character ∉ first) : first = second := by
  induction veiled with
  | nil => rfl
  | keep character _ induction =>
      rw [induction fun other isFlagless member =>
        noFlagless other isFlagless (List.mem_cons_of_mem _ member)]
  | hide _ closes =>
      exact absurd (by simp) (noFlagless _ (mem_flagless_of_mem_uncovers closes))

/-- What can be taken off one text can be taken off the other. -/
theorem cut {front written : Text} (veiled : Veiled (front ++ written) second)
    (noFlagless : ∀ character ∈ flagless, character ∉ written) :
    ∃ other, second = other ++ written ∧ Veiled front other := by
  generalize whole : front ++ written = text at veiled
  induction veiled generalizing front with
  | nil =>
      obtain ⟨rfl, rfl⟩ := List.append_eq_nil_iff.mp whole
      exact ⟨[], rfl, nil⟩
  | keep character veiled induction =>
      cases front with
      | nil =>
          rw [List.nil_append] at whole
          subst whole
          exact ⟨[], ((veiled.keep character).eq_of_flagless noFlagless).symm, nil⟩
      | cons head front =>
          obtain ⟨rfl, later⟩ := List.cons.inj whole
          obtain ⟨other, rfl, covered⟩ := induction later
          exact ⟨head :: other, rfl, covered.keep head⟩
  | @hide first second opening closing opens closes firstInner secondInner veiled induction =>
      have split : front ++ written = (opening :: firstInner ++ [closing]) ++ first := by
        rw [whole]
        simp
      have notWritten := noFlagless closing (mem_flagless_of_mem_uncovers closes)
      -- The hidden text ends before what is written begins.
      obtain ⟨later, rfl, behind⟩ : ∃ later,
          front = (opening :: firstInner ++ [closing]) ++ later ∧ later ++ written = first := by
        rcases List.append_eq_append_iff.mp split with ⟨more, hidden, tail⟩ | ⟨later, same, tail⟩
        · rcases List.eq_nil_or_concat more with rfl | ⟨inner, last, rfl⟩
          · rw [List.append_nil] at hidden
            exact ⟨[], by rw [hidden, List.append_nil], tail⟩
          · have ends := congrArg List.getLast? hidden
            rw [List.getLast?_concat, List.concat_eq_append, ← List.append_assoc,
              List.getLast?_concat, Option.some.injEq] at ends
            subst ends
            exact absurd (by rw [tail]; simp) notWritten
        · exact ⟨later, same, tail.symm⟩
      obtain ⟨other, rfl, covered⟩ := induction behind
      refine ⟨opening :: (secondInner ++ closing :: other), by simp, ?_⟩
      have hidden := covered.hide opens closes firstInner secondInner
      simpa using hidden

end Veiled

end Text

/-! ## Flags -/

namespace Flagged

/-- A value ends with a flag whatever stands in front of the flag. -/
theorem isSuffixOf_append {name front written : Text} (isDefault : name ∈ defaultModifiers)
    (length : written.length = (flag name).length)
    (ends : (flag name).isSuffixOf (Text.lowercase (front ++ written)) = true) (other : Text) :
    (flag name).isSuffixOf (Text.lowercase (other ++ written)) = true := by
  have plain : ∀ name ∈ defaultModifiers, ∀ character ∈ flag name,
      character ≠ Text.smallSigma ∧ character ≠ Text.finalSigma := by decide
  obtain ⟨before, pieces, split, same, each⟩ := exists_pieces_of_isSuffixOf isDefault ends
  have lengths := congrArg List.length same
  simp only [List.length_map] at lengths
  obtain ⟨-, rfl⟩ := List.append_inj' split (by rw [length, List.length_map, lengths])
  obtain ⟨lowered, shown⟩ := Text.lowercaseAfter_append [] other (pieces.map (·.1))
  rw [List.isSuffixOf_iff_suffix, Text.lowercase, shown,
    Text.lowercaseAfter_pieces each (plain name isDefault) same]
  exact List.suffix_append ..

theorem isSuffixOf_of_veiled {name first second : Text} (isDefault : name ∈ defaultModifiers)
    (veiled : first.Veiled second)
    (ends : (flag name).isSuffixOf (Text.lowercase first) = true) :
    (flag name).isSuffixOf (Text.lowercase second) = true := by
  obtain ⟨front, written, rfl, length, noFlagless⟩ := exists_of_flag_isSuffix isDefault ends
  obtain ⟨other, rfl, -⟩ := veiled.cut noFlagless
  exact isSuffixOf_append isDefault length ends other

theorem next?_eq_of_veiled {first second : Text} (veiled : first.Veiled second)
    (taken : NameSet) :
    next? defaultModifiers ⟨first, taken⟩ = next? defaultModifiers ⟨second, taken⟩ := by
  unfold next?
  refine List.find?_congr fun name isDefault => congrArg₂ (· && ·) rfl ?_
  exact Bool.eq_iff_iff.mpr ⟨isSuffixOf_of_veiled isDefault veiled,
    isSuffixOf_of_veiled isDefault veiled.symm⟩

/-- The same flags are taken off texts that are the same but for what they hide. -/
theorem takeAll_of_veiled (rounds : Nat) {first second : Text} (veiled : first.Veiled second)
    (taken : NameSet) :
    (takeAll defaultModifiers rounds ⟨first, taken⟩).value.Veiled
        (takeAll defaultModifiers rounds ⟨second, taken⟩).value ∧
      (takeAll defaultModifiers rounds ⟨first, taken⟩).modifiers =
        (takeAll defaultModifiers rounds ⟨second, taken⟩).modifiers := by
  induction rounds generalizing first second taken with
  | zero => exact ⟨veiled, rfl⟩
  | succ rounds induction =>
      rw [takeAll, takeAll, veiled.isEmpty_eq, next?_eq_of_veiled veiled]
      split
      · exact ⟨veiled, rfl⟩
      · cases found : next? defaultModifiers ⟨second, taken⟩ with
        | none => exact ⟨veiled, rfl⟩
        | some name =>
            rw [← next?_eq_of_veiled veiled] at found
            obtain ⟨isDefault, -, ends⟩ := next?_eq_some found
            obtain ⟨front, written, rfl, length, noFlagless⟩ :=
              exists_of_flag_isSuffix isDefault ends
            obtain ⟨other, rfl, covered⟩ := veiled.cut noFlagless
            have left (front : Text) : take ⟨front ++ written, taken⟩ name =
                ⟨front.trim, taken.insert name⟩ := by
              rw [take, List.length_append, length, Nat.add_sub_cancel, List.take_left]
            dsimp only
            rw [left, left]
            exact induction covered.trim _

theorem ofValue_of_veiled {first second : Text} (veiled : first.Veiled second) :
    (ofValue defaultModifiers first).value.Veiled (ofValue defaultModifiers second).value ∧
      (ofValue defaultModifiers first).modifiers = (ofValue defaultModifiers second).modifiers :=
  takeAll_of_veiled _ veiled _

end Flagged

end Stylesheet
