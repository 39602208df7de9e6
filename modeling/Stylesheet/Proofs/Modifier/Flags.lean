import Mathlib.Data.List.Induction
import Stylesheet.Modifier
import Stylesheet.Options.Tokenizing
import Stylesheet.Proofs.Text.Blank
import Stylesheet.Rendering

/-!
# Flags at the end of a value

Flags are looked for in lower case. Lower-casing goes character by character, so a flag
in lower case at the end stands for as many characters as it has itself.
-/

namespace Stylesheet

namespace Text

/-! ## Lower case, character by character -/

/-- A character in lower case, wherever it stands. -/
def Lowers (character : Char) (lowered : Text) : Prop :=
  lowered = lowercaseCharacter character ∨ character = capitalSigma ∧ lowered = [finalSigma]

theorem exists_lowercaseAfter_cons (preceding : Text) (character : Char) (rest : Text) :
    ∃ head, Lowers character head ∧
      lowercaseAfter preceding (character :: rest) =
        head ++ lowercaseAfter (character :: preceding) rest := by
  rw [lowercaseAfter]
  refine ⟨_, ?_, rfl⟩
  split
  next sigma =>
    have small : lowercaseCharacter capitalSigma = [smallSigma] := by decide
    split
    · exact Or.inr ⟨sigma, rfl⟩
    · exact Or.inl (sigma ▸ small.symm)
  next => exact Or.inl rfl

theorem exists_lowers (preceding text : Text) :
    ∃ pieces : List (Char × Text), text = pieces.map (·.1) ∧
      lowercaseAfter preceding text = pieces.flatMap (·.2) ∧
        ∀ piece ∈ pieces, Lowers piece.1 piece.2 := by
  induction text generalizing preceding with
  | nil => exact ⟨[], rfl, rfl, by simp⟩
  | cons character rest induction =>
      obtain ⟨head, lowers, first⟩ := exists_lowercaseAfter_cons preceding character rest
      obtain ⟨pieces, same, lowered, each⟩ := induction (character :: preceding)
      refine ⟨(character, head) :: pieces, by rw [same]; rfl, ?_, ?_⟩
      · rw [first, lowered]
        rfl
      · intro piece member
        rcases List.mem_cons.mp member with rfl | member
        · exact lowers
        · exact each piece member

theorem lowercaseAfter_append (preceding first second : Text) :
    ∃ front, lowercaseAfter preceding (first ++ second) =
      front ++ lowercaseAfter (first.reverse ++ preceding) second := by
  induction first generalizing preceding with
  | nil => exact ⟨[], rfl⟩
  | cons character rest induction =>
      obtain ⟨front, later⟩ := induction (character :: preceding)
      rw [List.cons_append, lowercaseAfter, later]
      rw [List.reverse_cons, List.append_assoc, List.singleton_append, ← List.append_assoc]
      exact ⟨_, rfl⟩

/-- The dot that stands alone where the dotted capital I is lower-cased. -/
def combiningDot : Char := Char.ofNat 0x307

theorem Lowers.eq_singleton {character last : Char} {lowered : Text}
    (lowers : Lowers character lowered) (ends : lowered.getLast? = some last)
    (noDot : last ≠ combiningDot) : lowered = [last] := by
  rcases lowers with rfl | ⟨rfl, rfl⟩
  · unfold lowercaseCharacter at ends ⊢
    split at ends
    · cases ends
      exact absurd rfl noDot
    next different =>
      rw [if_neg different]
      split at ends
      · cases ends
        rfl
      · cases ends
        rfl
  · cases ends
    rfl

theorem Lowers.ne_nil {character : Char} {lowered : Text}
    (lowers : Lowers character lowered) : lowered ≠ [] := by
  rcases lowers with rfl | ⟨rfl, rfl⟩
  · unfold lowercaseCharacter
    split
    · simp
    · split <;> simp
  · simp

/-- What a text ends with in lower case comes from as many characters. -/
theorem exists_of_isSuffix {pieces : List (Char × Text)} {suffix : Text}
    (each : ∀ piece ∈ pieces, Lowers piece.1 piece.2) (noDot : combiningDot ∉ suffix)
    (ends : suffix <:+ pieces.flatMap (·.2)) :
    ∃ front back, pieces = front ++ back ∧ back.map (·.2) = suffix.map ([·]) := by
  generalize turned : suffix.reverse = reversed
  induction reversed generalizing suffix pieces with
  | nil =>
      rw [List.reverse_eq_nil_iff] at turned
      subst turned
      exact ⟨pieces, [], (List.append_nil _).symm, rfl⟩
  | cons last reversed induction =>
      obtain rfl : suffix = reversed.reverse ++ [last] := by
        rw [← List.reverse_cons, ← turned, List.reverse_reverse]
      obtain ⟨before, split⟩ := ends
      rcases List.eq_nil_or_concat pieces with rfl | ⟨earlier, piece, rfl⟩
      · simp at split
      · rw [List.concat_eq_append] at each split ⊢
        have lowers := each piece (by simp)
        have ends : piece.2.getLast? = some last := by
          have whole := congrArg List.getLast? split
          rw [← List.append_assoc, List.getLast?_concat, List.flatMap_append,
            List.getLast?_append] at whole
          cases found : piece.2.getLast? with
          | none => exact absurd (List.getLast?_eq_none_iff.mp found) lowers.ne_nil
          | some other => simpa [found] using whole.symm
        have single := lowers.eq_singleton ends fun same => noDot (by simp [same])
        have earlierSplit : before ++ reversed.reverse = earlier.flatMap (·.2) := by
          rw [List.flatMap_append, List.flatMap_singleton, single, ← List.append_assoc] at split
          exact (List.append_inj' split rfl).1
        obtain ⟨front, back, rfl, same⟩ := induction
          (fun other member => each other (List.mem_append_left _ member))
          (fun member => noDot (List.mem_append_left _ member)) ⟨before, earlierSplit⟩
          (List.reverse_reverse _)
        refine ⟨front, back ++ [piece], List.append_assoc .., ?_⟩
        rw [List.map_append, List.map_append, same, List.map_singleton, single]
        rfl

/-- Where no sigma is involved, lower case does not depend on what stands before. -/
theorem lowercaseAfter_pieces {pieces : List (Char × Text)} {lowered : Text}
    (each : ∀ piece ∈ pieces, Lowers piece.1 piece.2)
    (noSigma : ∀ character ∈ lowered, character ≠ smallSigma ∧ character ≠ finalSigma)
    (same : pieces.map (·.2) = lowered.map ([·])) (preceding : Text) :
    lowercaseAfter preceding (pieces.map (·.1)) = lowered := by
  induction pieces generalizing lowered preceding with
  | nil =>
      obtain rfl : lowered = [] := by simpa using same.symm
      rfl
  | cons piece pieces induction =>
      obtain ⟨character, spelled⟩ := piece
      cases lowered with
      | nil => cases same
      | cons head lowered =>
          obtain ⟨rfl, later⟩ := List.cons.inj same
          obtain ⟨notSmall, notFinal⟩ := noSigma head List.mem_cons_self
          have small : lowercaseCharacter capitalSigma = [smallSigma] := by decide
          have notCapital : character ≠ capitalSigma ∧ lowercaseCharacter character = [head] := by
            rcases each _ List.mem_cons_self with equal | ⟨-, equal⟩
            · refine ⟨?_, equal.symm⟩
              rintro rfl
              rw [small] at equal
              exact notSmall (List.cons.inj equal).1
            · exact absurd (List.cons.inj equal).1 notFinal
          rw [List.map_cons, lowercaseAfter, if_neg notCapital.1, notCapital.2,
            induction (fun other member => each other (List.mem_cons_of_mem _ member))
              (fun other member => noSigma other (List.mem_cons_of_mem _ member)) later]
          rfl

/-- Characters that are their own lower case and stand in no flag. -/
def flagless : List Char := ['"', '\'', ')', ';', '\\']

theorem eq_of_mem_flagless {character lowered : Char} (isFlagless : character ∈ flagless)
    (lowers : Lowers character [lowered]) : lowered = character := by
  have table : ∀ other ∈ flagless, lowercaseCharacter other = [other] ∧ other ≠ capitalSigma := by
    decide
  obtain ⟨same, noSigma⟩ := table character isFlagless
  rcases lowers with equal | ⟨sigma, -⟩
  · rw [same] at equal
    exact (List.cons.inj equal).1
  · exact absurd sigma noSigma

theorem count_trim (text : Text) : (trim text).count ';' = text.count ';' := by
  obtain ⟨front, back, frontBlank, backBlank, split⟩ := exists_append_trim_append text
  have none_ {blank : Text} (isBlank : Blank blank) : blank.count ';' = 0 :=
    List.count_eq_zero.mpr fun member => by cases isBlank ';' member
  conv => rhs; rw [split]
  rw [List.count_append, List.count_append, none_ frontBlank, none_ backBlank, Nat.zero_add,
    Nat.add_zero]

end Text

namespace NameSet

theorem eq_of_ascending {first second : List Text} (firstAscends : first.Pairwise (· < ·))
    (secondAscends : second.Pairwise (· < ·)) (same : ∀ name, name ∈ first ↔ name ∈ second) :
    first = second := by
  induction first generalizing second with
  | nil => exact (List.eq_nil_iff_forall_not_mem.mpr fun name member => by
      simpa using (same name).mpr member).symm
  | cons head first induction =>
      rw [List.pairwise_cons] at firstAscends
      cases second with
      | nil => simpa using (same head).mp List.mem_cons_self
      | cons other second =>
          rw [List.pairwise_cons] at secondAscends
          have heads : head = other := by
            rcases List.mem_cons.mp ((same head).mp List.mem_cons_self) with equal | later
            · exact equal
            · rcases List.mem_cons.mp ((same other).mpr List.mem_cons_self) with equal | earlier
              · exact equal.symm
              · exact absurd (secondAscends.1 head later)
                  (List.lt_asymm (firstAscends.1 other earlier))
          subst heads
          congr 1
          apply induction firstAscends.2 secondAscends.2
          intro name
          constructor
          · intro member
            rcases List.mem_cons.mp ((same name).mp (List.mem_cons_of_mem _ member)) with
              rfl | later
            · exact absurd (firstAscends.1 name member) (List.lt_irrefl name)
            · exact later
          · intro member
            rcases List.mem_cons.mp ((same name).mpr (List.mem_cons_of_mem _ member)) with
              rfl | later
            · exact absurd (secondAscends.1 name member) (List.lt_irrefl name)
            · exact later

theorem ext_contains {first second : NameSet}
    (same : ∀ name, first.contains name = second.contains name) : first = second := by
  obtain ⟨firstNames, firstAscends⟩ := first
  obtain ⟨secondNames, secondAscends⟩ := second
  congr 1
  apply eq_of_ascending firstAscends secondAscends
  intro name
  have equal := same name
  rw [contains, contains, Bool.eq_iff_iff, List.contains_iff_mem, List.contains_iff_mem] at equal
  exact equal

end NameSet

/-! ## Flags -/

namespace Flagged

/-- A value that ends with a flag in lower case ends with as many characters. -/
theorem exists_pieces_of_isSuffixOf {name value : Text} (isDefault : name ∈ defaultModifiers)
    (ends : (flag name).isSuffixOf (Text.lowercase value) = true) :
    ∃ (front : Text) (pieces : List (Char × Text)), value = front ++ pieces.map (·.1) ∧
      pieces.map (·.2) = (flag name).map ([·]) ∧
        ∀ piece ∈ pieces, Text.Lowers piece.1 piece.2 := by
  have noDot : ∀ name ∈ defaultModifiers, Text.combiningDot ∉ flag name := by decide
  obtain ⟨pieces, rfl, lowered, each⟩ := Text.exists_lowers [] value
  rw [List.isSuffixOf_iff_suffix, Text.lowercase, lowered] at ends
  obtain ⟨front, back, rfl, same⟩ := Text.exists_of_isSuffix each (noDot name isDefault) ends
  exact ⟨front.map (·.1), back, List.map_append, same,
    fun piece member => each piece (List.mem_append_right _ member)⟩

/-- A value that ends with a flag in lower case ends with as many characters, none of
which stands for itself only. -/
theorem exists_of_flag_isSuffix {name value : Text} (isDefault : name ∈ defaultModifiers)
    (ends : (flag name).isSuffixOf (Text.lowercase value) = true) :
    ∃ front written, value = front ++ written ∧ written.length = (flag name).length ∧
      ∀ character ∈ Text.flagless, character ∉ written := by
  have plain : ∀ name ∈ defaultModifiers,
      ∀ character ∈ Text.flagless, character ∉ flag name := by decide
  obtain ⟨front, pieces, split, same, each⟩ := exists_pieces_of_isSuffixOf isDefault ends
  refine ⟨front, pieces.map (·.1), split, ?_, ?_⟩
  · have lengths := congrArg List.length same
    simpa using lengths
  · intro character isFlagless member
    obtain ⟨piece, inPieces, rfl⟩ := List.mem_map.mp member
    have inSame : piece.2 ∈ (flag name).map ([·]) := same ▸ List.mem_map_of_mem inPieces
    obtain ⟨lowered, inFlag, single⟩ := List.mem_map.mp inSame
    have lowers := each piece inPieces
    rw [← single] at lowers
    rw [Text.eq_of_mem_flagless isFlagless lowers] at inFlag
    exact plain name isDefault _ isFlagless inFlag

variable {names : List Text} {flagged : Flagged}

theorem next?_eq_some {name : Text} (found : flagged.next? names = some name) :
    name ∈ names ∧ flagged.modifiers.contains name = false ∧
      (flag name).isSuffixOf (Text.lowercase flagged.value) = true := by
  have holds := List.find?_some found
  rw [Bool.and_eq_true, Bool.not_eq_true'] at holds
  exact ⟨List.mem_of_find?_eq_some found, holds.1, holds.2⟩

theorem next?_eq_none_iff :
    flagged.next? names = none ↔ ∀ name ∈ names, flagged.modifiers.contains name = false →
      (flag name).isSuffixOf (Text.lowercase flagged.value) = false := by
  rw [next?, List.find?_eq_none]
  constructor
  · intro noNext name isName untaken
    exact Bool.eq_false_iff.mpr fun ends => noNext name isName (by rw [untaken, ends]; rfl)
  · intro noFlag name isName holds
    rw [Bool.and_eq_true, Bool.not_eq_true'] at holds
    rw [noFlag name isName holds.1] at holds
    cases holds.2

theorem value_take {name : Text} (found : flagged.next? defaultModifiers = some name) :
    ∃ front written, flagged.value = front ++ written ∧ written ≠ [] ∧
      (∀ character ∈ Text.flagless, character ∉ written) ∧
        (flagged.take name).value = front.trim := by
  obtain ⟨isDefault, -, ends⟩ := next?_eq_some found
  obtain ⟨front, written, split, length, noFlagless⟩ := exists_of_flag_isSuffix isDefault ends
  refine ⟨front, written, split, ?_, noFlagless, ?_⟩
  · rintro rfl
    simp [flag] at length
  · have kept : flagged.value.length - (flag name).length = front.length := by
      rw [split, List.length_append]
      omega
    rw [take, kept, split, List.take_left]

/-- What holds of a value and stays when a flag is cut off holds of what is left. -/
theorem value_takeAll (property : Text → Prop) (rounds : Nat) (flagged : Flagged)
    (kept : ∀ {front written : Text}, written ≠ [] →
      (∀ character ∈ Text.flagless, character ∉ written) →
        property (front ++ written) → property front.trim)
    (holds : property flagged.value) :
    property (takeAll defaultModifiers rounds flagged).value := by
  induction rounds generalizing flagged with
  | zero => exact holds
  | succ rounds induction =>
      rw [takeAll]
      split
      · exact holds
      · split
        · exact holds
        next name found =>
          obtain ⟨front, written, split, notEmpty, noFlagless, left⟩ := value_take found
          apply induction
          rw [left]
          rw [split] at holds
          exact kept notEmpty noFlagless holds

theorem takeAll_eq_or (rounds : Nat) (flagged : Flagged) :
    takeAll defaultModifiers rounds flagged = flagged ∨
      ∃ name front written, flagged.next? defaultModifiers = some name ∧
        flagged.value = front ++ written ∧ written ≠ [] ∧
          ∀ character ∈ Text.flagless, character ∉ written := by
  cases rounds with
  | zero => exact Or.inl rfl
  | succ rounds =>
      rw [takeAll]
      split
      · exact Or.inl rfl
      · split
        · exact Or.inl rfl
        next name found =>
          obtain ⟨front, written, split, notEmpty, noFlagless, -⟩ := value_take found
          exact Or.inr ⟨name, front, written, found, split, notEmpty, noFlagless⟩

theorem contains_takeAll (rounds : Nat) (flagged : Flagged) (name : Text) :
    (takeAll names rounds flagged).modifiers.contains name = true →
      flagged.modifiers.contains name = true ∨ name ∈ names := by
  induction rounds generalizing flagged with
  | zero => exact Or.inl
  | succ rounds induction =>
      rw [takeAll]
      split
      · exact Or.inl
      · split
        · exact Or.inl
        next other found =>
          intro contained
          rcases induction _ contained with contained | isName
          · rw [take, NameSet.contains_insert, Bool.or_eq_true, beq_iff_eq] at contained
            rcases contained with rfl | contained
            · exact Or.inr (next?_eq_some found).1
            · exact Or.inl contained
          · exact Or.inr isName

theorem trim_value_takeAll (rounds : Nat) {flagged : Flagged}
    (trimmed : flagged.value.trim = flagged.value) :
    (takeAll names rounds flagged).value.trim = (takeAll names rounds flagged).value := by
  induction rounds generalizing flagged with
  | zero => exact trimmed
  | succ rounds induction =>
      rw [takeAll]
      split
      · exact trimmed
      · split
        · exact trimmed
        next name found => exact induction (Text.trim_trim _)

/-- Once flags have been taken for as many rounds as there are names left, no flag of a
name that is left ends the value. -/
theorem next?_takeAll {rounds : Nat} {flagged : Flagged}
    (enough : (names.filter (!flagged.modifiers.contains ·)).length ≤ rounds) :
    (takeAll names rounds flagged).value = [] ∨
      (takeAll names rounds flagged).next? names = none := by
  induction rounds generalizing flagged with
  | zero =>
      have noneLeft := List.filter_eq_nil_iff.mp (List.length_eq_zero_iff.mp (Nat.le_zero.mp enough))
      refine Or.inr (next?_eq_none_iff.mpr fun name isName untaken => ?_)
      have taken := noneLeft name isName
      simp [takeAll] at untaken
      simp [untaken] at taken
  | succ rounds induction =>
      rw [takeAll]
      split
      next empty => exact Or.inl (List.isEmpty_iff.mp empty)
      · split
        next noNext => exact Or.inr noNext
        next name found =>
          obtain ⟨isName, untaken, -⟩ := next?_eq_some found
          apply induction
          have fewer : (names.filter (!(flagged.take name).modifiers.contains ·)).length <
              (names.filter (!flagged.modifiers.contains ·)).length := by
            have nested : names.filter (!(flagged.take name).modifiers.contains ·) =
                (names.filter (!flagged.modifiers.contains ·)).filter (· != name) := by
              rw [List.filter_filter]
              apply List.filter_congr
              intro other _
              rw [take, NameSet.contains_insert, Bool.not_or]
              rfl
            rw [nested]
            apply List.length_filter_lt_length_iff_exists.mpr
            exact ⟨name, List.mem_filter.mpr ⟨isName, by simp [untaken]⟩, by simp⟩
          omega

theorem next?_ofValue (value : Text) :
    (ofValue defaultModifiers value).value = [] ∨
      (ofValue defaultModifiers value).next? defaultModifiers = none :=
  next?_takeAll (List.length_filter_le _ _)

theorem count_value_ofValue (value : Text) :
    (ofValue defaultModifiers value).value.count ';' = value.count ';' := by
  apply value_takeAll fun left => left.count ';' = value.count ';'
  · intro front written _ noFlagless same
    have noSemicolon := List.count_eq_zero.mpr (noFlagless ';' (by decide))
    rw [Text.count_trim, ← same, List.count_append, noSemicolon, Nat.add_zero]
  · exact Eq.refl (value.count ';')

/-! ## Written flags -/

open LayoutOptions (renderModifier)

/-- Whether a written flag is found, which depends on nothing but its name. -/
theorem isSuffixOf_written {name other : Text} (isName : name ∈ defaultModifiers)
    (isOther : other ∈ defaultModifiers) (text : Text) :
    (flag name).isSuffixOf (Text.lowercase (text ++ renderModifier other)) =
      (name == other) := by
  have plain (preceding : Text) : ∀ other ∈ defaultModifiers,
      Text.lowercaseAfter preceding (renderModifier other) = renderModifier other := by
    intro other isOther
    rcases List.mem_cons.mp isOther with rfl | isOther
    · rfl
    · obtain rfl := List.mem_singleton.mp isOther
      rfl
  obtain ⟨front, lowered⟩ := Text.lowercaseAfter_append [] text (renderModifier other)
  rw [Text.lowercase, lowered, plain _ other isOther, List.isSuffixOf, List.reverse_append]
  -- The flags differ in one of their last characters, before the text is looked at.
  rcases List.mem_cons.mp isName with rfl | isName <;>
    rcases List.mem_cons.mp isOther with rfl | isOther
  · rfl
  · obtain rfl := List.mem_singleton.mp isOther
    rfl
  · obtain rfl := List.mem_singleton.mp isName
    rfl
  · obtain rfl := List.mem_singleton.mp isName
    obtain rfl := List.mem_singleton.mp isOther
    rfl

theorem next?_written {name : Text} (isName : name ∈ defaultModifiers) (text : Text)
    {taken : NameSet} (untaken : taken.contains name = false) :
    next? defaultModifiers ⟨text ++ renderModifier name, taken⟩ = some name := by
  have holds (other : Text) (isOther : other ∈ defaultModifiers) :
      (flag other).isSuffixOf (Text.lowercase (text ++ renderModifier name)) = (other == name) :=
    isSuffixOf_written isOther isName text
  cases found : next? defaultModifiers ⟨text ++ renderModifier name, taken⟩ with
  | none =>
      have noFlag := next?_eq_none_iff.mp found name isName untaken
      rw [holds name isName, beq_self_eq_true] at noFlag
      cases noFlag
  | some other =>
      obtain ⟨isOther, -, ends⟩ := next?_eq_some found
      rw [holds other isOther, beq_iff_eq] at ends
      rw [ends]

theorem take_written {name : Text} (isName : name ∈ defaultModifiers) (text : Text)
    (taken : NameSet) :
    take ⟨text ++ renderModifier name, taken⟩ name = ⟨text.trim, taken.insert name⟩ := by
  have written : ∀ name ∈ defaultModifiers, renderModifier name = ' ' :: flag name := by decide
  have kept : (text ++ renderModifier name).length - (flag name).length =
      (text ++ [' ']).length := by
    rw [written name isName, List.length_append, List.length_append, List.length_cons,
      List.length_singleton]
    omega
  have cutOff : (text ++ renderModifier name).take (text ++ [' ']).length = text ++ [' '] := by
    rw [written name isName, List.append_cons text ' ' (flag name)]
    exact List.take_left
  have space : Text.Blank [' '] := by simp [Text.Blank, Text.isBlank_space]
  rw [take, kept, cutOff, Text.trim_append_blank space]

theorem isBlank_getLast?_written {written : List Text}
    (each : ∀ name ∈ written, name ∈ defaultModifiers) :
    ∀ last ∈ (written.flatMap renderModifier).getLast?, Text.isBlank last = false := by
  have table : ∀ name ∈ defaultModifiers, renderModifier name ≠ [] ∧
      ∀ last ∈ (renderModifier name).getLast?.toList, Text.isBlank last = false := by decide
  intro last found
  rcases List.eq_nil_or_concat written with rfl | ⟨earlier, name, rfl⟩
  · cases found
  · obtain ⟨notEmpty, visible⟩ := table name (each name (by simp))
    rw [List.concat_eq_append, List.flatMap_append, List.flatMap_singleton,
      List.getLast?_append] at found
    cases ends : (renderModifier name).getLast? with
    | none => exact absurd (List.getLast?_eq_none_iff.mp ends) notEmpty
    | some other =>
        rw [ends] at found
        cases found
        exact visible last (Option.mem_toList.mpr ends)

/-- The flag that is written last is taken first. -/
theorem takeAll_succ_written {name : Text} (isName : name ∈ defaultModifiers) {text : Text}
    (notEmpty : text ≠ []) {taken : NameSet} (untaken : taken.contains name = false)
    (rounds : Nat) :
    takeAll defaultModifiers (rounds + 1) ⟨text ++ renderModifier name, taken⟩ =
      takeAll defaultModifiers rounds ⟨text.trim, taken.insert name⟩ := by
  have visible : (text ++ renderModifier name).isEmpty = false := by simp [notEmpty]
  rw [takeAll, next?_written isName _ untaken, visible, if_neg Bool.false_ne_true]
  dsimp only
  rw [take_written isName]

/-- Flags that are written behind a value are taken from it again. -/
theorem takeAll_written {value : Text} {written : List Text} {rounds : Nat} {taken : NameSet}
    (trimmed : value.trim = value) (notEmpty : value ≠ []) (enough : written.length ≤ rounds)
    (each : ∀ name ∈ written, name ∈ defaultModifiers ∧ taken.contains name = false)
    (once : written.Nodup)
    (noFlag : ∀ name ∈ defaultModifiers, name ∉ written → taken.contains name = false →
      (flag name).isSuffixOf (Text.lowercase value) = false) :
    takeAll defaultModifiers rounds ⟨value ++ written.flatMap renderModifier, taken⟩ =
      ⟨value, written.foldr (fun name set => set.insert name) taken⟩ := by
  induction written using List.reverseRecOn generalizing rounds taken with
  | nil =>
      have noNext : next? defaultModifiers ⟨value, taken⟩ = none :=
        next?_eq_none_iff.mpr fun name isName untaken => noFlag name isName (by simp) untaken
      rw [List.flatMap_nil, List.append_nil, List.foldr_nil]
      cases rounds with
      | zero => rfl
      | succ rounds =>
          rw [takeAll, noNext]
          split <;> rfl
  | append_singleton earlier name induction =>
      obtain ⟨isName, untaken⟩ := each name (by simp)
      obtain ⟨earlierOnce, -, apart⟩ := List.nodup_append.mp once
      cases rounds with
      | zero => simp at enough
      | succ rounds =>
          have split : value ++ (earlier ++ [name]).flatMap renderModifier =
              (value ++ earlier.flatMap renderModifier) ++ renderModifier name := by
            rw [List.flatMap_append, List.flatMap_singleton, List.append_assoc]
          have stays := Text.trim_append_eq_self trimmed notEmpty
            (isBlank_getLast?_written fun other member =>
              (each other (List.mem_append_left _ member)).1)
          rw [split, takeAll_succ_written isName (by simp [notEmpty]) untaken, stays, induction,
            List.foldr_append, List.foldr_cons, List.foldr_nil]
          · rw [List.length_append, List.length_singleton] at enough
            omega
          · intro other member
            obtain ⟨isOther, otherUntaken⟩ := each other (List.mem_append_left _ member)
            refine ⟨isOther, ?_⟩
            rw [NameSet.contains_insert, otherUntaken, Bool.or_false, beq_eq_false_iff_ne]
            exact apart other member name List.mem_cons_self
          · exact earlierOnce
          · intro other isOther notEarlier otherUntaken
            rw [NameSet.contains_insert, Bool.or_eq_false_iff, beq_eq_false_iff_ne] at otherUntaken
            refine noFlag other isOther ?_ otherUntaken.2
            intro member
            rcases List.mem_append.mp member with member | member
            · exact notEarlier member
            · exact otherUntaken.1 (List.mem_singleton.mp member)

theorem contains_foldr_insert (names : List Text) (taken : NameSet) (name : Text) :
    (names.foldr (fun name set => set.insert name) taken).contains name =
      (names.contains name || taken.contains name) := by
  induction names with
  | nil => rfl
  | cons head names induction =>
      rw [List.foldr_cons, NameSet.contains_insert, induction, List.contains_cons, Bool.or_assoc]

/-- The value with the flags of its modifiers is taken apart into both again. -/
theorem ofValue_written {value : Text} {modifiers : NameSet}
    (trimmed : value.trim = value) (notEmpty : value ≠ [])
    (known : ∀ name, modifiers.contains name = true → name ∈ defaultModifiers)
    (noFlag : ∀ name ∈ defaultModifiers, modifiers.contains name = false →
      (flag name).isSuffixOf (Text.lowercase value) = false) :
    ofValue defaultModifiers (value ++
      (defaultModifiers.filter modifiers.contains).flatMap renderModifier) =
        ⟨value, modifiers⟩ := by
  have once : defaultModifiers.Nodup := by decide
  rw [ofValue, takeAll_written trimmed notEmpty (List.length_filter_le _ _)
    (fun name member => ⟨(List.mem_filter.mp member).1, NameSet.contains_empty name⟩)
    (once.filter _)]
  · congr 1
    apply NameSet.ext_contains
    intro name
    rw [contains_foldr_insert, NameSet.contains_empty, Bool.or_false, Bool.eq_iff_iff,
      List.contains_iff_mem, List.mem_filter]
    exact ⟨fun member => member.2, fun contained => ⟨known name contained, contained⟩⟩
  · intro name isName notWritten _
    apply noFlag name isName
    rw [List.mem_filter] at notWritten
    simpa [isName] using notWritten

end Flagged
end Stylesheet
