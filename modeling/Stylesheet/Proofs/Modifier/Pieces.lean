import Stylesheet.Proofs.Modifier.Flags

/-!
# The pieces that are taken off a value

Behind the value that is left stand the flags that were taken, each as it was written and
with the blanks in front of it. A flag is found in lower case and is cut off by its length
in lower case. The dotted capital I alone grows when it is lower-cased, so a flag that was
written with it takes as many characters along that stand in front of it.
-/

namespace Stylesheet

namespace Text

/-! ## Lower case around an exclamation mark -/

theorem eq_of_ofNat_eq_mark {code : Nat} (isMark : Char.ofNat code = '!') : code = 0x21 := by
  by_cases valid : code.isValidChar
  · rw [Char.ofNat, dif_pos valid] at isMark
    exact congrArg Char.toNat isMark
  · rw [Char.ofNat, dif_neg valid] at isMark
    exact absurd isMark (by decide)

theorem Lowers.eq_of_mem {character : Char} {lowered : Text} (lowers : Lowers character lowered)
    (marked : '!' ∈ lowered) : character = '!' ∧ lowered = ['!'] := by
  rcases lowers with rfl | ⟨rfl, rfl⟩
  · rw [lowercaseCharacter] at marked ⊢
    split at marked
    next => exact absurd marked (by decide)
    next notDotted =>
      rw [if_neg notDotted]
      split at marked
      next run found =>
        -- A letter becomes a letter, and all of those lie above the exclamation mark.
        have above : ∀ run ∈ caseRuns, 0x21 < run.first + run.shift := by decide +kernel
        have isRun := above run (List.mem_of_find?_eq_some found)
        have inRun := List.find?_some found
        simp only [CaseRun.contains, Bool.and_eq_true, decide_eq_true_eq] at inRun
        have code := eq_of_ofNat_eq_mark (List.mem_singleton.mp marked).symm
        omega
      next =>
        obtain rfl := List.mem_singleton.mp marked
        exact ⟨rfl, rfl⟩
  · exact absurd marked (by decide)

/-- An exclamation mark in lower case was written as one. -/
theorem exists_of_lowercaseAfter {preceding text before behind : Text}
    (lowered : lowercaseAfter preceding text = before ++ '!' :: behind) :
    ∃ front back, text = front ++ '!' :: back ∧
      lowercaseAfter ('!' :: (front.reverse ++ preceding)) back = behind := by
  induction text generalizing preceding before with
  | nil => simp [lowercaseAfter] at lowered
  | cons character rest induction =>
      obtain ⟨head, lowers, first⟩ := exists_lowercaseAfter_cons preceding character rest
      rw [first] at lowered
      have further {earlier : Text}
          (later : lowercaseAfter (character :: preceding) rest = earlier ++ '!' :: behind) :
          ∃ front back, character :: rest = front ++ '!' :: back ∧
            lowercaseAfter ('!' :: (front.reverse ++ preceding)) back = behind := by
        obtain ⟨front, back, rfl, same⟩ := induction later
        refine ⟨character :: front, back, rfl, ?_⟩
        rw [List.reverse_cons, List.append_assoc]
        exact same
      rcases List.append_eq_append_iff.mp lowered with ⟨more, rfl, later⟩ | ⟨more, rfl, later⟩
      · exact further later
      · cases more with
        | nil => exact @further [] later.symm
        | cons mark more =>
            -- The mark stands in what the first character becomes, so it is that character.
            obtain ⟨rfl, rfl⟩ := List.cons.inj later
            obtain ⟨rfl, alone⟩ := lowers.eq_of_mem (by simp)
            rcases List.append_eq_singleton_iff.mp alone with ⟨rfl, same⟩ | ⟨-, same⟩
            · obtain ⟨-, rfl⟩ := List.cons.inj same
              exact ⟨[], rest, rfl, rfl⟩
            · cases same

theorem meetsCased_mark (preceding before : Text) :
    meetsCased (preceding ++ '!' :: before) = meetsCased preceding := by
  have passes : isCaseIgnorable '!' = false := by decide +kernel
  have noCase : isCased '!' = false := by decide +kernel
  induction preceding with
  | nil => simp [meetsCased, passes, noCase]
  | cons character preceding induction =>
      rw [meetsCased, meetsCased] at induction ⊢
      rw [List.cons_append, List.dropWhile_cons, List.dropWhile_cons]
      split
      · exact induction
      · rfl

/-- What stands in front of an exclamation mark does not matter behind it. -/
theorem lowercaseAfter_mark (preceding before text : Text) :
    lowercaseAfter (preceding ++ '!' :: before) text = lowercaseAfter preceding text := by
  induction text generalizing preceding with
  | nil => rfl
  | cons character rest induction =>
      rw [lowercaseAfter, lowercaseAfter, meetsCased_mark, ← List.cons_append, induction]

theorem Lowers.length_eq {character : Char} {lowered : Text} (lowers : Lowers character lowered) :
    lowered.length = if character = dottedCapitalI then 2 else 1 := by
  rcases lowers with rfl | ⟨rfl, rfl⟩
  · rw [lowercaseCharacter]
    split
    · rfl
    · split <;> rfl
  · rfl

theorem length_lowercaseAfter (preceding text : Text) :
    (lowercaseAfter preceding text).length = text.length + text.count dottedCapitalI := by
  induction text generalizing preceding with
  | nil => rfl
  | cons character rest induction =>
      obtain ⟨head, lowers, first⟩ := exists_lowercaseAfter_cons preceding character rest
      rw [first, List.length_append, induction, lowers.length_eq, List.length_cons,
        List.count_cons]
      simp only [beq_iff_eq]
      split <;> omega

/-- A text that ends with an exclamation mark and a name in lower case was written so. -/
theorem exists_of_isSuffix_lowercase {text name : Text}
    (ends : '!' :: lowercase name <:+ lowercase text) :
    ∃ front written, text = front ++ '!' :: written ∧ lowercase written = lowercase name := by
  obtain ⟨before, lowered⟩ := ends
  obtain ⟨front, written, split, same⟩ := exists_of_lowercaseAfter lowered.symm
  refine ⟨front, written, split, ?_⟩
  rw [lowercase, ← same]
  exact (lowercaseAfter_mark [] _ written).symm

end Text

/-! ## Pieces -/

theorem perm_insertName {name : Text} {names : List Text} (isNew : name ∉ names) :
    (insertName name names).Perm (name :: names) := by
  induction names with
  | nil => exact .refl _
  | cons head tail induction =>
      rw [List.mem_cons, not_or] at isNew
      rw [insertName]
      split
      · exact .refl _
      · rw [if_neg isNew.1]
        exact ((induction isNew.2).cons head).trans (.swap name head tail)

namespace Flagged

open Text (Blank dottedCapitalI)

/-- What is cut off with a flag: the blanks in front of it, the characters that it takes
along, and the name of the flag as it was written. -/
structure Piece where
  name : Text
  gap : Text
  overrun : Text
  written : Text

namespace Piece

def text (piece : Piece) : Text :=
  piece.gap ++ piece.overrun ++ '!' :: piece.written

/-- By how much the flag grows when it is lower-cased. -/
def growth (piece : Piece) : Nat :=
  piece.written.count dottedCapitalI

/-- The piece stands for the flag of its name. -/
structure Spells (piece : Piece) : Prop where
  blank : Blank piece.gap
  same : Text.lowercase piece.written = Text.lowercase piece.name
  overrun : piece.overrun.length ≤ piece.growth

theorem text_ne_nil (piece : Piece) : piece.text ≠ [] := by
  simp [text]

end Piece

/-- Nothing is trimmed at the front of what a trimmed text begins with. -/
theorem exists_gap {front text : Text} (trimmed : text.trim = text) (begins : front <+: text) :
    ∃ gap, Blank gap ∧ front = front.trim ++ gap := by
  obtain ⟨white, gap, whiteBlank, gapBlank, split⟩ := Text.exists_append_trim_append front
  cases white with
  | nil => exact ⟨gap, gapBlank, split⟩
  | cons character white =>
      obtain ⟨later, rfl⟩ := begins
      have visible := (Text.trim_eq_self_iff.mp trimmed).1 character (by rw [split]; rfl)
      rw [whiteBlank.head] at visible
      cases visible

/-- A flag takes along as many characters as it grows when it is lower-cased. -/
theorem value_take_of_lowercase {flagged : Flagged} {name front written : Text}
    (split : flagged.value = front ++ '!' :: written)
    (same : Text.lowercase written = Text.lowercase name) :
    (flagged.take name).value =
      Text.trim (front.take (front.length - written.count dottedCapitalI)) := by
  have flagLength : (flag name).length = written.length + written.count dottedCapitalI + 1 := by
    rw [flag, List.length_cons, ← same, Text.lowercase, Text.length_lowercaseAfter]
  have place : flagged.value.length - (flag name).length =
      front.length - written.count dottedCapitalI := by
    rw [split, flagLength, List.length_append, List.length_cons]
    omega
  rw [take, place, split, List.take_append_of_le_length (Nat.sub_le ..)]

/-- One flag that is taken is one piece of the value. -/
theorem exists_piece {flagged : Flagged} {name : Text}
    (trimmed : flagged.value.trim = flagged.value)
    (ends : flag name <:+ Text.lowercase flagged.value) :
    ∃ piece : Piece, piece.name = name ∧ piece.Spells ∧
      flagged.value = (flagged.take name).value ++ piece.text ∧
        ((flagged.take name).value ≠ [] → piece.overrun.length = piece.growth) := by
  obtain ⟨front, written, split, same⟩ := Text.exists_of_isSuffix_lowercase ends
  rw [value_take_of_lowercase split same]
  generalize growth : written.count dottedCapitalI = count
  have begins : front.take (front.length - count) <+: flagged.value := by
    rw [split]
    exact (List.take_prefix ..).trans (List.prefix_append ..)
  obtain ⟨gap, blank, gapSplit⟩ := exists_gap trimmed begins
  refine ⟨⟨name, gap, front.drop (front.length - count), written⟩, rfl, ⟨blank, same, ?_⟩, ?_, ?_⟩
  · rw [Piece.growth, growth, List.length_drop]
    omega
  · rw [Piece.text, ← List.append_assoc, ← List.append_assoc, ← gapSplit, List.take_append_drop]
    exact split
  · rw [Piece.growth, growth, List.length_drop]
    intro something
    rcases Nat.lt_or_ge count front.length with inside | beyond
    · omega
    · rw [Nat.sub_eq_zero_of_le beyond] at something
      exact absurd rfl something

variable {names : List Text}

/-- A value is made up of what is left of it and pieces for flags of the names. Each flag takes
as many characters along as it grows; only the first one may find fewer in front of it, and
then nothing is left. -/
structure TakenApart (names : List Text) (value left : Text) (pieces : List Piece) : Prop where
  split : value = left ++ pieces.flatMap Piece.text
  spells : ∀ piece ∈ pieces, piece.name ∈ names ∧ piece.Spells
  reaches : ∀ piece ∈ pieces, piece.overrun.length = piece.growth ∨
    left = [] ∧ pieces.head? = some piece

namespace TakenApart

variable {value left : Text} {pieces : List Piece}

theorem nil (value : Text) : TakenApart names value value [] := by
  constructor <;> simp

theorem eq_nil_of_value (whole : TakenApart names [] left pieces) : pieces = [] := by
  have parts := List.append_eq_nil_iff.mp whole.split.symm
  cases pieces with
  | nil => rfl
  | cons piece pieces =>
      have none_ := (List.append_eq_nil_iff.mp parts.2).1
      exact absurd none_ piece.text_ne_nil

/-- One more piece behind a value. -/
theorem concat (whole : TakenApart names value left pieces) {piece : Piece}
    (isName : piece.name ∈ names) (spells : piece.Spells)
    (reaches : value ≠ [] → piece.overrun.length = piece.growth) :
    TakenApart names (value ++ piece.text) left (pieces ++ [piece]) := by
  constructor
  · rw [List.flatMap_append, List.flatMap_singleton, ← List.append_assoc, ← whole.split]
  · intro other member
    rcases List.mem_append.mp member with earlier | last
    · exact whole.spells other earlier
    · obtain rfl := List.mem_singleton.mp last
      exact ⟨isName, spells⟩
  · intro other member
    rcases List.mem_append.mp member with earlier | last
    · refine (whole.reaches other earlier).imp_right fun ⟨nothing, first⟩ => ⟨nothing, ?_⟩
      rw [List.head?_append, first]
      rfl
    · obtain rfl := List.mem_singleton.mp last
      cases value with
      | nil =>
          have noPieces := whole.eq_nil_of_value
          have nothing := (List.append_eq_nil_iff.mp whole.split.symm).1
          subst noPieces nothing
          exact Or.inr ⟨rfl, rfl⟩
      | cons head tail => exact Or.inl (reaches (List.cons_ne_nil head tail))

/-- Without a dotted capital I, nothing but blanks and flags is taken. -/
theorem overrun_eq_nil (whole : TakenApart names value left pieces)
    (noDotted : dottedCapitalI ∉ value) : ∀ piece ∈ pieces, piece.overrun = [] := by
  intro piece member
  have noGrowth : piece.growth = 0 := by
    apply List.count_eq_zero.mpr
    intro dotted
    have inText : dottedCapitalI ∈ piece.text :=
      List.mem_append_right _ (List.mem_cons_of_mem _ dotted)
    apply noDotted
    rw [whole.split]
    exact List.mem_append_right _ (List.mem_flatMap.mpr ⟨piece, member, inText⟩)
  have short := (whole.spells piece member).2.overrun
  rw [noGrowth] at short
  exact List.length_eq_zero_iff.mp (Nat.le_zero.mp short)

end TakenApart

/-- Taking flags takes pieces off the value, one for each name. -/
theorem exists_pieces_takeAll (rounds : Nat) {flagged : Flagged}
    (trimmed : flagged.value.trim = flagged.value) :
    ∃ pieces, TakenApart names flagged.value (takeAll names rounds flagged).value pieces ∧
      (takeAll names rounds flagged).modifiers.names.Perm
        (pieces.map (·.name) ++ flagged.modifiers.names) := by
  induction rounds generalizing flagged with
  | zero => exact ⟨[], .nil _, .refl _⟩
  | succ rounds induction =>
      rw [takeAll]
      split
      · exact ⟨[], .nil _, .refl _⟩
      · split
        · exact ⟨[], .nil _, .refl _⟩
        next name found =>
          obtain ⟨isName, untaken, ends⟩ := next?_eq_some found
          obtain ⟨piece, rfl, spells, split, reaches⟩ :=
            exists_piece trimmed (List.isSuffixOf_iff_suffix.mp ends)
          have isNew : piece.name ∉ flagged.modifiers.names := by
            intro member
            rw [NameSet.contains, List.contains_iff_mem.mpr member] at untaken
            cases untaken
          have stays : (flagged.take piece.name).value.trim = (flagged.take piece.name).value :=
            Text.trim_trim _
          obtain ⟨pieces, whole, taken⟩ := induction stays
          refine ⟨pieces ++ [piece], ?_, ?_⟩
          · conv => arg 2; rw [split]
            exact whole.concat isName spells reaches
          · rw [List.map_append, List.append_assoc]
            exact taken.trans ((perm_insertName isNew).append_left _)

/-- What is left of a value is trimmed, no flag of a name that was not taken ends it, and
behind it stands one piece for each name that was taken. -/
theorem ofValue_pieces (names : List Text) {value : Text} (trimmed : value.trim = value) :
    let left := ofValue names value
    left.value.trim = left.value ∧
      (left.value = [] ∨ ∀ name ∈ names, name ∉ left.modifiers.names →
        ¬('!' :: Text.lowercase name) <:+ Text.lowercase left.value) ∧
      ∃ pieces, TakenApart names value left.value pieces ∧
        (pieces.map (·.name)).Perm left.modifiers.names ∧
          (dottedCapitalI ∉ value → ∀ piece ∈ pieces, piece.overrun = []) := by
  intro left
  have start : (⟨value, .empty⟩ : Flagged).value.trim = value := trimmed
  refine ⟨trim_value_takeAll _ start, ?_, ?_⟩
  · refine (next?_takeAll (List.length_filter_le _ _)).imp_right fun noNext => ?_
    intro name isName untaken ends
    have notContained : left.modifiers.contains name = false :=
      Bool.eq_false_iff.mpr fun contained => untaken (List.contains_iff_mem.mp contained)
    have noFlag := next?_eq_none_iff.mp noNext name isName notContained
    exact Bool.eq_false_iff.mp noFlag (List.isSuffixOf_iff_suffix.mpr ends)
  · obtain ⟨pieces, whole, taken⟩ := exists_pieces_takeAll names.length start
    rw [NameSet.empty, List.append_nil] at taken
    exact ⟨pieces, whole, taken.symm, whole.overrun_eq_nil⟩

theorem ofValue_pieces_important :
    let names := ["default".toList, "important".toList]
    let value : Text := "1px !default  !IMPORTANT".toList
    value.trim = value ∧ ∃ pieces, TakenApart names value "1px".toList pieces ∧
      (pieces.map (·.name)).Perm names ∧ ∀ piece ∈ pieces, piece.overrun = [] := by
  intro names value
  have trimmed : value.trim = value := by decide
  have left : ofValue names value = ⟨"1px".toList, .ofList names⟩ := by decide +kernel
  obtain ⟨-, -, pieces, whole, taken, noOverrun⟩ := ofValue_pieces names trimmed
  rw [left] at whole taken
  exact ⟨trimmed, pieces, whole, taken, noOverrun (by decide)⟩

/-- A flag that grows when it is lower-cased takes along what is no part of it. -/
theorem not_forall_overrun_eq_nil :
    ¬∀ (names : List Text) (value : Text), value.trim = value → ∃ pieces : List Piece,
      value = (ofValue names value).value ++ pieces.flatMap Piece.text ∧
        (pieces.map (·.name)).Perm (ofValue names value).modifiers.names ∧
          ∀ piece ∈ pieces, piece.Spells ∧ piece.overrun = [] := by
  intro claim
  have left : ofValue [[dottedCapitalI]] ['c', 'd', '!', dottedCapitalI] =
      ⟨['c'], .ofList [[dottedCapitalI]]⟩ := by decide +kernel
  obtain ⟨pieces, split, taken, spells⟩ :=
    claim [[dottedCapitalI]] ['c', 'd', '!', dottedCapitalI] (by decide)
  rw [left] at split taken
  obtain ⟨⟨name, gap, overrun, written⟩, rfl, -⟩ :=
    List.map_eq_singleton_iff.mp (List.perm_singleton.mp taken)
  obtain ⟨⟨blank, -, -⟩, rfl⟩ := spells _ List.mem_cons_self
  rw [List.flatMap_singleton] at split
  have behind := (List.cons.inj split).2
  cases gap with
  | nil => exact absurd (List.cons.inj behind).1 (by decide)
  | cons character gap =>
      have isBlank := blank.head
      rw [← (List.cons.inj behind).1] at isBlank
      cases isBlank

end Flagged

end Stylesheet
