import Mathlib.Data.List.DropRight
import Stylesheet.Proofs.Text.Veiled

/-!
# Flags behind an escaped character

No flag reaches over a backslash, so what stands before an escape does not matter for the
flags at the end of a value. The escaped character itself matters only if a flag begins
with it: this is so if nothing but the backslash is left where the text from the backslash
on is taken as a value.
-/

namespace Stylesheet

namespace Text

/-- What stands behind a character that shows is not trimmed at its front. -/
theorem trimStart_append_cons {visible : Char} (shows : isBlank visible = false)
    (before behind : Text) :
    trimStart (before ++ visible :: behind) = trimStart before ++ visible :: behind := by
  induction before with
  | nil => exact List.dropWhile_cons_of_neg (by simp [shows])
  | cons character before induction =>
      by_cases blank : isBlank character = true
      · rw [trimStart, List.cons_append, List.dropWhile_cons_of_pos blank, trimStart,
          List.dropWhile_cons_of_pos blank]
        exact induction
      · rw [trimStart, List.cons_append, List.dropWhile_cons_of_neg blank, trimStart,
          List.dropWhile_cons_of_neg blank, List.cons_append]

theorem trim_append_cons {visible : Char} (shows : isBlank visible = false)
    (before behind : Text) :
    trim (before ++ visible :: behind) = trimStart before ++ visible :: trimEnd behind := by
  rw [trim, trimStart_append_cons shows, trimEnd_append_cons shows]

/-- A character that is its own lower case and stands in no flag. -/
structure IsBar (character : Char) : Prop where
  lowers : lowercaseCharacter character = [character]
  noSigma : character ≠ capitalSigma
  noFlag : ∀ name ∈ defaultModifiers, character ∉ Flagged.flag name
  visible : isBlank character = false

theorem isBar_backslash : IsBar '\\' := by
  constructor <;> decide

theorem isBlank_backslash : isBlank '\\' = false :=
  isBar_backslash.visible

theorem not_blank_escaped (before behind : Text) : ¬Blank (before ++ '\\' :: behind) := by
  intro blank
  have isBlank := blank '\\' (by simp)
  rw [isBlank_backslash] at isBlank
  cases isBlank

/-- What stands behind the last of some characters is a suffix without it. -/
theorem exists_append_of_suffix {front written before behind : Text} {character : Char}
    (split : before ++ character :: behind = front ++ written) (notWritten : character ∉ written) :
    ∃ between, behind = between ++ written ∧ front = before ++ character :: between := by
  rcases List.append_eq_append_iff.mp split with ⟨more, rfl, tail⟩ | ⟨more, rfl, tail⟩
  · cases more with
    | nil =>
        rw [List.nil_append] at tail
        exact absurd (tail ▸ List.mem_cons_self) notWritten
    | cons head between =>
        obtain ⟨rfl, rfl⟩ := List.cons.inj tail
        exact ⟨between, rfl, rfl⟩
  · exact absurd (tail ▸ List.mem_append_right _ List.mem_cons_self) notWritten

end Text

namespace Flagged

open Text (IsBar)

variable {name value front behind : Text} {character : Char} {taken : NameSet}

/-- No flag holds a bar, in whatever case it is written. -/
theorem exists_written (isDefault : name ∈ defaultModifiers)
    (ends : (flag name).isSuffixOf (Text.lowercase value) = true) :
    ∃ front written, value = front ++ written ∧ written.length = (flag name).length ∧
      ∀ character, IsBar character → character ∉ written := by
  obtain ⟨front, pieces, split, same, each⟩ := exists_pieces_of_isSuffixOf isDefault ends
  refine ⟨front, pieces.map (·.1), split, ?_, ?_⟩
  · simpa using congrArg List.length same
  · intro character isBar member
    obtain ⟨piece, inPieces, rfl⟩ := List.mem_map.mp member
    have inSame : piece.2 ∈ (flag name).map ([·]) := same ▸ List.mem_map_of_mem inPieces
    obtain ⟨lowered, inFlag, single⟩ := List.mem_map.mp inSame
    rcases each piece inPieces with lowers | ⟨isSigma, -⟩
    · rw [← single, isBar.lowers] at lowers
      rw [(List.cons.inj lowers).1] at inFlag
      exact isBar.noFlag name isDefault inFlag
    · exact isBar.noSigma isSigma

/-! ## In front of the backslash -/

/-- A flag that ends an escape and what follows ends what follows, unless it begins with the
escaped character. -/
theorem isSuffixOf_escaped_iff (isDefault : name ∈ defaultModifiers) :
    (flag name).isSuffixOf (Text.lowercase (front ++ '\\' :: behind)) = true ↔
      (flag name).isSuffixOf (Text.lowercase behind) = true := by
  constructor
  · intro ends
    obtain ⟨before, written, split, length, noBar⟩ := exists_written isDefault ends
    obtain ⟨between, rfl, rfl⟩ :=
      Text.exists_append_of_suffix split (noBar _ Text.isBar_backslash)
    rw [split] at ends
    exact isSuffixOf_append isDefault length ends between
  · intro ends
    obtain ⟨before, written, rfl, length, -⟩ := exists_written isDefault ends
    have whole := isSuffixOf_append isDefault length ends (front ++ '\\' :: before)
    rwa [List.append_assoc, List.cons_append] at whole

theorem next?_escaped :
    next? defaultModifiers ⟨front ++ '\\' :: behind, taken⟩ =
      next? defaultModifiers ⟨behind, taken⟩ := by
  unfold next?
  refine List.find?_congr fun name isDefault => congrArg₂ (· && ·) rfl ?_
  exact Bool.eq_iff_iff.mpr (isSuffixOf_escaped_iff isDefault)

/-- A flag leaves the backslash, and what stands between both but for blanks. -/
theorem take_escaped {between written : Text} (trimmed : Text.trimStart front = front)
    (length : written.length = (flag name).length) :
    take ⟨front ++ '\\' :: (between ++ written), taken⟩ name =
      ⟨front ++ '\\' :: Text.trimEnd between, taken.insert name⟩ := by
  rw [take, ← List.cons_append, ← List.append_assoc, List.length_append, length,
    Nat.add_sub_cancel, List.take_left, Text.trim_append_cons Text.isBlank_backslash, trimmed]

theorem takeAll_of_none {names : List Text} {flagged : Flagged}
    (noNext : flagged.next? names = none) (rounds : Nat) :
    takeAll names rounds flagged = flagged := by
  cases rounds with
  | zero => rfl
  | succ rounds =>
      rw [takeAll, noNext]
      split <;> rfl

theorem takeAll_of_some {names : List Text} {flagged : Flagged} {name : Text}
    (next : flagged.next? names = some name) (some_ : flagged.value ≠ []) (rounds : Nat) :
    takeAll names (rounds + 1) flagged = takeAll names rounds (flagged.take name) := by
  rw [takeAll, if_neg (by simpa using some_), next]

/-- What stands in front of a backslash is left as it is, whatever it is, and bars behind the
backslash are left as well. -/
theorem exists_takeAll_escaped (rounds : Nat) (behind : Text) (taken : NameSet) :
    ∃ kept modifiers,
      (∀ character ∈ behind, IsBar character → character ∈ kept) ∧
      ∀ front, Text.trimStart front = front →
        takeAll defaultModifiers rounds ⟨front ++ '\\' :: behind, taken⟩ =
          ⟨front ++ '\\' :: kept, modifiers⟩ := by
  induction rounds generalizing behind taken with
  | zero => exact ⟨behind, taken, fun _ member _ => member, fun _ _ => rfl⟩
  | succ rounds induction =>
      have filled (front : Text) : front ++ '\\' :: behind ≠ [] := by simp
      cases found : next? defaultModifiers ⟨behind, taken⟩ with
      | none =>
          refine ⟨behind, taken, fun _ member _ => member, fun front _ => ?_⟩
          exact takeAll_of_none (next?_escaped.trans found) _
      | some name =>
          obtain ⟨isDefault, -, ends⟩ := next?_eq_some found
          obtain ⟨between, written, rfl, length, noBar⟩ := exists_written isDefault ends
          obtain ⟨kept, modifiers, bars, leaves⟩ :=
            induction (Text.trimEnd between) (taken.insert name)
          refine ⟨kept, modifiers, fun character member isBar => bars character ?_ isBar,
            fun front trimmed => ?_⟩
          · have inBetween : character ∈ between :=
              (List.mem_append.mp member).resolve_right (noBar character isBar)
            obtain ⟨before, after, rfl⟩ := List.append_of_mem inBetween
            rw [Text.trimEnd_append_cons isBar.visible]
            simp
          · rw [takeAll_of_some (next?_escaped.trans found) (filled front),
              take_escaped trimmed length, leaves front trimmed]

/-! ## Behind the backslash -/

/-- Whether a flag ends a text does not depend on its first character, unless the flag is all
of it. -/
theorem next?_cons (character : Char) (behind : Text) (taken : NameSet) :
    next? defaultModifiers ⟨character :: behind, taken⟩ =
        next? defaultModifiers ⟨behind, taken⟩ ∨
      ∃ name, next? defaultModifiers ⟨character :: behind, taken⟩ = some name ∧
        (flag name).length = behind.length + 1 := by
  have longer {name : Text} (isDefault : name ∈ defaultModifiers)
      (ends : (flag name).isSuffixOf (Text.lowercase behind) = true) :
      (flag name).isSuffixOf (Text.lowercase (character :: behind)) = true := by
    obtain ⟨before, written, rfl, length, -⟩ := exists_written isDefault ends
    exact isSuffixOf_append isDefault length ends (character :: before)
  cases found : next? defaultModifiers ⟨character :: behind, taken⟩ with
  | none =>
      left
      symm
      rw [next?_eq_none_iff] at found ⊢
      intro name isName untaken
      have noFlag := Bool.eq_false_iff.mp (found name isName untaken)
      exact Bool.eq_false_iff.mpr fun ends => noFlag (longer isName ends)
  | some name =>
      obtain ⟨isDefault, untaken, ends⟩ := next?_eq_some found
      by_cases endsBehind : (flag name).isSuffixOf (Text.lowercase behind) = true
      · -- The names that come before this one end the longer text no more than the shorter one.
        obtain ⟨-, before, after, names, others⟩ := List.find?_eq_some_iff_append.mp found
        left
        symm
        refine List.find?_eq_some_iff_append.mpr ⟨?_, before, after, names, ?_⟩
        · rw [untaken, endsBehind]
          rfl
        · intro other member
          have isOther : other ∈ defaultModifiers := names ▸ List.mem_append_left _ member
          have noFlag := others other member
          revert noFlag
          cases endsOther : (flag other).isSuffixOf (Text.lowercase behind) with
          | false => simp
          | true => simp [longer isOther endsOther]
      · refine Or.inr ⟨name, rfl, ?_⟩
        dsimp only at ends
        obtain ⟨before, written, split, length, -⟩ := exists_written isDefault ends
        rw [split] at ends
        cases before with
        | nil =>
            rw [← length, ← List.nil_append written, ← split, List.length_cons]
        | cons head before =>
            obtain ⟨rfl, rfl⟩ := List.cons.inj split
            exact absurd (isSuffixOf_append isDefault length ends before) endsBehind

/-- Nothing is taken from a backslash alone. -/
theorem takeAll_backslash (rounds : Nat) (taken : NameSet) :
    takeAll defaultModifiers rounds ⟨['\\'], taken⟩ = ⟨['\\'], taken⟩ := by
  have noNext : next? defaultModifiers ⟨['\\'], taken⟩ = none := by
    have table : ∀ name ∈ defaultModifiers,
        (flag name).isSuffixOf (Text.lowercase ['\\']) = false := by decide
    exact next?_eq_none_iff.mpr fun name isName _ => table name isName
  exact takeAll_of_none noNext rounds

/-- Which flags are taken does not depend on an escaped character, unless one of them begins
with it. -/
theorem exists_takeAll_escaped_cons (rounds : Nat) (behind : Text) (taken : NameSet) :
    ∃ kept modifiers, ∀ character, Text.isBlank character = false →
      (takeAll defaultModifiers rounds ⟨'\\' :: character :: behind, taken⟩).value ≠ ['\\'] →
        takeAll defaultModifiers rounds ⟨'\\' :: character :: behind, taken⟩ =
          ⟨'\\' :: character :: kept, modifiers⟩ := by
  induction rounds generalizing behind taken with
  | zero => exact ⟨behind, taken, fun _ _ _ => rfl⟩
  | succ rounds induction =>
      have looks (character : Char) :
          next? defaultModifiers ⟨'\\' :: character :: behind, taken⟩ =
            next? defaultModifiers ⟨character :: behind, taken⟩ :=
        @next?_escaped [] (character :: behind) taken
      -- A flag that begins with the escaped character leaves the backslash alone.
      have same {character : Char}
          (spared : (takeAll defaultModifiers (rounds + 1)
            ⟨'\\' :: character :: behind, taken⟩).value ≠ ['\\']) :
          next? defaultModifiers ⟨character :: behind, taken⟩ =
            next? defaultModifiers ⟨behind, taken⟩ := by
        refine (next?_cons character behind taken).resolve_right ?_
        rintro ⟨name, found, length⟩
        apply spared
        rw [takeAll_of_some ((looks character).trans found) (List.cons_ne_nil _ _), take,
          List.length_cons, List.length_cons, length, Nat.add_sub_cancel_left,
          List.take_succ_cons, List.take_zero]
        exact congrArg Flagged.value (takeAll_backslash ..)
      cases found : next? defaultModifiers ⟨behind, taken⟩ with
      | none =>
          refine ⟨behind, taken, fun character _ spared => ?_⟩
          exact takeAll_of_none ((looks character).trans ((same spared).trans found)) _
      | some name =>
          obtain ⟨isDefault, -, ends⟩ := next?_eq_some found
          obtain ⟨between, written, rfl, length, -⟩ := exists_written isDefault ends
          obtain ⟨kept, modifiers, leaves⟩ :=
            induction (Text.trimEnd between) (taken.insert name)
          refine ⟨kept, modifiers, fun character visible spared => ?_⟩
          have taken_ : take ⟨'\\' :: character :: (between ++ written), taken⟩ name =
              ⟨'\\' :: character :: Text.trimEnd between, taken.insert name⟩ := by
            have whole := @take_escaped name [] taken (character :: between) written rfl length
            have kept := Text.trimEnd_append_cons visible [] between
            rw [List.nil_append, List.nil_append] at kept
            rwa [kept] at whole
          have next := (looks character).trans ((same spared).trans found)
          rw [takeAll_of_some next (List.cons_ne_nil _ _), taken_] at spared ⊢
          exact leaves character visible spared

/-! ## Values with an escape -/

/-- Whether more than the backslash is left where a value begins with an escape and the flags
at its end are taken off. -/
def leavesEscape (names : List Text) (character : Char) (behind : Text) : Bool :=
  (ofValue names (Text.trim ('\\' :: character :: behind))).value != ['\\']

theorem trim_escaped {character : Char} (visible : Text.isBlank character = false)
    (before behind : Text) :
    Text.trim (before ++ '\\' :: character :: behind) =
      Text.trimStart before ++ '\\' :: character :: Text.trimEnd behind := by
  have kept := Text.trimEnd_append_cons visible [] behind
  rw [List.nil_append, List.nil_append] at kept
  rw [Text.trim_append_cons Text.isBlank_backslash, kept]

/-- No flag begins with an escaped character if a bar is at or behind it. -/
theorem leavesEscape_of_isBar {bar : Char} (isBar : IsBar bar)
    (visible : Text.isBlank character = false) (member : bar ∈ character :: behind) :
    leavesEscape defaultModifiers character behind = true := by
  obtain ⟨kept, modifiers, bars, leaves⟩ :=
    exists_takeAll_escaped defaultModifiers.length (character :: Text.trimEnd behind) .empty
  have left : bar ∈ character :: Text.trimEnd behind := by
    rcases List.mem_cons.mp member with rfl | member
    · exact List.mem_cons_self
    · obtain ⟨before, after, rfl⟩ := List.append_of_mem member
      rw [Text.trimEnd_append_cons isBar.visible]
      simp
  have inKept := bars bar left isBar
  have trimmed := trim_escaped visible [] behind
  rw [List.nil_append] at trimmed
  rw [leavesEscape, trimmed, ofValue, leaves _ rfl, bne_iff_ne]
  intro alone
  obtain rfl : kept = [] := by simpa [Text.trimStart] using alone
  cases inKept

/-- The modifiers of a value do not depend on an escaped character in it, unless a flag begins
with that character, and the value is never blank. -/
theorem exists_modifiers_escaped (before behind : Text) :
    ∃ modifiers, ∀ character, Text.isBlank character = false →
      leavesEscape defaultModifiers character behind = true →
        let flagged := ofValue defaultModifiers
          (Text.trim (before ++ '\\' :: character :: behind))
        ¬Text.Blank flagged.value ∧ flagged.modifiers = modifiers := by
  obtain ⟨inner, modifiers, common⟩ :=
    exists_takeAll_escaped_cons defaultModifiers.length (Text.trimEnd behind) .empty
  refine ⟨modifiers, fun character visible spared => ?_⟩
  obtain ⟨kept, others, -, leaves⟩ :=
    exists_takeAll_escaped defaultModifiers.length (character :: Text.trimEnd behind) .empty
  have alone := leaves [] rfl
  have trimmed := trim_escaped visible [] behind
  rw [List.nil_append] at alone trimmed
  rw [leavesEscape, bne_iff_ne, trimmed] at spared
  have same := alone.symm.trans (common character visible spared)
  have modifiersEq : others = modifiers := congrArg Flagged.modifiers same
  dsimp only
  rw [trim_escaped visible, ofValue, leaves (Text.trimStart before)
    (List.dropWhile_idempotent Text.isBlank before)]
  exact ⟨Text.not_blank_escaped _ _, modifiersEq⟩

end Flagged
end Stylesheet
