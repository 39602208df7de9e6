import Stylesheet.Text.Basic

/-!
# Searching a text

What a search finds stands there. The search for a closing parenthesis is also
read off one character at a time.
-/

namespace Stylesheet
namespace Text

theorem drop_length_takeWhile (test : Char → Bool) (text : Text) :
    text.drop (text.takeWhile test).length = text.dropWhile test := by
  induction text with
  | nil => rfl
  | cons character rest induction =>
      by_cases passes : test character = true
      · simpa [passes] using induction
      · simp [passes]

theorem drop_isPrefix_drop {first second : Text} (same : first <+: second) (count : Nat) :
    first.drop count <+: second.drop count := by
  obtain ⟨later, rfl⟩ := same
  rw [List.drop_append]
  exact List.prefix_append ..

theorem isPrefix_of_find? {phrase text : Text} {index : Nat}
    (found : find? phrase text = some index) : phrase <+: text.drop index := by
  induction text generalizing index with
  | nil =>
      unfold find? at found
      split at found
      next empty =>
        rw [List.isEmpty_iff.mp empty]
        exact List.nil_prefix
      next => cases found
  | cons character rest induction =>
      unfold find? at found
      split at found
      next here =>
        cases found
        exact List.isPrefixOf_iff_prefix.mp here
      next =>
        obtain ⟨later, foundLater, rfl⟩ := Option.map_eq_some_iff.mp found
        exact induction foundLater

theorem isPrefix_of_findFrom? {phrase source : Text} {start stop : Nat}
    (found : findFrom? phrase source start = some stop) :
    start ≤ stop ∧ phrase <+: source.drop stop := by
  simp only [findFrom?, place_natCast] at found
  obtain ⟨index, foundLater, rfl⟩ := Option.map_eq_some_iff.mp found
  refine ⟨Nat.le_add_right .., ?_⟩
  have here := isPrefix_of_find? foundLater
  rwa [List.drop_drop] at here

/-! ## Ends -/

/-- The first `count` characters of a text end with the given one. -/
def EndsAt (text : Text) (count : Nat) (last : Char) : Prop :=
  0 < count ∧ text[count - 1]? = some last

theorem EndsAt.here {last : Char} (rest : Text) : EndsAt (last :: rest) 1 last :=
  ⟨Nat.one_pos, rfl⟩

theorem EndsAt.of_drop {text : Text} {width count : Nat} {last : Char}
    (ends : EndsAt (text.drop width) count last) : text.EndsAt (width + count) last := by
  obtain ⟨positive, found⟩ := ends
  refine ⟨by omega, ?_⟩
  rwa [List.getElem?_drop, ← Nat.add_sub_assoc positive] at found

theorem EndsAt.cons {text : Text} {count : Nat} {last : Char} (ends : text.EndsAt count last)
    (character : Char) : EndsAt (character :: text) (count + 1) last := by
  rw [Nat.add_comm]
  exact @EndsAt.of_drop (character :: text) 1 count last ends

theorem EndsAt.le_length {text : Text} {count : Nat} {last : Char}
    (ends : text.EndsAt count last) : count ≤ text.length := by
  obtain ⟨positive, found⟩ := ends
  have inside := (List.getElem?_eq_some_iff.mp found).1
  omega

theorem EndsAt.getLast? {text : Text} {last : Char} (ends : text.EndsAt text.length last) :
    text.getLast? = some last := by
  rw [List.getLast?_eq_getElem?]
  exact ends.2

theorem endsAt_of_find? (phrase : Text) {text : Text} {index : Nat} {last : Char}
    (found : find? (phrase ++ [last]) text = some index) :
    text.EndsAt (index + (phrase.length + 1)) last := by
  obtain ⟨rest, split⟩ := isPrefix_of_find? found
  refine EndsAt.of_drop ⟨Nat.succ_pos _, ?_⟩
  rw [← split]
  simp

/-! ## Parentheses -/

/-- How many characters there are up to the first `)`, that one included. -/
def parenReach? : Text → Option Nat
  | [] => none
  | character :: rest => if character = ')' then some 1 else (parenReach? rest).map (· + 1)

theorem find?_paren (text : Text) :
    (find? [')'] text).map (· + 1) = parenReach? text := by
  induction text with
  | nil => rfl
  | cons character rest induction =>
      by_cases closes : character = ')'
      · subst closes
        simp [find?, parenReach?]
      · have differs : ¬(')' = character) := Ne.symm closes
        rw [parenReach?, if_neg closes, ← induction]
        simp [find?, differs]

theorem endsAt_of_parenReach? {text : Text} {count : Nat}
    (reached : parenReach? text = some count) : text.EndsAt count ')' := by
  induction text generalizing count with
  | nil => simp [parenReach?] at reached
  | cons character rest induction =>
      rw [parenReach?] at reached
      split at reached
      next closes =>
        cases reached
        exact closes ▸ .here rest
      next =>
        obtain ⟨inner, found, rfl⟩ := Option.map_eq_some_iff.mp reached
        exact (induction found).cons character

theorem parenReach?_of_isPrefix {text other : Text} {count : Nat}
    (reached : parenReach? text = some count) (same : text.take count <+: other) :
    parenReach? other = some count := by
  induction text generalizing count other with
  | nil => simp [parenReach?] at reached
  | cons character rest induction =>
      rw [parenReach?] at reached
      split at reached
      next closes =>
        cases reached
        obtain ⟨later, rfl⟩ := same
        simp [parenReach?, closes]
      next open_ =>
        obtain ⟨inner, found, rfl⟩ := Option.map_eq_some_iff.mp reached
        obtain ⟨later, rfl⟩ := same
        simp only [List.take_succ_cons, List.cons_append]
        rw [parenReach?, if_neg open_, induction found (List.prefix_append ..),
          Option.map_some]

end Text

end Stylesheet
